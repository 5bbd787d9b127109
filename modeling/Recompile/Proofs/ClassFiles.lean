import Recompile.Proofs.OutputDirectory
import Recompile.Proofs.Settled
import Recompile.Proofs.Untouched

/-!
# Class files and their records

A compile keeps two things in step: the table of classes in the analysis, and the class files in the output directory. A
source that is taken out of the analysis takes its class files with it, before every round and when it is gone; the
compiler writes files, and what it reports is recorded. Nothing in the engine compares the two.

`Analysis.Tracks` says how far they agree. The file of a recorded class is there exactly if it was there when the compile
started or the source of the class was compiled since, and a file without a record is one that was there without a record
from the start. Taking out a source keeps this (`Analysis.Tracks.remove`) and so does a round
(`Analysis.Tracks.round`), as long as a source owns the classes that it lists (`Analysis.Filed`) and the compiler does what
it says (`SourceCompiler.Delivers`). Hence it holds after every successful compile (`Engine.tracks_of_compile`).
-/

namespace Recompile

/-! ### Names of class files -/

/-- **A naming of class files.** It is a function of the name of the class. The file of a valid name is below the output
directory, and different names have different files. -/
structure Naming where
  file : String → Path
  valid : String → Prop
  leadsDown : ∀ name, valid name → (file name).LeadsDown
  distinct : ∀ m n, valid m → valid n → (file m).way = (file n).way → m = n

namespace Naming

/-- The way from the output directory to the file of a class. -/
def way (N : Naming) (name : String) : Location := (N.file name).way

/-- Whether the classes of some units have their files where the naming puts them. -/
def Names (N : Naming) (units : List CompiledUnit) : Prop :=
  ∀ u ∈ units, ∀ c ∈ u.classes, N.valid c.name ∧ c.file = N.file c.name

/-- Whether a way leads to the file of a class that some units report. -/
def Reports (N : Naming) (units : List CompiledUnit) (w : Location) : Prop :=
  ∃ u ∈ units, ∃ c ∈ u.classes, N.way c.name = w

variable {N : Naming} {us vs : List CompiledUnit}

theorem Names.append (h : N.Names us) (h' : N.Names vs) : N.Names (us ++ vs) :=
  fun u hu => (List.mem_append.1 hu).elim (h u) (h' u)

theorem reports_append {w : Location} : N.Reports (us ++ vs) w ↔ N.Reports us w ∨ N.Reports vs w := by
  simp [Reports, or_and_right, exists_or]

end Naming

/-! ### Analyses with class files -/

/-- **An analysis of which every source owns the classes that it lists,** and every class has its file where the naming
puts it. -/
structure Analysis.Filed (a : Analysis) (N : Naming) : Prop where
  listed : a.Listed
  owned : ∀ p info name, a.source? p = some info → info.classes.contains name = true →
    ∃ k, a.class? name = some k ∧ (k.source == p) = true
  named : ∀ name k, a.class? name = some k → N.valid name ∧ k.classFile = N.file name

namespace Analysis.Filed

variable {N : Naming} {a : Analysis}

theorem empty : (∅ : Analysis).Filed N where
  listed := listed_empty
  owned p info name h := absurd h (by simp)
  named name k h := absurd h (by simp)

theorem remove (ha : a.Filed N) (p : Path) : (a.remove p).Filed N where
  listed := ha.listed.remove p
  owned q info name hq hlists := by
    rw [source?_remove] at hq
    split at hq
    · simp at hq
    next hqp =>
      obtain ⟨k, hk, hkq⟩ := ha.owned q info name hq hlists
      refine ⟨k, class?_remove_of_ne hk ?_, hkq⟩
      rw [BEq.congr_left hkq]
      simpa using hqp
  named name k hk := ha.named name k (class?_of_remove hk)

/-- The class files of a source are those of the classes that it owns. -/
theorem mem_classFiles (ha : a.Filed N) {p file : Path} : file ∈ a.classFiles p ↔
    ∃ name k, a.class? name = some k ∧ (k.source == p) = true ∧ k.classFile = file := by
  constructor
  · intro hfile
    unfold classFiles at hfile
    split at hfile
    next => simp at hfile
    next info hinfo =>
      obtain ⟨name, hname, hmap⟩ := List.mem_filterMap.1 hfile
      obtain ⟨k, hk, rfl⟩ := Option.map_eq_some_iff.1 hmap
      -- what a record lists belongs to its source
      obtain ⟨k', hk', howner⟩ := ha.owned p info name hinfo (SortedSet.contains_of_mem_toList hname)
      obtain rfl := Option.some.inj (hk.symm.trans hk')
      exact ⟨name, k, hk, howner, rfl⟩
  · rintro ⟨name, k, hk, howner, rfl⟩
    exact ha.listed.mem_classFiles hk howner

theorem leadsDown_of_mem_classFiles (ha : a.Filed N) {p file : Path} (hfile : file ∈ a.classFiles p) :
    file.LeadsDown := by
  obtain ⟨name, k, hk, -, rfl⟩ := ha.mem_classFiles.1 hfile
  obtain ⟨hvalid, hnamed⟩ := ha.named name k hk
  rw [hnamed]
  exact N.leadsDown name hvalid

end Analysis.Filed

/-! ### Records and files -/

/-- Whether a way leads to the file of a recorded class. -/
def Analysis.Files (a : Analysis) (w : Location) : Prop :=
  ∃ name k, a.class? name = some k ∧ k.classFile.way = w

/-- The file of a valid name belongs to an analysis exactly if the class is recorded. -/
theorem Analysis.Filed.files_iff {N : Naming} {a : Analysis} (ha : a.Filed N) {name : String} (hvalid : N.valid name) :
    a.Files (N.way name) ↔ ∃ k, a.class? name = some k := by
  constructor
  · rintro ⟨name', k, hk, hway⟩
    obtain ⟨hvalid', hnamed⟩ := ha.named name' k hk
    rw [hnamed] at hway
    obtain rfl := N.distinct name' name hvalid' hvalid hway
    exact ⟨k, hk⟩
  · rintro ⟨k, hk⟩
    exact ⟨name, k, hk, by rw [(ha.named name k hk).2]; rfl⟩

/-- **What an analysis knows about the files.** There are files at the ways `W`. When the compile started from the analysis
`base` there were files at the ways `old`, and some sources were compiled since then. -/
structure Analysis.Tracks (a : Analysis) (N : Naming) (base : Analysis) (old : Location → Prop) (compiled : List Path)
    (W : Location → Prop) : Prop where
  filed : a.Filed N
  /-- A class was recorded before or its source was compiled. -/
  kept : ∀ name k, a.class? name = some k → base.class? name = some k ∨ k.source.Among compiled
  /-- The file of a recorded class is there if it was there or the source was compiled. -/
  there : ∀ name k, a.class? name = some k → (W (N.way name) ↔ old (N.way name) ∨ k.source.Among compiled)
  /-- The other files were there without a record. -/
  rest : ∀ w, W w → a.Files w ∨ old w ∧ ¬ base.Files w

/-- **No class of a round has two owners:** neither among its units, nor with a source that it does not compile. -/
structure Round.Unshared (r : Round) : Prop where
  units : ∀ u ∈ r.units, ∀ v ∈ r.units, ∀ c ∈ u.classes, ∀ d ∈ v.classes, c.name = d.name →
    (u.source == v.source) = true
  records : ∀ u ∈ r.units, ∀ c ∈ u.classes, ∀ k ∈ r.before.class? c.name, r.Compiles k.source

instance (r : Round) : Decidable r.Unshared :=
  decidable_of_iff ((∀ u ∈ r.units, ∀ v ∈ r.units, ∀ c ∈ u.classes, ∀ d ∈ v.classes, c.name = d.name →
      (u.source == v.source) = true) ∧ ∀ u ∈ r.units, ∀ c ∈ u.classes, ∀ k ∈ r.before.class? c.name, r.Compiles k.source)
    ⟨fun h => ⟨h.1, h.2⟩, fun h => ⟨h.1, h.2⟩⟩

namespace Analysis.Tracks

variable {N : Naming} {base : Analysis} {old W : Location → Prop} {compiled : List Path} {a : Analysis}

/-- A source is taken out together with its class files. -/
theorem remove (h : a.Tracks N base old compiled W) (p : Path) :
    (a.remove p).Tracks N base old compiled fun w => W w ∧ ∀ file ∈ a.classFiles p, file.way ≠ w where
  filed := h.filed.remove p
  kept name k hk := h.kept name k (class?_of_remove hk)
  there name k hk := by
    rw [h.filed.listed.class?_remove, Option.filter_eq_some_iff] at hk
    obtain ⟨hk, hother⟩ := hk
    rw [← h.there name k hk, and_iff_left]
    -- the files of the source belong to other classes
    intro file hfile hsame
    obtain ⟨name', k', hk', howner, rfl⟩ := h.filed.mem_classFiles.1 hfile
    obtain ⟨hvalid', hnamed⟩ := h.filed.named name' k' hk'
    rw [hnamed] at hsame
    obtain rfl := N.distinct name' name hvalid' (h.filed.named name k hk).1 hsame
    obtain rfl := Option.some.inj (hk.symm.trans hk')
    simp [howner] at hother
  rest w hw := by
    refine (h.rest w hw.1).imp_left ?_
    rintro ⟨name, k, hk, rfl⟩
    refine ⟨name, k, class?_remove_of_ne hk ?_, rfl⟩
    by_contra howner
    have howner : (k.source == p) = true := by simpa using howner
    exact hw.2 k.classFile (h.filed.mem_classFiles.2 ⟨name, k, hk, howner, rfl⟩) rfl

/-- **If the files were those of the analysis from which the compile started, they are those of the analysis now.** -/
theorem files_iff (h : a.Tracks N base base.Files compiled W) (w : Location) : W w ↔ a.Files w := by
  constructor
  · intro hw
    exact (h.rest w hw).resolve_right fun ⟨hbase, hnot⟩ => hnot hbase
  · rintro ⟨name, k, hk, rfl⟩
    have hnamed := (h.filed.named name k hk).2
    rw [hnamed]
    refine (h.there name k hk).2 ((h.kept name k hk).imp_left fun hbase => ?_)
    exact ⟨name, k, hbase, by rw [hnamed]; rfl⟩

variable {digests : SortedMap Path Digest} {due : List Path} {c c' : Classpath} {r : Round}

section Owners

open Engine

variable (ha : a.Filed N) (follows : r.Follows digests due a c c') (hunits : OneEach due r.units)
  (hmodule : ∀ p ∈ due, digests.contains p = true) (hunshared : r.Unshared)

include ha follows hunits hmodule hunshared

/-- A source that a round compiles owns the classes that it lists afterwards: no other unit reports them. -/
theorem owns_of_due {p : Path} (hp : p.Among due) {info : SourceInfo} (hinfo : r.after.source? p = some info)
    {name : String} (hlists : info.classes.contains name = true) :
    ∃ k, r.after.class? name = some k ∧ (k.source == p) = true := by
  obtain ⟨q, hq, hqp⟩ := hp
  obtain ⟨d, hd⟩ := SortedMap.contains_iff.1 (hmodule q hq)
  rw [digests.get?_congr (Path.compare_eq_iff_beq.2 hqp)] at hd
  obtain ⟨info', hinfo', hrec⟩ := follows.exists_source?_of_recorded hd (Or.inl ⟨q, hq, hqp⟩)
  obtain rfl := Option.some.inj (hinfo.symm.trans hinfo')
  -- the source lists the classes of its unit, and the unit that counts for the class is one of the same source
  obtain ⟨u, hu, hup⟩ := hunits.exists_unitFor ⟨q, hq, hqp⟩
  obtain ⟨c, hc, rfl⟩ := (hrec.classes name).1 hlists
  rw [← hup.2] at hc
  obtain ⟨k, hk⟩ := CompiledUnit.exists_recordIn_of_mem hu hc
  obtain ⟨v, hv, d, hdv, hname, rfl⟩ := CompiledUnit.exists_class_of_recordIn hk
  refine ⟨_, by rw [follows.class?_after ha.listed hunits hmodule, hk]; rfl, ?_⟩
  exact BEq.trans (hunshared.units v hv u hu d hdv c hc hname) hup.1

/-- A source that a round leaves alone owns the classes that it lists, as it did before. -/
theorem owns_of_not_due {p : Path} (hp : ¬ p.Among due) {info : SourceInfo} (hinfo : r.after.source? p = some info)
    {name : String} (hlists : info.classes.contains name = true) :
    ∃ k, r.after.class? name = some k ∧ (k.source == p) = true := by
  have haccounted : r.Accounted := fun u hu => by
    rw [Round.Compiles, follows.sources]
    exact hunits.only u hu
  rw [follows.source?_of_not_compiled haccounted (by rwa [Round.Compiles, follows.sources])] at hinfo
  obtain ⟨k, hk, howner⟩ := ha.owned p info name hinfo hlists
  have hnot : ¬ k.source.Among due := fun h => hp (h.congr howner)
  refine ⟨k, ?_, howner⟩
  rw [follows.class?_after ha.listed hunits hmodule, (class?_without ha.listed due).2 ⟨hk, hnot⟩]
  -- no unit has the class, since its owner was not compiled
  cases hunit : CompiledUnit.recordIn r.units name with
  | none => rfl
  | some k' =>
    obtain ⟨u, hu, c, hc, rfl, -⟩ := CompiledUnit.exists_class_of_recordIn hunit
    have hcompiles := hunshared.records u hu c hc k (by rw [follows.before]; exact hk)
    rw [Round.Compiles, follows.sources] at hcompiles
    exact absurd hcompiles hnot

/-- After a round without shared classes every source owns the classes that it lists. -/
theorem filed_of_round (hnames : N.Names r.units) : r.after.Filed N where
  listed := follows.listed ha.listed
  owned p info name hinfo hlists := by
    by_cases hp : p.Among due
    · exact owns_of_due ha follows hunits hmodule hunshared hp hinfo hlists
    · exact owns_of_not_due ha follows hunits hmodule hunshared hp hinfo hlists
  named name k hk := by
    rw [follows.class?_after ha.listed hunits hmodule, Option.or_eq_some_iff] at hk
    rcases hk with hunit | ⟨-, hold⟩
    · obtain ⟨u, hu, c, hc, rfl, rfl⟩ := CompiledUnit.exists_class_of_recordIn hunit
      exact hnames u hu c hc
    · exact ha.named name k (class?_of_without hold)

end Owners

open Engine in
/-- **A round records the classes of which the compiler wrote the files.** -/
theorem round (h : (without due a).Tracks N base old compiled W) (ha : a.Filed N)
    (follows : r.Follows digests due a c c') (hunits : OneEach due r.units)
    (hmodule : ∀ p ∈ due, digests.contains p = true) (hnames : N.Names r.units) (hunshared : r.Unshared) :
    r.after.Tracks N base old (compiled ++ due) fun w => W w ∨ N.Reports r.units w where
  filed := filed_of_round ha follows hunits hmodule hunshared hnames
  kept name k hk := by
    rw [Path.among_append]
    rw [follows.class?_after ha.listed hunits hmodule, Option.or_eq_some_iff] at hk
    rcases hk with hunit | ⟨-, hold⟩
    · obtain ⟨u, hu, c, -, -, rfl⟩ := CompiledUnit.exists_class_of_recordIn hunit
      exact Or.inr (Or.inr (hunits.only u hu))
    · exact (h.kept name k hold).imp_right Or.inl
  there name k hk := by
    have hafter := filed_of_round ha follows hunits hmodule hunshared hnames
    have hvalid := (hafter.named name k hk).1
    rw [Path.among_append]
    rw [follows.class?_after ha.listed hunits hmodule, Option.or_eq_some_iff] at hk
    rcases hk with hunit | ⟨hnone, hold⟩
    · obtain ⟨u, hu, c, hc, rfl, rfl⟩ := CompiledUnit.exists_class_of_recordIn hunit
      exact iff_of_true (Or.inr ⟨u, hu, c, hc, rfl⟩) (Or.inr (Or.inr (hunits.only u hu)))
    · -- the round neither compiles the source nor reports the class
      have hnot : ¬ k.source.Among due := ((class?_without ha.listed due).1 hold).2
      have hunreported : ¬ N.Reports r.units (N.way name) := by
        rintro ⟨u, hu, c, hc, hway⟩
        obtain rfl := N.distinct c.name name (hnames u hu c hc).1 hvalid hway
        obtain ⟨k', hk'⟩ := CompiledUnit.exists_recordIn_of_mem hu hc
        simp [hnone] at hk'
      simp only [hunreported, hnot, or_false]
      exact h.there name k hold
  rest w hw := by
    have hafter := filed_of_round ha follows hunits hmodule hunshared hnames
    have hclass := follows.class?_after ha.listed hunits hmodule
    -- a class that is recorded again has the file that it had
    have hfile : ∀ name k, r.after.class? name = some k → r.after.Files (N.way name) :=
      fun name k hk => ⟨name, k, hk, by rw [(hafter.named name k hk).2]; rfl⟩
    rcases hw with hw | ⟨u, hu, c, hc, rfl⟩
    · refine (h.rest w hw).imp_left ?_
      rintro ⟨name, k, hk, rfl⟩
      rw [(h.filed.named name k hk).2]
      refine hfile name ((CompiledUnit.recordIn r.units name).getD k) ?_
      rw [hclass, hk]
      cases CompiledUnit.recordIn r.units name <;> rfl
    · obtain ⟨k, hk⟩ := CompiledUnit.exists_recordIn_of_mem hu hc
      exact Or.inl (hfile c.name k (by rw [hclass, hk]; rfl))

end Analysis.Tracks

/-! ### The compiler -/

/-- **A compiler that does what it says.** It reports one unit for each source it was asked for, the classes have their
files where the naming puts them, and in the output directory it writes these files and no others. -/
structure SourceCompiler.Delivers {σ : Type} (compiler : SourceCompiler σ) (N : Naming) (output : Path) : Prop where
  units : ∀ {compilers request s answer s'}, (compiler compilers request).Yields s answer s' →
    request.sources.Pairwise (fun p q => (p == q) = false) → OneEach request.sources answer.units
  names : ∀ {compilers request s answer s'}, (compiler compilers request).Yields s answer s' → N.Names answer.units
  writes : ∀ {compilers request s answer s' W}, (compiler compilers request).Yields s answer s' →
    request.output = output → s.host.Outputs output W → s'.host.Outputs output fun w => W w ∨ N.Reports answer.units w

/-! ### The steps of a compile -/

/-- **What an analysis knows about a machine:** what it knows about the files in the output directory. -/
def Analysis.TracksOn (a : Analysis) (N : Naming) (output : Path) (base : Analysis) (old : Location → Prop)
    (compiled : List Path) (h : Host) : Prop := ∃ W, h.Outputs output W ∧ a.Tracks N base old compiled W

namespace Engine

variable {σ : Type} {N : Naming} {output : Path} {base : Analysis} {old : Location → Prop} {compiled : List Path}
  {a : Analysis} {h h' : Host}

theorem outputs_deleteFiles {files : List Path} {W : Location → Prop} {u : Unit} (ho : h.Outputs output W)
    (hfiles : ∀ file ∈ files, file.LeadsDown) (hrun : (deleteFiles output files).Yields h u h') :
    h'.Outputs output fun w => W w ∧ ∀ file ∈ files, file.way ≠ w := by
  induction files generalizing h W with
  | nil =>
    obtain ⟨-, rfl⟩ := Action.yields_pure.1 hrun
    exact ho.congr (by simp)
  | cons file rest ih =>
    have hfile := hfiles file List.mem_cons_self
    have hrest := fun {h W} (ho : Host.Outputs h output W) => ih ho fun g hg => hfiles g (List.mem_cons_of_mem _ hg)
    rcases of_yields_deleteFiles_cons hrun with ⟨files, hremove, hrun⟩ | ⟨fault, hremove, hkind, hrun⟩
    · refine (hrest (ho.removeFile hfile hremove) hrun).congr fun w => ?_
      simp only [List.forall_mem_cons, and_assoc, ne_comm]
    · -- what is not found was not there
      have hgone := ho.not_of_removeFile_error hfile hremove hkind
      refine (hrest ho hrun).congr fun w => ?_
      rw [List.forall_mem_cons]
      refine and_congr_right fun hw => (and_iff_right ?_).symm
      rintro rfl
      exact hgone hw

theorem tracks_remove (ha : a.TracksOn N output base old compiled h) {source : Path} {u : Unit}
    (hrun : (deleteClassFiles output a source).Yields h u h') :
    (a.remove source).TracksOn N output base old compiled h' := by
  obtain ⟨W, ho, htracks⟩ := ha
  exact ⟨_, outputs_deleteFiles ho (fun _ => htracks.filed.leadsDown_of_mem_classFiles) hrun, htracks.remove source⟩

theorem tracks_removeSources {sources : List Path} {a' : Analysis} (ha : a.TracksOn N output base old compiled h)
    (hrun : (removeSources output sources a).Yields h a' h') : a'.TracksOn N output base old compiled h' := by
  induction sources generalizing a h with
  | nil =>
    obtain ⟨rfl, rfl⟩ := Action.yields_pure.1 hrun
    exact ha
  | cons source rest ih =>
    obtain ⟨_, h₁, hdelete, hrest⟩ := Action.yields_bind.1 hrun
    exact ih (tracks_remove ha hdelete) hrest

variable {compiler : SourceCompiler σ} {inputs : EngineInputs} {s s' : EngineState σ}

/-- Compiling a batch is running the compiler; the rest is logging. -/
theorem outputs_compileBatch (hcompiler : compiler.Delivers N inputs.options.output) {batch : List Path}
    {units : List CompiledUnit} {W : Location → Prop} (ho : s.session.host.Outputs inputs.options.output W)
    (hrun : (compileBatch compiler inputs batch).Yields s units s') :
    s'.session.host.Outputs inputs.options.output fun w => W w ∨ N.Reports units w := by
  obtain ⟨answer, session, hanswer, rfl, hemit⟩ := of_yields_compileBatch hrun
  -- diagnostics are only printed
  exact (keeps_emit (Host.Outputs.logs _ _) answer.diagnostics).state (t := s') (hcompiler.writes hanswer rfl ho) hemit

theorem outputs_compileBatches (hcompiler : compiler.Delivers N inputs.options.output) {bs : List (List Path)}
    (hbs : bs.flatten.Pairwise fun p q => (p == q) = false) {units : List CompiledUnit} {W : Location → Prop}
    (ho : s.session.host.Outputs inputs.options.output W)
    (hrun : (compileBatches compiler inputs bs).Yields s units s') :
    OneEach bs.flatten units ∧ N.Names units ∧
      s'.session.host.Outputs inputs.options.output fun w => W w ∨ N.Reports units w := by
  induction bs generalizing units s W with
  | nil =>
    obtain ⟨rfl, rfl⟩ := Action.yields_pure.1 hrun
    exact ⟨⟨.nil, by simp, by simp⟩, by simp [Naming.Names], ho.congr (by simp [Naming.Reports])⟩
  | cons batch rest ih =>
    rw [List.flatten_cons] at hbs ⊢
    obtain ⟨hbatch, hrest, hapart⟩ := List.pairwise_append.1 hbs
    rcases of_yields_compileBatches_cons hrun with ⟨rfl, hrun⟩ | ⟨first, s₁, others, rfl, hfirst, hothers⟩
    · exact ih hrest ho hrun
    · have hwritten := outputs_compileBatch hcompiler ho hfirst
      obtain ⟨output, session, hanswer, rfl, -⟩ := of_yields_compileBatch hfirst
      obtain ⟨heach, hnames, hoRest⟩ := ih hrest hwritten hothers
      refine ⟨(hcompiler.units hanswer hbatch).append heach hapart, (hcompiler.names hanswer).append hnames, ?_⟩
      -- what is there after the rest is what was there, what the first batch wrote, and what the rest wrote
      exact hoRest.congr fun w => by rw [Naming.reports_append, or_assoc]

/-- **One round on the machine.** -/
theorem tracks_compileRound (hcompiler : compiler.Delivers N inputs.options.output) {digests : SortedMap Path Digest}
    {number : Nat} {due : List Path} {c c' : Classpath} {r : Round}
    (hdistinct : due.Pairwise fun p q => (p == q) = false) (hmodule : ∀ p ∈ due, digests.contains p = true)
    (hunshared : r.Unshared) (ha : a.TracksOn N inputs.options.output base old compiled s.session.host)
    (hrun : (compileRound compiler inputs digests number due a c).Yields s (r, c') s') :
    r.after.TracksOn N inputs.options.output base old (compiled ++ due) s'.session.host := by
  obtain ⟨follows, e, h, hremove, hunits⟩ := of_yields_compileRound hrun
  obtain ⟨W, ho, htracks⟩ := ha
  -- first the class files of the sources are taken out, then the compiler writes new ones
  obtain ⟨W', ho', htracks'⟩ := tracks_removeSources ⟨W, ho.logged e, htracks⟩ hremove
  obtain ⟨heach, hnames, hwritten⟩ :=
    outputs_compileBatches hcompiler (distinct_flatten_batches hdistinct inputs.options.order) ho' hunits
  exact ⟨_, hwritten, htracks'.round htracks.filed follows heach.of_batches hmodule hnames hunshared⟩

/-- **All rounds on the machine.** -/
theorem tracks_compileRounds (hcompiler : compiler.Delivers N inputs.options.output) {digests : SortedMap Path Digest}
    {left number : Nat} {due : List Path} {a' : Analysis} {c c' : Classpath} {rs : List Round}
    (hdistinct : ∀ r ∈ rs, r.sources.Pairwise fun p q => (p == q) = false)
    (hmodule : ∀ r ∈ rs, ∀ p ∈ r.sources, digests.contains p = true) (hunshared : ∀ r ∈ rs, r.Unshared)
    (ha : a.TracksOn N inputs.options.output base old compiled s.session.host)
    (hrun : (compileRounds compiler inputs digests left number due a c).Yields s (a', rs, c') s') :
    a'.TracksOn N inputs.options.output base old (compiled ++ rs.flatMap Round.sources) s'.session.host := by
  -- the table tracks the machine before every round, and the sources compiled so far add up
  induction left generalizing number due a c rs s compiled with
  | zero =>
    obtain ⟨rfl, rfl, -, rfl⟩ := of_yields_compileRounds_zero hrun
    simpa using ha
  | succ left ih =>
    rcases of_yields_compileRounds_succ hrun with
      ⟨-, rfl, rfl, -, rfl⟩ | ⟨-, r, rs, c₁, s₁, next, s₂, rfl, hround, hnext, hrest⟩
    · simpa using ha
    · rw [List.forall_mem_cons] at hdistinct hmodule hunshared
      have hsources := (yields_compileRound hround).sources
      rw [hsources] at hdistinct hmodule
      obtain ⟨W, ho, htracks⟩ := tracks_compileRound hcompiler hdistinct.1 hmodule.1 hunshared.1 ha hround
      have ho' := (keeps_nextSources (Host.Outputs.logs _ _) r left).state (t := s₂) ho hnext
      have hend := ih hdistinct.2 hmodule.2 hunshared.2 ⟨W, ho', htracks⟩ hrest
      rwa [List.flatMap_cons, hsources, ← List.append_assoc]

theorem among_recompiled {rs : List Round} {p : Path} :
    p.Among (recompiled rs) ↔ p.Among (rs.flatMap Round.sources) := by
  unfold recompiled
  rw [Path.among_toList, SortedSet.contains_addAll]
  have hnone : (∅ : SortedSet Path).contains p = false := rfl
  simp only [hnone, Bool.false_eq_true, or_false, Path.compare_eq_iff_beq]
  exact exists_congr fun q => and_congr_right fun _ => ⟨BEq.symm, BEq.symm⟩

/-- A compile under the setup of the one before starts from its analysis and leaves the machine alone. -/
theorem yields_startingAnalysis_of_same {previous : Option Analysis}
    (hprevious : inputs.previous = previous.map fun a => ⟨a, inputs.setup⟩)
    (hrun : (startingAnalysis inputs).Yields h a h') : a = previous.getD ∅ ∧ h' = h := by
  unfold startingAnalysis at hrun
  rw [hprevious] at hrun
  cases previous with
  | none => exact Action.yields_pure.1 hrun
  | some found =>
    simp only [Option.map_some, Setup.isCompatible_self, if_true] at hrun
    exact Action.yields_pure.1 hrun

/-- **A compile on the machine.** If it starts from an analysis in which sources own the classes that they list, it ends with
one that tracks the files from then on. -/
theorem tracks_of_compile (hcompiler : compiler.Delivers N inputs.options.output) {out : EngineOutput}
    (hrun : (compile compiler inputs).Yields s out s') {previous : Option Analysis}
    (hprevious : inputs.previous = previous.map fun a => ⟨a, inputs.setup⟩) (hfiled : (previous.getD ∅).Filed N)
    (hunshared : ∀ r ∈ out.rounds, r.Unshared) {W : Location → Prop}
    (ho : s.session.host.Outputs inputs.options.output W) :
    out.analysis.TracksOn N inputs.options.output (previous.getD ∅) W out.recompiled s'.session.host := by
  obtain ⟨_, _, _, _, trace, -⟩ := exists_trace hrun
  have hdistinct := trace.rounds.distinct (Path.keys_distinct _)
  have hmodule : ∀ r ∈ out.rounds, ∀ p ∈ r.sources, out.digests.contains p = true :=
    fun r hr p hp => trace.contains_of_compiles hr (Path.among_of_mem hp)
  -- at the start nothing is compiled, and every file is recorded or is not
  have hstart : (previous.getD ∅).TracksOn N inputs.options.output (previous.getD ∅) W [] s.session.host :=
    ⟨W, ho, hfiled, fun _ _ => Or.inl, fun _ _ _ => by simp, fun _ hw => or_iff_not_imp_left.2 fun hno => ⟨hw, hno⟩⟩
  obtain ⟨o, s₁, houtset, hrounds, hdigests, -, hrecompiled⟩ := of_yields_compile hrun
  obtain ⟨opened, l, h₁, h₂, h₃, h₄, -, hbegin, hopen, hfirst, hremove, rfl⟩ := of_yields_outset houtset
  rw [hdigests] at hmodule
  rw [hrecompiled]
  -- what the compile starts from is the previous analysis, and nothing before its first round makes a file
  obtain ⟨hbase, rfl⟩ := yields_startingAnalysis_of_same hprevious hbegin
  rw [hbase] at hremove
  obtain ⟨W', ho', htracks⟩ := hstart
  have hopened := (keeps_ofPaths (Host.Outputs.logs _ _) _ _).state ho' hopen
  have hfound := (keeps_firstSources (Host.Outputs.logs _ _) Classpath.lasting_true _ _ _ trivial).state hopened hfirst
  have hleft := tracks_removeSources ⟨W', hfound, htracks⟩ hremove
  obtain ⟨W'', ho'', htracks''⟩ := tracks_compileRounds hcompiler hdistinct hmodule hunshared hleft hrounds
  have hcompiled : ∀ p : Path, p.Among ([] ++ out.rounds.flatMap Round.sources) ↔ p.Among (recompiled out.rounds) :=
    fun p => among_recompiled.symm
  refine ⟨W'', ho'', htracks''.filed, fun name k hk => ?_, fun name k hk => ?_, htracks''.rest⟩
  · rw [← hcompiled]
    exact htracks''.kept name k hk
  · rw [← hcompiled]
    exact htracks''.there name k hk

end Engine

end Recompile

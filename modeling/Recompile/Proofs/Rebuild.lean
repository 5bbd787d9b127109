import Recompile.Proofs.Alike
import Recompile.Proofs.Atomicity
import Recompile.Proofs.Outset
import Recompile.Proofs.Removal

/-!
# A compile under another setup

An analysis that was made under another setup is given up. The compile deletes the class files on record, if the output
directory is still the same, and goes on as if there had been no analysis. `Engine.compile_eq_from_scratch` says that this
is a clean rebuild: the compiler is sent the same requests as by a compile that was given nothing, and the result is the
same. Afterwards none of the old class files is left but those of classes that were reported again.

The statement needs that neither the sources nor the classpath see the class files. An entry of the classpath that leads to
the output directory by another path sees them, and then the two compiles record different fingerprints
(`Engine.compile_ne_from_scratch`).
-/

namespace Recompile

open Recompile.Action

/-! ### What is known before the first round -/

namespace Engine

variable {σ : Type}

/-- **Whether no class file deletion of a compile fails.** Before the rounds nothing else than a deletion can fail once the
sources are read. -/
structure Clears (compiler : SourceCompiler σ) (inputs : EngineInputs) (s : EngineState σ) : Prop where
  begins : ∀ digests, sourceDigests s.session.host inputs.options.sources = .ok digests →
    ∃ o s', (outset inputs : Action (EngineState σ) EngineError Outset).Yields s o s'
  rounds : ∀ o s', (outset inputs : Action (EngineState σ) EngineError Outset).Yields s o s' →
    RoundsClear compiler inputs o.digests (roundLimit + 1) 1 o.due o.analysis o.classpath s'

variable {inputs : EngineInputs} {h h' : Host}

/-- A compile that starts from nothing has all of its sources due, and nothing on record. -/
theorem outset_of_empty (hbase : inputs.baseline = ∅) {o : Outset} {s s' : EngineState σ}
    (hrun : (outset inputs : Action (EngineState σ) EngineError Outset).Yields s o s') :
    (∀ p : Path, p.Among o.due → o.digests.contains p = true) ∧
      (∀ p : Path, ¬ p.Among o.due → o.analysis.Settled o.digests o.classpath p) ∧
      ∀ F, o.analysis.FilesIn F := by
  obtain ⟨opened, _, _, _, _, _, -, -, -, hfirst, hremove, -⟩ := of_yields_outset hrun
  obtain ⟨invalid, hdue, hstale⟩ := yields_firstSources hfirst
  obtain hleft := yields_removeSources hremove
  rw [hbase] at hstale hleft
  have hnone : ∀ p, o.analysis.source? p = none := by
    intro p
    rw [hleft]
    exact source?_without_of_none (Analysis.source?_empty p)
  -- nothing is recorded, so every source is an added one
  have hinvalidated : ∀ p : Path, ((inputs.changes o.digests).invalidated o.digests ∅).contains p = true ↔
      o.digests.contains p = true := by
    intro p
    rw [Changes.contains_invalidated, EngineInputs.changes, hbase, Changes.among_added, Changes.among_modified]
    simp only [Analysis.source?_empty, and_true, reduceCtorEq, false_and, and_false, exists_false, false_or]
    tauto
  refine ⟨fun p hp => ?_, fun p hp => ?_, fun F name k hk => ?_⟩
  · rw [hdue, Path.among_toList] at hp
    rcases hstale.reason p hp with hp | ⟨hp, -⟩
    · exact (hinvalidated p).1 hp
    · exact hp
  · -- a source that is not due is none of the module
    have hgone : ¬ o.digests.contains p = true := by
      intro hthere
      rw [hdue, Path.among_toList] at hp
      exact hp (hstale.keeps p ((hinvalidated p).2 hthere))
    unfold Analysis.Settled
    rw [SortedMap.contains_eq_false.1 (by simpa using hgone)]
    exact hnone p
  · rw [hleft] at hk
    exact absurd (class?_of_without hk) (by simp)

variable {F : Path → Prop} {I : Host → Prop} {compiler : SourceCompiler σ}
  {s t s' t' : EngineState (σ × List (Compilers × CompileRequest))} {o o' : Outset}

/-- **Two compiles that start from nothing begin alike,** whatever analysis one of them gave up. -/
theorem outset_alike (spares : Spares compiler inputs.compilers inputs.options.output F I)
    (hprevious : ∀ previous, inputs.previous = some previous → previous.analysis.FilesIn F)
    (hlook : ∀ h h', I h → I h' → LookAlike inputs h h') (hbase : inputs.baseline = ∅) (hst : Abreast I s t)
    (hrun : (outset inputs : Action _ EngineError Outset).Yields s o s')
    (hrun' : (outset { inputs with previous := none } : Action _ EngineError Outset).Yields t o' t') :
    o' = o ∧ Abreast I s' t' ∧ ∀ h h', I h → I h' → o.classpath.SameOn h h' := by
  obtain ⟨opened, l, h₁, h₂, h₃, h₄, hdigests, hbegin, hopen, hfirst, hremove, rfl⟩ := of_yields_outset hrun
  obtain ⟨opened', l', h₁', h₂', h₃', h₄', hdigests', hbegin', hopen', hfirst', hremove', rfl⟩ := of_yields_outset hrun'
  have hbase' : EngineInputs.baseline { inputs with previous := none } = ∅ := rfl
  simp only [EngineInputs.changes, hbase, hbase'] at hbegin hbegin' hfirst hfirst' hremove hremove'
  -- the property holds on both sides all the way
  have hI₁ := (spares.startingAnalysis hprevious).state hst.first hbegin
  have hempty : (startingAnalysis { inputs with previous := none }).Keeps I fun a => a.FilesIn F :=
    Action.keeps_pure Analysis.FilesIn.empty
  have hI₁' := hempty.state hst.second hbegin'
  have hI₂ := (keeps_ofPaths spares.logs _ _).state hI₁ hopen
  have hI₂' := (keeps_ofPaths spares.logs _ _).state hI₁' hopen'
  have hI₃ := (spares.recording.outset hprevious Classpath.lasting_true (keeps_ofPaths spares.logs _ _)).state hst.first hrun
  have spares' : Spares compiler.recording (EngineInputs.compilers { inputs with previous := none })
    inputs.options.output F I := spares.recording
  have hI₃' := (spares'.outset (by simp) Classpath.lasting_true (keeps_ofPaths spares.logs _ _)).state hst.second hrun'
  -- and so both find the same
  have hsources : o'.digests = o.digests := by
    have hsame := sourceDigests_congr fun p hp => (hlook _ _ hst.first hst.second).sources p hp
    rw [hdigests, hdigests'] at hsame
    exact (Except.ok.inj hsame).symm
  have hfound : openedOn inputs h₁ = .ok (opened, l) := congrArg Prod.fst hopen
  have hopened : opened' = opened := by
    have hfound' : openedOn inputs h₁' = .ok (opened', l') := congrArg Prod.fst hopen'
    rw [← (hlook _ _ hI₁ hI₁').opens, hfound] at hfound'
    exact (Prod.mk.inj (Except.ok.inj hfound')).1.symm
  have hsame : ∀ h h', I h → I h' → opened.SameOn h h' := by
    intro h h' hI hI' name
    exact ((hlook _ _ hI₁ hI).answers opened l hfound name).symm.trans ((hlook _ _ hI₁ hI').answers opened l hfound name)
  rw [hsources, hopened] at hfirst'
  have hdue : (o'.due, o'.classpath) = (o.due, o.classpath) :=
    (alike_firstSources spares.logs hI₂ hI₂' _ _ ∅ hsame).eq_of_yields hfirst hfirst'
  have hleft : o'.analysis = o.analysis := by
    rw [yields_removeSources hremove, yields_removeSources hremove', hsources]
  have hlooked := (keeps_firstSources spares.logs (Classpath.lasting_sameOn I) _ _ _ hsame).value hI₂ hfirst
  obtain ⟨digests, due, analysis, classpath⟩ := o
  obtain ⟨digests', due', analysis', classpath'⟩ := o'
  obtain ⟨rfl, rfl⟩ := Prod.mk.inj hdue
  obtain rfl : digests' = digests := hsources
  obtain rfl : analysis' = analysis := hleft
  exact ⟨rfl, ⟨hI₃, hI₃', hst.sink, hst.requests⟩, hlooked⟩

/-! ### Class files that are left -/

section Left

variable {output : Path} {files : List Path} {a : Analysis} {u : Unit}

/-- A file that is there after others were deleted was there before, and is none of them. -/
theorem isFile_of_deleteFiles (hrun : (deleteFiles output files).Yields h u h') {p : Path} (hp : h'.isFile p = true) :
    h.isFile p = true ∧ ∀ file ∈ files, p ≠ output / file := by
  induction files generalizing h with
  | nil =>
    obtain ⟨-, rfl⟩ := yields_pure.1 hrun
    exact ⟨hp, by simp⟩
  | cons file rest ih =>
    rcases of_yields_deleteFiles_cons hrun with ⟨files, hremove, hrest⟩ | ⟨fault, hremove, hkind, hrest⟩
    · obtain ⟨hthere, hother⟩ := ih hrest
      refine ⟨Files.isFile_of_keptIn (Files.keptIn_of_removeFile hremove) hthere, List.forall_mem_cons.2 ⟨?_, hother⟩⟩
      rintro rfl
      exact Files.not_isFile_of_removeFile hremove hthere
    · obtain ⟨hthere, hother⟩ := ih hrest
      refine ⟨hthere, List.forall_mem_cons.2 ⟨?_, hother⟩⟩
      rintro rfl
      exact Files.not_isFile_of_removeFile_error hremove hkind hthere

theorem isFile_of_deleteAllClassFiles {sources : List Path} (hrun : (deleteAllClassFiles output a sources).Yields h u h')
    {p : Path} (hp : h'.isFile p = true) :
    h.isFile p = true ∧ ∀ source ∈ sources, ∀ file ∈ a.classFiles source, p ≠ output / file := by
  induction sources generalizing h with
  | nil =>
    obtain ⟨-, rfl⟩ := yields_pure.1 hrun
    exact ⟨hp, by simp⟩
  | cons source rest ih =>
    obtain ⟨_, h₁, hfirst, hrest⟩ := yields_bind.1 hrun
    obtain ⟨hthere, hother⟩ := ih hrest
    obtain ⟨hbefore, hthis⟩ := isFile_of_deleteFiles hfirst hthere
    exact ⟨hbefore, List.forall_mem_cons.2 ⟨hthis, hother⟩⟩

/-- Taking sources out leaves no file that was not there. -/
theorem isFile_of_removeSources {sources : List Path} {a' : Analysis} (hrun : (removeSources output sources a).Yields h a' h')
    {p : Path} (hp : h'.isFile p = true) : h.isFile p = true := by
  induction sources generalizing a h with
  | nil =>
    obtain ⟨-, rfl⟩ := yields_pure.1 hrun
    exact hp
  | cons source rest ih =>
    obtain ⟨_, h₁, hfirst, hrest⟩ := yields_bind.1 hrun
    exact (isFile_of_deleteFiles hfirst (ih hrest)).1

end Left

/-- **The class files of an analysis that is given up are gone,** if they are in the same output directory. -/
theorem not_isFile_of_startingAnalysis {previous : Contents} (hprevious : inputs.previous = some previous)
    (hlisted : previous.analysis.Listed) (hsetup : previous.setup.isCompatible inputs.setup = false)
    (houtput : (previous.setup.output == inputs.options.output) = true) {a : Analysis}
    (hrun : (startingAnalysis inputs).Yields h a h') {name : String} {k : ClassInfo}
    (hk : previous.analysis.class? name = some k) : ¬ h'.isFile (inputs.options.output / k.classFile) = true := by
  unfold startingAnalysis at hrun
  simp only [hprevious, hsetup, houtput, Bool.false_eq_true, if_false, if_true, yields_bind, yields_pure] at hrun
  obtain ⟨_, h₁, -, _, h₂, hdelete, -, rfl⟩ := hrun
  intro hthere
  -- the source that owns the class is one of those that are gone through
  obtain ⟨info, hinfo, -⟩ := hlisted name k hk
  obtain ⟨source, hsource, hcompare⟩ := SortedMap.contains_iff_keys.1 (SortedMap.contains_iff.2 ⟨info, hinfo⟩)
  have hfile := hlisted.mem_classFiles hk (Path.compare_eq_iff_beq.1 hcompare)
  exact (isFile_of_deleteAllClassFiles hdelete hthere).2 source hsource _ hfile rfl

end Engine

/-- Whether some units report a class with the given file. Which paths are the same file is left open. -/
def CompiledUnit.Report (same : Path → Path → Prop) (units : List CompiledUnit) (file : Path) : Prop :=
  ∃ u ∈ units, ∃ k ∈ u.classes, same k.file file

/-- **A compiler that writes what it reports.** On machines with a property, a path below the output directory that becomes
a file when the compiler runs is that of a class that it reports. -/
def SourceCompiler.WritesReported {σ : Type} (compiler : SourceCompiler σ) (compilers : Compilers) (output : Path)
    (F : Path → Prop) (I : Host → Prop) (same : Path → Path → Prop) : Prop :=
  ∀ request answer s s', request.output = output → I s.host → (compiler compilers request).Yields s answer s' →
    ∀ file, F file → s'.host.isFile (output / file) = true →
      s.host.isFile (output / file) = true ∨ CompiledUnit.Report same answer.units file

/-- A compiler that also notes its requests writes what it writes otherwise. -/
theorem SourceCompiler.WritesReported.recording {σ : Type} {compiler : SourceCompiler σ} {compilers : Compilers}
    {output : Path} {F : Path → Prop} {I : Host → Prop} {same : Path → Path → Prop}
    (h : compiler.WritesReported compilers output F I same) : compiler.recording.WritesReported compilers output F I same := by
  intro request answer s s' hrequest hs hrun file hfile hthere
  unfold SourceCompiler.recording at hrun
  simp only [yields_bind, yields_modify, yields_onPart] at hrun
  obtain ⟨_, _, rfl, t, hcompile, rfl⟩ := hrun
  exact h request answer ⟨s.host, s.tool.1⟩ t hrequest hs hcompile file hfile hthere

namespace Engine

variable {σ : Type} {compiler : SourceCompiler σ} {inputs : EngineInputs} {F : Path → Prop} {I : Host → Prop}
  {same : Path → Path → Prop} {file : Path} {s s' : EngineState σ}

theorem isFile_ofPaths {l l' : Lookup} {paths : List Path} {c : Classpath} {h h' : Host}
    (hrun : (Classpath.ofPaths l paths : Action Host EngineError _).Yields h (c, l') h') (p : Path) :
    h'.isFile p = h.isFile p := by
  have hkeeps := keeps_ofPaths (ε := EngineError) (I := fun m => m.isFile p = h.isFile p) (fun _ _ hI => hI) l paths
  exact hkeeps.state rfl hrun

theorem isFile_firstSources {changes : Changes} {digests : SortedMap Path Digest} {a : Analysis} {c c' : Classpath}
    {due : List Path} {h h' : Host} (hrun : (firstSources changes digests a c).Yields h (due, c') h') (p : Path) :
    h'.isFile p = h.isFile p := by
  have hkeeps := keeps_firstSources (I := fun m => m.isFile p = h.isFile p) (c := c) (fun _ _ hI => hI)
    Classpath.lasting_true changes digests a trivial
  exact hkeeps.state rfl hrun

theorem isFile_emit {ds : List Diagnostic} {u : Unit}
    (hrun : (emit ds : Action (EngineState σ) EngineError Unit).Yields s u s') (p : Path) :
    s'.session.host.isFile p = s.session.host.isFile p := by
  have hkeeps := keeps_emit (σ := σ) (ε := EngineError) (I := fun h => h.isFile p = s.session.host.isFile p)
    (fun _ _ hI => hI) ds
  exact hkeeps.state rfl hrun

theorem isFile_nextSources {r : Round} {left : Nat} {next : List Path}
    (hrun : (nextSources r left : Action (EngineState σ) EngineError (List Path)).Yields s next s') (p : Path) :
    s'.session.host.isFile p = s.session.host.isFile p := by
  have hkeeps := keeps_nextSources (σ := σ) (ε := EngineError) (I := fun h => h.isFile p = s.session.host.isFile p)
    (fun _ _ hI => hI) r left
  exact hkeeps.state rfl hrun

theorem isFile_of_compileBatch (hwrites : compiler.WritesReported inputs.compilers inputs.options.output F I same)
    (hfile : F file) {batch : List Path} {units : List CompiledUnit} (hs : I s.session.host)
    (hrun : (compileBatch compiler inputs batch).Yields s units s')
    (hthere : s'.session.host.isFile (inputs.options.output / file) = true) :
    s.session.host.isFile (inputs.options.output / file) = true ∨ CompiledUnit.Report same units file := by
  obtain ⟨answer, session, hanswer, rfl, hemit⟩ := of_yields_compileBatch hrun
  -- diagnostics are only printed
  rw [isFile_emit hemit] at hthere
  exact hwrites (inputs.options.request batch) answer s.session session rfl hs hanswer file hfile hthere

theorem isFile_of_compileBatches (hwrites : compiler.WritesReported inputs.compilers inputs.options.output F I same)
    (spares : Spares compiler inputs.compilers inputs.options.output F I) (hfile : F file) {bs : List (List Path)}
    {units : List CompiledUnit} (hs : I s.session.host) (hrun : (compileBatches compiler inputs bs).Yields s units s')
    (hthere : s'.session.host.isFile (inputs.options.output / file) = true) :
    s.session.host.isFile (inputs.options.output / file) = true ∨ CompiledUnit.Report same units file := by
  induction bs generalizing units s with
  | nil =>
    obtain ⟨-, rfl⟩ := yields_pure.1 hrun
    exact Or.inl hthere
  | cons batch rest ih =>
    rcases of_yields_compileBatches_cons hrun with ⟨-, hrest⟩ | ⟨first, s₁, others, rfl, hfirst, hothers⟩
    · exact ih hs hrest
    · rcases ih ((spares.compileBatch batch).state hs hfirst) hothers with hbefore | ⟨u, hu, hreport⟩
      · refine (isFile_of_compileBatch hwrites hfile hs hfirst hbefore).imp_right ?_
        rintro ⟨u, hu, hreport⟩
        exact ⟨u, List.mem_append_left _ hu, hreport⟩
      · exact Or.inr ⟨u, List.mem_append_right _ hu, hreport⟩

theorem isFile_of_compileRound (hwrites : compiler.WritesReported inputs.compilers inputs.options.output F I same)
    (spares : Spares compiler inputs.compilers inputs.options.output F I) (hfile : F file)
    {digests : SortedMap Path Digest} {number : Nat} {due : List Path} {a : Analysis} {c c' : Classpath} {r : Round}
    (hs : I s.session.host) (ha : a.FilesIn F)
    (hrun : (compileRound compiler inputs digests number due a c).Yields s (r, c') s')
    (hthere : s'.session.host.isFile (inputs.options.output / file) = true) :
    s.session.host.isFile (inputs.options.output / file) = true ∨ CompiledUnit.Report same r.units file := by
  obtain ⟨-, e, h, hremove, hunits⟩ := of_yields_compileRound hrun
  have hremoved : I h := (spares.removeSources due ha).state (spares.logs _ _ hs) hremove
  exact (isFile_of_compileBatches hwrites spares hfile hremoved hunits hthere).imp_left (isFile_of_removeSources hremove)

/-- **What is a file after some rounds** was one before, or a round reported it. -/
theorem isFile_of_compileRounds (hwrites : compiler.WritesReported inputs.compilers inputs.options.output F I same)
    (spares : Spares compiler inputs.compilers inputs.options.output F I) (hfile : F file)
    {digests : SortedMap Path Digest} {left number : Nat} {due : List Path} {a a' : Analysis} {c c' : Classpath}
    {rs : List Round} (hs : I s.session.host) (ha : a.FilesIn F)
    (hrun : (compileRounds compiler inputs digests left number due a c).Yields s (a', rs, c') s')
    (hthere : s'.session.host.isFile (inputs.options.output / file) = true) :
    s.session.host.isFile (inputs.options.output / file) = true ∨
      ∃ r ∈ rs, CompiledUnit.Report same r.units file := by
  induction left generalizing number due a c rs s with
  | zero =>
    obtain ⟨-, rfl, -, rfl⟩ := of_yields_compileRounds_zero hrun
    exact Or.inl hthere
  | succ left ih =>
    rcases of_yields_compileRounds_succ hrun with
      ⟨-, -, rfl, -, rfl⟩ | ⟨-, r, rs, c₁, s₁, next, s₂, rfl, hround, hnext, hrest⟩
    · exact Or.inl hthere
    · have hkeeps := spares.compileRound Classpath.lasting_true digests number due ha (c := c) trivial
      have hs₁ := hkeeps.state hs hround
      have hafter := (hkeeps.value hs hround).1
      have hs₂ := (keeps_nextSources spares.logs r left).state hs₁ hnext
      rcases ih hs₂ hafter hrest with hbefore | ⟨r', hr', hreport⟩
      · -- it was there behind this round: from before, or because the round reports it
        rw [isFile_nextSources hnext] at hbefore
        refine (isFile_of_compileRound hwrites spares hfile hs ha hround hbefore).imp_right fun hreport => ?_
        exact ⟨r, List.mem_cons_self, hreport⟩
      · exact Or.inr ⟨r', List.mem_cons_of_mem _ hr', hreport⟩

/-! ### The rebuild -/

theorem readAlike_of_digests {h : Host} {digests : SortedMap Path Digest}
    (hlook : ∀ h h', I h → I h' → LookAlike inputs h h') (hI : I h)
    (hdigests : sourceDigests h inputs.options.sources = .ok digests) : ReadAlike I inputs.options.sources := by
  intro m m' hm hm' p hp
  cases hread : h.read p with
  | error fault =>
    obtain ⟨e, herror⟩ := sourceDigests_of_unreadable hp hread
    rw [hdigests] at herror
    simp at herror
  | ok data =>
    refine ⟨data, ?_, ?_⟩
    · rw [← (hlook h m hI hm).sources p hp, hread]
    · rw [← (hlook h m' hI hm').sources p hp, hread]

/-! Rounds have no use for the previous analysis. -/

theorem compileBatches_previous (compiler : SourceCompiler σ) (inputs : EngineInputs) (previous : Option Contents)
    (bs : List (List Path)) : compileBatches compiler { inputs with previous } bs = compileBatches compiler inputs bs := by
  induction bs with
  | nil => rfl
  | cons batch rest ih =>
    unfold compileBatches
    rw [ih]
    rfl

theorem compileRound_previous (compiler : SourceCompiler σ) (inputs : EngineInputs) (previous : Option Contents)
    (digests : SortedMap Path Digest) (number : Nat) (due : List Path) (a : Analysis) (c : Classpath) :
    compileRound compiler { inputs with previous } digests number due a c =
      compileRound compiler inputs digests number due a c := by
  unfold compileRound
  rw [compileBatches_previous]

theorem compileRounds_previous (compiler : SourceCompiler σ) (inputs : EngineInputs) (previous : Option Contents)
    (digests : SortedMap Path Digest) (left number : Nat) (due : List Path) (a : Analysis) (c : Classpath) :
    compileRounds compiler { inputs with previous } digests left number due a c =
      compileRounds compiler inputs digests left number due a c := by
  induction left generalizing number due a c with
  | zero => rfl
  | succ left ih =>
    unfold compileRounds
    simp only [compileRound_previous, ih]

theorem roundsClear_previous (compiler : SourceCompiler σ) (inputs : EngineInputs) (previous : Option Contents)
    (digests : SortedMap Path Digest) (left number : Nat) (due : List Path) (a : Analysis) (c : Classpath)
    (s : EngineState σ) : RoundsClear compiler { inputs with previous } digests left number due a c s ↔
      RoundsClear compiler inputs digests left number due a c s := by
  induction left generalizing number due a c s with
  | zero => exact Iff.rfl
  | succ left ih =>
    unfold RoundsClear
    simp only [compileRound_previous, ih]

variable {t t' : EngineState (σ × List (Compilers × CompileRequest))}

/-- **A compile under another setup is a clean rebuild.** -/
theorem compile_eq_from_scratch {previous : Contents} (hprevious : inputs.previous = some previous)
    (hlisted : previous.analysis.Listed) (hsetup : previous.setup.isCompatible inputs.setup = false)
    (hdetermined : compiler.Determined inputs.options.sources)
    (hwrites : compiler.WritesReported inputs.compilers inputs.options.output F I same)
    (spares : Spares compiler inputs.compilers inputs.options.output F I) (hfiles : previous.analysis.FilesIn F)
    (hlook : ∀ h h', I h → I h' → LookAlike inputs h h') (ht : I t.session.host)
    (hclears : Clears compiler.recording inputs t)
    (hclears' : Clears compiler.recording { inputs with previous := none } t) :
    (∃ r t₁ t₂, ((compile compiler.recording inputs).run.run t).run = (r, t₁) ∧
      ((compile compiler.recording { inputs with previous := none }).run.run t).run = (r, t₂) ∧
      t₁.session.tool.2 = t₂.session.tool.2) ∧
    ((previous.setup.output == inputs.options.output) = true → ∀ out t',
      (compile compiler.recording inputs).Yields t out t' → ∀ name k, previous.analysis.class? name = some k →
        t'.session.host.isFile (inputs.options.output / k.classFile) = true →
          ∃ r ∈ out.rounds, CompiledUnit.Report same r.units k.classFile) := by
  have hgiven : ∀ c, inputs.previous = some c → c.analysis.FilesIn F := by
    intro c hc
    obtain rfl := Option.some.inj (hprevious.symm.trans hc)
    exact hfiles
  have hbase : inputs.baseline = ∅ := by simp [EngineInputs.baseline, hprevious, hsetup]
  constructor
  · -- the two compiles go side by side
    have htt : Abreast I t t := ⟨ht, ht, rfl, rfl⟩
    suffices halike : Alike (Abreast I) (compile compiler.recording inputs) t
        (compile compiler.recording { inputs with previous := none }) t by
      obtain ⟨r, t₁, t₂, hrun, hrun', hboth⟩ := halike.exists_runs
      exact ⟨r, t₁, t₂, hrun, hrun', hboth.requests⟩
    cases hdigests : sourceDigests t.session.host inputs.options.sources with
    | error e =>
      exact .of_fails (fails_compile_of_unreadable hdigests _)
        (@fails_compile_of_unreadable _ { inputs with previous := none } _ _ hdigests _) htt
    | ok digests =>
      obtain ⟨o, t₁, houtset⟩ := hclears.begins digests hdigests
      obtain ⟨o', t₂, houtset'⟩ := hclears'.begins digests hdigests
      obtain ⟨rfl, hst, -⟩ := outset_alike spares hgiven hlook hbase htt houtset houtset'
      rw [compile_eq, compile_eq]
      refine (Alike.of_yields houtset houtset' hst).bind fun o s₁ s₂ hs₁ hs₂ hst₁ => ?_
      obtain ⟨-, -, hsame⟩ := outset_alike spares hgiven hlook hbase htt hs₁ hs₂
      obtain ⟨hdue, hrest, hempty⟩ := outset_of_empty hbase hs₁
      unfold afterwards
      rw [compileRounds_previous compiler.recording inputs none]
      have hmodule : ∀ p : Path, o.digests.contains p = true → p.Among inputs.options.sources := by
        obtain ⟨_, _, _, _, _, _, hfound, -⟩ := of_yields_outset hs₁
        exact fun p => (contains_sourceDigests hfound p).1
      have hclear' := hclears'.rounds o s₂ hs₂
      rw [roundsClear_previous compiler.recording inputs none] at hclear'
      have hrounds := alike_compileRounds spares hdetermined (readAlike_of_digests hlook ht hdigests) hmodule
        (roundLimit + 1) 1 hdue hrest (hempty F) hsame hst₁ (hclears.rounds o s₁ hs₁) hclear'
      exact hrounds.bind fun _ s₃ s₄ _ _ hst₂ => alike_pure hst₂
  · intro houtput out t' hrun name k hk hthere
    obtain ⟨o, t₁, houtset, hrounds, -⟩ := of_yields_compile hrun
    have hkeeps := spares.recording.outset hgiven Classpath.lasting_true (keeps_ofPaths spares.logs _ _)
    refine (isFile_of_compileRounds hwrites.recording spares.recording (hfiles name k hk) (hkeeps.state ht houtset)
      (hkeeps.value ht houtset).1 hrounds hthere).resolve_left fun hbefore => ?_
    obtain ⟨opened, l, h₁, h₂, h₃, h₄, -, hbegin, hopen, hfirst, hremove, rfl⟩ := of_yields_outset houtset
    -- it was deleted when the old analysis was given up, and nothing before the rounds makes a file
    refine not_isFile_of_startingAnalysis hprevious hlisted hsetup houtput hbegin hk ?_
    have hleft := isFile_of_removeSources hremove hbefore
    rwa [isFile_firstSources hfirst, isFile_ofPaths hopen] at hleft

/-! ### Deletions that do not fail -/

/-- Files that can be deleted on every machine with a property are deleted. -/
theorem exists_yields_deleteFiles {output : Path} {compilers : Compilers}
    (spares : Spares compiler compilers output F I)
    (hclear : ∀ h file fault, I h → F file → h.files.removeFile h.cwd (output / file) = .error fault →
      fault.kind = .notFound) {files : List Path} (hfiles : ∀ file ∈ files, F file) {h : Host} (hI : I h) :
    ∃ h', (deleteFiles output files).Yields h () h' := by
  induction files generalizing h with
  | nil => exact ⟨h, yields_pure.2 ⟨rfl, rfl⟩⟩
  | cons file rest ih =>
    rw [List.forall_mem_cons] at hfiles
    cases hremove : h.files.removeFile h.cwd (output / file) with
    | ok files =>
      obtain ⟨h', hrest⟩ := ih hfiles.2 (spares.deletes h file files hfiles.1 hI hremove)
      refine ⟨h', yields_bind.2 ⟨h, h, yields_get.2 ⟨rfl, rfl⟩, ?_⟩⟩
      dsimp only
      rw [hremove]
      exact yields_bind.2 ⟨(), _, yields_set.2 rfl, hrest⟩
    | error fault =>
      obtain ⟨h', hrest⟩ := ih hfiles.2 hI
      refine ⟨h', yields_bind.2 ⟨h, h, yields_get.2 ⟨rfl, rfl⟩, ?_⟩⟩
      -- a file that is not there is passed over
      have hkind := hclear h file fault hI hfiles.1 hremove
      dsimp only
      rw [hremove]
      simpa [hkind] using hrest

theorem exists_yields_retire {output : Path} {compilers : Compilers} (spares : Spares compiler compilers output F I)
    (hclear : ∀ h file fault, I h → F file → h.files.removeFile h.cwd (output / file) = .error fault →
      fault.kind = .notFound) {sources : List Path} {a : Analysis} (ha : a.FilesIn F) (table : ApiTable) {h : Host}
    (hI : I h) : ∃ r h', (retire output sources a table).Yields h r h' := by
  induction sources generalizing a table h with
  | nil => exact ⟨_, h, yields_pure.2 ⟨rfl, rfl⟩⟩
  | cons source rest ih =>
    obtain ⟨h₁, hfirst⟩ := exists_yields_deleteFiles spares hclear (ha.classFiles source) hI
    have hI₁ := (spares.deleteClassFiles ha source).state hI hfirst
    obtain ⟨r, h', hrest⟩ := ih (ha.remove source) (noteApis a source table) hI₁
    exact ⟨r, h', yields_bind.2 ⟨(), h₁, hfirst, hrest⟩⟩

/-- Rounds are clear if the class files in play can be deleted on every machine with a property that the compile spares. -/
theorem roundsClear_of_spares (spares : Spares compiler inputs.compilers inputs.options.output F I)
    (hclear : ∀ h file fault, I h → F file → h.files.removeFile h.cwd (inputs.options.output / file) = .error fault →
      fault.kind = .notFound) (digests : SortedMap Path Digest) (left number : Nat) (due : List Path) {a : Analysis}
    (ha : a.FilesIn F) (c : Classpath) (hs : I s.session.host) :
    RoundsClear compiler inputs digests left number due a c s := by
  induction left generalizing number due a c s with
  | zero => trivial
  | succ left ih =>
    refine fun _ => ⟨fun log => ?_, fun r c' s₁ next s₂ hround hnext => ?_⟩
    · exact exists_yields_retire spares hclear ha ∅ (spares.logs _ log hs)
    · have hkeeps := spares.compileRound Classpath.lasting_true digests number due ha (c := c) trivial
      have hs₂ := (keeps_nextSources spares.logs r left).state (hkeeps.state hs hround) hnext
      exact ih (number + 1) next (hkeeps.value hs hround).1 c' hs₂

/-- A compile is clear if its first steps succeed and the class files in play can be deleted. -/
theorem Clears.of_spares (spares : Spares compiler inputs.compilers inputs.options.output F I)
    (hclear : ∀ h file fault, I h → F file → h.files.removeFile h.cwd (inputs.options.output / file) = .error fault →
      fault.kind = .notFound)
    (hprevious : ∀ previous, inputs.previous = some previous → previous.analysis.FilesIn F) (hs : I s.session.host)
    (hbegins : ((outset inputs : Action (EngineState σ) EngineError Outset).run.run s).run.1.toBool = true) :
    Clears compiler inputs s where
  begins _ _ := exists_yields hbegins
  rounds o s' hrun := by
    have hkeeps := spares.outset hprevious Classpath.lasting_true (keeps_ofPaths spares.logs _ _)
    exact roundsClear_of_spares spares hclear _ _ _ _ (hkeeps.value hs hrun).1 _ (hkeeps.state hs hrun)

/-! ### A stale class file, and one that is seen by another path -/

private def newSetup : Setup := ⟨"o", "2.13.12", [], [], .mixed⟩

/-- An analysis in which the source `S` has the class `X`, made by another compiler version. -/
private def outdated : Contents :=
  ⟨(∅ : Analysis).record "S" { digest := Digest.ofString "" } [("X", ⟨"S", "X.class", Digest.ofString ""⟩)],
    { newSetup with compiler := "2.13.11" }⟩

private theorem outdated_listed : outdated.analysis.Listed :=
  Analysis.Listed.record Analysis.listed_empty _ (by simp)

/-- A compile of the source `S` into the directory `o`, with more entries on the classpath. -/
private def updated (classpath : List Path) : EngineInputs where
  compilers := ⟨⟨⟨2, 13, 12, none⟩, "lib.jar", "comp.jar", ⟨⟨"2.13.12", []⟩, ∅⟩⟩, "bridge.jar"⟩
  options := ⟨"o" :: classpath, ["S"], "o", [], [], .mixed⟩
  setup := newSetup
  previous := some outdated
  lookup := {}

/-- The class file of the class `X` is there. -/
private def staleFiles : Files :=
  ((Files.put ∅ ["S"] (.file [1] false)).put ["o"] .dir).put ["o", "X.class"] (.file [2] false)

private def staleState : EngineState (Unit × List (Compilers × CompileRequest)) :=
  ⟨⟨{ files := staleFiles }, ((), [])⟩, { maxErrors := 100 }⟩

/-- A compiler that finds in every source a reference to the class `X`, and writes nothing. -/
private def referring : SourceCompiler Unit := fun _ request =>
  return { units := request.sources.map fun p => ⟨p, [], SortedSet.ofList ["X"]⟩ }

/-- The class file is there, or is deleted. -/
private def Cleared (h : Host) : Prop := h.cwd = [] ∧ (h.files = staleFiles ∨ h.files = staleFiles.drop ["o", "X.class"])

private theorem removeFile_staleFiles :
    staleFiles.removeFile [] ("o" / "X.class" : Path) = .ok (staleFiles.drop ["o", "X.class"]) := rfl

private theorem removeFile_cleared :
    (staleFiles.drop ["o", "X.class"]).removeFile [] ("o" / "X.class" : Path) = .error (.ofKind .notFound) := by
  rfl

private theorem referring_spares (classpath : List Path) :
    Spares referring (updated classpath).compilers (updated classpath).options.output (· = "X.class") Cleared where
  logs _ _ hI := hI
  compiles _ _ := Action.keeps_pure (by simp)
  deletes := by
    rintro ⟨files, cwd, _, _, _, _⟩ _ files' rfl ⟨rfl, rfl | rfl⟩ hremove
    · exact ⟨rfl, Or.inr (Except.ok.inj (hremove.symm.trans removeFile_staleFiles))⟩
    · dsimp only at hremove
      exact absurd (hremove.symm.trans removeFile_cleared) (by simp)

private theorem clear_cleared (h : Host) (file : Path) (fault : Fault) (hI : Cleared h) (hfile : file = "X.class")
    (hremove : h.files.removeFile h.cwd ("o" / file : Path) = .error fault) : fault.kind = .notFound := by
  obtain ⟨files, cwd, _, _, _, _⟩ := h
  subst hfile
  obtain ⟨rfl, rfl | rfl⟩ := hI
  · exact absurd (hremove.symm.trans removeFile_staleFiles) (by simp)
  · obtain rfl := Except.error.inj (removeFile_cleared.symm.trans hremove)
    rfl

private theorem outdated_filesIn : outdated.analysis.FilesIn (· = "X.class") := by
  intro name k hk
  have hclasses : outdated.analysis.classes.entries = [("X", ⟨"S", "X.class", Digest.ofString ""⟩)] := rfl
  obtain ⟨name', he, -⟩ := SortedMap.get?_eq_some_iff.1 hk
  rw [hclasses, List.mem_singleton] at he
  rw [(Prod.mk.inj he).2]

/-- Both compiles of the source delete what they have to. -/
private theorem clears_updated (classpath : List Path)
    (hbegins : ((outset (updated classpath) : Action _ EngineError Outset).run.run staleState).run.1.toBool = true ∧
      ((outset { updated classpath with previous := none } : Action _ EngineError Outset).run.run staleState).run.1.toBool =
        true) :
    Clears referring.recording (updated classpath) staleState ∧
      Clears referring.recording { updated classpath with previous := none } staleState := by
  have hgiven : ∀ c, (updated classpath).previous = some c → c.analysis.FilesIn (· = "X.class") := by
    rintro c ⟨⟩
    exact outdated_filesIn
  refine ⟨.of_spares (referring_spares classpath).recording clear_cleared hgiven ⟨rfl, Or.inl rfl⟩ hbegins.1, ?_⟩
  refine Clears.of_spares ?_ clear_cleared (by simp) ⟨rfl, Or.inl rfl⟩ hbegins.2
  exact (referring_spares classpath).recording

private theorem referring_determined (sources : List Path) : referring.Determined sources := fun _ _ _ _ _ _ => rfl

private theorem referring_writes {compilers : Compilers} {output : Path} {F : Path → Prop} {I : Host → Prop}
    {same : Path → Path → Prop} : referring.WritesReported compilers output F I same := by
  intro request answer s s' _ _ hyields file _ hthere
  obtain ⟨-, rfl⟩ := yields_pure.1 hyields
  exact Or.inl hthere

private theorem lookAlike_cleared (h h' : Host) (hI : Cleared h) (hI' : Cleared h') : LookAlike (updated []) h h' := by
  have hread : ∀ m : Host, Cleared m → m.read "S" = .ok [1] := by
    rintro ⟨files, cwd, _, _, _, _⟩ ⟨rfl, rfl | rfl⟩
    · rfl
    · rfl
  refine ⟨fun p hp => ?_, rfl, fun c l hopened name => ?_⟩
  · obtain rfl : p = "S" := List.mem_singleton.1 hp
    rw [hread h hI, hread h' hI']
  · have hempty : openedOn (updated []) h = .ok ({ entries := [] }, {}) := rfl
    obtain ⟨rfl, -⟩ := Prod.mk.inj (Except.ok.inj (hempty.symm.trans hopened))
    simp only [Classpath.search?, List.findSome?_nil]

/-- Another compiler version recompiles the source, with the result of a compile from scratch. The old class file is gone
afterwards, and from scratch it stays. -/
theorem compile_eq_from_scratch_outdated :
    ∃ out t₁ t₂, (compile referring.recording (updated [])).Yields staleState out t₁ ∧
      (compile referring.recording { updated [] with previous := none }).Yields staleState out t₂ ∧
      t₁.session.tool.2 = t₂.session.tool.2 ∧ t₁.session.host.isFile ("o" / "X.class" : Path) = false ∧
      t₂.session.host.isFile ("o" / "X.class" : Path) = true := by
  have hfacts : (((outset (updated []) : Action _ EngineError Outset).run.run staleState).run.1.toBool = true ∧
      ((outset { updated [] with previous := none } : Action _ EngineError Outset).run.run staleState).run.1.toBool =
        true) ∧
      ((compile referring.recording (updated [])).run.run staleState).run.1.toBool = true ∧
      ((compile referring.recording { updated [] with previous := none }).run.run staleState).run.2.session.host.isFile
        ("o" / "X.class" : Path) = true ∧
      ((compile referring.recording (updated [])).run.run staleState).run.1.toOption.any
        (fun out => out.rounds.all fun r => r.units.all fun u => u.classes.isEmpty) = true := by
    decide +kernel
  obtain ⟨hbegins, hsucceeds, hstays, hnone⟩ := hfacts
  obtain ⟨hclears, hclears'⟩ := clears_updated [] hbegins
  have hwrites : referring.WritesReported (updated []).compilers (updated []).options.output (· = "X.class") Cleared (· = ·) :=
    referring_writes
  obtain ⟨⟨r, t₁, t₂, hrun, hrun', hrequests⟩, hgone⟩ := compile_eq_from_scratch rfl outdated_listed
    rfl (referring_determined _) hwrites (referring_spares []) outdated_filesIn lookAlike_cleared ⟨rfl, Or.inl rfl⟩ hclears hclears'
  rw [hrun] at hsucceeds hnone
  rw [hrun'] at hstays
  cases r with
  | error e => simp [Except.toBool] at hsucceeds
  | ok out =>
    refine ⟨out, t₁, t₂, hrun, hrun', hrequests, ?_, hstays⟩
    rw [← Bool.not_eq_true]
    intro hthere
    -- the outdated record names a class that no source of this build gives
    have hk : outdated.analysis.class? "X" = some ⟨"S", "X.class", Digest.ofString ""⟩ := rfl
    obtain ⟨round, hround, u, hu, k, hmem, -⟩ := hgone rfl out t₁ hrun "X" _ hk hthere
    simp only [Except.toOption, Option.any_some, List.all_eq_true, List.isEmpty_iff] at hnone
    simp [hnone round hround u hu] at hmem

/-- **A class file that is seen by another path.** The classpath has the output directory under another spelling, which is
no entry to leave out. The stale class file is deleted before the classpath is opened, and the class is nowhere to be found.
From scratch the class file is there, and its digest is recorded. -/
theorem compile_ne_from_scratch :
    outdated.analysis.Listed ∧ outdated.setup.isCompatible (updated ["./o"]).setup = false ∧
      referring.Determined (updated ["./o"]).options.sources ∧
      (∀ compilers request s, ((referring compilers request).run.run s).run.2 = s) ∧
      Clears referring.recording (updated ["./o"]) staleState ∧
      Clears referring.recording { updated ["./o"] with previous := none } staleState ∧
      ∃ out out' t₁ t₂, (compile referring.recording (updated ["./o"])).Yields staleState out t₁ ∧
        (compile referring.recording { updated ["./o"] with previous := none }).Yields staleState out' t₂ ∧
        (out.analysis == out'.analysis) = false := by
  have hfacts : (((outset (updated ["./o"]) : Action _ EngineError Outset).run.run staleState).run.1.toBool = true ∧
      ((outset { updated ["./o"] with previous := none } : Action _ EngineError Outset).run.run staleState).run.1.toBool =
        true) ∧
      ((compile referring.recording (updated ["./o"])).run.run staleState).run.1.toBool = true ∧
      ((compile referring.recording { updated ["./o"] with previous := none }).run.run staleState).run.1.toBool = true ∧
      (((compile referring.recording (updated ["./o"])).run.run staleState).run.1.toOption.map EngineOutput.analysis ==
        ((compile referring.recording { updated ["./o"] with previous := none }).run.run staleState).run.1.toOption.map
          EngineOutput.analysis) = false := by
    decide +kernel
  obtain ⟨hbegins, hstale, hclean, hdiffer⟩ := hfacts
  obtain ⟨hclears, hclears'⟩ := clears_updated ["./o"] hbegins
  obtain ⟨out, t₁, hrun⟩ := exists_yields hstale
  obtain ⟨out', t₂, hrun'⟩ := exists_yields hclean
  refine ⟨outdated_listed, rfl, referring_determined _, fun _ _ _ => rfl, hclears, hclears', out, out', t₁, t₂, hrun, hrun', ?_⟩
  rw [show ((compile referring.recording (updated ["./o"])).run.run staleState).run = _ from hrun,
    show ((compile referring.recording { updated ["./o"] with previous := none }).run.run staleState).run = _ from hrun']
    at hdiffer
  exact hdiffer

end Engine

end Recompile

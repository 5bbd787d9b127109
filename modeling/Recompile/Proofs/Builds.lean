import Recompile.Proofs.ClassFiles
import Recompile.Proofs.Coherence

/-!
# Runs of builds

One output directory is built again and again, while its sources change. Each compile is given the analysis of the last
one that succeeded; one that fails leaves that analysis to the next, but not the output directory as it was.

As long as all compiles succeed, the class files in the directory are exactly those of the classes in the analysis
(`Builds.outputs_match`). After a failure there may be files missing, and a later compile that succeeds need not bring them
back, since it does not look for them (`Builds.missing_of_failure`). A source that is broken and then put back the way it
was is not compiled again, and its class files stay away (`recovery_without_class_file`).
-/

namespace Recompile

/-- **A build:** a compile with the machine on which it starts. -/
structure Build (σ : Type) where
  compiler : SourceCompiler σ
  inputs : EngineInputs
  start : EngineState σ

namespace Build

variable {σ : Type}

/-- How the build ends. -/
def result (b : Build σ) : Except EngineError EngineOutput × EngineState σ :=
  ((Engine.compile b.compiler b.inputs).run.run b.start).run

/-- Whether the build starts on what an analysis and a machine have left: it is given the analysis under the same setup, it
has the same output directory, and the files in there are still the same. -/
structure StartsFrom (b : Build σ) (setup : Setup) (output : Path) (previous : Option Analysis) (machine : Host) :
    Prop where
  given : b.inputs.previous = previous.map fun a => ⟨a, b.inputs.setup⟩
  same : b.inputs.setup = setup
  there : b.inputs.options.output = output
  untouched : ∀ W, machine.Outputs output W → b.start.session.host.Outputs output W

end Build

/-- **A run of builds** in one output directory under one setup. Everything else may be another thing in every build. -/
inductive Builds {σ : Type} (setup : Setup) (output : Path) : Option Analysis → Host → List (Build σ) → Prop
  /-- The run ends. -/
  | done {previous : Option Analysis} {machine : Host} : Builds setup output previous machine []
  /-- A build that succeeds hands on its analysis. -/
  | success {previous : Option Analysis} {machine : Host} {b : Build σ} {bs : List (Build σ)} {out : EngineOutput}
      {s : EngineState σ} (starts : b.StartsFrom setup output previous machine) (ends : b.result = (.ok out, s))
      (later : Builds setup output (some out.analysis) s.session.host bs) : Builds setup output previous machine (b :: bs)
  /-- A build that fails leaves the analysis that it was given. -/
  | failure {previous : Option Analysis} {machine : Host} {b : Build σ} {bs : List (Build σ)} {e : EngineError}
      {s : EngineState σ} (starts : b.StartsFrom setup output previous machine) (ends : b.result = (.error e, s))
      (later : Builds setup output previous s.session.host bs) : Builds setup output previous machine (b :: bs)

/-- **Whether the compiler of a build delivers** and no class of the build has two owners. -/
structure Build.Delivers {σ : Type} (b : Build σ) (N : Naming) (output : Path) : Prop where
  compiler : b.compiler.Delivers N output
  unshared : ∀ out s, b.result = (.ok out, s) → ∀ r ∈ out.rounds, r.Unshared

/-- **A compiler that keeps the output directory in order,** also when it fails. -/
def SourceCompiler.Tidy {σ : Type} (compiler : SourceCompiler σ) (output : Path) : Prop :=
  ∀ compilers request, request.output = output →
    (compiler compilers request).Keeps (fun s => ∃ W, s.host.Outputs output W) fun _ => True

namespace Build

variable {σ : Type} {N : Naming} {setup : Setup} {output : Path} {previous : Option Analysis} {machine : Host} {b : Build σ}
  {W : Location → Prop}

/-- A build that succeeds knows about the files. -/
theorem StartsFrom.tracks (starts : b.StartsFrom setup output previous machine) (hdelivers : b.Delivers N output)
    (hfiled : (previous.getD ∅).Filed N) (ho : machine.Outputs output W) {out : EngineOutput} {s : EngineState σ}
    (ends : b.result = (.ok out, s)) :
    out.analysis.TracksOn N output (previous.getD ∅) W out.recompiled s.session.host := by
  obtain ⟨given, -, rfl, untouched⟩ := starts
  exact Engine.tracks_of_compile hdelivers.compiler ends given hfiled (hdelivers.unshared out s ends) (untouched W ho)

/-- However a build ends, the output directory is in order. -/
theorem StartsFrom.outputs (starts : b.StartsFrom setup output previous machine) (hdelivers : b.Delivers N output)
    (htidy : b.compiler.Tidy output) (hfiled : (previous.getD ∅).Filed N) (ho : machine.Outputs output W)
    {r : Except EngineError EngineOutput} {s : EngineState σ} (ends : b.result = (r, s)) :
    ∃ W', s.session.host.Outputs output W' := by
  obtain ⟨given, -, rfl, untouched⟩ := starts
  -- the engine spares the property that some files are what the directory has
  have spares : Engine.Spares b.compiler b.inputs.compilers b.inputs.options.output Path.LeadsDown
      fun h => ∃ W, h.Outputs b.inputs.options.output W := by
    refine ⟨fun h log ⟨W, ho⟩ => ⟨W, ho⟩, fun request hrequest s hs => ?_, fun h file files hfile ⟨W, ho⟩ hremove => ?_⟩
    · refine ⟨(htidy _ request hrequest s hs).1, fun answer hanswer u hu c hc => ?_⟩
      have hyields : (b.compiler b.inputs.compilers request).Yields s answer _ := Prod.ext hanswer rfl
      obtain ⟨hvalid, hnamed⟩ := hdelivers.compiler.names hyields u hu c hc
      rw [hnamed]
      exact N.leadsDown c.name hvalid
    · exact ⟨_, ho.removeFile hfile hremove⟩
  refine (Engine.compile_keeps spares fun found hfound name k hk => ?_).state (t := s) ⟨W, untouched W ho⟩ ends
  -- the class files on record are those of the previous analysis, if it is used at all
  cases previous with
  | none => simp [given] at hfound
  | some a =>
    obtain rfl : Contents.mk a b.inputs.setup = found := by simpa [given] using hfound
    obtain ⟨hvalid, hnamed⟩ := hfiled.named name k hk
    rw [hnamed]
    exact N.leadsDown name hvalid

end Build

namespace Builds

variable {σ : Type} {N : Naming} {setup : Setup} {output : Path} {previous : Option Analysis} {machine : Host}
  {bs : List (Build σ)}

/-! ### Runs without a failure -/

/-- A run that starts with the class files of some analysis ends every build with those of the analysis that it returned. -/
theorem outputs_of_files (run : Builds setup output previous machine bs) (hfiled : (previous.getD ∅).Filed N)
    (ho : machine.Outputs output (previous.getD ∅).Files) (hdelivers : ∀ b ∈ bs, b.Delivers N output)
    (hall : ∀ b ∈ bs, b.result.1.toBool = true) :
    ∀ b ∈ bs, ∀ out s, b.result = (.ok out, s) →
      s.session.host.Outputs output out.analysis.Files ∧ out.analysis.Filed N := by
  induction run with
  | done => simp
  | success starts ends later ih =>
    rw [List.forall_mem_cons] at hdelivers hall ⊢
    obtain ⟨W, ho', htracks⟩ := starts.tracks hdelivers.1 hfiled ho ends
    -- the build started with the files of its baseline, so it ends with those of its own analysis
    have hexact := ho'.congr htracks.files_iff
    refine ⟨fun out s ends' => ?_, ih htracks.filed hexact hdelivers.2 hall.2⟩
    obtain ⟨h, rfl⟩ := Prod.mk.inj (ends.symm.trans ends')
    obtain rfl := Except.ok.inj h
    exact ⟨hexact, htracks.filed⟩
  | failure starts ends later ih =>
    have hok := hall _ List.mem_cons_self
    simp [ends, Except.toBool] at hok

/-- **As long as all builds succeed, the class files are those of the analysis.** The run starts without an analysis, in an
output directory without files. Then after every build the files in the directory are those of the classes in the analysis
that it returned, none is missing and none is left over: there is a file at the place of a class exactly if the class is
recorded. -/
theorem outputs_match (run : Builds setup output none machine bs) (hempty : machine.Outputs output fun _ => False)
    (hdelivers : ∀ b ∈ bs, b.Delivers N output) (hall : ∀ b ∈ bs, b.result.1.toBool = true) :
    ∀ b ∈ bs, ∀ out s, b.result = (.ok out, s) → s.session.host.Outputs output out.analysis.Files ∧
      ∀ name, N.valid name → (out.analysis.Files (N.way name) ↔ ∃ k, out.analysis.class? name = some k) := by
  have hnone : machine.Outputs output (∅ : Analysis).Files := by
    refine hempty.congr fun w => ⟨False.elim, ?_⟩
    rintro ⟨name, k, hk, -⟩
    simp at hk
  intro b hb out s ends
  obtain ⟨ho, hfiled⟩ := run.outputs_of_files Analysis.Filed.empty hnone hdelivers hall b hb out s ends
  exact ⟨ho, fun name => hfiled.files_iff⟩

end Builds

/-! ### A compiler of two sources -/

/-- The class of the source `A` or `B` has the name of the source. -/
private def copies : Naming where
  file name := ⟨name ++ ".class"⟩
  valid name := name = "A" ∨ name = "B"
  leadsDown := by
    rintro name (rfl | rfl)
    · exact ⟨by decide, by decide, by decide⟩
    · exact ⟨by decide, by decide, by decide⟩
  distinct := by
    rintro m n (rfl | rfl) (rfl | rfl)
    all_goals decide

/-- The unit of a source: one class, or none if the source is missing, empty, or not one of the two. -/
private def copied (h : Host) (p : Path) : CompiledUnit :=
  ⟨p, if p.spelling ∈ ["A", "B"] ∧ (h.read p).toOption.any (· ≠ []) then
    [⟨p.spelling, copies.file p.spelling, ⟨1, 1⟩⟩] else [], ∅⟩

private def writeCopies (output : Path) (cwd : Location) : List String → Files → Except Fault Files
  | [], files => .ok files
  | name :: rest, files => do writeCopies output cwd rest (← files.write cwd (output / copies.file name) [1])

/-- A compiler that writes one class file for each source. A source without a class is an error. -/
private def copying : SourceCompiler Unit := fun _ request => do
  let units := request.sources.map (copied (← get).host)
  Session.onHost (Host.change (.file request.output) fun files cwd =>
    writeCopies request.output cwd (units.flatMap fun u => u.classes.map CompiledClass.name) files)
  return ⟨units, if units.any fun u => u.classes.isEmpty then [⟨.error, "no class", .unknown⟩] else []⟩

private theorem names_copied (h : Host) (sources : List Path) : copies.Names (sources.map (copied h)) := by
  intro u hu c hc
  obtain ⟨p, -, rfl⟩ := List.mem_map.1 hu
  unfold copied at hc
  dsimp only at hc
  split at hc
  next hknown =>
    obtain rfl := List.mem_singleton.1 hc
    exact ⟨by simpa [copies] using hknown.1, rfl⟩
  next => simp at hc

private theorem outputs_writeCopies {output : Path} {names : List String} {h : Host} {W : Location → Prop} {files : Files}
    (ho : h.Outputs output W) (hnames : ∀ name ∈ names, copies.valid name)
    (hwrite : writeCopies output h.cwd names h.files = .ok files) :
    { h with files }.Outputs output fun w => W w ∨ ∃ name ∈ names, copies.way name = w := by
  induction names generalizing h W with
  | nil =>
    obtain rfl := Except.ok.inj hwrite
    exact ho.congr (by simp)
  | cons name rest ih =>
    rw [List.forall_mem_cons] at hnames
    obtain ⟨files₁, hfirst, hrest⟩ := bind_eq_ok_iff.1 hwrite
    -- the first file is in its place, and the others are written from there
    refine (ih (ho.write (copies.leadsDown name hnames.1) hfirst) hnames.2 hrest).congr fun w => ?_
    simp [Naming.way, or_assoc, eq_comm]

private theorem copying_delivers (output : Path) : copying.Delivers copies output where
  units hrun hdistinct := by
    simp only [copying, Action.yields_bind, Action.yields_get, Action.yields_pure] at hrun
    obtain ⟨_, _, ⟨rfl, rfl⟩, _, _, -, rfl, -⟩ := hrun
    refine ⟨List.pairwise_map.2 hdistinct, fun p hp => ⟨_, List.mem_map_of_mem hp, BEq.rfl⟩, fun u hu => ?_⟩
    obtain ⟨p, hp, rfl⟩ := List.mem_map.1 hu
    exact Path.among_of_mem hp
  names hrun := by
    simp only [copying, Action.yields_bind, Action.yields_get, Action.yields_pure] at hrun
    obtain ⟨_, _, ⟨rfl, rfl⟩, _, _, -, rfl, -⟩ := hrun
    exact names_copied _ _
  writes hrun houtput ho := by
    simp only [copying, Action.yields_bind, Action.yields_get, Action.yields_pure, Session.yields_onHost,
      Host.yields_change] at hrun
    obtain ⟨_, s, ⟨rfl, rfl⟩, _, _, ⟨_, ⟨files, hwrite, rfl⟩, rfl⟩, rfl, rfl⟩ := hrun
    rw [houtput] at hwrite
    refine (outputs_writeCopies ho (fun name hname => ?_) hwrite).congr fun w => ?_
    · -- only names that are fit for a file are copied
      obtain ⟨u, hu, hmem⟩ := List.mem_flatMap.1 hname
      obtain ⟨c, hc, rfl⟩ := List.mem_map.1 hmem
      exact (names_copied _ _ u hu c hc).1
    · simp only [Naming.Reports, List.mem_flatMap, List.mem_map (f := CompiledClass.name)]
      refine or_congr_right ⟨?_, ?_⟩
      · rintro ⟨_, ⟨u, hu, c, hc, rfl⟩, hw⟩
        exact ⟨u, hu, c, hc, hw⟩
      · rintro ⟨u, hu, c, hc, hw⟩
        exact ⟨_, ⟨u, hu, c, hc, rfl⟩, hw⟩

private def buildSetup : Setup := ⟨"o", "2.13.12", [], [], .mixed⟩

/-- A build of some sources into the directory `o`. -/
private def buildOf (sources : List Path) (previous : Option Analysis) (host : Host) : Build Unit where
  compiler := copying
  inputs :=
    { compilers := ⟨⟨⟨2, 13, 12, none⟩, "lib.jar", "comp.jar", ⟨⟨"2.13.12", []⟩, ∅⟩⟩, "bridge.jar"⟩
      options := ⟨["o"], sources, "o", [], [], .mixed⟩
      setup := buildSetup
      previous := previous.map fun a => ⟨a, buildSetup⟩
      lookup := {} }
  start := ⟨⟨host, ()⟩, { maxErrors := 100 }⟩

/-- The machine that a build leaves. -/
private def Build.left (b : Build Unit) : Host := b.result.2.session.host

/-- The analysis that a build returns. -/
private def Build.analysis (b : Build Unit) : Analysis := b.result.1.toOption.elim ∅ EngineOutput.analysis

private theorem startsFrom_buildOf (sources : List Path) (previous : Option Analysis) {machine host : Host}
    (untouched : ∀ W, machine.Outputs "o" W → host.Outputs "o" W) :
    (buildOf sources previous host).StartsFrom buildSetup "o" previous machine := ⟨rfl, rfl, rfl, untouched⟩

private theorem exists_success {b : Build Unit} (h : b.result.1.toBool = true) :
    ∃ out s, b.result = (.ok out, s) ∧ b.analysis = out.analysis ∧ b.left = s.session.host := by
  obtain ⟨out, s, hrun⟩ := Action.exists_yields (x := Engine.compile b.compiler b.inputs) h
  have hrun : b.result = (.ok out, s) := hrun
  exact ⟨out, s, hrun, by rw [Build.analysis, hrun]; rfl, by rw [Build.left, hrun]⟩

private theorem exists_failure {b : Build Unit} (h : b.result.1.toBool = false) :
    ∃ e s, b.result = (.error e, s) ∧ b.left = s.session.host := by
  obtain ⟨e, s, hrun⟩ := Action.exists_fails (x := Engine.compile b.compiler b.inputs) h
  have hrun : b.result = (.error e, s) := hrun
  exact ⟨e, s, hrun, by rw [Build.left, hrun]⟩

private theorem delivers_buildOf {sources : List Path} {previous : Option Analysis} {host : Host}
    (hunshared : ∀ out ∈ (buildOf sources previous host).result.1.toOption, ∀ r ∈ out.rounds, r.Unshared) :
    (buildOf sources previous host).Delivers copies "o" where
  compiler := copying_delivers "o"
  unshared out s ends := hunshared out (by rw [ends]; rfl)

/-- A machine with two sources and an output directory. -/
private def twoSources : Host where
  files := ((Files.put ∅ ["A"] (.file [1] false)).put ["B"] (.file [2] false)).put ["o"] .dir

private theorem outputs_twoSources : twoSources.Outputs "o" fun _ => False := by
  have hplace : twoSources.files.place twoSources.cwd true "o" = .ok ⟨["o"], some .dir⟩ := rfl
  refine Host.Outputs.of_empty hplace (by simp [twoSources, Files.node?_put]) fun w hw => ?_
  have hnone : (∅ : Files).node? ("o" :: w) = none := rfl
  simp [twoSources, Files.node?_put, hw, hnone]

private def bothBuilt : Build Unit := buildOf ["A", "B"] none twoSources

private def oneBuilt : Build Unit := buildOf ["A"] (some bothBuilt.analysis) bothBuilt.left

/-- When the source `B` is gone, its class file is gone. -/
theorem Builds.outputs_match_without_source :
    ∃ machine, Builds buildSetup "o" none machine [bothBuilt, oneBuilt] ∧
      (∃ out s, bothBuilt.result = (.ok out, s) ∧ s.session.host.HasOutput "o" ["B.class"]) ∧
      ∃ out s, oneBuilt.result = (.ok out, s) ∧ s.session.host.HasOutput "o" ["A.class"] ∧
        ¬ s.session.host.HasOutput "o" ["B.class"] := by
  have hfacts : bothBuilt.result.1.toBool = true ∧ oneBuilt.result.1.toBool = true ∧
      (∀ b ∈ [bothBuilt, oneBuilt], ∀ out ∈ b.result.1.toOption, ∀ r ∈ out.rounds, r.Unshared) ∧
      (bothBuilt.analysis.class? "B").isSome = true ∧ (oneBuilt.analysis.class? "A").isSome = true ∧
      (oneBuilt.analysis.class? "B").isSome = false := by
    decide +kernel
  obtain ⟨hboth, hone, hunshared, hB, hA, hgone⟩ := hfacts
  obtain ⟨out, s, ends, hout, hleft⟩ := exists_success hboth
  obtain ⟨out', s', ends', hout', -⟩ := exists_success hone
  rw [hout] at hB
  rw [hout'] at hA hgone
  -- the second build starts from what the first one recorded and left
  have hfirst : bothBuilt.StartsFrom buildSetup "o" none twoSources := startsFrom_buildOf _ _ fun _ => id
  have hlater : oneBuilt.StartsFrom buildSetup "o" (some bothBuilt.analysis) bothBuilt.left :=
    startsFrom_buildOf _ _ fun _ => id
  rw [hout, hleft] at hlater
  have run : Builds buildSetup "o" none twoSources [bothBuilt, oneBuilt] :=
    .success hfirst ends (.success hlater ends' .done)
  have hdelivers : ∀ b ∈ [bothBuilt, oneBuilt], b.Delivers copies "o" := by
    rw [List.forall_mem_cons, List.forall_mem_singleton] at hunshared ⊢
    exact ⟨delivers_buildOf hunshared.1, delivers_buildOf hunshared.2⟩
  -- both are builds of one run, so what lies in the directory is what each of them recorded
  have hmatch := run.outputs_match outputs_twoSources hdelivers (by simp [hboth, hone])
  rw [List.forall_mem_cons, List.forall_mem_singleton] at hmatch
  obtain ⟨ho, hrecorded₁⟩ := hmatch.1 out s ends
  obtain ⟨ho', hrecorded₂⟩ := hmatch.2 out' s' ends'
  refine ⟨_, run, ⟨out, s, ends, ?_⟩, out', s', ends', ?_, ?_⟩
  · exact ho.hasOutput_iff.2 ((hrecorded₁ "B" (Or.inr rfl)).2 (Option.isSome_iff_exists.1 hB))
  · exact ho'.hasOutput_iff.2 ((hrecorded₂ "A" (Or.inl rfl)).2 (Option.isSome_iff_exists.1 hA))
  · intro hthere
    obtain ⟨k, hk⟩ := (hrecorded₂ "B" (Or.inr rfl)).1 (ho'.hasOutput_iff.1 hthere)
    simp [hk] at hgone

/-! ### Runs with failures -/

/-- **What a run has left:** an analysis of which the class files are there, apart from some that were lost. -/
structure Analysis.Leaves (a : Analysis) (N : Naming) (output : Path) (lost : Location → Prop) (h : Host) : Prop where
  filed : a.Filed N
  inOrder : ∃ W, h.Outputs output W
  there : ∀ name k, a.class? name = some k → h.HasOutput output (N.way name) ∨ lost (N.way name)

namespace Build

variable {σ : Type} {N : Naming} {setup : Setup} {output : Path} {previous : Option Analysis} {machine : Host} {b : Build σ}
  {lost : Location → Prop} {s : EngineState σ}

/-- Whether a build fails and loses a file: it was there when the build started, and is gone when it ends. -/
def Loses (b : Build σ) (output : Path) (w : Location) : Prop :=
  b.result.1.toBool = false ∧ b.start.session.host.HasOutput output w ∧ ¬ b.result.2.session.host.HasOutput output w

/-- After a build that succeeds, the file of a recorded class is there if it was there or the source was compiled. -/
theorem StartsFrom.hasOutput_iff (starts : b.StartsFrom setup output previous machine) (hdelivers : b.Delivers N output)
    (hleft : (previous.getD ∅).Leaves N output lost machine) {out : EngineOutput} (ends : b.result = (.ok out, s))
    {name : String} {k : ClassInfo} (hk : out.analysis.class? name = some k) :
    s.session.host.HasOutput output (N.way name) ↔
      b.start.session.host.HasOutput output (N.way name) ∨ k.source.Among out.recompiled := by
  obtain ⟨W, ho⟩ := hleft.inOrder
  obtain ⟨W', ho', htracks⟩ := starts.tracks hdelivers hleft.filed ho ends
  rw [ho'.hasOutput_iff, (starts.untouched W ho).hasOutput_iff]
  exact htracks.there name k hk

/-- A build that succeeds loses nothing. -/
theorem StartsFrom.leaves_of_success (starts : b.StartsFrom setup output previous machine)
    (hdelivers : b.Delivers N output) (hleft : (previous.getD ∅).Leaves N output lost machine) {out : EngineOutput}
    (ends : b.result = (.ok out, s)) : out.analysis.Leaves N output lost s.session.host := by
  obtain ⟨W, ho⟩ := hleft.inOrder
  obtain ⟨W', ho', htracks⟩ := starts.tracks hdelivers hleft.filed ho ends
  refine ⟨htracks.filed, ⟨W', ho'⟩, fun name k hk => ?_⟩
  rw [starts.hasOutput_iff hdelivers hleft ends hk, (starts.untouched W ho).hasOutput_iff, ← ho.hasOutput_iff]
  rcases htracks.kept name k hk with hbase | hcompiled
  · exact (hleft.there name k hbase).imp_left Or.inl
  · exact Or.inl (Or.inr hcompiled)

/-- What a build that fails takes away is lost from then on. -/
theorem StartsFrom.leaves_of_failure (starts : b.StartsFrom setup output previous machine)
    (hdelivers : b.Delivers N output) (htidy : b.compiler.Tidy output)
    (hleft : (previous.getD ∅).Leaves N output lost machine) {e : EngineError} (ends : b.result = (.error e, s)) :
    (previous.getD ∅).Leaves N output (fun w => lost w ∨ b.Loses output w) s.session.host := by
  obtain ⟨W, ho⟩ := hleft.inOrder
  obtain ⟨W', ho'⟩ := starts.outputs hdelivers htidy hleft.filed ho ends
  refine ⟨hleft.filed, ⟨W', ho'⟩, fun name k hk => or_iff_not_imp_left.2 fun hgone => ?_⟩
  refine (hleft.there name k hk).symm.imp_right fun hbefore => ⟨by simp [ends, Except.toBool], ?_, by rwa [ends]⟩
  rwa [(starts.untouched W ho).hasOutput_iff, ← ho.hasOutput_iff]

end Build

namespace Builds

variable {σ : Type} {N : Naming} {setup : Setup} {output : Path} {previous : Option Analysis} {machine : Host}
  {bs : List (Build σ)} {lost : Location → Prop}

/-- What a run does to files of which some are lost before it starts. -/
theorem hasOutput_or_lost (run : Builds setup output previous machine bs)
    (hleft : (previous.getD ∅).Leaves N output lost machine) (hdelivers : ∀ b ∈ bs, b.Delivers N output)
    (htidy : ∀ b ∈ bs, b.compiler.Tidy output) {pre post : List (Build σ)} {b : Build σ} (hsplit : bs = pre ++ b :: post)
    {out : EngineOutput} {s : EngineState σ} (ends : b.result = (.ok out, s)) {name : String} {k : ClassInfo}
    (hk : out.analysis.class? name = some k) :
    (s.session.host.HasOutput output (N.way name) ↔
      b.start.session.host.HasOutput output (N.way name) ∨ k.source.Among out.recompiled) ∧
    (s.session.host.HasOutput output (N.way name) ∨ lost (N.way name) ∨ ∃ d ∈ pre, d.Loses output (N.way name)) := by
  induction run generalizing pre lost with
  | done => simp at hsplit
  | success starts ends₁ later ih =>
    rw [List.forall_mem_cons] at hdelivers htidy
    have hleft₁ := starts.leaves_of_success hdelivers.1 hleft ends₁
    cases pre with
    | nil =>
      obtain ⟨rfl, rfl⟩ := List.cons.inj hsplit
      obtain ⟨h, rfl⟩ := Prod.mk.inj (ends₁.symm.trans ends)
      obtain rfl := Except.ok.inj h
      -- this is the build in question
      exact ⟨starts.hasOutput_iff hdelivers.1 hleft ends hk, (hleft₁.there name k hk).imp_right Or.inl⟩
    | cons d pre =>
      obtain ⟨rfl, hrest⟩ := List.cons.inj hsplit
      -- it is one of the later builds, and this one has lost nothing
      refine (ih hleft₁ hdelivers.2 htidy.2 hrest).imp_right (Or.imp_right (Or.imp_right ?_))
      exact fun ⟨d, hd, hloses⟩ => ⟨d, List.mem_cons_of_mem _ hd, hloses⟩
  | failure starts ends₁ later ih =>
    rw [List.forall_mem_cons] at hdelivers htidy
    have hleft₁ := starts.leaves_of_failure hdelivers.1 htidy.1 hleft ends₁
    cases pre with
    | nil =>
      obtain ⟨rfl, rfl⟩ := List.cons.inj hsplit
      simp [ends₁] at ends
    | cons d pre =>
      obtain ⟨rfl, hrest⟩ := List.cons.inj hsplit
      -- what this build has lost is lost when the later ones start
      refine (ih hleft₁ hdelivers.2 htidy.2 hrest).imp_right (Or.imp_right ?_)
      rintro ((hlost | hloses) | ⟨d, hd, hloses⟩)
      · exact Or.inl hlost
      · exact Or.inr ⟨_, List.mem_cons_self, hloses⟩
      · exact Or.inr ⟨d, List.mem_cons_of_mem _ hd, hloses⟩

/-- **What failures leave behind.** After a build that succeeds, the file of a recorded class is there exactly if it was
there when the build started or its source was compiled. If it is missing then a build that failed before has lost it. -/
theorem missing_of_failure (run : Builds setup output none machine bs) (hempty : machine.Outputs output fun _ => False)
    (hdelivers : ∀ b ∈ bs, b.Delivers N output) (htidy : ∀ b ∈ bs, b.compiler.Tidy output) {pre post : List (Build σ)}
    {b : Build σ} (hsplit : bs = pre ++ b :: post) {out : EngineOutput} {s : EngineState σ}
    (ends : b.result = (.ok out, s)) {name : String} {k : ClassInfo} (hk : out.analysis.class? name = some k) :
    (s.session.host.HasOutput output (N.way name) ↔
      b.start.session.host.HasOutput output (N.way name) ∨ k.source.Among out.recompiled) ∧
    (s.session.host.HasOutput output (N.way name) ∨ ∃ d ∈ pre, d.Loses output (N.way name)) := by
  have hleft : (∅ : Analysis).Leaves N output (fun _ => False) machine :=
    ⟨Analysis.Filed.empty, ⟨_, hempty⟩, fun name k hk => by simp at hk⟩
  have hend := hasOutput_or_lost run hleft hdelivers htidy hsplit ends hk
  rwa [false_or] at hend

end Builds

/-! ### A source that is broken and put back -/

private theorem copying_tidy (output : Path) : copying.Tidy output := by
  rintro compilers request houtput s ⟨W, ho⟩
  refine ⟨?_, fun _ _ => trivial⟩
  rcases Action.yields_or_fails (copying compilers request) s with ⟨answer, s', hrun⟩ | ⟨e, s', hrun⟩
  · rw [show ((copying compilers request).run.run s).run = _ from hrun]
    exact ⟨_, (copying_delivers output).writes hrun houtput ho⟩
  · rw [show ((copying compilers request).run.run s).run = _ from hrun]
    -- the compiler writes all class files or none
    simp only [copying, Action.fails_bind, Action.not_fails_get, Action.yields_get, Action.not_fails_pure,
      Session.fails_onHost, Host.fails_change, and_false, exists_false, or_false, false_or] at hrun
    obtain ⟨_, _, ⟨rfl, rfl⟩, _, ⟨_, -, -, rfl⟩, rfl⟩ := hrun
    exact ⟨W, ho⟩

/-- The machine with other contents of the source `A`. -/
private def edited (h : Host) (data : Bytes) : Host := { h with files := h.files.put ["A"] (.file data false) }

private def firstBuilt : Build Unit := buildOf ["A"] none twoSources

private def brokenBuilt : Build Unit := buildOf ["A"] (some firstBuilt.analysis) (edited firstBuilt.left [])

private def restoredBuilt : Build Unit := buildOf ["A"] (some firstBuilt.analysis) (edited brokenBuilt.left [1])

/-- Whether the output directory is where the source `A` is not, and the source is a file. -/
private def Apart (h : Host) : Prop :=
  (∀ r ∈ (h.files.place h.cwd true "o").toOption, ¬ r.loc <+: ["A"]) ∧ ∀ node ∈ h.files.node? ["A"], node.isFile = true

private instance (h : Host) : Decidable (Apart h) := inferInstanceAs (Decidable (_ ∧ _))

private theorem outputs_edited {h : Host} (hapart : Apart h) {data : Bytes} {W : Location → Prop}
    (ho : h.Outputs "o" W) : (edited h data).Outputs "o" W := by
  refine ho.edit (fun r hr => hapart.1 r (by rw [hr]; rfl)) hapart.2 fun other (hother : other ≠ ["A"]) => ?_
  rw [Files.node?_put _ (by simp), if_neg hother]

/-- **A class file that does not come back.** The source `A` is built, broken, and put back the way it was. The last build
compiles nothing, and the class file that the failed build has taken away stays away. -/
theorem Builds.missing_of_failure_restored :
    ∃ machine, Builds buildSetup "o" none machine [firstBuilt, brokenBuilt, restoredBuilt] ∧
      ∃ out s k, restoredBuilt.result = (.ok out, s) ∧ out.analysis.class? "A" = some k ∧
        ¬ s.session.host.HasOutput "o" ["A.class"] ∧
        ∃ d ∈ [firstBuilt, brokenBuilt], d.Loses "o" ["A.class"] := by
  have hfacts : firstBuilt.result.1.toBool = true ∧ brokenBuilt.result.1.toBool = false ∧
      restoredBuilt.result.1.toBool = true ∧ Apart firstBuilt.left ∧ Apart brokenBuilt.left ∧
      (∀ b ∈ [firstBuilt, brokenBuilt, restoredBuilt], ∀ out ∈ b.result.1.toOption, ∀ r ∈ out.rounds, r.Unshared) ∧
      (restoredBuilt.analysis.class? "A").isSome = true ∧
      ∀ r ∈ (restoredBuilt.left.files.place restoredBuilt.left.cwd true "o").toOption,
        restoredBuilt.left.files.fileAt (r.loc ++ ["A.class"]) = false := by
    decide +kernel
  obtain ⟨hfirst, hbroken, hrestored, hapart, hapart', hunshared, hA, hgone⟩ := hfacts
  obtain ⟨out₁, s₁, ends₁, hout₁, hleft₁⟩ := exists_success hfirst
  obtain ⟨e, s₂, ends₂, hleft₂⟩ := exists_failure hbroken
  obtain ⟨out₃, s₃, ends₃, hout₃, hleft₃⟩ := exists_success hrestored
  have starts₁ : firstBuilt.StartsFrom buildSetup "o" none twoSources := startsFrom_buildOf _ _ fun _ => id
  have starts₂ : brokenBuilt.StartsFrom buildSetup "o" (some firstBuilt.analysis) firstBuilt.left :=
    startsFrom_buildOf _ _ fun _ => outputs_edited hapart
  have starts₃ : restoredBuilt.StartsFrom buildSetup "o" (some firstBuilt.analysis) brokenBuilt.left :=
    startsFrom_buildOf _ _ fun _ => outputs_edited hapart'
  rw [hout₁, hleft₁] at starts₂
  rw [hout₁, hleft₂] at starts₃
  -- the third build starts from the analysis of the first, and on the machine of the second
  have run : Builds buildSetup "o" none twoSources [firstBuilt, brokenBuilt, restoredBuilt] :=
    .success starts₁ ends₁ (.failure starts₂ ends₂ (.success starts₃ ends₃ .done))
  have hdelivers : ∀ b ∈ [firstBuilt, brokenBuilt, restoredBuilt], b.Delivers copies "o" := by
    rw [List.forall_mem_cons, List.forall_mem_cons, List.forall_mem_singleton] at hunshared ⊢
    exact ⟨delivers_buildOf hunshared.1, delivers_buildOf hunshared.2.1, delivers_buildOf hunshared.2.2⟩
  have htidy : ∀ b ∈ [firstBuilt, brokenBuilt, restoredBuilt], b.compiler.Tidy "o" := by
    rw [List.forall_mem_cons, List.forall_mem_cons, List.forall_mem_singleton]
    exact ⟨copying_tidy "o", copying_tidy "o", copying_tidy "o"⟩
  rw [hout₃] at hA
  obtain ⟨k, hk⟩ := Option.isSome_iff_exists.1 hA
  -- the class file is not where the walk to the output directory leads
  have hmissing : ¬ s₃.session.host.HasOutput "o" ["A.class"] := by
    rw [← hleft₃]
    intro hthere
    obtain ⟨loc, hplace, hfile⟩ := hthere.exists_fileAt
    exact absurd (hgone _ (by rw [hplace]; rfl)) (by simp [hfile])
  have hsplit : [firstBuilt, brokenBuilt, restoredBuilt] = [firstBuilt, brokenBuilt] ++ restoredBuilt :: [] := rfl
  have hlost := run.missing_of_failure outputs_twoSources hdelivers htidy hsplit ends₃ hk
  exact ⟨_, run, out₃, s₃, k, ends₃, hk, hmissing, hlost.2.resolve_left hmissing⟩

/-- An attempt to compile the source `A` into the directory `o`. -/
private def attemptOn (host : Host) : Attempt Unit where
  module := { compilers := ⟨⟨⟨2, 13, 12, none⟩, "lib.jar", "comp.jar", ⟨⟨"2.13.12", []⟩, ∅⟩⟩, "bridge.jar"⟩, store := "s" }
  compiler := copying
  task := ⟨[], ["A"], "o", [], []⟩
  session := ⟨host, ()⟩

private theorem delivers_attemptOn (host : Host) :
    (attemptOn host).compiler.Delivers copies (attemptOn host).task.output := copying_delivers "o"

/-- At first there is the source and nothing else. -/
private def freshAttempt : Attempt Unit := attemptOn (edited {} [1])

private def brokenAttempt : Attempt Unit := attemptOn (edited freshAttempt.result.2.host [])

private def restoredAttempt : Attempt Unit := attemptOn (edited brokenAttempt.result.2.host [1])

/-- **A module does not recover from every failure.** The compiler writes the file of every class that it reports, and
between the attempts nothing changes but the one source. The last attempt succeeds and commits the class `A`, but the class
file is not there. -/
theorem Attempts.recovery_without_class_file :
    (∀ c ∈ [freshAttempt, brokenAttempt, restoredAttempt], c.compiler.Delivers copies c.task.output) ∧
      freshAttempt.session.host.exists? "o" = false ∧
      ∃ data, Attempts "s" [freshAttempt, brokenAttempt, restoredAttempt] data ∧
        (∃ e s, brokenAttempt.result = (.error e, s) ∧ e.stage = "compile") ∧
        ∃ outcome s k, restoredAttempt.result = (.ok outcome, s) ∧ outcome.analysis.class? "A" = some k ∧
          s.host.exists? ("o" / k.classFile) = false := by
  have hfacts : freshAttempt.result.1.toBool = true ∧ brokenAttempt.result.1.toBool = false ∧
      restoredAttempt.result.1.toBool = true ∧ freshAttempt.session.host.exists? "o" = false ∧
      freshAttempt.session.host.read "s" = .error (.ofKind .notFound) ∧
      brokenAttempt.session.host.read "s" = freshAttempt.result.2.host.read "s" ∧
      restoredAttempt.session.host.read "s" = freshAttempt.result.2.host.read "s" ∧
      (∀ c ∈ [freshAttempt, restoredAttempt], ∀ outcome ∈ c.result.1.toOption,
        (Store.encode ⟨outcome.analysis, c.module.setup c.task⟩).length < Codec.maxLength) ∧
      (match brokenAttempt.result.1 with | .ok _ => "" | .error e => e.stage) = "compile" ∧
      ∀ outcome ∈ restoredAttempt.result.1.toOption, (outcome.analysis.class? "A").any fun k =>
        !restoredAttempt.result.2.host.exists? ("o" / k.classFile) := by
    decide +kernel
  obtain ⟨hfresh, hbroken, hrestored, hempty, hnone, hkept, hkept', hsmall, hstage, hgone⟩ := hfacts
  obtain ⟨first, hfirst⟩ := Attempt.exists_success hfresh
  obtain ⟨e, hfails⟩ := Attempt.exists_failure hbroken
  obtain ⟨last, hlast⟩ := Attempt.exists_success hrestored
  have hsmall₁ := hsmall freshAttempt (by simp) first (by rw [hfirst]; rfl)
  have hsmall₂ := hsmall restoredAttempt (by simp) last (by rw [hlast]; rfl)
  -- the second attempt leaves the store, and the third one loads it
  have hstart : Attempts (σ := Unit) "s" [] (.error (.ofKind .notFound)) := .start rfl
  have hrun : Attempts "s" [freshAttempt, brokenAttempt, restoredAttempt] (restoredAttempt.result.2.host.read "s") :=
    ((hstart.success rfl hnone hfirst hsmall₁).failure rfl hkept hfails).success rfl hkept' hlast hsmall₂
  have hlost := hgone last (by rw [hlast]; rfl)
  obtain ⟨k, hk, hmissing⟩ := (Option.any_eq_true _ _).1 hlost
  refine ⟨?_, hempty, _, hrun, ⟨e, _, hfails, ?_⟩, last, _, k, hlast, hk, by simpa using hmissing⟩
  · rw [List.forall_mem_cons, List.forall_mem_cons, List.forall_mem_singleton]
    exact ⟨delivers_attemptOn _, delivers_attemptOn _, delivers_attemptOn _⟩
  · have herror : brokenAttempt.result.1 = .error e := by rw [hfails]
    generalize brokenAttempt.result.1 = r at herror hstage
    subst herror
    exact hstage

end Recompile

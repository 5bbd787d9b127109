import Recompile.Proofs.Compile
import Recompile.Proofs.Settled
import Recompile.Proofs.StoreFile
import Recompile.Sample.LineCompiler

/-!
# A successful compile is a fixed point

A module that was compiled with success and is compiled again, while what the first compile has read is still there
(`Module.Unchanged`), has nothing to do: the compiler is not asked, nothing is deleted, and the store keeps its bytes.
`Module.compile_again` says so, whatever the compiler did in the first compile and whatever the store held before.

The engine finds no work because after a success every source is settled (`Engine.settled_of_trace`), and the store
brings the analysis back as it was. What may still go wrong lies in the tree. The store is replaced by renaming a
finished file over its path, and if that path is a symbolic link the link is gone. Paths that ran through the link, that
of the output directory or the one of the store itself, then run into a file. So the second compile succeeds exactly if
the output directory can be made, which includes that it is there, and the path of the store leads to a file;
`Module.compile_fails_behind_replaced_link` is a compile after which it cannot.
-/

namespace Recompile

namespace Module

variable {σ : Type} {m : Module} {compiler : SourceCompiler σ} {t : CompileTask}

/-- **Whether what a compile has read is still there:** on the machine `h` the sources read as they did on the machine
`begun` on which the engine started, and a newly opened external classpath gives every class that was looked up the
fingerprint that was found, or none if none was found. -/
structure Unchanged (m : Module) (t : CompileTask) (begun : Host) (out : EngineOutput) (h : Host) : Prop where
  sources : ∀ p ∈ t.sources, h.read p = begun.read p
  classpath : ∀ name found, out.classpath.resolved.get? name = some found →
    Classpath.answer { layout := m.layout } (externalClasspath t.classpath t.output) h name = found

theorem unchanged_iff {begun h : Host} {out : EngineOutput} : m.Unchanged t begun out h ↔
    (∀ p ∈ t.sources, h.read p = begun.read p) ∧ ∀ e ∈ out.classpath.resolved.entries,
      Classpath.answer { layout := m.layout } (externalClasspath t.classpath t.output) h e.1 = e.2 := by
  refine ⟨fun same => ⟨same.sources, fun e he => same.classpath _ _ (SortedMap.get?_of_mem he)⟩,
    fun ⟨hsources, hclasspath⟩ => ⟨hsources, fun name found hfound => ?_⟩⟩
  obtain ⟨name', he, hname⟩ := SortedMap.get?_eq_some_iff.1 hfound
  obtain rfl : name = name' := Std.LawfulEqCmp.eq_of_compare hname
  exact hclasspath _ he

instance (begun : Host) (out : EngineOutput) (h : Host) : Decidable (m.Unchanged t begun out h) :=
  decidable_of_iff' _ unchanged_iff

theorem externalClasspath_options (m : Module) (t : CompileTask) :
    externalClasspath (m.options t).classpath t.output = externalClasspath t.classpath t.output := by
  simp [options, externalClasspath]

/-- **A compile has nothing to do** if every source is settled in the stored analysis: it yields the analysis, and
leaves everything in the tree where it is. -/
theorem yields_compile_of_settled {s : Session σ} {a : Analysis} {digests : SortedMap Path Digest} {c : Classpath}
    {loc : Location} (hname : Files.EndsInName m.store)
    (hplace : ∀ follow, s.host.files.place s.host.cwd follow m.store =
      .ok ⟨loc, some (.file (Store.encode ⟨a, m.setup t⟩) false)⟩)
    (hsmall : (Store.encode ⟨a, m.setup t⟩).length < Codec.maxLength)
    (hmade : (s.host.files.makeDirAll s.host.cwd t.output).1 = .ok ())
    (hdigests : sourceDigests (opened t s.host) t.sources = .ok digests) (ha : ∀ p, a.Settled digests c p)
    (hanswers : ∀ name fp, c.resolved.get? name = some (some fp) →
      Classpath.answer { layout := m.layout } (externalClasspath t.classpath t.output) (opened t s.host) name = some fp) :
    ∃ h : Host, s.host.files.KeptIn h.files ∧ h.read m.store = s.host.read m.store ∧
      ∀ compiler : SourceCompiler σ, (m.compile compiler t).Yields s ⟨[], [], a⟩ { s with host := h } := by
  have hread : s.host.read m.store = .ok (Store.encode ⟨a, m.setup t⟩) :=
    Files.read_eq_ok_iff.2 ⟨loc, false, hplace true⟩
  obtain ⟨log, hbegin⟩ := yields_begin (Store.loaded_of_read hread hsmall) hmade
  have hengine : ∃ log' c', ∀ compiler : SourceCompiler σ,
      (Engine.compile compiler (m.inputs t (some ⟨a, m.setup t⟩))).Yields
        (m.engineState { s with host := { opened t s.host with log } }) ⟨a, m.setup t, [], [], digests, c'⟩
        (m.engineState { s with host := { opened t s.host with log := log' } }) := by
    have hlogged : sourceDigests { opened t s.host with log } t.sources = .ok digests := by
      rw [← hdigests]
      exact Engine.sourceDigests_congr fun _ _ => rfl
    refine Engine.yields_compile_of_settled rfl hlogged ha fun name fp hfp => ?_
    rw [← hanswers name fp hfp, ← externalClasspath_options m t]
    exact Classpath.answer_log _ _ _ log name
  obtain ⟨log', c', hengine⟩ := hengine
  -- the store is written once more, with what is in it
  have hkept : s.host.files.KeptIn (opened t s.host).files := (Files.makeDirAll_addsDirs _ _ _).kept
  obtain ⟨files, hsame, hcommit⟩ := Store.yields_commit_again (h := { opened t s.host with log := log' }) hname
    fun follow => Files.place_of_keptIn hkept (hplace follow)
  refine ⟨_, hkept.trans hsame, ?_, fun compiler => yields_compile.2
    ⟨_, _, _, _, hbegin, hengine compiler, rfl, _, hcommit, rfl⟩⟩
  rw [hread]
  exact Files.read_of_keptIn (hkept.trans hsame) hread

/-- **A successful compile is a fixed point.** Let a compile succeed, and let what it has read be unchanged for the next
one. Then the next one succeeds whatever the compiler is, because it does not ask it; it reports nothing, recompiles
nothing and yields the same analysis, and everything in the tree stays where it is, with the same bytes in the store. This
holds exactly if the output directory is there or can be made again and the path of the store leads to a file. -/
theorem compile_again {s s₁ : Session σ} {outcome : CompileOutcome}
    (first : (m.compile compiler t).Yields s outcome s₁)
    (unchanged : ∀ run ∈ m.engineRun compiler t s, m.Unchanged t run.1 run.2 (opened t s₁.host))
    (small : (Store.encode ⟨outcome.analysis, m.setup t⟩).length < Codec.maxLength) :
    (∃ h : Host, s₁.host.files.KeptIn h.files ∧ h.read m.store = s₁.host.read m.store ∧
      ∀ again : SourceCompiler σ,
        (m.compile again t).Yields s₁ ⟨[], [], outcome.analysis⟩ { s₁ with host := h }) ↔
    (s₁.host.files.makeDirAll s₁.host.cwd t.output).1 = .ok () ∧ s₁.host.isFile m.store = true := by
  obtain ⟨previous, begun, out, state, hbegin, hengine, rfl, h, hcommit, rfl⟩ := yields_compile.1 first
  constructor
  · rintro ⟨h₂, -, -, hagain⟩
    obtain ⟨previous₂, begun₂, out₂, state₂, hbegin₂, -⟩ := yields_compile.1 (hagain compiler)
    -- the store was loaded and the output directory made or found
    obtain ⟨hload, hmade, -⟩ := of_yields_begin hbegin₂
    have hfile : h.isFile m.store = true := Store.isFile_of_commit hcommit hload
    exact ⟨hmade, hfile⟩
  · rintro ⟨hmade, hfile⟩
    have same := unchanged (begun, out) (engineRun_of_yields hbegin hengine)
    obtain ⟨_, due, looked, _, trace, -⟩ := Engine.exists_trace hengine
    have hsetup : out.setup = m.setup t := trace.setup
    -- the commit left the file where its path leads, and the machine answers as it did
    obtain ⟨hname, loc, hplace⟩ := Store.exists_place_of_commit hcommit (show h.isFile m.store = true from hfile)
    rw [hsetup] at hplace
    have hdigests := (Engine.sourceDigests_congr same.sources).trans trace.digests
    refine yields_compile_of_settled hname hplace small hmade hdigests (Engine.settled_of_trace trace)
      fun name fp hfp => ?_
    exact same.classpath name (some fp) hfp

/-! ### Two compiles -/

private def toolchain : Toolchain := ⟨⟨2, 13, 12, none⟩, "lib.jar", "comp.jar", ⟨⟨"2.13.12", []⟩, ∅⟩⟩

/-- A module with one source, which refers to a class in a directory on the classpath. -/
private def dependent : Module := { compilers := ⟨toolchain, "bridge.jar"⟩, store := "analysis/main" }

private def dependentTask : CompileTask := ⟨["lib"], ["A.scala"], "classes", [], []⟩

private def dependentFiles : Files :=
  (((Files.put ∅ ["A.scala"] (.file (Bytes.ofString "class a.A 1\nref x.X\n") false)).put ["lib"] .dir).put
    ["lib", "x"] .dir).put ["lib", "x", "X.class"] (.file (Bytes.ofString "X") false)

private def dependentSession : Session Unit := ⟨{ files := dependentFiles }, ()⟩

/-- The source is compiled, with the fingerprint of the class in its record, and then there is nothing to do. -/
theorem compile_again_with_dependency :
    ∃ outcome s₁, (dependent.compile LineCompiler.compiler dependentTask).Yields dependentSession outcome s₁ ∧
      (∀ run ∈ dependent.engineRun LineCompiler.compiler dependentTask dependentSession,
        dependent.Unchanged dependentTask run.1 run.2 (opened dependentTask s₁.host)) ∧
      (Store.encode ⟨outcome.analysis, dependent.setup dependentTask⟩).length < Codec.maxLength ∧
      (outcome.analysis.source? "A.scala").any (fun info => info.binaryDeps.contains "x.X") = true ∧
      ∃ h : Host, s₁.host.files.KeptIn h.files ∧ h.read dependent.store = s₁.host.read dependent.store ∧
        ∀ again : SourceCompiler Unit,
          (dependent.compile again dependentTask).Yields s₁ ⟨[], [], outcome.analysis⟩ { s₁ with host := h } := by
  obtain ⟨outcome, s₁, first⟩ := Action.exists_yields
    (show ((dependent.compile LineCompiler.compiler dependentTask).run.run dependentSession).run.1.toBool = true by
      decide +kernel)
  have hresult := congrArg Prod.fst first
  have hs₁ := congrArg Prod.snd first
  dsimp only at hresult hs₁
  -- nothing that the compile looked at has changed by the end of it
  have hunchanged : ∀ run ∈ dependent.engineRun LineCompiler.compiler dependentTask dependentSession,
      dependent.Unchanged dependentTask run.1 run.2 (opened dependentTask s₁.host) := by
    rw [← hs₁]
    decide +kernel
  have hanalysis : ∀ result ∈ (((dependent.compile LineCompiler.compiler dependentTask).run.run
      dependentSession).run.1).toOption,
      (Store.encode ⟨result.analysis, dependent.setup dependentTask⟩).length < Codec.maxLength ∧
        (result.analysis.source? "A.scala").any (fun info => info.binaryDeps.contains "x.X") = true := by
    decide +kernel
  obtain ⟨hsmall, hdep⟩ := hanalysis outcome (by rw [hresult]; rfl)
  refine ⟨outcome, s₁, first, hunchanged, hsmall, hdep, (compile_again first hunchanged hsmall).2 ⟨?_, ?_⟩⟩
  · rw [← hs₁]
    decide +kernel
  · rw [← hs₁]
    decide +kernel

/-- A module of which the store is a link that leads nowhere yet, and an output directory behind the link. -/
private def linked : Module := { compilers := ⟨toolchain, "bridge.jar"⟩, store := "l" }

private def linkedTask : CompileTask := ⟨[], ["A.scala"], "d/../l/../out", [], []⟩

private def linkedFiles : Files :=
  (Files.put ∅ ["A.scala"] (.file (Bytes.ofString "class a.A 1\n") false)).put ["l"] (.link "d")

private def linkedSession : Session Unit := ⟨{ files := linkedFiles }, ()⟩

/-- A compiler that does nothing. -/
private def idle : SourceCompiler Unit := fun _ _ => return {}

/-- **A compile after which the next one fails.** Making the output directory makes the directory to which the link
leads, and the store takes the place of the link. After that there is a file on the way to the output directory. The
compiler touches nothing at all, and the source is what it was. -/
theorem compile_fails_behind_replaced_link :
    ∃ (m : Module) (compiler : SourceCompiler Unit) (t : CompileTask) (s s₁ : Session Unit) (outcome : CompileOutcome),
      (∀ compilers request s', ((compiler compilers request).run.run s').run.2 = s') ∧
      (m.compile compiler t).Yields s outcome s₁ ∧
      (∀ run ∈ m.engineRun compiler t s, m.Unchanged t run.1 run.2 (opened t s₁.host)) ∧
      (Store.encode ⟨outcome.analysis, m.setup t⟩).length < Codec.maxLength ∧
      ∀ outcome' s₂, ¬ (m.compile compiler t).Yields s₁ outcome' s₂ := by
  obtain ⟨outcome, s₁, first⟩ := Action.exists_yields
    (show ((linked.compile idle linkedTask).run.run linkedSession).run.1.toBool = true by decide +kernel)
  -- the first run is named once, so that the facts about it are evaluated without the run in their text
  have hresult := congrArg Prod.fst first
  have hs₁ := congrArg Prod.snd first
  dsimp only at hresult hs₁
  refine ⟨linked, idle, linkedTask, linkedSession, s₁, outcome, fun _ _ _ => rfl, first, ?_, ?_, ?_⟩
  · rw [← hs₁]
    decide +kernel
  · have hsmall : ∀ result ∈ (((linked.compile idle linkedTask).run.run linkedSession).run.1).toOption,
        (Store.encode ⟨result.analysis, linked.setup linkedTask⟩).length < Codec.maxLength := by decide +kernel
    exact hsmall outcome (by rw [hresult]; rfl)
  · intro outcome' s₂ again
    have hfails : ((linked.compile idle linkedTask).run.run
        ((linked.compile idle linkedTask).run.run linkedSession).run.2).run.1.toBool = false := by decide +kernel
    rw [hs₁, show ((linked.compile idle linkedTask).run.run s₁).run = _ from again] at hfails
    simp [Except.toBool] at hfails

end Module

end Recompile

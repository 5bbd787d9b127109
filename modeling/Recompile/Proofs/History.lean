import Mathlib.Data.List.Chain
import Recompile.Proofs.Clean
import Recompile.Proofs.Settled

/-!
# Histories of compiles

A module is compiled again and again while its sources change, and each compile is given the analysis of the one before.
A `History` is such a sequence of projects, with the result of the incremental compile and that of a clean compile of the
same project beside it. The main statement, `incremental_eq_clean_iff`, says when the two agree at every step: exactly if
every change in the history is traced (`Translation.Traced`).

They do not always agree. When a class moves to another source of the module and keeps its API, the sources that refer to
it are left alone, and their edges still lead to the source where the class used to be (`incremental_ne_clean`).
-/

namespace Recompile

/-- **A compiler that works by a translation.** Asked for different sources it reports one unit for each. -/
def SourceCompiler.Translates {σ : Type} (compiler : SourceCompiler σ) (T : Translation) (P : Project) : Prop :=
  ∀ compilers request before output after, request.sources.Pairwise (fun p q => (p == q) = false) →
    (compiler compilers request).Yields before output after → T.UnitsOf P request.sources output.units

/-- **A compile of a project.** The sources are those of the project, the compiler works by the translation, and the
classpath gives every class the one fingerprint that it has. -/
structure Compiles (T : Translation) (F : String → Option Digest) (P : Project) (inputs : EngineInputs)
    (out : EngineOutput) : Prop where
  run : ∃ (σ : Type) (compiler : SourceCompiler σ) (s s' : EngineState σ), compiler.Translates T P ∧
    (∀ p ∈ inputs.options.sources, ∃ b, P.get? p = some b ∧ s.session.host.read p = .ok b) ∧
    (Engine.compile compiler inputs).Yields s out s'
  sources : ∀ p b, P.get? p = some b → p.Among inputs.options.sources
  classpath : ∀ name found, out.classpath.resolved.get? name = some found → found = F name

/-! ### One compile -/

namespace Engine

/-- The digests of a compile of a project are those of its contents. -/
theorem get?_sourceDigests {h : Host} {sources : List Path} {P : Project} {digests : SortedMap Path Digest}
    (hread : ∀ p ∈ sources, ∃ b, P.get? p = some b ∧ h.read p = .ok b)
    (hall : ∀ p b, P.get? p = some b → p.Among sources)
    (hdigests : sourceDigests h sources = .ok digests) (p : Path) :
    digests.get? p = (P.get? p).map Digest.ofBytes := by
  obtain ⟨l, hl, rfl⟩ := sourceDigests_eq_ok_iff.1 hdigests
  obtain ⟨hkeys, hdata⟩ := of_digestSources hl
  rw [SortedMap.get?_insertAll, SortedMap.get?_empty, Option.or_none]
  -- every entry has the digest of what the project says of its path
  have hentry : ∀ e ∈ l, compare p e.1 = .eq → ∃ b, P.get? p = some b ∧ e.2 = Digest.ofBytes b := by
    intro e he hcmp
    obtain ⟨b, hb, hdigest⟩ := hdata e he
    obtain ⟨b', hb', hread'⟩ := hread e.1 (hkeys ▸ List.mem_map_of_mem he)
    rw [hb] at hread'
    exact ⟨b, by rw [P.get?_congr hcmp, hb', Except.ok.inj hread'], hdigest⟩
  cases hfind : SortedMap.find? p l.reverse with
  | some d =>
    obtain ⟨e, he, hcmp, rfl⟩ := SortedMap.exists_of_find? hfind
    obtain ⟨b, hb, hdigest⟩ := hentry e (List.mem_reverse.1 he) hcmp
    rw [hb, hdigest]
    rfl
  | none =>
    cases hb : P.get? p with
    | none => rfl
    -- a source of the project is one of those that were read
    | some b =>
      obtain ⟨q, hq, hqp⟩ := hall p b hb
      rw [← hkeys] at hq
      obtain ⟨e, he, rfl⟩ := List.mem_map.1 hq
      exact absurd (Path.compare_eq_iff_beq.2 (BEq.symm hqp))
        (SortedMap.find?_eq_none.1 hfind e (List.mem_reverse.2 he))

end Engine

namespace Translation

open Engine

variable {T : Translation} {F : String → Option Digest} {P : Project} {σ : Type}

theorem UnitsOf.append {l m : List Path} {us vs : List CompiledUnit} (h : T.UnitsOf P l us)
    (h' : T.UnitsOf P m vs) (hapart : ∀ p ∈ l, ∀ q ∈ m, (p == q) = false) :
    T.UnitsOf P (l ++ m) (us ++ vs) := by
  obtain ⟨hdistinct, hevery, honly⟩ := h.oneEach.append h'.oneEach hapart
  refine ⟨hdistinct, hevery, honly, fun u hu => ?_⟩
  rcases List.mem_append.1 hu with hu | hu
  · exact h.content u hu
  · exact h'.content u hu

/-- A compiler that works by a translation translates the batches that it is given. -/
theorem unitsOf_batches {compiler : SourceCompiler σ} (hcompiler : compiler.Translates T P)
    {inputs : EngineInputs} {bs : List (List Path)} (hbs : bs.flatten.Pairwise fun p q => (p == q) = false)
    {units : List CompiledUnit} {s s' : EngineState σ}
    (hrun : (compileBatches compiler inputs bs).Yields s units s') : T.UnitsOf P bs.flatten units := by
  induction bs generalizing units s with
  | nil =>
    obtain ⟨rfl, -⟩ := Action.yields_pure.1 hrun
    exact ⟨.nil, by simp, by simp, by simp⟩
  | cons batch rest ih =>
    rw [List.flatten_cons] at hbs ⊢
    obtain ⟨hbatch, hrest, hapart⟩ := List.pairwise_append.1 hbs
    rcases of_yields_compileBatches_cons hrun with ⟨rfl, hrun⟩ | ⟨first, s₁, others, rfl, hfirst, hothers⟩
    · exact ih hrest hrun
    · obtain ⟨output, session, hanswer, rfl, -⟩ := of_yields_compileBatch hfirst
      exact (hcompiler _ _ _ _ _ hbatch hanswer).append (ih hrest hothers) hapart

theorem unitsOf_round {compiler : SourceCompiler σ} (hcompiler : compiler.Translates T P) {inputs : EngineInputs}
    {s s' : EngineState σ} {out : EngineOutput} (hrun : (compile compiler inputs).Yields s out s') {r : Round}
    (hr : r ∈ out.rounds) : T.UnitsOf P r.sources r.units := by
  obtain ⟨_, _, _, _, trace, -⟩ := exists_trace hrun
  have hdistinct := trace.rounds.distinct (Path.keys_distinct _) r hr
  obtain ⟨_, _, hunits⟩ := exists_batches hrun hr
  have h := unitsOf_batches hcompiler (distinct_flatten_batches hdistinct inputs.options.order) hunits
  obtain ⟨heach, hevery, honly⟩ := h.oneEach.of_batches
  exact ⟨heach, hevery, honly, h.content⟩

end Translation

/-- **One compile of a history.** If it starts from a right analysis of the old project, it ends with a right analysis
exactly if the change is traced. -/
theorem Compiles.describes_iff {T : Translation} {F : String → Option Digest} {P P' : Project}
    {inputs : EngineInputs} {out : EngineOutput} (h : Compiles T F P' inputs out)
    (hT : T.Disjoint P) (hT' : T.Disjoint P') (happart : Translation.ToldApart P P')
    (ha : T.Describes F P inputs.baseline) : T.Describes F P' out.analysis ↔ T.Traced F P P' := by
  obtain ⟨σ, compiler, s, s', hcompiler, hread, hrun⟩ := h.run
  obtain ⟨_, _, _, _, trace, -⟩ := Engine.exists_trace hrun
  exact Translation.describes_iff_traced hT hT' happart trace ha
    (Engine.get?_sourceDigests hread h.sources trace.digests)
    (fun r hr => Translation.unitsOf_round hcompiler hrun hr) h.classpath

/-! ### All compiles -/

/-- **One step of a history:** the sources of the module, and what an incremental and a clean compile of them return. -/
structure Step where
  project : Project
  incremental : EngineOutput
  clean : EngineOutput

/-- **A history of a module.** All compiles have one setup. The incremental compile of each step is given the analysis that
the one of the step before returned, the clean compile is given none, and no class is defined by two sources of a step. -/
inductive History (T : Translation) (F : String → Option Digest) (setup : Setup) :
    (previous : Option Analysis) → List Step → Prop
  /-- The history ends. -/
  | done {previous : Option Analysis} : History T F setup previous []
  /-- A step, and those after it. -/
  | step {previous : Option Analysis} {inputs inputs' : EngineInputs} {st : Step} {rest : List Step}
      (given : inputs.previous = previous.map fun a => ⟨a, setup⟩) (same : inputs.setup = setup)
      (incremental : Compiles T F st.project inputs st.incremental)
      (given' : inputs'.previous = none) (same' : inputs'.setup = setup)
      (clean : Compiles T F st.project inputs' st.clean)
      (disjoint : T.Disjoint st.project)
      (later : History T F setup (some st.incremental.analysis) rest) :
      History T F setup previous (st :: rest)

namespace Translation

variable {T : Translation} {F : String → Option Digest}

theorem not_defines_empty {name : String} {p : Path} {c : CompiledClass} : ¬ T.Defines ∅ name p c := by
  rintro ⟨b, hb, -⟩
  simp at hb

theorem disjoint_empty : T.Disjoint ∅ := fun _ _ _ _ _ h => absurd h not_defines_empty

theorem toldApart_empty (P : Project) : ToldApart ∅ P := fun p b b' h => by simp at h

/-- Nothing is left alone by a compile that starts from nothing. -/
theorem traced_empty (P : Project) : T.Traced F ∅ P := by
  rintro p ⟨⟨b, hb, -⟩, -⟩
  simp at hb

theorem describes_empty : T.Describes F ∅ ∅ where
  listed := Analysis.listed_empty
  classes := ⟨fun name k hk => by simp at hk,
    fun name p c hdef => absurd hdef not_defines_empty⟩
  sources := fun p b hb => by simp at hb
  rest := fun p _ => rfl

end Translation

theorem Compiles.describes_of_clean {T : Translation} {F : String → Option Digest} {P : Project}
    {inputs : EngineInputs} {out : EngineOutput} (h : Compiles T F P inputs out) (hT : T.Disjoint P)
    (hclean : inputs.previous = none) : T.Describes F P out.analysis := by
  refine (h.describes_iff (P := ∅) Translation.disjoint_empty hT (Translation.toldApart_empty P) ?_).2
    (Translation.traced_empty P)
  rw [EngineInputs.baseline_of_none hclean]
  exact Translation.describes_empty

section Histories

variable {T : Translation} {F : String → Option Digest}

/-- **A step of a history that starts from a right analysis.** The incremental compile equals the clean one exactly if the
change is traced. -/
theorem Compiles.beq_clean_iff {P P' : Project} {inputs inputs' : EngineInputs} {out out' : EngineOutput}
    (incremental : Compiles T F P' inputs out) (clean : Compiles T F P' inputs' out') (hnone : inputs'.previous = none)
    (hT : T.Disjoint P) (hT' : T.Disjoint P') (happart : Translation.ToldApart P P')
    (ha : T.Describes F P inputs.baseline) : (out.analysis == out'.analysis) = true ↔ T.Traced F P P' := by
  have hclean := clean.describes_of_clean hT' hnone
  rw [← incremental.describes_iff hT hT' happart ha]
  exact ⟨fun heq => hclean.of_beq heq, fun hdesc => hdesc.beq hT' hclean⟩

/-- **A history that starts from a right analysis** of some project. -/
theorem History.beq_clean_iff {setup : Setup} {previous : Option Analysis} {steps : List Step} {P : Project}
    (h : History T F setup previous steps) (hT : T.Disjoint P) (ha : T.Describes F P (previous.getD ∅))
    (happart : (P :: steps.map Step.project).IsChain Translation.ToldApart) :
    (∀ st ∈ steps, (st.incremental.analysis == st.clean.analysis) = true) ↔
      (P :: steps.map Step.project).IsChain (T.Traced F) := by
  induction h generalizing P with
  | done => simp
  | @step previous inputs inputs' st rest given same incremental given' same' clean disjoint later ih =>
    rw [List.map_cons, List.isChain_cons_cons] at happart ⊢
    have hbase : inputs.baseline = previous.getD ∅ := by
      cases previous with
      | none => exact EngineInputs.baseline_of_none given
      | some a => exact EngineInputs.baseline_of_some (by rw [given, same]; rfl)
    have hstep := incremental.beq_clean_iff clean given' hT disjoint happart.1 (hbase ▸ ha)
    rw [List.forall_mem_cons, hstep]
    -- if the change is traced, the next step starts from a right analysis again
    refine and_congr_right fun htraced => ih disjoint ?_ happart.2
    exact (clean.describes_of_clean disjoint given').of_beq (hstep.2 htraced)

end Histories

/-- The project without a source stands before every history. -/
theorem isChain_empty_cons {R : Project → Project → Prop} (hR : ∀ P, R ∅ P) (Ps : List Project) :
    (∅ :: Ps).IsChain R ↔ Ps.IsChain R := by
  cases Ps with
  | nil => simp
  | cons P Ps => simp [hR]

/-- **The incremental compiles of a history equal the clean ones exactly if every change is traced.** The compiler makes of
a source what its path and its content determine and the fingerprints of the other modules are fixed. `ToldApart` rules
out that two versions of a source have one digest, in which case the engine does not see the change. -/
theorem incremental_eq_clean_iff {T : Translation} {F : String → Option Digest} {setup : Setup} {steps : List Step}
    (h : History T F setup none steps)
    (happart : (steps.map Step.project).IsChain Translation.ToldApart) :
    (∀ st ∈ steps, (st.incremental.analysis == st.clean.analysis) = true) ↔
      (steps.map Step.project).IsChain (T.Traced F) := by
  have hchain : (∅ :: steps.map Step.project).IsChain Translation.ToldApart :=
    (isChain_empty_cons Translation.toldApart_empty _).2 happart
  rw [h.beq_clean_iff Translation.disjoint_empty Translation.describes_empty hchain,
    isChain_empty_cons Translation.traced_empty]

/-! ### Histories of small projects -/

namespace Translation

/-- The compiler that works by a translation of a project. -/
def compiler (T : Translation) (P : Project) : SourceCompiler Unit := fun _ request =>
  return { units := request.sources.map fun p =>
    ⟨p, T.classes p ((P.get? p).getD []), T.references p ((P.get? p).getD [])⟩ }

theorem translates_compiler (T : Translation) (P : Project) : (T.compiler P).Translates T P := by
  intro compilers request before output after hdistinct hrun
  obtain ⟨rfl, -⟩ := Action.yields_pure.1 hrun
  refine ⟨List.pairwise_map.2 hdistinct, fun p hp => ⟨_, List.mem_map_of_mem hp, BEq.rfl⟩, fun u hu => ?_,
    fun u hu b hb => ?_⟩
  · obtain ⟨p, hp, rfl⟩ := List.mem_map.1 hu
    exact Path.among_of_mem hp
  · obtain ⟨p, hp, rfl⟩ := List.mem_map.1 hu
    dsimp only at hb ⊢
    rw [hb]
    exact ⟨rfl, rfl⟩

/-- Two entries that define one class are one source. -/
theorem disjoint_of_entries {T : Translation} {P : Project}
    (h : ∀ e ∈ P.entries, ∀ f ∈ P.entries, ∀ c ∈ T.classes e.1 e.2, ∀ d ∈ T.classes f.1 f.2,
      c.name = d.name → (e.1 == f.1) = true) : T.Disjoint P := by
  have hentry : ∀ {name p c}, T.Defines P name p c →
      ∃ e ∈ P.entries, (p == e.1) = true ∧ ∃ d ∈ T.classes e.1 e.2, d.name = name := by
    rintro name p c ⟨b, hb, hc⟩
    obtain ⟨q, he, hpq⟩ := SortedMap.get?_eq_some_iff.1 hb
    have hpq := Path.compare_eq_iff_beq.1 hpq
    rw [T.classes_congr hpq] at hc
    exact ⟨(q, b), he, hpq, lastNamed_isSome.1 ⟨c, hc⟩⟩
  intro name p c q d hp hq
  obtain ⟨e, he, hpe, c', hc', hname⟩ := hentry hp
  obtain ⟨f, hf, hqf, d', hd', hname'⟩ := hentry hq
  exact BEq.trans hpe (BEq.trans (h e he f hf c' hc' d' hd' (hname.trans hname'.symm)) (BEq.symm hqf))

theorem toldApart_of_entries {P P' : Project}
    (h : ∀ e ∈ P.entries, ∀ f ∈ P'.entries, Digest.ofBytes e.2 = Digest.ofBytes f.2 → e.2 = f.2) :
    ToldApart P P' := by
  intro p b b' hb hb' hsame
  obtain ⟨q, he, -⟩ := SortedMap.get?_eq_some_iff.1 hb
  obtain ⟨q', hf, -⟩ := SortedMap.get?_eq_some_iff.1 hb'
  exact h _ he _ hf hsame

end Translation

private def letter (n : UInt8) : String := String.singleton (Char.ofNat n.toNat)

private def letterClasses (b : Bytes) : List CompiledClass :=
  b.head?.toList.map fun n => ⟨letter n, ⟨letter n ++ ".class"⟩, ⟨1, 1⟩⟩

private def letterReferences (b : Bytes) : SortedSet String := SortedSet.ofList (b.tail.map letter)

/-- The translation by which a source defines the class of its first letter and refers to those of the others. -/
private def letters : Translation where
  classes _ := letterClasses
  references _ := letterReferences
  classes_congr _ _ := rfl
  references_congr _ _ := rfl

private def plainSetup : Setup := ⟨"out", "2.13.12", [], [], .mixed⟩

/-- A compile of a project after one with the given analysis. -/
private def inputsFor (P : Project) (previous : Option Analysis) : EngineInputs where
  compilers := ⟨⟨⟨2, 13, 12, none⟩, "library.jar", "compiler.jar", ⟨⟨"2.13.12", []⟩, ∅⟩⟩, "bridge.jar"⟩
  options := ⟨["out"], P.keys, "out", [], [], .mixed⟩
  setup := plainSetup
  previous := previous.map fun a => ⟨a, plainSetup⟩
  lookup := {}

/-- A machine with the sources of a project. -/
private def machineFor (P : Project) : EngineState Unit :=
  ⟨⟨{ files := P.entries.foldl (fun files e => files.put [e.1.spelling] (.file e.2 false)) ∅ }, ()⟩,
    { maxErrors := 100 }⟩

private def runFor (P : Project) (previous : Option Analysis) : Except EngineError EngineOutput × EngineState Unit :=
  ((Engine.compile (Translation.compiler letters P) (inputsFor P previous)).run.run (machineFor P)).run

/-- What the compile of a project returns. -/
private def outputFor (P : Project) (previous : Option Analysis) : EngineOutput :=
  (runFor P previous).1.toOption.getD ⟨∅, plainSetup, [], [], ∅, ⟨[], ∅⟩⟩

private theorem compilesFor {P : Project} {previous : Option Analysis}
    (hrun : (runFor P previous).1.toBool = true)
    (hread : ∀ e ∈ P.entries, ((machineFor P).session.host.read e.1).toOption = some e.2)
    (hnone : ∀ e ∈ (outputFor P previous).classpath.resolved.entries, e.2 = none) :
    Compiles letters (fun _ => none) P (inputsFor P previous) (outputFor P previous) := by
  refine ⟨⟨Unit, _, machineFor P, (runFor P previous).2, Translation.translates_compiler letters P, fun p hp => ?_, ?_⟩,
    fun p b hb => ?_, fun name found hfound => ?_⟩
  · obtain ⟨e, he, rfl⟩ := List.mem_map.1 hp
    -- the machine has the contents of the project
    refine ⟨e.2, SortedMap.get?_of_mem he, ?_⟩
    exact toOption_eq_some_iff.1 (hread e he)
  · change runFor P previous = (.ok (outputFor P previous), (runFor P previous).2)
    unfold outputFor
    rcases hr : runFor P previous with ⟨r, s⟩
    rw [hr] at hrun
    cases r with
    | error e => simp [Except.toBool] at hrun
    | ok out => rfl
  · obtain ⟨q, he, hpq⟩ := SortedMap.get?_eq_some_iff.1 hb
    exact ⟨q, List.mem_map_of_mem he, BEq.symm (Path.compare_eq_iff_beq.1 hpq)⟩
  · obtain ⟨k, he, -⟩ := SortedMap.get?_eq_some_iff.1 hfound
    exact hnone _ he

/-- The history of two projects. -/
private def historyOf (P P' : Project) : List Step :=
  [⟨P, outputFor P none, outputFor P none⟩,
    ⟨P', outputFor P' (some (outputFor P none).analysis), outputFor P' none⟩]

private theorem history_historyOf {P P' : Project}
    (hclean : Compiles letters (fun _ => none) P (inputsFor P none) (outputFor P none))
    (hincremental : Compiles letters (fun _ => none) P' (inputsFor P' (some (outputFor P none).analysis))
      (outputFor P' (some (outputFor P none).analysis)))
    (hclean' : Compiles letters (fun _ => none) P' (inputsFor P' none) (outputFor P' none))
    (hP : letters.Disjoint P) (hP' : letters.Disjoint P') :
    History letters (fun _ => none) plainSetup none (historyOf P P') :=
  .step rfl rfl hclean rfl rfl hclean hP (.step rfl rfl hincremental rfl rfl hclean' hP' .done)

/-- In the first project `A` defines the class `x` to which `B` refers; in the second one it defines another class. -/
private def before : Project := SortedMap.ofList [("A", [120]), ("B", [98, 120])]

private def after : Project := SortedMap.ofList [("A", [121]), ("B", [98, 120])]

/-- If a class goes, the sources that referred to it are compiled again, and the change is traced. -/
theorem traced_of_removed_class :
    History letters (fun _ => none) plainSetup none (historyOf before after) ∧
      ((historyOf before after).map Step.project).IsChain (letters.Traced fun _ => none) := by
  have h : History letters (fun _ => none) plainSetup none (historyOf before after) :=
    history_historyOf (compilesFor (by decide +kernel) (by decide +kernel) (by decide +kernel))
      (compilesFor (by decide +kernel) (by decide +kernel) (by decide +kernel))
      (compilesFor (by decide +kernel) (by decide +kernel) (by decide +kernel))
      (Translation.disjoint_of_entries (by decide +kernel)) (Translation.disjoint_of_entries (by decide +kernel))
  have happart : ((historyOf before after).map Step.project).IsChain Translation.ToldApart :=
    .cons_cons (Translation.toldApart_of_entries (by decide +kernel)) (.singleton _)
  exact ⟨h, (incremental_eq_clean_iff h happart).1 (by decide +kernel)⟩

/-- The class `x`, to which `S` refers, is defined by `A` in the first project and by `B` in the second one. -/
private def here : Project := SortedMap.ofList [("A", [120]), ("B", [98]), ("S", [115, 120])]

private def there : Project := SortedMap.ofList [("A", [97]), ("B", [120]), ("S", [115, 120])]

/-- **An incremental compile may differ from a clean one.** If a class moves to another source, the sources that refer to it
are left alone. -/
theorem incremental_ne_clean :
    History letters (fun _ => none) plainSetup none (historyOf here there) ∧
      ((historyOf here there).map Step.project).IsChain Translation.ToldApart ∧
      ¬ ∀ st ∈ historyOf here there, (st.incremental.analysis == st.clean.analysis) = true := by
  refine ⟨?_, ?_, by decide +kernel⟩
  · exact history_historyOf (compilesFor (by decide +kernel) (by decide +kernel) (by decide +kernel))
      (compilesFor (by decide +kernel) (by decide +kernel) (by decide +kernel))
      (compilesFor (by decide +kernel) (by decide +kernel) (by decide +kernel))
      (Translation.disjoint_of_entries (by decide +kernel)) (Translation.disjoint_of_entries (by decide +kernel))
  · exact .cons_cons (Translation.toldApart_of_entries (by decide +kernel)) (.singleton _)

end Recompile

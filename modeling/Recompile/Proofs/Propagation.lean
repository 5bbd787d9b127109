import Recompile.Proofs.Trace

/-!
# API changes reach every dependent

The engine compiles in rounds, and what a round changes decides who is compiled next. The edges it follows are those of
the analysis after the round, which earlier rounds may have rewritten. `Engine.compile_reaches_dependents` says that this
is enough: whenever a class of a source changes in a round, every source that depends on it in the end was compiled later,
or together with it in the round that is the last resort.

The argument looks at the last round that compiled the dependent. From then on its record does not change
(`Rounds.source?_of_not_compiled`), so the edge is there when the change is noticed, and the next round takes it up
(`Round.among_next`). Behind the last resort there is no next round; that one compiles a set of sources that is closed
under depending on one of them (`Round.among_next_one`).
-/

namespace Recompile

/-- **Whether a compiler only reports on sources that it was asked to compile.** Its answers may otherwise depend on
anything. -/
def SourceCompiler.AnswersRequests {σ : Type} (compiler : SourceCompiler σ) : Prop :=
  ∀ compilers request before output after, (compiler compilers request).Yields before output after →
    ∀ u ∈ output.units, u.source.Among request.sources

namespace Round

variable {r : Round} {p t : Path} {info : SourceInfo}

/-- As long as a round is left, it takes up every source that refers to a changed one. -/
theorem among_next {left : Nat} (hinfo : r.after.source? p = some info)
    (hedge : info.sourceDeps.contains t = true) (ht : t.Among r.changed) : p.Among (r.next (left + 1)) := by
  have hsome : ¬ r.changed.isEmpty = true := by
    obtain ⟨q, hq, -⟩ := ht
    simpa using List.ne_nil_of_mem hq
  simp only [next]
  rw [if_neg hsome]
  split
  · exact Analysis.transitiveDependents_closed hinfo hedge (Or.inl ht)
  · exact Analysis.among_dependentsOfAny.2 ⟨info, hinfo, SourceInfo.refersTo_of_among ht hedge⟩

/-- The last resort takes up every source that refers to one that it takes up. -/
theorem among_next_one (hinfo : r.after.source? p = some info)
    (hedge : info.sourceDeps.contains t = true) (ht : t.Among (r.next 1)) : p.Among (r.next 1) := by
  simp only [next] at ht ⊢
  split at ht
  · exact absurd ht (Path.not_among_nil t)
  next hsome =>
    rw [if_neg hsome]
    exact Analysis.transitiveDependents_closed hinfo hedge (Or.inr ht)

end Round

/-- What is due is compiled in the first of the rounds that are left. -/
theorem Rounds.exists_compiles {digests : SortedMap Path Digest} {left : Nat} {due : List Path}
    {a a' : Analysis} {c c' : Classpath} {rs : List Round}
    (h : Rounds digests (left + 1) due a c rs a' c') {p : Path} (hp : p.Among due) :
    ∃ r ∈ rs, r.Compiles p := by
  cases h with
  | done h =>
    rcases h with h | rfl
    · exact absurd h (Nat.succ_ne_zero left)
    · exact absurd hp (Path.not_among_nil p)
  | round _ first _ => exact ⟨_, List.mem_cons_self, by rwa [Round.Compiles, first.sources]⟩

/-- **The last resort.** The last round that there may be, unless it is the first one, compiles the dependents of what it
compiles: it was given all transitive dependents. -/
theorem Rounds.compiles_of_last {digests : SortedMap Path Digest} {limit : Nat} {due : List Path} {a a' : Analysis}
    {c c' : Classpath} {pre post : List Round} {r : Round}
    (hrounds : Rounds digests (limit + 1) due a c (pre ++ r :: post) a' c')
    (haccounted : ∀ q ∈ pre ++ r :: post, q.Accounted) (hlength : pre.length = limit) (hlimit : limit ≠ 0)
    {source dep : Path} {info : SourceInfo} (hrecord : r.after.source? source = some info)
    (hedge : info.sourceDeps.contains dep = true) (hdep : r.Compiles dep) : r.Compiles source := by
  by_contra hsource
  -- the round before set the sources
  obtain ⟨pre', r₀, rfl⟩ : ∃ pre' r₀, pre = pre' ++ [r₀] := by
    rcases List.eq_nil_or_concat pre with rfl | ⟨pre', r₀, rfl⟩
    · exact absurd hlength.symm hlimit
    · exact ⟨pre', r₀, List.concat_eq_append⟩
  rw [List.append_assoc, List.singleton_append] at hrounds
  obtain ⟨left, a₀, d₁, d₂, hleft, -, -, hrest⟩ := hrounds.split
  obtain rfl : left = 1 := by
    rw [List.length_append, List.length_singleton] at hlength
    omega
  cases hrest with
  | round _ follows _ =>
    have hold : r₀.after.source? source = some info := by
      rw [← hrecord]
      refine (follows.source?_of_not_compiled (haccounted r ?_) hsource).symm
      exact List.mem_append_right _ List.mem_cons_self
    rw [Round.Compiles, follows.sources] at hdep hsource
    exact hsource (Round.among_next_one hold hedge hdep)

namespace Engine

variable {σ : Type}

/-- If the compiler only reports on what it was asked for, the units of a round are for its sources. -/
theorem accounted_of_mem_rounds {compiler : SourceCompiler σ} (hcompiler : compiler.AnswersRequests)
    {inputs : EngineInputs} {s s' : EngineState σ} {out : EngineOutput}
    (hrun : (compile compiler inputs).Yields s out s') {r : Round} (hr : r ∈ out.rounds) : r.Accounted := by
  intro u hu
  obtain ⟨_, _, hunits⟩ := exists_batches hrun hr
  obtain ⟨batch, hbatch, _, _, _, hanswer, hmem⟩ := exists_batch_of_mem hunits hu
  obtain ⟨q, hq, hqu⟩ := hcompiler _ _ _ _ _ hanswer u hmem
  exact ⟨q, mem_of_mem_batches hbatch hq, hqu⟩

/-- The analysis that a compile starts its rounds from has every class listed if the previous one has. -/
theorem listed_baseline {inputs : EngineInputs}
    (hprevious : ∀ previous, inputs.previous = some previous → previous.analysis.Listed) :
    inputs.baseline.Listed := by
  unfold EngineInputs.baseline
  split
  · exact Analysis.listed_empty
  next previous h =>
    split
    · exact hprevious previous h
    · exact Analysis.listed_empty

/-- **API changes reach every dependent.** A successful compile takes at most one round more than the limit. Let
`source` depend on `dep` in the returned analysis, and let some round compile `dep` and leave a class that `dep` owned
before with another API, or without any. Then a later round compiles `source`, or that round is the one after the limit
and compiles `source` as well. -/
theorem compile_reaches_dependents {compiler : SourceCompiler σ} (hcompiler : compiler.AnswersRequests)
    {inputs : EngineInputs}
    (hprevious : ∀ previous, inputs.previous = some previous → previous.analysis.Listed)
    {s s' : EngineState σ} {out : EngineOutput} (hrun : (compile compiler inputs).Yields s out s') :
    out.rounds.length ≤ roundLimit + 1 ∧
      ∀ pre r post, out.rounds = pre ++ r :: post →
        ∀ source dep info, out.analysis.source? source = some info → info.sourceDeps.contains dep = true →
          r.Compiles dep →
          ∀ name k, r.before.class? name = some k → (k.source == dep) = true → r.after.api? name ≠ some k.api →
            (∃ r' ∈ post, r'.Compiles source) ∨ (pre.length = roundLimit ∧ r.Compiles source) := by
  obtain ⟨opened, due, looked, _, trace, -⟩ := exists_trace hrun
  refine ⟨trace.rounds.length_le, fun pre r post hsplit source dep info hinfo hedge hdep name k hk howner hapi => ?_⟩
  by_contra hnot
  obtain ⟨hlater, hlast⟩ := not_or.1 hnot
  have hstart := without_listed (listed_baseline hprevious) (inputs.changes out.digests).deleted
  have hrounds := trace.rounds
  rw [hsplit] at hrounds
  have haccounted : ∀ q ∈ pre ++ r :: post, q.Accounted := by
    intro q hq
    exact accounted_of_mem_rounds hcompiler hrun (hsplit ▸ hq)
  obtain ⟨left, a, c₁, c₂, hleft, hlisted, follows, hpost⟩ := hrounds.split
  have ha := hlisted hstart
  have hbefore : r.before = a := follows.before
  -- the record of the dependent is the final one since before the change
  have hrecord : r.after.source? source = some info := by
    rw [← hinfo]
    refine (hpost.source?_of_not_compiled (fun q hq => ?_) fun q hq hcompiles => hlater ⟨q, hq, hcompiles⟩).symm
    exact haccounted q (List.mem_append_right _ (List.mem_cons_of_mem _ hq))
  have hchanged : dep.Among r.changed := by
    rw [hbefore] at hk
    exact (follows.changed_of_api_ne ha hk (hdep.congr (BEq.symm howner)) hapi).congr howner
  cases left with
  | succ left =>
    -- another round follows and takes up the dependent
    exact hlater (hpost.exists_compiles (Round.among_next hrecord hedge hchanged))
  | zero =>
    have hlength : pre.length = roundLimit := by omega
    refine hlast ⟨hlength, ?_⟩
    exact hrounds.compiles_of_last haccounted hlength (by decide) hrecord hedge hdep

/-! ### A change that reaches a dependent -/

/-- A compiler that finds a class of its own name in every source, with a reference to the class of `A`. -/
private def pointing : SourceCompiler Unit := fun _ request =>
  return { units := request.sources.map fun p => ⟨p, [⟨p.spelling, ⟨p.spelling ++ ".class"⟩, ⟨1, 1⟩⟩],
    SortedSet.ofList ["A"]⟩ }

/-- Two sources, of which `B` depends on `A`, and `A` was edited after the last compile. -/
private def edited : EngineInputs where
  compilers := ⟨⟨⟨2, 13, 12, none⟩, "library.jar", "compiler.jar", ⟨⟨"2.13.12", []⟩, ∅⟩⟩, "bridge.jar"⟩
  options := ⟨["out"], ["A", "B"], "out", [], [], .mixed⟩
  setup := ⟨"out", "2.13.12", [], [], .mixed⟩
  previous := some
    { analysis := ((∅ : Analysis).record "A" { digest := ⟨0, 0⟩ } [("A", ⟨"A", "A.class", ⟨0, 0⟩⟩)]).record "B"
        { digest := Digest.ofBytes [2], sourceDeps := SortedSet.ofList ["A"] } [("B", ⟨"B", "B.class", ⟨1, 1⟩⟩)]
      setup := ⟨"out", "2.13.12", [], [], .mixed⟩ }
  lookup := {}

/-- The machine with the two sources. -/
private def machineOfTwo : EngineState Unit :=
  ⟨⟨{ files := ((∅ : Files).put ["A"] (.file [1] false)).put ["B"] (.file [2] false) }, ()⟩, { maxErrors := 100 }⟩

/-- An edit of `A` gives its class another API, and `B` is compiled in a round of its own. -/
theorem compile_reaches_dependents_two :
    ∃ out s', (compile pointing edited).Yields machineOfTwo out s' ∧
      out.rounds.map (fun r => r.sources.map Path.spelling) = [["A"], ["B"]] ∧
      ∀ pre r post, out.rounds = pre ++ r :: post →
        ∀ source dep info, out.analysis.source? source = some info → info.sourceDeps.contains dep = true →
          r.Compiles dep →
          ∀ name k, r.before.class? name = some k → (k.source == dep) = true → r.after.api? name ≠ some k.api →
            (∃ r' ∈ post, r'.Compiles source) ∨ (pre.length = roundLimit ∧ r.Compiles source) := by
  have hlisted : ∀ previous, edited.previous = some previous → previous.analysis.Listed := by
    intro previous h
    rw [← Option.some.inj h]
    exact (Analysis.listed_empty.record _ (by decide)).record _ (by decide)
  have hanswers : pointing.AnswersRequests := by
    intro compilers request before output after hrun u hu
    rw [(Action.yields_pure.1 hrun).1] at hu
    obtain ⟨p, hp, rfl⟩ := List.mem_map.1 hu
    exact Path.among_of_mem hp
  -- the second source is not changed, it is compiled for what it refers to
  have hrounds : ((compile pointing edited).run.run machineOfTwo).run.1.toOption.map
      (fun out => out.rounds.map fun r => r.sources.map Path.spelling) = some [["A"], ["B"]] := by
    decide +kernel
  obtain ⟨out, s', hrun⟩ := Action.exists_yields (x := compile pointing edited) (s := machineOfTwo) (by decide +kernel)
  refine ⟨out, s', hrun, ?_, (compile_reaches_dependents hanswers hlisted hrun).2⟩
  rw [hrun] at hrounds
  exact Option.some.inj hrounds

end Engine

end Recompile

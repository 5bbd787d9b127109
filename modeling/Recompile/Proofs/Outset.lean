import Recompile.Proofs.Rounds

/-!
# Before the first round

A compile finds out what it has to do before its first round: it digests the sources, opens the classpath, looks for stale
sources and drops those that are gone. `Engine.outset` is that part of the compile, and `Engine.afterwards` is the rest.
What the part does, step by step, is said by `Engine.of_yields_outset`, and `Engine.of_yields_compile` leads to it from a
successful compile.
-/

namespace Recompile

open Recompile.Action

/-! ### What a compile starts from -/

theorem Setup.isCompatible_self (s : Setup) : s.isCompatible s = true := by
  cases s with
  | mk output compiler scalacOptions javacOptions order =>
    change (output == output && (compiler == compiler && (scalacOptions == scalacOptions &&
      (javacOptions == javacOptions && order == order)))) = true
    simp

namespace EngineInputs

/-- The analysis that a compile starts from: the previous one if it was made under the same setup. -/
def baseline (inputs : EngineInputs) : Analysis :=
  match inputs.previous with
  | none => ∅
  | some previous => if previous.setup.isCompatible inputs.setup then previous.analysis else ∅

/-- A compile that is given nothing starts from nothing. -/
theorem baseline_of_none {inputs : EngineInputs} (h : inputs.previous = none) : inputs.baseline = ∅ := by
  simp [baseline, h]

/-- A compile under the setup of the previous one starts from its analysis. -/
theorem baseline_of_some {inputs : EngineInputs} {a : Analysis} (h : inputs.previous = some ⟨a, inputs.setup⟩) :
    inputs.baseline = a := by
  simp [baseline, h, Setup.isCompatible_self]

theorem baseline_of_isCompatible {inputs : EngineInputs} {previous : Contents}
    (hprevious : inputs.previous = some previous) (hsetup : previous.setup.isCompatible inputs.setup = true) :
    inputs.baseline = previous.analysis := by
  simp [baseline, hprevious, hsetup]

/-- How sources with the given digests differ from those that the compile starts from. -/
def changes (inputs : EngineInputs) (digests : SortedMap Path Digest) : Changes :=
  Changes.detect digests inputs.baseline

end EngineInputs

/-! ### What it finds out -/

namespace Engine

variable {σ : Type}

/-- **What a compile has found out** before its first round. -/
structure Outset where
  digests : SortedMap Path Digest
  due : List Path
  analysis : Analysis
  classpath : Classpath

/-- The part of a compile before its first round. -/
def outset (inputs : EngineInputs) : Action (EngineState σ) EngineError Outset := do
  let digests ← match sourceDigests (← machine) inputs.options.sources with
    | .ok digests => pure digests
    | .error e => throw e
  let a ← onHost (startingAnalysis inputs)
  let changes := Changes.detect digests a
  let (c, _) ← onHost (Classpath.ofPaths inputs.lookup (externalClasspath inputs.options.classpath inputs.options.output))
  let (sources, c) ← onHost (firstSources changes digests a c)
  let a ← onHost (removeSources inputs.options.output changes.deleted a)
  return ⟨digests, sources, a, c⟩

/-- The rounds of a compile and its result. -/
def afterwards (compiler : SourceCompiler σ) (inputs : EngineInputs) (o : Outset) :
    Action (EngineState σ) EngineError EngineOutput := do
  let (a, rounds, c) ← compileRounds compiler inputs o.digests (roundLimit + 1) 1 o.due o.analysis o.classpath
  return {
    analysis := a
    setup := inputs.setup
    recompiled := recompiled rounds
    rounds
    digests := o.digests
    classpath := c }

theorem compile_eq (compiler : SourceCompiler σ) (inputs : EngineInputs) :
    compile compiler inputs = outset inputs >>= afterwards compiler inputs := by
  unfold compile outset afterwards
  simp only [bind_assoc, pure_bind]
  refine bind_congr fun m => ?_
  cases sourceDigests m inputs.options.sources with
  | ok digests => simp only [bind_assoc, pure_bind]
  | error e => rfl

variable {inputs : EngineInputs}

theorem yields_startingAnalysis {inputs : EngineInputs} {h h' : Host} {a : Analysis}
    (hrun : (startingAnalysis inputs).Yields h a h') : a = inputs.baseline := by
  unfold startingAnalysis at hrun
  unfold EngineInputs.baseline
  cases hprevious : inputs.previous with
  | none =>
    rw [hprevious] at hrun
    exact (Action.yields_pure.1 hrun).1
  | some previous =>
    simp only [hprevious] at hrun ⊢
    by_cases hsetup : previous.setup.isCompatible inputs.setup = true
    · rw [if_pos hsetup] at hrun ⊢
      exact (Action.yields_pure.1 hrun).1
    · rw [if_neg hsetup] at hrun ⊢
      -- under another setup the compile starts from nothing, whether or not class files are deleted
      obtain ⟨-, _, -, hrun⟩ := Action.yields_bind.1 hrun
      split at hrun
      · obtain ⟨-, _, -, hrun⟩ := Action.yields_bind.1 hrun
        exact (Action.yields_pure.1 hrun).1
      · exact (Action.yields_pure.1 hrun).1

/-- The steps before the first round, one after the other. -/
theorem of_yields_outset {o : Outset} {s s' : EngineState σ}
    (hrun : (outset inputs : Action (EngineState σ) EngineError Outset).Yields s o s') :
    ∃ opened l h₁ h₂ h₃ h₄, sourceDigests s.session.host inputs.options.sources = .ok o.digests ∧
      (startingAnalysis inputs).Yields s.session.host inputs.baseline h₁ ∧
      (Classpath.ofPaths inputs.lookup (externalClasspath inputs.options.classpath inputs.options.output) :
        Action Host EngineError _).Yields h₁ (opened, l) h₂ ∧
      (firstSources (inputs.changes o.digests) o.digests inputs.baseline opened).Yields h₂ (o.due, o.classpath) h₃ ∧
      (removeSources inputs.options.output (inputs.changes o.digests).deleted inputs.baseline).Yields h₃ o.analysis h₄ ∧
      s' = { s with session := { s.session with host := h₄ } } := by
  unfold outset at hrun
  obtain ⟨m, s₀, hmachine, hrun⟩ := yields_bind.1 hrun
  obtain ⟨rfl, rfl⟩ := yields_machine.1 hmachine
  -- only the digests can fail before anything is changed
  cases hdigests : sourceDigests s₀.session.host inputs.options.sources with
  | error e =>
    rw [hdigests] at hrun
    simp at hrun
  | ok digests =>
    rw [hdigests] at hrun
    simp only [pure_bind, yields_bind, yields_onHost, yields_pure] at hrun
    obtain ⟨a, _, ⟨h₁, hstart, rfl⟩, ⟨opened, l⟩, _, ⟨h₂, hopen, rfl⟩, ⟨due, looked⟩, _, ⟨h₃, hfirst, rfl⟩,
      a₁, _, ⟨h₄, hremove, rfl⟩, rfl, rfl⟩ := hrun
    obtain rfl := yields_startingAnalysis hstart
    exact ⟨opened, l, h₁, h₂, h₃, h₄, rfl, hstart, hopen, hfirst, hremove, rfl⟩

/-- A compile that succeeds goes from what it has found out through the rounds. -/
theorem of_yields_compile {compiler : SourceCompiler σ} {out : EngineOutput} {s s' : EngineState σ}
    (hrun : (compile compiler inputs).Yields s out s') :
    ∃ o s₁, (outset inputs).Yields s o s₁ ∧
      (compileRounds compiler inputs o.digests (roundLimit + 1) 1 o.due o.analysis o.classpath).Yields s₁
        (out.analysis, out.rounds, out.classpath) s' ∧
      out.digests = o.digests ∧ out.setup = inputs.setup ∧ out.recompiled = recompiled out.rounds := by
  rw [compile_eq] at hrun
  obtain ⟨o, s₁, houtset, hafter⟩ := yields_bind.1 hrun
  unfold afterwards at hafter
  simp only [yields_bind, yields_pure] at hafter
  obtain ⟨⟨a, rounds, c⟩, _, hrounds, rfl, rfl⟩ := hafter
  exact ⟨o, s₁, houtset, hrounds, rfl, rfl, rfl⟩

end Engine

end Recompile

import Recompile.Compile.Module
import Recompile.Proofs.Outset
import Recompile.Proofs.Propagation

/-!
# The calls of the compiler

What a compile asks the compiler and what the compiler answers is not part of its result. It is found out by running the
compile with a compiler that notes its calls (`SourceCompiler.noting`). Noting changes nothing but the notes: a step that
carries more state and does otherwise what another step does is said to show it (`Action.Shows`), and every step of a
compile with the noting compiler shows the same step with the compiler itself, up to `Engine.shows_compile` and
`Module.shows_compile`. So `Engine.calls` and `Module.calls` are the calls of the compile itself.

A compile that succeeds calls the compiler for the batches of its rounds, one after another, and its rounds have the units
that were answered (`Engine.Answered`, `Engine.answered_of_yields`).
-/

namespace Recompile

/-! ### Steps with more state -/

namespace Action

variable {σ τ ε α β : Type} {π : τ → σ} {x : Action σ ε α} {y : Action τ ε α} {s : σ} {t t' : τ}

/-- **A step with more state shows another step** if it has the same outcome and leaves the same state, as far as a view
of its state goes. -/
def Shows (π : τ → σ) (y : Action τ ε α) (x : Action σ ε α) : Prop :=
  ∀ t, (x.run.run (π t)).run = ((y.run.run t).run.1, π (y.run.run t).run.2)

theorem Shows.run_eq (h : Shows π y x) {r : Except ε α} (hrun : (y.run.run t).run = (r, t')) :
    (x.run.run (π t)).run = (r, π t') := by rw [h t, hrun]

theorem Shows.exists_run (h : Shows π y x) {r : Except ε α} (hrun : (x.run.run (π t)).run = (r, s)) :
    ∃ t', (y.run.run t).run = (r, t') ∧ π t' = s := by
  obtain ⟨hr, hs⟩ := Prod.mk.inj ((h t).symm.trans hrun)
  exact ⟨_, Prod.ext hr rfl, hs⟩

theorem shows_pure (a : α) : Shows π (pure a : Action τ ε α) (pure a) := fun _ => rfl

theorem shows_throw (e : ε) : Shows π (throw e : Action τ ε α) (throw e) := fun _ => rfl

theorem shows_set : Shows π (set t : Action τ ε PUnit) (set (π t)) := fun _ => rfl

theorem Shows.get_bind {f : τ → Action τ ε β} {g : σ → Action σ ε β} (h : ∀ t, Shows π (f t) (g (π t))) :
    Shows π (get >>= f) (get >>= g) := fun t => h t t

theorem Shows.bind (h : Shows π y x) {f : α → Action τ ε β} {g : α → Action σ ε β} (hfg : ∀ a, Shows π (f a) (g a)) :
    Shows π (y >>= f) (x >>= g) := by
  intro t
  rcases hrun : (y.run.run t).run with ⟨r, t₁⟩
  have hrun' := h.run_eq hrun
  rw [ExceptT.run_bind, ExceptT.run_bind, StateT.run_bind, StateT.run_bind]
  cases r with
  | error e => simp [hrun, hrun']
  | ok a => simpa [hrun, hrun'] using hfg a t₁

theorem run_onPart {ρ : Type} (get : τ → ρ) (set : ρ → τ → τ) (x : Action ρ ε α) (t : τ) :
    ((onPart get set x).run.run t).run = ((x.run.run (get t)).run.1, set (x.run.run (get t)).run.2 t) := rfl

end Action

open Recompile.Action

/-! ### Noting calls -/

/-- **A call of the compiler:** what it was asked for, and what it answered, be it that it could not be run. -/
structure CompilerCall where
  request : CompileRequest
  answer : Except EngineError CompilerOutput

/-- The output of a call that was answered with one. -/
def CompilerCall.output (call : CompilerCall) : CompilerOutput :=
  match call.answer with
  | .ok output => output
  | .error _ => {}

variable {σ ε α : Type} {compiler : SourceCompiler σ}

/-- A compiler that also notes its calls with their answers. -/
def SourceCompiler.noting (c : SourceCompiler σ) : SourceCompiler (σ × List CompilerCall) := fun compilers request => do
  let answer ← (Action.onPart (fun s => ⟨s.host, s.tool.1⟩) (fun t s => ⟨t.host, (t.tool, s.tool.2)⟩)
    (c compilers request)).outcome
  modify fun s => { s with tool := (s.tool.1, s.tool.2 ++ [⟨request, answer⟩]) }
  liftM answer

/-- The state without the notes. -/
def Session.withoutNotes (s : Session (σ × List CompilerCall)) : Session σ := ⟨s.host, s.tool.1⟩

/-- The state with no notes yet. -/
def Session.unnoted (s : Session σ) : Session (σ × List CompilerCall) := ⟨s.host, (s.tool, [])⟩

namespace SourceCompiler

variable {compilers : Compilers} {request : CompileRequest} {s s' : Session (σ × List CompilerCall)}

/-- The run of a noting compiler is that of the compiler, with a note at the end. -/
theorem run_noting (compiler : SourceCompiler σ) (compilers : Compilers) (request : CompileRequest)
    (s : Session (σ × List CompilerCall)) {answer : Except EngineError CompilerOutput} {t : Session σ}
    (hrun : ((compiler compilers request).run.run s.withoutNotes).run = (answer, t)) :
    ((compiler.noting compilers request).run.run s).run =
      (answer, ⟨t.host, (t.tool, s.tool.2 ++ [⟨request, answer⟩])⟩) := by
  -- on its own part of the session the compiler runs as it does without notes
  have hpart : (Action.onPart (fun s => ⟨s.host, s.tool.1⟩) (fun t s => ⟨t.host, (t.tool, s.tool.2)⟩)
      (compiler compilers request)).outcome.Yields s answer ⟨t.host, (t.tool, s.tool.2)⟩ (ε := EngineError) := by
    refine yields_outcome.2 ?_
    rw [run_onPart, show ((compiler compilers request).run.run ⟨s.host, s.tool.1⟩).run = _ from hrun]
  cases answer with
  | ok output =>
    refine yields_bind.2 ⟨_, _, hpart, yields_bind.2 ⟨(), _, yields_modify.2 rfl, yields_liftM.2 ⟨rfl, rfl⟩⟩⟩
  | error e =>
    refine fails_bind.2 (Or.inr ⟨_, _, hpart, fails_bind.2 (Or.inr ⟨(), _, yields_modify.2 rfl, ?_⟩)⟩)
    exact fails_liftM.2 ⟨rfl, rfl⟩

theorem shows_noting (compiler : SourceCompiler σ) (compilers : Compilers) (request : CompileRequest) :
    Shows Session.withoutNotes (compiler.noting compilers request) (compiler compilers request) := by
  intro s
  rcases hrun : ((compiler compilers request).run.run s.withoutNotes).run with ⟨answer, t⟩
  rw [compiler.run_noting compilers request s hrun]
  rfl

end SourceCompiler

/-! ### The compile behind the notes -/

/-- The state without the notes. -/
def EngineState.withoutNotes (s : EngineState (σ × List CompilerCall)) : EngineState σ :=
  ⟨s.session.withoutNotes, s.sink⟩

/-- The state with no notes yet. -/
def EngineState.unnoted (s : EngineState σ) : EngineState (σ × List CompilerCall) := ⟨s.session.unnoted, s.sink⟩

namespace Engine

variable {inputs : EngineInputs}

/-- Steps on the machine know nothing of notes. -/
theorem shows_onHost (x : Action Host ε α) :
    Shows EngineState.withoutNotes (onHost x : Action (EngineState (σ × List CompilerCall)) ε α) (onHost x) := fun _ => rfl

theorem shows_machine :
    Shows EngineState.withoutNotes (machine : Action (EngineState (σ × List CompilerCall)) ε Host) machine := fun _ => rfl

theorem shows_emit (ds : List Diagnostic) :
    Shows EngineState.withoutNotes (emit ds : Action (EngineState (σ × List CompilerCall)) ε Unit) (emit ds) :=
  Shows.get_bind fun _ => shows_set.bind fun _ => shows_onHost _

theorem shows_compileBatch (compiler : SourceCompiler σ) (inputs : EngineInputs) (batch : List Path) :
    Shows EngineState.withoutNotes (compileBatch compiler.noting inputs batch) (compileBatch compiler inputs batch) := by
  -- the compiler is the only part that takes notes, the rest is the same on both sides
  have hcompiler : Shows EngineState.withoutNotes
      (onPart EngineState.session (fun session s => { s with session })
        (compiler.noting inputs.compilers (inputs.options.request batch)) :
        Action (EngineState (σ × List CompilerCall)) EngineError _)
      (onPart EngineState.session (fun session s => { s with session })
        (compiler inputs.compilers (inputs.options.request batch))) := by
    intro s
    have hshows := compiler.shows_noting inputs.compilers (inputs.options.request batch) s.session
    rw [run_onPart, run_onPart]
    dsimp only
    rw [show ((compiler inputs.compilers (inputs.options.request batch)).run.run s.withoutNotes.session).run = _ from hshows]
    rfl
  refine hcompiler.bind fun output => (shows_emit output.diagnostics).bind fun _ => Shows.get_bind fun s => ?_
  change Shows _ (if s.sink.hasErrors then _ else _) (if s.sink.hasErrors then _ else _)
  split
  · exact shows_throw _
  · exact shows_pure _

theorem shows_compileBatches (compiler : SourceCompiler σ) (inputs : EngineInputs) (bs : List (List Path)) :
    Shows EngineState.withoutNotes (compileBatches compiler.noting inputs bs) (compileBatches compiler inputs bs) := by
  induction bs with
  | nil => exact shows_pure _
  | cons batch rest ih =>
    unfold compileBatches
    split
    · exact ih
    · exact (shows_compileBatch compiler inputs batch).bind fun _ => ih.bind fun _ => shows_pure _

theorem shows_compileRound (compiler : SourceCompiler σ) (inputs : EngineInputs) (digests : SortedMap Path Digest)
    (number : Nat) (sources : List Path) (a : Analysis) (c : Classpath) :
    Shows EngineState.withoutNotes (compileRound compiler.noting inputs digests number sources a c)
      (compileRound compiler inputs digests number sources a c) := by
  refine (shows_onHost _).bind fun _ => (shows_onHost _).bind fun retired => ?_
  exact (shows_compileBatches compiler inputs _).bind fun units => shows_machine.bind fun h => shows_pure _

theorem shows_nextSources (r : Round) (left : Nat) :
    Shows EngineState.withoutNotes (nextSources r left : Action (EngineState (σ × List CompilerCall)) ε _)
      (nextSources r left) := by
  cases left with
  | zero => exact shows_pure _
  | succ left =>
    unfold nextSources
    dsimp only
    split
    · exact shows_pure _
    · refine (shows_onHost _).bind fun _ => ?_
      split
      · exact (shows_onHost _).bind fun _ => shows_pure _
      · exact shows_pure _

theorem shows_compileRounds (compiler : SourceCompiler σ) (inputs : EngineInputs) (digests : SortedMap Path Digest)
    (left number : Nat) (due : List Path) (a : Analysis) (c : Classpath) :
    Shows EngineState.withoutNotes (compileRounds compiler.noting inputs digests left number due a c)
      (compileRounds compiler inputs digests left number due a c) := by
  induction left generalizing number due a c with
  | zero => exact shows_pure _
  | succ left ih =>
    unfold compileRounds
    split
    · exact shows_pure _
    · refine (shows_compileRound compiler inputs digests number due a c).bind fun r => ?_
      exact (shows_nextSources r.1 left).bind fun next => (ih _ _ _ _).bind fun _ => shows_pure _

theorem shows_outset (inputs : EngineInputs) :
    Shows EngineState.withoutNotes (outset inputs : Action (EngineState (σ × List CompilerCall)) EngineError _)
      (outset inputs) := by
  refine shows_machine.bind fun h => ?_
  cases sourceDigests h inputs.options.sources with
  | error e => exact fun _ => rfl
  | ok digests =>
    refine (shows_pure digests).bind fun _ => (shows_onHost _).bind fun a => (shows_onHost _).bind fun opened => ?_
    exact (shows_onHost _).bind fun due => (shows_onHost _).bind fun _ => shows_pure _

/-- **A compile with a noting compiler shows the compile.** -/
theorem shows_compile (compiler : SourceCompiler σ) (inputs : EngineInputs) :
    Shows EngineState.withoutNotes (compile compiler.noting inputs) (compile compiler inputs) := by
  rw [compile_eq, compile_eq]
  refine (shows_outset inputs).bind fun o => ?_
  exact (shows_compileRounds compiler inputs o.digests _ _ o.due o.analysis o.classpath).bind fun _ => shows_pure _

/-- **The calls of a compile,** one after another. -/
def calls (compiler : SourceCompiler σ) (inputs : EngineInputs) (s : EngineState σ) : List CompilerCall :=
  ((compile compiler.noting inputs).run.run s.unnoted).run.2.session.tool.2

/-- The calls of a compile are noted by the compile with the noting compiler. -/
theorem exists_noted {s s' : EngineState σ} {out : EngineOutput} (hrun : (compile compiler inputs).Yields s out s') :
    ∃ t, (compile compiler.noting inputs).Yields s.unnoted out t ∧ t.withoutNotes = s' ∧
      t.session.tool.2 = calls compiler inputs s := by
  obtain ⟨t, hnoted, ht⟩ := (shows_compile compiler inputs).exists_run (t := s.unnoted) hrun
  refine ⟨t, hnoted, ht, ?_⟩
  unfold calls
  rw [hnoted]

end Engine

namespace Module

variable {m : Module}

/-- Steps on the machine know nothing of notes. -/
theorem shows_onHost (x : Action Host ε α) :
    Shows Session.withoutNotes (Session.onHost x : Action (Session (σ × List CompilerCall)) ε α) (Session.onHost x) :=
  fun _ => rfl

/-- What comes after the engine knows nothing of notes. -/
theorem shows_conclude (m : Module) (result : Except EngineError EngineOutput)
    (state : EngineState (σ × List CompilerCall)) :
    Shows Session.withoutNotes (m.conclude (result, state)) (m.conclude (result, state.withoutNotes)) := by
  cases result with
  | error e => exact shows_set.bind fun _ => (shows_onHost _).bind fun _ => shows_throw _
  | ok out =>
    exact shows_set.bind fun _ => (shows_onHost _).bind fun _ => (shows_onHost _).bind fun _ => shows_pure _

/-- **A compile of a module with a noting compiler shows the compile.** -/
theorem shows_compile (m : Module) (compiler : SourceCompiler σ) (t : CompileTask) :
    Shows Session.withoutNotes (m.compile compiler.noting t) (m.compile compiler t) := by
  refine (shows_onHost _).bind fun previous => Shows.get_bind fun s => ?_
  have hengine := Engine.shows_compile compiler (m.inputs t previous) (m.engineState s)
  rw [show ((Engine.compile compiler (m.inputs t previous)).run.run (m.engineState s.withoutNotes)).run = _ from hengine]
  exact m.shows_conclude _ _

/-- **The calls of a compile,** one after another. -/
def calls (m : Module) (compiler : SourceCompiler σ) (t : CompileTask) (s : Session σ) : List CompilerCall :=
  ((m.compile compiler.noting t).run.run s.unnoted).run.2.tool.2

end Module

/-! ### The calls of a successful compile -/

/-- The requests for the sources of a round: its batches, those that are not empty. -/
def Round.requests (r : Round) (options : CompileOptions) : List CompileRequest :=
  ((batches r.sources options.order).filter fun batch => !batch.isEmpty).map options.request

theorem Round.compiles_iff_requested {r : Round} {options : CompileOptions} {p : Path} :
    r.Compiles p ↔ ∃ request ∈ r.requests options, p.Among request.sources := by
  constructor
  · rintro ⟨q, hq, hqp⟩
    obtain ⟨batch, hbatch, hq⟩ := List.mem_flatten.1 ((mem_flatten_batches : _ ∈ (batches _ options.order).flatten ↔ _).2 hq)
    have hsome : (!batch.isEmpty) = true := by simpa using List.ne_nil_of_mem hq
    exact ⟨options.request batch, List.mem_map.2 ⟨batch, List.mem_filter.2 ⟨hbatch, hsome⟩, rfl⟩, q, hq, hqp⟩
  · rintro ⟨_, hrequest, q, hq, hqp⟩
    obtain ⟨batch, hbatch, rfl⟩ := List.mem_map.1 hrequest
    exact ⟨q, Engine.mem_of_mem_batches (List.mem_filter.1 hbatch).1 hq, hqp⟩

namespace Engine

variable {inputs : EngineInputs} {digests : SortedMap Path Digest}

/-- **Calls that were all answered,** for some requests and with some units. -/
structure Answered (requests : List CompileRequest) (units : List CompiledUnit) (calls : List CompilerCall) : Prop where
  requests : calls.map CompilerCall.request = requests
  units : (calls.flatMap fun call => call.output.units) = units
  all : ∀ call ∈ calls, ∃ output, call.answer = .ok output

theorem Answered.nil : Answered [] [] [] := ⟨rfl, rfl, by simp⟩

theorem Answered.append {rs rs' : List CompileRequest} {us us' : List CompiledUnit} {calls calls' : List CompilerCall}
    (h : Answered rs us calls) (h' : Answered rs' us' calls') : Answered (rs ++ rs') (us ++ us') (calls ++ calls') where
  requests := by rw [List.map_append, h.requests, h'.requests]
  units := by rw [List.flatMap_append, h.units, h'.units]
  all call hcall := (List.mem_append.1 hcall).elim (h.all call) (h'.all call)

section Noted

variable {s s' : EngineState (σ × List CompilerCall)}

theorem answered_of_compileBatch {batch : List Path} {units : List CompiledUnit}
    (hrun : (compileBatch compiler.noting inputs batch).Yields s units s') :
    ∃ calls, s'.session.tool.2 = s.session.tool.2 ++ calls ∧ Answered [inputs.options.request batch] units calls := by
  obtain ⟨output, session, hcompiler, rfl, hemit⟩ := of_yields_compileBatch hrun
  unfold emit at hemit
  simp only [yields_bind, yields_get, yields_set, yields_onHost] at hemit
  obtain ⟨_, _, ⟨rfl, rfl⟩, _, _, rfl, h, -, rfl⟩ := hemit
  -- the compiler leaves a note, and what follows leaves the notes alone
  rcases hanswer : ((compiler inputs.compilers (inputs.options.request batch)).run.run s.session.withoutNotes).run with
    ⟨answer, t⟩
  have hnoted := compiler.run_noting inputs.compilers (inputs.options.request batch) s.session hanswer
  obtain ⟨rfl, rfl⟩ := Prod.mk.inj (hnoted.symm.trans hcompiler)
  exact ⟨[⟨_, .ok output⟩], rfl, rfl, by simp [CompilerCall.output], by simp⟩

theorem answered_of_compileBatches {bs : List (List Path)} {units : List CompiledUnit}
    (hrun : (compileBatches compiler.noting inputs bs).Yields s units s') :
    ∃ calls, s'.session.tool.2 = s.session.tool.2 ++ calls ∧
      Answered ((bs.filter fun batch => !batch.isEmpty).map inputs.options.request) units calls := by
  induction bs generalizing units s with
  | nil =>
    obtain ⟨rfl, rfl⟩ := yields_pure.1 hrun
    exact ⟨[], by simp, .nil⟩
  | cons batch rest ih =>
    unfold compileBatches at hrun
    split at hrun
    -- an empty batch is neither compiled nor requested
    next hempty =>
      rw [List.filter_cons_of_neg (by simpa using hempty)]
      exact ih hrun
    next hsome =>
      rw [List.filter_cons_of_pos (by simpa using hsome), List.map_cons]
      simp only [yields_bind, yields_pure] at hrun
      obtain ⟨first, s₁, hfirst, others, s₂, hothers, rfl, rfl⟩ := hrun
      obtain ⟨calls, hcalls, answered⟩ := answered_of_compileBatch hfirst
      obtain ⟨calls', hcalls', answered'⟩ := ih hothers
      exact ⟨calls ++ calls', by rw [hcalls', hcalls, List.append_assoc], answered.append answered'⟩

theorem answered_of_compileRound {number : Nat} {due : List Path} {a : Analysis} {c c' : Classpath} {r : Round}
    (hrun : (compileRound compiler.noting inputs digests number due a c).Yields s (r, c') s') :
    ∃ calls, s'.session.tool.2 = s.session.tool.2 ++ calls ∧ Answered (r.requests inputs.options) r.units calls := by
  obtain ⟨follows, _, _, -, hunits⟩ := of_yields_compileRound hrun
  obtain ⟨calls, hcalls, answered⟩ := answered_of_compileBatches hunits
  rw [← follows.sources] at answered
  exact ⟨calls, hcalls, answered⟩

theorem tool_of_nextSources {r : Round} {left : Nat} {next : List Path}
    (hrun : (nextSources r left : Action (EngineState (σ × List CompilerCall)) EngineError _).Yields s next s') :
    s'.session.tool = s.session.tool := by
  -- it only reports, and a report leaves the compiler alone
  have hkeeps : (nextSources r left : Action (EngineState (σ × List CompilerCall)) EngineError _).Keeps
      (fun t => t.session.tool = s.session.tool) fun _ => True := by
    have hreport : ∀ e, (report e : Action (EngineState (σ × List CompilerCall)) EngineError Unit).Keeps
        (fun t => t.session.tool = s.session.tool) fun _ => True := fun e t ht => ⟨ht, fun _ _ => trivial⟩
    cases left with
    | zero => exact keeps_pure trivial
    | succ left =>
      unfold nextSources
      dsimp only
      split
      · exact keeps_pure trivial
      · refine (hreport _).bind fun _ _ => ?_
        split
        · exact (hreport _).bind fun _ _ => keeps_pure trivial
        · exact keeps_pure trivial
  exact hkeeps.state rfl hrun

theorem answered_of_compileRounds {left number : Nat} {due : List Path} {a a' : Analysis} {c c' : Classpath}
    {rs : List Round}
    (hrun : (compileRounds compiler.noting inputs digests left number due a c).Yields s (a', rs, c') s') :
    ∃ calls, s'.session.tool.2 = s.session.tool.2 ++ calls ∧
      Answered (rs.flatMap fun r => r.requests inputs.options) (rs.flatMap Round.units) calls := by
  induction left generalizing number due a c rs s with
  | zero =>
    obtain ⟨-, rfl, -, rfl⟩ := of_yields_compileRounds_zero hrun
    exact ⟨[], by simp, .nil⟩
  | succ left ih =>
    rcases of_yields_compileRounds_succ hrun with
      ⟨-, -, rfl, -, rfl⟩ | ⟨-, r, rs, c₁, s₁, next, s₂, rfl, hround, hnext, hrest⟩
    · exact ⟨[], by simp, .nil⟩
    · obtain ⟨calls, hcalls, answered⟩ := answered_of_compileRound hround
      obtain ⟨calls', hcalls', answered'⟩ := ih hrest
      -- between two rounds nothing is asked
      rw [tool_of_nextSources hnext] at hcalls'
      refine ⟨calls ++ calls', by rw [hcalls', hcalls, List.append_assoc], ?_⟩
      rw [List.flatMap_cons, List.flatMap_cons]
      exact answered.append answered'

end Noted

/-- **A successful compile calls the compiler for the batches of its rounds,** and all calls are answered. -/
theorem answered_of_yields {s s' : EngineState σ} {out : EngineOutput} (hrun : (compile compiler inputs).Yields s out s') :
    Answered (out.rounds.flatMap fun r => r.requests inputs.options) (out.rounds.flatMap Round.units)
      (calls compiler inputs s) := by
  obtain ⟨t, hnoted, -, hcalls⟩ := exists_noted hrun
  rw [← hcalls]
  obtain ⟨o, s₁, houtset, hrounds, -⟩ := of_yields_compile hnoted
  obtain ⟨_, _, _, _, _, _, -, -, -, -, -, rfl⟩ := of_yields_outset houtset
  obtain ⟨noted, hnoted, answered⟩ := answered_of_compileRounds hrounds
  rw [hnoted]
  exact answered

end Engine

end Recompile

import Recompile.Analysis.Setup
import Recompile.Diagnostic.Sink
import Recompile.Engine.Batches
import Recompile.Engine.Invalidation
import Recompile.Engine.Recording

/-!
# Incremental compiles

An incremental compile brings an output directory up to date with its sources. It starts from the analysis of
the last compile, if that was made under the same setup. The sources that have to be compiled are compiled in
rounds: after each, the classes that the compiled sources had before are compared with those they have now,
and the sources that refer to a changed one are the next round. A source that was compiled in an early round is
compiled again if need be. After `roundLimit` rounds everything that leads to a changed source is compiled in
one last round.

Before a source is compiled, and when it is gone, its class files are deleted. A compile that fails leaves the
output directory as it is then, and the caller keeps the old analysis.

What happened in each round is part of the result (`Round`), and so are the digests of the sources and all that
was looked up on the classpath, so that the choice of the sources can be judged.
-/

namespace Recompile

/-- **The state of a running compile.** -/
structure EngineState (σ : Type) where
  session : Session σ
  sink : Sink

/-- **What a compile works from.** -/
structure EngineInputs where
  compilers : Compilers
  options : CompileOptions
  setup : Setup
  /-- The contents of the store, if there is one. -/
  previous : Option Contents
  /-- The analyses of the other modules. -/
  lookup : Lookup

/-- **One round of a compile.** -/
structure Round where
  number : Nat
  /-- The sources that were compiled. -/
  sources : List Path
  /-- What the compiler made of them. -/
  units : List CompiledUnit
  /-- The analysis before the round. -/
  before : Analysis
  /-- The analysis after it. -/
  after : Analysis
  /-- The compiled sources of which a class changed or went. -/
  changed : List Path

/-- **The result of a compile.** -/
structure EngineOutput where
  analysis : Analysis
  setup : Setup
  /-- The sources that were compiled, in the order of their paths. -/
  recompiled : List Path
  rounds : List Round
  /-- The digests of the sources. -/
  digests : SortedMap Path Digest
  /-- The classpath with everything that was looked up. -/
  classpath : Classpath

/-- The number of rounds before the last resort. -/
def roundLimit : Nat := 5

namespace Engine

variable {σ ε α : Type}

/-- A step on the machine alone. -/
def onHost (step : Action Host ε α) : Action (EngineState σ) ε α :=
  Action.onPart EngineState.session (fun session s => { s with session }) (Session.onHost step)

def machine : Action (EngineState σ) ε Host := return (← get).session.host

/-- Adds an event to the log. -/
def report (e : Event) : Action (EngineState σ) ε Unit := onHost (Host.report e)

/-! ### Class files -/

/-- Deletes files below a directory. Those that are not there need not be deleted. -/
def deleteFiles (output : Path) : List Path → Action Host EngineError Unit
  | [] => return
  | file :: rest => do
    let path := output / file
    let h ← get
    match h.files.removeFile h.cwd path with
    | .ok files => set { h with files }
    -- whatever else keeps a file from being deleted ends the compile, with the earlier ones gone
    | .error fault => if fault.kind ≠ .notFound then throw (.file path fault)
    deleteFiles output rest

def deleteClassFiles (output : Path) (a : Analysis) (source : Path) : Action Host EngineError Unit :=
  deleteFiles output (a.classFiles source)

/-- Deletes the class files of some sources, all of them recorded in one analysis. -/
def deleteAllClassFiles (output : Path) (a : Analysis) : List Path → Action Host EngineError Unit
  | [] => return
  | source :: rest => do
    deleteClassFiles output a source
    deleteAllClassFiles output a rest

/-- Takes sources out of an analysis, together with their class files. -/
def removeSources (output : Path) : List Path → Analysis → Action Host EngineError Analysis
  | [], a => return a
  | source :: rest, a => do
    deleteClassFiles output a source
    removeSources output rest (a.remove source)

/-! ### One round -/

/-- The digest of the API of a class, and the source it was found in. -/
abbrev ApiTable := SortedMap String (Path × Digest)

def noteApis (a : Analysis) (source : Path) (table : ApiTable) : ApiTable :=
  match a.source? source with
  -- a source that is new to the analysis had no classes
  | none => table
  | some info =>
    info.classes.toList.foldl (fun table name =>
      match a.api? name with
      | some api => table.insert name (source, api)
      | none => table) table

/-- Takes the sources of a round out of the analysis, together with their class files, and notes the classes
they had. -/
def retire (output : Path) : List Path → Analysis → ApiTable → Action Host EngineError (Analysis × ApiTable)
  | [], a, table => return (a, table)
  | source :: rest, a, table => do
    -- the classes are noted before they go
    let table := noteApis a source table
    deleteClassFiles output a source
    retire output rest (a.remove source) table

/-- The sources of which a class is not what it was. -/
def changedSources (a : Analysis) (table : ApiTable) : List Path :=
  (SortedSet.ofList
    ((table.entries.filter fun (name, _, api) => a.api? name != some api).map fun (_, source, _) => source)).toList

/-- Hands diagnostics to the sink. -/
def emit (ds : List Diagnostic) : Action (EngineState σ) ε Unit := do
  let s ← get
  let (sink, events) := s.sink.emitAll ds
  set { s with sink }
  onHost (Host.reportAll events)

/-- Compiles one batch. An error among the diagnostics ends the compile. -/
def compileBatch (compiler : SourceCompiler σ) (inputs : EngineInputs) (batch : List Path) :
    Action (EngineState σ) EngineError (List CompiledUnit) := do
  let output ← Action.onPart EngineState.session (fun session s => { s with session })
    (compiler inputs.compilers (inputs.options.request batch))
  emit output.diagnostics
  -- what was handed over stays in the sink, whether or not the compile goes on
  let sink := (← get).sink
  if sink.hasErrors then throw (.failed sink.errors)
  return output.units

def compileBatches (compiler : SourceCompiler σ) (inputs : EngineInputs) :
    List (List Path) → Action (EngineState σ) EngineError (List CompiledUnit)
  | [] => return []
  | batch :: rest => do
    if batch.isEmpty then compileBatches compiler inputs rest
    else
      let units ← compileBatch compiler inputs batch
      return units ++ (← compileBatches compiler inputs rest)

/-- **Compiles the sources of a round.** -/
def compileRound (compiler : SourceCompiler σ) (inputs : EngineInputs) (digests : SortedMap Path Digest)
    (number : Nat) (sources : List Path) (before : Analysis) (c : Classpath) :
    Action (EngineState σ) EngineError (Round × Classpath) := do
  report (.info "compiling" [("round", toString number), ("sources", toString sources.length)])
  let (a, table) ← onHost (retire inputs.options.output sources before ∅)
  let units ← compileBatches compiler inputs (batches sources inputs.options.order)
  -- the class path is asked on the machine as the compiler leaves it
  let (after, c) := recordUnits (← machine) digests sources units a c
  return (⟨number, sources, units, before, after, changedSources after table⟩, c)

/-! ### All rounds -/

/-- The sources of the next round. With one round left, that is the last resort. -/
def nextSources (round : Round) : (left : Nat) → Action (EngineState σ) ε (List Path)
  | 0 => return []
  | left + 1 => do
    if round.changed.isEmpty then return []
    report (.debug "class APIs changed" [("sources", toString round.changed.length)])
    if left = 0 then
      report (.info "round limit reached, compiling transitive dependents" [("round", toString round.number)])
      -- nothing is left to compare after the last round, so whatever the change may reach is compiled
      return (round.after.transitiveDependents round.changed).toList
    else return round.after.dependentsOfAny round.changed

/-- Compiles in rounds until there is nothing left to compile, in at most `left` rounds. -/
def compileRounds (compiler : SourceCompiler σ) (inputs : EngineInputs) (digests : SortedMap Path Digest) :
    (left : Nat) → (number : Nat) → List Path → Analysis → Classpath →
      Action (EngineState σ) EngineError (Analysis × List Round × Classpath)
  | 0, _, _, a, c => return (a, [], c)
  | left + 1, number, sources, a, c => do
    if sources.isEmpty then return (a, [], c)
    let (round, c) ← compileRound compiler inputs digests number sources a c
    let next ← nextSources round left
    -- the next round starts from what this one recorded
    let (a, rounds, c) ← compileRounds compiler inputs digests left (number + 1) next round.after c
    return (a, round :: rounds, c)

/-! ### A compile -/

/-- The analysis to start from. One that was made under another setup is given up, and so are its class files
in the output directory. -/
def startingAnalysis (inputs : EngineInputs) : Action Host EngineError Analysis := do
  match inputs.previous with
  | none => return ∅
  | some previous =>
    if previous.setup.isCompatible inputs.setup then return previous.analysis
    else
      Host.report (.info "compile setup changed, recompiling every source")
      -- the class files of another output directory are none of this compile
      if previous.setup.output == inputs.options.output then
        deleteAllClassFiles inputs.options.output previous.analysis previous.analysis.sources.keys
      return ∅

def firstSources (changes : Changes) (digests : SortedMap Path Digest) (a : Analysis) (c : Classpath) :
    Action Host EngineError (List Path × Classpath) := do
  let (invalid, c) ← addStale digests a.sources.entries (changes.invalidated digests a) c
  Host.report (.debug "initial invalidation"
    [("new", toString changes.added.length), ("modified", toString changes.modified.length),
      ("deleted", toString changes.deleted.length), ("invalidated", toString invalid.size)])
  return (invalid.toList, c)

def recompiled (rounds : List Round) : List Path := (SortedSet.addAll ∅ (rounds.flatMap Round.sources)).toList

/-- **Compiles what has to be compiled.** -/
def compile (compiler : SourceCompiler σ) (inputs : EngineInputs) :
    Action (EngineState σ) EngineError EngineOutput := do
  let options := inputs.options
  let digests ← match sourceDigests (← machine) options.sources with
    | .ok digests => pure digests
    | .error e => throw e
  let a ← onHost (startingAnalysis inputs)
  let changes := Changes.detect digests a
  let (c, _) ← onHost (Classpath.ofPaths inputs.lookup (externalClasspath options.classpath options.output))
  let (sources, c) ← onHost (firstSources changes digests a c)
  -- sources that are gone still count for the first round, and are taken out only then
  let a ← onHost (removeSources options.output changes.deleted a)
  let (a, rounds, c) ← compileRounds compiler inputs digests (roundLimit + 1) 1 sources a c
  return {
    analysis := a
    setup := inputs.setup
    recompiled := recompiled rounds
    rounds, digests
    classpath := c }

end Engine

end Recompile

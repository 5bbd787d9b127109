import Recompile.Compile.Error
import Recompile.Config.Basic
import Recompile.Engine.Incremental

/-!
# Compiling a module

A module is compiled against its store: the analysis of the last compile is loaded, the engine brings the
output directory up to date, and the new analysis takes the place of the old one if that succeeds. A compile
that fails changes nothing in the store, so that the next one starts from the last success.
-/

namespace Recompile

/-- **A module of a build.** -/
structure Module where
  compilers : Compilers
  /-- The file in which the analysis is kept. -/
  store : Path
  /-- Where the analyses of other modules are kept. -/
  layout : Layout := .standard
  order : CompileOrder := .mixed
  /-- The number of errors that are reported at most. -/
  maxErrors : Nat := Sink.defaultMaxErrors
  /-- The options of compiles that are given none. -/
  scalacOptions : List String := []
  javacOptions : List String := []

/-- **The result of a successful compile.** -/
structure CompileOutcome where
  /-- Everything that was reported. -/
  diagnostics : List Diagnostic
  /-- The sources that were compiled, in the order of their paths. -/
  recompiled : List Path
  /-- The analysis that was stored. -/
  analysis : Analysis

/-- What a module is compiled from and to. -/
structure CompileTask where
  /-- The classpath, which need not have the output directory. -/
  classpath : List Path
  sources : List Path
  output : Path
  scalacOptions : List String
  javacOptions : List String

namespace Module

variable {σ : Type}

def ofConfig (compilers : Compilers) (store : Path) (c : Config) : Module :=
  ⟨compilers, store, c.layout, c.order, c.maxErrors, c.scalacOptions, c.javacOptions⟩

def task (m : Module) (classpath sources : List Path) (output : Path) : CompileTask :=
  ⟨classpath, sources, output, m.scalacOptions, m.javacOptions⟩

def setup (m : Module) (t : CompileTask) : Setup where
  output := t.output
  compiler := m.compilers.toolchain.versionText
  scalacOptions := t.scalacOptions
  javacOptions := t.javacOptions
  order := m.order

/-- The options of a compile. The output directory comes first on the classpath. -/
def options (m : Module) (t : CompileTask) : CompileOptions where
  classpath := t.output :: externalClasspath t.classpath t.output
  sources := t.sources
  output := t.output
  scalacOptions := t.scalacOptions
  javacOptions := t.javacOptions
  order := m.order

def inputs (m : Module) (t : CompileTask) (previous : Option Contents) : EngineInputs where
  compilers := m.compilers
  options := m.options t
  setup := m.setup t
  previous := previous
  lookup := { layout := m.layout }

/-- What the caller is told when the engine fails, and the events of that. -/
def failure (sink : Sink) : EngineError → CompileError × List Event
  | .file path fault => (.file path fault, [])
  | .compiler reason =>
    -- the reason is reported like a diagnostic, behind those that the compiler gave
    let (sink, events) := sink.emitAll [⟨.error, reason, .unknown⟩]
    (.failed sink.stored, events)
  | .failed errors =>
    (.failed sink.stored,
      [.info "compilation failed, keeping previous analysis" [("errors", toString errors)]])

def started (m : Module) (t : CompileTask) (previous : Option Contents) : Event :=
  .debug "starting incremental compile"
    [("sources", toString t.sources.length), ("classpath", toString (m.options t).classpath.length),
      ("previous", toString previous.isSome)]

/-- What comes before the engine: the store is read and the output directory made. -/
def begin (m : Module) (t : CompileTask) : Action Host CompileError (Option Contents) := do
  let previous ← (Store.load m.store).mapFailure .ofAnalysis
  -- the output directory is made only once the store could be read
  Host.makeDirAll (.file t.output) t.output
  Host.report (m.started t previous)
  return previous

/-- What comes after the engine: the new analysis takes the place of the old one, or the caller is told what
went wrong. -/
def conclude (m : Module) :
    Except EngineError EngineOutput × EngineState σ → Action (Session σ) CompileError CompileOutcome
  | (.error e, state) => do
    set state.session
    -- the store is not touched, so the next compile starts from the old analysis
    let (e, events) := failure state.sink e
    Session.onHost (Host.reportAll events)
    throw e
  | (.ok output, state) => do
    set state.session
    Session.onHost ((Store.commit m.store ⟨output.analysis, output.setup⟩).mapFailure .ofAnalysis)
    Session.onHost (Host.report (.info "compilation succeeded"
      [("recompiled", toString output.recompiled.length), ("warnings", toString state.sink.warnings)]))
    return ⟨state.sink.stored, output.recompiled, output.analysis⟩

def engineState (m : Module) (s : Session σ) : EngineState σ := ⟨s, { maxErrors := m.maxErrors }⟩

/-- **Compiles a module.** -/
def compile (m : Module) (compiler : SourceCompiler σ) (t : CompileTask) :
    Action (Session σ) CompileError CompileOutcome := do
  let previous ← Session.onHost (m.begin t)
  let s ← get
  m.conclude ((Engine.compile compiler (m.inputs t previous)).run.run (m.engineState s)).run

end Module

end Recompile

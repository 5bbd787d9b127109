import Recompile.CommandLine.Inspection
import Recompile.CommandLine.Project

/-!
# Running commands

A command prints its result and ends with status 0. One that fails prints why on the error channel and ends
with status 1, as does a look at a store that is not there. Arguments that are not understood end with
status 2.
-/

namespace Recompile

namespace CommandLine

/-- **What a finished command leaves behind** besides what it did on the machine. -/
structure Outcome where
  status : Nat
  out : String := ""
  err : String := ""

def versionText : String := "kiln " ++ Store.programVersion

/-- How the program is used. -/
def usage : String :=
  "Usage: kiln [OPTIONS] <COMMAND>\n\nCommands:\n  key\n  bridge\n  analysis\n  lookup\n"

def printed (text : String) : Outcome := ⟨0, text, ""⟩

def failed (reason : String) : Outcome := ⟨1, "", "error: " ++ reason ++ "\n"⟩

/-- Prints the key of the bridge. -/
def runKey (config : Option String) : ExceptT String (StateM Host) Outcome := do
  let c ← liftExcept (loadConfig (← get) config)
  let toolchain ← ExceptT.mk (toolchain c)
  let (cache, _) ← liftExcept ((bridges (← get) c).mapError ConfigError.message)
  return printed ((cache.keyFor toolchain (c.coordinates toolchain.version)).display ++ "\n")
where
  liftExcept {α : Type} (x : Except String α) : ExceptT String (StateM Host) α := ExceptT.mk (pure x)

/-- Makes the bridge and prints its path. -/
def runBridge (config version : Option String) : ExceptT String (StateM Host) Outcome := do
  let c ← runKey.liftExcept (loadConfig (← get) config)
  let toolchain ← ExceptT.mk (toolchain c)
  Host.report (.info "preparing compiler bridge" [("toolchain", toolchain.version.display)])
  let (cache, tools) ← runKey.liftExcept ((bridges (← get) c).mapError ConfigError.message)
  let coordinates := c.coordinates toolchain.version
  let key := match version with
    | some v => cache.keyForVersion toolchain coordinates v
    | none => cache.keyFor toolchain coordinates
  let ((result, _), s) := (cache.ensure tools toolchain coordinates key).run ⟨← get, ()⟩
  set s.host
  match result with
  | .ok jar => return printed (jar.spelling ++ "\n")
  | .error e => throw e.message

def runAnalysis (store : Path) (sources : Bool) : ExceptT String (StateM Host) Outcome := do
  match ← (Store.load store).mapFailure AnalysisError.message with
  | none => return ⟨1, "", "no analysis at " ++ store.spelling ++ "\n"⟩
  | some contents => return printed (summary contents sources)

/-- The layout of the project, or the one to fall back on. -/
def layout (config : Option String) : StateM Host Layout := do
  match loadConfig (← get) config with
  | .ok c => return c.layout
  | .error e =>
    modify fun h => h.logged (.debug "using the default analysis layout" [("e", e)])
    return .standard

/-- Shows what is known of entries of the classpath. -/
def runLookup (config : Option String) (entries : List Path) (className : Option String) :
    ExceptT String (StateM Host) Outcome := do
  let layout ← layout config
  return printed (unlines (← describeEntries className entries { layout }))

def execute (i : Invocation) : ExceptT String (StateM Host) Outcome :=
  match i.command with
  | .key => runKey i.config
  | .bridge version => runBridge i.config version
  | .analysis store sources => runAnalysis store sources
  | .lookup entries className => runLookup i.config entries className

/-- Whether the user wants to see events of a level. -/
def shows (args : List String) (level : Level) : Bool :=
  match parse args, level with
  | .error _, _ => false
  | .ok _, .error => true
  | .ok i, .debug => i.verbose && !i.quiet
  | .ok i, _ => !i.quiet

/-- **Runs the program with some arguments.** -/
def run (args : List String) : StateM Host Outcome := do
  match parse args with
  | .error .version => return printed (versionText ++ "\n")
  | .error .help => return printed usage
  | .error .misuse => return ⟨2, "", usage⟩
  | .ok i =>
    match ← (execute i).run with
    | .ok outcome => return outcome
    | .error reason => return failed reason

end CommandLine

end Recompile

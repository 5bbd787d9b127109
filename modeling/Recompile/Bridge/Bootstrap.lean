import Recompile.Bridge.Error
import Recompile.Script.Running
import Recompile.Session
import Recompile.Text.Space
import Recompile.Toolchain.Provisioning

/-!
# Compiling a bridge

The sources of a bridge are compiled once, as a whole and with nothing kept for another time. A
`BootstrapCompiler` is whatever does that. `JavaCommand` is the one that starts the compiler of the toolchain
in a Java process and takes what it prints on its error channel for the reason when it fails.
-/

namespace Recompile

/-- **What is to be compiled.** -/
structure BootstrapRequest where
  toolchain : Toolchain
  /-- The class that the compiler process starts with. -/
  mainClass : String
  sources : List Path
  classpath : List Path
  output : Path
  options : List String

/-- **A compiler for bridges.** It works on the machine and may keep a state of its own. -/
abbrev BootstrapCompiler (σ : Type) := BootstrapRequest → Action (Session σ) BridgeError Unit

/-- A compiler that also notes what it was asked for. -/
def BootstrapCompiler.recording {σ : Type} (c : BootstrapCompiler σ) :
    BootstrapCompiler (σ × List BootstrapRequest) := fun request => do
  modify fun s => { s with tool := (s.tool.1, s.tool.2 ++ [request]) }
  Action.onPart (fun s => ⟨s.host, s.tool.1⟩) (fun t s => ⟨t.host, (t.tool, s.tool.2)⟩) (c request)

/-! ### A compiler process -/

/-- **The Java process that runs the compiler,** with the Java installation that is configured for it. -/
structure JavaCommand where
  home : Option Path := none

namespace JavaCommand

/-- The program to start: the one of the configured installation, else of the one that the environment names,
else whatever is called `java`. -/
def program (j : JavaCommand) (h : Host) : Path :=
  let fromEnvironment := (h.javaHome.filter (· != "")).map Path.mk
  match j.home <|> fromEnvironment with
  | some home => home / "bin" / "java"
  | none => "java"

/-- The paths of a classpath as one argument. -/
def joinPaths (paths : List Path) : Except BridgeError String :=
  if paths.any fun p => p.spelling.toList.contains ':' then
    .error (.bootstrap "invalid classpath entry: path segment contains separator `:`")
  else .ok (":".intercalate (paths.map Path.spelling))

def arguments (r : BootstrapRequest) : Except BridgeError (List String) := do
  let loader ← joinPaths r.toolchain.jars
  let classpath ← joinPaths r.classpath
  return ["-cp", loader, r.mainClass, "-d", r.output.spelling, "-classpath", classpath] ++ r.options
    ++ r.sources.map Path.spelling

/-- A word of a command line as it is shown: a word with a zero byte, which no process can be given, shows as
a marker. -/
def shownWord (word : String) : String :=
  if word.toList.contains '\x00' then "<string-with-nul>" else word

/-- Why a process failed: what it printed, or else how it ended. -/
def reason (outcome : Script.Outcome) : String :=
  let printed := Text.trim (Bytes.toStringLossy outcome.err)
  if printed = "" then "compiler exited with " ++ outcome.ending.describe else printed

/-- **Runs the compiler.** -/
def compile (j : JavaCommand) (r : BootstrapRequest) : Action Host BridgeError Unit := do
  let args ← liftExcept (arguments r)
  Host.report (.debug "running bootstrap compiler" [("sources", toString r.sources.length)])
  let program := j.program (← get)
  let outcome ← (Script.execute program args).mapFailure fun fault =>
    BridgeError.bootstrap ("failed to run " ++ program.spelling ++ ": " ++ fault.text)
  if outcome.ending ≠ .exited 0 then throw (.bootstrap (reason outcome))
where
  liftExcept {α : Type} : Except BridgeError α → Action Host BridgeError α
    | .ok x => return x
    | .error e => throw e

def compiler {σ : Type} (j : JavaCommand) : BootstrapCompiler σ := fun r => Session.onHost (j.compile r)

end JavaCommand

end Recompile

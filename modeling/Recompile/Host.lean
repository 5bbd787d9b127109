import Recompile.Files.Basic
import Recompile.Log

/-!
# The machine a build runs on

A build works on a directory tree from a working directory, reads a few variables of its environment and
leaves a log. `Host` is all of that as one value, and an `Action` is a step that may change it and may fail.
What a failing step has done to the host stays done: directories that were made, files that were written and
events that were logged before the failure are part of its outcome.
-/

namespace Recompile

/-- **The machine a build runs on.** -/
structure Host where
  files : Files := ∅
  /-- The directory from which relative paths are followed. -/
  cwd : Location := []
  /-- The directory for scratch directories. -/
  temp : Path := "/tmp"
  /-- The home directory of the user, if the environment names one. -/
  home : Option String := none
  /-- The Java installation that the environment names. -/
  javaHome : Option String := none
  /-- The events so far. -/
  log : Array Event := #[]
deriving Inhabited

/-- **A step that may fail.** The state is changed also if it does. -/
abbrev Action (σ ε α : Type) := ExceptT ε (StateM σ) α

namespace Action

variable {σ τ ε δ α : Type}

/-- Runs a step on a part of a larger state. -/
def onPart (get : τ → σ) (set : σ → τ → τ) (step : Action σ ε α) : Action τ ε α := fun t =>
  let (result, s) := step.run.run (get t)
  (result, set s t)

/-- Gives the failures of a step another type. -/
def mapFailure (f : ε → δ) (step : Action σ ε α) : Action σ δ α := fun s =>
  let (result, s) := step.run.run s
  (result.mapError f, s)

/-- A step that hands on the outcome of a step, failures included. -/
def outcome (step : Action σ ε α) : Action σ δ (Except ε α) := fun s =>
  let (result, s) := step.run.run s
  (.ok result, s)

end Action

namespace Host

variable {ε α : Type}

/-- Whether a path leads anywhere. -/
def exists? (h : Host) (p : Path) : Bool := h.files.exists? h.cwd p

/-- Whether a path leads to a regular file. -/
def isFile (h : Host) (p : Path) : Bool := h.files.isFile h.cwd p

/-- Whether a path leads to a directory. -/
def isDir (h : Host) (p : Path) : Bool := h.files.isDir h.cwd p

def read (h : Host) (p : Path) : Except Fault Bytes := h.files.read h.cwd p

def readText (h : Host) (p : Path) : Except Fault String := h.files.readText h.cwd p

/-- The entries below a directory that satisfy a test. -/
def list (h : Host) (root : Path) (test : Path → Bool) : Except Fault (List Path) :=
  h.files.list h.cwd root test

def logged (h : Host) (e : Event) : Host := { h with log := h.log.push e }

/-- Adds an event to the log. -/
def report (e : Event) : Action Host ε Unit := modify fun h => h.logged e

def reportAll (es : List Event) : Action Host ε Unit := modify fun h => { h with log := h.log ++ es.toArray }

/-- Looks something up on the host, with a name for the failure. -/
def ask (wrap : Fault → ε) (question : Host → Except Fault α) : Action Host ε α := do
  match question (← get) with
  | .ok x => return x
  | .error fault => throw (wrap fault)

/-- Changes the directory tree, with a name for the failure. -/
def change (wrap : Fault → ε) (operation : Files → Location → Except Fault Files) : Action Host ε Unit := do
  let h ← get
  match operation h.files h.cwd with
  | .ok files => set { h with files }
  | .error fault => throw (wrap fault)

/-- Makes a directory and all missing ones above it. -/
def makeDirAll (wrap : Fault → ε) (p : Path) : Action Host ε Unit := do
  let h ← get
  let (result, files) := h.files.makeDirAll h.cwd p
  -- the directories that could be made stay, also if the last one could not
  set { h with files }
  match result with
  | .ok _ => return
  | .error fault => throw (wrap fault)

/-- The directory in which a file is prepared before it takes its place. -/
def stagingDir (p : Path) : Path :=
  match p.parent? with
  | some parent => if parent.spelling = "" then "." else parent
  | none => "."

/-- **Writes a file so that readers see the old file or the complete new one.** The directories above it are
made, and stay if the file cannot take its place. -/
def writeAtomically (wrap : Fault → ε) (p : Path) (data : Bytes) : Action Host ε Unit := do
  makeDirAll wrap (stagingDir p)
  change wrap fun files cwd => files.replace cwd p data

end Host

end Recompile

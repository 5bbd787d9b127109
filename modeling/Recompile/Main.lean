import Recompile.CommandLine.Inputs
import Recompile.CommandLine.Running

/-!
# The program

The outer layer of the command line. What a command reads is gathered from the file system into a `Host`, the
command runs on that, and the files that it has written are written back. Nothing is decided here.
-/

namespace Recompile

namespace Machine

/-- The location of a path, without a look at what is there. -/
def location (cwd : Location) (p : Path) : Location :=
  p.components.foldl (fun here c =>
    match c with
    | .root => []
    | .here => here
    | .up => here.dropLast
    | .name s => here ++ [s]) cwd

def pathOf (loc : Location) : String := "/" ++ "/".intercalate loc

/-- The tree with the directories above a location. -/
def withParents (files : Files) (loc : Location) : Files :=
  ((List.range loc.length).drop 1).foldl (fun files n => files.put (loc.take n) .dir) files

def isScript (data : Bytes) : Bool := data.take 2 == [35, 33]

/-- Adds what is at a location and below it. Links count as what they lead to; a directory that leads back to
one of `above` is not entered. -/
partial def scan (above : List String) (loc : Location) (files : Files) : IO Files := do
  let .ok real ← (IO.FS.realPath (pathOf loc)).toBaseIO | return files
  if ← real.isDir then
    if above.contains real.toString then return files
    let mut files := files.put loc .dir
    for entry in ← real.readDir do
      files ← scan (real.toString :: above) (loc ++ [entry.fileName]) files
    return files
  else if ← real.pathExists then
    let data := (← IO.FS.readBinFile real).toList
    return files.put loc (.file data (isScript data))
  else return files

/-- Adds what is at some paths, with the directories above it. -/
def scanAll (h : Host) (paths : List Path) : IO Host := do
  let mut files := h.files
  for p in paths do
    let loc := location h.cwd p
    files ← scan [] loc files
    if (files.node? loc).isSome then files := withParents files loc
  return { h with files }

/-- The machine before a command. -/
def gather (args : List String) : IO Host := do
  let cwd := location [] ⟨(← IO.currentDir).toString⟩
  let host : Host := {
    files := withParents (withParents ∅ (cwd ++ ["."])) ["tmp", "."]
    cwd
    home := ← IO.getEnv "HOME"
    javaHome := ← IO.getEnv "JAVA_HOME" }
  match CommandLine.parse args with
  | .error _ => return host
  | .ok i =>
    let host ← scanAll host (CommandLine.configPlaces host i.config)
    match CommandLine.loadConfig host i.config with
    | .error _ => scanAll host (i.command.paths .standard)
    | .ok c => scanAll host (CommandLine.projectPaths host c i.command)

/-- Whether a node has to be written for the file system to agree. -/
def isNews (old : Option Node) : Node → Bool
  | .dir => !old.any Node.isDir
  | .file data _ =>
    match old with
    | some (.file before _) => before != data
    | _ => true
  | .link _ => false

/-- Writes what is new in a tree. A file takes its place in one step. -/
def writeBack (old new : Files) : IO Unit := do
  for (loc, node) in new.nodes.entries do
    if isNews (old.node? loc) node then
      match node with
      | .file data _ =>
        IO.FS.writeBinFile (pathOf loc ++ ".part") ⟨data.toArray⟩
        IO.FS.rename (pathOf loc ++ ".part") (pathOf loc)
      | _ => IO.FS.createDirAll (pathOf loc)

def run (args : List String) : IO UInt32 := do
  let host ← gather args
  let (outcome, after) := CommandLine.run args host
  writeBack host.files after.files
  for e in after.log do
    if CommandLine.shows args e.level then IO.eprintln e.line
  IO.print outcome.out
  IO.eprint outcome.err
  return UInt32.ofNat outcome.status

end Machine

end Recompile

def main (args : List String) : IO UInt32 := Recompile.Machine.run args

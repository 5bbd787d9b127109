import Recompile.Script.Tool.Values

/-!
# Processes

What a script or a tool starts is either one of the programs of the system or an executable file of the machine.
Such a file holds a script, whose first line names the program that runs it; so in the end each process runs a
program of the system. `Process.ofFile` follows these lines, and `programPath?` looks for a program by its name.
-/

namespace Recompile

namespace Script

/-- **What a process runs:** a program of the system, the name by which it was called, and its arguments. -/
structure Process where
  program : String
  called : String
  args : List String
deriving DecidableEq, Repr

namespace Process

/-! ### Programs of the system -/

/-- The directories that hold the programs of the system. -/
def systemDirectories : List String := ["/bin", "/usr/bin"]

/-- The programs of the system that run scripts. -/
def shells : List String := ["sh", "dash", "bash"]

/-- The programs of the system that start other programs. -/
def starters : List String := ["awk", "env", "find", "mawk", "nice", "nohup", "setsid", "timeout", "which", "xargs"]

def isSystemProgram (name : String) : Bool :=
  shells.contains name || starters.contains name || Tool.all.any (·.1 == name)

/-- The name of the program of the system at a path. -/
def systemProgram? (p : String) : Option String :=
  let name := (p.toList.reverse.takeWhile (· != '/')).reverse
  let directory := String.ofList (p.toList.take (p.length - name.length - 1))
  let name := String.ofList name
  if systemDirectories.contains directory && isSystemProgram name then some name else none

/-! ### Files -/

/-- The number of bytes at the start of a file in which its program has to be named. -/
def maxFirstLine : Nat := 256

/-- Whether a byte is a blank in the first line of a script. -/
def isBlank (b : UInt8) : Bool := b == 32 || b == 9

/-- The program that the first line of a script names, and an argument for it: all that follows the name. -/
def interpreter? : Bytes → Option (String × List String)
  | 35 :: 33 :: rest =>
    let front := rest.take (maxFirstLine - 2)
    let isWhole := front.contains 10 || rest.length < maxFirstLine - 2
    let line := (front.takeWhile fun b => b != 10 && b != 0).dropWhile isBlank
    let (name, after) := line.span fun b => !isBlank b
    if name.isEmpty || (!isWhole && after.isEmpty) then none
    else
      let argument := ((after.dropWhile isBlank).reverse.dropWhile isBlank).reverse
      some (ofBytes name, if argument.isEmpty then [] else [ofBytes argument])
  | _ => none

/-- How often the program of a script may be a script itself. -/
def maxInterpreters : Nat := 5

/-- The process of the file at a path; `fuel` bounds how often its program is a script. -/
def ofFileUpTo (s : Shell) : (fuel : Nat) → (file called : String) → List String → Except Fault Process
  | 0, _, _, _ => .error (.ofKind .filesystemLoop)
  | fuel + 1, file, called, args =>
    match systemProgram? file, s.host.files.lookup s.cwd (Shell.path file) with
    | _, .ok (.file data true) =>
      match interpreter? data with
      | some (name, argument) => ofFileUpTo s fuel name name (argument ++ file :: args)
      | none => .error (.ofKind .uncategorized)
    | _, .ok _ => .error (.ofKind .permissionDenied)
    | some program, .error _ => .ok ⟨program, called, args⟩
    | none, .error fault => .error fault

/-- **The process that the file at a path becomes,** or why it becomes none. -/
def ofFile (s : Shell) (file : String) (args : List String) : Except Fault Process :=
  ofFileUpTo s maxInterpreters file file args

/-- The process that a shell makes of a file: a file that names no program is a script for the shell. -/
def ofScript (s : Shell) (file called : String) (args : List String) : Except Fault Process :=
  match ofFileUpTo s maxInterpreters file called args with
  | .error fault => if fault.kind = .uncategorized then .ok ⟨"sh", "sh", file :: args⟩ else .error fault
  | found => found

end Process

/-! ### Names -/

/-- **The path of the program that a name stands for.** A name with a slash is a path already. -/
def programPath? (s : Shell) (name : String) : Option String :=
  if name = "" then none
  else if name.toList.contains '/' then some name
  else
    let directories := (((s.get? "PATH").getD "").toList.splitOn ':').map String.ofList
    (directories.map fun d => if d = "" then name else d ++ "/" ++ name).find? fun p =>
      s.host.files.isFile s.cwd (Shell.path p) || (Process.systemProgram? p).isSome

/-- The process that a name and some arguments stand for, or why it does not start. -/
def processOf (s : Shell) (name : String) (args : List String) : Except Fault Process :=
  match programPath? s name with
  | none => .error (.ofKind .notFound)
  | some file => Process.ofScript s file name args

/-- **What a command is known as.** -/
inductive Meaning
  | keyword
  | shorthand (text : String)
  | special
  | function
  | builtin
  | program (path : String)
deriving DecidableEq, Repr

end Script

end Recompile

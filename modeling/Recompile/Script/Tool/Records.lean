import Recompile.Script.Awk.Running

/-!
# Tools for records

`awk` runs a program over the records of its input.
-/

namespace Recompile

namespace Script

namespace Tool

variable (start : List String → Running (Except Fault Ending))

/-- **What `awk` was given:** the files with the program, what it assigns, and the other arguments. -/
structure RecordsGiven where
  files : List String := []
  assignments : List (String × Awk.Value) := []
  rest : List String := []

/-- What `awk` is told to do. -/
inductive RecordsTask
  | run (g : RecordsGiven)
  | showVersion
  | refuse (reason : String)

/-- Reads the arguments of `awk`; `fuel` bounds their number. -/
def recordsTask : (fuel : Nat) → RecordsGiven → List String → RecordsTask
  | 0, g, args => .run { g with rest := args }
  | _ + 1, g, [] => .run g
  | fuel + 1, g, arg :: rest =>
    let valued (cs : List Char) (use : String → List String → RecordsTask) : RecordsTask :=
      match cs, rest with
      | [], [] => .refuse ("option requires an argument -- " ++ String.ofList (arg.toList.drop 1))
      | [], value :: rest => use value rest
      | cs, rest => use (String.ofList cs) rest
    match arg.toList with
    | ['-', '-'] => .run { g with rest }
    | '-' :: 'F' :: cs => valued cs fun value rest =>
      let separator := Awk.Value.text (String.ofList (Awk.unescapeText (value.length + 1) value.toList))
      recordsTask fuel { g with assignments := g.assignments ++ [("FS", separator)] } rest
    | '-' :: 'f' :: cs => valued cs fun value rest => recordsTask fuel { g with files := g.files ++ [value] } rest
    | '-' :: 'v' :: cs => valued cs fun value rest =>
      match Awk.assignment? value with
      | some a => recordsTask fuel { g with assignments := g.assignments ++ [a] } rest
      | none => .refuse ("improper assignment: -v " ++ value)
    | '-' :: 'W' :: cs => valued cs fun value rest =>
      if "version".startsWith value then .showVersion else recordsTask fuel g rest
    | '-' :: '-' :: cs =>
      if "version".startsWith (String.ofList cs) then .showVersion else .refuse ("not an option: " ++ arg)
    | '-' :: _ :: _ => .refuse ("not an option: " ++ arg)
    | _ => .run { g with rest := arg :: rest }

/-- What `awk` says when it has no program. -/
def recordsUsage : String :=
  "Usage: mawk [Options] [Program] [file ...]\n\nProgram:\n" ++
  "    The -f option value is the name of a file containing program text.\n" ++
  "    If no -f option is given, a \"--\" ends option processing; the following\n" ++
  "    parameters are the program text.\n\nOptions:\n" ++
  "    -f program-file  Program  text is read from file instead of from the\n" ++
  "                     command-line.  Multiple -f options are accepted.\n" ++
  "    -F value         sets the field separator, FS, to value.\n" ++
  "    -v var=value     assigns value to program variable var.\n" ++
  "    --               unambiguous end of options.\n\n" ++
  "    Implementation-specific options are prefixed with \"-W\".  They can be\n    abbreviated:\n\n" ++
  "    -W version       show version information and exit.\n" ++
  "    -W compat        pre-POSIX 2001.\n" ++
  "    -W dump          show assembler-like listing of program and exit.\n" ++
  "    -W help          show this message and exit.\n" ++
  "    -W interactive   set unbuffered output, line-buffered input.\n" ++
  "    -W exec file     use file as program as well as last option.\n" ++
  "    -W posix         stricter POSIX checking.\n" ++
  "    -W random=number set initial random seed.\n" ++
  "    -W sprintf=number adjust size of sprintf buffer.\n" ++
  "    -W usage         show this message and exit.\n"

/-- Runs a program over records. -/
def awk (called : String) : Action := fun args => do
  match recordsTask (args.length + 1) {} args with
  | .refuse reason => failWith called reason 2
  | .showVersion => do
    print "mawk 1.3.4 20240123\n"
    return 0
  | .run g => do
    let mut texts : List String := []
    for file in g.files do
      match ← operandText file with
      | .ok t => texts := texts ++ [t]
      | .error cause => return ← failWith called ("cannot open \"" ++ file ++ "\" (" ++ cause ++ ")") 2
    let (text?, operands) := match g.files, g.rest with
      | [], [] => (none, [])
      | [], text :: rest => (some text, rest)
      | _, rest => (some ("\n".intercalate texts), rest)
    match text? with
    | none => do
      printError recordsUsage
      return 2
    | some text =>
      match Awk.Program.read text with
      | .error e => do
        let place := if e.reason.startsWith "unexpected character" then "" else "line "
        complain called (place ++ toString e.line ++ ": " ++ e.reason)
        if let some line := e.unclosed then
          complain called ("line " ++ toString line ++ ": missing \x7d near end of file")
        return 2
      | .ok p => Awk.run start called p g.assignments operands

end Tool

end Script

end Recompile

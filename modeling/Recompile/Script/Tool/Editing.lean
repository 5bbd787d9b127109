import Recompile.Script.Edit.Reading
import Recompile.Script.Edit.Running
import Recompile.Script.Tool.Options

/-!
# Tools that edit lines

`sed` runs a program over the lines of its input: over all lines of all files together, or over each file by itself,
which may then be replaced by what comes out.
-/

namespace Recompile

namespace Script

namespace Tool

/-! ### What is to be done -/

/-- The options of `sed`. -/
def editOptions : Options where
  flags := "nErsuzbhVpDSF"
  valued := "efl"
  attached := "i"
  names := [("regexp-extended", 'E'), ("debug", 'D'), ("in-place", 'i'), ("expression", 'e'), ("file", 'f'),
    ("line-length", 'l'), ("null-data", 'z'), ("zero-terminated", 'z'), ("quiet", 'n'), ("posix", 'p'), ("silent", 'n'),
    ("sandbox", 'S'), ("separate", 's'), ("unbuffered", 'u'), ("version", 'V'), ("help", 'h'), ("follow-symlinks", 'F')]

/-- How `sed` is used. -/
def editUsage : String :=
  "Usage: sed [OPTION]... \x7bscript-only-if-no-other-script\x7d [input-file]...\n\n" ++
  "  -n, --quiet, --silent\n                 suppress automatic printing of pattern space\n" ++
  "      --debug\n                 annotate program execution\n" ++
  "  -e script, --expression=script\n                 add the script to the commands to be executed\n" ++
  "  -f script-file, --file=script-file\n" ++
  "                 add the contents of script-file to the commands to be executed\n" ++
  "  --follow-symlinks\n                 follow symlinks when processing in place\n" ++
  "  -i[SUFFIX], --in-place[=SUFFIX]\n                 edit files in place (makes backup if SUFFIX supplied)\n" ++
  "  -l N, --line-length=N\n                 specify the desired line-wrap length for the \x60l' command\n" ++
  "  --posix\n                 disable all GNU extensions.\n" ++
  "  -E, -r, --regexp-extended\n                 use extended regular expressions in the script\n" ++
  "                 (for portability use POSIX -E).\n" ++
  "  -s, --separate\n                 consider files as separate rather than as a single,\n" ++
  "                 continuous long stream.\n" ++
  "      --sandbox\n                 operate in sandbox mode (disable e/r/w commands).\n" ++
  "  -u, --unbuffered\n                 load minimal amounts of data from the input files and flush\n" ++
  "                 the output buffers more often\n" ++
  "  -z, --null-data\n                 separate lines by NUL characters\n" ++
  "      --help     display this help and exit\n" ++
  "      --version  output version information and exit\n\n" ++
  "If no -e, --expression, -f, or --file option is given, then the first\n" ++
  "non-option argument is taken as the sed script to interpret.  All\n" ++
  "remaining arguments are names of input files; if no input files are\n" ++
  "specified, then the standard input is read.\n\n"

/-- Says how `sed` is used, and that it was not used so. -/
def refuseEdit (reason : Option String) : Running Nat := do
  match reason with
  | some reason => complain "sed" reason
  | none => pure ()
  printError editUsage
  return 1

/-- A step of `sed`, which may end it with a status. -/
abbrev EditStep := ExceptT Nat Running

/-- Says why `sed` cannot go on. -/
def EditStep.fail {α : Type} (reason : String) (status : Nat) : EditStep α := do
  complain "sed" reason
  throw status

/-- The number that digits at the start of a text are. -/
def frontNumber (s : String) : Nat := Arithmetic.natOf 10 (s.toList.takeWhile Char.isDigit)

/-- The parts of the program, in the order in which they were given. -/
def editParts : (extended : Bool) → List (Char × String) → EditStep (List Edit.Part)
  | _, [] => return []
  | extended, (c, value) :: rest =>
    match c with
    | 'E' | 'r' => editParts true rest
    | 'e' => return ⟨none, value, extended⟩ :: (← editParts extended rest)
    | 'f' => do
      match ← operandText value with
      | .error cause => EditStep.fail ("couldn't open file " ++ value ++ ": " ++ cause) 4
      | .ok text =>
        let text := if text.endsWith "\n" then String.ofList text.toList.dropLast else text
        return ⟨some value, text, extended⟩ :: (← editParts extended rest)
    | _ => editParts extended rest

/-! ### Input and output -/

/-- The lines of a file, or why there are none. -/
def editInput (separator : Char) (p : String) : Running (Except String (List Edit.Line)) := do
  return (← operandText p).map (Edit.Machine.linesOf separator p)

/-- What a directory is when it is read. -/
def directoryCause : String := causeText (.ofKind .isADirectory)

/-- Complains about a file that cannot be read. A directory ends the run. -/
def refuseInput (p cause : String) : EditStep Unit := do
  if cause = directoryCause then EditStep.fail ("read error on " ++ p ++ ": " ++ cause) 4
  complain "sed" ("can't read " ++ p ++ ": " ++ cause)

/-- Complains about the files that were come to while so many lines were taken, and returns whether there were any;
`number` is the number of lines before. -/
def refuseInputs (taken : Option Nat) :
    (number : Nat) → List (String × Except String (List Edit.Line)) → EditStep Bool
  | _, [] => return false
  | number, (p, input) :: rest =>
    if taken.any (· ≤ number) then return false
    else
      match input with
      | .ok lines => refuseInputs taken (number + lines.length) rest
      | .error cause => do
        refuseInput p cause
        discard <| refuseInputs taken number rest
        return true

/-- Makes the files that a program writes empty. -/
def clearTargets (paths : List String) : EditStep Unit :=
  paths.forM fun p => do
    if (systemDescriptor? p).isNone then
      match ← openFile .overwrite p with
      | .ok _ => pure ()
      | .error fault => EditStep.fail ("couldn't open file " ++ p ++ ": " ++ causeText fault) 4

/-- Writes what a program wrote to files. -/
def saveTargets (written : List (String × Edit.Output)) : Running Unit :=
  written.forM fun (p, o) => do
    match systemDescriptor? p with
    | some d => discard <| write d o.text
    | none => discard <| changeFiles fun files cwd => files.write cwd (Shell.path p) (toBytes o.text)

/-- The contents of the files that a program reads. -/
def readSources (paths : List String) : Running (List (String × String)) := do
  let mut known : List (String × String) := []
  for p in paths do
    match ← operandText p with
    | .ok text => known := known ++ [(p, text)]
    | .error _ => pure ()
  return known

/-- How many bytes some lines take up. -/
def sizeOfLines (ls : List Edit.Line) : Nat :=
  ls.foldl (fun n l => n + (l.text.length + if l.ended then 1 else 0)) 0

/-- Gives back what was not used of the standard input, if that is a file. -/
def giveBack (ls : List Edit.Line) : Running Unit := do
  let s ← get
  match channel? s 0 with
  | some (i, c) =>
    match c.endpoint with
    | .file _ =>
      let offset := c.offset - sizeOfLines (ls.filter (·.file == "-"))
      set { s with channels := s.channels.setIfInBounds i { c with offset } }
    | _ => return
  | none => return

/-- Where the old contents of a file are kept: a suffix is added to its name, or each star stands for the name. -/
def backupPath (p suffix : String) : String :=
  if suffix.toList.contains '*' then
    String.join (suffix.toList.map fun c => if c == '*' then p else c.toString)
  else p ++ suffix

/-- Puts a text in place of a file, which stays executable if it was. -/
def replaceFile (through : Bool) (p text : String) : Running Unit :=
  discard <| changeFiles fun files cwd => do
    let executable : Bool := match files.lookup cwd (Shell.path p) with
      | .ok (.file _ executable) => executable
      | _ => false
    let place ← files.place cwd through (Shell.path p)
    return files.put place.loc (.file (toBytes text) executable)

/-! ### Editing -/

/-- Runs the program over the lines of all files together. -/
def editTogether (m : Edit.Machine) (paths : List String) : EditStep Nat := do
  let inputs ← paths.mapM fun p => do return (p, ← editInput m.mode.separator p)
  let isReadable (input : String × Except String (List Edit.Line)) : Bool :=
    match input.2 with
    | .ok _ => true
    | .error cause => cause != directoryCause
  let lines := (inputs.takeWhile isReadable).flatMap fun input => input.2.toOption.getD []
  let (status, m) := { m with rest := lines }.runLines Edit.Machine.maxCommands false
  if m.lost then EditStep.fail "-e expression #1, char 0: no previous regular expression" 1
  saveTargets m.written
  let missing ← tryCatch (refuseInputs (status.map fun _ => lines.length - m.rest.length) 0 inputs) fun status => do
    print m.out.text
    throw status
  print m.out.text
  if status.isSome then giveBack m.rest
  return if missing then 2 else status.getD 0

def checkReplaceable (p : String) : EditStep Unit := do
  let s ← get
  match s.host.files.lookup s.cwd (Shell.path p) with
  | .ok (.file ..) | .error _ => return
  | .ok _ => EditStep.fail ("couldn't edit " ++ p ++ ": not a regular file") 4

/-- Runs the program over each file by itself. A suffix says that files are replaced. -/
def editEach (suffix : Option String) (through : Bool) (spans : Array Edit.Span) (m : Edit.Machine)
    (paths : List String) : EditStep Nat := do
  let sources := m.toTake
  let mut m := m
  let mut missing := false
  let mut ending : Option Nat := none
  for p in paths do
    if ending.isNone then
      if suffix.isSome then checkReplaceable p
      let input ← if suffix.isSome && p == "-" then pure (.error (causeText (.ofKind .notFound)))
        else editInput m.mode.separator p
      match input with
      | .error cause => do
        refuseInput p cause
        missing := true
      | .ok lines => do
        let out : Edit.Output := if suffix.isSome then {} else m.out.add m.mode.separator ""
        let (status, after) :=
          { m with rest := lines, number := 0, held := "", spans, toTake := sources, out }.runLines
            Edit.Machine.maxCommands false
        m := after
        ending := status
        if m.lost then EditStep.fail "-e expression #1, char 0: no previous regular expression" 1
        if let some suffix := suffix then do
          if suffix != "" then
            let s ← get
            let old := (s.host.files.read s.cwd (Shell.path p)).toOption.getD []
            replaceFile false (backupPath p suffix) (ofBytes old)
          replaceFile through p m.out.text
  saveTargets m.written
  if suffix.isNone then print m.out.text
  return if missing then 2 else ending.getD 0

def editFiles (g : Given) : EditStep Nat := do
  let given ← editParts false g.options
  let (parts, operands) : List Edit.Part × List String := match given, g.operands with
    | [], text :: rest => ([⟨none, text, g.has 'E' || g.has 'r'⟩], rest)
    | _, operands => (given, operands)
  let p ← match Edit.Program.read parts with
    | .ok p => pure p
    | .error reason => EditStep.fail reason 1
  if let some label := p.lostLabel? then
    EditStep.fail ("can't find label for jump to \x60" ++ label ++ "'") 4
  let suffix := g.value? 'i'
  let targets := if suffix.isSome then p.targets else p.targets.filter (· != "/dev/stdout")
  clearTargets targets
  let separator := if g.has 'z' then '\x00' else '\n'
  let width := match g.value? 'l' with
    | some n => frontNumber n
    | none => 70
  let sources ← readSources p.lineSources
  let m : Edit.Machine :=
    { program := p, mode := ⟨g.has 'n' || p.silent, separator, width⟩, rest := [], spans := p.spans
      written := targets.map (·, {}), known := ← readSources p.sources
      toTake := sources.map fun (path, text) => (path, Edit.Machine.linesOf separator path text) }
  if suffix.isSome && operands.isEmpty then EditStep.fail "no input files" 4
  let operands := if operands.isEmpty then ["-"] else operands
  if suffix.isSome || g.has 's' then editEach suffix (g.has 'F') p.spans m operands
  else editTogether m operands

def sed : Action := fun args => do
  match editOptions.read args with
  | .error reason => refuseEdit (some reason)
  | .ok g =>
    if g.has 'h' then
      print editUsage
      return 0
    else if g.has 'V' then
      print "sed (GNU sed) 4.9\n"
      return 0
    else if g.operands.isEmpty && !g.has 'e' && !g.has 'f' then refuseEdit none
    else
      match ← (editFiles g).run with
      | .ok status | .error status => return status

end Tool

end Script

end Recompile

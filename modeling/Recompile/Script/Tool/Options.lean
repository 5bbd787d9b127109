import Recompile.Script.Shell

/-!
# Options of tools

A tool is a program that scripts may count on. Its options are letters after a dash, several of which may stand
together, or names after two dashes; what is no option is an operand.
-/

namespace Recompile

namespace Script

namespace Tool

/-- **What a tool was given:** its options with their values, in order, and its operands. -/
structure Given where
  options : List (Char × String) := []
  operands : List String := []

namespace Given

def has (g : Given) (c : Char) : Bool := g.options.any (·.1 == c)

/-- The last value of an option. -/
def value? (g : Given) (c : Char) : Option String := (g.options.reverse.find? (·.1 == c)).map (·.2)

def values (g : Given) (c : Char) : List String := (g.options.filter (·.1 == c)).map (·.2)

def addOption (g : Given) (c : Char) (value : String) : Given := { g with options := (c, value) :: g.options }

def addOperand (g : Given) (a : String) : Given := { g with operands := a :: g.operands }

end Given

/-- **Which options a tool has:** letters without a value, letters with one, and names that stand for letters. -/
structure Options where
  flags : String := ""
  valued : String := ""
  /-- The letters with a value that is only there if it follows at once. -/
  attached : String := ""
  names : List (String × Char) := []
  /-- Whether options may also stand after operands. -/
  anywhere : Bool := true
  /-- Whether a dash in front of a digit or a point belongs to a number. -/
  numbers : Bool := false

namespace Options

/-- The complaint about a letter that is no option. -/
def unknownLetter (c : Char) : String := "invalid option -- '" ++ c.toString ++ "'"

/-- Takes the options from a group of letters; `next` is what follows the group. -/
def letters (o : Options) : List Char → List String → Except String (List (Char × String) × List String)
  | [], next => .ok ([], next)
  | c :: rest, next =>
    if o.flags.toList.contains c then do
      let (found, next) ← letters o rest next
      return ((c, "") :: found, next)
    else if o.valued.toList.contains c then
      match rest, next with
      | [], [] => .error ("option requires an argument -- '" ++ c.toString ++ "'")
      | [], value :: next => .ok ([(c, value)], next)
      | _, _ => .ok ([(c, String.ofList rest)], next)
    else if o.attached.toList.contains c then .ok ([(c, String.ofList rest)], next)
    else .error (unknownLetter c)

/-- The option that a name stands for: it is given whole, or by a part at its start that no other option has. -/
def named? (o : Options) (arg name : String) : Except String (String × Char) :=
  match o.names.find? (·.1 == name), o.names.filter (·.1.startsWith name) with
  | some n, _ => .ok n
  | none, [] => .error ("unrecognized option '" ++ arg ++ "'")
  | none, n :: ns =>
    if ns.all (·.2 == n.2) then .ok n
    else
      .error ("option '" ++ arg ++ "' is ambiguous; possibilities:" ++
        String.join ((n :: ns).map fun m => " '--" ++ m.1 ++ "'"))

def named (o : Options) (arg : String) (next : List String) :
    Except String (List (Char × String) × List String) := do
  let (front, value) := (arg.toList.drop 2).span (· != '=')
  let (name, c) ← o.named? arg (String.ofList front)
  if o.valued.toList.contains c then
    match value, next with
    | _ :: value, _ => return ([(c, String.ofList value)], next)
    | [], value :: next => return ([(c, value)], next)
    | [], [] => throw ("option '--" ++ name ++ "' requires an argument")
  else if o.attached.toList.contains c then return ([(c, String.ofList (value.drop 1))], next)
  else if value.isEmpty then return ([(c, "")], next)
  else throw ("option '--" ++ name ++ "' doesn't allow an argument")

/-- Reads arguments; `fuel` bounds their number. -/
def readUpTo (o : Options) : (fuel : Nat) → List String → Except String Given
  | 0, args => .ok { operands := args }
  | _ + 1, [] => .ok {}
  | fuel + 1, arg :: rest =>
    if arg = "--" then .ok { operands := rest }
    else
      match arg.toList with
      | '-' :: '-' :: _ => do
        let (found, rest) ← o.named arg rest
        let g ← readUpTo o fuel rest
        return { g with options := found ++ g.options }
      | '-' :: c :: cs => do
        if o.numbers && (c.isDigit || c == '.') then return { operands := arg :: rest }
        let (found, rest) ← o.letters (c :: cs) rest
        let g ← readUpTo o fuel rest
        return { g with options := found ++ g.options }
      | _ =>
        if o.anywhere then (readUpTo o fuel rest).map (·.addOperand arg)
        else .ok { operands := arg :: rest }

/-- **Reads the arguments of a tool.** -/
def read (o : Options) (args : List String) : Except String Given := o.readUpTo (args.length + 1) args

end Options

/-! ### Tools -/

/-- **A tool:** what it does for some arguments, and its status. -/
abbrev Action := List String → Running Nat

/-- How a tool refers to itself: by the path by which it was called, if it was called by one. -/
def calledName (name : String) : Running String := do
  let called := (← get).name
  return if called.endsWith ("/" ++ name) then called else name

/-- Says what is wrong with the work of a tool. -/
def complain (name reason : String) : Running Unit := do
  printError ((← calledName name) ++ ": " ++ reason ++ "\n")

/-- Says what is wrong, and returns a status. -/
def failWith (name reason : String) (status : Nat) : Running Nat := do
  complain name reason
  return status

/-- Says what is wrong with the arguments of a tool. -/
def misuse (name reason : String) (status : Nat) : Running Nat := do
  complain name reason
  printError ("Try '" ++ (← calledName name) ++ " --help' for more information.\n")
  return status

def withOptions (name : String) (o : Options) (status : Nat) (body : Given → Running Nat) : Action := fun args =>
  match o.read args with
  | .ok g => body g
  | .error reason => misuse name reason status

def missingOperand (name : String) (status : Nat) : Running Nat := misuse name "missing operand" status

/-- A text in quotes as messages show it. -/
def shown (s : String) : String := "'" ++ s ++ "'"

/-- Runs a step for each of some operands, and returns the greatest status. -/
def forEach (operands : List String) (body : String → Running Nat) : Running Nat := do
  let mut status := 0
  for a in operands do
    status := max status (← body a)
  return status

/-! ### Input -/

/-- As much of the file that never ends as a tool takes. -/
def endlessPart : String := String.ofList (List.replicate 65536 '\x00')

/-- The text that an operand names, or why it cannot be read. -/
def operandText (p : String) : Running (Except String String) := do
  if p = "-" ∨ p = "/dev/stdin" then return .ok (← readAll 0)
  else if p = nullPath then return .ok ""
  else if p = "/dev/zero" then return .ok endlessPart
  else
    let s ← get
    match s.host.files.read s.cwd (Shell.path p) with
    | .ok data => return .ok (ofBytes data)
    | .error fault => return .error (causeText fault)

/-- The operands that name input, of which there is at least one. -/
def inputs (g : Given) : List String := if g.operands.isEmpty then ["-"] else g.operands

/-- The lines of a text without their ends. -/
def linesOf (s : String) : List String :=
  let pieces := (s.toList.splitOn '\n').map String.ofList
  if pieces.getLast? == some "" then pieces.dropLast else pieces

/-- The texts of all operands; what cannot be read is complained about. -/
def inputTexts (name : String) (wording : String → String → String) (operands : List String) :
    Running (List String × Nat) := do
  let mut texts : List String := []
  let mut status := 0
  for p in operands do
    match ← operandText p with
    | .ok t => texts := texts ++ [t]
    | .error cause => do
      complain name (wording p cause)
      status := 1
  return (texts, status)

def inputText (name : String) (wording : String → String → String) (operands : List String) :
    Running (String × Nat) := do
  let (texts, status) ← inputTexts name wording operands
  return (String.join texts, status)

def inputLines (name : String) (wording : String → String → String) (operands : List String) :
    Running (List String × Nat) := do
  let (texts, status) ← inputTexts name wording operands
  return (texts.flatMap linesOf, status)

/-- The lines of a text with their ends, as far as they have one. -/
def endedLines (s : String) : List String :=
  let pieces := (s.toList.splitOn '\n').map String.ofList
  match pieces.getLast? with
  | none | some "" => pieces.dropLast.map (· ++ "\n")
  | some last => pieces.dropLast.map (· ++ "\n") ++ [last]

/-- Lines with their ends. -/
def unlines (ls : List String) : String := String.join (ls.map (· ++ "\n"))

/-- The number that a text of digits is. -/
def digits? (s : String) : Option Nat := if s != "" && s.all Char.isDigit then s.toNat? else none

end Tool

end Script

end Recompile

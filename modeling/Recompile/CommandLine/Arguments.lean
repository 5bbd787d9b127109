import Recompile.Path

/-!
# Arguments of the command line

The arguments name one command, with options before and after it. Options that hold for every command may
stand on either side, and the one nearer to the command counts. An option is given at most once on each side.
Reading stops at the first argument that cannot be right, and at a request for help or the version.
-/

namespace Recompile

namespace CommandLine

/-- **What the program is asked to do.** -/
inductive Command
  /-- Print the key of the bridge. -/
  | key
  /-- Make the bridge and print its path. -/
  | bridge (version : Option String)
  /-- Summarise a store. -/
  | analysis (store : Path) (sources : Bool)
  /-- Show what is known of entries of the classpath. -/
  | lookup (entries : List Path) (className : Option String)

/-- **The arguments as they are understood.** -/
structure Invocation where
  quiet : Bool
  verbose : Bool
  /-- The configuration file, or the directory of it. -/
  config : Option String
  command : Command

/-- Why there is nothing to do. -/
inductive Refusal
  | version
  | help
  | misuse

/-! ### Options -/

/-- An option by its long name, with its letter if it has one. -/
structure OptionSpec where
  name : String
  letter : Option Char := none
  takesValue : Bool := false

def commonOptions : List OptionSpec :=
  [{ name := "quiet", letter := some 'q' }, { name := "verbose", letter := some 'v' },
    { name := "config", takesValue := true }, { name := "help", letter := some 'h' }]

def mainOptions : List OptionSpec := { name := "version", letter := some 'V' } :: commonOptions

/-- What was found on one side of the command: the options with their values, and the other arguments. -/
structure Found where
  options : List (String × String) := []
  positionals : List String := []

namespace Found

def has (f : Found) (name : String) : Bool := (f.options.lookup name).isSome

def value? (f : Found) (name : String) : Option String := f.options.lookup name

/-- Notes an option. -/
def add (f : Found) (name value : String) : Except Refusal Found :=
  if name = "version" then .error .version
  else if name = "help" then .error .help
  else if f.has name then .error .misuse
  else .ok { f with options := (name, value) :: f.options }

/-- Notes an argument that is no option. It must not be empty, and there may be at most so many. -/
def addPositional (most : Option Nat) (arg : String) (f : Found) : Except Refusal Found :=
  if arg = "" ∨ most.any (· ≤ f.positionals.length) then .error .misuse
  else .ok { f with positionals := f.positionals ++ [arg] }

def addLetters (specs : List OptionSpec) : List Char → Found → Except Refusal Found
  | [], f => .ok f
  | c :: rest, f =>
    match specs.find? fun s => s.letter == some c with
    | some s => do addLetters specs rest (← f.add s.name "")
    | none => .error .misuse

end Found

/-- Whether an argument can be the value of an option that comes before it. -/
def isValue (arg : String) : Bool := arg == "-" || arg.toList.head? != some '-'

/-- An argument that starts with two dashes, split at its first equals sign. -/
def longOption? (arg : String) : Option (String × Option String) :=
  match arg.toList with
  | '-' :: '-' :: cs =>
    match cs.span (· != '=') with
    | (name, _ :: value) => some (String.ofList name, some (String.ofList value))
    | (name, []) => some (String.ofList name, none)
  | _ => none

/-- Which arguments may stand on one side of the command. -/
structure SideSpec where
  options : List OptionSpec
  /-- Whether the command comes after this side. -/
  before : Bool := false
  /-- How many arguments that are no options there may be, if that is limited. -/
  most : Option Nat := none

/-- Reads the arguments on one side of the command. Before it, reading stops at the first argument that is no
option; the arguments from there on are returned. -/
def readSide (side : SideSpec) : List String → Found → Except Refusal (Found × List String)
  | [], f => .ok (f, [])
  | arg :: rest, f =>
    if arg = "--" then
      if side.before then .error .misuse
      else do return (← rest.foldlM (fun f arg => f.addPositional side.most arg) f, [])
    else if isValue arg then
      if side.before then .ok (f, arg :: rest)
      else do readSide side rest (← f.addPositional side.most arg)
    else
      match longOption? arg with
      | none => do readSide side rest (← f.addLetters side.options (arg.toList.drop 1))
      | some (name, value) =>
        match side.options.find? fun s => s.name == name with
        | none => .error .misuse
        | some s =>
          match s.takesValue, value, rest with
          | false, none, rest => do readSide side rest (← f.add name "")
          | false, some _, _ => .error .misuse
          | true, some value, rest => do readSide side rest (← f.add name value)
          | true, none, value :: rest =>
            if isValue value then do readSide side rest (← f.add name value) else .error .misuse
          | true, none, [] => .error .misuse

/-! ### Commands -/

def afterCommand? : String → Option SideSpec
  | "key" => some { options := commonOptions, most := some 0 }
  | "bridge" =>
    some { options := { name := "bridge-version", takesValue := true } :: commonOptions, most := some 0 }
  | "analysis" => some { options := { name := "sources", letter := some 's' } :: commonOptions, most := some 1 }
  | "lookup" => some { options := { name := "class", takesValue := true } :: commonOptions }
  | _ => none

def command (name : String) (f : Found) : Except Refusal Command :=
  match name, f.positionals with
  | "key", [] => .ok .key
  | "bridge", [] => .ok (.bridge (f.value? "bridge-version"))
  | "analysis", [store] => .ok (.analysis ⟨store⟩ (f.has "sources"))
  | "lookup", entry :: entries =>
    .ok (.lookup ((entry :: entries).map Path.mk) (f.value? "class"))
  | _, _ => .error .misuse

/-- Whether help is there for some names: for the program, for its commands and for help itself. -/
def hasHelp : List String → Bool
  | [] => true
  | [name] => name == "help" || (afterCommand? name).isSome
  | _ => false

/-- **Reads the arguments.** -/
def parse (args : List String) : Except Refusal Invocation := do
  let (outer, rest) ← readSide { options := mainOptions, before := true } args {}
  match rest with
  | [] => throw .misuse
  | "help" :: names => throw (if hasHelp names then .help else .misuse)
  | name :: rest =>
    match afterCommand? name with
    | none => throw .misuse
    | some side =>
      let (inner, _) ← readSide side rest {}
      return {
        quiet := outer.has "quiet" || inner.has "quiet"
        verbose := outer.has "verbose" || inner.has "verbose"
        config := inner.value? "config" <|> outer.value? "config"
        command := ← command name inner }

end CommandLine

end Recompile

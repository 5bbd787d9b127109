import Recompile.Script.Condition
import Recompile.Script.Expansion
import Recompile.Script.Format

/-!
# Commands of the shell itself

The commands that change the shell or tell about it and need no other command to be run. Each gets its
arguments and leaves its status.
-/

namespace Recompile

namespace Script

namespace Builtin

/-- **A command of the shell:** what it does for some arguments. -/
abbrev Action := List String → Running Unit

def succeed : Running Unit := setStatus 0

/-- The number that an argument has to be. -/
def number (a : String) : Running Nat := do
  match Condition.integer a with
  | .ok n => if 0 ≤ n && n ≤ maxNumber then return n.toNat else fault ("Illegal number: " ++ a)
  | .error reason => fault reason

/-- The text that reads back as some characters: quotes stand in double quotes, all else between quotes. `fuel`
bounds their number. -/
def quotedChars : (fuel : Nat) → List Char → List Char
  | 0, _ => []
  | fuel + 1, cs =>
    let (front, rest) := cs.span (· != '\'')
    let (quotes, rest) := rest.span (· == '\'')
    ['\''] ++ front ++ ['\''] ++ (if quotes.isEmpty then [] else ['"'] ++ quotes ++ ['"']) ++
      if rest.isEmpty then [] else quotedChars fuel rest

/-- The text that reads back as a value. -/
def quotedValue (s : String) : String := String.ofList (quotedChars (s.length + 1) s.toList)

/-- The options at the front of some arguments, and the rest. `letters` are the options that there are, each with
a colon if it takes a value; `fuel` bounds the number of arguments. -/
def options (letters : List Char) : (fuel : Nat) → List String → Running (List (Char × String) × List String)
  | 0, args => return ([], args)
  | _ + 1, [] => return ([], [])
  | fuel + 1, a :: rest => do
    match a.toList with
    | ['-', '-'] => return ([], rest)
    | '-' :: c :: cs => do
      match letters.dropWhile (· != c) with
      | _ :: ':' :: _ =>
        if c == ':' then fault ("Illegal option -" ++ c.toString)
        match cs, rest with
        | [], [] => fault ("No arg for -" ++ c.toString ++ " option")
        | [], value :: rest => do
          let (found, others) ← options letters fuel rest
          return ((c, value) :: found, others)
        | _, _ => do
          let (found, others) ← options letters fuel rest
          return ((c, String.ofList cs) :: found, others)
      | [] => fault ("Illegal option -" ++ c.toString)
      | _ => do
        let (found, others) ← options letters fuel (if cs.isEmpty then rest else String.ofList ('-' :: cs) :: rest)
        return ((c, "") :: found, others)
    | _ => return ([], a :: rest)

/-- A command that reads its options first. -/
def withOptions (letters : String) (body : List (Char × String) → List String → Running Unit) : Action := fun args => do
  let (found, rest) ← options letters.toList ((String.join args).length + 2) args
  body found rest

/-! ### Arguments and options -/

/-- Drops arguments. -/
def shift : Action := fun args => do
  let count ← match args with
    | [] => pure 1
    | a :: _ => number a
  let s ← get
  if s.args.length < count then fault "can't shift that many"
  set (startOptionsAt 1 { s with args := s.args.drop count, status := 0 })

def optionNames : List (String × Char) :=
  [("errexit", 'e'), ("noglob", 'f'), ("ignoreeof", 'I'), ("interactive", 'i'), ("monitor", 'm'), ("noexec", 'n'),
    ("stdin", 's'), ("xtrace", 'x'), ("verbose", 'v'), ("vi", 'V'), ("emacs", 'E'), ("noclobber", 'C'),
    ("allexport", 'a'), ("notify", 'b'), ("nounset", 'u')]

def switch (on : Bool) (flag : Char) : Running Unit :=
  modify fun s =>
    let others := s.flags.filter (· != flag)
    { s with flags := if on then others ++ [flag] else others }

/-- Switches the options of a group of letters, and returns whether one is missing its name. -/
def switchLetters (on : Bool) : List Char → Running Bool
  | [] => return false
  | 'o' :: rest => do
    discard <| switchLetters on rest
    return true
  | c :: rest => do
    if !(optionNames.any (·.2 == c)) then
      fault ("Illegal option " ++ (if on then "-" else "+") ++ c.toString)
    switch on c
    switchLetters on rest

def switchNamed (on : Bool) (name : String) : Running Unit :=
  match optionNames.lookup name with
  | some c => switch on c
  | none => if name = "nolog" ∨ name = "debug" then pure ()
      else fault ("Illegal option " ++ (if on then "-o " else "+o ") ++ name)

/-- Reads options up to the first argument that is none; the rest are the arguments, if there are any or a mark
for them. -/
def readFlags : (fuel : Nat) → List String → Running (Option (List String))
  | 0, _ => return none
  | _ + 1, [] => return none
  | fuel + 1, a :: rest => do
    if a = "--" then return some rest
    match a.toList with
    | sign :: cs =>
      if sign == '-' || sign == '+' then
        let on := sign == '-'
        if cs.isEmpty then
          if on then
            discard <| switchLetters false ['x', 'v']
            return if rest.isEmpty then none else some rest
          else readFlags fuel rest
        else if ← switchLetters on cs then
          match rest with
          | name :: rest => do
            switchNamed on name
            readFlags fuel rest
          | [] => return none
        else readFlags fuel rest
      else return some (a :: rest)
    | [] => return some (a :: rest)

/-- Switches options and sets arguments, or shows all parameters. -/
def set_ : Action := fun args => do
  succeed
  if args.isEmpty then
    let s ← get
    for (name, b) in s.bindings.entries do
      match b.value with
      | some v => print (name ++ "=" ++ quotedValue v ++ "\n")
      | none => pure ()
  else
    match ← readFlags (args.length + 1) args with
    | some rest => modify fun s => startOptionsAt 1 { s with args := rest }
    | none => pure ()

/-! ### Parameters -/

/-- Marks parameters, some of which get a value. -/
def declare (word : String) (mark : Binding → Binding) (isMarked : Binding → Bool) : Action :=
    withOptions "p" fun found names => do
  succeed
  if names.isEmpty || !found.isEmpty then
    for (name, b) in (← get).bindings.entries do
      if isMarked b then
        print (word ++ " " ++ name ++ (match b.value with
          | some v => "=" ++ quotedValue v
          | none => "") ++ "\n")
  else
    for a in names do
      match splitAssignment? a with
      | some (name, value) => do
        assign name value
        changeBinding name mark
      | none =>
        if !isName a then fault (String.ofList (a.toList.takeWhile (· != '=')) ++ ": bad variable name")
        changeBinding a mark

/-- Gives parameters to programs. -/
def export_ : Action := declare "export" (fun b => { b with exported := true }) Binding.exported

/-- Fixes the values of parameters. -/
def readonly : Action := declare "readonly" (fun b => { b with readOnly := true }) Binding.readOnly

/-- Takes away parameters or functions. -/
def unset_ : Action := withOptions "vf" fun found names => do
  succeed
  for name in names do
    if found.getLast?.map (·.1) == some 'f' then modify fun s => { s with functions := s.functions.erase name }
    else if !isName name then fault (name ++ ": bad variable name")
    else unset name

/-- Gives a function parameters for itself. -/
def local_ : Action := fun args => do
  succeed
  match (← get).frames with
  | [] => fault "not in a function"
  | _ =>
    for a in args do
      let (name, value) := match splitAssignment? a with
        | some (name, value) => (name, some value)
        | none => (a, none)
      if !isName name then fault (name ++ ": bad variable name")
      modify fun s =>
        match s.frames with
        | frame :: frames =>
          if frame.any (·.1 == name) then s
          else { s with frames := ((name, s.bindings.get? name) :: frame) :: frames }
        | [] => s
      match value with
      | some v => assign name v
      | none => pure ()

/-! ### Input and output -/

/-- Prints its arguments. -/
def echo : Action := fun args => do
  print (echoed args)
  succeed

/-- Prints its arguments the way a format says. -/
def printf : Action := withOptions "" fun _ args => do
  match args with
  | [] => fault "usage: printf format [arg ...]"
  | format :: args => do
    let p := formatted format args
    for c in p.complaints do
      complain c
    print p.out
    setStatus p.status

/-- A character of input, and whether a backslash was in front of it. -/
abbrev Typed := Char × Bool

/-- Reads the characters of a line; a backslash takes the meaning from the next character and joins lines. -/
def typedLine (keep : Bool) : (fuel : Nat) → Running (List Typed × Bool)
  | 0 => return ([], false)
  | fuel + 1 => do
    let (line, ended) ← readLine 0
    if keep then return (line.toList.map (·, false), ended)
    let rec unquote : List Char → List Typed × Bool
      | ['\\'] => ([], true)
      | '\\' :: c :: rest =>
        let (ts, joins) := unquote rest
        ((c, true) :: ts, joins)
      | c :: rest =>
        let (ts, joins) := unquote rest
        ((c, false) :: ts, joins)
      | [] => ([], false)
    let (ts, joins) := unquote line.toList
    if joins && ended then
      let (more, ended) ← typedLine keep fuel
      return (ts ++ more, ended)
    else return (ts, ended)

/-- Whether a character is a blank among some separators. -/
def isSpace (separators : List Char) (t : Typed) : Bool :=
  !t.2 && separators.contains t.1 && standardSeparators.toList.contains t.1

/-- Splits characters into so many values, of which the last one takes the rest. -/
def splitTyped (separators : List Char) : (count : Nat) → List Typed → List String
  | 0, _ => []
  | 1, ts =>
    let ts := ts.dropWhile (isSpace separators)
    let core := (ts.reverse.dropWhile (isSpace separators)).reverse
    let isSeparator (t : Typed) : Bool := !t.2 && separators.contains t.1
    let core := match core.reverse with
      | t :: before => if isSeparator t && !before.any isSeparator then before.reverse else core
      | [] => core
    [String.ofList (core.map (·.1))]
  | count + 2, ts =>
    let ts := ts.dropWhile (isSpace separators)
    let (front, rest) := ts.span fun t => t.2 || !separators.contains t.1
    let rest := rest.dropWhile (isSpace separators)
    let rest := match rest with
      | t :: more => if !t.2 && separators.contains t.1 then more else rest
      | [] => rest
    String.ofList (front.map (·.1)) :: splitTyped separators (count + 1) rest

/-- Reads a line into parameters. -/
def read : Action := withOptions "p:r" fun found names => do
  if names.isEmpty then fault "arg count"
  match names.find? fun n => !isName n with
  | some n => fault (n ++ ": bad variable name")
  | none => do
    let (ts, ended) ← typedLine (found.any (·.1 == 'r')) 1000
    let values := splitTyped (← get).separators names.length ts
    for (name, value) in names.zip values do
      assign name value
    setStatus (if ended then 0 else 1)

/-! ### Directories -/

/-- The parts of a path without detours: `.` is dropped, and `..` takes back the part before. -/
def directParts (p : String) : List String :=
  (((p.toList.splitOn '/').map String.ofList).foldl (fun (parts : List String) part =>
    if part = "" ∨ part = "." then parts
    else if part = ".." then parts.tail
    else part :: parts) []).reverse

/-- Goes to another directory. -/
def cd : Action := withOptions "LP" fun _ args => do
  let s ← get
  let (goal, shows) ← match args with
    | [] => pure ((s.get? "HOME").getD "", false)
    | "-" :: _ => pure ((s.get? "OLDPWD").getD s.cwdName, true)
    | p :: _ => pure (p, false)
  let full := if goal.toList.head? == some '/' then goal else s.cwdName ++ "/" ++ goal
  let name := "/" ++ "/".intercalate (directParts full)
  match s.host.files.place s.cwd true (Shell.path (if goal = "" then "." else full)),
      s.host.files.place s.cwd true (Shell.path name) with
  | .ok ⟨_, some .dir⟩, .ok ⟨loc, some .dir⟩ => do
    let name := if goal = "" then s.cwdName else name
    set { s with cwd := if goal = "" then s.cwd else loc, cwdName := name, status := 0 }
    changeBinding "OLDPWD" fun b => { b with value := some s.cwdName }
    changeBinding "PWD" fun b => { b with value := some name }
    if shows then print (name ++ "\n")
  | _, _ => fault ("can't cd to " ++ goal)

/-- Shows the working directory. -/
def pwd : Action := withOptions "LP" fun found _ => do
  let s ← get
  print ((if found.getLast?.map (·.1) == some 'P' then raw ("/" ++ "/".intercalate s.cwd) else s.cwdName) ++ "\n")
  succeed

/-! ### Signals -/

/-- The name by which a signal is listed. One without a name of its own goes by its number. -/
def listedName (n : Nat) : String :=
  if n = 0 then "EXIT"
  else if n = 34 then "RTMIN"
  else if 34 < n ∧ n < 50 then "RTMIN+" ++ toString (n - 34)
  else if 50 ≤ n ∧ n < maxSignal then "RTMAX-" ++ toString (maxSignal - n)
  else if n = maxSignal then "RTMAX"
  else if n = 16 then toString n
  else (signalName? n).getD (toString n)

/-- The number of a signal by its number or its name. -/
def signal? (s : String) : Option Nat :=
  if s != "" && s.all Char.isDigit then s.toNat?.filter (· ≤ maxSignal)
  else (List.range (maxSignal + 1)).find? fun n => listedName n == s.map Char.toUpper

/-- The complaint of `kill` about its arguments. -/
def killUsage : String :=
  "Usage: kill [-s sigspec | -signum | -sigspec] [pid | job]... or\nkill -l [exitstatus]"

def sendAll (signal : Nat) (ids : List String) : Running Unit := do
  if ids.isEmpty then fault killUsage
  succeed
  for id in ids do
    let s ← get
    if id = toString s.number ∨ id = "0" then send s.number signal
    else if id = toString s.parent then send s.parent signal
    else if s.jobs.any (fun j => toString j.1 == id) || id.toList.head? == some '%' then pure ()
    else if id.all Char.isDigit then
      complain "No such process\n"
      setStatus 1
    else fault ("Illegal number: " ++ id)

/-- Sends a signal. -/
def kill : Action := fun args => do
  match args with
  | [] => fault killUsage
  | ["-l"] => do
    print (String.join ((List.range (maxSignal + 1)).map fun n => (if n = 0 then "0" else listedName n) ++ "\n"))
    succeed
  | "-l" :: n :: _ => do
    let n ← number n
    print (listedName (if 128 < n then n - 128 else n) ++ "\n")
    succeed
  | "-s" :: name :: ids =>
    match signal? name with
    | some signal => sendAll signal ids
    | none => fault ("invalid signal number or name: " ++ name)
  | "--" :: ids => sendAll 15 ids
  | option :: ids =>
    match option.toList with
    | '-' :: c :: cs =>
      match signal? (String.ofList (c :: cs)) with
      | some signal => sendAll signal ids
      | none => fault ("Illegal option -" ++ c.toString)
    | _ => sendAll 15 (option :: ids)

/-- Says what is to be done at signals. -/
def trap : Action := withOptions "" fun _ args => do
  succeed
  let change (action : Option String) (names : List String) : Running Unit := do
    for name in names do
      match signal? name with
      | none => do
        printError ("trap: " ++ name ++ ": bad trap\n")
        setStatus 1
      | some n =>
        modify fun s =>
          let others := s.traps.filter (·.1 != n)
          { s with traps := match action with
              | some a => others ++ [(n, a)]
              | none => others }
  match args with
  | [] => do
    for (n, a) in (← get).traps.mergeSort fun a b => a.1 ≤ b.1 do
      print ("trap -- " ++ quotedValue a ++ " " ++ listedName n ++ "\n")
  | [name] => change none [name]
  | action :: names =>
    if action = "-" ∨ (action != "" && action.all Char.isDigit) then
      change none (if action = "-" then names else action :: names)
    else change (some action) names

/-! ### Control -/

def loopCount (args : List String) : Running Nat := do
  match args with
  | [] => return 1
  | a :: _ =>
    let n ← number a
    if n = 0 then fault ("Illegal number: " ++ a)
    return n

/-- Leaves loops. -/
def break_ : Action := fun args => do
  let n ← loopCount args
  let s ← get
  succeed
  if s.loops = 0 then return
  throw (.leaveLoops (min n s.loops))

/-- Goes on with the next round of a loop. -/
def continue_ : Action := fun args => do
  let n ← loopCount args
  let s ← get
  succeed
  if s.loops = 0 then return
  throw (.nextRound (min n s.loops))

/-- Sets the status that is given, if one is. -/
def givenStatus (args : List String) : Running Unit := do
  match args with
  | [] => return
  | a :: _ => setStatus (← number a)

/-- Leaves a function. -/
def return_ : Action := fun args => do
  givenStatus args
  throw .leaveFunction

/-- Leaves the shell. Without another status it is that of the last command, or that before the trap that runs. -/
def exit : Action := fun args => do
  modify fun s => { s with status := s.statusBefore.getD s.status }
  givenStatus args
  modify fun s => { s with status := s.status % 256 }
  throw .exit

/-! ### Others -/

def condition (name : String) : Action := fun args => do
  let s ← get
  if name = "[" ∧ args.getLast? ≠ some "]" then fault "missing ]"
  let operands := if name = "[" then args.dropLast else args
  match Condition.evaluate s (operands.length + 1) operands with
  | .ok holds => setStatus (if holds then 0 else 1)
  | .error reason => fault reason

/-- Waits for commands in the background, which are over already. -/
def wait : Action := withOptions "" fun _ args => do
  let s ← get
  match args with
  | [] => succeed
  | ids => do
    let status := ids.foldl (fun _ id =>
      match s.jobs.find? fun j => toString j.1 == id with
      | some j => j.2
      | none => if id.toList.head? == some '%' then (s.jobs.head?.map (·.2)).getD 0 else 127) 0
    setStatus status

/-! ### Options of scripts -/

/-- What `getopts` finds: the letter it stands for, its value, what is printed, how many arguments are used up, and
the place within a group. There is no value where that is to be taken away. -/
structure NextOption where
  letter : Char
  value : Option (Option String) := none
  complaint : String := ""
  index : Nat
  offset : Option Nat := none
  isLast : Bool := false

/-- The letters of an option with what follows it in the options that there are. -/
def optionAfter? (c : Char) : List Char → Option (List Char)
  | [] => none
  | d :: rest =>
    if d == c then some rest
    else
      match rest with
      | ':' :: rest => optionAfter? c rest
      | rest => optionAfter? c rest

/-- **The next option** among some arguments. -/
def nextOption (options : String) (given : List String) (index : Nat) (offset : Option Nat) : NextOption :=
  let silent := options.toList.head? == some ':'
  let inGroup : List Char :=
    match offset with
    | some n => if 1 < index then ((given[index - 2]?.getD "").toList.drop n) else []
    | none => []
  let fromGroup (cs : List Char) (index place : Nat) : NextOption :=
    match cs with
    | [] => { letter := '?', index, isLast := true }
    | c :: after =>
      match optionAfter? c options.toList with
      | none =>
        let found : NextOption := { letter := '?', index, offset := some place }
        if silent then { found with value := some (some c.toString) }
        else { found with value := some none, complaint := "Illegal option -" ++ c.toString ++ "\n" }
      | some (':' :: _) =>
        if !after.isEmpty then { letter := c, value := some (some (String.ofList after)), index }
        else
          match given[index - 1]? with
          | some value => { letter := c, value := some (some value), index := index + 1 }
          | none =>
            let found : NextOption := { letter := ':', value := some (some c.toString), index, offset := some place }
            if silent then found
            else
              { found with
                letter := '?'
                value := some none
                complaint := "No arg for -" ++ c.toString ++ " option\n" }
      | some _ => { letter := c, value := some (some ""), index, offset := some place }
  if !inGroup.isEmpty then fromGroup inGroup index (offset.getD 0 + 1)
  else
    match (given[index - 1]?.getD "").toList with
    | ['-', '-'] => { letter := '?', index := index + 1, isLast := true }
    | '-' :: c :: cs => fromGroup (c :: cs) (index + 1) 2
    | _ => { letter := '?', index, isLast := true }

/-- Takes the next option from arguments. -/
def getopts : Action := withOptions "" fun _ args => do
  match args with
  | options :: name :: rest => do
    let s ← get
    let given := if rest.isEmpty then s.args else rest
    let s := if given.length + 1 < s.optionIndex then startOptionsAt 1 s else s
    let found := nextOption options given s.optionIndex s.optionOffset
    printError found.complaint
    match found.value with
    | some (some value) => assign "OPTARG" value
    | some none => unset "OPTARG"
    | none => pure ()
    assignOnly "OPTIND" (toString found.index)
    if !isName name then fault (name ++ ": bad variable name")
    assign name found.letter.toString
    modify fun s => { s with optionIndex := found.index, optionOffset := found.offset }
    setStatus (if found.isLast then 1 else 0)
  | _ => fault "Usage: getopts optstring var [arg...]"

/-! ### Aliases -/

/-- What aliases are ordered by when all are shown. -/
def aliasKey (name : String) : Nat :=
  match name.toList with
  | [] => 0
  | c :: cs => (c.toNat * 16 + (c :: cs).foldl (fun sum d => sum + d.toNat) 0) % 39

def shownAlias (name text : String) : String := name ++ "=" ++ quotedValue text ++ "\n"

def withAlias (name text : String) (aliases : List (String × String)) : List (String × String) :=
  if aliases.any (·.1 == name) then aliases.map fun a => if a.1 == name then (name, text) else a
  else aliases ++ [(name, text)]

/-- Makes aliases, or shows them. -/
def alias_ : Action := fun args => do
  succeed
  let known := (← get).aliases
  if args.isEmpty then
    print (String.join ((known.mergeSort fun a b => aliasKey a.1 ≤ aliasKey b.1).map fun a => shownAlias a.1 a.2))
  for a in args do
    match a.toList.tail.span (· != '=') with
    | (name, _ :: text) =>
      modify fun s =>
        { s with aliases := withAlias (String.ofList (a.toList.take 1 ++ name)) (String.ofList text) s.aliases }
    | (_, []) =>
      match (← get).aliases.lookup a with
      | some text => print (shownAlias a text)
      | none => do
        printError ("alias: " ++ a ++ " not found\n")
        setStatus 1

/-- Takes away aliases. -/
def unalias : Action := withOptions "a" fun found names => do
  succeed
  if !found.isEmpty then modify fun s => { s with aliases := [] }
  else
    for name in names do
      if (← get).aliases.any (·.1 == name) then
        modify fun s => { s with aliases := s.aliases.filter (·.1 != name) }
      else
        printError ("unalias: " ++ name ++ " not found\n")
        setStatus 1

/-! ### Permissions -/

/-- The permissions that some letters stand for, for one class of users, given those of all classes. -/
def permissionsOf (granted : Nat) : List Char → Nat
  | [] => 0
  | c :: cs =>
    let own := match c with
      | 'r' => 4
      | 'w' => 2
      | 'x' => 1
      | 'X' => if granted % 2 = 1 ∨ granted / 8 % 2 = 1 ∨ granted / 64 % 2 = 1 then 1 else 0
      | 'u' => granted / 64 % 8
      | 'g' => granted / 8 % 8
      | 'o' => granted % 8
      | _ => 0
    own ||| permissionsOf granted cs

/-- The permissions after one clause was applied for some classes of users; `fuel` bounds its length. -/
def applyClause (whom : List Char) : (fuel : Nat) → (granted : Nat) → List Char → Option Nat
  | 0, granted, _ => some granted
  | _ + 1, granted, [] => some granted
  | fuel + 1, granted, operator :: cs =>
    if !"+-=".toList.contains operator then none
    else
      let (letters, rest) := cs.span fun c => "rwxXsugo".toList.contains c
      let one := permissionsOf granted letters
      let scale (unit : Nat) (c : Char) (n : Nat) : Nat :=
        if whom.contains c ∨ whom.contains 'a' ∨ whom.isEmpty then n * unit else 0
      let spread (n : Nat) : Nat := scale 64 'u' n + scale 8 'g' n + scale 1 'o' n
      let kept := granted &&& (511 - spread 7)
      let granted :=
        if operator == '+' then granted ||| spread one
        else if operator == '-' then granted &&& (511 - spread one)
        else kept ||| spread one
      applyClause whom fuel granted rest

/-- The permissions after a change that is given by its letters. -/
def applyMode (granted : Nat) (mode : String) : Option Nat :=
  ((mode.toList.splitOn ',').foldl (fun granted? clause =>
    granted?.bind fun granted =>
      let (whom, actions) := clause.span fun c => "ugoa".toList.contains c
      applyClause whom (actions.length + 1) granted actions) (some granted))

/-- Shows the permissions that new files do not get, or sets them. -/
def umask : Action := withOptions "S" fun found args => do
  succeed
  let granted := 511 - (← get).mask
  match args with
  | [] => do
    let octal := (Nat.toDigits 8 (511 - granted))
    let letters (n : Nat) : String :=
      (if 4 ≤ n then "r" else "") ++ (if 2 ≤ n % 4 then "w" else "") ++ (if n % 2 = 1 then "x" else "")
    print (if found.isEmpty then String.ofList (pad false '0' 4 octal) ++ "\n"
      else
        "u=" ++ letters (granted / 64 % 8) ++ ",g=" ++ letters (granted / 8 % 8) ++ ",o=" ++ letters (granted % 8) ++
          "\n")
  | mode :: _ =>
    if mode.toList.head?.any Char.isDigit then
      if mode.all fun c => '0' ≤ c && c ≤ '7' then
        modify fun s => { s with mask := Arithmetic.natOf 8 mode.toList % 512 }
      else fault ("Illegal number: " ++ mode)
    else
      match applyMode granted mode with
      | some granted => modify fun s => { s with mask := 511 - granted }
      | none => fault ("Illegal mode: " ++ mode)

/-- **The commands of the shell that need no other command to be run.** -/
def all : List (String × Action) :=
  [(":", fun _ => succeed), ("true", fun _ => succeed), ("false", fun _ => setStatus 1), ("[", condition "["),
    ("test", condition "test"), ("echo", echo), ("printf", printf), ("read", read), ("cd", cd), ("chdir", cd),
    ("pwd", pwd), ("set", set_), ("shift", shift), ("export", export_), ("readonly", readonly), ("unset", unset_),
    ("local", local_), ("kill", kill), ("trap", trap), ("break", break_), ("continue", continue_),
    ("return", return_), ("exit", exit), ("wait", wait), ("getopts", getopts),
    ("hash", withOptions "r" fun _ _ => succeed),
    ("alias", alias_), ("unalias", unalias), ("umask", umask), ("jobs", fun _ => succeed),
    ("times", fun _ => do
      print "0m0.000000s 0m0.000000s\n0m0.000000s 0m0.000000s\n"
      succeed),
    ("ulimit", fun _ => do
      print "unlimited\n"
      succeed)]

end Builtin

end Script

end Recompile

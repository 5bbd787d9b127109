import Recompile.Script.Edit.Basic
import Recompile.Script.Format
import Recompile.Text.Rounded

/-!
# Reading programs that edit lines

A program may come in parts, each an argument or a file, which are read one after another as if there were line
ends between them. A mistake is told with the number of characters that were read of its part.

* `Program.read` makes a program of its parts, or says what is wrong and where.
-/

namespace Recompile

namespace Script

namespace Edit

/-- **A part of a program,** with the name of the file that it comes from, if it does, and the form of its
expressions. -/
structure Part where
  file : Option String
  text : String
  extended : Bool

/-- Where a mistake is. -/
inductive Position
  | nowhere
  /-- In the whole part. -/
  | part
  /-- After so many characters. -/
  | after (count : Nat)
deriving DecidableEq, Repr

/-- **Why a program cannot be read.** -/
structure ReadError where
  position : Position
  reason : String
deriving Repr

/-- What is still to be read, and what was read of it. -/
structure Source where
  rest : List Char
  count : Nat := 0
  /-- After how many characters expressions have their extended form. -/
  extendedFrom : Nat
  /-- The blocks that are open, by the places of their commands, the inner ones first. -/
  blocks : List Nat := []
  /-- The commands so far, the last one first. -/
  before : List Command := []
  silent : Bool := false

/-- A reader of a program. -/
abbrev Reader := StateT Source (Except ReadError)

namespace Reader

/-- Gives up. -/
def fail {α : Type} (reason : String) : Reader α := do throw ⟨.after (← get).count, reason⟩

def next : Reader (Option Char) := do
  let s ← get
  match s.rest with
  | [] => return none
  | c :: rest => do
    set { s with rest, count := s.count + 1 }
    return some c

/-- Puts a character back. -/
def unread (c : Option Char) : Reader Unit := do
  match c with
  | some c => modify fun s => { s with rest := c :: s.rest, count := s.count - 1 }
  | none => return

def skipRun (p : Char → Bool) : Reader Unit :=
  modify fun s =>
    let run := s.rest.takeWhile p
    { s with rest := s.rest.drop run.length, count := s.count + run.length }

def takeRun (p : Char → Bool) : Reader (List Char) := do
  let run := (← get).rest.takeWhile p
  skipRun p
  return run

/-- Whether a character is a blank within a line. -/
def isBlank (c : Char) : Bool := c == ' ' || c == '\t'

def isSpace (c : Char) : Bool := c == ' ' || ('\t' ≤ c && c ≤ '\r')

/-- Takes the first character that is no blank. -/
def nextNonblank : Reader (Option Char) := do
  skipRun isBlank
  next

/-- Takes a number whose first digit was taken. -/
def number (first : Char) : Reader Nat := do
  return Arithmetic.natOf 10 (first :: (← takeRun Char.isDigit))

/-- Takes the end of a command. -/
def finish : Reader Unit := do
  let c ← nextNonblank
  match c with
  | none | some '\n' | some ';' => return
  | some '\x7d' | some '#' => unread c
  | _ => fail "extra characters after command"

/-! ### Escapes -/

/-- Where an escape stands. -/
inductive Setting
  | text
  | regex
  | replacement
deriving DecidableEq

/-- A character for an escape. In a replacement it stands for nothing but itself. -/
def Setting.spell (g : Setting) (c : Char) : List Char :=
  if g = .replacement ∧ (c = '\\' ∨ c = '&') then ['\\', c] else [c]

/-- The value of at most so many digits, and what follows. -/
def digitsOf (isDigit : Char → Bool) (value : List Char → Nat) (most : Nat) (cs : List Char) :
    Option (Char × List Char) :=
  let ds := (cs.take most).takeWhile isDigit
  if ds.isEmpty then none else some (Char.ofNat (value ds % 256), cs.drop ds.length)

/-- The character that an escape stands for, after its backslash, and what follows. -/
def escape? : List Char → Option (Char × List Char)
  | 'a' :: rest => some ('\x07', rest)
  | 'f' :: rest => some ('\x0c', rest)
  | 'r' :: rest => some ('\r', rest)
  | 't' :: rest => some ('\t', rest)
  | 'v' :: rest => some ('\x0b', rest)
  | 'c' :: c :: rest => some (Char.ofNat (c.toUpper.toNat ^^^ 64), rest)
  | 'd' :: rest => digitsOf Char.isDigit (Arithmetic.natOf 10) 3 rest
  | 'o' :: rest => digitsOf (fun c => '0' ≤ c && c ≤ '7') (Arithmetic.natOf 8) 3 rest
  | 'x' :: rest => digitsOf SignedBinary.isHexDigit SignedBinary.hexValue 2 rest
  | _ => none

/-- How many characters of a text are up to a mark and a bracket, with them. -/
def classSize (mark : Char) : List Char → Option Nat
  | c :: d :: rest => if c == mark && d == ']' then some 2 else (classSize mark (d :: rest)).map (· + 1)
  | _ => none

/-- How many characters there are up to the end of a bracket expression, with it; `fuel` bounds their number. -/
def membersSize : (fuel : Nat) → List Char → Option Nat
  | 0, _ => none
  | _ + 1, [] => none
  | _ + 1, '\n' :: _ => none
  | _ + 1, ']' :: _ => some 1
  | fuel + 1, '[' :: c :: rest =>
    if c == ':' || c == '.' || c == '=' then do
      let n ← classSize c rest
      return 2 + n + (← membersSize fuel (rest.drop n))
    else (membersSize fuel (c :: rest)).map (· + 1)
  | fuel + 1, _ :: rest => (membersSize fuel rest).map (· + 1)

/-- How many characters belong to a bracket expression after its first bracket, if it has an end. -/
def bracketSize (cs : List Char) : Option Nat :=
  let front := if cs.head? == some '^' then 1 else 0
  let front := if cs[front]? == some ']' then front + 1 else front
  (membersSize (cs.length + 1) (cs.drop front)).map (front + ·)

/-- A text with its escapes put in; other backslashes stay. `fuel` bounds its length. -/
def putEscapes (g : Setting) : (fuel : Nat) → List Char → List Char
  | 0, cs => cs
  | _ + 1, [] => []
  | fuel + 1, '[' :: rest =>
    match if g = .regex then bracketSize rest else none with
    | some n => '[' :: putEscapes .text fuel (rest.take n) ++ putEscapes g fuel (rest.drop n)
    | none => '[' :: putEscapes g fuel rest
  | fuel + 1, '\\' :: rest =>
    match escape? rest with
    | some (c, rest) => g.spell c ++ putEscapes g fuel rest
    | none =>
      match rest with
      | c :: rest => '\\' :: c :: putEscapes g fuel rest
      | [] => ['\\']
  | fuel + 1, c :: rest => c :: putEscapes g fuel rest

/-! ### Parts of commands -/

def putLineEnds : List Char → List Char
  | '\\' :: 'n' :: rest => '\n' :: putLineEnds rest
  | '\\' :: c :: rest => '\\' :: c :: putLineEnds rest
  | c :: rest => c :: putLineEnds rest
  | [] => []

/-- Takes the text up to a mark, in which a backslash keeps the mark from counting, and in an expression also a
bracket; there is none if the line ends first. `fuel` bounds its length. -/
def upTo (isRegex : Bool) (mark : Char) : (fuel : Nat) → Reader (Option (List Char))
  | 0 => return none
  | fuel + 1 => do
    match ← next with
    | none => return none
    | some '\n' => do
      unread (some '\n')
      return none
    | some '\\' =>
      match ← next with
      | none => return none
      | some c => do
        let front :=
          if c == mark then (if !isRegex && c == '&' then ['\\', c] else [c])
          else if c == '\n' || (c == 'n' && isRegex) then ['\n']
          else ['\\', c]
        return (← upTo isRegex mark fuel).map (front ++ ·)
    | some c =>
      if c == mark then return some []
      if isRegex && c == '[' then
        let rest := (← get).rest
        let size := bracketSize rest
        let front := rest.take (size.getD (rest.takeWhile (· != '\n')).length)
        modify fun s => { s with rest := s.rest.drop front.length, count := s.count + front.length }
        if size.isNone then return none
        return (← upTo isRegex mark fuel).map ('[' :: putLineEnds front ++ ·)
      return (← upTo isRegex mark fuel).map (c :: ·)

/-- The regular expression that a text is. An empty text is none. -/
def regex (multiline : Bool) (cs : List Char) : Reader (Option Regex) := do
  if cs.isEmpty then return none
  let text := String.ofList (putEscapes .regex (cs.length + 1) cs)
  let s ← get
  match Regex.parse { extended := s.extendedFrom < s.count } text with
  | .ok r => return some (if multiline then r.perLine else r)
  | .error e => fail e.message

/-- Takes the regular expression of an address, after its first mark. -/
def addressRegex (mark : Char) : Reader Address := do
  match ← upTo true mark ((← get).rest.length + 1) with
  | none => fail "unterminated address regex"
  | some cs => do
    let flags ← takeRun fun c => c == 'I' || c == 'M'
    return .fitting ⟨← regex (flags.contains 'M') cs, flags.contains 'I'⟩

/-- Takes an address that begins with a character, if one does. -/
def address? (c : Option Char) : Reader (Option Address) := do
  match c with
  | some '/' => return some (← addressRegex '/')
  | some '\\' =>
    match ← next with
    | none => fail "unexpected `,'"
    | some mark => return some (← addressRegex mark)
  | some '$' => return some .last
  | some '+' | some '~' => do
    let d ← nextNonblank
    let n ← if d.any Char.isDigit then number (d.getD '0') else do
      unread d
      pure 0
    return some (if c == some '+' then .further n else .multiple n)
  | some c =>
    if !c.isDigit then return none
    let n ← number c
    let d ← nextNonblank
    if d == some '~' then
      let e ← nextNonblank
      let step ← if e.any Char.isDigit then number (e.getD '0') else do
        unread e
        pure 0
      return some (if step = 0 then .line n else .stepped n step)
    unread d
    return some (.line n)
  | none => return none

def labelName : Reader String := do
  skipRun isBlank
  return String.ofList (← takeRun fun c => !isSpace c && c != ';' && c != '\x7d')

/-- Takes the name of a file. -/
def filePath : Reader String := do
  skipRun isBlank
  let cs ← takeRun (· != '\n')
  discard next
  if cs.isEmpty then fail "missing filename in r/R/w/W commands"
  return String.ofList cs

/-- The text of a command up to the end of its line, in which a backslash quotes a character. `fuel` bounds its
length. -/
def textUpToEnd : (fuel : Nat) → List Char → List Char × List Char
  | 0, rest => ([], rest)
  | _ + 1, [] => ([], [])
  | _ + 1, '\n' :: rest => ([], rest)
  | _ + 1, ['\\'] => ([], [])
  | fuel + 1, '\\' :: rest =>
    match escape? rest with
    | some (c, rest) =>
      let (cs, rest) := textUpToEnd fuel rest
      (c :: cs, rest)
    | none =>
      match rest with
      | 'n' :: rest =>
        let (cs, rest) := textUpToEnd fuel rest
        ('\n' :: cs, rest)
      | c :: rest =>
        let (cs, rest) := textUpToEnd fuel rest
        (c :: cs, rest)
      | [] => ([], [])
  | fuel + 1, c :: rest =>
    let (cs, rest) := textUpToEnd fuel rest
    (c :: cs, rest)

/-- Takes the text of a command that adds lines. -/
def addedText : Reader String := do
  let c ← nextNonblank
  match c with
  | none | some '\n' => do
    if c.isSome then unread c
    fail "expected \\ after \x60a', \x60c' or \x60i'"
  | some '\\' => do
    let blanks ← takeRun isBlank
    match (← get).rest with
    | '\n' :: _ => discard next
    | [] => pure ()
    | _ => modify fun s => { s with rest := blanks ++ s.rest, count := s.count - blanks.length }
  | some c => unread (some c)
  let s ← get
  if s.rest.isEmpty then return ""
  let (cs, after) := textUpToEnd (s.rest.length + 1) s.rest
  set { s with rest := after, count := s.count + (s.rest.length - after.length) }
  return String.ofList cs ++ "\n"

/-- The pieces of a replacement; `fuel` bounds their number. -/
def pieces : (fuel : Nat) → List Char → List Piece
  | 0, _ => []
  | _ + 1, [] => []
  | fuel + 1, '&' :: rest => .group 0 :: pieces fuel rest
  | fuel + 1, '\\' :: c :: rest =>
    let p : Piece :=
      if c.isDigit then .group (c.toNat - '0'.toNat)
      else
        match c with
        | 'U' => .case .upper
        | 'L' => .case .lower
        | 'u' => .case .upperNext
        | 'l' => .case .lowerNext
        | 'E' => .case .stop
        | 'n' => .text "\n"
        | c => .text c.toString
    p :: pieces fuel rest
  | fuel + 1, c :: rest => .text c.toString :: pieces fuel rest

/-- What the letters after a replacement ask for. -/
structure Flags where
  fold : Bool := false
  multiline : Bool := false
  every : Bool := false
  shows : Bool := false
  which : Option Nat := none
  file : Option String := none

/-- Takes the letters after a replacement; `fuel` bounds their number. -/
def flags : (fuel : Nat) → Flags → Reader Flags
  | 0, f => return f
  | fuel + 1, f => do
    let c ← next
    match c with
    | none | some '\n' | some ';' => return f
    | some '\x7d' | some '#' => do
      unread c
      return f
    | some ' ' => flags fuel f
    | some 'i' | some 'I' => flags fuel { f with fold := true }
    | some 'm' | some 'M' => flags fuel { f with multiline := true }
    | some 'e' => flags fuel f
    | some 'p' => do
      if f.shows then fail "multiple \x60p' options to \x60s' command"
      flags fuel { f with shows := true }
    | some 'g' => do
      if f.every then fail "multiple \x60g' options to \x60s' command"
      flags fuel { f with every := true }
    | some 'w' => return { f with file := some (← filePath) }
    | some c => do
      if !c.isDigit then fail "unknown option to \x60s'"
      if f.which.isSome then fail "multiple number options to \x60s' command"
      let n ← number c
      if n = 0 then fail "number option to \x60s' command may not be zero"
      flags fuel { f with which := some n }

/-- The greatest number of a group in a replacement. -/
def greatestGroup (ps : List Piece) : Nat :=
  ps.foldl (fun most p =>
    match p with
    | .group n => max most n
    | _ => most) 0

/-- Takes a replacement. -/
def substitution : Reader Action := do
  let unterminated {α : Type} : Reader α := fail "unterminated \x60s' command"
  match ← next with
  | none => unterminated
  | some mark => do
    let size := (← get).rest.length + 1
    match ← upTo true mark size with
    | none => unterminated
    | some cs =>
      match ← upTo false mark size with
      | none => unterminated
      | some instead => do
        let f ← flags size {}
        let r ← regex f.multiline cs
        let instead := putEscapes .replacement (instead.length + 1) instead
        let ps := pieces (instead.length + 1) instead
        if let some r := r then
          if r.groupCount < greatestGroup ps then
            fail ("invalid reference \\" ++ toString (greatestGroup ps) ++ " on \x60s' command's RHS")
        return .replace
          { search := ⟨r, f.fold⟩
            pieces := ps
            every := f.every
            which := f.which.getD 1
            shows := f.shows
            file := f.file }

def exchanged : List Char → List Char
  | '\\' :: 'n' :: rest => '\n' :: exchanged rest
  | '\\' :: c :: rest => c :: exchanged rest
  | c :: rest => c :: exchanged rest
  | [] => []

/-- Takes an exchange of characters. -/
def exchange : Reader Action := do
  let unterminated {α : Type} : Reader α := fail "unterminated \x60y' command"
  match ← next with
  | none => unterminated
  | some mark => do
    let size := (← get).rest.length + 1
    match ← upTo false mark size with
    | none => unterminated
    | some old =>
      match ← upTo false mark size with
      | none => unterminated
      | some new => do
        let list (cs : List Char) : List Char := exchanged (putEscapes .text (cs.length + 1) cs)
        let old := list old
        let new := list new
        if old.length ≠ new.length then fail "strings for \x60y' command are different lengths"
        finish
        return .exchange (old.zip new)

/-! ### Commands -/

/-- The commands that are a single letter. -/
def plainActions : List (Char × Action) :=
  [('d', .delete), ('D', .deleteFirst), ('g', .recall), ('G', .recallMore), ('h', .hold), ('H', .holdMore),
  ('x', .swap),
    ('p', .print), ('P', .printFirst), ('=', .number), ('n', .next), ('N', .nextMore), ('F', .fileName), ('z', .empty)]

/-- Takes a number that may follow a command, and the end of the command. -/
def optionalNumber : Reader (Option Nat) := do
  let c ← nextNonblank
  let n ← match c with
    | some d =>
      if d.isDigit then some <$> number d else do
        unread c
        pure none
    | none => pure none
  finish
  return n

def add (c : Command) : Reader Unit := modify fun s => { s with before := c :: s.before }

/-- Takes what a command does, after its addresses. -/
def action (c : Command) (letter : Char) : Reader Unit := do
  let has := c.first.isSome
  let push (a : Action) : Reader Unit := add { c with action := a }
  match letter with
  | '\x7b' => do
    modify fun s => { s with blocks := s.before.length :: s.blocks }
    push (.opening 0)
  | '\x7d' =>
    match (← get).blocks with
    | [] => fail "unexpected \x60\x7d'"
    | place :: blocks => do
      if has then fail "\x7d doesn't want any addresses"
      finish
      let s ← get
      let exit := s.before.length + 1
      let back := s.before.length - 1 - place
      let before := s.before.mapIdx fun i (d : Command) => if i = back then { d with action := .opening exit } else d
      set { s with blocks, before := { c with action := .closing } :: before }
  | ':' => do
    if has then fail ": doesn't want any addresses"
    let name ← labelName
    if name = "" then fail "\":\" lacks a label"
    push (.label name)
  | 'a' => push (.append (← addedText))
  | 'i' => push (.insert (← addedText))
  | 'c' => push (.change (← addedText))
  | 'b' => push (.branch (← labelName))
  | 't' => push (.branchIf true (← labelName))
  | 'T' => push (.branchIf false (← labelName))
  | 's' => push (← substitution)
  | 'y' => push (← exchange)
  | 'q' | 'Q' => do
    if c.last.isSome then fail "command only uses one address"
    push (.quit (letter == 'Q') ((← optionalNumber).getD 0 % 256))
  | 'l' => push (.list (← optionalNumber))
  | 'r' => push (.readFile (← filePath))
  | 'R' => push (.readLine (← filePath))
  | 'w' => push (.write false (← filePath))
  | 'W' => push (.write true (← filePath))
  | 'v' => do
    let version ← labelName
    if "4.9" < version then fail "expected newer version of sed"
  | 'e' => do
    skipRun (· != '\n')
    push .closing
  | _ =>
    match plainActions.lookup letter with
    | some a => do
      finish
      push a
    | none => fail ("unknown command: \x60" ++ letter.toString ++ "'")

def isRelative : Address → Bool
  | .further _ | .multiple _ => true
  | _ => false

/-- Takes commands up to the end; `fuel` bounds their number. -/
def commands : (fuel : Nat) → Reader Unit
  | 0 => return
  | fuel + 1 => do
    skipRun fun c => isSpace c || c == ';'
    let c ← next
    if c.isNone then return
    let first ← address? c
    if first.any isRelative then fail "invalid usage of +N or ~N as first address"
    let c ← if first.isSome then nextNonblank else pure c
    let (last, c) ← if first.isSome && c == some ',' then do
        match ← address? (← nextNonblank) with
        | none => fail "unexpected \x60,'"
        | some a => do pure (some a, ← nextNonblank)
      else pure (none, c)
    let beforeFirst : Bool := match first with
      | some (.line 0) => true
      | _ => false
    let endsFitting : Bool := match last with
      | some (.fitting _) => true
      | _ => false
    if beforeFirst && !endsFitting then fail "invalid usage of line address 0"
    let negated := c == some '!'
    let c ← if negated then nextNonblank else pure c
    if negated && c == some '!' then fail "multiple \x60!'s"
    match c with
    | none | some '\n' => do
      fail "missing command"
    | some '#' => do
      if first.isSome then fail "comments don't accept any addresses"
      let s ← get
      if s.count = 1 ∧ s.rest.head? = some 'n' then
        modify fun s => { s with silent := true }
      skipRun (· != '\n')
      commands fuel
    | some letter => do
      action { first, last, negated, action := .closing } letter
      commands fuel

end Reader

/-! ### Programs -/

/-- The parts of a program, with a line end between two of them. -/
def joinedText (parts : List Part) : List Char := ['\n'].intercalate (parts.map fun p => p.text.toList)

/-- How a mistake is told that is after so many characters. -/
def describe (reason : String) (count : Nat) (isWhole : Bool) : (expressions : Nat) → List Part → String
  | _, [] => reason
  | expressions, p :: rest =>
    let size := p.text.length
    if count ≤ size + 1 ∨ rest.isEmpty then
      match p.file with
      | some file =>
        let lines := (p.text.toList.take (count - 1)).countP (· == '\n')
        "file " ++ file ++ " line " ++ toString (lines + 1) ++ ": " ++ reason
      | none =>
        "-e expression #" ++ toString (expressions + 1) ++ ", char " ++
          toString (if isWhole then 0 else min count size) ++ ": " ++ reason
    else describe reason (count - size - 1) isWhole (if p.file.isNone then expressions + 1 else expressions) rest

def labelOf? (c : Command) : Option String :=
  match c.action with
  | .branch label | .branchIf _ label => if label = "" then none else some label
  | _ => none

def Program.lostLabel? (p : Program) : Option String :=
  (p.commands.toList.filterMap labelOf?).find? fun label => (p.placeOf? label).isNone

/-- **Reads a program,** or says what is wrong with it. -/
def Program.read (parts : List Part) : Except String Program := do
  let text := joinedText parts
  let extendedFrom := (parts.takeWhile fun p => !p.extended).foldl (fun n p => n + (p.text.length + 1)) 0
  match (Reader.commands (text.length + 1)).run { rest := text, extendedFrom } with
  | .error e =>
    match e.position with
    | .nowhere => throw e.reason
    | .part => throw (describe e.reason 0 true 0 parts)
    | .after count => throw (describe e.reason count false 0 parts)
  | .ok (_, s) => do
    if !s.blocks.isEmpty then throw (describe "unmatched \x60\x7b'" 0 true 0 parts)
    return ⟨s.before.reverse.toArray, s.silent⟩

end Edit

end Script

end Recompile

import Recompile.Toml.Scalar
import Recompile.Toml.Table

/-!
# Reading configuration documents

A document is read line by line: a line is empty, names a table or gives a key its value. Text is taken as it
stands between single quotes and with escapes between double quotes; both kinds may go over several lines
between triple quotes. `Toml.parse?` gives the table that a document is, or nothing if it is none.
-/

namespace Recompile

namespace Toml

/-- A reader of the front of a document. -/
abbrev Reader := StateT (List Char) Option

/-! ### Characters -/

/-- Takes a text, if it is at the front. -/
def accept (s : String) : Reader Bool := do
  let cs ← get
  if s.toList.isPrefixOf cs then
    set (cs.drop s.length)
    return true
  else return false

/-- Takes a text that has to be at the front. -/
def expect (s : String) : Reader Unit := do
  if !(← accept s) then failure

def takeRun (p : Char → Bool) : Reader (List Char) := do
  let (run, rest) := (← get).span p
  set rest
  return run

def next : Reader Char := do
  match ← get with
  | c :: rest =>
    set rest
    return c
  | [] => failure

/-- Whether a character is a blank within a line. -/
def isSpace (c : Char) : Bool := c == ' ' || c == '\t'

def isControl (c : Char) : Bool := (c < ' ' && c != '\t') || c == '\x7f'

def spaces : Reader Unit := discard <| takeRun isSpace

def lineEnd : Reader Bool := do
  if ← accept "\n" then return true else accept "\r\n"

def comment : Reader Unit := do
  if ← accept "#" then discard <| takeRun fun c => !isControl c

/-- Takes blanks, comments and line ends; `fuel` bounds the number of lines. -/
def gap : (fuel : Nat) → Reader Unit
  | 0 => failure
  | fuel + 1 => do
    spaces
    comment
    if ← lineEnd then gap fuel

/-! ### Text -/

/-- The character with the number that so many hexadecimal digits denote. -/
def numbered (digits : Nat) : Reader Char := do
  let cs ← get
  let ds := cs.take digits
  if ds.length = digits ∧ ds.all isHexDigit then
    set (cs.drop digits)
    let n := natOf 16 ds
    -- half a surrogate pair is no character
    if n.isValidChar then return Char.ofNat n else failure
  else failure

/-- The character that an escape denotes, after its backslash. -/
def escape : Reader Char := do
  match ← next with
  | 'b' => return '\x08'
  | 't' => return '\t'
  | 'n' => return '\n'
  | 'f' => return '\x0c'
  | 'r' => return '\r'
  | '"' => return '"'
  | '\\' => return '\\'
  | 'u' => numbered 4
  | 'U' => numbered 8
  | _ => failure

/-- The rest of a text between double quotes. -/
def basic : (fuel : Nat) → Reader (List Char)
  | 0 => failure
  | fuel + 1 => do
    -- no line end: it is a control, and so ends the run without a quote behind it
    let run ← takeRun fun c => c != '"' && c != '\\' && !isControl c
    match ← next with
    | '"' => return run
    | '\\' => do
      let c ← escape
      return run ++ c :: (← basic fuel)
    | _ => failure

/-- The rest of a text between single quotes. -/
def literal : Reader (List Char) := do
  let run ← takeRun fun c => c != '\'' && !isControl c
  expect "'"
  return run

/-- The quotes at the end of a text between triple quotes: up to two belong to the text. -/
def closing (quote : Char) : Reader (Option (List Char)) := do
  let cs ← get
  -- five quotes at most: three that close, behind two of the text
  let n := min (cs.takeWhile (· == quote)).length 5
  if 3 ≤ n then
    set (cs.drop n)
    return some (List.replicate (n - 3) quote)
  else return none

/-- Takes all blanks and line ends; `fuel` bounds the number of lines. -/
def blankLines : (fuel : Nat) → Reader Unit
  | 0 => failure
  | fuel + 1 => do
    spaces
    if ← lineEnd then blankLines fuel

/-- What a backslash stands for in a text over several lines: nothing at the end of a line, together with the
blanks and line ends after it, and else an escape. -/
def escapeOrBreak (fuel : Nat) : Reader (List Char) := do
  let saved ← get
  spaces
  if ← lineEnd then
    blankLines fuel
    return []
  else
    -- the blanks were not followed by a line end, so the backslash was not followed by an escape
    set saved
    return [← escape]

/-- The rest of a text between triple quotes. -/
def multiline (quote : Char) (escapes : Bool) : (fuel : Nat) → Reader (List Char)
  | 0 => failure
  | fuel + 1 => do
    let run ← takeRun fun c => c != quote && !(escapes && c == '\\') && !isControl c
    match ← closing quote with
    | some quotes => return run ++ quotes
    | none =>
      -- a line end counts as one line feed, however it is written
      if ← lineEnd then return run ++ '\n' :: (← multiline quote escapes fuel)
      else if escapes then
        if ← accept "\\" then
          let cs ← escapeOrBreak fuel
          return run ++ cs ++ (← multiline quote escapes fuel)
        else
          -- fewer than three quotes belong to the text
          expect quote.toString
          return run ++ quote :: (← multiline quote escapes fuel)
      else
        expect quote.toString
        return run ++ quote :: (← multiline quote escapes fuel)

/-- A text within one line, if a quote is at the front. -/
def lineText? (fuel : Nat) : Reader (Option String) := do
  if ← accept "\"" then return some (String.ofList (← basic fuel))
  else if ← accept "'" then return some (String.ofList (← literal))
  else return none

/-- A text, if a quote is at the front. -/
def text? (fuel : Nat) : Reader (Option String) := do
  if ← accept "\"\"\"" then
    -- a line end right behind the quotes is not part of the text
    discard lineEnd
    return some (String.ofList (← multiline '"' true fuel))
  else if ← accept "'''" then
    discard lineEnd
    return some (String.ofList (← multiline '\'' false fuel))
  else lineText? fuel

/-! ### Keys -/

/-- Whether a character may stand in a key without quotes. -/
def isKeyChar (c : Char) : Bool := c.isAlphanum || c == '_' || c == '-'

def keyPart (fuel : Nat) : Reader String := do
  match ← lineText? fuel with
  | some s => return s
  | none =>
    match ← takeRun isKeyChar with
    | [] => failure
    | cs => return String.ofList cs

/-- The parts of a key: those in front, and the last one. -/
def keyParts : (fuel : Nat) → Reader (List String × String)
  | 0 => failure
  | fuel + 1 => do
    spaces
    let part ← keyPart fuel
    spaces
    if ← accept "." then
      let (path, last) ← keyParts fuel
      return (part :: path, last)
    else return ([], part)

/-- How deep values may be nested: so many arrays and tables may stand within one another, and so many parts
may a key have. -/
def maxNesting : Nat := 79

/-- A key: the parts in front, and the last one. -/
def key (fuel : Nat) : Reader (List String × String) := do
  -- as deep as values, since every part but the last one names a table
  let (path, last) ← keyParts fuel
  if path.length < maxNesting then return (path, last) else failure

/-! ### Values -/

/-- Whether a character may stand in a number, a truth value or a date. -/
def isTokenChar (c : Char) : Bool := c.isAlphanum || c == '_' || c == '-' || c == '+' || c == '.' || c == ':'

/-- A number, a truth value or a date. -/
def token : Reader Value := do
  let cs ← takeRun isTokenChar
  match ← get with
  | ' ' :: c :: _ =>
    -- the one value that may have a blank in it
    if isDate cs ∧ c.isDigit then
      discard next
      let time ← takeRun isTokenChar
      liftM (scalar? (cs ++ ' ' :: time))
    else liftM (scalar? cs)
  | _ => liftM (scalar? cs)

mutual

/-- A value in which `room` more arrays and tables may stand within one another. -/
def value : (fuel room : Nat) → Reader Value
  | 0, _ => failure
  | fuel + 1, room => do
    match ← text? fuel with
    | some s => return .text s
    | none =>
      if ← accept "[" then
        match room with
        | 0 => failure
        | room + 1 => return .array (← elements fuel room)
      else if ← accept "\x7b" then
        match room with
        | 0 => failure
        | room + 1 =>
          spaces
          if ← accept "\x7d" then return .table []
          else return .table (values (← inline fuel room []))
      else token

/-- The elements of an array up to its end. -/
def elements : (fuel room : Nat) → Reader (List Value)
  | 0, _ => failure
  | fuel + 1, room => do
    gap fuel
    if ← accept "]" then return []
    let v ← value fuel room
    gap fuel
    -- a comma behind the last element is allowed, so the end is looked for again
    if ← accept "," then return v :: (← elements fuel room)
    expect "]"
    return [v]

/-- The entries of a table within a line up to its end. -/
def inline : (fuel room : Nat) → Entries → Reader Entries
  | 0, _, _ => failure
  | fuel + 1, room, es => do
    let (path, last) ← key fuel
    expect "="
    spaces
    let v ← value fuel room
    spaces
    -- unlike an array, it may not end in a comma
    let es ← liftM (es.define path last v)
    if ← accept "," then inline fuel room es
    else
      expect "\x7d"
      return es

end

/-! ### Documents -/

def line (fuel : Nat) (d : Draft) : Reader Draft := do
  spaces
  if ← accept "[[" then
    let (path, last) ← key fuel
    expect "]]"
    liftM (d.beginElement path last)
  else if ← accept "[" then
    let (path, last) ← key fuel
    expect "]"
    liftM (d.beginTable path last)
  else
    match ← get with
    | [] | '#' :: _ | '\n' :: _ | '\r' :: _ => return d
    | _ =>
      let (path, last) ← key fuel
      expect "="
      spaces
      let v ← value fuel maxNesting
      liftM (d.define path last v)

/-- The lines of a document; `fuel` bounds their number. -/
def document : (fuel : Nat) → Draft → Reader Draft
  | 0, _ => failure
  | fuel + 1, d => do
    -- a line is an entry, a header or nothing, and only a comment may follow it
    let d ← line (fuel + 1) d
    spaces
    comment
    if ← lineEnd then document fuel d
    else
      match ← get with
      | [] => return d
      | _ => failure

/-- **The table that a document is.** -/
def parse? (s : String) : Option Value := do
  let cs := match s.toList with
    | '\ufeff' :: rest => rest
    | cs => cs
  -- every line takes a character, except the last one
  let (d, _) ← (document (2 * cs.length + 2) {}).run cs
  return .table (values (← d.finish))

end Toml

end Recompile

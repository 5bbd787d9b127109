import Recompile.Script.Basic

/-!
# Reading scripts

A script is read command line by command line, so that what stands in front of a mistake still runs. The
characters become tokens, which are words, operators and line ends, and these become commands. Commands may
stand within words, and documents after the line that announces them, so all readers go hand in hand; `fuel`
bounds how often one calls another.

A word where a command may start is replaced by the text of the alias that it names. The text is read in its
place, and while that goes on the alias stands for nothing within it; if the text ends in a blank, the word that
follows may be an alias as well.
-/

namespace Recompile

namespace Script

/-- **Why a script cannot be read on,** and on which line. -/
structure ReadError where
  line : Nat
  reason : String
deriving Repr

/-- A document that was announced and is still to be read. -/
structure Pending where
  number : Nat
  delimiter : String
  /-- Whether the document is taken as it stands. -/
  quoted : Bool
  /-- Whether tabulators at the start of lines are dropped. -/
  indented : Bool

/-- **A token.** -/
inductive Token
  | ended
  | newline
  | operator (s : String)
  | redirect (descriptor : Option Nat) (s : String)
  | word (w : Word)

/-- What is still to be read. -/
structure Input where
  rest : List Char
  line : Nat := 1
  /-- A token that was looked at and not yet taken. -/
  ahead : Option Token := none
  pending : List Pending := []
  /-- The documents so far, each at the place of its number. -/
  documents : Array Word := #[]
  aliases : List (String × String) := []
  /-- The aliases whose texts are read, each with the number of characters behind its text. -/
  unfolding : List (String × Nat) := []
  /-- Whether the token ahead comes after the blank at the end of the text of an alias. -/
  invited : Bool := false

/-- A reader of the front of a script. -/
abbrev Reader := StateT Input (Except ReadError)

namespace Reader

/-! ### Characters -/

/-- Gives up. -/
def fail {α : Type} (reason : String) : Reader α := do throw ⟨(← get).line, reason⟩

def lineEnds (cs : List Char) : Nat := cs.countP (· == '\n')

/-- Drops so many characters. -/
def drop (count : Nat) : Reader Unit :=
  modify fun s => { s with rest := s.rest.drop count, line := s.line + lineEnds (s.rest.take count) }

/-- Drops so many characters of a parameter, whose line ends do not count. -/
def dropUncounted (count : Nat) : Reader Unit := modify fun s => { s with rest := s.rest.drop count }

def takeRun (p : Char → Bool) : Reader String := do
  let s ← get
  let (run, rest) := s.rest.span p
  set { s with rest, line := s.line + lineEnds run }
  return String.ofList run

/-- Takes a text, if it is at the front. -/
def accept (t : String) : Reader Bool := do
  if t.toList.isPrefixOf (← get).rest then
    drop t.length
    return true
  else return false

def endsWord (c : Char) : Bool := " \t\n;&|<>()".toList.contains c

/-- Skips blanks, joined lines and a comment; `fuel` bounds their number. -/
def blanks : (fuel : Nat) → Reader Unit
  | 0 => return
  | fuel + 1 => do
    match (← get).rest with
    | ' ' :: _ | '\t' :: _ => do
      drop 1
      blanks fuel
    | '\\' :: '\n' :: _ => do
      drop 2
      blanks fuel
    | '#' :: _ => discard <| takeRun (· != '\n')
    | _ => return

/-- Skips what stands between tokens, and forgets the aliases whose texts end before or in it. -/
def gap : Reader Unit := do
  let s ← get
  if s.unfolding.isEmpty then blanks (s.rest.length + 1)
  else
    let start := s.rest.length
    blanks (start + 1)
    let here := (← get).rest.length
    let (ended, going) := (s.unfolding.filter (·.2 < start)).partition (here ≤ ·.2)
    modify fun s => { s with unfolding := going, invited := !ended.isEmpty }

/-- Puts the text of an alias in the place of the token ahead if that names one, and returns whether it does. -/
def unfold : Reader Bool := do
  let s ← get
  if s.aliases.isEmpty then return false
  match s.ahead with
  | some (.word w) =>
    match (plainWord? w).bind fun name => (s.aliases.lookup name).map (name, ·) with
    | none => return false
    | some (name, text) => do
      let here := s.rest.length
      if s.unfolding.any fun (other, behind) => other == name && behind ≤ here then return false
      set { s with
        ahead := none, rest := text.toList ++ s.rest
        unfolding := if text = "" then s.unfolding else (name, here) :: s.unfolding }
      return true
  | _ => return false

/-- The text between backquotes, up to the second one. -/
def backquoted (inQuotes : Bool) : (fuel : Nat) → Reader (List Char)
  | 0 => fail "EOF in backquote substitution"
  | fuel + 1 => do
    match (← get).rest with
    | [] => fail "EOF in backquote substitution"
    | '\\' :: c :: _ => do
      drop 2
      let rest ← backquoted inQuotes fuel
      if c == '\n' then return rest
      else if c == '\\' || c == '$' || c == '\x60' || (c == '"' && inQuotes) then return c :: rest
      else return '\\' :: c :: rest
    | c :: _ => do
      drop 1
      if c == '\x60' then return [] else return c :: (← backquoted inQuotes fuel)

/-! ### Tokens -/

/-- The reserved words. -/
def keywords : List String :=
  ["if", "then", "elif", "else", "fi", "do", "done", "case", "esac", "while", "until", "for", "in", "\x7b",
    "\x7d", "!"]

def keyword? : Token → Option String
  | .word w => (plainWord? w).filter keywords.contains
  | _ => none

/-- How complaints refer to a token. -/
def describe (reserved : Bool) : Token → String
  | .ended => "end of file"
  | .newline => "newline"
  | .operator s => "\"" ++ s ++ "\""
  | .redirect .. => "redirection"
  | .word w =>
    match keyword? (.word w) with
    | some s => if reserved then "\"" ++ s ++ "\"" else "word"
    | none => "word"

/-- Complains about a token at a place where words may be reserved or not. -/
def unexpectedWhere {α : Type} (reserved : Bool) (t : Token) (expected : String) : Reader α :=
  fail (describe reserved t ++ " unexpected" ++ (if expected = "" then "" else " (expecting " ++ expected ++ ")"))

/-- Complains about a token. -/
def unexpected {α : Type} (t : Token) (expected : String) : Reader α := unexpectedWhere true t expected

/-- The operators, the longer ones first. -/
def operators : List String := ["&&", "||", ";;", ";", "&", "|", "(", ")"]

/-- The operators that redirect, the longer ones first. -/
def redirections : List String := ["<<-", "<<", "<&", "<>", "<", ">>", ">&", ">|", ">"]

/-- Takes the first of some texts that is at the front. -/
def acceptOneOf : List String → Reader (Option String)
  | [] => return none
  | t :: rest => do
    if ← accept t then return some t else acceptOneOf rest

/-- Whether a token ends a list of commands. -/
def closes : Token → Bool
  | .ended => true
  | .operator s => s == ")" || s == ";;"
  | .word w =>
    match keyword? (.word w) with
    | some s => ["then", "elif", "else", "fi", "do", "done", "esac", "\x7d"].contains s
    | none => false
  | _ => false

/-- What words are read in. -/
inductive Surroundings
  | bare
  | quotes
  /-- The braces of a parameter. -/
  | braces (inQuotes : Bool)
  | document
  /-- An arithmetic expression, with the number of parentheses that are open in it. -/
  | arithmetic (depth : Nat)

namespace Surroundings

def quoted : Surroundings → Bool
  | bare => false
  | quotes => true
  | braces inQuotes => inQuotes
  | document => true
  | arithmetic _ => true

def hasQuotes : Surroundings → Bool
  | bare | braces false => true
  | _ => false

/-- Whether a backslash quotes a character here. -/
def escapes (s : Surroundings) (c : Char) : Bool :=
  match s with
  | bare | braces false => true
  | quotes => "$\x60\"\\".toList.contains c
  | braces true => "$\x60\"\\\x7d".toList.contains c
  | document | arithmetic _ => "$\x60\\".toList.contains c

/-- Whether a character just stands for itself here. -/
def isOrdinary (s : Surroundings) (c : Char) : Bool :=
  !"\\$\x60".toList.contains c &&
    match s with
    | bare => !endsWord c && c != '\'' && c != '"'
    | quotes => c != '"'
    | braces false => c != '\x7d' && c != '\'' && c != '"'
    | braces true => c != '\x7d' && c != '"'
    | document => true
    | arithmetic _ => c != '(' && c != ')'

/-- The complaint if the input ends here, if there is one. -/
def endFault? : Surroundings → Option String
  | bare | document => none
  | quotes | braces true => some "Unterminated quoted string"
  | braces false => some "Missing '\x7d'"
  | arithmetic _ => some "Missing '))'"

def ends (s : Surroundings) (cs : List Char) : Bool :=
  match s, cs with
  | bare, c :: _ => endsWord c
  | quotes, c :: _ => c == '"'
  | braces _, c :: _ => c == '\x7d'
  | arithmetic 0, ')' :: ')' :: _ => true
  | _, _ => false

end Surroundings

/-- The operation in the braces of a parameter, after its name, as far as it goes without a word: whether an
empty value counts as missing, and what is done. -/
def acceptOtherwise : Reader (Option (Bool × Otherwise)) := do
  let kind? (s : String) : Option Otherwise :=
    match s with
    | "-" => some .default
    | "=" => some .assign
    | "?" => some .require
    | "+" => some .alternative
    | _ => none
  match ← acceptOneOf [":-", ":=", ":?", ":+", "-", "=", "?", "+"] with
  | none => return none
  | some s => return (kind? (String.ofList (s.toList.drop (s.length - 1)))).map (s.length == 2, ·)

/-- The name of a parameter in braces, and whether its length is asked for. There is none if the name is bad. -/
def bracedName : Reader (Option (String × Bool)) := do
  match (← get).rest with
  | '#' :: c :: d :: _ =>
    if isNameChar c then
      drop 1
      let name ← takeRun (if c.isDigit then Char.isDigit else isNameChar)
      return some (name, true)
    else if c != '\x7d' && d == '\x7d' then
      drop 2
      return if "#@*?$!-".toList.contains c then some (c.toString, true) else none
    else
      drop 1
      return some ("#", false)
  | c :: _ =>
    if isNameStart c then return some (← takeRun isNameChar, false)
    else if c.isDigit then return some (← takeRun Char.isDigit, false)
    else if "#@*?$!-".toList.contains c then
      drop 1
      return some (c.toString, false)
    else return none
  | [] => return none

/-- The name and the value of a word that assigns. -/
def assignment? : Word → Option (String × Word)
  | .text s false :: rest =>
    (splitAssignment? s).map fun (name, value) =>
      (name, if value = "" then rest else .text value false :: rest)
  | _ => none

/-- The delimiter of a document and whether some part of it is quoted. Nothing is put in for in it; `fuel` bounds
its length. -/
def delimiterText (quote : Option Char) : (fuel : Nat) → Reader (List Char × Bool)
  | 0 => fail "too long"
  | fuel + 1 => do
    match quote, (← get).rest with
    | none, [] => return ([], false)
    | some _, [] => fail "Unterminated quoted string"
    | none, '\\' :: '\n' :: _ => do
      drop 2
      delimiterText none fuel
    | none, '\\' :: c :: _ => do
      drop 2
      return (c :: (← delimiterText none fuel).1, true)
    | some '"', '\\' :: c :: _ => do
      drop 2
      let (cs, _) ← delimiterText quote fuel
      return ((if "$\x60\"\\".toList.contains c then [c] else ['\\', c]) ++ cs, true)
    | none, c :: _ => do
      if endsWord c then return ([], false)
      drop 1
      if c == '\'' || c == '"' then return ((← delimiterText (some c) fuel).1, true)
      else
        let (cs, quoted) ← delimiterText none fuel
        return (c :: cs, quoted)
    | some q, c :: _ => do
      drop 1
      if c == q then return ((← delimiterText none fuel).1, true)
      else return (c :: (← delimiterText quote fuel).1, true)

def documentLines (p : Pending) : (fuel : Nat) → Reader (List Char)
  | 0 => return []
  | fuel + 1 => do
    if (← get).rest.isEmpty then return []
    let line ← takeRun (· != '\n')
    let line := if p.indented then line.toList.dropWhile (· == '\t') else line.toList
    let ended ← accept "\n"
    if String.ofList line = p.delimiter then return []
    return line ++ (if ended then ['\n'] else []) ++ (← documentLines p fuel)

/-- The commands that may not be the names of functions, because they belong to the shell itself. -/
def specialNames : List String :=
  [":", ".", "break", "continue", "eval", "exec", "exit", "export", "local", "readonly", "return", "set", "shift",
  "times",
    "trap", "unset"]

mutual

/-- Reads the parts of a word up to the end of what it stands in, which is left. -/
def parts : (fuel : Nat) → Surroundings → Reader Word
  | 0, _ => fail "too long"
  | fuel + 1, s => do
    let rest := (← get).rest
    if s.ends rest then return []
    match rest with
    | [] =>
      match s.endFault? with
      | some reason => fail reason
      | none => return []
    | '\\' :: '\n' :: _ => do
      drop 2
      parts fuel s
    | '\\' :: c :: _ => do
      if s.escapes c then
        drop 2
        return .text c.toString true :: (← parts fuel s)
      else
        drop 1
        return .text "\\" true :: (← parts fuel s)
    | '$' :: _ => do
      drop 1
      let p ← dollar fuel s.quoted
      return p :: (← parts fuel s)
    | '\x60' :: _ => do
      drop 1
      let text ← backquoted s.quoted (rest.length + 1)
      let body ← within fuel text
      return .output body s.quoted :: (← parts fuel s)
    | '\'' :: _ => do
      if s.hasQuotes then
        drop 1
        let text ← takeRun (· != '\'')
        if !(← accept "'") then fail "Unterminated quoted string"
        return .text text true :: (← parts fuel s)
      else
        let text ← takeRun fun c => c == '\'' || s.isOrdinary c
        return .text text s.quoted :: (← parts fuel s)
    | '"' :: _ => do
      match s with
      | .bare | .braces _ => do
        drop 1
        let inner ← parts fuel .quotes
        drop 1
        return (if inner.isEmpty then [.text "" true] else inner) ++ (← parts fuel s)
      | _ => do
        drop 1
        return .text "\"" s.quoted :: (← parts fuel s)
    | c :: _ => do
      match s, c with
      | .arithmetic depth, '(' => do
        drop 1
        return .text "(" true :: (← parts fuel (.arithmetic (depth + 1)))
      | .arithmetic depth, ')' => do
        drop 1
        return .text ")" true :: (← parts fuel (.arithmetic (depth - 1)))
      | _, _ => do
        let text ← takeRun s.isOrdinary
        if text = "" then
          drop 1
          return .text c.toString s.quoted :: (← parts fuel s)
        return .text text s.quoted :: (← parts fuel s)

/-- Reads what follows a dollar sign. -/
def dollar : (fuel : Nat) → (quoted : Bool) → Reader Part
  | 0, _ => fail "too long"
  | fuel + 1, quoted => do
    match (← get).rest with
    | '\x7b' :: _ => do
      drop 1
      braces fuel quoted
    | '(' :: '(' :: _ => do
      drop 2
      let expression ← parts fuel (.arithmetic 0)
      drop 2
      return .arithmetic expression quoted
    | '(' :: _ => do
      drop 1
      let outer := (← get).pending
      modify fun s => { s with pending := [] }
      let body ← commands fuel true
      match ← take fuel with
      | .operator ")" => do
        modify fun s => { s with pending := outer ++ s.pending }
        return .output body quoted
      | t => unexpected t "\")\""
    | c :: _ => do
      if isNameStart c then return .parameter (← takeRun isNameChar) .value quoted
      else if c.isDigit || "#@*?$!-".toList.contains c then
        drop 1
        return .parameter c.toString .value quoted
      else return .text "$" quoted
    | [] => return .text "$" quoted

/-- Reads a parameter in braces, after the first of them. -/
def braces : (fuel : Nat) → (quoted : Bool) → Reader Part
  | 0, _ => fail "too long"
  | fuel + 1, quoted => do
    let bad : Reader Part := do
      discard <| parts fuel (.braces quoted)
      drop 1
      return .parameter "" .bad quoted
    match ← bracedName with
    | none => do
      if (← get).rest.head? != some '\x7d' then dropUncounted 1
      bad
    | some (name, true) => do
      if ← accept "\x7d" then return .parameter name .length quoted else bad
    | some (name, false) => do
      if ← accept "\x7d" then return .parameter name .value quoted
      match ← acceptOtherwise with
      | some (orEmpty, kind) => do
        let word ← parts fuel (.braces quoted)
        drop 1
        return .parameter name (.otherwise kind orEmpty word) quoted
      | none =>
        match ← acceptOneOf ["##", "#", "%%", "%"] with
        | some s => do
          let pattern ← parts fuel (.braces false)
          drop 1
          return .parameter name (.trim (s.toList.head? == some '%') (s.length == 2) pattern) quoted
        | none => do
          dropUncounted (if (← get).rest.head? == some ':' then 2 else 1)
          bad

def within : (fuel : Nat) → List Char → Reader (List Command)
  | 0, _ => fail "too long"
  | fuel + 1, text => do
    let outer ← get
    let unfolding : List (String × Nat) := outer.unfolding.map fun a => (a.1, 0)
    set { outer with rest := text, line := 1, ahead := none, pending := [], unfolding }
    let body ← commands fuel true
    match ← take fuel with
    | .ended => do
      modify fun s => { outer with documents := s.documents }
      return body
    | t => unexpected t "end of file"

/-- Reads the documents that the line before announced. -/
def documents : (fuel : Nat) → Reader Unit
  | 0 => fail "too long"
  | fuel + 1 => do
    match (← get).pending with
    | [] => return
    | p :: pending => do
      modify fun s => { s with pending := [] }
      let text ← documentLines p ((← get).rest.length + 1)
      let body ← if p.quoted then pure [.text (String.ofList text) true] else do
        let outer ← get
        set { outer with rest := text }
        let body ← parts fuel .document
        modify fun s => { s with rest := outer.rest, line := outer.line }
        pure body
      modify fun s => { s with pending, documents := s.documents.setIfInBounds p.number body }
      documents fuel

def token : (fuel : Nat) → Reader Token
  | 0 => fail "too long"
  | fuel + 1 => do
    modify fun s => { s with invited := false }
    gap
    match (← get).rest with
    | [] => do
      documents fuel
      return .ended
    | '\n' :: _ => do
      drop 1
      documents fuel
      return .newline
    | c :: d :: _ => do
      if c.isDigit && (d == '<' || d == '>') then
        drop 1
        match ← acceptOneOf redirections with
        | some s => return .redirect (some (c.toNat - '0'.toNat)) s
        | none => fail "redirection unexpected"
      else plainToken fuel
    | _ => plainToken fuel

/-- Reads a token that is neither a line end nor a redirection with a number. -/
def plainToken : (fuel : Nat) → Reader Token
  | 0 => fail "too long"
  | fuel + 1 => do
    match ← acceptOneOf redirections with
    | some s => return .redirect none s
    | none =>
      match ← acceptOneOf operators with
      | some s => return .operator s
      | none => return .word (← parts fuel .bare)

/-- Looks at the next token. -/
def peek : (fuel : Nat) → Reader Token
  | 0 => fail "too long"
  | fuel + 1 => do
    match (← get).ahead with
    | some t => return t
    | none => do
      let t ← token fuel
      modify fun s => { s with ahead := some t }
      if !(← get).invited then return t
      if ← unfold then peekUnfolded fuel else return t

/-- Looks at the next token at a place where aliases count. -/
def peekUnfolded : (fuel : Nat) → Reader Token
  | 0 => fail "too long"
  | fuel + 1 => do
    let t ← peek fuel
    if (keyword? t).isSome then return t
    if ← unfold then peekUnfolded fuel else return t

def take : (fuel : Nat) → Reader Token
  | 0 => fail "too long"
  | fuel + 1 => do
    let t ← peek fuel
    modify fun s => { s with ahead := none }
    return t

/-- Looks at the next token that is no line end. -/
def peekPast : (fuel : Nat) → Reader Token
  | 0 => fail "too long"
  | fuel + 1 => do
    match ← peek fuel with
    | .newline => do
      discard <| take fuel
      peekPast fuel
    | t => return t

/-- Looks at the next token that is no line end, where a command may start. -/
def peekCommand : (fuel : Nat) → Reader Token
  | 0 => fail "too long"
  | fuel + 1 => do
    match ← peekUnfolded fuel with
    | .newline => do
      discard <| take fuel
      peekCommand fuel
    | t => return t

/-- Takes a token that has to be a reserved word. -/
def expectKeyword : (fuel : Nat) → String → Reader Unit
  | 0, _ => fail "too long"
  | fuel + 1, s => do
    let t ← take fuel
    if keyword? t = some s then return else unexpected t ("\"" ++ s ++ "\"")

/-- Reads commands up to a token that ends a list of them. -/
def commands : (fuel : Nat) → (mayBeEmpty : Bool) → Reader (List Command)
  | 0, _ => fail "too long"
  | fuel + 1, mayBeEmpty => do
    let t ← peekCommand fuel
    match t with
    | .ended => return []
    | _ =>
      if mayBeEmpty && closes t then return []
      let c ← andOr fuel
      match ← peek fuel with
      | .operator "&" => do
        discard <| take fuel
        return .background c :: (← commands fuel true)
      | .operator ";" | .newline => do
        discard <| take fuel
        return c :: (← commands fuel true)
      | _ => return [c]

/-- Reads pipelines joined by `&&` and `||`. -/
def andOr : (fuel : Nat) → Reader Command
  | 0 => fail "too long"
  | fuel + 1 => do
    let first ← pipeline fuel
    joined fuel first

def joined : (fuel : Nat) → Command → Reader Command
  | 0, _ => fail "too long"
  | fuel + 1, c => do
    match ← peek fuel with
    | .operator "&&" => do
      discard <| take fuel
      discard <| peekCommand fuel
      let d ← pipeline fuel
      joined fuel (.both c d)
    | .operator "||" => do
      discard <| take fuel
      discard <| peekCommand fuel
      let d ← pipeline fuel
      joined fuel (.either c d)
    | _ => return c

def pipeline : (fuel : Nat) → Reader Command
  | 0 => fail "too long"
  | fuel + 1 => do
    let negated := keyword? (← peekUnfolded fuel) == some "!"
    if negated then
      discard <| take fuel
      discard <| peekUnfolded fuel
    let first ← command fuel
    let rest ← piped fuel
    let c := if rest.isEmpty then first else .pipeline (first :: rest)
    return if negated then .negation c else c

/-- Reads the commands that the output of another one goes to. -/
def piped : (fuel : Nat) → Reader (List Command)
  | 0 => fail "too long"
  | fuel + 1 => do
    match ← peek fuel with
    | .operator "|" => do
      discard <| take fuel
      discard <| peekCommand fuel
      let c ← command fuel
      return c :: (← piped fuel)
    | _ => return []

def wordsUpToOther : (fuel : Nat) → Reader (List Word)
  | 0 => fail "too long"
  | fuel + 1 => do
    match ← peek fuel with
    | .word w => do
      discard <| take fuel
      return w :: (← wordsUpToOther fuel)
    | _ => return []

/-- Reads the part of an `if` after its first word. -/
def choice : (fuel : Nat) → Reader Command
  | 0 => fail "too long"
  | fuel + 1 => do
    let condition ← commands fuel false
    expectKeyword fuel "then"
    let yes ← commands fuel false
    match keyword? (← peek fuel) with
    | some "elif" => do
      discard <| take fuel
      return .choice condition yes [← choice fuel]
    | some "else" => do
      discard <| take fuel
      let no ← commands fuel false
      expectKeyword fuel "fi"
      return .choice condition yes no
    | _ => do
      expectKeyword fuel "fi"
      return .choice condition yes []

/-- Reads a `for` after its first word. -/
def each : (fuel : Nat) → (line : Nat) → Reader Command
  | 0, _ => fail "too long"
  | fuel + 1, line => do
    let name ← match ← take fuel with
      | .word w =>
        match (plainWord? w).filter isName with
        | some name => pure name
        | none => fail "Bad for loop variable"
      | _ => fail "Bad for loop variable"
    let items ← if keyword? (← peekCommand fuel) == some "in" then do
        discard <| take fuel
        let items ← wordsUpToOther fuel
        match ← take fuel with
        | .operator ";" | .newline => pure (some items)
        | t => unexpected t ""
      else do
        if let .operator ";" ← peek fuel then discard <| take fuel
        pure none
    discard <| peekCommand fuel
    expectKeyword fuel "do"
    let body ← commands fuel false
    expectKeyword fuel "done"
    return .each line name items body

/-- Reads the patterns of an arm after the first of them. -/
def patterns : (fuel : Nat) → Reader (List Word)
  | 0 => fail "too long"
  | fuel + 1 => do
    match ← take fuel with
    | .word w =>
      match ← take fuel with
      | .operator "|" => return w :: (← patterns fuel)
      | .operator ")" => return [w]
      | t => unexpectedWhere false t "\")\""
    | t => unexpected t "\")\""

/-- Reads the arms of a `case` and its end. -/
def arms : (fuel : Nat) → Reader (List (List Word × List Command))
  | 0 => fail "too long"
  | fuel + 1 => do
    let t ← peekPast fuel
    if keyword? t == some "esac" then
      discard <| take fuel
      return []
    if let .operator "(" := t then discard <| take fuel
    let ws ← patterns fuel
    let body ← commands fuel true
    match ← peekPast fuel with
    | .operator ";;" => do
      discard <| take fuel
      return (ws, body) :: (← arms fuel)
    | t => do
      if keyword? t == some "esac" then
        discard <| take fuel
        return [(ws, body)]
      else unexpected t "\";;\""

def redirection : (fuel : Nat) → Option Nat → String → Reader Redirection
  | 0, _, _ => fail "too long"
  | fuel + 1, descriptor, s => do
    let descriptor := descriptor.getD (if s.toList.head? == some '<' then 0 else 1)
    blanks ((← get).rest.length + 1)
    if s.startsWith "<<" && (← get).rest.head?.any fun c => !endsWord c then
      let (delimiter, quoted) ← delimiterText none ((← get).rest.length + 2)
      let number := (← get).documents.size
      let p : Pending := ⟨number, String.ofList delimiter, quoted, s == "<<-"⟩
      modify fun i => { i with pending := i.pending ++ [p], documents := i.documents.push [] }
      return .document descriptor number
    match ← take fuel with
    | .word w =>
      match s with
      | "<" => return .input descriptor w
      | ">" => return .output descriptor false w
      | ">|" => return .output descriptor true w
      | ">>" => return .append descriptor w
      | "<>" => return .update descriptor w
      | _ => return .duplicate descriptor w
    | t => unexpected t ""

def redirectionsUpToOther : (fuel : Nat) → Reader (List Redirection)
  | 0 => fail "too long"
  | fuel + 1 => do
    match ← peek fuel with
    | .redirect descriptor s => do
      discard <| take fuel
      let r ← redirection fuel descriptor s
      return r :: (← redirectionsUpToOther fuel)
    | _ => return []

/-- Reads the rest of a simple command, or the rest of the definition of a function. -/
def simple : (fuel : Nat) → (line : Nat) → List (String × Word) → List Word → List Redirection → Reader Command
  | 0, _, _, _, _ => fail "too long"
  | fuel + 1, line, assignments, ws, rs => do
    let done : Reader Command := return .simple line assignments.reverse ws.reverse rs.reverse
    match ← if ws.isEmpty then peekUnfolded fuel else peek fuel with
    | .word w => do
      discard <| take fuel
      match (if ws.isEmpty then assignment? w else none) with
      | some a => simple fuel line (a :: assignments) ws rs
      | none => simple fuel line assignments (w :: ws) rs
    | .redirect descriptor s => do
      discard <| take fuel
      let r ← redirection fuel descriptor s
      simple fuel line assignments ws (r :: rs)
    | .operator "(" => do
      match assignments, ws, rs with
      | [], [w], [] => do
        discard <| take fuel
        match ← take fuel with
        | .operator ")" => do
          let name := (plainWord? w).getD ""
          if !isName name || specialNames.contains name then fail "Bad function name"
          let line := (← get).line
          discard <| peekCommand fuel
          return .define line name (← command fuel)
        | t => unexpectedWhere false t "\")\""
      | _, _, _ => done
    | _ => done

/-- Reads a command that is no simple one, after its first token; there is none if the token starts none. -/
def compound : (fuel : Nat) → (line : Nat) → Token → Reader (Option Command)
  | 0, _, _ => fail "too long"
  | fuel + 1, line, t => do
    match t, keyword? t with
    | .operator "(", _ => do
      let body ← commands fuel false
      match ← take fuel with
      | .operator ")" => return some (.subshell line body)
      | t => unexpected t "\")\""
    | _, some "if" => return some (← choice fuel)
    | _, some "while" | _, some "until" => do
      let condition ← commands fuel false
      expectKeyword fuel "do"
      let body ← commands fuel false
      expectKeyword fuel "done"
      return some (.loop (keyword? t == some "until") condition body)
    | _, some "for" => return some (← each fuel line)
    | _, some "case" => do
      match ← take fuel with
      | .word subject => do
        discard <| peekPast fuel
        expectKeyword fuel "in"
        return some (.select line subject (← arms fuel))
      | t => unexpected t "word"
    | _, some "\x7b" => do
      let body ← commands fuel false
      expectKeyword fuel "\x7d"
      return some (.group body)
    | _, _ => return none

def command : (fuel : Nat) → Reader Command
  | 0 => fail "too long"
  | fuel + 1 => do
    let t ← peek fuel
    let line := (← get).line
    match t, keyword? t with
    | .redirect .., _ | .word _, none => simple fuel line [] [] []
    | _, _ => do
      discard <| take fuel
      match ← compound fuel line t with
      | none => unexpected t ""
      | some c => do
        let rs ← redirectionsUpToOther fuel
        return if rs.isEmpty then c else .redirected line c rs

end

/-- Reads the commands of one line, after the first of them. -/
def lineRest : (fuel : Nat) → Reader (List Command)
  | 0 => fail "too long"
  | fuel + 1 => do
    let c ← andOr fuel
    match ← take fuel with
    | .ended | .newline => return [c]
    | .operator s =>
      if s = ";" ∨ s = "&" then
        let c := if s = "&" then .background c else c
        match ← peek fuel with
        | .ended | .newline => do
          discard <| take fuel
          return [c]
        | _ => return c :: (← lineRest fuel)
      else unexpected (.operator s) ""
    | t => unexpected t ""

/-- Reads the commands of one line, and no more than the line end if it is empty; there are none at the end. -/
def commandLine (fuel : Nat) : Reader (Option (List Command)) := do
  match ← peekUnfolded fuel with
  | .ended => return none
  | .newline => do
    discard <| take fuel
    return some []
  | _ => return some (← lineRest fuel)

end Reader

namespace Input

def ofText (text : String) : Input := { rest := text.toList }

/-- What is still to be read after so many lines. -/
def linesAfter (input : Input) (count : Nat) : List Char :=
  (List.range count).foldl (fun rest _ => (rest.dropWhile (· != '\n')).tail) input.rest

/-- How often readers of one line may call one another. -/
def maxCalls : Nat := 100000000

/-- **Reads the commands of one line,** with the aliases that there are; there are none at the end. Documents
are numbered after those that there are. -/
def nextLine (input : Input) (aliases : List (String × String)) (documents : Array Word) :
    Except ReadError (Option (List Command) × Input) :=
  (Reader.commandLine maxCalls).run { input with aliases, documents }

end Input

end Script

end Recompile

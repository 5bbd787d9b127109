import Recompile.Script.Awk.Basic
import Recompile.Script.Format
import Recompile.Text.Rounded

/-!
# Reading programs over records

The characters of a program become tokens, and these become rules and functions. A slash starts a pattern where
an operand is expected and divides where one has just ended. `fuel` bounds how often readers call one another.

* `tokens` makes tokens of a text.
* `Program.read` makes a program of a text, or says on which line it makes no sense.
-/

namespace Recompile

namespace Script

namespace Awk

/-- **Why a program cannot be read,** and on which line. Its braces may be unbalanced besides. -/
structure ReadError where
  line : Nat
  reason : String
  /-- The line on which a brace is missing as well. -/
  unclosed : Option Nat := none
deriving Repr

/-! ### Tokens -/

/-- What a token is. -/
inductive Kind
  | number (x : Float)
  | text (s : String)
  | pattern (s : String)
  | name
  /-- A name with a parenthesis right behind it. -/
  | called
  /-- A word that belongs to the language. -/
  | word
  | operator
  | newline
  | ended

/-- **A token,** as it is written, with its line. -/
structure Token where
  kind : Kind
  written : String
  line : Nat
  /-- Whether it stands within parentheses. -/
  inside : Bool := false

def commandWords : List String :=
  ["BEGIN", "END", "function", "func", "if", "else", "while", "for", "do", "break", "continue", "next", "nextfile",
    "exit", "return", "delete", "in", "getline", "print", "printf"]

/-- The functions that the language has, with the least and the greatest number of their arguments. -/
def builtins : List (String × Nat × Nat) :=
  [("length", 0, 1), ("substr", 2, 3), ("index", 2, 2), ("split", 2, 3), ("sub", 2, 3), ("gsub", 2, 3), ("match", 2, 2),
    ("sprintf", 1, 1000), ("sin", 1, 1), ("cos", 1, 1), ("atan2", 2, 2), ("exp", 1, 1), ("log", 1, 1), ("sqrt", 1, 1),
    ("int", 1, 1), ("rand", 0, 0), ("srand", 0, 1), ("tolower", 1, 1), ("toupper", 1, 1), ("system", 1, 1),
    ("close", 1, 1), ("fflush", 0, 1)]

/-- The operators, the longer ones first. -/
def operators : List String :=
  ["&&", "||", "++", "--", "+=", "-=", "*=", "/=", "%=", "^=", "==", "<=", ">=", "!=", "!~", ">>", "\x7b", "\x7d",
    "(", ")", "[", "]", ";", ",", "+", "-", "*", "/", "%", "^", "!", ">", "<", "|", "?", ":", "~", "$", "="]

/-- Whether a slash after a token divides. -/
def endsOperand (t : Token) : Bool :=
  match t.kind with
  | .number _ | .text _ | .name => true
  | .word => builtins.any (·.1 == t.written)
  | .operator => [")", "]", "++", "--"].contains t.written
  | _ => false

/-- The character that an escape stands for, after its backslash, and what follows. Before any other character the
backslash stays. -/
def unescape (cs : List Char) : List Char × List Char :=
  match cs with
  | c :: rest =>
    if '0' ≤ c ∧ c ≤ '7' then
      let (value, rest) := octal 3 0 cs
      ([Char.ofNat (value % 256)], rest)
    else if c == 'x' && rest.head?.any SignedBinary.isHexDigit then
      let digits := (rest.take 2).takeWhile SignedBinary.isHexDigit
      ([Char.ofNat (SignedBinary.hexValue digits)], rest.drop digits.length)
    else if c == '"' then ([c], rest)
    else
      match escapes.lookup c with
      | some d => ([d], rest)
      | none => (['\\', c], rest)
  | [] => (['\\'], [])

/-- A text with its escapes put in; `fuel` bounds its length. -/
def unescapeText : (fuel : Nat) → List Char → List Char
  | 0, cs => cs
  | _ + 1, [] => []
  | fuel + 1, '\\' :: rest =>
    let (cs, rest) := unescape rest
    cs ++ unescapeText fuel rest
  | fuel + 1, c :: rest => c :: unescapeText fuel rest

/-- The characters of a quoted text up to its quote, and what follows; `fuel` bounds their number. -/
def quoted? : (fuel : Nat) → List Char → Option (List Char × List Char)
  | 0, _ => none
  | _ + 1, [] | _ + 1, '\n' :: _ => none
  | _ + 1, '"' :: rest => some ([], rest)
  | fuel + 1, '\\' :: '\n' :: rest => quoted? fuel rest
  | fuel + 1, '\\' :: c :: rest => (quoted? fuel rest).map fun (cs, rest) => ('\\' :: c :: cs, rest)
  | fuel + 1, c :: rest => (quoted? fuel rest).map fun (cs, rest) => (c :: cs, rest)

/-- The characters of a pattern up to its slash, and what follows. A slash in a bracket does not end it. -/
def slashed? (inBracket : Bool) : List Char → Option (List Char × List Char)
  | [] | '\n' :: _ => none
  | '\\' :: '/' :: rest => (slashed? inBracket rest).map fun (cs, rest) => ('/' :: cs, rest)
  | '\\' :: c :: rest => (slashed? inBracket rest).map fun (cs, rest) => ('\\' :: c :: cs, rest)
  | '/' :: rest =>
    if inBracket then (slashed? true rest).map fun (cs, rest) => ('/' :: cs, rest) else some ([], rest)
  | c :: rest =>
    (slashed? (if c == '[' then true else if c == ']' then false else inBracket) rest).map fun (cs, rest) =>
      (c :: cs, rest)

/-- The front of a text in a message. -/
def shortened (cs : List Char) : String := String.ofList ((cs.takeWhile (· != '\n')).take 10) ++ " ..."

/-- What is known while tokens are made. -/
structure Lexing where
  line : Nat := 1
  /-- The tokens so far, the last one first. -/
  before : List Token := []
  depth : Nat := 0

def Lexing.add (s : Lexing) (kind : Kind) (written : String) : Lexing :=
  let depth := if written = "(" then s.depth + 1 else if written = ")" then s.depth - 1 else s.depth
  { s with before := ⟨kind, written, s.line, 0 < s.depth⟩ :: s.before, depth }

/-- **The tokens of a text;** `fuel` bounds their number. -/
def tokens : (fuel : Nat) → Lexing → List Char → Except ReadError (List Token)
  | 0, s, _ | _ + 1, s, [] => .ok (s.add .ended "end of file").before.reverse
  | fuel + 1, s, c :: rest =>
    let cs := c :: rest
    if c == ' ' || c == '\t' || c == '\r' then tokens fuel s rest
    else if c == '\n' then
      let t := s.add .newline "end of line"
      tokens fuel { t with line := s.line + 1 } rest
    else if c == '\\' && rest.head? == some '\n' then tokens fuel { s with line := s.line + 1 } rest.tail
    else if c == '#' then tokens fuel s (rest.dropWhile (· != '\n'))
    else if c == '"' then
      match quoted? (rest.length + 1) rest with
      | some (inner, after) =>
        let text := String.ofList (unescapeText (inner.length + 1) inner)
        tokens fuel (s.add (.text text) ("\"" ++ String.ofList inner ++ "\"")) after
      | none => .error ⟨s.line, "runaway string constant \"" ++ shortened rest, none⟩
    else if c.isDigit || (c == '.' && rest.head?.any Char.isDigit) then
      match SignedBinary.decimal? cs with
      | some (x, after) =>
        tokens fuel (s.add (.number x) (String.ofList (cs.take (cs.length - after.length)))) after
      | none => .error ⟨s.line, "syntax error at or near " ++ c.toString, none⟩
    else if isNameStart c then
      let (name, after) := cs.span isNameChar
      let name := String.ofList name
      let kind : Kind :=
        if commandWords.contains name || builtins.any (·.1 == name) then .word
        else if after.head? == some '(' then .called else .name
      tokens fuel (s.add kind name) after
    else if c == '/' && !(s.before.head?.any endsOperand) then
      match slashed? false rest with
      | some (inner, after) =>
        tokens fuel (s.add (.pattern (String.ofList inner)) ("/" ++ String.ofList inner ++ "/")) after
      | none => .error ⟨s.line, "runaway regular expression /" ++ shortened rest, none⟩
    else
      match operators.find? fun o => o.toList.isPrefixOf cs with
      | some o => tokens fuel (s.add .operator o) (cs.drop o.length)
      | none => .error ⟨s.line, "unexpected character '" ++ c.toString ++ "'", none⟩

/-! ### Readers -/

/-- A reader of tokens. -/
abbrev Reader := StateT (List Token) (Except ReadError)

namespace Reader

def peek : Reader Token := do return (← get).headD ⟨.ended, "end of file", 0, false⟩

/-- Drops a token. -/
def skip : Reader Unit := modify List.tail

/-- Gives up at the next token. -/
def unexpected {α : Type} : Reader α := do
  let t ← peek
  let closes := match t.kind with
    | .newline | .ended => true
    | _ => t.written == "\x7d"
  throw ⟨t.line, (if t.inside && closes then "missing ) near " else "syntax error at or near ") ++ t.written, none⟩

/-- Whether the next token is a given operator or word. -/
def isNext (s : String) : Reader Bool := do
  let t ← peek
  return match t.kind with
    | .operator | .word => t.written == s
    | _ => false

/-- Takes an operator or a word, if it is next. -/
def accept (s : String) : Reader Bool := do
  if ← isNext s then
    skip
    return true
  else return false

/-- Takes an operator or a word, which has to be next. -/
def expect (s : String) : Reader Unit := do
  if !(← accept s) then unexpected

/-- Takes a name, which has to be next. -/
def name : Reader String := do
  let t ← peek
  match t.kind with
  | .name | .called => do
    skip
    return t.written
  | _ => unexpected

def lineEnds : (fuel : Nat) → Reader Unit
  | 0 => return
  | fuel + 1 => do
    if let .newline := (← peek).kind then
      skip
      lineEnds fuel

/-- Skips line ends and semicolons. -/
def separators : (fuel : Nat) → Reader Unit
  | 0 => return
  | fuel + 1 => do
    match (← peek).kind with
    | .newline => do
      skip
      separators fuel
    | _ => if ← accept ";" then separators fuel

/-- How many tokens are skipped at most. -/
def manyTokens : Nat := 1000000

def anyLineEnds : Reader Unit := lineEnds manyTokens

/-- Whether a token may start what is joined to a value. -/
def startsOperand (t : Token) : Bool :=
  match t.kind with
  | .number _ | .text _ | .pattern _ | .name | .called => true
  | .word => builtins.any (·.1 == t.written)
  | .operator => ["(", "$", "!", "-", "+", "++", "--"].contains t.written
  | _ => false

def assigning? (s : String) : Option (Option Operation) :=
  match s with
  | "=" => some none
  | "+=" => some (some .add)
  | "-=" => some (some .subtract)
  | "*=" => some (some .multiply)
  | "/=" => some (some .divide)
  | "%=" => some (some .remainder)
  | "^=" => some (some .power)
  | _ => none

def comparison? (s : String) : Option Comparison :=
  match s with
  | "<" => some .less
  | "<=" => some .atMost
  | "==" => some .equal
  | "!=" => some .unequal
  | ">=" => some .atLeast
  | ">" => some .greater
  | _ => none

def operation? (level : Nat) (s : String) : Option Operation :=
  match level, s with
  | 6, "+" => some .add
  | 6, "-" => some .subtract
  | 7, "*" => some .multiply
  | 7, "/" => some .divide
  | 7, "%" => some .remainder
  | _, _ => none

/-- The regular expression that a pattern is. -/
def regex (line : Nat) (s : String) : Reader Regex :=
  match Regex.parse { extended := true, escaping := true, lenient := true } s with
  | .ok r => return r
  | .error _ => throw ⟨line, "regular expression compile failed (" ++
      (if s.toList.count '(' ≤ s.toList.count ')' then "missing operand" else "missing ')'") ++ ")\n" ++ s, none⟩

mutual

/-- Reads an expression. Where output may be redirected, `>` does not compare. -/
def expr : (fuel : Nat) → (compares : Bool) → Reader Expr
  | 0, _ => unexpected
  | fuel + 1, compares => do
    let condition ← binary fuel compares 0
    if ← accept "?" then
      anyLineEnds
      let yes ← expr fuel compares
      anyLineEnds
      expect ":"
      anyLineEnds
      let no ← expr fuel compares
      return .choose condition yes no
    else return condition

/-- Reads operands joined by the operators of a level and those that bind more tightly. -/
def binary : (fuel : Nat) → (compares : Bool) → (level : Nat) → Reader Expr
  | 0, _, _ => unexpected
  | fuel + 1, compares, level => do
    if 8 ≤ level then unary fuel compares
    else joined fuel compares level (← binary fuel compares (level + 1))

/-- Reads what is joined to an operand by operators of a level. -/
def joined : (fuel : Nat) → (compares : Bool) → (level : Nat) → Expr → Reader Expr
  | 0, _, _, _ => unexpected
  | fuel + 1, compares, level, a => do
    let t ← peek
    let isOperator := match t.kind with
      | .operator | .word => true
      | _ => false
    let s := if isOperator then t.written else ""
    match level with
    | 0 =>
      if s = "||" then
        skip
        anyLineEnds
        joined fuel compares level (.either a (← binary fuel compares 1))
      else return a
    | 1 =>
      if s = "&&" then
        skip
        anyLineEnds
        joined fuel compares level (.both a (← binary fuel compares 2))
      else return a
    | 2 =>
      if s = "in" then
        skip
        joined fuel compares level (.member [a] (← name))
      else return a
    | 3 =>
      if s = "~" ∨ s = "!~" then
        skip
        joined fuel compares level (.search (s == "!~") a (← binary fuel compares 4))
      else return a
    | 4 =>
      if s = "|" then
        let before ← get
        skip
        if ← accept "getline" then
          let target ← target? fuel compares
          joined fuel compares level (.take (.command a) target)
        else
          set before
          return a
      else
        match comparison? s with
        | none => return a
        | some c => do
          if c = .greater ∧ !compares then return a
          skip
          joined fuel compares level (.compare c a (← binary fuel compares 5))
    | 5 =>
      if startsOperand t && !(["-", "+", "!"].contains s) then
        joined fuel compares level (.join a (← binary fuel compares 6))
      else return a
    | _ =>
      match operation? level s with
      | none => return a
      | some o => do
        skip
        joined fuel compares level (.operate o a (← binary fuel compares (level + 1)))

/-- Reads an operand with signs in front of it. -/
def unary : (fuel : Nat) → (compares : Bool) → Reader Expr
  | 0, _ => unexpected
  | fuel + 1, compares => do
    if ← accept "!" then return .not (← unary fuel compares)
    else if ← accept "-" then return .negate (← unary fuel compares)
    else if ← accept "+" then return .plus (← unary fuel compares)
    else
      let base ← postfixed fuel compares
      if ← accept "^" then return .operate .power base (← unary fuel compares)
      else return base

/-- Reads a value, and what counts it or assigns to it. -/
def postfixed : (fuel : Nat) → (compares : Bool) → Reader Expr
  | 0, _ => unexpected
  | fuel + 1, compares => do
    if ← accept "++" then return .count true true (← place fuel compares)
    else if ← accept "--" then return .count false true (← place fuel compares)
    else
      match ← primary fuel compares with
      | .place p => do
        if ← accept "++" then return .count true false p
        else if ← accept "--" then return .count false false p
        else
          let t ← peek
          match t.kind, assigning? t.written with
          | .operator, some operation => do
            skip
            anyLineEnds
            return .assign operation p (← expr fuel compares)
          | _, _ => return .place p
      | e => return e

def place : (fuel : Nat) → (compares : Bool) → Reader Place
  | 0, _ => unexpected
  | fuel + 1, compares => do
    match ← primary fuel compares with
    | .place p => return p
    | _ => unexpected

/-- Reads the place that a record is taken to, if there is one. -/
def target? : (fuel : Nat) → (compares : Bool) → Reader (Option Place)
  | 0, _ => unexpected
  | fuel + 1, compares => do
    let t ← peek
    let starts := match t.kind with
      | .name => true
      | .operator => t.written == "$"
      | _ => false
    if starts then return some (← place fuel compares) else return none

/-- Reads a single value. -/
def primary : (fuel : Nat) → (compares : Bool) → Reader Expr
  | 0, _ => unexpected
  | fuel + 1, compares => do
    let t ← peek
    match t.kind with
    | .number x => do
      skip
      return .number x
    | .text s => do
      skip
      return .text s
    | .pattern s => do
      skip
      return .pattern (← regex t.line s)
    | .name => do
      skip
      if ← accept "[" then
        let subscripts ← exprs fuel "]"
        return .place (.element t.written subscripts)
      else return .place (.variable t.written)
    | .called => do
      skip
      expect "("
      return .call t.written (← arguments fuel)
    | .operator =>
      if ← accept "(" then
        match ← exprs fuel ")" with
        | [e] => return .grouped e
        | subscripts => do
          expect "in"
          return .member subscripts (← name)
      else if ← accept "$" then
        if ← accept "++" then return .place (.field (.count true true (← place fuel compares)))
        else if ← accept "--" then return .place (.field (.count false true (← place fuel compares)))
        else if ← accept "-" then return .place (.field (.negate (← primary fuel compares)))
        else return .place (.field (← primary fuel compares))
      else if (← isNext "-") || (← isNext "+") || (← isNext "!") then unary fuel compares
      else unexpected
    | .word =>
      if t.written = "getline" then
        skip
        let target ← target? fuel compares
        if ← accept "<" then return .take (.file (← postfixed fuel compares)) target
        else return .take .input target
      else
        match builtins.lookup t.written with
        | none => unexpected
        | some (least, most) => do
          skip
          let args ← if ← accept "(" then arguments fuel else do
            if t.written = "length" then pure [] else unexpected
          if args.length < least ∨ most < args.length then
            if t.written = "length" then throw ⟨t.line, "syntax error at or near ,", none⟩
            throw ⟨t.line, "wrong number of arguments in call to " ++ t.written, none⟩
          return .builtin t.written args
    | _ => unexpected

def arguments : (fuel : Nat) → Reader (List Expr)
  | 0 => unexpected
  | fuel + 1 => do
    anyLineEnds
    if ← accept ")" then return [] else exprs fuel ")"

def exprs : (fuel : Nat) → (close : String) → Reader (List Expr)
  | 0, _ => unexpected
  | fuel + 1, close => do
    let e ← expr fuel true
    if ← accept "," then
      anyLineEnds
      return e :: (← exprs fuel close)
    else
      expect close
      return [e]

def printed : (fuel : Nat) → Reader (List Expr)
  | 0 => unexpected
  | fuel + 1 => do
    let e ← expr fuel false
    if ← accept "," then
      anyLineEnds
      return e :: (← printed fuel)
    else return [e]

end

/-- Whether a statement may end before the next token. -/
def atEnd : Reader Bool := do
  let t ← peek
  return match t.kind with
    | .newline | .ended => true
    | .operator => [";", "\x7d"].contains t.written
    | _ => false

/-- Whether what is printed may end before the next token. -/
def atPrintEnd : Reader Bool := do
  return (← atEnd) || (← isNext ">") || (← isNext ">>") || (← isNext "|")

/-- Reads what is printed, which may stand in parentheses. -/
def printArguments (fuel : Nat) : Reader (List Expr) := do
  if ← atPrintEnd then return []
  let before ← get
  if ← accept "(" then
    let inner : Reader (List Expr) := do
      let es ← exprs fuel ")"
      if ← atPrintEnd then return es else unexpected
    match inner.run (← get) with
    | .ok (es, after) => do
      set after
      return es
    | .error _ => do
      set before
      printed fuel
  else printed fuel

/-- Reads where output goes to, if that is said. -/
def destination? (fuel : Nat) : Reader (Option (Destination × Expr)) := do
  let destination : Option Destination ←
    if ← accept ">" then pure (some (.file false))
    else if ← accept ">>" then pure (some (.file true))
    else if ← accept "|" then pure (some .command)
    else pure none
  match destination with
  | none => return none
  | some d => return some (d, ← expr fuel false)

/-- Takes the end of a simple statement. -/
def finishSimple : Reader Unit := do
  if ← accept ";" then anyLineEnds
  else
    let t ← peek
    match t.kind with
    | .newline => anyLineEnds
    | .ended => return
    | _ => if !(← isNext "\x7d") then unexpected

mutual

def simple : (fuel : Nat) → Reader Statement
  | 0 => unexpected
  | fuel + 1 => do
    let optional : Reader (Option Expr) := do
      if ← atEnd then return none else return some (← expr fuel true)
    if ← accept "print" then
      let args ← printArguments fuel
      return .print args (← destination? fuel)
    else if ← accept "printf" then
      let args ← printArguments fuel
      if args.isEmpty then unexpected
      return .printf args (← destination? fuel)
    else if ← accept "next" then return .next
    else if ← accept "nextfile" then return .nextFile
    else if ← accept "exit" then return .exit (← optional)
    else if ← accept "return" then return .return (← optional)
    else if ← accept "break" then return .break
    else if ← accept "continue" then return .continue
    else if ← accept "delete" then
      let array ← name
      if ← accept "[" then return .delete array (some (← exprs fuel "]")) else return .delete array none
    else return .expr (← expr fuel true)

def statement : (fuel : Nat) → Reader Statement
  | 0 => unexpected
  | fuel + 1 => do
    if ← accept "\x7b" then
      let body ← statements fuel
      return .block body
    else if ← accept ";" then
      anyLineEnds
      return .block []
    else if ← accept "if" then
      expect "("
      let condition ← expr fuel true
      expect ")"
      anyLineEnds
      let yes ← statement fuel
      let before ← get
      separators manyTokens
      if ← accept "else" then
        anyLineEnds
        return .choice condition yes (some (← statement fuel))
      else
        set before
        return .choice condition yes none
    else if ← accept "while" then
      expect "("
      let condition ← expr fuel true
      expect ")"
      if ← accept ";" then
        anyLineEnds
        return .loop condition (.block [])
      anyLineEnds
      return .loop condition (← statement fuel)
    else if ← accept "do" then
      anyLineEnds
      let body ← statement fuel
      separators manyTokens
      expect "while"
      expect "("
      let condition ← expr fuel true
      expect ")"
      finishSimple
      return .repeated body condition
    else if ← accept "for" then
      expect "("
      match ← get with
      | ⟨.name, target, _, _⟩ :: ⟨.word, "in", _, _⟩ :: ⟨.name, array, _, _⟩ :: ⟨.operator, ")", _, _⟩ :: rest => do
        set rest
        anyLineEnds
        return .each target array (← statement fuel)
      | _ => do
        let start ← if ← isNext ";" then pure none else some <$> simple fuel
        expect ";"
        anyLineEnds
        let condition ← if ← isNext ";" then pure none else some <$> expr fuel true
        expect ";"
        anyLineEnds
        let next ← if ← isNext ")" then pure none else some <$> simple fuel
        expect ")"
        if ← accept ";" then
          anyLineEnds
          return .counted start condition next (.block [])
        anyLineEnds
        return .counted start condition next (← statement fuel)
    else
      let s ← simple fuel
      finishSimple
      return s

/-- Reads statements up to a closing brace, which is taken with the line ends behind it. -/
def statements : (fuel : Nat) → Reader (List Statement)
  | 0 => unexpected
  | fuel + 1 => do
    separators manyTokens
    if ← accept "\x7d" then return []
    if let .ended := (← peek).kind then
      throw ⟨(← peek).line, "missing \x7d near end of file", none⟩
    let s ← statement fuel
    return s :: (← statements fuel)

end

/-- Reads the names of parameters and the parenthesis behind them. -/
def parameters : (fuel : Nat) → Reader (List String)
  | 0 => unexpected
  | fuel + 1 => do
    if ← accept ")" then return []
    let p ← name
    if ← accept "," then
      anyLineEnds
      return p :: (← parameters fuel)
    else
      expect ")"
      return [p]

/-- The words that make no sense in the commands of a rule or a function, and the complaints about them. -/
abbrev Misplaced := List (String × String)

/-- The words that make no sense outside of functions. -/
def outsideFunctions : Misplaced := [("return", "return outside function body")]

/-- The words that make no sense where there is no record. -/
def withoutRecord : Misplaced := ["next", "nextfile"].map fun word => (word, "improper use of " ++ word)

/-- Reads the commands of a rule or a function. -/
def body (fuel : Nat) (misplaced : Misplaced) : Reader (List Statement) := do
  let before ← get
  expect "\x7b"
  let read ← statements fuel
  let used := before.take (before.length - (← get).length)
  let complaint? (t : Token) : Option ReadError :=
    match t.kind with
    | .word => (misplaced.lookup t.written).map fun reason => ⟨t.line, reason, none⟩
    | _ => none
  match used.findSome? complaint? with
  | some e => throw e
  | none => return read

/-- Reads rules and functions. -/
def program : (fuel : Nat) → Reader Program
  | 0 => unexpected
  | fuel + 1 => do
    separators manyTokens
    if let .ended := (← peek).kind then return {}
    if (← accept "function") || (← accept "func") then
      let f ← name
      expect "("
      let line := (← peek).line
      let ps ← parameters fuel
      if let some p := ps.find? fun p => 1 < ps.count p then
        throw ⟨line, p ++ " is duplicated in argument list", none⟩
      anyLineEnds
      let body ← body fuel []
      let rest ← program fuel
      return { rest with functions := ⟨f, ps, body⟩ :: rest.functions }
    let rule ← if ← accept "BEGIN" then do pure ⟨.start, some (← body fuel (outsideFunctions ++ withoutRecord))⟩
      else if ← accept "END" then do pure ⟨.finish, some (← body fuel (outsideFunctions ++ withoutRecord))⟩
      else if ← isNext "\x7b" then do pure ⟨.always, some (← body fuel outsideFunctions)⟩
      else do
        let first ← expr fuel true
        let choice ← if ← accept "," then do
            anyLineEnds
            pure (Choice.range first (← expr fuel true))
          else pure (Choice.when first)
        if ← isNext "\x7b" then do pure ⟨choice, some (← body fuel outsideFunctions)⟩
        else if ← atEnd then pure ⟨choice, none⟩
        else unexpected
    let rest ← program fuel
    return { rest with rules := rule :: rest.rules }

end Reader

def maxCalls : Nat := 1000000

def definedNames : List Token → List String
  | t :: u :: rest =>
    if t.written == "function" || t.written == "func" then u.written :: definedNames rest else definedNames (u :: rest)
  | _ => []

/-- **Reads a program.** The functions that it calls have to be among its own. -/
def Program.read (text : String) : Except ReadError Program := do
  let cs := text.toList ++ (if text.toList.getLast? == some '\n' then [] else ['\n'])
  let ts ← tokens (cs.length + 1) {} cs
  let defined := definedNames ts
  let ts := ts.map fun t =>
    match t.kind with
    | .name => if defined.contains t.written then { t with kind := .called } else t
    | _ => t
  let depth (written : String) : Nat := ts.countP fun t =>
    match t.kind with
    | .operator => t.written == written
    | _ => false
  let last := (ts.getLast?.map Token.line).getD 1
  let (p, _) ← ((Reader.program maxCalls).run ts).mapError fun e =>
    if depth "\x7d" < depth "\x7b" ∧ e.line < last then { e with unclosed := some last } else e
  let isUndefined (t : Token) : Bool :=
    match t.kind with
    | .called => !defined.contains t.written
    | _ => false
  match ts.find? isUndefined with
  | some t => throw ⟨last, "function " ++ t.written ++ " never defined", none⟩
  | none => return p

end Awk

end Script

end Recompile

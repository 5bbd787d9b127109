import Recompile.Script.Basic

/-!
# Arithmetic

An arithmetic expression is made of integers of 64 bits, parameters, and the operators that go with them. A
parameter counts as the integer that its value is, and as zero if it is empty or missing. Evaluation yields the
value and the parameters that were assigned on the way.
-/

namespace Recompile

namespace Script

namespace Arithmetic

/-! ### Integers -/

/-- The number of integers. -/
def modulus : Nat := 18446744073709551616

/-- The integer that stands for a number. -/
def wrap (n : Int) : Int := Int.bmod n modulus

def maxInteger : Int := 9223372036854775807

/-- The value of a digit in bases up to sixteen. -/
def digitValue (c : Char) : Nat := Bytes.hexValue c

/-- The number that digits denote in a base. -/
def natOf (base : Nat) (ds : List Char) : Nat := ds.foldl (fun n d => n * base + digitValue d) 0

/-- The number at the front, in base ten, or eight after a zero, or sixteen after `0x`, and what follows. -/
def number? (cs : List Char) : Option (Nat × List Char) :=
  let isOctal (c : Char) : Bool := '0' ≤ c && c ≤ '7'
  let isHex (c : Char) : Bool := c.isDigit || ('a' ≤ c && c ≤ 'f') || ('A' ≤ c && c ≤ 'F')
  match cs with
  | '0' :: x :: d :: rest =>
    if (x == 'x' || x == 'X') && isHex d then
      let (ds, rest) := (d :: rest).span isHex
      some (natOf 16 ds, rest)
    else
      let (ds, rest) := cs.span isOctal
      some (natOf 8 ds, rest)
  | '0' :: _ =>
    let (ds, rest) := cs.span isOctal
    some (natOf 8 ds, rest)
  | c :: _ =>
    if c.isDigit then
      let (ds, rest) := cs.span Char.isDigit
      some (natOf 10 ds, rest)
    else none
  | [] => none

def isBlank (c : Char) : Bool := " \t\n\x0b\x0c\r".toList.contains c

/-- The integer that a value denotes; an empty value denotes zero. -/
def integer? (s : String) : Option Int :=
  let cs := s.toList.dropWhile isBlank
  let (negative, cs) := match cs with
    | '-' :: rest => (true, rest)
    | '+' :: rest => (false, rest)
    | cs => (false, cs)
  match number? cs with
  | some (n, rest) =>
    let n : Int := if negative then -n else n
    if rest.all isBlank ∧ -maxInteger - 1 ≤ n ∧ n ≤ maxInteger then some n else none
  | none => if s.toList.all isBlank then some 0 else none

/-! ### Tokens -/

/-- A token of an expression. -/
inductive Token
  | number (n : Int)
  | name (s : String)
  | operator (s : String)
  /-- A character that belongs nowhere. -/
  | stray
deriving DecidableEq, Repr

/-- The operators, the longer ones first. -/
def operators : List String :=
  ["<<=", ">>=", "&&", "||", "==", "!=", "<=", ">=", "<<", ">>", "+=", "-=", "*=", "/=", "%=", "&=", "|=", "^=",
    "=", "<", ">", "+", "-", "*", "/", "%", "&", "|", "^", "!", "~", "(", ")", "?", ":"]

/-- The tokens of an expression; `fuel` bounds their number. -/
def tokens : (fuel : Nat) → List Char → List Token
  | 0, _ => []
  | _ + 1, [] => []
  | fuel + 1, c :: rest =>
    if c == ' ' || c == '\t' || c == '\n' then tokens fuel rest
    else
      match number? (c :: rest) with
      | some (n, rest) => .number (min (n : Int) maxInteger) :: tokens fuel rest
      | none =>
        if isNameStart c then
          let (name, rest) := (c :: rest).span isNameChar
          .name (String.ofList name) :: tokens fuel rest
        else
          match operators.find? fun o => o.toList.isPrefixOf (c :: rest) with
          | some o => .operator o :: tokens fuel ((c :: rest).drop o.length)
          | none => [.stray]

/-! ### Expressions -/

/-- **An expression.** -/
inductive Expr
  | number (n : Int)
  | name (s : String)
  | unary (operator : String) (e : Expr)
  | binary (operator : String) (a b : Expr)
  | both (a b : Expr)
  | either (a b : Expr)
  | choose (condition yes no : Expr)
  /-- Assignment of a value, or of the result of an operator that is not empty. -/
  | assign (operator name : String) (e : Expr)
  /-- A place where something else is expected. -/
  | wrong (reason : String)
  /-- An expression after which something else is expected. -/
  | unfinished (e : Expr) (reason : String)
deriving Repr

/-- What is wrong with an expression, if something is. -/
def Expr.fault? : Expr → Option String
  | number _ | name _ => none
  | unary _ e | assign _ _ e => e.fault?
  | binary _ a b | both a b | either a b => a.fault? <|> b.fault?
  | choose c a b => c.fault? <|> a.fault? <|> b.fault?
  | wrong reason => some reason
  | unfinished e reason => e.fault? <|> some reason

/-- A reader of the front of an expression. It stops where something is wrong, which becomes part of the
expression, so that what stands in front of it is still evaluated. -/
abbrev Reader := StateM (List Token)

/-- Gives up. -/
def stop (reason : String) : Reader Expr := do
  set ([] : List Token)
  return .wrong reason

def stopAfter (e : Expr) (reason : String) : Reader Expr := do
  set ([] : List Token)
  return .unfinished e reason

/-- The binary operators with how tight they bind. -/
def levels : List (String × Nat) :=
  [("|", 0), ("^", 1), ("&", 2), ("==", 3), ("!=", 3), ("<", 4), ("<=", 4), (">", 4), (">=", 4), ("<<", 5),
    (">>", 5), ("+", 6), ("-", 6), ("*", 7), ("/", 7), ("%", 7)]

def assigning : List String := ["=", "+=", "-=", "*=", "/=", "%=", "<<=", ">>=", "&=", "|=", "^="]

/-- Takes an operator, if it is at the front. -/
def accept (s : String) : Reader Bool := do
  match ← get with
  | .operator t :: rest =>
    if s = t then
      set rest
      return true
    else return false
  | _ => return false

mutual

/-- Reads an assignment or what may stand in its place. -/
def assignment : (fuel : Nat) → Reader Expr
  | 0 => stop "expecting primary"
  | fuel + 1 => do
    match ← get with
    | .name n :: .operator o :: rest =>
      if assigning.contains o then
        set rest
        return .assign (String.ofList o.toList.dropLast) n (← assignment fuel)
      else conditional fuel
    | _ => conditional fuel

def conditional : (fuel : Nat) → Reader Expr
  | 0 => stop "expecting primary"
  | fuel + 1 => do
    let condition ← disjunction fuel
    if ← accept "?" then
      let yes ← assignment fuel
      if ← accept ":" then return .choose condition yes (← conditional fuel)
      else return .choose condition yes (← stop "expecting ':'")
    else return condition

/-- Reads expressions joined by `||`. -/
def disjunction : (fuel : Nat) → Reader Expr
  | 0 => stop "expecting primary"
  | fuel + 1 => do
    let a ← conjunction fuel
    if ← accept "||" then return .either a (← disjunction fuel) else return a

/-- Reads expressions joined by `&&`. -/
def conjunction : (fuel : Nat) → Reader Expr
  | 0 => stop "expecting primary"
  | fuel + 1 => do
    let a ← operand fuel
    let a ← operations fuel 0 a
    if ← accept "&&" then return .both a (← conjunction fuel) else return a

/-- Reads the operators that bind at least so tight, and their operands, after the first operand. -/
def operations : (fuel : Nat) → (level : Nat) → Expr → Reader Expr
  | 0, _, _ => stop "expecting primary"
  | fuel + 1, level, a => do
    match ← get with
    | .operator o :: rest =>
      match levels.lookup o with
      | some l =>
        if level ≤ l then
          set rest
          let b ← operand fuel
          let b ← operations fuel (l + 1) b
          operations fuel level (.binary o a b)
        else return a
      | none => return a
    | _ => return a

def operand : (fuel : Nat) → Reader Expr
  | 0 => stop "expecting primary"
  | fuel + 1 => do
    match ← get with
    | .number n :: rest => do
      set rest
      return .number n
    | .name n :: rest => do
      set rest
      return .name n
    | .operator o :: rest => do
      set rest
      if o = "(" then
        let e ← assignment fuel
        if ← accept ")" then return e else stopAfter e "expecting ')'"
      else if o = "+" then operand fuel
      else if o = "-" ∨ o = "!" ∨ o = "~" then return .unary o (← operand fuel)
      else stop "expecting primary"
    | _ => stop "expecting primary"

end

def parse (s : String) : Expr :=
  let ts := tokens (s.length + 1) s.toList
  let (e, rest) := (assignment (12 * ts.length + 12)).run ts
  if rest.isEmpty then e else .unfinished e "expecting EOF"

/-! ### Values -/

/-- Whether a condition holds, as an integer. -/
def truth (p : Bool) : Int := if p then 1 else 0

/-- The bits of an integer as a number. -/
def bitsOf (n : Int) : Nat := (n % modulus).toNat

def unary (operator : String) (n : Int) : Int :=
  if operator = "-" then wrap (-n) else if operator = "!" then truth (n == 0) else wrap (-n - 1)

/-- The value of a binary operator; there is none for a division by zero. -/
def binary? (operator : String) (a b : Int) : Option Int :=
  match operator with
  | "|" => some (wrap (bitsOf a ||| bitsOf b : Nat))
  | "^" => some (wrap (bitsOf a ^^^ bitsOf b : Nat))
  | "&" => some (wrap (bitsOf a &&& bitsOf b : Nat))
  | "==" => some (truth (a == b))
  | "!=" => some (truth (a != b))
  | "<" => some (truth (a < b))
  | "<=" => some (truth (a ≤ b))
  | ">" => some (truth (a > b))
  | ">=" => some (truth (a ≥ b))
  | "<<" => some (wrap (bitsOf a <<< (bitsOf b % 64) : Nat))
  | ">>" => some (a >>> (bitsOf b % 64))
  | "+" => some (wrap (a + b))
  | "-" => some (wrap (a - b))
  | "*" => some (wrap (a * b))
  | "/" => if b = 0 then none else some (wrap (Int.tdiv a b))
  | "%" => if b = 0 then none else some (wrap (Int.tmod a b))
  | _ => none

/-- Parameters that were assigned, the last one first. -/
abbrev Assigned := List (String × Int)

/-- **The value of an expression,** with the value that each parameter has at first. What is wrong with a part
that is passed over counts all the same. -/
def eval (value : String → Except String Int) (wrong : String → String) :
    Expr → StateT Assigned (Except String) Int
  | .number n => return n
  | .name s => look s
  | .unary o e => do return unary o (← eval value wrong e)
  | .binary o a b => do
    let a ← eval value wrong a
    let b ← eval value wrong b
    apply o a b
  | .both a b => do
    if (← eval value wrong a) = 0 then
      passOver b
      return 0
    else return truth ((← eval value wrong b) != 0)
  | .either a b => do
    if (← eval value wrong a) ≠ 0 then
      passOver b
      return 1
    else return truth ((← eval value wrong b) != 0)
  | .choose c a b => do
    if (← eval value wrong c) ≠ 0 then
      let n ← eval value wrong a
      passOver b
      return n
    else
      passOver a
      eval value wrong b
  | .assign o s e => do
    let n ← eval value wrong e
    let n ← if o = "" then pure n else do apply o (← look s) n
    modify ((s, n) :: ·)
    return n
  | .wrong reason => throw (wrong reason)
  | .unfinished e reason => do
    discard <| eval value wrong e
    throw (wrong reason)
where
  look (s : String) : StateT Assigned (Except String) Int := do
    match (← get).lookup s with
    | some n => return n
    | none => liftM (value s)
  apply (o : String) (a b : Int) : StateT Assigned (Except String) Int :=
    match binary? o a b with
    | some n => return n
    | none => throw (wrong "division by zero")
  passOver (e : Expr) : StateT Assigned (Except String) Unit :=
    match e.fault? with
    | some reason => throw (wrong reason)
    | none => return

/-- **Evaluates the text of an expression.** -/
def evaluate (value : String → Except String Int) (s : String) : Except String (Int × Assigned) :=
  let wrong (reason : String) : String := "arithmetic expression: " ++ reason ++ ": \"" ++ s ++ "\""
  (eval value wrong (parse s)).run []

end Arithmetic

end Script

end Recompile

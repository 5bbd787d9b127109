import Recompile.Calendar
import Recompile.Toml.Value

/-!
# Numbers, truth values and dates

A value that is no text, array or table is written without blanks, a blank between a date and a time excepted.
What it is shows from its form alone.
-/

namespace Recompile

namespace Toml

/-! ### Integers -/

/-- Digits of which single underscores stand between some, without the underscores. -/
def joinDigits (isDigit : Char → Bool) (cs : List Char) : Option (List Char) :=
  let groups := cs.splitOn '_'
  if groups.all fun g => !g.isEmpty && g.all isDigit then some groups.flatten else none

/-- The value of a digit in bases up to sixteen. -/
def digitValue (c : Char) : Nat :=
  if c.isDigit then c.toNat - '0'.toNat
  else if 'a' ≤ c ∧ c ≤ 'f' then c.toNat - 'a'.toNat + 10
  else c.toNat - 'A'.toNat + 10

/-- The number that digits denote. -/
def natOf (base : Nat) (ds : List Char) : Nat := ds.foldl (fun n c => n * base + digitValue c) 0

def isHexDigit (c : Char) : Bool := c.isDigit || ('a' ≤ c && c ≤ 'f') || ('A' ≤ c && c ≤ 'F')

def splitSign : List Char → Bool × List Char
  | '+' :: rest => (false, rest)
  | '-' :: rest => (true, rest)
  | cs => (false, cs)

/-- Decimal digits without a zero in front of others. -/
def plainDigits? (cs : List Char) : Option (List Char) :=
  match cs, joinDigits Char.isDigit cs with
  | '0' :: _ :: _, _ => none
  | _, ds => ds

/-- An integer that fits into 64 bits. -/
def inRange? (n : Int) : Option Int :=
  if -0x8000000000000000 ≤ n ∧ n < 0x8000000000000000 then some n else none

def integer? (token : List Char) : Option Int :=
  match token with
  | '0' :: 'x' :: ds => (joinDigits isHexDigit ds).bind fun ds => inRange? (natOf 16 ds)
  | '0' :: 'o' :: ds =>
    (joinDigits (fun c => '0' ≤ c && c ≤ '7') ds).bind fun ds => inRange? (natOf 8 ds)
  | '0' :: 'b' :: ds => (joinDigits (fun c => c == '0' || c == '1') ds).bind fun ds => inRange? (natOf 2 ds)
  | _ =>
    let (negative, ds) := splitSign token
    (plainDigits? ds).bind fun ds =>
      let n : Int := natOf 10 ds
      inRange? (if negative then -n else n)

/-! ### Numbers with a fraction -/

def exponent? (cs : List Char) : Option Int :=
  let (negative, ds) := splitSign cs
  (joinDigits Char.isDigit ds).map fun ds =>
    let n : Int := natOf 10 ds
    if negative then -n else n

/-- The parts of a number before and after the mark of its exponent. -/
def splitExponent (cs : List Char) : List Char × Option (List Char) :=
  match cs.span fun c => c != 'e' && c != 'E' with
  | (front, _ :: rest) => (front, some rest)
  | (front, []) => (front, none)

/-- The digits of a number before its exponent, and how many of them follow the point; the point is
required if there is no exponent. -/
def mantissa? (cs : List Char) (required : Bool) : Option (List Char × Nat) :=
  match cs.span (· != '.') with
  | (whole, _ :: fraction) => do
    let whole ← plainDigits? whole
    let fraction ← joinDigits Char.isDigit fraction
    return (whole ++ fraction, fraction.length)
  | (whole, []) => if required then none else (plainDigits? whole).map fun ds => (ds, 0)

/-- The text of the number with a fraction that a token denotes. Numbers beyond the range are refused, unless
they are negative. -/
def decimal? (token : List Char) : Option String :=
  let (negative, cs) := splitSign token
  let sign := if negative then "-" else ""
  if cs = "inf".toList then some (sign ++ "inf")
  else if cs = "nan".toList then some "NaN"
  else do
    let (front, rest) := splitExponent cs
    let (digits, places) ← mantissa? front rest.isNone
    let exponent ← match rest with
      | some rest => exponent? rest
      | none => some 0
    let value := Binary.ofDecimal (natOf 10 digits) (exponent - places)
    if value = .infinite ∧ !negative then none else some (sign ++ value.display)

/-! ### Dates and times -/

/-- The number that exactly so many digits denote, in given bounds. -/
def field? (width low high : Nat) (cs : List Char) : Option Nat :=
  if cs.length = width ∧ cs.all Char.isDigit then
    let n := natOf 10 cs
    if low ≤ n ∧ n ≤ high then some n else none
  else none

def isDate (cs : List Char) : Bool :=
  match cs.splitOn '-' with
  | [y, m, d] =>
    match field? 4 0 9999 y, field? 2 1 12 m with
    | some year, some month => (field? 2 1 (daysIn year month) d).isSome
    | _, _ => false
  | _ => false

/-- The normal form of a fraction of a second: at most nine digits, without zeros at the end. -/
def fraction (ds : List Char) : List Char :=
  match ((ds.take 9).reverse.dropWhile (· == '0')).reverse with
  | [] => []
  | ds => '.' :: ds

/-- The normal form of a time of the day. -/
def time? (cs : List Char) : Option (List Char) :=
  let (clock, rest) := cs.span (· != '.')
  match clock.splitOn ':' with
  | [h, m, s] =>
    if (field? 2 0 23 h).isSome ∧ (field? 2 0 59 m).isSome ∧ (field? 2 0 60 s).isSome then
      match rest with
      | [] => some clock
      | _ :: ds => if ds ≠ [] ∧ ds.all Char.isDigit then some (clock ++ fraction ds) else none
    else none
  | _ => none

/-- The normal form of the difference to the time of reference. No difference at all has a plus. -/
def offset? : List Char → Option (List Char)
  | ['Z'] | ['z'] => some ['Z']
  | sign :: cs =>
    if sign = '+' ∨ sign = '-' then
      match cs.splitOn ':' with
      | [h, m] =>
        match field? 2 0 23 h, field? 2 0 59 m with
        | some 0, some 0 => some ('+' :: cs)
        | some _, some _ => some (sign :: cs)
        | _, _ => none
      | _ => none
    else none
  | [] => none

/-- The normal form of a time with or without a difference to the time of reference. -/
def timeWithOffset? (cs : List Char) : Option (List Char) :=
  match cs.span fun c => c.isDigit || c == ':' || c == '.' with
  | (t, []) => time? t
  | (t, offset) => do return (← time? t) ++ (← offset? offset)

/-- The normal form of the date, the time or both that a token denotes. A time that follows a date comes after
`T`, `t` or a blank. -/
def moment? (token : List Char) : Option String :=
  let date := token.take 10
  if isDate date then
    match token.drop 10 with
    | [] => some (String.ofList date)
    | c :: rest =>
      if c = 'T' ∨ c = 't' ∨ c = ' ' then
        (timeWithOffset? rest).map fun t => String.ofList (date ++ 'T' :: t)
      else none
  else (time? token).map String.ofList

/-! ### Tokens -/

/-- **The value that a token denotes.** -/
def scalar? (token : List Char) : Option Value :=
  if token = "true".toList then some (.boolean true)
  else if token = "false".toList then some (.boolean false)
  else
    match integer? token with
    | some n => some (.integer n)
    | none =>
      match decimal? token with
      | some s => some (.decimal s)
      | none => (moment? token).map .moment

end Toml

end Recompile

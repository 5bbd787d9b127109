/-!
# Decimal text of floating-point numbers

A number with a fraction is read as the nearest binary number of 64 bits and shown with the fewest decimal
digits that read back as that number. Both are done in exact arithmetic on natural numbers: a finite number is
`mantissa * 2 ^ exponent`, and the decimals that read as it are those in an interval around it, the ends of
which belong to it when the mantissa is even.
-/

namespace Recompile

/-- **A binary number of 64 bits** without its sign. -/
inductive Binary
  | finite (mantissa : Nat) (exponent : Int)
  | infinite
deriving DecidableEq, Repr

namespace Binary

/-- The number of bits of a mantissa. -/
def precision : Nat := 53

/-- The exponent of the smallest numbers. -/
def minExponent : Int := -1074

/-- The exponent of the largest numbers. -/
def maxExponent : Int := 971

/-- The two natural numbers of which `x * base ^ e` is the quotient. -/
def scaled (x base : Nat) (e : Int) : Nat × Nat :=
  if 0 ≤ e then (x * base.pow e.toNat, 1) else (x, base.pow (-e).toNat)

/-- The quotient rounded to the nearest natural number, a half to the even one. -/
def roundDiv (num den : Nat) : Nat :=
  let q := num / den
  let r := num % den
  if 2 * r < den then q
  else if 2 * r > den then q + 1
  else if q % 2 = 0 then q else q + 1

/-- The binary number nearest to a quotient. -/
def ofQuotient (num den : Nat) : Binary :=
  if num = 0 then finite 0 0
  else
    let guess : Int := (Nat.log2 num : Int) - (Nat.log2 den : Int) - (precision : Int)
    let mantissa (e : Int) : Nat :=
      let (up, down) := scaled 1 2 (-e)
      roundDiv (num * up) (den * down)
    let fits (e : Int) : Bool :=
      let (up, down) := scaled 1 2 (-e)
      num * up < (den * down) <<< precision
    let e := if fits guess then guess else guess + 1
    let e := if fits e then e else e + 1
    let e := if e < minExponent then minExponent else e
    let m := mantissa e
    let (m, e) := if m = 1 <<< precision then (1 <<< (precision - 1), e + 1) else (m, e)
    if maxExponent < e then infinite else finite m e

/-- The binary number nearest to `digits * 10 ^ exponent`. -/
def ofDecimal (digits : Nat) (exponent : Int) : Binary :=
  let size : Int := (Nat.toDigits 10 digits).length + exponent
  if digits = 0 ∨ size < -400 then finite 0 0
  else if 400 < size then infinite
  else
    let (num, den) := scaled digits 10 exponent
    ofQuotient num den

/-- The numbers `low`, `value` and `high` over `den`: a binary number and the ends of the interval of the
decimals that read as it. -/
structure Interval where
  low : Nat
  value : Nat
  high : Nat
  den : Nat
  /-- Whether the ends read as the number as well. -/
  closed : Bool

/-- The interval of a number that is not zero. -/
def interval (m : Nat) (e : Int) : Interval :=
  let narrow := m = 1 <<< (precision - 1) ∧ minExponent < e
  let (up, down) := scaled 1 2 e
  { low := (if narrow then 4 * m - 1 else 4 * m - 2) * up
    value := 4 * m * up
    high := (4 * m + 2) * up
    den := 4 * down
    closed := m % 2 = 0 }

/-- Whether `digits * 10 ^ s` reads as the number. -/
def Interval.contains (i : Interval) (digits : Nat) (s : Int) : Bool :=
  let (up, down) := scaled 1 10 s
  let x := digits * up * i.den
  let low := i.low * down
  let high := i.high * down
  if i.closed then low ≤ x && x ≤ high else low < x && x < high

/-- The nearer of the two neighbours on the grid of the multiples of `10 ^ s` that read as the number. -/
def Interval.neighbour? (i : Interval) (s : Int) : Option Nat :=
  let (up, down) := scaled 1 10 s
  let num := i.value * down
  let den := i.den * up
  let below := num / den
  match i.contains below s, i.contains (below + 1) s with
  | true, true => some (if 2 * (num % den) < den then below
      else if den < 2 * (num % den) then below + 1
      else if below % 2 = 0 then below else below + 1)
  | true, false => some below
  | false, true => some (below + 1)
  | false, false => none

/-- The fewest digits that read back, with the exponent of the last one. The first digit is the one of
`10 ^ top`, and at most `left` grids are tried. -/
def Interval.shortest (i : Interval) (top : Int) : (left : Nat) → Nat × Int
  | 0 => (i.value / i.den, 0)
  | left + 1 =>
    let s := top - (17 - (left : Int)) + 1
    match i.neighbour? s with
    | some digits => (digits, s)
    | none => i.shortest top left

/-- The exponent of the first decimal digit of a quotient. -/
def leading (num den : Nat) : Int :=
  let digits (n : Nat) : Int := (Nat.toDigits 10 n).length
  let guess := digits num - digits den
  let (up, down) := scaled 1 10 guess
  if den * up ≤ num * down then guess else guess - 1

/-- Drops zeros at the end of digits. -/
def strip : (fuel : Nat) → Nat → Int → Nat × Int
  | 0, digits, s => (digits, s)
  | fuel + 1, digits, s => if digits ≠ 0 ∧ digits % 10 = 0 then strip fuel (digits / 10) (s + 1) else (digits, s)

/-- Digits with a point among them, and at least one digit on each side of it. -/
def positional (digits : Nat) (s : Int) : String :=
  let ds := Nat.toDigits 10 digits
  let zeros (n : Nat) : List Char := List.replicate n '0'
  let point : Int := ds.length + s
  if 0 ≤ s then String.ofList (ds ++ zeros s.toNat) ++ ".0"
  else if point ≤ 0 then "0." ++ String.ofList (zeros (-point).toNat ++ ds)
  else String.ofList (ds.take point.toNat) ++ "." ++ String.ofList (ds.drop point.toNat)

/-- **The text of a number.** -/
def display : Binary → String
  | infinite => "inf"
  | finite 0 _ => "0.0"
  | finite m e =>
    let i := interval m e
    let (digits, s) := i.shortest (leading i.value i.den) 17
    let (digits, s) := strip 400 digits s
    positional digits s

end Binary

end Recompile

import Recompile.Text.Decimal

/-!
# Rounded text of numbers

A number with a fraction is shown with a given count of digits after the point, as a digit with an exponent, or
in whichever of the two forms is shorter. The digits are those of the nearest number that has so many of them, and
a half goes to the even neighbour; all of it is exact arithmetic on the quotient that the number is.

* `SignedBinary` is a number taken apart: a sign and a magnitude, or no number at all.
* `SignedBinary.fixed`, `SignedBinary.scientific` and `SignedBinary.general` are its three forms.
* `SignedBinary.read?` reads the number at the front of a text.
-/

namespace Recompile

/-- **A number with a sign,** or a value that is no number. -/
inductive SignedBinary
  | number (negative : Bool) (magnitude : Binary)
  | undefined (negative : Bool)
deriving DecidableEq, Repr

namespace SignedBinary

/-! ### Floating-point numbers -/

/-- A floating-point number taken apart. -/
def ofFloat (x : Float) : SignedBinary :=
  let bits := x.toBits.toNat
  let negative := bits >>> 63 == 1
  let exponent := bits >>> 52 % 2048
  let fraction := bits % (1 <<< 52)
  if exponent = 2047 then (if fraction = 0 then number negative .infinite else undefined negative)
  else if exponent = 0 then number negative (.finite fraction Binary.minExponent)
  else number negative (.finite (fraction + 1 <<< 52) (Binary.minExponent + (exponent : Int) - 1))

/-- Whether a number is below zero, or is the zero below it. -/
def isNegative : SignedBinary → Bool
  | number negative _ => negative
  | undefined negative => negative

def quotient (mantissa : Nat) (exponent : Int) : Nat × Nat := Binary.scaled mantissa 2 exponent

/-! ### Digits -/

/-- Digits with so many of them behind a point. The point stands also where no digit follows, if it is wanted. -/
def withPoint (digits places : Nat) (pointed : Bool) : List Char :=
  let ds := Nat.toDigits 10 digits
  let ds := List.replicate (places + 1 - ds.length) '0' ++ ds
  let front := ds.take (ds.length - places)
  if places = 0 then (if pointed then front ++ ['.'] else front) else front ++ '.' :: ds.drop (ds.length - places)

/-- The number of a quotient in units of `10 ^ -places`. -/
def unitsOf (num den : Nat) (places : Int) : Nat :=
  let (up, down) := Binary.scaled 1 10 places
  Binary.roundDiv (num * up) (den * down)

/-- The digits of a quotient, `places` of them after the first one, and the exponent of the first one. -/
def leadingDigits (num den places : Nat) : Nat × Int :=
  if num = 0 then (0, 0)
  else
    let e := Binary.leading num den
    let digits := unitsOf num den ((places : Int) - e)
    if digits = Nat.pow 10 (places + 1) then (Nat.pow 10 places, e + 1) else (digits, e)

/-- The text of an exponent: its sign and at least two digits. -/
def exponentText (e : Int) : List Char :=
  let ds := Nat.toDigits 10 e.natAbs
  (if e < 0 then '-' else '+') :: (if ds.length < 2 then '0' :: ds else ds)

/-- Digits without the zeros at their end, and without a point at the end. -/
def trimmed (cs : List Char) : List Char :=
  if cs.contains '.' then
    let cs := cs.reverse.dropWhile (· == '0')
    (if cs.head? == some '.' then cs.tail else cs).reverse
  else cs

/-! ### Forms -/

/-- What a value without digits is called. -/
def named? : SignedBinary → Option (List Char)
  | undefined _ => some ['n', 'a', 'n']
  | number _ .infinite => some ['i', 'n', 'f']
  | _ => none

/-- **The text with so many digits behind the point,** without the sign. -/
def fixed (places : Nat) (pointed : Bool) : SignedBinary → List Char
  | number _ (.finite m e) =>
    let (num, den) := quotient m e
    withPoint (unitsOf num den places) places pointed
  | r => (named? r).getD []

/-- **The text with an exponent** and so many digits behind the point, without the sign. -/
def scientific (places : Nat) (pointed : Bool) : SignedBinary → List Char
  | number _ (.finite m e) =>
    let (num, den) := quotient m e
    let (digits, exponent) := leadingDigits num den places
    withPoint digits places pointed ++ 'e' :: exponentText exponent
  | r => (named? r).getD []

/-- **The shorter text** with so many digits at most, without the sign. Zeros at the end stay only if `whole` says
so. -/
def general (digits : Nat) (whole : Bool) : SignedBinary → List Char
  | number negative (.finite m e) =>
    let digits := max 1 digits
    let (num, den) := quotient m e
    let (ds, exponent) := leadingDigits num den (digits - 1)
    let keep (cs : List Char) : List Char := if whole then cs else trimmed cs
    if -4 ≤ exponent ∧ exponent < (digits : Int) then
      keep (fixed ((digits : Int) - 1 - exponent).toNat whole (number negative (.finite m e)))
    else keep (withPoint ds (digits - 1) whole) ++ 'e' :: exponentText exponent
  | r => (named? r).getD []

/-! ### Reading -/

/-- The value of hexadecimal digits. -/
def hexValue (ds : List Char) : Nat :=
  ds.foldl (fun n d =>
    n * 16 + (if d.isDigit then d.toNat - '0'.toNat else d.toLower.toNat - 'a'.toNat + 10)) 0

def decimalValue (ds : List Char) : Nat := ds.foldl (fun n d => n * 10 + (d.toNat - '0'.toNat)) 0

def isHexDigit (c : Char) : Bool := c.isDigit || ('a' ≤ c && c ≤ 'f') || ('A' ≤ c && c ≤ 'F')

/-- An exponent at the front of a text after its mark, and what follows; there is none without a digit. -/
def exponent? (cs : List Char) : Option (Int × List Char) :=
  let (negative, ds) := match cs with
    | '-' :: ds => (true, ds)
    | '+' :: ds => (false, ds)
    | ds => (false, ds)
  let (digits, rest) := ds.span Char.isDigit
  if digits.isEmpty then none
  else
    let n : Int := min (decimalValue digits) 100000
    some (if negative then -n else n, rest)

/-- The unsigned number in decimal digits at the front of a text, and what follows. -/
def decimal? (cs : List Char) : Option (Float × List Char) :=
  let (whole, rest) := cs.span Char.isDigit
  let (fraction, rest) := match rest with
    | '.' :: more => more.span Char.isDigit
    | _ => ([], rest)
  if whole.isEmpty ∧ fraction.isEmpty then none
  else
    let (e, rest) := match rest with
      | c :: more => if c == 'e' || c == 'E' then (exponent? more).getD (0, rest) else (0, rest)
      | [] => (0, rest)
    let e := e - fraction.length
    let digits := decimalValue (whole ++ fraction)
    let x :=
      if digits = 0 then 0
      else match Binary.ofDecimal digits e with
        | .infinite => Float.ofBits 0x7ff0000000000000
        | .finite _ _ => Float.ofScientific digits (e < 0) e.natAbs
    some (x, rest)

/-- **The number at the front of a text,** and what follows it: a sign, and digits with a fraction and an
exponent, hexadecimal digits after `0x`, or the name of a value without digits. -/
def read? (cs : List Char) : Option (Float × List Char) :=
  let (negative, ds) := match cs with
    | '-' :: ds => (true, ds)
    | '+' :: ds => (false, ds)
    | ds => (false, ds)
  let unsigned : Option (Float × List Char) :=
    match ds with
    | '0' :: x :: d :: rest =>
      if (x == 'x' || x == 'X') && isHexDigit d then
        let (digits, rest) := (d :: rest).span isHexDigit
        some (Float.ofNat (hexValue digits), rest)
      else decimal? ds
    | _ =>
      match (ds.take 3).map Char.toLower with
      | ['i', 'n', 'f'] =>
        let rest := ds.drop 3
        some (Float.ofBits 0x7ff0000000000000,
          if (rest.take 5).map Char.toLower == "inity".toList then rest.drop 5 else rest)
      | ['n', 'a', 'n'] => some (Float.ofBits 0x7ff8000000000000, ds.drop 3)
      | _ => decimal? ds
  unsigned.map fun (x, rest) => (if negative then -x else x, rest)

end SignedBinary

end Recompile

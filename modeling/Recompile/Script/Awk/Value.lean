import Recompile.Script.Awk.Basic
import Recompile.Script.Format
import Recompile.Text.Rounded

/-!
# Values of programs over records

A value is a number, a text, or a text from the input, which counts as a number where it looks like one. A table
maps texts to values; its keys have an order that depends on their digests, and those that were used last come
first among keys of one digest.
-/

namespace Recompile

namespace Script

namespace Awk

/-- **A value.** -/
inductive Value
  /-- The value of what was never assigned to. -/
  | unset
  | number (x : Float)
  | text (s : String)
  /-- A text from the input. -/
  | input (s : String)
deriving Repr

/-! ### Numbers -/

/-- Whether a character is blank around a number. -/
def isBlank (c : Char) : Bool := c == ' ' || ('\t' ≤ c && c ≤ '\r')

/-- The number at the front of a text. -/
def numberOf (s : String) : Float := ((SignedBinary.read? (s.toList.dropWhile isBlank)).map (·.1)).getD 0

/-- The number that a text looks like. -/
def wholeNumber? (s : String) : Option Float :=
  let cs := s.toList.dropWhile isBlank
  let front := match cs with
    | '-' :: rest | '+' :: rest => rest
    | rest => rest
  if front.head?.any fun c => c.isDigit || c == '.' then
    match SignedBinary.read? cs with
    | some (x, rest) => if rest.all isBlank then some x else none
    | none => none
  else none

/-- A number without its fraction, as far as it is finite. -/
def truncated (x : Float) : Int :=
  match SignedBinary.ofFloat x with
  | .number negative (.finite m e) =>
    let n : Nat := if 0 ≤ e then m <<< e.toNat else m >>> (-e).toNat
    if negative then -n else n
  | .number negative .infinite => if negative then -(Nat.pow 2 1100 : Nat) else (Nat.pow 2 1100 : Nat)
  | .undefined _ => 0

/-- The greatest integer that is shown as one. -/
def maxShown : Nat := 18446744073709551615

/-- An integer, no larger than those that are shown. -/
def bounded (n : Int) : Int :=
  if (maxShown : Int) < n then maxShown
  else if n < -9223372036854775807 then -9223372036854775807
  else n

/-! ### Formats -/

def directiveText (d : Directive) (v : Value) (number : Value → Float) (text : Value → String) : Option String :=
  let whole : Int := bounded (truncated (number v))
  let unsigned : Nat := if whole < 0 then (18446744073709551616 + whole).toNat else whole.toNat
  let natural (base : Nat) (upper : Bool) (mark : List Char) : String :=
    let lead := if d.flags.contains '#' ∧ unsigned ≠ 0 then mark else []
    String.ofList (numberField d lead (digitsOf base upper d.precision unsigned))
  match d.letter with
  | 's' => some (textField d (text v).toList)
  | 'c' =>
    let c : Char := match v with
      | .number x => Char.ofNat ((truncated x) % 256).toNat
      | v => (text v).toList.headD '\x00'
    some (textField { d with precision := none } [c])
  | 'd' | 'i' =>
    some (String.ofList (numberField d (signOf d (whole < 0)) (digitsOf 10 false d.precision whole.natAbs)))
  | 'u' => some (natural 10 false [])
  | 'o' => some (natural 8 false ['0'])
  | 'x' => some (natural 16 false ['0', 'x'])
  | 'X' => some (natural 16 true ['0', 'X'])
  | 'e' | 'E' | 'f' | 'F' | 'g' | 'G' => some (realField d (number v))
  | _ => none

/-- What is wrong with a format. -/
inductive FormatError
  | tooFew
  | badDirective (count : Nat)

/-- A width or a precision: digits, or the next value for a `*`. -/
def measured (number : Value → Float) (cs : List Char) (args : List Value) :
    Except FormatError (Option Int × List Char × List Value) :=
  match cs with
  | '*' :: rest =>
    match args with
    | v :: args => .ok (some (truncated (number v)), rest, args)
    | [] => .error .tooFew
  | cs =>
    match cs.span Char.isDigit with
    | ([], rest) => .ok (none, rest, args)
    | (ds, rest) => .ok (some (Arithmetic.natOf 10 ds), rest, args)

/-- What is printed for a format and some values, and what is wrong after that; `count` directives came before.
`fuel` bounds the length of the format. -/
def formattedUpTo (number : Value → Float) (text : Value → String) : (fuel count : Nat) → List Char → List Value →
    String × Option FormatError
  | 0, _, _, _ => ("", none)
  | _ + 1, _, [], _ => ("", none)
  | fuel + 1, count, '%' :: '%' :: rest, args =>
    let (s, e) := formattedUpTo number text fuel count rest args
    ("%" ++ s, e)
  | fuel + 1, count, '%' :: rest, args =>
    let (flags, cs) := rest.span fun c => "#-+ 0".toList.contains c
    let read : Except FormatError (Directive × List Char × List Value) := do
      let (width, cs, args) ← measured number cs args
      let (precision, cs, args) ← match cs with
        | '.' :: cs => do
          let (p, cs, args) ← measured number cs args
          pure (some (p.getD 0).toNat, cs, args)
        | cs => pure (none, cs, args)
      let cs := cs.dropWhile fun c => "hlLqjzt".toList.contains c
      match cs with
      | letter :: cs =>
        let flags := if width.any (· < 0) then '-' :: flags else flags
        if "scdiuoxXeEfFgG".toList.contains letter then
          return (⟨flags, (width.getD 0).natAbs, precision, letter⟩, cs, args)
        else throw (.badDirective (count + 1))
      | [] => throw (.badDirective (count + 1))
    match read with
    | .error e => ("", some e)
    | .ok (d, cs, args) =>
      match args with
      | [] => ("", some .tooFew)
      | v :: args =>
        let (s, e) := formattedUpTo number text fuel (count + 1) cs args
        ((directiveText d v number text).getD "" ++ s, e)
  | fuel + 1, count, c :: rest, args =>
    let (s, e) := formattedUpTo number text fuel count rest args
    (c.toString ++ s, e)

/-! ### Conversions -/

/-- The text of a number: that of an integer, or what a format makes of it. -/
def numberText (format : String) (x : Float) : String :=
  if x.isFinite && x.floor == x && (truncated x).natAbs ≤ 18446744073709551616 then toString (bounded (truncated x))
  else
    (formattedUpTo (fun v => match v with
      | .number y => y
      | _ => 0) (fun _ => "") (format.length + 1) 0 format.toList [.number x]).1

namespace Value

def toNumber : Value → Float
  | unset => 0
  | number x => x
  | text s | input s => numberOf s

/-- The text that a value is, where a format tells how numbers look. -/
def toText (format : String) : Value → String
  | unset => ""
  | number x => numberText format x
  | text s | input s => s

def asNumber? : Value → Option Float
  | unset => some 0
  | number x => some x
  | text _ => none
  | input s => wholeNumber? s

def isTrue : Value → Bool
  | unset => false
  | number x => x != 0
  | text s => s != ""
  | input s =>
    match wholeNumber? s with
    | some x => x != 0
    | none => s != ""

def ofBool (b : Bool) : Value := number (if b then 1 else 0)

def ofNat (n : Nat) : Value := number (Float.ofNat n)

end Value

/-- Whether a comparison holds between two values: of their numbers if both count as such, else of their texts. -/
def Comparison.holds (c : Comparison) (format : String) (a b : Value) : Bool :=
  let (isLess, isEqual) := match a.asNumber?, b.asNumber? with
    | some x, some y => (decide (x < y), x == y)
    | _, _ =>
      let s := a.toText format
      let t := b.toText format
      (decide (s < t), s == t)
  match c with
  | .less => isLess
  | .atMost => isLess || isEqual
  | .equal => isEqual
  | .unequal => !isEqual
  | .atLeast => !isLess
  | .greater => !isLess && !isEqual

/-- What an operation makes of two numbers. -/
def Operation.apply (x y : Float) : Operation → Float
  | .add => x + y
  | .subtract => x - y
  | .multiply => x * y
  | .divide => x / y
  | .remainder =>
    if y == 0 || !x.isFinite then x / 0 - x / 0
    else if !y.isFinite then x
    else
      let scale (z : Float) : Int × Int := match SignedBinary.ofFloat z with
        | .number negative (.finite m e) => (if negative then -m else m, e)
        | _ => (0, 0)
      let (m, e) := scale x
      let (n, k) := scale y
      let low := min e k
      let r := Int.tmod (m * (Nat.pow 2 (e - low).toNat : Nat)) (n * (Nat.pow 2 (k - low).toNat : Nat))
      Float.scaleB (Float.ofInt r) low
  | .power => x.pow y

/-! ### Tables -/

/-- **A table.** The entries stand in lists by their digests. -/
structure Table where
  lists : Array (List (String × Value)) := #[]
  size : Nat := 0

namespace Table

/-- The number of lists that a table starts with. -/
def startSize : Nat := 64

/-- The greatest number of entries for each list. -/
def maxLoad : Nat := 12

def digest (key : String) : Nat :=
  key.toList.foldl (fun h c => ((h ^^^ c.toNat) * 16777619) % 4294967296) 2166136261

def get? (t : Table) (key : String) : Option Value :=
  if t.lists.isEmpty then none else ((t.lists[digest key % t.lists.size]?).getD []).lookup key

/-- Twice as many lists. -/
def doubled (t : Table) : Table :=
  let half (upper : Bool) : Array (List (String × Value)) := t.lists.mapIdx fun i entries =>
    entries.filter fun e => (digest e.1 % (2 * t.lists.size) == i + t.lists.size) == upper
  { t with lists := half false ++ half true }

/-- The table with a value for a key, which comes first among the keys of its list. -/
def insert (t : Table) (key : String) (v : Value) : Table :=
  let t := if t.lists.isEmpty then { t with lists := Array.replicate startSize [] } else t
  let i := digest key % t.lists.size
  let entries := (t.lists[i]?).getD []
  let others := entries.filter (·.1 != key)
  let isNew := others.length == entries.length
  let t : Table :=
    { lists := t.lists.setIfInBounds i ((key, v) :: others), size := if isNew then t.size + 1 else t.size }
  if isNew && maxLoad * t.lists.size < t.size then t.doubled else t

def erase (t : Table) (key : String) : Table :=
  if (t.get? key).isNone then t
  else
    let i := digest key % t.lists.size
    { lists := t.lists.modify i fun entries => entries.filter (·.1 != key), size := t.size - 1 }

/-- The keys in their order. -/
def keys (t : Table) : List String := t.lists.toList.flatMap fun entries => entries.map (·.1)

end Table

end Awk

end Script

end Recompile

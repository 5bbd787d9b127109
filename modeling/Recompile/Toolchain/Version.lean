import Recompile.Text.Space

/-!
# Compiler versions

A version is written as one to three numbers separated by dots, optionally followed by `-` and a modifier,
with blank space around it. Missing numbers are zero, and the modifier is everything after the first `-`.
A number is read like any unsigned number of 32 bits: a plus sign in front is accepted, a number that does
not fit is not. `Version.display` is the normal form, with all three numbers.
-/

namespace Recompile

/-- **A compiler version.** -/
structure Version where
  major : UInt32
  minor : UInt32
  patch : UInt32
  /-- What follows the first `-`, such as `RC1`. -/
  modifier : Option String
deriving DecidableEq, Repr, Inhabited

namespace Version

/-! ### Reading -/

/-- The value of a decimal digit. -/
def digit? (c : Char) : Option Nat := if c.isDigit then some (c.toNat - '0'.toNat) else none

/-- The number that a list of decimal digits continues. -/
def digits? (value : Nat) : List Char → Option Nat
  | [] => some value
  | c :: rest => (digit? c).bind fun d => digits? (value * 10 + d) rest

/-- An unsigned number of 32 bits: an optional plus sign, then at least one digit. -/
def number? (cs : List Char) : Option UInt32 :=
  let ds := match cs with
    | '+' :: rest => rest
    | _ => cs
  if ds = [] then none
  else (digits? 0 ds).bind fun n => if n < 0x100000000 then some (UInt32.ofNat n) else none

/-- The numbers of a version, the missing ones zero. -/
def numbers? (cs : List Char) : Option (UInt32 × UInt32 × UInt32) :=
  match cs.splitOn '.' with
  | [a] => do return (← number? a, 0, 0)
  | [a, b] => do return (← number? a, ← number? b, 0)
  | [a, b, c] => do return (← number? a, ← number? b, ← number? c)
  | _ => none

/-- The characters before the first dash, and those after it if there is one. -/
def splitModifier (cs : List Char) : List Char × Option (List Char) :=
  match cs.span (· != '-') with
  | (front, _ :: rest) => (front, some rest)
  | (front, []) => (front, none)

/-- The version that some characters without blanks around them denote. -/
def ofChars? (cs : List Char) : Option Version :=
  let (front, modifier) := splitModifier cs
  if modifier = some [] then none
  else (numbers? front).map fun (major, minor, patch) =>
    ⟨major, minor, patch, modifier.map String.ofList⟩

/-- **Reads a version,** without the blank space around it. -/
def parse? (s : String) : Option Version := ofChars? (Text.trimChars s.toList)

/-! ### Written forms -/

/-- The three numbers, and the modifier if there is one. -/
def display (v : Version) : String :=
  let numbers := toString v.major.toNat ++ "." ++ toString v.minor.toNat ++ "." ++ toString v.patch.toNat
  match v.modifier with
  | some m => numbers ++ "-" ++ m
  | none => numbers

instance : ToString Version := ⟨display⟩

/-- Whether the version is of the third or a later major release. -/
def isScala3 (v : Version) : Bool := 3 ≤ v.major

def isMilestone (v : Version) : Bool :=
  match v.modifier with
  | some m => m.toList.head? == some 'M'
  | none => false

/-- **The version up to binary compatibility,** as it appears in the names of artifacts. Releases from the
third on are compatible within a major release and earlier ones within a minor release; a milestone of a
release that ends in `.0` is compatible with itself only. -/
def binary (v : Version) : String :=
  if v.isScala3 then toString v.major.toNat
  else if v.patch = 0 ∧ v.isMilestone then v.display
  else toString v.major.toNat ++ "." ++ toString v.minor.toNat

end Version

end Recompile

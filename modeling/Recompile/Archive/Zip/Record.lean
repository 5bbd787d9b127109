import Recompile.Text.Bytes

/-!
# Records of an archive

Everything in an archive that is not contents stands in records. A record begins with a mark of four bytes
and goes on with numbers, the low byte first, at fixed distances from its mark.
-/

namespace Recompile

namespace Zip

/-! ### Numbers -/

/-- The number of two bytes at a position. -/
def u16? (b : ByteArray) (i : Nat) : Option Nat :=
  if h : i + 1 < b.size then some (b[i].toNat + 256 * b[i + 1].toNat) else none

/-- The number of four bytes at a position. -/
def u32? (b : ByteArray) (i : Nat) : Option Nat := do
  return (← u16? b i) + 65536 * (← u16? b (i + 2))

/-- The number of eight bytes at a position. -/
def u64? (b : ByteArray) (i : Nat) : Option Nat := do
  return (← u32? b i) + 4294967296 * (← u32? b (i + 4))

/-- The bytes from a position on, if there are so many. -/
def slice? (b : ByteArray) (i length : Nat) : Option Bytes :=
  if i + length ≤ b.size then some (b.extract i (i + length)).data.toList else none

/-- The number in a field of two bytes whose value is given elsewhere. -/
def absentField16 : Nat := 0xFFFF

/-- The number in a field of four bytes whose value is given elsewhere. -/
def absentField : Nat := 0xFFFFFFFF

/-! ### Marks -/

/-- The mark of the header in front of a member. -/
def localMark : Nat := 0x04034b50

def entryMark : Nat := 0x02014b50

def endMark : Nat := 0x06054b50

def wideEndMark : Nat := 0x06064b50

/-- The mark of the record that says where the wide end record is. -/
def locatorMark : Nat := 0x07064b50

/-- The positions of a mark from `first` on that end before `last`, ascending. -/
def marks (b : ByteArray) (mark first last : Nat) : List Nat :=
  ((List.range (last - first)).map (· + first)).filter fun j => j + 4 ≤ last ∧ u32? b j = some mark

/-- The first position of a mark from `first` on that ends before `last`. -/
def findMark? (b : ByteArray) (mark first last : Nat) : Option Nat :=
  ((List.range (last - first)).map (· + first)).find? fun j => j + 4 ≤ last ∧ u32? b j = some mark

end Zip

end Recompile

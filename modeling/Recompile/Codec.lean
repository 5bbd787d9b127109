import Recompile.Digest
import Recompile.Path

/-!
# Writing values as bytes and reading them back

A stored value is a sequence of fields without separators, so a reader has to know from what it has read how
far a field goes. A `Codec` is a writer and a reader of one type; the reader returns the bytes after the value.

Numbers take one byte up to 250. Larger ones take a mark and two, four or eight bytes, and a reader accepts
marks that were not needed. Texts, sequences, sets and tables come after the number of their bytes or
entries; a table that lists a key twice keeps the last value.

* `Codec.Faithful`: whatever follows a written value, reading gives the value and what follows.
-/

namespace Recompile

/-- **A written form of a type.** -/
structure Codec (α : Type) where
  write : α → Bytes
  /-- The value at the front, and the bytes after it. -/
  read : Bytes → Option (α × Bytes)

namespace Codec

variable {α β : Type}

/-- Whether a written value reads back, whatever follows it. -/
def Faithful (c : Codec α) (x : α) : Prop := ∀ rest : Bytes, c.read (c.write x ++ rest) = some (x, rest)

/-! ### Fixed widths -/

/-- The first bytes of a given number, if there are so many, and the bytes after them. -/
def take? (n : Nat) (b : Bytes) : Option (Bytes × Bytes) :=
  let front := b.take n
  if front.length = n then some (front, b.drop n) else none

theorem take?_append (b rest : Bytes) : take? b.length (b ++ rest) = some (b, rest) := by
  simp [take?]

/-- Four bytes of a number, the lowest first, whatever the number. -/
def word : Codec Nat where
  write n := Bytes.ofNatLE 4 n
  read b := do
    let (bytes, rest) ← take? 4 b
    return (Bytes.toNatLE bytes, rest)

/-- The sixteen bytes of a digest. -/
def digest : Codec Digest where
  write := Digest.bytes
  read b := do
    let (bytes, rest) ← take? 16 b
    return (Digest.ofRaw bytes, rest)

theorem faithful_digest (d : Digest) : digest.Faithful d := by
  intro rest
  have h := take?_append d.bytes rest
  rw [Digest.length_bytes] at h
  simp [digest, h]

/-- The bytes themselves, of which the reader expects a given number. -/
def raw (n : Nat) : Codec Bytes := ⟨id, take? n⟩

theorem faithful_raw {n : Nat} {b : Bytes} (h : b.length = n) : (raw n).Faithful b := by
  subst h
  exact take?_append b

/-! ### Numbers -/

/-- The number of bytes after a mark, in a field whose numbers have at most `width` bytes. -/
def markedWidth? (width : Nat) (mark : UInt8) : Option Nat :=
  if mark = 251 then some 2
  else if mark = 252 then some 4
  else if mark = 253 ∧ 8 ≤ width then some 8
  else none

def writeNumber (n : Nat) : Bytes :=
  if n < 251 then [UInt8.ofNat n]
  else if n < 0x10000 then 251 :: Bytes.ofNatLE 2 n
  else if n < 0x100000000 then 252 :: Bytes.ofNatLE 4 n
  else 253 :: Bytes.ofNatLE 8 n

/-- Reads a number of at most `width` bytes. -/
def readNumber (width : Nat) : Bytes → Option (Nat × Bytes)
  | [] => none
  | first :: rest =>
    if first < 251 then some (first.toNat, rest)
    else do
      let (bytes, rest) ← take? (← markedWidth? width first) rest
      return (Bytes.toNatLE bytes, rest)

/-- A number that has at most `width` bytes. -/
def number (width : Nat) : Codec Nat := ⟨writeNumber, readNumber width⟩

def length : Codec Nat := number 8

/-! ### Text -/

/-- A byte string after its length. -/
def bytes : Codec Bytes where
  write b := length.write b.length ++ b
  read b := do
    let (n, rest) ← length.read b
    take? n rest

/-- A text as its UTF-8 form after the length of that. -/
def text : Codec String where
  write s := bytes.write (Bytes.ofString s)
  read b := do
    let (utf8, rest) ← bytes.read b
    return (← Bytes.toString? utf8, rest)

def path : Codec Path where
  write p := text.write p.spelling
  read b := do
    let (s, rest) ← text.read b
    return (⟨s⟩, rest)

/-! ### Composed values -/

/-- Two fields one after the other. -/
def pair (c : Codec α) (d : Codec β) : Codec (α × β) where
  write x := c.write x.1 ++ d.write x.2
  read b := do
    let (x, rest) ← c.read b
    let (y, rest) ← d.read rest
    return ((x, y), rest)

/-- A type whose values are those of another in a different dress. -/
def via (c : Codec β) (dress : α → β) (back : β → Option α) : Codec α where
  write x := c.write (dress x)
  read b := do
    let (y, rest) ← c.read b
    return (← back y, rest)

def readMany (c : Codec α) : Nat → Bytes → Option (List α × Bytes)
  | 0, b => some ([], b)
  | n + 1, b => do
    let (x, rest) ← c.read b
    let (xs, rest) ← readMany c n rest
    return (x :: xs, rest)

/-- A sequence after its length. -/
def list (c : Codec α) : Codec (List α) where
  write xs := length.write xs.length ++ xs.flatMap c.write
  read b := do
    let (n, rest) ← length.read b
    readMany c n rest

/-- A table as the sequence of its entries. -/
def table [Ord α] [Std.TransOrd α] (c : Codec α) (d : Codec β) : Codec (SortedMap α β) :=
  (list (pair c d)).via SortedMap.entries fun entries => some (SortedMap.insertAll ∅ entries)

/-- A set as the sequence of its elements. -/
def set [Ord α] [Std.TransOrd α] (c : Codec α) : Codec (SortedSet α) :=
  (list c).via SortedSet.toList fun elements => some (SortedSet.addAll ∅ elements)

end Codec

end Recompile

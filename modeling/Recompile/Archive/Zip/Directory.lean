import Recompile.Archive.Zip.Record

/-!
# Where the directory of an archive is

The end record of an archive says where its directory starts and how many entries it has. Bytes in front of
the archive move everything; by how much shows at the first directory entry. Where a number does not fit, a
wide end record holds it, and a locator in front of the end record leads there; then the wide record shows how
far everything is moved.
-/

namespace Recompile

namespace Zip

/-- **Where a directory is,** and how many entries it has. -/
structure Directory where
  /-- The number of bytes in front of the archive. -/
  offset : Nat
  /-- The position of the first entry. -/
  start : Nat
  /-- The number of entries. -/
  count : Nat
deriving DecidableEq, Repr

namespace Directory

/-- The directory that the end record at `i` leads to by itself. -/
def ofEnd? (b : ByteArray) (i : Nat) : Option Directory := do
  let count ← u16? b (i + 8)
  let total ← u16? b (i + 10)
  let relative ← u32? b (i + 16)
  guard ((← u16? b (i + 4)) = (← u16? b (i + 6)))
  if total = 0 then return ⟨i - relative, relative + (i - relative), count⟩
  else
    guard (relative < i)
    let start ← findMark? b entryMark relative i
    return ⟨start - relative, start, count⟩

/-- **What a locator says:** the disk of the directory, the position of the wide end record before everything
was moved, and the number of disks. -/
structure Locator where
  disk : Nat
  position : Nat
  disks : Nat

def locator? (b : ByteArray) (i : Nat) : Option Locator := do
  guard ((← u32? b i) = locatorMark)
  return ⟨← u32? b (i + 4), ← u64? b (i + 8), ← u32? b (i + 16)⟩

/-- The shortest length that a wide end record may give for what follows the length. -/
def minWideLength : Nat := 44

/-- The number of bytes of a directory entry with nothing in it. -/
def minEntryLength : Nat := 46

/-- Whether the wide end record at `j` fits the locator at `last`: it ends there, means the same disk, and the
directory has room in front of it. -/
def fits (b : ByteArray) (l : Locator) (last j : Nat) : Bool :=
  match u64? b (j + 4), u32? b (j + 20), u64? b (j + 32), u64? b (j + 48) with
  | some length, some disk, some total, some relative =>
    minWideLength ≤ length && length + 12 == last - j && disk == l.disk &&
      total * minEntryLength + relative ≤ j
  | _, _, _, _ => false

/-- The directory that the wide end record at `j` leads to. -/
def ofWideEnd? (b : ByteArray) (offset j : Nat) : Option Directory := do
  let total ← u64? b (j + 32)
  guard ((← u64? b (j + 24)) ≤ total ∧ (← u16? b (j + 14)) ≤ (← u16? b (j + 12)))
  guard ((← u32? b (j + 16)) = (← u32? b (j + 20)))
  return ⟨offset, (← u64? b (j + 48)) + offset, total⟩

/-- The directory that the locator at `last` leads to. -/
def ofLocator? (b : ByteArray) (l : Locator) (last : Nat) : Option Directory := do
  guard (l.position < last ∧ l.disks ≤ 1)
  let j ← (marks b wideEndMark l.position last).find? (fits b l last)
  ofWideEnd? b (j - l.position) j

/-- **The directory that the end record at `i` leads to.** -/
def at? (b : ByteArray) (i : Nat) : Option Directory := do
  guard (i + 22 + (← u16? b (i + 20)) ≤ b.size)
  let locator : Option Locator :=
    if (u16? b (i + 10) = some absentField16 ∨ u32? b (i + 16) = some absentField) ∧ 20 ≤ i then
      locator? b (i - 20)
    else none
  match locator with
  | some l => ofLocator? b l (i - 20)
  | none => ofEnd? b i

end Directory

end Zip

end Recompile

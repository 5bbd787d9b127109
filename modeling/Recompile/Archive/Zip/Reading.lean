import Recompile.Archive.Zip.Directory
import Recompile.Archive.Zip.Entry
import Recompile.Archive.Zip.Member

/-!
# Reading archives

An archive is read from its end: an end record leads to the directory, and each entry of the directory says
where its member starts. An end record that leads to a damaged directory is passed over in favour of an
earlier one. The header in front of a member only shows where its contents start, so it is missed only when
they are wanted.

Of several members with one name only the last counts, in the place of the first.
-/

namespace Recompile

namespace Zip

/-- The packed contents of the member that starts at a position, as far as they are there. -/
def packedAt? (b : ByteArray) (start length : Nat) : Option Bytes := do
  guard ((← u32? b start) = localMark)
  let data := start + 30 + (← u16? b (start + 26)) + (← u16? b (start + 28))
  return (b.extract data (data + length)).data.toList

def Entry.member (e : Entry) (b : ByteArray) (offset : Nat) : Member where
  name := e.name
  method := .ofNumber e.method
  encrypted := e.flags.testBit 0 || e.sealed
  checksum := UInt32.ofNat e.checksum
  packed := packedAt? b (e.start + offset) e.packed
  date := e.date
  time := e.time

/-- The members that so many directory entries from `i` on describe. -/
def members (b : ByteArray) (d : Directory) : (count i : Nat) → Option (List Member)
  | 0, _ => some []
  | count + 1, i => do
    let (e, next) ← Entry.at? b i
    guard (e.start + d.offset < d.start)
    return e.member b d.offset :: (← members b d count next)

/-- The members of the archive whose end record is at `i`. -/
def membersAt? (b : ByteArray) (i : Nat) : Option (List Member) := do
  let d ← Directory.at? b i
  members b d d.count d.start

/-- Puts a member into a list, in place of an earlier one with its name. -/
def addMember (ms : List Member) (m : Member) : List Member :=
  if ms.any fun n => n.name == m.name then ms.map fun n => if n.name == m.name then m else n
  else ms ++ [m]

/-- **The members of an archive,** if the bytes are one. -/
def members? (data : Bytes) : Option (List Member) :=
  let b : ByteArray := ⟨data.toArray⟩
  ((marks b endMark 0 b.size).reverse.findSome? (membersAt? b)).map fun ms => ms.foldl addMember []

end Zip

end Recompile

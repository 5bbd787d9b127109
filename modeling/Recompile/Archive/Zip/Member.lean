import Recompile.Archive.Crc32
import Recompile.Archive.Deflate.Portions
import Recompile.Calendar
import Recompile.Files.Fault
import Recompile.Path

/-!
# Members of an archive

An archive is a list of members, each with a name and packed contents. A member whose name ends in a
separator is a directory. Whether the contents can be read shows only when they are: the packing may be one
that nobody here unpacks, the packed form may be damaged, and the checksum may not fit.
-/

namespace Recompile

namespace Zip

/-- How contents are packed. -/
inductive Method
  | stored
  | deflated
  /-- Some other way, with its number. -/
  | other (number : Nat)
deriving DecidableEq, Repr

def Method.ofNumber : Nat → Method
  | 0 => stored
  | 8 => deflated
  | n => other n

/-- **A member of an archive** as the directory of the archive lists it. -/
structure Member where
  name : String
  method : Method
  encrypted : Bool := false
  checksum : UInt32
  /-- The packed contents, if the header in front of them is there. -/
  packed : Option Bytes
  /-- The date of the last change in the packed form of the format. -/
  date : Nat
  /-- The time of the last change in the packed form of the format. -/
  time : Nat
deriving DecidableEq

/-- Contents as far as they could be read, and why reading failed, if it did. -/
structure Contents where
  data : Bytes
  fault : Option Fault := none

def wrongChecksum : Fault := ⟨.invalidData, "Invalid checksum"⟩

/-- A packed form that is damaged. -/
def damagedStream : Fault := ⟨.invalidInput, "corrupt deflate stream"⟩

/-- Contents that were unpacked to the end. -/
def checked (checksum : UInt32) (data : Bytes) : Contents :=
  ⟨data, if Crc32.ofBytes data = checksum then none else some wrongChecksum⟩

namespace Member

def isDir (m : Member) : Bool :=
  match m.name.toList.getLast? with
  | some c => c == '/' || c == '\\'
  | none => false

/-- **The contents of a member,** if they are there, their packing is known and they are not encrypted. Stored
contents that end too early are left to the checksum. -/
def contents? (m : Member) : Option Contents := do
  guard !m.encrypted
  let packed ← m.packed
  match m.method with
  | .stored => return checked m.checksum packed
  | .deflated =>
    return match Deflate.unpack ⟨packed.toArray⟩ with
      | (data, none) => checked m.checksum data
      | (data, some .truncated) => ⟨data, some (.ofKind .unexpectedEof)⟩
      | (data, some .corrupt) => ⟨data, some damagedStream⟩
  | .other _ => none

/-- How many steps down from the front a path is after one more component. A path that leads out of the directory, or
to the root, stays outside. -/
def depthAfter : Option Nat → Path.Component → Option Nat
  | none, _ | _, .root => none
  | some 0, .up => none
  | some (n + 1), .up => some n
  | some n, .name _ => some (n + 1)
  | some n, .here => some n

/-- **The path below a directory that a name stands for,** unless it would lead out of the directory: it must
not be absolute, and no part of it from the front on may have more steps up than down. -/
def enclosed? (name : String) : Option Path :=
  if name.toList.contains '\x00' then none
  else
    let path : Path := ⟨name⟩
    (path.components.foldl depthAfter (some 0)).map fun _ => path

/-- The last change, to two seconds, if there is such a moment. A minute has no sixtieth second here. -/
def timestamp? (m : Member) : Option String :=
  let two (n : Nat) : String := if n < 10 then "0" ++ toString n else toString n
  let (year, month, day) := (1980 + m.date / 512, m.date / 32 % 16, m.date % 32)
  let (hour, minute, second) := (m.time / 2048, m.time / 32 % 64, m.time % 32 * 2)
  if 1 ≤ month ∧ month ≤ 12 ∧ 1 ≤ day ∧ day ≤ daysIn year month ∧ hour < 24 ∧ minute < 60 ∧ second ≤ 60 then
    some (toString year ++ "-" ++ two month ++ "-" ++ two day ++ " " ++ two hour ++ ":" ++ two minute ++ ":"
      ++ two (min second 58))
  else none

end Member

end Zip

end Recompile

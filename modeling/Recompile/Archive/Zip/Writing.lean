import Recompile.Archive.Crc32
import Recompile.Archive.Deflate.Writing

/-!
# Writing archives

An archive is written as its members one after another, each after a header of its own, then the directory,
then the end record. Files are deflated and directories stored. All members carry the first moment of the
format, so that the bytes of an archive depend on nothing but the names and contents that go into it.
-/

namespace Recompile

namespace Zip

/-- **What is written into an archive:** a directory, whose name ends in a separator, or a file. -/
inductive Item
  | directory (name : String)
  | file (name : String) (data : Bytes)

namespace Item

def name : Item → String
  | directory name => name
  | file name _ => name

def data : Item → Bytes
  | directory _ => []
  | file _ data => data

/-- The number of the packing of an item. -/
def method : Item → Nat
  | directory _ => 0
  | file .. => 8

def packed : Item → Bytes
  | directory _ => []
  | file _ data => (Deflate.deflate ⟨data.toArray⟩).data.toList

/-- The access rights of an item and its kind, as a unix system writes them. -/
def mode : Item → Nat
  | directory _ => 0o40755
  | file .. => 0o100644

end Item

/-- The version of the format that a reader needs. -/
def formatVersion : Nat := 20

/-- The first day of the format. -/
def firstDate : Nat := 0x21

/-- The fields that the header of a member and its directory entry have in common. -/
def commonFields (item : Item) (packed : Bytes) : Bytes :=
  let name := Bytes.ofString item.name
  let flags := if name.all (· < 0x80) then 0 else 0x0800
  let number := Bytes.ofNatLE
  number 2 formatVersion ++ number 2 flags ++ number 2 item.method ++ number 2 0 ++ number 2 firstDate
    ++ number 4 (Crc32.ofBytes item.data).toNat ++ number 4 packed.length ++ number 4 item.data.length
    ++ number 2 name.length ++ number 2 0

/-- A member with its header. -/
def localRecord (item : Item) (packed : Bytes) : Bytes :=
  Bytes.ofNatLE 4 0x04034b50 ++ commonFields item packed ++ Bytes.ofString item.name ++ packed

/-- The directory entry of a member that starts at a position. -/
def directoryRecord (item : Item) (packed : Bytes) (start : Nat) : Bytes :=
  Bytes.ofNatLE 4 0x02014b50 ++ Bytes.ofNatLE 2 (3 * 256 + formatVersion) ++ commonFields item packed
    ++ Bytes.ofNatLE 2 0 ++ Bytes.ofNatLE 2 0 ++ Bytes.ofNatLE 2 0
    ++ Bytes.ofNatLE 4 (item.mode * 65536) ++ Bytes.ofNatLE 4 start ++ Bytes.ofString item.name

/-- The members from a position on, and the directory entries for them. -/
def records : List Item → (start : Nat) → Bytes × Bytes
  | [], _ => ([], [])
  | item :: rest, start =>
    let packed := item.packed
    let record := localRecord item packed
    let (members, directory) := records rest (start + record.length)
    (record ++ members, directoryRecord item packed start ++ directory)

/-- **The bytes of an archive with the given items.** -/
def encode (items : List Item) : Bytes :=
  let (members, directory) := records items 0
  members ++ directory ++ Bytes.ofNatLE 4 0x06054b50 ++ Bytes.ofNatLE 4 0
    ++ Bytes.ofNatLE 2 items.length ++ Bytes.ofNatLE 2 items.length
    ++ Bytes.ofNatLE 4 directory.length ++ Bytes.ofNatLE 4 members.length ++ Bytes.ofNatLE 2 0

end Zip

end Recompile

import Recompile.Archive.Crc32
import Recompile.Archive.Zip.Codepage
import Recompile.Archive.Zip.Record

/-!
# Entries of the directory

An entry of the directory describes one member and ends with extra fields: sizes and positions that do not fit
into their places, times, the true packing of an encrypted member, and texts in UTF-8 for an entry in the old
code page. Fields of a kind that is not known are skipped. An entry with a field that contradicts itself is no
entry; but where the fields only end too early, what was read of them counts.
-/

namespace Recompile

namespace Zip

/-- **An entry of the directory.** -/
structure Entry where
  flags : Nat
  /-- The number of the packing. -/
  method : Nat
  time : Nat
  date : Nat
  checksum : Nat
  /-- The size of the contents. -/
  unpacked : Nat
  /-- The size of the packed contents. -/
  packed : Nat
  /-- Where the member starts. -/
  start : Nat
  /-- The name as it is stored. -/
  rawName : Bytes
  name : String
  comment : String
  /-- Whether the fields for a member with strong encryption are there. -/
  sealed : Bool := false

/-! ### Extra fields -/

/-- Why reading extra fields stops. -/
inductive ExtraStop
  /-- The fields end too early. -/
  | short
  /-- A field contradicts itself. -/
  | refused

/-- The extra fields that are still to be read, and the entry as they have changed it. -/
structure ExtraState where
  rest : Bytes
  entry : Entry

/-- A step of reading extra fields; what was read stays read when a step stops. -/
abbrev Extra := ExceptT ExtraStop (StateM ExtraState)

namespace Extra

def take (count : Nat) : Extra Bytes := do
  let s ← get
  if count ≤ s.rest.length then
    set { s with rest := s.rest.drop count }
    return s.rest.take count
  else throw .short

def number (width : Nat) : Extra Nat := Bytes.toNatLE <$> take width

/-- Goes on only if a condition holds. -/
def ensure (p : Prop) [Decidable p] : Extra Unit := if p then pure () else throw .refused

def change (f : Entry → Entry) : Extra Unit := modify fun s => { s with entry := f s.entry }

/-- Takes a wide number for one that is given elsewhere, and returns the number of bytes. In a field that is
long enough for all of them every number is there. -/
def wide (length : Nat) (value : Entry → Nat) (put : Entry → Nat → Entry) : Extra Nat := do
  if 24 ≤ length ∨ value (← get).entry = absentField then
    let n ← number 8
    change (put · n)
    return 8
  else return 0

/-- Sizes and the position of the member. -/
def extents (length : Nat) : Extra Unit := do
  let a ← wide length Entry.unpacked fun e unpacked => { e with unpacked }
  let b ← wide length Entry.packed fun e packed => { e with packed }
  let c ← wide length Entry.start fun e start => { e with start }
  ensure (a + b + c ≤ length)
  discard <| take (length - (a + b + c))

def fineTimes (length : Nat) : Extra Unit := do
  ensure (length = 32)
  discard <| take 4
  ensure ((← number 2) = 1)
  ensure ((← number 2) = 24)
  discard <| take 24

/-- The number of bits that are set among the low eight. -/
def bitCount (n : Nat) : Nat := ((List.range 8).filter fun k => n.testBit k).length

/-- Up to three times in seconds, with flags for those that are there. -/
def times (length : Nat) : Extra Unit := do
  let flags ← number 1
  ensure (length = 5 ∨ length = 1 + 4 * bitCount flags)
  ensure (flags < 8)
  if flags.testBit 0 ∨ length = 5 then discard <| take 4
  if flags.testBit 1 ∧ 5 < length then discard <| take 4
  if flags.testBit 2 ∧ 5 < length then discard <| take 4

/-- How a member is packed below its encryption. -/
def sealing (length : Nat) : Extra Unit := do
  ensure (length = 7)
  let version ← number 2
  let vendor ← number 2
  let strength ← number 1
  let method ← number 2
  ensure (vendor = 0x4541)
  ensure (version = 1 ∨ version = 2)
  ensure (strength = 1 ∨ strength = 2 ∨ strength = 3)
  change fun e => { e with method, sealed := true }

/-- A text in UTF-8 that takes the place of one with the right checksum. -/
def replacement (length : Nat) (current : Entry → Bytes) : Extra (Bytes × String) := do
  discard <| take 1
  let checksum ← number 4
  ensure (5 ≤ length)
  let content ← take (length - 5)
  ensure (checksum = (Crc32.ofBytes (current (← get).entry)).toNat)
  match Bytes.toString? content with
  | some s => return (content, s)
  | none => throw .refused

def field : Extra Unit := do
  let kind ← number 2
  let length ← number 2
  match kind with
  | 0x0001 => extents length
  | 0x000a => fineTimes length
  | 0x5455 => times length
  | 0x9901 => sealing length
  | 0x6375 => do
    let (_, comment) ← replacement length fun e => Bytes.ofString e.comment
    change fun e => { e with comment }
  | 0x7075 => do
    let (rawName, name) ← replacement length Entry.rawName
    change fun e => { e with rawName, name }
  | _ => discard <| take length

/-- Reads fields up to their end; `fuel` bounds their number. -/
def fields : (fuel : Nat) → Extra Unit
  | 0 => return
  | fuel + 1 => do
    if (← get).rest.isEmpty then return
    field
    fields fuel

end Extra

/-- An entry with what its extra fields add, unless one of them contradicts itself. -/
def Entry.extend? (e : Entry) (extra : Bytes) : Option Entry :=
  match (Extra.fields (extra.length + 1)).run.run ⟨extra, e⟩ with
  | (.error .refused, _) => none
  | (_, s) => some s.entry

/-! ### Entries -/

/-- The number of the packing that only says that a member has strong encryption. -/
def sealedMethod : Nat := 99

/-- **The entry of the directory at a position,** and where the next one starts. -/
def Entry.at? (b : ByteArray) (i : Nat) : Option (Entry × Nat) := do
  guard ((← u32? b i) = entryMark)
  let flags ← u16? b (i + 8)
  let nameLength ← u16? b (i + 28)
  let extraLength ← u16? b (i + 30)
  let commentLength ← u16? b (i + 32)
  let rawName ← slice? b (i + 46) nameLength
  let extra ← slice? b (i + 46 + nameLength) extraLength
  let comment ← slice? b (i + 46 + nameLength + extraLength) commentLength
  let utf8 := flags.testBit 11
  let given : Entry := {
    flags
    method := ← u16? b (i + 10)
    time := ← u16? b (i + 12)
    date := ← u16? b (i + 14)
    checksum := ← u32? b (i + 16)
    packed := ← u32? b (i + 20)
    unpacked := ← u32? b (i + 24)
    start := ← u32? b (i + 42)
    rawName
    name := decodeName utf8 rawName
    comment := decodeName utf8 comment }
  let e ← given.extend? extra
  guard (e.method ≠ sealedMethod ∨ e.sealed)
  return (e, i + 46 + nameLength + extraLength + commentLength)

end Zip

end Recompile

import Recompile.Text.Bytes

/-!
# The checksum of archive entries

The cyclic redundancy check of 32 bits with the reflected polynomial `EDB88320`, as every entry of an archive
carries it.
-/

namespace Recompile

namespace Crc32

/-- Divides eight more bits out. -/
def divide : (bits : Nat) → UInt32 → UInt32
  | 0, r => r
  | bits + 1, r => divide bits (if r &&& 1 = 1 then (r >>> 1) ^^^ 0xEDB88320 else r >>> 1)

/-- Takes in one byte. -/
def step (r : UInt32) (b : UInt8) : UInt32 := divide 8 (r ^^^ b.toUInt32)

/-- **The checksum of a byte string.** -/
def ofBytes (b : Bytes) : UInt32 := ~~~ (b.foldl step 0xFFFFFFFF)

end Crc32

end Recompile

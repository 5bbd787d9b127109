/-!
# Byte strings and their text forms

The contents of files, the input of digests and the records of archives are lists of bytes. This module
holds the ways between bytes and text that the rest of the library uses: UTF-8, strict and lossy, the
hexadecimal form of a digest, and little-endian numbers of a fixed width.
-/

namespace Recompile

/-- A string of bytes. -/
abbrev Bytes := List UInt8

namespace Bytes

/-! ### UTF-8 -/

/-- The UTF-8 form of a text. -/
def ofString (s : String) : Bytes := s.toByteArray.data.toList

def toString? (b : Bytes) : Option String := String.fromUTF8? ⟨b.toArray⟩

/-- What is at the front of a byte string read as UTF-8: a character of so many bytes, or a fault that
spans so many bytes. A fault is the longest run of bytes that begins some character, and one byte if there
is no such run. -/
inductive Lead
  | char (c : Char) (width : Nat)
  | fault (width : Nat)

def isContinuation (b : UInt8) : Bool := b &&& 0xC0 == 0x80

/-- The six payload bits of a continuation byte. -/
def payload (b : UInt8) : Nat := (b &&& 0x3F).toNat

/-- The bounds of the second byte of a character, by its first byte. -/
def secondBounds (b : UInt8) : UInt8 × UInt8 :=
  if b == 0xE0 then (0xA0, 0xBF)
  else if b == 0xED then (0x80, 0x9F)
  else if b == 0xF0 then (0x90, 0xBF)
  else if b == 0xF4 then (0x80, 0x8F)
  else (0x80, 0xBF)

/-- Reads one character or one fault; there is neither in the empty string. -/
def lead : Bytes → Lead
  | [] => .fault 0
  | b :: rest =>
    if b < 0x80 then .char (Char.ofNat b.toNat) 1
    else if b < 0xC2 || b > 0xF4 then .fault 1
    else
      match rest with
      | [] => .fault 1
      | c :: rest =>
        let bounds := secondBounds b
        if c < bounds.1 || c > bounds.2 then .fault 1
        else if b < 0xE0 then .char (Char.ofNat ((b &&& 0x1F).toNat * 64 + payload c)) 2
        else
          match rest with
          | [] => .fault 2
          | d :: rest =>
            if !isContinuation d then .fault 2
            else if b < 0xF0 then
              .char (Char.ofNat (((b &&& 0x0F).toNat * 64 + payload c) * 64 + payload d)) 3
            else
              match rest with
              | [] => .fault 3
              | e :: _ =>
                if !isContinuation e then .fault 3
                else
                  .char (Char.ofNat ((((b &&& 0x07).toNat * 64 + payload c) * 64 + payload d) * 64
                    + payload e)) 4

/-- The characters of a byte string, each fault read as one replacement character; `fuel` bounds the number
of steps. -/
def charsLossy : Nat → Bytes → List Char
  | 0, _ => []
  | _, [] => []
  | fuel + 1, b :: rest =>
    match lead (b :: rest) with
    | .char c width => c :: charsLossy fuel ((b :: rest).drop width)
    | .fault width => '\ufffd' :: charsLossy fuel ((b :: rest).drop width)

/-- The text of a byte string, with a replacement character for each fault. -/
def toStringLossy (b : Bytes) : String := String.ofList (charsLossy b.length b)

/-! ### Hexadecimal -/

/-- The hexadecimal digit of a number below sixteen. -/
def hexDigit (n : Nat) : Char := Nat.digitChar n

/-- The two lower-case digits of a byte. -/
def hexByte (b : UInt8) : List Char := [hexDigit (b.toNat / 16), hexDigit (b.toNat % 16)]

/-- The hexadecimal form of a byte string, two lower-case digits a byte. -/
def toHex (b : Bytes) : String := String.ofList (b.flatMap hexByte)

/-- The value of a hexadecimal digit, zero for other characters. -/
def hexValue (c : Char) : Nat :=
  if c.isDigit then c.toNat - '0'.toNat
  else if 'a' ≤ c ∧ c ≤ 'f' then c.toNat - 'a'.toNat + 10
  else if 'A' ≤ c ∧ c ≤ 'F' then c.toNat - 'A'.toNat + 10
  else 0

/-- The bytes that pairs of hexadecimal digits stand for. -/
def ofHexChars : List Char → Bytes
  | a :: b :: rest => UInt8.ofNat (hexValue a * 16 + hexValue b) :: ofHexChars rest
  | _ => []

def ofHex (s : String) : Bytes := ofHexChars s.toList

/-! ### Editing -/

/-- A byte string cut or filled up with zeros to a length. -/
def resize (b : Bytes) (n : Nat) : Bytes := b.take n ++ List.replicate (n - b.length) 0

/-- A byte string with another one written over it from a position on. -/
def overlay (b : Bytes) (n : Nat) (patch : Bytes) : Bytes := b.resize n ++ patch ++ b.drop (n + patch.length)

/-! ### Little-endian numbers -/

/-- The `width` low bytes of a number, the lowest first. -/
def ofNatLE : (width : Nat) → Nat → Bytes
  | 0, _ => []
  | width + 1, n => UInt8.ofNat (n % 256) :: ofNatLE width (n / 256)

/-- The number whose bytes are given, the lowest first. -/
def toNatLE : Bytes → Nat
  | [] => 0
  | b :: rest => b.toNat + 256 * toNatLE rest

@[simp] theorem length_ofNatLE (width n : Nat) : (ofNatLE width n).length = width := by
  induction width generalizing n with
  | zero => rfl
  | succ width ih => simp [ofNatLE, ih]

/-- A number that fits reads back. -/
theorem toNatLE_ofNatLE (width n : Nat) (h : n < Nat.pow 256 width) : toNatLE (ofNatLE width n) = n := by
  induction width generalizing n with
  | zero => simp_all [ofNatLE, toNatLE]
  | succ width ih =>
    have hdiv : n / 256 < Nat.pow 256 width := by
      rw [Nat.div_lt_iff_lt_mul (by decide)]
      simpa [Nat.pow_succ] using h
    simp only [ofNatLE, toNatLE, ih _ hdiv, UInt8.toNat_ofNat']
    omega

end Bytes

end Recompile

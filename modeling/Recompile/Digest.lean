import Recompile.Digest.Xxh3

/-!
# Content digests

A build decides whether a source or a class has changed by comparing digests, never by comparing contents.
`Digest.ofBytes` is the digest of a byte string and `Digest.ofParts` the digest of a list of them. The
parts are handed to a hasher one after another, each with its length in front, so that a list is told apart
from every other list with the same concatenation. Put together, that is the stream `Digest.frame`.

A digest is written as 32 hexadecimal digits, its low word first and every word from its lowest byte on.
-/

namespace Recompile

/-- **The digest of some content,** two words of 64 bits. -/
structure Digest where
  low : UInt64
  high : UInt64
deriving DecidableEq, Repr, Inhabited

namespace Digest

def ofBytes (b : Bytes) : Digest :=
  let h := Xxh3.hash ⟨b.toArray⟩
  ⟨h.low, h.high⟩

/-- The digest of a text, through its UTF-8 form. -/
def ofString (s : String) : Digest := ofBytes (Bytes.ofString s)

/-- **A hasher that takes its input in pieces.** -/
structure Hasher (σ : Type) where
  /-- The state before any input. -/
  start : σ
  /-- Takes in the next piece. -/
  update : σ → Bytes → σ
  /-- The digest of all that was taken in. -/
  digest : σ → Digest

namespace Hasher

/-- The hasher that keeps its input until it is asked for the digest. -/
def keeping : Hasher Bytes := ⟨[], (· ++ ·), ofBytes⟩

/-- Takes in the next part, its length in eight bytes first. -/
def updatePart {σ : Type} (h : Hasher σ) (s : σ) (part : Bytes) : σ :=
  h.update (h.update s (Bytes.ofNatLE 8 part.length)) part

def ofParts {σ : Type} (h : Hasher σ) (parts : List Bytes) : Digest :=
  h.digest (parts.foldl h.updatePart h.start)

end Hasher

def ofParts (parts : List Bytes) : Digest := Hasher.keeping.ofParts parts

/-- The parts one after another, each after its length in eight bytes. -/
def frame (parts : List Bytes) : Bytes :=
  parts.flatMap fun part => Bytes.ofNatLE 8 part.length ++ part

/-! ### Written forms -/

def bytes (d : Digest) : Bytes :=
  Bytes.ofNatLE 8 d.low.toNat ++ Bytes.ofNatLE 8 d.high.toNat

def ofRaw (b : Bytes) : Digest :=
  ⟨UInt64.ofNat (Bytes.toNatLE (b.take 8)), UInt64.ofNat (Bytes.toNatLE ((b.drop 8).take 8))⟩

@[simp] theorem length_bytes (d : Digest) : d.bytes.length = 16 := by simp [bytes]

@[simp] theorem ofRaw_bytes (d : Digest) : ofRaw d.bytes = d := by
  have hl : (Bytes.ofNatLE 8 d.low.toNat).length = 8 := Bytes.length_ofNatLE ..
  have hh : (Bytes.ofNatLE 8 d.high.toNat).length = 8 := Bytes.length_ofNatLE ..
  have htake : d.bytes.take 8 = Bytes.ofNatLE 8 d.low.toNat := List.take_left' hl
  have hdrop : (d.bytes.drop 8).take 8 = Bytes.ofNatLE 8 d.high.toNat := by
    rw [bytes, List.drop_left' hl, List.take_of_length_le (Nat.le_of_eq hh)]
  rw [ofRaw, htake, hdrop, Bytes.toNatLE_ofNatLE _ _ d.low.toNat_lt,
    Bytes.toNatLE_ofNatLE _ _ d.high.toNat_lt]
  simp

/-- The 32 hexadecimal digits of a digest. -/
def toHex (d : Digest) : String := Bytes.toHex d.bytes

instance : ToString Digest := ⟨toHex⟩

/-- The short form of a digest, which shows its first two bytes. -/
def describe (d : Digest) : String :=
  "ContentHash(" ++ Bytes.toHex (d.bytes.take 2) ++ "..)"

end Digest

end Recompile

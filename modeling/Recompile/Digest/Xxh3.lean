import Recompile.Text.Bytes

/-!
# The 128-bit XXH3 hash

XXH3 with seed zero and the standard secret, as far as one-shot hashing needs it. Inputs are treated by
length: nothing, up to 3, 8, 16, 128 and 240 bytes, and more. Up to 240 bytes the input is folded into two
words; a longer one goes through eight accumulators, in stripes of 64 bytes and blocks of sixteen stripes.

The value of the hash is fixed by its published definition. Nothing in the library depends on how it is
computed, only on its being a function of the input.
-/

namespace Recompile

namespace Xxh3

/-! ### Words -/

/-- Two words, the result of a full multiplication and the state of the short hashes. -/
@[ext] structure Wide where
  low : UInt64
  high : UInt64
deriving DecidableEq, Repr, Inhabited

/-- The byte at a position, zero outside the input. -/
def byteAt (b : ByteArray) (i : Nat) : UInt64 :=
  if h : i < b.size then b[i].toUInt64 else 0

/-- The little-endian word of 32 bits at a position. -/
def word32 (b : ByteArray) (i : Nat) : UInt64 :=
  byteAt b i ||| byteAt b (i + 1) <<< 8 ||| byteAt b (i + 2) <<< 16 ||| byteAt b (i + 3) <<< 24

/-- The little-endian word of 64 bits at a position. -/
def word64 (b : ByteArray) (i : Nat) : UInt64 :=
  word32 b i ||| word32 b (i + 4) <<< 32

/-- The lower half of a word. -/
def lower (x : UInt64) : UInt64 := x &&& 0xFFFFFFFF

/-- The upper half of a word. -/
def upper (x : UInt64) : UInt64 := x >>> 32

/-- The full product of two words. -/
def multiply (a b : UInt64) : Wide :=
  let ll := lower a * lower b
  let hl := upper a * lower b
  let lh := lower a * upper b
  let cross := upper ll + lower hl + lh
  ⟨cross <<< 32 ||| lower ll, upper hl + upper cross + upper a * upper b⟩

/-- The exclusive or of the halves of a full product. -/
def fold (a b : UInt64) : UInt64 :=
  let p := multiply a b
  p.low ^^^ p.high

/-- A word xored with itself shifted right. -/
def xorShift (x : UInt64) (n : UInt64) : UInt64 := x ^^^ (x >>> n)

/-- The bytes of a 32-bit word in the opposite order. -/
def swap32 (x : UInt64) : UInt64 :=
  (x &&& 0xFF) <<< 24 ||| (x >>> 8 &&& 0xFF) <<< 16 ||| (x >>> 16 &&& 0xFF) <<< 8 ||| (x >>> 24 &&& 0xFF)

/-- The bytes of a 64-bit word in the opposite order. -/
def swap64 (x : UInt64) : UInt64 :=
  swap32 (lower x) <<< 32 ||| swap32 (upper x)

/-! ### Constants -/

def prime32₁ : UInt64 := 0x9E3779B1
def prime32₂ : UInt64 := 0x85EBCA77
def prime32₃ : UInt64 := 0xC2B2AE3D
def prime64₁ : UInt64 := 0x9E3779B185EBCA87
def prime64₂ : UInt64 := 0xC2B2AE3D27D4EB4F
def prime64₃ : UInt64 := 0x165667B19E3779F9
def prime64₄ : UInt64 := 0x85EBCA77C2B2AE63
def prime64₅ : UInt64 := 0x27D4EB2F165667C5

def secret : ByteArray := ⟨#[
  0xb8, 0xfe, 0x6c, 0x39, 0x23, 0xa4, 0x4b, 0xbe, 0x7c, 0x01, 0x81, 0x2c, 0xf7, 0x21, 0xad, 0x1c,
  0xde, 0xd4, 0x6d, 0xe9, 0x83, 0x90, 0x97, 0xdb, 0x72, 0x40, 0xa4, 0xa4, 0xb7, 0xb3, 0x67, 0x1f,
  0xcb, 0x79, 0xe6, 0x4e, 0xcc, 0xc0, 0xe5, 0x78, 0x82, 0x5a, 0xd0, 0x7d, 0xcc, 0xff, 0x72, 0x21,
  0xb8, 0x08, 0x46, 0x74, 0xf7, 0x43, 0x24, 0x8e, 0xe0, 0x35, 0x90, 0xe6, 0x81, 0x3a, 0x26, 0x4c,
  0x3c, 0x28, 0x52, 0xbb, 0x91, 0xc3, 0x00, 0xcb, 0x88, 0xd0, 0x65, 0x8b, 0x1b, 0x53, 0x2e, 0xa3,
  0x71, 0x64, 0x48, 0x97, 0xa2, 0x0d, 0xf9, 0x4e, 0x38, 0x19, 0xef, 0x46, 0xa9, 0xde, 0xac, 0xd8,
  0xa8, 0xfa, 0x76, 0x3f, 0xe3, 0x9c, 0x34, 0x3f, 0xf9, 0xdc, 0xbb, 0xc7, 0xc7, 0x0b, 0x4f, 0x1d,
  0x8a, 0x51, 0xe0, 0x4b, 0xcd, 0xb4, 0x59, 0x31, 0xc8, 0x9f, 0x7e, 0xc9, 0xd9, 0x78, 0x73, 0x64,
  0xea, 0xc5, 0xac, 0x83, 0x34, 0xd3, 0xeb, 0xc3, 0xc5, 0x81, 0xa0, 0xff, 0xfa, 0x13, 0x63, 0xeb,
  0x17, 0x0d, 0xdd, 0x51, 0xb7, 0xf0, 0xda, 0x49, 0xd3, 0x16, 0x55, 0x26, 0x29, 0xd4, 0x68, 0x9e,
  0x2b, 0x16, 0xbe, 0x58, 0x7d, 0x47, 0xa1, 0xfc, 0x8f, 0xf8, 0xb8, 0xd1, 0x7a, 0xd0, 0x31, 0xce,
  0x45, 0xcb, 0x3a, 0x8f, 0x95, 0x16, 0x04, 0x28, 0xaf, 0xd7, 0xfb, 0xca, 0xbb, 0x4b, 0x40, 0x7e]⟩

/-! ### Finishing -/

/-- Spreads the bits of a state word. -/
def avalanche (x : UInt64) : UInt64 :=
  xorShift (xorShift x 37 * 0x165667919E3779F9) 32

/-- Spreads the bits of a keyed word of the shortest inputs. -/
def avalancheShort (x : UInt64) : UInt64 :=
  xorShift (xorShift (xorShift x 33 * prime64₂) 29 * prime64₃) 32

/-! ### Inputs of at most sixteen bytes -/

def hashNothing : Wide :=
  ⟨avalancheShort (word64 secret 64 ^^^ word64 secret 72),
    avalancheShort (word64 secret 80 ^^^ word64 secret 88)⟩

def hashTo3 (b : ByteArray) : Wide :=
  let size := b.size.toUInt64
  let low := byteAt b 0 <<< 16 ||| byteAt b (b.size / 2) <<< 24 ||| byteAt b (b.size - 1) ||| size <<< 8
  let turned := swap32 low
  let high := lower (turned <<< 13) ||| turned >>> 19
  ⟨avalancheShort (low ^^^ (word32 secret 0 ^^^ word32 secret 4)),
    avalancheShort (high ^^^ (word32 secret 8 ^^^ word32 secret 12))⟩

def hashTo8 (b : ByteArray) : Wide :=
  let both := word32 b 0 + word32 b (b.size - 4) <<< 32
  let keyed := both ^^^ (word64 secret 16 ^^^ word64 secret 24)
  let m := multiply keyed (prime64₁ + b.size.toUInt64 <<< 2)
  let high := m.high + m.low <<< 1
  let low := m.low ^^^ (high >>> 3)
  ⟨xorShift (xorShift low 35 * 0x9FB21C651E98DF25) 28, avalanche high⟩

def hashTo16 (b : ByteArray) : Wide :=
  let first := word64 b 0
  let last := word64 b (b.size - 8)
  let m := multiply (first ^^^ last ^^^ (word64 secret 32 ^^^ word64 secret 40)) prime64₁
  let low := m.low + (b.size - 1).toUInt64 <<< 54
  let last := last ^^^ (word64 secret 48 ^^^ word64 secret 56)
  let high := m.high + (last + lower last * (prime32₂ - 1))
  let n := multiply (low ^^^ swap64 high) prime64₂
  ⟨avalanche n.low, avalanche (n.high + high * prime64₂)⟩

/-! ### Inputs of at most 240 bytes -/

/-- Sixteen bytes of input under sixteen bytes of the secret. -/
def mix16 (b : ByteArray) (i s : Nat) : UInt64 :=
  fold (word64 b i ^^^ word64 secret s) (word64 b (i + 8) ^^^ word64 secret (s + 8))

/-- Folds the sixteen bytes at `i` and the sixteen at `j` into the state. -/
def mix32 (b : ByteArray) (i j s : Nat) (acc : Wide) : Wide :=
  ⟨(acc.low + mix16 b i s) ^^^ (word64 b j + word64 b (j + 8)),
    (acc.high + mix16 b j (s + 16)) ^^^ (word64 b i + word64 b (i + 8))⟩

/-- The hash that belongs to a state of the middle lengths. -/
def finishMiddle (size : UInt64) (acc : Wide) : Wide :=
  ⟨avalanche (acc.low + acc.high),
    0 - avalanche (acc.low * prime64₁ + acc.high * prime64₄ + size * prime64₂)⟩

/-- The hash of 17 to 128 bytes: pairs of pieces from the middle outwards. -/
def hashTo128 (b : ByteArray) : Wide :=
  let n := b.size
  let step (k : Nat) (acc : Wide) : Wide :=
    if 32 * k < n then mix32 b (16 * k) (n - 16 * (k + 1)) (32 * k) acc else acc
  finishMiddle n.toUInt64 (mix32 b 0 (n - 16) 0 (step 1 (step 2 (step 3 ⟨n.toUInt64 * prime64₁, 0⟩))))

/-- The hash of 129 to 240 bytes: consecutive pieces of 32 bytes, then the last 32. -/
def hashTo240 (b : ByteArray) : Wide :=
  let n := b.size
  let start : Wide := ⟨n.toUInt64 * prime64₁, 0⟩
  let front := (List.range 4).foldl (fun acc k => mix32 b (32 * k) (32 * k + 16) (32 * k) acc) start
  let spread : Wide := ⟨avalanche front.low, avalanche front.high⟩
  let middle := (List.range (n / 32 - 4)).foldl
    (fun acc k => mix32 b (32 * (k + 4)) (32 * (k + 4) + 16) (32 * k + 3) acc) spread
  finishMiddle n.toUInt64 (mix32 b (n - 16) (n - 32) 103 middle)

/-! ### Longer inputs -/

/-- The eight accumulators before any input. -/
def accumulators : Array UInt64 :=
  #[prime32₃, prime64₁, prime64₂, prime64₃, prime64₄, prime32₂, prime64₅, prime32₁]

/-- Adds a value to one accumulator. -/
def bump (acc : Array UInt64) (i : Nat) (x : UInt64) : Array UInt64 := acc.modify i (· + x)

/-- Takes in the stripe of 64 bytes at `i` under the secret from `s` on. -/
def stripe (b : ByteArray) (i s : Nat) (acc : Array UInt64) : Array UInt64 :=
  (List.range 8).foldl (fun acc k =>
    let value := word64 b (i + 8 * k)
    let keyed := value ^^^ word64 secret (s + 8 * k)
    bump (bump acc (k ^^^ 1) value) k (lower keyed * upper keyed)) acc

/-- Stirs the accumulators at the end of a block. -/
def scramble (acc : Array UInt64) : Array UInt64 :=
  (List.range 8).foldl (fun acc k =>
    acc.modify k fun x => (xorShift x 47 ^^^ word64 secret (128 + 8 * k)) * prime32₁) acc

/-- Takes in `count` stripes from `i` on, each under the secret eight bytes further. -/
def stripes (b : ByteArray) (i count : Nat) (acc : Array UInt64) : Array UInt64 :=
  (List.range count).foldl (fun acc k => stripe b (i + 64 * k) (8 * k) acc) acc

/-- Folds the accumulators into one word under the secret from `s` on. -/
def merge (acc : Array UInt64) (s : Nat) (start : UInt64) : UInt64 :=
  avalanche <| (List.range 4).foldl (fun sum k =>
    sum + fold (acc.getD (2 * k) 0 ^^^ word64 secret (s + 16 * k))
      (acc.getD (2 * k + 1) 0 ^^^ word64 secret (s + 16 * k + 8))) start

/-- The hash of more than 240 bytes. The last stripe is the last 64 bytes, whatever went before. -/
def hashLong (b : ByteArray) : Wide :=
  let n := b.size
  let blocks := (n - 1) / 1024
  let acc := (List.range blocks).foldl (fun acc k => scramble (stripes b (1024 * k) 16 acc)) accumulators
  let acc := stripes b (1024 * blocks) ((n - 1 - 1024 * blocks) / 64) acc
  let acc := stripe b (n - 64) 121 acc
  ⟨merge acc 11 (n.toUInt64 * prime64₁), merge acc 117 (~~~ (n.toUInt64 * prime64₂))⟩

/-- **The 128-bit XXH3 hash of a byte string.** -/
def hash (b : ByteArray) : Wide :=
  if b.size = 0 then hashNothing
  else if b.size ≤ 3 then hashTo3 b
  else if b.size ≤ 8 then hashTo8 b
  else if b.size ≤ 16 then hashTo16 b
  else if b.size ≤ 128 then hashTo128 b
  else if b.size ≤ 240 then hashTo240 b
  else hashLong b

end Xxh3

end Recompile

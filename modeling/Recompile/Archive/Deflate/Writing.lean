import Recompile.Archive.Deflate.Matching

/-!
# Writing deflate streams

The tokens of an input go into blocks, each with the Huffman codes that fit it, or with the fixed codes if it
is short. A block that coding would not make smaller is stored.

Code lengths come from the usual merging of the two rarest trees, where a leaf is preferred to a tree of the
same weight. Lengths above the limit of the format are cut back, at the expense of the longest codes below it.
-/

namespace Recompile

namespace Deflate

/-! ### Bits -/

/-- The bits that were written: whole bytes, and those of a byte that was begun. -/
structure BitString where
  whole : ByteArray := .empty
  /-- The value of the bits of the last byte. -/
  part : Nat := 0
  /-- The number of bits in the last byte, below eight. -/
  count : Nat := 0

namespace BitString

/-- Moves full bytes to the whole ones. -/
def carry : (fuel : Nat) → BitString → BitString
  | 0, s => s
  | fuel + 1, s =>
    if 8 ≤ s.count then carry fuel ⟨s.whole.push (UInt8.ofNat (s.part % 256)), s.part / 256, s.count - 8⟩
    else s

/-- Writes a number of some bits, the lowest first. -/
def put (s : BitString) (value bits : Nat) : BitString :=
  carry (bits / 8 + 1) ⟨s.whole, s.part + value <<< s.count, s.count + bits⟩

/-- Fills the byte that was begun. -/
def pad (s : BitString) : BitString := if s.count = 0 then s else s.put 0 (8 - s.count)

end BitString

/-- The bits of a number in the opposite order. -/
def reverseBits : (bits value : Nat) → Nat
  | 0, _ => 0
  | bits + 1, value => (value % 2) <<< bits + reverseBits bits (value / 2)

/-! ### Code lengths -/

/-- A tree of the merging as far as it matters: its weight and the depths of its leaves. -/
structure Grove where
  weight : Nat
  depths : List Nat

/-- Two trees under one root. -/
def Grove.merge (a b : Grove) : Grove := ⟨a.weight + b.weight, (a.depths ++ b.depths).map (· + 1)⟩

/-- Takes the lighter of the first leaf and the first tree, the leaf if they weigh the same. -/
def takeLighter (leaves trees : List Grove) : Option (Grove × List Grove × List Grove) :=
  match leaves, trees with
  | [], [] => none
  | l :: leaves, [] => some (l, leaves, [])
  | [], t :: trees => some (t, [], trees)
  -- of equal weights the leaf: the depths depend on it
  | l :: leaves, t :: trees =>
    if t.weight < l.weight then some (t, l :: leaves, trees) else some (l, leaves, t :: trees)

/-- Merges until one tree is left, and returns the depths of its leaves. Leaves and trees are both in
ascending order of weight. -/
def mergeAll : (fuel : Nat) → (leaves trees : List Grove) → List Nat
  | 0, _, _ => []
  | fuel + 1, leaves, trees =>
    match takeLighter leaves trees with
    | none => []
    | some (a, leaves, trees) =>
      match takeLighter leaves trees with
      | none => a.depths
      | some (b, leaves, trees) => mergeAll fuel leaves (trees ++ [a.merge b])

/-- The number of codes of each length, for weights in ascending order. A single symbol has a code of one
bit. -/
def depthCounts (weights : List Nat) : Array Nat :=
  let depths := match weights with
    -- nothing to merge, but a code has at least one bit
    | [_] => [1]
    | _ => mergeAll (weights.length + 1) (weights.map fun w => ⟨w, [0]⟩) []
  depths.foldl (fun counts d => counts.modify (min d 32) (· + 1)) (Array.replicate 33 0)

/-- Makes one code at the limit a sibling of a shorter one. -/
def shorten (limit : Nat) (counts : Array Nat) : Array Nat :=
  let counts := counts.modify limit (· - 1)
  match ((List.range limit).reverse.filter fun n => n ≠ 0 ∧ counts.getD n 0 ≠ 0).head? with
  -- the longest code that is still below the limit becomes two, one bit longer
  | some n => (counts.modify n (· - 1)).modify (n + 1) (· + 2)
  | none => counts

/-- Cuts code lengths back to a limit. -/
def limitDepths (limit used : Nat) (counts : Array Nat) : Array Nat :=
  if used ≤ 1 then counts
  else
    let excess := (List.range 33).foldl (fun sum n => if limit < n then sum + counts.getD n 0 else sum) 0
    let counts := ((counts.extract 0 (limit + 1)).modify limit (· + excess))
    -- the cut codes take too much room, one part of which each step gives back
    let weight := (List.range (limit + 1)).foldl
      (fun sum n => if n = 0 then sum else sum + counts.getD n 0 <<< (limit - n)) 0
    (List.range (weight - 1 <<< limit)).foldl (fun counts _ => shorten limit counts) counts

/-- **The code lengths for some frequencies.** The more frequent of two symbols never has the longer code. -/
def codeLengthsFor (limit : Nat) (frequencies : Array Nat) : Array Nat :=
  let used := (frequencies.toList.zipIdx.filter fun e => e.1 ≠ 0).mergeSort fun a b => a.1 ≤ b.1
  let counts := limitDepths limit used.length (depthCounts (used.map (·.1)))
  let lengths := (List.range (limit + 1)).flatMap fun n => List.replicate (if n = 0 then 0 else counts.getD n 0) n
  -- the shortest lengths go to the most frequent symbols, the last ones of the list
  (used.reverse.zip lengths).foldl (fun acc e => acc.setIfInBounds e.1.2 e.2)
    (Array.replicate frequencies.size 0)

/-! ### The description of the codes of a block -/

/-- A code length symbol with the value and the number of its extra bits. -/
structure LengthSymbol where
  symbol : Nat
  extra : Nat := 0
  bits : Nat := 0

def zeroRun (n : Nat) : List LengthSymbol :=
  if n < 3 then List.replicate n ⟨0, 0, 0⟩
  else if n ≤ 10 then [⟨17, n - 3, 3⟩]
  else [⟨18, n - 11, 7⟩]

def repeatRun (length n : Nat) : List LengthSymbol :=
  if n < 3 then List.replicate n ⟨length, 0, 0⟩ else [⟨16, n - 3, 2⟩]

/-- The state of packing code lengths: zeros and repetitions that are still to be written, the length before,
and what was written. -/
structure Packing where
  zeros : Nat := 0
  repeats : Nat := 0
  last : Option Nat := none
  written : Array LengthSymbol := #[]

def Packing.flushRepeats (s : Packing) : Packing :=
  { s with repeats := 0, written := s.written ++ (repeatRun (s.last.getD 0) s.repeats).toArray }

def Packing.flushZeros (s : Packing) : Packing :=
  { s with zeros := 0, written := s.written ++ (zeroRun s.zeros).toArray }

/-- Takes in one code length. -/
def Packing.add (s : Packing) (length : Nat) : Packing :=
  let s :=
    if length = 0 then
      let s := s.flushRepeats
      let s := { s with zeros := s.zeros + 1 }
      -- the longest run that one symbol can say
      if s.zeros = 138 then s.flushZeros else s
    else
      let s := s.flushZeros
      if s.last ≠ some length then
        let s := s.flushRepeats
        { s with written := s.written.push ⟨length, 0, 0⟩ }
      else
        let s := { s with repeats := s.repeats + 1 }
        if s.repeats = 6 then s.flushRepeats else s
  { s with last := some length }

/-- The symbols that describe some code lengths. -/
def packLengths (lengths : List Nat) : Array LengthSymbol :=
  let s := lengths.foldl Packing.add {}
  (if s.repeats ≠ 0 then s.flushRepeats else s.flushZeros).written

/-! ### Blocks -/

/-- Writes a symbol of a code given by its lengths and codes. -/
def putSymbol (s : BitString) (lengths codes : Array Nat) (symbol : Nat) : BitString :=
  let n := lengths.getD symbol 0
  -- codes are the one thing that is written from the highest bit on
  s.put (reverseBits n (codes.getD symbol 0)) n

/-- Writes tokens and the end of the block in codes of the given lengths. -/
def putTokens (s : BitString) (literals distances : Array Nat) (block : List Token) : BitString :=
  let literalCodes := canonicalCodes literals
  let distanceCodes := canonicalCodes distances
  let s := block.foldl (fun s t =>
    match t with
    | .literal b => putSymbol s literals literalCodes b.toNat
    | .copy length distance =>
      let l := rangeIndex lengthBase length
      let d := rangeIndex distanceBase distance
      let s := putSymbol s literals literalCodes (257 + l)
      let s := s.put (length - lengthBase.getD l 0) (lengthExtra.getD l 0)
      let s := putSymbol s distances distanceCodes d
      s.put (distance - distanceBase.getD d 0) (distanceExtra.getD d 0)) s
  putSymbol s literals literalCodes endOfBlock

def frequencies (block : List Token) : Array Nat × Array Nat :=
  block.foldl (fun acc t =>
    match t with
    | .literal b => (acc.1.modify b.toNat (· + 1), acc.2)
    | .copy length distance =>
      (acc.1.modify (257 + rangeIndex lengthBase length) (· + 1),
        acc.2.modify (rangeIndex distanceBase distance) (· + 1)))
    -- every block has its end
    ((Array.replicate 288 0).setIfInBounds endOfBlock 1, Array.replicate 32 0)

/-- The number of entries up to the last one that is not zero, at least `least`. -/
def usedLength (least : Nat) (lengths : Array Nat) : Nat :=
  max least ((lengths.toList.reverse.dropWhile (· = 0)).length)

def putDynamic (s : BitString) (block : List Token) : BitString :=
  let (f, g) := frequencies block
  let literals := codeLengthsFor 15 f
  let distances := codeLengthsFor 15 g
  -- the trailing zeros of the lengths are left out, as far as the format allows
  let literalCount := usedLength 257 (literals.extract 0 286)
  let distanceCount := usedLength 1 (distances.extract 0 30)
  let packed := packLengths
    ((literals.extract 0 literalCount).toList ++ (distances.extract 0 distanceCount).toList)
  let orders := codeLengthsFor 7
    (packed.foldl (fun acc e => acc.modify e.symbol (· + 1)) (Array.replicate 19 0))
  let orderCount := max 4
    ((lengthOrder.reverse.dropWhile fun k => orders.getD k 0 = 0).length)
  let s := ((((s.put 2 2).put (literalCount - 257) 5).put (distanceCount - 1) 5).put (orderCount - 4) 4)
  let s := (lengthOrder.take orderCount).foldl (fun s k => s.put (orders.getD k 0) 3) s
  let orderCodes := canonicalCodes orders
  let s := packed.foldl (fun s e => (putSymbol s orders orderCodes e.symbol).put e.extra e.bits) s
  putTokens s literals distances block

def putFixed (s : BitString) (block : List Token) : BitString :=
  putTokens (s.put 1 2) fixedLiterals fixedDistances block

def putStored (s : BitString) (data : List UInt8) : BitString :=
  let s := (s.put 0 2).pad
  let s := (s.put (data.length % 65536) 16).put (65535 - data.length % 65536) 16
  data.foldl (fun s b => s.put b.toNat 8) s

/-- Writes a block that stands for the given bytes. -/
def putBlock (s : BitString) (final : Bool) (block : List Token) (data : List UInt8) : BitString :=
  let s := s.put (if final then 1 else 0) 1
  -- a short block is not worth codes of its own
  let size := data.length
  let coded := if size < 48 then putFixed s block else putDynamic s block
  -- stored only if it is no longer than coded
  if 32 < size ∧ size ≤ coded.whole.size - s.whole.size + 1 ∧ size ≤ windowSize then putStored s data
  else coded

/-- The blocks of a list of tokens: how much room a block takes in a table of 64 KiB decides where it ends,
and a block of poorly matched input ends earlier. -/
def splitBlocks (all : Array Token) : Array (Array Token) × Array Token :=
  let step (acc : Array (Array Token) × Array Token × Nat × Nat) (t : Token) :=
    let (done, block, room, size) := acc
    let block := block.push t
    -- a literal takes a byte, a copy three, and eight tokens share one more
    let room := room + (match t with
      | .literal _ => 1
      | .copy .. => 3) + (if block.size % 8 = 0 then 1 else 0)
    let size := size + t.size
    if 65536 - 8 < room ∨ (31 * 1024 < size ∧ size ≤ room * 115 / 128) then (done.push block, #[], 1, 0)
    else (done, block, room, size)
  let (done, block, _) := all.foldl step (#[], #[], 1, 0)
  (done, block)

/-- **Writes a stream.** -/
def deflate (x : ByteArray) : ByteArray :=
  let (done, last) := splitBlocks (tokens x)
  let size (block : Array Token) : Nat := block.foldl (fun n t => n + t.size) 0
  let (s, start) := done.foldl (fun (acc : BitString × Nat) block =>
    let next := acc.2 + size block
    (putBlock acc.1 false block.toList (x.extract acc.2 next).data.toList, next)) ({}, 0)
  (putBlock s true last.toList (x.extract start x.size).data.toList).pad.whole

end Deflate

end Recompile

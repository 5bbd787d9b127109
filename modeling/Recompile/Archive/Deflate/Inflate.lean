import Recompile.Archive.Deflate.Code

/-!
# Reading deflate streams

A stream is a sequence of blocks, stored, with fixed codes or with codes of its own, read bit by bit from the
low end of each byte. `Deflate.inflate` returns what it could read and how the reading ended: at the end of
the last block, at the end of the input, or at something that no writer writes.
-/

namespace Recompile

namespace Deflate

/-- Why reading a stream stopped before its end. -/
inductive Stop
  /-- The input ended. -/
  | truncated
  /-- The input is no deflate stream. -/
  | corrupt
deriving DecidableEq, Repr

/-- What has been read. -/
structure Reading where
  /-- The number of bits that were read. -/
  position : Nat := 0
  output : ByteArray := .empty

/-- A step of reading; what was read stays read when a step stops. -/
abbrev Inflating := ExceptT Stop (StateM Reading)

variable (input : ByteArray)

def bit : Inflating Nat := do
  let s ← get
  if h : s.position / 8 < input.size then
    set { s with position := s.position + 1 }
    return (input[s.position / 8].toNat >>> (s.position % 8)) % 2
  else throw .truncated

/-- Reads a number of some bits, the lowest first. -/
def bits : (count : Nat) → Inflating Nat
  | 0 => return 0
  | count + 1 => do
    let low ← bit input
    let high ← bits count
    return low + 2 * high

/-- Skips the rest of a byte that was begun. -/
def align : Inflating Unit :=
  modify fun s => { s with position := (s.position + 7) / 8 * 8 }

/-- Adds a byte to the output. -/
def emit (b : UInt8) : Inflating Unit := modify fun s => { s with output := s.output.push b }

/-- The byte of the output that is so far back. In front of the output there are zeros. -/
def Reading.back (s : Reading) (distance : Nat) : UInt8 :=
  if h : distance ≤ s.output.size ∧ 0 < distance then
    have : s.output.size - distance < s.output.size := by omega
    s.output[s.output.size - distance]
  else 0

/-- Adds a copy of earlier output, byte by byte, so that a copy may overlap itself. -/
def emitCopy : (length distance : Nat) → Inflating Unit
  | 0, _ => return
  | length + 1, distance => do
    emit ((← get).back distance)
    emitCopy length distance

/-! ### Codes -/

/-- A code as it is read: the number of codes of each length, and the symbols in the order of their codes. -/
structure Decoder where
  counts : Array Nat
  symbols : Array Nat
  /-- The part of all sequences of sixteen bits that begin with some code. -/
  weight : Nat

/-- The weight of a code that every sequence of bits begins with. -/
def fullWeight : Nat := 0x10000

/-- The decoder for some code lengths. A code that is oversubscribed is refused, and an incomplete one too,
unless it may be incomplete and has no symbol, or one symbol whose code is a single bit. -/
def Decoder.ofLengths? (mayLack : Bool) (lengths : Array Nat) : Option Decoder :=
  let counts := lengthCounts lengths
  let used := lengths.foldl (fun n l => if l = 0 then n else n + 1) 0
  let weight := (List.range 16).foldl (fun sum n => sum + counts.getD n 0 <<< (16 - n)) 0
  if weight = fullWeight ∨ mayLack ∧ (used = 0 ∨ used = 1 ∧ 2 * weight = fullWeight) then
    let indexed := lengths.toList.zipIdx
    let symbols := (List.range 16).flatMap fun n =>
      if n = 0 then [] else (indexed.filter fun e => e.1 = n).map (·.2)
    some ⟨counts, symbols.toArray, weight⟩
  else none

/-- Reads on in a code of which `length` bits were read; `first` is the first code of that length and
`index` the number of shorter codes. Bits that no code begins with are damage as soon as they are read. -/
def Decoder.next (d : Decoder) (length : Nat) : (fuel code first index : Nat) → Inflating Nat
  | 0, _, _, _ => throw .corrupt
  | fuel + 1, code, first, index => do
    let code := code + (← bit input)
    -- the codes of one length follow one another, and those of the next length follow them twice as dense
    let count := d.counts.getD length 0
    if d.weight ≤ code <<< (16 - length) then throw .corrupt
    else if code < first + count then
      match d.symbols[index + (code - first)]? with
      | some s => return s
      | none => throw .corrupt
    else Decoder.next d (length + 1) fuel (2 * code) (2 * (first + count)) (index + count)

def Decoder.symbol (d : Decoder) : Inflating Nat := d.next input 1 15 0 0 0

/-! ### Blocks -/

/-- Reads the symbols of a block up to its end. -/
def coded (literals distances : Decoder) : (fuel : Nat) → Inflating Unit
  | 0 => throw .corrupt
  | fuel + 1 => do
    let s ← literals.symbol input
    if s < endOfBlock then
      emit (UInt8.ofNat s)
      coded literals distances fuel
    else if s = endOfBlock then return
    else
      match lengthBase[s - 257]?, lengthExtra[s - 257]? with
      | some base, some extra =>
        let length := base + (← bits input extra)
        let d ← distances.symbol input
        match distanceBase[d]?, distanceExtra[d]? with
        | some base, some extra =>
          emitCopy length (base + (← bits input extra))
          coded literals distances fuel
        | _, _ => throw .corrupt
      | _, _ => throw .corrupt

/-- Reads bytes as they are. -/
def raw : (count : Nat) → Inflating Unit
  | 0 => return
  | count + 1 => do
    emit (UInt8.ofNat (← bits input 8))
    raw count

/-- Reads a stored block. -/
def stored : Inflating Unit := do
  align
  let length ← bits input 16
  let complement ← bits input 16
  -- the length is there twice, once inverted
  if length + complement = 0xFFFF then raw input length else throw .corrupt

/-- Reads code lengths, which are themselves coded, until there are `total`. -/
def codeLengths (d : Decoder) (total : Nat) : (fuel : Nat) → Array Nat → Inflating (Array Nat)
  | 0, _ => throw .corrupt
  | fuel + 1, lengths => do
    if lengths.size = total then return lengths
    -- a run may not go past the end
    else if total < lengths.size then throw .corrupt
    else
      let s ← d.symbol input
      if s < 16 then codeLengths d total fuel (lengths.push s)
      else if s = 16 then
        match lengths.back? with
        | some last =>
          let count ← bits input 2
          codeLengths d total fuel (lengths ++ Array.replicate (count + 3) last)
        | none => throw .corrupt
      else
        let count ← if s = 17 then (· + 3) <$> bits input 3 else (· + 11) <$> bits input 7
        codeLengths d total fuel (lengths ++ Array.replicate count 0)

/-- Reads the lengths of the codes for code lengths, in their order. -/
def orderLengths : List Nat → Array Nat → Inflating (Array Nat)
  | [], lengths => return lengths
  | symbol :: rest, lengths => do
    let length ← bits input 3
    orderLengths rest (lengths.setIfInBounds symbol length)

/-- The decoder for some code lengths, or the end of reading. -/
def decoder (mayLack : Bool) (lengths : Array Nat) : Inflating Decoder :=
  match Decoder.ofLengths? mayLack lengths with
  | some d => return d
  | none => throw .corrupt

/-- Reads a block with codes of its own. -/
def dynamic (fuel : Nat) : Inflating Unit := do
  let literals := (← bits input 5) + 257
  let distances := (← bits input 5) + 1
  let orders := (← bits input 4) + 4
  if 286 < literals ∨ 30 < distances then throw .corrupt
  let lengths ← orderLengths input (lengthOrder.take orders) (Array.replicate 19 0)
  let all ← codeLengths input (← decoder false lengths) (literals + distances) (literals + distances + 1) #[]
  -- the lengths of both codes are one sequence, so a run may go from one into the other
  coded input (← decoder true (all.extract 0 literals)) (← decoder true (all.extract literals all.size)) fuel

/-- Reads blocks up to the last one. -/
def blocks (fuel : Nat) : (count : Nat) → Inflating Unit
  | 0 => throw .corrupt
  | count + 1 => do
    let final ← bit input
    match ← bits input 2 with
    | 0 => stored input
    | 1 => coded input (← decoder true fixedLiterals) (← decoder true fixedDistances) fuel
    | 2 => dynamic input fuel
    | _ => throw .corrupt
    if final = 1 then return else blocks fuel count

/-- Reads a stream as far as it goes, and says why reading stopped before the end of the stream, if it did. -/
def reading : Reading × Option Stop :=
  -- every step reads a bit, so the fuel does not run out
  let fuel := 8 * input.size + 1
  let (result, s) := (blocks input fuel fuel).run.run {}
  match result with
  | .ok _ => (s, none)
  | .error stop => (s, some stop)

/-- **Reads a stream.** The first component is all that could be read, the second why reading stopped before
the end of the stream, if it did. -/
def inflate : ByteArray × Option Stop :=
  let (s, stop) := reading input
  (s.output, stop)

end Deflate

end Recompile

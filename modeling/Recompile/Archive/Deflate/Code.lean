/-!
# The alphabets of deflate

A deflate stream codes literal bytes, copies and the end of a block in one alphabet and the distances of
copies in another. A symbol for a length or a distance stands for a range of values and is followed by as
many extra bits as tell them apart. Codes are canonical: they follow from the lengths alone, shorter codes
first and codes of one length in the order of their symbols.
-/

namespace Recompile

namespace Deflate

/-- **A piece of a stream:** a byte, or a copy of bytes that were seen before. -/
inductive Token
  | literal (b : UInt8)
  | copy (length distance : Nat)
deriving Repr

/-- The number of bytes that a token stands for. -/
def Token.size : Token → Nat
  | literal _ => 1
  | copy length _ => length

def endOfBlock : Nat := 256

/-- The shortest length of each length symbol from 257 on. -/
def lengthBase : Array Nat :=
  #[3, 4, 5, 6, 7, 8, 9, 10, 11, 13, 15, 17, 19, 23, 27, 31, 35, 43, 51, 59, 67, 83, 99, 115, 131, 163,
    195, 227, 258]

/-- The number of extra bits of each length symbol from 257 on. -/
def lengthExtra : Array Nat :=
  #[0, 0, 0, 0, 0, 0, 0, 0, 1, 1, 1, 1, 2, 2, 2, 2, 3, 3, 3, 3, 4, 4, 4, 4, 5, 5, 5, 5, 0]

/-- The shortest distance of each distance symbol. -/
def distanceBase : Array Nat :=
  #[1, 2, 3, 4, 5, 7, 9, 13, 17, 25, 33, 49, 65, 97, 129, 193, 257, 385, 513, 769, 1025, 1537, 2049, 3073,
    4097, 6145, 8193, 12289, 16385, 24577]

/-- The number of extra bits of each distance symbol. -/
def distanceExtra : Array Nat :=
  #[0, 0, 0, 0, 1, 1, 2, 2, 3, 3, 4, 4, 5, 5, 6, 6, 7, 7, 8, 8, 9, 9, 10, 10, 11, 11, 12, 12, 13, 13]

/-- The index of the last entry of a table that is not above a value. -/
def rangeIndex (table : Array Nat) (value : Nat) : Nat :=
  (table.toList.takeWhile (· ≤ value)).length - 1

/-- The order in which the lengths of the codes for code lengths are written. -/
def lengthOrder : List Nat := [16, 17, 18, 0, 8, 7, 9, 6, 10, 5, 11, 4, 12, 3, 13, 2, 14, 1, 15]

/-- The code lengths of the literals and lengths in a block with fixed codes. -/
def fixedLiterals : Array Nat :=
  Array.replicate 144 8 ++ Array.replicate 112 9 ++ Array.replicate 24 7 ++ Array.replicate 8 8

/-- The code lengths of the distances in a block with fixed codes. -/
def fixedDistances : Array Nat := Array.replicate 32 5

/-- The number of codes of each length up to fifteen. -/
def lengthCounts (lengths : Array Nat) : Array Nat :=
  lengths.foldl (fun counts n => if n = 0 then counts else counts.modify n (· + 1)) (Array.replicate 16 0)

def firstCodes (counts : Array Nat) : Array Nat :=
  ((List.range 15).foldl (fun (acc : Array Nat × Nat) k =>
    let next := (acc.2 + counts.getD k 0) * 2
    (acc.1.push next, next)) (#[0], 0)).1

/-- The canonical codes for some code lengths, the first bit of a code on top. -/
def canonicalCodes (lengths : Array Nat) : Array Nat :=
  (lengths.foldl (fun (acc : Array Nat × Array Nat) n =>
    if n = 0 then (acc.1.push 0, acc.2)
    else (acc.1.push (acc.2.getD n 0), acc.2.modify n (· + 1))) (#[], firstCodes (lengthCounts lengths))).1

end Deflate

end Recompile

import Recompile.Archive.Deflate.Code

/-!
# Finding repetitions

A writer of deflate streams is free in how it cuts its input into tokens. This one looks up earlier positions
with the same three bytes, newest first and not too many of them, and takes the longest match. A match of
fewer than 128 bytes is held back for one position: if the next position has a longer one, the byte is written
as a literal instead.

Nothing depends on which matches are found, except the size and the exact bytes of the archives that are
written.
-/

namespace Recompile

namespace Deflate

/-- The reach of a copy. -/
def windowSize : Nat := 32768

/-- The length of the shortest copy. -/
def minMatch : Nat := 3

/-- The length of the longest copy. -/
def maxMatch : Nat := 258

/-- The length from which on a match is taken at once. -/
def goodMatch : Nat := 128

/-- The number of rounds of a search, by whether a long match is known already. -/
def searchRounds (known : Nat) : Nat := if known < 32 then 44 else 12

/-- The byte at a position, zero outside the input. -/
def byteAt (x : ByteArray) (i : Nat) : UInt8 := if h : i < x.size then x[i] else 0

/-- The table index of the three bytes at a position. -/
def hashAt (x : ByteArray) (i : Nat) : Nat :=
  ((byteAt x i).toNat <<< 10 ^^^ (byteAt x (i + 1)).toNat <<< 5 ^^^ (byteAt x (i + 2)).toNat) % 32768

/-- For every position with three bytes, the last earlier position with the same table index, modulo the size
of a table cell; zero stands for none. -/
def chains (x : ByteArray) : Array Nat :=
  ((List.range (x.size - 2)).foldl (fun (acc : Array Nat × Array Nat) i =>
    let h := hashAt x i
    (acc.1.push (acc.2.getD h 0), acc.2.setIfInBounds h (i % 65536)))
    (#[], Array.replicate 32768 0)).1

/-- The number of equal bytes at two positions, at most `limit`. -/
def commonLength (x : ByteArray) (i j : Nat) : (limit : Nat) → Nat
  | 0 => 0
  | limit + 1 => if byteAt x i = byteAt x j then commonLength x (i + 1) (j + 1) limit + 1 else 0

/-- A match: its length and its distance, zero if there is none. -/
structure Match where
  length : Nat
  distance : Nat

/-- Follows the chain of a position. A round is three steps or ends at a candidate; `steps` is the number of
steps left in the round. -/
def follow (x : ByteArray) (prev : Array Nat) (i reach limit : Nat) :
    (fuel : Nat) → (candidate rounds steps : Nat) → Match → Match
  | 0, _, _, _, best => best
  | fuel + 1, candidate, rounds, steps, best =>
    let v := prev.getD candidate 0
    let distance := (i + 65536 - v % 65536) % 65536
    if v = 0 ∨ reach < distance ∨ distance = 0 then best
    else
      let j := i - distance
      let n := best.length
      let nextRound (best : Match) : Match :=
        if rounds ≤ 1 then best else follow x prev i reach limit fuel j (rounds - 1) 3 best
      if byteAt x (j + n - 1) = byteAt x (i + n - 1) ∧ byteAt x (j + n) = byteAt x (i + n) then
        if byteAt x j = byteAt x i ∧ byteAt x (j + 1) = byteAt x (i + 1) then
          let common := commonLength x i j limit
          if n < common then
            if common = limit then ⟨common, distance⟩ else nextRound ⟨common, distance⟩
          else nextRound best
        else nextRound best
      else if steps ≤ 1 then nextRound best
      else follow x prev i reach limit fuel j rounds (steps - 1) best

/-- The best match at a position that is longer than `known`. -/
def bestMatch (x : ByteArray) (prev : Array Nat) (i known : Nat) : Match :=
  let limit := min maxMatch (x.size - i)
  let reach := min i (windowSize - limit)
  let start : Match := ⟨known, 0⟩
  if limit ≤ known then start
  else follow x prev i reach limit 256 i (searchRounds known - 1) 3 start

/-- The state of cutting: the position, a match that was held back at the position before, and the tokens so
far. -/
structure Cutting where
  position : Nat := 0
  held : Option Match := none
  tokens : Array Token := #[]

/-- Moves on by at least one position. -/
def cutStep (x : ByteArray) (prev : Array Nat) (s : Cutting) : Cutting :=
  let i := s.position
  let known := match s.held with
    | some m => m.length
    | none => minMatch - 1
  let found := bestMatch x prev i known
  let found : Match :=
    if (found.length = minMatch ∧ 8192 ≤ found.distance) ∨ i % windowSize = found.distance then ⟨0, 0⟩
    else found
  match s.held with
  | some m =>
    if m.length < found.length then
      let tokens := s.tokens.push (.literal (byteAt x (i - 1)))
      if goodMatch ≤ found.length then
        ⟨i + found.length, none, tokens.push (.copy found.length found.distance)⟩
      else ⟨i + 1, some found, tokens⟩
    else ⟨i + (m.length - 1), none, s.tokens.push (.copy m.length m.distance)⟩
  | none =>
    if found.distance = 0 then ⟨i + 1, none, s.tokens.push (.literal (byteAt x i))⟩
    else if goodMatch ≤ found.length then
      ⟨i + found.length, none, s.tokens.push (.copy found.length found.distance)⟩
    else ⟨i + 1, some found, s.tokens⟩

/-- Cuts the rest of the input. -/
def cut (x : ByteArray) (prev : Array Nat) : (fuel : Nat) → Cutting → Cutting
  | 0, s => s
  | fuel + 1, s => if s.position < x.size then cut x prev fuel (cutStep x prev s) else s

/-- **The tokens of an input.** -/
def tokens (x : ByteArray) : Array Token := (cut x (chains x) x.size {}).tokens

end Deflate

end Recompile

import Recompile.Archive.Deflate.Inflate
import Recompile.Text.Bytes

/-!
# What a damaged stream still yields

A stream is read in portions, and what is read goes through a window before it is handed on in pieces. When
damage shows, what is in the window at that time is lost: only windows that were full before are handed on.
At the end of an input that is too short nothing is lost.
-/

namespace Recompile

namespace Deflate

/-- The number of bytes of the input that are read at a time. -/
def portion : Nat := 8192

/-- The number of bytes of the output that are asked for at a time. -/
def piece : Nat := 8192

/-- The number of bytes of the output that are held back at most. -/
def window : Nat := 32768

/-- The number of bytes that are handed on in front of damage behind so many bytes of output, when `done` are
handed on already. If a window has less room than is asked for, the next one is filled at once. `fuel` bounds
the number of windows. -/
def handedOn (damage : Nat) : (fuel done : Nat) → Nat
  | 0, done => done
  | fuel + 1, done =>
    let full := (done / window + 1) * window
    let next := if piece ≤ full - done then full else full + window
    if damage ≤ next then done else handedOn damage fuel next

/-- **What is handed on of a stream,** and why reading stopped before its end, if it did. The portions in front
of the one with the damage are handed on completely. -/
def unpack (input : ByteArray) : Bytes × Option Stop :=
  let (s, stop) := reading input
  let output := s.output.data.toList
  match stop with
  | some .corrupt =>
    let clean := (s.position - 1) / 8 / portion * portion
    let done := (inflate (input.extract 0 clean)).1.size
    (output.take (handedOn output.length (output.length / window + 1) done), stop)
  | _ => (output, stop)

end Deflate

end Recompile

import Recompile.Proofs.Compile

/-!
# Damaged stores

A store is replaced in one step, but what is at its path later may be less or something else: a copy that was cut off, or
one with other bytes in it. Such a file is refused, and the store is not taken for one that is missing
(`Store.Refused`). `Store.refused_of_damage` says so of every file that ends before the payload begins, and of every file
whose payload has not the digest that the header has.

The digest is all that stands between the payload and its reader. The written form of the contents accepts whatever
follows them, so a file that goes on behind its payload would be read without complaint; and of two payloads with one
digest either is read behind the header of the other.
-/

namespace Recompile

namespace Store

open Recompile.Action Recompile.Codec

/-- **A file that is refused** for its damage. It has no contents, and where it is, loading the store fails. -/
structure Refused (file : Bytes) (damage : Damage) : Prop where
  decode : Store.decode file = .error damage
  load : ∀ path h, h.read path = .ok file → Reads (Store.load path) h (.error (.corrupt path damage.message))

variable {file payload rest : Bytes} {damage : Damage}

theorem refused_of_decode (hfile : Store.decode file = .error damage) : Refused file damage where
  decode := hfile
  load path h hread := by
    have hloaded : loaded path h = .error (.corrupt path damage.message) := by
      rw [loaded, hread]
      dsimp only
      rw [hfile]
    rw [← hloaded]
    exact reads_load path h

/-! ### Files that are cut off -/

theorem take?_eq_none {n : Nat} {b : Bytes} (h : b.length < n) : take? n b = none := by
  have hwhole : b.take n = b := List.take_of_length_le (Nat.le_of_lt h)
  rw [take?, hwhole, if_neg (Nat.ne_of_lt h)]

/-- Fewer than four bytes do not hold the length of a header. -/
theorem split_of_short (h : file.length < 4) : split file = .error (.tooShort file.length) := by
  have hword : word.read file = none := by
    simp only [word, take?_eq_none h]
    rfl
  rw [split, hword]

/-- In a file that ends before its payload the header is too short, or its length is. -/
theorem split_take_front {n : Nat} (hn : n < (front payload).length) :
    split ((front payload).take n) = .error (if n < 4 then .tooShort n else .truncatedHeader) := by
  have hlength : ((front payload).take n).length = n := List.length_take_of_le (Nat.le_of_lt hn)
  by_cases hshort : n < 4
  · rw [if_pos hshort, split_of_short (by omega), hlength]
  · rw [length_front] at hn
    -- the length is still there, and says more than what is left
    have hcut : (front payload).take n = word.write (header.write (headerOf payload)).length ++
        (header.write (headerOf payload)).take (n - 4) := by
      have hword : (word.write (header.write (headerOf payload)).length).length = 4 := Bytes.length_ofNatLE ..
      rw [front, List.take_append, hword, List.take_of_length_le (by omega)]
    have hleft : ((header.write (headerOf payload)).take (n - 4)).length < (header.write (headerOf payload)).length := by
      rw [List.length_take]
      omega
    rw [if_neg hshort, hcut, split, faithful_word (by rw [length_header]; decide)]
    simp only [take?_eq_none hleft]

theorem decode_of_split (h : split file = .error damage) : Store.decode file = .error damage := by
  rw [Store.decode, h]
  rfl

/-- **A damaged store is refused.** A file that ends in the length of the header or in the header is refused for that,
and so is, for its digest, every payload behind them that has another digest than the one that was written. A payload with
the same digest is read. -/
theorem refused_of_damage (c : Contents) :
    (∀ n < (front (contents.write c)).length,
        Refused ((encode c).take n) (if n < 4 then .tooShort n else .truncatedHeader)) ∧
      ∀ payload : Bytes,
        (Digest.ofBytes payload ≠ Digest.ofBytes (contents.write c) →
          Refused (front (contents.write c) ++ payload)
            (.wrongChecksum (Digest.ofBytes (contents.write c)) (Digest.ofBytes payload))) ∧
        (Digest.ofBytes payload = Digest.ofBytes (contents.write c) →
          decode (front (contents.write c) ++ payload) =
            match contents.read payload with
            | none => .error .unreadablePayload
            | some (found, _) => .ok found) := by
  refine ⟨fun n hn => ?_, fun payload => ⟨fun hdigest => refused_of_decode ?_, fun hdigest => ?_⟩⟩
  · rw [encode_eq, List.take_append_of_le_length (Nat.le_of_lt hn)]
    exact refused_of_decode (decode_of_split (split_take_front hn))
  · rw [decode_front, if_neg hdigest]
  · exact (decode_front ..).trans (if_pos hdigest)

/-- The contents of the stores below. -/
private def written : Contents where
  analysis := (∅ : Analysis).record "src/A.scala" { digest := ⟨1, 2⟩, sourceDeps := SortedSet.ofList ["src/B.scala"] }
    [("a.A", ⟨"src/A.scala", "a/A.class", ⟨3, 4⟩⟩)]
  setup := ⟨"out", "2.13.12", ["-Xlint"], [], .mixed⟩

/-- A store that lacks the last byte of its header, and one with a byte behind its payload. The reader of the contents would
take the longer payload for the contents that were written. -/
theorem refused_of_damage_by_a_byte :
    30 < (front (contents.write written)).length ∧ Refused ((encode written).take 30) .truncatedHeader ∧
      Digest.ofBytes (contents.write written ++ [0]) ≠ Digest.ofBytes (contents.write written) ∧
      contents.read (contents.write written ++ [0]) = some (written, [0]) ∧
      Refused (encode written ++ [0])
        (.wrongChecksum (Digest.ofBytes (contents.write written)) (Digest.ofBytes (contents.write written ++ [0]))) := by
  have hcut : 30 < (front (contents.write written)).length := by
    rw [length_front, length_header]
    decide
  have hdigest : Digest.ofBytes (contents.write written ++ [0]) ≠ Digest.ofBytes (contents.write written) := by
    decide +kernel
  have hread : contents.read (contents.write written ++ [0]) = some (written, [0]) :=
    lawful_contents.faithful written (by decide +kernel) [0]
  obtain ⟨hcuts, hpayloads⟩ := refused_of_damage written
  refine ⟨hcut, hcuts 30 hcut, hdigest, hread, ?_⟩
  have hlonger := (hpayloads (contents.write written ++ [0])).1 hdigest
  rwa [← List.append_assoc, ← encode_eq] at hlonger

end Store

end Recompile

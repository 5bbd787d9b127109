import Mathlib.Algebra.Group.Nat.Defs
import Recompile.Digest

/-!
# Parts are told apart by their frames

The parts of a list make one stream, each with its length in front. A part may be empty, and it may look like a length, so
where a part begins cannot be seen in the middle of the stream. Read from the front there is no choice: the first eight bytes
say how long the first part is, and behind it the stream of the others begins (`Digest.frame_inj`).

A hasher is given the stream in pieces, two for every part. Nothing is known of it but that it makes no difference into which
pieces its input is cut (`Digest.Hasher.OneShot`). So the digest of a list is that of its stream, and two lists have one digest
only if they are equal or if their streams are two inputs with one hash (`Digest.parts_told_apart`).
-/

namespace Recompile

/-- **A collision:** two byte strings with one hash. -/
def Xxh3.Collide (x y : Bytes) : Prop := x ≠ y ∧ Xxh3.hash ⟨x.toArray⟩ = Xxh3.hash ⟨y.toArray⟩

namespace Digest

/-- Byte strings have one digest exactly if they have one hash. -/
theorem ofBytes_eq_iff {x y : Bytes} : ofBytes x = ofBytes y ↔ Xxh3.hash ⟨x.toArray⟩ = Xxh3.hash ⟨y.toArray⟩ := by
  constructor
  · intro h
    obtain ⟨hlow, hhigh⟩ := Digest.mk.inj h
    exact Xxh3.Wide.ext hlow hhigh
  · intro h
    rw [ofBytes, ofBytes, h]

/-! ### One stream -/

@[simp] theorem frame_nil : frame [] = [] := rfl

@[simp] theorem frame_cons (part : Bytes) (parts : List Bytes) :
    frame (part :: parts) = Bytes.ofNatLE 8 part.length ++ (part ++ frame parts) := by
  rw [← List.append_assoc]
  rfl

/-- A stream of parts is empty or has at least a length. -/
theorem eq_nil_of_frame_eq_nil {parts : List Bytes} (h : frame parts = []) : parts = [] := by
  cases parts with
  | nil => rfl
  | cons part rest =>
    have hlength : (Bytes.ofNatLE 8 part.length).length = 0 := by
      rw [frame_cons] at h
      rw [(List.append_eq_nil_iff.1 h).1]
      rfl
    rw [Bytes.length_ofNatLE] at hlength
    exact absurd hlength (by decide)

/-- **The stream tells the parts,** as long as their lengths fit into eight bytes. -/
theorem frame_inj {a b : List Bytes} (ha : ∀ part ∈ a, part.length < 2 ^ 64) (hb : ∀ part ∈ b, part.length < 2 ^ 64)
    (h : frame a = frame b) : a = b := by
  induction a generalizing b with
  | nil => exact (eq_nil_of_frame_eq_nil h.symm).symm
  | cons x a ih =>
    cases b with
    | nil => exact eq_nil_of_frame_eq_nil h
    | cons y b =>
      obtain ⟨hx, ha⟩ := List.forall_mem_cons.1 ha
      obtain ⟨hy, hb⟩ := List.forall_mem_cons.1 hb
      rw [frame_cons, frame_cons] at h
      -- both streams begin with a length
      obtain ⟨hcode, hbehind⟩ := List.append_inj h (by simp)
      have hlength : x.length = y.length := by
        rw [← Bytes.toNatLE_ofNatLE 8 x.length hx, hcode, Bytes.toNatLE_ofNatLE 8 y.length hy]
      -- it says where the first part ends
      obtain ⟨hpart, hrest⟩ := List.append_inj hbehind hlength
      rw [hpart, ih ha hb hrest]

/-! ### In pieces -/

/-- The pieces in which a hasher is given some parts. -/
def pieces (parts : List Bytes) : List Bytes := parts.flatMap fun part => [Bytes.ofNatLE 8 part.length, part]

/-- Together the pieces are the stream. -/
theorem flatten_pieces (parts : List Bytes) : (pieces parts).flatten = frame parts := by
  induction parts with
  | nil => rfl
  | cons part rest ih =>
    rw [frame_cons, ← ih]
    rfl

namespace Hasher

variable {σ : Type} {h : Hasher σ}

/-- **The pieces do not matter:** the digest is that of all the input at once. -/
def OneShot (h : Hasher σ) : Prop := ∀ pieces : List Bytes, h.digest (pieces.foldl h.update h.start) = ofBytes pieces.flatten

theorem foldl_updatePart (h : Hasher σ) (parts : List Bytes) (s : σ) :
    parts.foldl h.updatePart s = (pieces parts).foldl h.update s := by
  induction parts generalizing s with
  | nil => rfl
  | cons part rest ih => exact ih (h.updatePart s part)

/-- **The digest of some parts is that of their stream.** -/
theorem OneShot.ofParts (hone : h.OneShot) (parts : List Bytes) : h.ofParts parts = ofBytes (frame parts) := by
  rw [Hasher.ofParts, foldl_updatePart, hone, flatten_pieces]

/-- What is kept is the input in one piece. -/
theorem oneShot_keeping : keeping.OneShot := by
  suffices ∀ (pieces : List Bytes) (s : Bytes), pieces.foldl keeping.update s = s ++ pieces.flatten by
    intro pieces
    rw [this]
    rfl
  intro pieces
  induction pieces with
  | nil => exact fun s => (List.append_nil s).symm
  | cons piece rest ih =>
    intro s
    rw [List.foldl_cons, ih, List.flatten_cons, ← List.append_assoc]
    rfl

end Hasher

/-- **Lists of parts are told apart.** Their streams are equal exactly if the lists are. The digest of a list, whatever hasher
makes it of the parts as they come, is the digest of the stream; so two lists have one digest exactly if they are equal or if
their streams collide. -/
theorem parts_told_apart {σ : Type} {h : Hasher σ} (hone : h.OneShot) {a b : List Bytes}
    (ha : ∀ part ∈ a, part.length < 2 ^ 64) (hb : ∀ part ∈ b, part.length < 2 ^ 64) :
    (frame a = frame b ↔ a = b) ∧ h.ofParts a = ofBytes (frame a) ∧ ofParts a = ofBytes (frame a) ∧
      (h.ofParts a = h.ofParts b ↔ a = b ∨ Xxh3.Collide (frame a) (frame b)) := by
  refine ⟨⟨frame_inj ha hb, congrArg frame⟩, hone.ofParts a, Hasher.oneShot_keeping.ofParts a, ?_⟩
  rw [hone.ofParts, hone.ofParts, ofBytes_eq_iff]
  constructor
  · intro hhash
    by_cases hab : a = b
    · exact Or.inl hab
    · exact Or.inr ⟨fun hframe => hab (frame_inj ha hb hframe), hhash⟩
  · rintro (rfl | ⟨-, hhash⟩)
    · rfl
    · exact hhash

private def emptyAndByte : List Bytes := [[], [7]]

/-- One part that looks like the length of a byte, with the byte behind it. -/
private def imitation : List Bytes := [[1, 0, 0, 0, 0, 0, 0, 0, 7]]

/-- An empty part and a byte go into another stream than one part that looks like the length of the byte and the byte, although
the two streams differ in their first byte only. -/
theorem parts_told_apart_of_imitation :
    Hasher.keeping.OneShot ∧ (∀ part ∈ emptyAndByte, part.length < 2 ^ 64) ∧ (∀ part ∈ imitation, part.length < 2 ^ 64) ∧
      (frame emptyAndByte).tail = (frame imitation).tail ∧ frame emptyAndByte ≠ frame imitation ∧
      Hasher.keeping.ofParts emptyAndByte = ofBytes (frame emptyAndByte) := by
  have hfirst : ∀ part ∈ emptyAndByte, part.length < 2 ^ 64 := by decide
  have hsecond : ∀ part ∈ imitation, part.length < 2 ^ 64 := by decide
  obtain ⟨htells, hdigest, -⟩ := parts_told_apart Hasher.oneShot_keeping hfirst hsecond
  exact ⟨Hasher.oneShot_keeping, hfirst, hsecond, by decide, fun h => absurd (htells.1 h) (by decide), hdigest⟩

end Digest

end Recompile

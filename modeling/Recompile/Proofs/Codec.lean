import Recompile.Analysis.Store
import Recompile.Proofs.Table

/-!
# Stores read back

A store is written by one half of a `Codec` and read by the other. The length of a text, a sequence or a table is
written in eight bytes at most, so what is longer than that does not read back, and nothing else is lost: a codec is
`Codec.Lawful` if everything that it writes in fewer than `maxLength` bytes reads back, whatever follows. The
combinators keep that, provided that every value takes at least one byte, so that a sequence is at least as long as it
has elements.

* `Store.lawful_contents`: the written form of an analysis with its setup is lawful.
* `Store.decode_encode`: a store of fewer than `maxLength` bytes reads back as it was written.
-/

namespace Recompile

namespace Codec

variable {α β : Type}

/-- The lengths that a codec can write are below this number. -/
def maxLength : Nat := UInt64.size

/-- **A codec that loses nothing.** -/
structure Lawful (c : Codec α) : Prop where
  /-- A value takes at least one byte. -/
  productive : ∀ x, 0 < (c.write x).length
  /-- A value that is not too long reads back. -/
  faithful : ∀ x, (c.write x).length < maxLength → c.Faithful x

/-! ### Numbers and text -/

theorem take?_of_length {n : Nat} {b : Bytes} (h : b.length = n) (rest : Bytes) :
    take? n (b ++ rest) = some (b, rest) := h ▸ take?_append b rest

/-- A number of four bytes reads back. -/
theorem faithful_word {n : Nat} (h : n < UInt32.size) : word.Faithful n := by
  intro rest
  have hlength : (Bytes.ofNatLE 4 n).length = 4 := Bytes.length_ofNatLE 4 n
  simp only [word, take?_of_length hlength]
  simp [Bytes.toNatLE_ofNatLE 4 n (by simpa [UInt32.size] using h)]

theorem productive_number (width n : Nat) : 0 < ((number width).write n).length := by
  simp only [number, writeNumber]
  split_ifs <;> simp

/-- A number of at most eight bytes reads back in a field for such numbers. -/
theorem faithful_length {n : Nat} (h : n < maxLength) : length.Faithful n := by
  intro rest
  simp only [length, number, writeNumber]
  split_ifs with h₁ h₂ h₃
  · -- the number is its own mark
    have hsmall : UInt8.ofNat n < 251 := by
      rw [UInt8.lt_iff_toNat_lt]
      simp only [UInt8.toNat_ofNat']
      have : (251 : UInt8).toNat = 251 := rfl
      omega
    have hback : (UInt8.ofNat n).toNat = n := by
      simp only [UInt8.toNat_ofNat']
      omega
    simp [readNumber, hsmall, hback]
  · -- the mark tells the width, of two, four or eight bytes
    have hlength : (Bytes.ofNatLE 2 n).length = 2 := Bytes.length_ofNatLE 2 n
    simp [readNumber, markedWidth?, take?_of_length hlength, Bytes.toNatLE_ofNatLE 2 n (by simpa using h₂)]
  · have hlength : (Bytes.ofNatLE 4 n).length = 4 := Bytes.length_ofNatLE 4 n
    simp [readNumber, markedWidth?, take?_of_length hlength, Bytes.toNatLE_ofNatLE 4 n (by simpa using h₃)]
  · have hlength : (Bytes.ofNatLE 8 n).length = 8 := Bytes.length_ofNatLE 8 n
    simp [readNumber, markedWidth?, take?_of_length hlength,
      Bytes.toNatLE_ofNatLE 8 n (by simpa [maxLength, UInt64.size] using h)]

/-- A number of one byte reads back in every field. -/
theorem faithful_number_of_lt {width n : Nat} (h : n < 251) : (number width).Faithful n := by
  intro rest
  have hsmall : UInt8.ofNat n < 251 := by
    rw [UInt8.lt_iff_toNat_lt]
    simp only [UInt8.toNat_ofNat']
    have : (251 : UInt8).toNat = 251 := rfl
    omega
  have hback : (UInt8.ofNat n).toNat = n := by
    simp only [UInt8.toNat_ofNat']
    omega
  simp [number, writeNumber, h, readNumber, hsmall, hback]

theorem lawful_digest : digest.Lawful where
  productive d := by simp [digest]
  faithful d _ := faithful_digest d

theorem lawful_bytes : bytes.Lawful where
  productive b := by
    have h := productive_number 8 b.length
    simp only [bytes, length, List.length_append]
    omega
  faithful b hb := by
    intro rest
    have hlength : b.length < maxLength := by
      simp only [bytes, List.length_append] at hb
      omega
    simp only [bytes, List.append_assoc]
    rw [faithful_length hlength]
    exact take?_append b rest

/-- A text reads back from its UTF-8 form. -/
theorem toString?_ofString (s : String) : Bytes.toString? (Bytes.ofString s) = some s := by
  have hbytes : (⟨(Bytes.ofString s).toArray⟩ : ByteArray) = s.toByteArray := by
    unfold Bytes.ofString
    rw [Array.toArray_toList]
  unfold Bytes.toString?
  rw [hbytes]
  exact dif_pos s.isValidUTF8

theorem lawful_text : text.Lawful where
  productive s := lawful_bytes.productive (Bytes.ofString s)
  faithful s hs := by
    intro rest
    have h := lawful_bytes.faithful (Bytes.ofString s) hs rest
    simp only [text]
    rw [h]
    simp [toString?_ofString]

theorem lawful_path : path.Lawful where
  productive p := lawful_text.productive p.spelling
  faithful p hp := by
    intro rest
    simp only [path]
    rw [lawful_text.faithful p.spelling hp rest]
    rfl

/-! ### Composed values -/

theorem Faithful.pair {c : Codec α} {d : Codec β} {x : α × β} (hc : c.Faithful x.1) (hd : d.Faithful x.2) :
    (c.pair d).Faithful x := by
  intro rest
  simp only [Codec.pair, List.append_assoc]
  rw [hc, Option.bind_eq_bind, Option.bind_some]
  rw [hd]
  rfl

theorem Faithful.via {c : Codec β} {dress : α → β} {back : β → Option α} {x : α} (hc : c.Faithful (dress x))
    (hback : back (dress x) = some x) : (c.via dress back).Faithful x := by
  intro rest
  simp only [Codec.via]
  rw [hc, Option.bind_eq_bind, Option.bind_some]
  simp [hback]

theorem Lawful.pair {c : Codec α} {d : Codec β} (hc : c.Lawful) (hd : d.Lawful) : (c.pair d).Lawful where
  productive x := by
    have h := hc.productive x.1
    simp only [Codec.pair, List.length_append]
    omega
  faithful x hx := by
    simp only [Codec.pair, List.length_append] at hx
    exact .pair (hc.faithful x.1 (by omega)) (hd.faithful x.2 (by omega))

theorem Lawful.via {c : Codec β} (hc : c.Lawful) {dress : α → β} {back : β → Option α}
    (hback : ∀ x, back (dress x) = some x) : (c.via dress back).Lawful where
  productive x := hc.productive (dress x)
  faithful x hx := .via (hc.faithful (dress x) hx) (hback x)

/-- A sequence of values each of which reads back reads back. -/
theorem readMany_append {c : Codec α} {xs : List α} (h : ∀ x ∈ xs, c.Faithful x) (rest : Bytes) :
    readMany c xs.length (xs.flatMap c.write ++ rest) = some (xs, rest) := by
  induction xs with
  | nil => rfl
  | cons x xs ih =>
    simp only [List.length_cons, List.flatMap_cons, List.append_assoc, readMany]
    rw [h x List.mem_cons_self, Option.bind_eq_bind, Option.bind_some]
    rw [ih fun y hy => h y (List.mem_cons_of_mem _ hy)]
    rfl

/-- A sequence takes at least as many bytes as it has elements, and no element takes more than the sequence. -/
theorem length_flatMap_write {c : Codec α} (hc : c.Lawful) (xs : List α) :
    xs.length ≤ (xs.flatMap c.write).length ∧ ∀ x ∈ xs, (c.write x).length ≤ (xs.flatMap c.write).length := by
  induction xs with
  | nil => simp
  | cons x xs ih =>
    have h := hc.productive x
    simp only [List.flatMap_cons, List.length_append, List.length_cons, List.mem_cons, forall_eq_or_imp]
    refine ⟨by omega, by omega, fun y hy => ?_⟩
    have := ih.2 y hy
    omega

theorem Lawful.list {c : Codec α} (hc : c.Lawful) : (Codec.list c).Lawful where
  productive xs := by
    have h := productive_number 8 xs.length
    simp only [Codec.list, length, List.length_append]
    omega
  faithful xs hxs := by
    intro rest
    simp only [Codec.list, List.length_append] at hxs
    obtain ⟨hcount, heach⟩ := length_flatMap_write hc xs
    have hlength : xs.length < maxLength := by omega
    simp only [Codec.list, List.append_assoc]
    rw [faithful_length hlength, Option.bind_eq_bind, Option.bind_some]
    -- no item is longer than the list that it is in
    refine readMany_append (fun x hx => hc.faithful x ?_) rest
    have := heach x hx
    omega

theorem Lawful.table [Ord α] [Std.TransOrd α] {c : Codec α} {d : Codec β} (hc : c.Lawful) (hd : d.Lawful) :
    (Codec.table c d).Lawful :=
  (hc.pair hd).list.via fun m => by rw [SortedMap.insertAll_entries]

theorem Lawful.set [Ord α] [Std.TransOrd α] {c : Codec α} (hc : c.Lawful) : (Codec.set c).Lawful :=
  hc.list.via fun s => by rw [SortedSet.addAll_toList]

end Codec

/-! ### Stores -/

namespace Store

open Codec

theorem lawful_sourceInfo : sourceInfo.Lawful :=
  (lawful_digest.pair (lawful_text.set.pair (lawful_path.set.pair (lawful_text.table lawful_digest)))).via
    fun _ => rfl

theorem lawful_classInfo : classInfo.Lawful :=
  (lawful_path.pair (lawful_path.pair lawful_digest)).via fun _ => rfl

theorem lawful_analysis : analysis.Lawful :=
  ((lawful_path.table lawful_sourceInfo).pair (lawful_text.table lawful_classInfo)).via fun _ => rfl

theorem lawful_order : order.Lawful where
  productive o := productive_number 4 o.code
  faithful o _ := .via (faithful_number_of_lt (by cases o <;> decide)) (by cases o <;> rfl)

theorem lawful_setup : setup.Lawful :=
  (lawful_path.pair (lawful_text.pair (lawful_text.list.pair (lawful_text.list.pair lawful_order)))).via fun _ => rfl

/-- **The written form of an analysis with its setup loses nothing.** -/
theorem lawful_contents : contents.Lawful := (lawful_analysis.pair lawful_setup).via fun _ => rfl

/-- The header of a store has 27 bytes. -/
theorem length_header (payload : Bytes) : (header.write (headerOf payload)).length = 27 := by
  have hversion : (text.write programVersion).length = 6 := by decide
  have hformat : ((number 4).write formatVersion).length = 1 := by decide
  have hmagic : magic.length = 4 := by decide
  change (magic ++ ((number 4).write formatVersion ++ (text.write programVersion ++
    (Digest.ofBytes payload).bytes))).length = 27
  simp only [List.length_append, hversion, hformat, hmagic, Digest.length_bytes]

theorem faithful_header (payload : Bytes) : header.Faithful (headerOf payload) := by
  have hversion : text.Faithful programVersion := lawful_text.faithful _ (by decide)
  have hformat : (number 4).Faithful formatVersion := faithful_number_of_lt (by decide)
  have hmagic : (raw 4).Faithful magic := faithful_raw (by decide)
  exact .via (.pair hmagic (.pair hformat (.pair hversion (faithful_digest _)))) rfl

/-- The bytes of a store in front of a payload. -/
def front (payload : Bytes) : Bytes := word.write (header.write (headerOf payload)).length ++ header.write (headerOf payload)

theorem length_front (payload : Bytes) : (front payload).length = 4 + (header.write (headerOf payload)).length := by
  rw [front, List.length_append]
  exact congrArg (· + _) (Bytes.length_ofNatLE ..)

theorem encode_eq (c : Contents) : encode c = front (contents.write c) ++ contents.write c := rfl

/-- The file is cut where the header says. -/
theorem split_front (payload rest : Bytes) : split (front payload ++ rest) = .ok (header.write (headerOf payload), rest) := by
  simp only [split, front, List.append_assoc]
  rw [faithful_word (by rw [length_header]; decide)]
  simp only [take?_append]

/-- A header fits exactly the payloads with the digest of the one that it was made for. -/
theorem check_headerOf (payload rest : Bytes) : (headerOf payload).check rest =
    if Digest.ofBytes rest = Digest.ofBytes payload then .ok ()
    else .error (.wrongChecksum (Digest.ofBytes payload) (Digest.ofBytes rest)) := by
  have hmagic : (headerOf payload).magic = magic := rfl
  have hversion : (headerOf payload).formatVersion = formatVersion := rfl
  rw [Header.check, if_neg (not_not.2 hmagic), if_neg (not_not.2 hversion)]
  exact ite_not ..

/-- **What stands behind the front of a store** is refused for its digest, or read. -/
theorem decode_front (payload rest : Bytes) : decode (front payload ++ rest) =
    if Digest.ofBytes rest = Digest.ofBytes payload then
      match contents.read rest with
      | none => .error .unreadablePayload
      | some (c, _) => .ok c
    else .error (.wrongChecksum (Digest.ofBytes payload) (Digest.ofBytes rest)) := by
  have hheader : header.read (header.write (headerOf payload)) = some (headerOf payload, []) := by
    simpa using faithful_header payload []
  simp only [decode, split_front, bind, Except.bind, hheader, check_headerOf]
  by_cases hdigest : Digest.ofBytes rest = Digest.ofBytes payload
  · rw [if_pos hdigest]
    exact (if_pos hdigest).symm
  · rw [if_neg hdigest, if_neg hdigest]

/-- **A store reads back as it was written,** unless it is too long for the lengths in it. -/
theorem decode_encode {c : Contents} (h : (encode c).length < maxLength) : decode (encode c) = .ok c := by
  have hpayload : (contents.write c).length < maxLength := by
    simp only [encode_eq, List.length_append] at h
    omega
  have hcontents : contents.read (contents.write c) = some (c, []) := by
    simpa using lawful_contents.faithful c hpayload []
  rw [encode_eq, decode_front, if_pos rfl, hcontents]

end Store

end Recompile

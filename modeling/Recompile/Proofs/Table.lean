import Mathlib.Data.List.Pairwise
import Mathlib.Data.List.Sort
import Mathlib.Tactic.Common
import Recompile.Path
import Recompile.SortedMap

/-!
# What a table holds

The operations on a `SortedMap` rebuild its list of entries; what a caller sees of them are the look-ups. This
module says for every operation what a look-up yields afterwards, and nothing later looks at the list again.

* `SortedMap.get?_erase`, `SortedMap.get?_filter`, `SortedMap.get?_map`: one step, as `SortedMap.get?_insert` is.
* `SortedMap.get?_insertAll`, `SortedMap.get?_ofList`: many insertions, where the last value of a key counts.
* `SortedMap.beq_iff`: two tables are equal when their look-ups are.
* `SortedSet.contains_ofList` and its kin: the same for sets.

A look-up goes by `compare`, so that every statement holds for all spellings of a key at once
(`SortedMap.get?_congr`).
-/

namespace Recompile

universe u v w

namespace SortedMap

variable {κ : Type u} {ν : Type v} {ω : Type w} [Ord κ]

/-! ### Entries -/

@[simp] theorem get?_empty (k : κ) : (∅ : SortedMap κ ν).get? k = none := rfl

@[simp] theorem contains_empty (k : κ) : (∅ : SortedMap κ ν).contains k = false := rfl

/-- The keys ascend. -/
theorem pairwise_keys (m : SortedMap κ ν) : m.keys.Pairwise fun a b => compare a b = .lt :=
  List.pairwise_map.2 m.sorted

theorem contains_iff {m : SortedMap κ ν} {k : κ} : m.contains k = true ↔ ∃ x, m.get? k = some x :=
  Option.isSome_iff_exists

theorem contains_eq_false {m : SortedMap κ ν} {k : κ} : m.contains k = false ↔ m.get? k = none := by
  simp [contains]

/-- A value that is found is that of an entry. -/
theorem exists_of_find? {k : κ} {x : ν} {l : List (κ × ν)} (h : find? k l = some x) :
    ∃ e ∈ l, compare k e.1 = .eq ∧ e.2 = x := by
  induction l with
  | nil => simp [find?] at h
  | cons e rest ih =>
    unfold find? at h
    split at h
    next hk => exact ⟨e, List.mem_cons_self, hk, Option.some.inj h⟩
    next =>
      obtain ⟨f, hf, hk, hx⟩ := ih h
      exact ⟨f, List.mem_cons_of_mem _ hf, hk, hx⟩

theorem find?_eq_none {k : κ} {l : List (κ × ν)} :
    find? k l = none ↔ ∀ e ∈ l, compare k e.1 ≠ .eq := by
  induction l with
  | nil => simp [find?]
  | cons e rest ih => by_cases h : compare k e.1 = .eq <;> simp [find?, h, ih]

theorem isSome_find? {k : κ} {l : List (κ × ν)} :
    (find? k l).isSome = true ↔ ∃ e ∈ l, compare k e.1 = .eq := by
  induction l with
  | nil => simp [find?]
  | cons e rest ih => by_cases h : compare k e.1 = .eq <;> simp [find?, h, ih]

theorem find?_append (k : κ) (l₁ l₂ : List (κ × ν)) :
    find? k (l₁ ++ l₂) = (find? k l₁).or (find? k l₂) := by
  induction l₁ with
  | nil => simp [find?]
  | cons e rest ih => by_cases h : compare k e.1 = .eq <;> simp [find?, h, ih]

theorem find?_map (f : ν → ω) (k : κ) (l : List (κ × ν)) :
    find? k (l.map fun e => (e.1, f e.2)) = (find? k l).map f := by
  induction l with
  | nil => rfl
  | cons e rest ih => by_cases h : compare k e.1 = .eq <;> simp [find?, h, ih]

/-- Applying a function to every value of a table applies it to what is looked up. -/
@[simp] theorem get?_map (f : ν → ω) (m : SortedMap κ ν) (k : κ) :
    (m.map f).get? k = (m.get? k).map f := find?_map f k m.entries

variable [Std.TransOrd κ]

theorem contains_congr (m : SortedMap κ ν) {k k' : κ} (h : compare k k' = .eq) :
    m.contains k = m.contains k' := by
  rw [contains, contains, get?_congr m h]

/-- In an ascending list every entry is found at its key. -/
theorem find?_of_mem {l : List (κ × ν)} (h : l.Pairwise (fun a b => compare a.1 b.1 = .lt)) {e : κ × ν}
    (he : e ∈ l) : find? e.1 l = some e.2 := by
  induction l with
  | nil => simp at he
  | cons f rest ih =>
    obtain ⟨hf, hrest⟩ := List.pairwise_cons.1 h
    rcases List.mem_cons.1 he with rfl | he
    · simp [find?]
    · have hne : compare e.1 f.1 ≠ .eq := by
        intro hc
        have hlt := hf e he
        rw [Std.OrientedCmp.eq_symm hc] at hlt
        simp at hlt
      simp [find?, hne, ih hrest he]

/-- Every entry of a table is found at its key. -/
theorem get?_of_mem {m : SortedMap κ ν} {e : κ × ν} (h : e ∈ m.entries) : m.get? e.1 = some e.2 :=
  find?_of_mem m.sorted h

/-- A look-up yields a value exactly if it is the value of an entry whose key is the one asked for. -/
theorem get?_eq_some_iff {m : SortedMap κ ν} {k : κ} {x : ν} :
    m.get? k = some x ↔ ∃ k', (k', x) ∈ m.entries ∧ compare k k' = .eq := by
  constructor
  · intro h
    obtain ⟨e, he, hk, rfl⟩ := exists_of_find? h
    exact ⟨e.1, he, hk⟩
  · rintro ⟨k', he, hk⟩
    rw [get?_congr m hk]
    exact get?_of_mem he

/-- A key is present exactly if one of the listed keys is another spelling of it. -/
theorem contains_iff_keys {m : SortedMap κ ν} {k : κ} :
    m.contains k = true ↔ ∃ k' ∈ m.keys, compare k k' = .eq := by
  rw [contains_iff]
  constructor
  · rintro ⟨x, hx⟩
    obtain ⟨k', he, hk⟩ := get?_eq_some_iff.1 hx
    exact ⟨k', List.mem_map_of_mem he, hk⟩
  · rintro ⟨k', hk', hk⟩
    obtain ⟨e, he, rfl⟩ := List.mem_map.1 hk'
    exact ⟨e.2, get?_eq_some_iff.2 ⟨e.1, he, hk⟩⟩

theorem contains_of_mem_keys {m : SortedMap κ ν} {k : κ} (h : k ∈ m.keys) : m.contains k = true :=
  contains_iff_keys.2 ⟨k, h, Std.ReflCmp.compare_self⟩

/-- No two keys are spellings of one another. -/
theorem eq_of_mem_keys {m : SortedMap κ ν} {k k' : κ} (hk : k ∈ m.keys) (hk' : k' ∈ m.keys) (h : compare k k' = .eq) :
    k = k' := by
  have hsymm : Std.Symm fun a b : κ => compare a b ≠ .eq := ⟨fun _ _ hab hba => hab (Std.OrientedCmp.eq_symm hba)⟩
  have hdistinct : m.keys.Pairwise fun a b => compare a b ≠ .eq := m.pairwise_keys.imp fun hlt heq => by simp [hlt] at heq
  by_contra hne
  exact hdistinct.forall hk hk' hne h

/-! ### One step -/

theorem get?_erase (m : SortedMap κ ν) (k k' : κ) :
    (m.erase k).get? k' = if compare k' k = .eq then none else m.get? k' := by
  split
  next h => rw [get?_congr _ h, get?_erase_self]
  next h => exact get?_erase_of_ne m h

omit [Std.TransOrd κ] in
theorem mem_entries_erase {m : SortedMap κ ν} {k : κ} {e : κ × ν} :
    e ∈ (m.erase k).entries ↔ e ∈ m.entries ∧ compare k e.1 ≠ .eq := by
  rw [erase, entries_filter, List.mem_filter, bne_iff_ne]

/-- A key that is not there yet gets an entry beside the others. -/
theorem mem_entries_insert {m : SortedMap κ ν} {k : κ} (hk : m.get? k = none) (x : ν) {e : κ × ν} :
    e ∈ (m.insert k x).entries ↔ e = (k, x) ∨ e ∈ m.entries := by
  suffices ∀ l : List (κ × ν), (∀ f ∈ l, compare k f.1 ≠ .eq) → (e ∈ insertEntry k x l ↔ e = (k, x) ∨ e ∈ l) from
    this m.entries (find?_eq_none.1 hk)
  intro l hl
  induction l with
  | nil => simp [insertEntry]
  | cons f rest ih =>
    have hrest := ih fun g hg => hl g (List.mem_cons_of_mem f hg)
    unfold insertEntry
    split
    next => exact List.mem_cons
    next heq => exact absurd heq (hl f List.mem_cons_self)
    next => rw [List.mem_cons, List.mem_cons, hrest, or_left_comm]

/-- It adds to the size. -/
theorem size_insert_of_none {m : SortedMap κ ν} {k : κ} (hk : m.get? k = none) (x : ν) :
    (m.insert k x).size = m.size + 1 := by
  suffices ∀ l : List (κ × ν), (∀ e ∈ l, compare k e.1 ≠ .eq) → (insertEntry k x l).length = l.length + 1 from
    this m.entries (find?_eq_none.1 hk)
  intro l hl
  induction l with
  | nil => rfl
  | cons e rest ih =>
    have hrest := ih fun f hf => hl f (List.mem_cons_of_mem e hf)
    unfold insertEntry
    split
    next => rfl
    next heq => exact absurd heq (hl e List.mem_cons_self)
    next => rw [List.length_cons, hrest, List.length_cons]

/-- A test that does not tell spellings apart can be made after the look-up. -/
theorem get?_filter {p : κ → ν → Bool} (hp : ∀ {k k' : κ} (x : ν), compare k k' = .eq → p k x = p k' x)
    (m : SortedMap κ ν) (k : κ) : (m.filter p).get? k = (m.get? k).filter (p k) := by
  have hsub : (m.filter p).entries = m.entries.filter fun e => p e.1 e.2 := rfl
  cases hm : m.get? k with
  | none =>
    refine find?_eq_none.2 fun e he => ?_
    exact find?_eq_none.1 hm e ((List.mem_filter.1 (hsub ▸ he)).1)
  | some x =>
    -- whether the entry stays is decided at its own key
    obtain ⟨k', he, hk⟩ := get?_eq_some_iff.1 hm
    cases hpx : p k x with
    | false =>
      rw [Option.filter_some, hpx, if_neg Bool.false_ne_true]
      cases hf : (m.filter p).get? k with
      | none => rfl
      | some y =>
        obtain ⟨k₁, hy, hk₁⟩ := get?_eq_some_iff.1 hf
        rw [hsub, List.mem_filter] at hy
        have hxy : x = y := by
          have h := get?_eq_some_iff.2 ⟨k₁, hy.1, hk₁⟩
          rw [hm] at h
          exact Option.some.inj h
        have hpy : p k y = true := (hp y hk₁).trans hy.2
        rw [← hxy, hpx] at hpy
        exact absurd hpy Bool.false_ne_true
    | true =>
      rw [Option.filter_some, hpx, if_pos rfl]
      refine get?_eq_some_iff.2 ⟨k', ?_, hk⟩
      rw [hsub, List.mem_filter]
      exact ⟨he, (hp x hk).symm.trans hpx⟩

/-! ### Many insertions -/

/-- After many insertions a key holds the last value that the list has for it. -/
theorem get?_insertAll (l : List (κ × ν)) (m : SortedMap κ ν) (k : κ) :
    (m.insertAll l).get? k = (find? k l.reverse).or (m.get? k) := by
  induction l generalizing m with
  | nil => simp [insertAll, find?]
  | cons e rest ih =>
    have hstep : m.insertAll (e :: rest) = (m.insert e.1 e.2).insertAll rest := rfl
    rw [hstep, ih, get?_insert, List.reverse_cons, find?_append]
    by_cases h : compare k e.1 = .eq <;> cases find? k rest.reverse <;> simp [find?, h]

theorem get?_ofList (l : List (κ × ν)) (k : κ) : (ofList l).get? k = find? k l.reverse := by
  suffices ∀ m : SortedMap κ ν,
      (l.foldl (fun m e => (m.erase e.1).insert e.1 e.2) m).get? k = (find? k l.reverse).or (m.get? k) by
    rw [ofList, this ∅, get?_empty, Option.or_none]
  induction l with
  | nil => simp [find?]
  | cons e rest ih =>
    intro m
    rw [List.foldl_cons, ih, get?_insert, get?_erase, List.reverse_cons, find?_append]
    by_cases h : compare k e.1 = .eq <;> cases find? k rest.reverse <;> simp [find?, h]

/-- An entry above all others goes to the end. -/
theorem insertEntry_of_gt {k : κ} {x : ν} {l : List (κ × ν)} (h : ∀ e ∈ l, compare e.1 k = .lt) :
    insertEntry k x l = l ++ [(k, x)] := by
  induction l with
  | nil => rfl
  | cons e rest ih =>
    have hgt : compare k e.1 = .gt := Std.OrientedCmp.gt_iff_lt.2 (h e List.mem_cons_self)
    simp only [insertEntry, hgt, List.cons_append]
    rw [ih fun f hf => h f (List.mem_cons_of_mem _ hf)]

/-- **A table is made of its entries.** -/
theorem insertAll_entries (m : SortedMap κ ν) : insertAll ∅ m.entries = m := by
  -- inserting the rest of an ascending list into a table of its front appends it
  have happend : ∀ (l front : List (κ × ν)) (n : SortedMap κ ν), n.entries = front →
      (front ++ l).Pairwise (fun a b => compare a.1 b.1 = .lt) → (n.insertAll l).entries = front ++ l := by
    intro l
    induction l with
    | nil =>
      intro front n hn _
      rw [List.append_nil]
      exact hn
    | cons e rest ih =>
      intro front n hn hsorted
      have hlast : (n.insert e.1 e.2).entries = front ++ [e] := by
        rw [← hn]
        refine insertEntry_of_gt fun f hf => ?_
        exact (List.pairwise_append.1 hsorted).2.2 f (hn ▸ hf) e List.mem_cons_self
      have hstep : n.insertAll (e :: rest) = (n.insert e.1 e.2).insertAll rest := rfl
      rw [hstep, ih _ _ hlast (by simpa using hsorted)]
      simp
  exact ext (happend m.entries [] ∅ rfl m.sorted)

/-! ### Equality -/

omit [Std.TransOrd κ] in
/-- In an ascending list nothing is found at a key that is below the first one. -/
private theorem find?_of_lt {k : κ} {l : List (κ × ν)} (h : ∀ e ∈ l, compare k e.1 = .lt) :
    find? k l = none :=
  find?_eq_none.2 fun e he hc => by simp [h e he] at hc

/-- Look-ups at other keys pass over two first entries with one key. -/
private theorem find?_cons_beq [BEq ν] {e f : κ × ν} (hef : compare e.1 f.1 = .eq) {k : κ} (hk : compare k e.1 ≠ .eq)
    (l₁ l₂ : List (κ × ν)) : (find? k (e :: l₁) == find? k (f :: l₂)) = (find? k l₁ == find? k l₂) := by
  have hk' : compare k f.1 ≠ .eq := fun hc => hk (Std.TransCmp.eq_trans hc (Std.OrientedCmp.eq_symm hef))
  simp [find?, hk, hk']

/-- If all look-ups in two ascending lists agree, then so do the first keys: the smaller one would be in one list only. -/
private theorem compare_heads [BEq ν] {e f : κ × ν} {l₁ l₂ : List (κ × ν)} (he : ∀ g ∈ l₁, compare e.1 g.1 = .lt)
    (hf : ∀ g ∈ l₂, compare f.1 g.1 = .lt) (h : ∀ k, (find? k (e :: l₁) == find? k (f :: l₂)) = true) :
    compare e.1 f.1 = .eq := by
  cases hc : compare e.1 f.1 with
  | eq => rfl
  | lt =>
    have hnone : find? e.1 l₂ = none := find?_of_lt fun g hg => Std.TransCmp.lt_trans hc (hf g hg)
    have hhead := h e.1
    simp [find?, hc, hnone] at hhead
  | gt =>
    have hlt := Std.OrientedCmp.gt_iff_lt.1 hc
    have hnone : find? f.1 l₁ = none := find?_of_lt fun g hg => Std.TransCmp.lt_trans hlt (he g hg)
    have hhead := h f.1
    simp [find?, hlt, hnone] at hhead

private theorem beq_entries_iff [BEq ν] {l₁ l₂ : List (κ × ν)}
    (h₁ : l₁.Pairwise (fun a b => compare a.1 b.1 = .lt))
    (h₂ : l₂.Pairwise (fun a b => compare a.1 b.1 = .lt)) :
    (l₁.length = l₂.length ∧
        ∀ p ∈ l₁.zip l₂, compare p.1.1 p.2.1 = .eq ∧ (p.1.2 == p.2.2) = true) ↔
      ∀ k, (find? k l₁ == find? k l₂) = true := by
  induction l₁ generalizing l₂ with
  | nil =>
    cases l₂ with
    | nil => simp [find?]
    | cons f l₂ =>
      refine iff_of_false (by simp) fun h => ?_
      have hhead := h f.1
      simp [find?] at hhead
  | cons e l₁ ih =>
    cases l₂ with
    | nil =>
      refine iff_of_false (by simp) fun h => ?_
      have hhead := h e.1
      simp [find?] at hhead
    | cons f l₂ =>
      obtain ⟨he, hl₁⟩ := List.pairwise_cons.1 h₁
      obtain ⟨hf, hl₂⟩ := List.pairwise_cons.1 h₂
      have tail := ih hl₁ hl₂
      constructor
      · rintro ⟨hlen, hall⟩ k
        obtain ⟨hef, hval⟩ := hall (e, f) (by simp)
        by_cases hk : compare k e.1 = .eq
        · simpa [find?, hk, Std.TransCmp.eq_trans hk hef] using hval
        · rw [find?_cons_beq hef hk]
          exact tail.1 ⟨by simpa using hlen, fun p hp => hall p (by simp [hp])⟩ k
      · intro h
        -- both heads are the least key of their list, so they are found under one key
        have hef := compare_heads he hf h
        have hval : (e.2 == f.2) = true := by simpa [find?, hef] using h e.1
        have hrest : ∀ k, (find? k l₁ == find? k l₂) = true := by
          intro k
          by_cases hk : compare k e.1 = .eq
          · -- the key is below the rest of both lists
            have hn₁ : find? k l₁ = none := find?_of_lt fun g hg => (Std.TransCmp.congr_left hk).trans (he g hg)
            have hn₂ : find? k l₂ = none :=
              find?_of_lt fun g hg => (Std.TransCmp.congr_left (Std.TransCmp.eq_trans hk hef)).trans (hf g hg)
            simp [hn₁, hn₂]
          · rw [← find?_cons_beq hef hk]
            exact h k
        obtain ⟨hlen, hall⟩ := tail.2 hrest
        refine ⟨by simp [hlen], fun p hp => ?_⟩
        rcases List.mem_cons.1 (by simpa using hp) with rfl | hp
        · exact ⟨hef, hval⟩
        · exact hall p hp

/-- Tables with the same entries are the same table. -/
theorem ext_mem {m n : SortedMap κ ν} (h : ∀ e, e ∈ m.entries ↔ e ∈ n.entries) : m = n := by
  -- both lists ascend strictly by their keys
  have hirrefl : Std.Irrefl fun e f : κ × ν => compare e.1 f.1 = .lt := ⟨fun e h => by simp at h⟩
  have hantisymm : Std.Antisymm fun e f : κ × ν => compare e.1 f.1 = .lt :=
    ⟨fun e f h h' => by rw [Std.OrientedCmp.gt_of_lt h] at h'; simp at h'⟩
  exact ext (List.Pairwise.eq_of_mem_iff m.sorted n.sorted h)

/-- Where keys that compare as equal are the same, the entries of a table are what is found in it. -/
theorem mem_entries_iff [Std.LawfulEqOrd κ] {m : SortedMap κ ν} {e : κ × ν} :
    e ∈ m.entries ↔ m.get? e.1 = some e.2 := by
  refine ⟨get?_of_mem, fun hfound => ?_⟩
  obtain ⟨k, hmem, hcmp⟩ := get?_eq_some_iff.1 hfound
  obtain rfl : e.1 = k := Std.LawfulEqCmp.eq_of_compare hcmp
  exact hmem

/-- Such tables with the same look-ups are the same table. -/
theorem ext_get? [Std.LawfulEqOrd κ] {m n : SortedMap κ ν} (h : ∀ k, m.get? k = n.get? k) : m = n :=
  ext_mem fun e => by rw [mem_entries_iff, mem_entries_iff, h]

/-- **Tables are equal when all look-ups are.** -/
theorem beq_iff [BEq ν] {m n : SortedMap κ ν} :
    (m == n) = true ↔ ∀ k, (m.get? k == n.get? k) = true := by
  refine Iff.trans ?_ (beq_entries_iff m.sorted n.sorted)
  change (m.size == n.size && _) = true ↔ _
  simp [size]

end SortedMap

/-! ### Sets -/

namespace SortedSet

variable {κ : Type u} [Ord κ] [Std.TransOrd κ]

theorem contains_addAll {l : List κ} {s : SortedSet κ} {k : κ} :
    (s.addAll l).contains k = true ↔ (∃ k' ∈ l, compare k k' = .eq) ∨ s.contains k = true := by
  induction l generalizing s with
  | nil => simp [addAll]
  | cons k' rest ih =>
    have hstep : s.addAll (k' :: rest) = (s.add k').addAll rest := rfl
    rw [hstep, ih, contains_add]
    simp only [Bool.or_eq_true, beq_iff_eq, List.mem_cons, exists_eq_or_imp]
    rw [or_assoc, or_left_comm]

/-- A set made of a list has the elements of the list. -/
theorem contains_ofList {l : List κ} {k : κ} :
    (ofList l).contains k = true ↔ ∃ k' ∈ l, compare k k' = .eq := by
  change (SortedMap.get? (SortedMap.ofList (l.map (·, ()))) k).isSome = true ↔ _
  rw [SortedMap.get?_ofList, SortedMap.isSome_find?]
  simp

/-- A set contains exactly the elements that it lists, in any spelling. -/
theorem contains_iff_toList {s : SortedSet κ} {k : κ} :
    s.contains k = true ↔ ∃ k' ∈ s.toList, compare k k' = .eq := SortedMap.contains_iff_keys

theorem contains_of_mem_toList {s : SortedSet κ} {k : κ} (h : k ∈ s.toList) : s.contains k = true :=
  SortedMap.contains_of_mem_keys h

/-- A set is made of its elements. -/
theorem addAll_toList (s : SortedSet κ) : addAll ∅ s.toList = s := by
  have hfold : ∀ (l : List (κ × Unit)) (t : SortedSet κ), t.addAll (l.map (·.1)) = SortedMap.insertAll t l := by
    intro l
    induction l with
    | nil => exact fun t => rfl
    | cons e rest ih => exact fun t => ih (t.add e.1)
  exact (hfold (SortedMap.entries s) ∅).trans (SortedMap.insertAll_entries s)

/-- Sets are equal when they contain the same elements. -/
theorem beq_iff {s t : SortedSet κ} : (s == t) = true ↔ ∀ k, s.contains k = t.contains k := by
  rw [SortedMap.beq_iff]
  refine forall_congr' fun k => ?_
  unfold SortedMap.contains
  cases SortedMap.get? s k <;> cases SortedMap.get? t k <;> simp

/-- Where elements that compare as equal are the same, sets with the same elements are the same set. -/
theorem ext_contains [Std.LawfulEqOrd κ] {s t : SortedSet κ} (h : ∀ k, s.contains k = t.contains k) : s = t := by
  refine SortedMap.ext_get? fun k => ?_
  have hk := h k
  unfold SortedMap.contains at hk
  cases hs : SortedMap.get? s k <;> cases ht : SortedMap.get? t k <;> simp_all

end SortedSet

/-! ### Tables by path -/

namespace Path

/-- Paths compare as equal exactly when they are the same path. -/
theorem compare_eq_iff_beq {p q : Path} : compare p q = .eq ↔ (p == q) = true := by
  rw [compare_eq_iff, beq_iff]

instance : EquivBEq Path where
  rfl := beq_iff.2 rfl
  symm h := beq_iff.2 (beq_iff.1 h).symm
  trans h h' := beq_iff.2 ((beq_iff.1 h).trans (beq_iff.1 h'))

theorem beq_eq_false_of_lt {p q : Path} (h : compare p q = .lt) : (p == q) = false := by
  by_contra hsame
  rw [compare_eq_iff_beq.2 (by simpa using hsame)] at h
  simp at h

theorem keys_distinct {ν : Type u} (m : SortedMap Path ν) : m.keys.Pairwise fun p q => (p == q) = false :=
  m.pairwise_keys.imp beq_eq_false_of_lt

end Path

end Recompile

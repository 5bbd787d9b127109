/-!
# Finite maps sorted by key

A build records sources, classes and their dependencies in tables that are read back in the order of
their keys: the order in which sources are compiled, in which a store is written and in which a summary
is printed. `SortedMap κ ν` is such a table, a list of entries in strictly ascending key order. The order
is a field of the type, so no operation has to be trusted to keep it, and two tables with the same look-ups
list the same keys in the same order.

Keys are compared by `compare`, which may identify keys that are not equal: two spellings of one path are
one key. A table keeps the spelling that was entered first (`SortedMap.insert`), and only the value of an
entry is replaced; a table that is made of a list at once (`SortedMap.ofList`) takes the last of equal keys as
it stands. `SortedSet` is the table without values.
-/

namespace Recompile

universe u v w

/-- **A finite map sorted by key.** No two keys of one map compare as equal. -/
structure SortedMap (κ : Type u) (ν : Type v) [Ord κ] where
  /-- The entries, ascending. -/
  entries : List (κ × ν)
  /-- Every key is below all later ones. -/
  sorted : entries.Pairwise (fun a b => compare a.1 b.1 = .lt)

namespace SortedMap

variable {κ : Type u} {ν : Type v} {ω : Type w} [Ord κ]

def empty : SortedMap κ ν := ⟨[], .nil⟩

instance : EmptyCollection (SortedMap κ ν) := ⟨empty⟩

instance : Inhabited (SortedMap κ ν) := ⟨empty⟩

@[simp] theorem entries_empty : (∅ : SortedMap κ ν).entries = [] := rfl

@[ext] theorem ext {m n : SortedMap κ ν} (h : m.entries = n.entries) : m = n := by
  cases m; cases n; simp_all

/-! ### Reading -/

/-- The first value whose key compares as equal to `k`. -/
def find? (k : κ) : List (κ × ν) → Option ν
  | [] => none
  | e :: rest => if compare k e.1 = .eq then some e.2 else find? k rest

/-- The value at a key. -/
def get? (m : SortedMap κ ν) (k : κ) : Option ν :=
  find? k m.entries

/-- Whether a key is present. -/
def contains (m : SortedMap κ ν) (k : κ) : Bool :=
  (m.get? k).isSome

/-- The keys, ascending, as they were first spelled. -/
def keys (m : SortedMap κ ν) : List κ :=
  m.entries.map (·.1)

/-- The values in the order of their keys. -/
def values (m : SortedMap κ ν) : List ν :=
  m.entries.map (·.2)

/-- The number of entries. -/
def size (m : SortedMap κ ν) : Nat :=
  m.entries.length

/-- Whether there is no entry. -/
def isEmpty (m : SortedMap κ ν) : Bool :=
  m.entries.isEmpty

/-- Two maps are equal when their keys compare as equal one by one and their values are equal; the spelling
of the keys does not count. -/
instance [BEq ν] : BEq (SortedMap κ ν) where
  beq m n :=
    m.size == n.size &&
      (m.entries.zip n.entries).all fun p => compare p.1.1 p.2.1 == .eq && p.1.2 == p.2.2

/-! ### Removal -/

/-- The entries whose key and value satisfy a test. -/
def filter (p : κ → ν → Bool) (m : SortedMap κ ν) : SortedMap κ ν :=
  ⟨m.entries.filter fun e => p e.1 e.2, m.sorted.sublist List.filter_sublist⟩

/-- Drops the entry at a key. -/
def erase (m : SortedMap κ ν) (k : κ) : SortedMap κ ν :=
  m.filter fun k' _ => compare k k' != .eq

/-- Applies a function to every value. -/
def map (f : ν → ω) (m : SortedMap κ ν) : SortedMap κ ω :=
  ⟨m.entries.map fun e => (e.1, f e.2), List.pairwise_map.2 m.sorted⟩

@[simp] theorem entries_filter (p : κ → ν → Bool) (m : SortedMap κ ν) :
    (m.filter p).entries = m.entries.filter fun e => p e.1 e.2 := rfl

/-- A removed key holds nothing. -/
@[simp] theorem get?_erase_self (m : SortedMap κ ν) (k : κ) : (m.erase k).get? k = none := by
  suffices ∀ l : List (κ × ν), find? k (l.filter fun e => compare k e.1 != .eq) = none from
    this m.entries
  intro l
  induction l with
  | nil => rfl
  | cons e rest ih =>
    by_cases h : compare k e.1 = .eq <;> simp [h, find?, ih]

/-! ### Insertion -/

/-- Insertion into an ascending list of entries. A key that is already there keeps its spelling. -/
def insertEntry (k : κ) (x : ν) : List (κ × ν) → List (κ × ν)
  | [] => [(k, x)]
  | e :: rest =>
    match compare k e.1 with
    | .lt => (k, x) :: e :: rest
    | .eq => (e.1, x) :: rest
    | .gt => e :: insertEntry k x rest

/-- An entry after an insertion is an old one, the new one, or an old key with the new value. -/
theorem mem_insertEntry {k : κ} {x : ν} {e : κ × ν} {l : List (κ × ν)}
    (h : e ∈ insertEntry k x l) :
    e = (k, x) ∨ e ∈ l ∨ ∃ f ∈ l, compare k f.1 = .eq ∧ e = (f.1, x) := by
  induction l with
  | nil => simp_all [insertEntry]
  | cons f rest ih =>
    unfold insertEntry at h
    split at h <;> grind

variable [Std.TransOrd κ]

theorem pairwise_insertEntry (k : κ) (x : ν) {l : List (κ × ν)}
    (h : l.Pairwise (fun a b => compare a.1 b.1 = .lt)) :
    (insertEntry k x l).Pairwise (fun a b => compare a.1 b.1 = .lt) := by
  induction l with
  | nil => simp [insertEntry]
  | cons f rest ih =>
    obtain ⟨hf, hrest⟩ := List.pairwise_cons.1 h
    unfold insertEntry
    split
    next hlt =>
      refine List.pairwise_cons.2 ⟨fun e he => ?_, h⟩
      rcases List.mem_cons.1 he with rfl | he
      · exact hlt
      · exact Std.TransCmp.lt_trans hlt (hf e he)
    next => exact List.pairwise_cons.2 ⟨fun e he => hf e he, hrest⟩
    next hgt =>
      -- what is in the rest now was there before, up to its value, or is the new key
      refine List.pairwise_cons.2 ⟨fun e he => ?_, ih hrest⟩
      rcases mem_insertEntry he with rfl | he | ⟨g, hg, -, rfl⟩
      · exact Std.OrientedCmp.gt_iff_lt.1 hgt
      · exact hf e he
      · exact hf g hg

/-- Puts a value at a key, in place of the one that was there. -/
def insert (m : SortedMap κ ν) (k : κ) (x : ν) : SortedMap κ ν :=
  ⟨insertEntry k x m.entries, pairwise_insertEntry k x m.sorted⟩

/-- A key holds what was last put there. -/
@[simp] theorem get?_insert_self (m : SortedMap κ ν) (k : κ) (x : ν) :
    (m.insert k x).get? k = some x := by
  suffices ∀ l : List (κ × ν), find? k (insertEntry k x l) = some x from this m.entries
  intro l
  induction l with
  | nil => simp [insertEntry, find?]
  | cons e rest ih =>
    unfold insertEntry
    split <;> simp_all [find?]

/-- Other keys keep what they held. -/
theorem get?_insert_of_ne (m : SortedMap κ ν) {k k' : κ} (x : ν) (h : compare k' k ≠ .eq) :
    (m.insert k x).get? k' = m.get? k' := by
  suffices ∀ l : List (κ × ν), find? k' (insertEntry k x l) = find? k' l from this m.entries
  intro l
  induction l with
  | nil => simp [insertEntry, find?, h]
  | cons e rest ih =>
    unfold insertEntry
    split
    · simp [find?, h]
    next heq =>
      -- the replaced entry has the new key in another spelling, so it is not the one asked for
      have hne : compare k' e.1 ≠ .eq := fun hc =>
        h (Std.TransCmp.eq_trans hc (Std.OrientedCmp.eq_symm heq))
      simp [find?, hne]
    · simp [find?, ih]

/-- Look-ups do not tell spellings of a key apart. -/
theorem get?_congr (m : SortedMap κ ν) {k k' : κ} (h : compare k k' = .eq) : m.get? k = m.get? k' := by
  unfold get?
  induction m.entries with
  | nil => rfl
  | cons e rest ih => simp only [find?, ih, Std.TransCmp.congr_left h]

theorem get?_insert (m : SortedMap κ ν) (k : κ) (x : ν) (k' : κ) :
    (m.insert k x).get? k' = if compare k' k = .eq then some x else m.get? k' := by
  split
  next h => rw [get?_congr _ h, get?_insert_self]
  next h => exact get?_insert_of_ne m x h

/-- After an insertion the key is there, and so is what was there before. -/
theorem contains_insert (m : SortedMap κ ν) (k : κ) (x : ν) (k' : κ) :
    (m.insert k x).contains k' = (compare k' k == .eq || m.contains k') := by
  by_cases h : compare k' k = .eq <;> simp [contains, get?_insert, h]

/-- Puts the entries of a list into a map one after another: of entries with one key the last value and the
first spelling stay. -/
def insertAll (m : SortedMap κ ν) (l : List (κ × ν)) : SortedMap κ ν :=
  l.foldl (fun m e => m.insert e.1 e.2) m

/-- The map of a list of entries; of entries with one key the last one stays, its spelling included. -/
def ofList (l : List (κ × ν)) : SortedMap κ ν :=
  l.foldl (fun m e => (m.erase e.1).insert e.1 e.2) ∅

/-- Other keys are not affected by a removal. -/
theorem get?_erase_of_ne (m : SortedMap κ ν) {k k' : κ} (h : compare k' k ≠ .eq) :
    (m.erase k).get? k' = m.get? k' := by
  suffices ∀ l : List (κ × ν), find? k' (l.filter fun e => compare k e.1 != .eq) = find? k' l from
    this m.entries
  intro l
  induction l with
  | nil => rfl
  | cons e rest ih =>
    by_cases hk : compare k e.1 = .eq
    · have hne : compare k' e.1 ≠ .eq := fun hc =>
        h (Std.TransCmp.eq_trans hc (Std.OrientedCmp.eq_symm hk))
      simp [hk, find?, hne, ih]
    · simp [hk, find?, ih]

end SortedMap

/-- **A finite set sorted by its order.** An element that is already there keeps its spelling when it is added
again. -/
abbrev SortedSet (κ : Type u) [Ord κ] := SortedMap κ Unit

namespace SortedSet

variable {κ : Type u} [Ord κ] [Std.TransOrd κ]

def add (s : SortedSet κ) (k : κ) : SortedSet κ := SortedMap.insert s k ()

/-- A set to which an element was added has it, and what it had before. -/
theorem contains_add (s : SortedSet κ) (k k' : κ) :
    (s.add k).contains k' = (compare k' k == .eq || s.contains k') := SortedMap.contains_insert s k () k'

def addAll (s : SortedSet κ) (l : List κ) : SortedSet κ := l.foldl add s

/-- The set of the elements of a list; of equal elements the last spelling stays. -/
def ofList (l : List κ) : SortedSet κ := SortedMap.ofList (l.map (·, ()))

/-- The elements, ascending. -/
def toList (s : SortedSet κ) : List κ := SortedMap.keys s

/-- The elements of both sets. -/
def union (s t : SortedSet κ) : SortedSet κ := addAll s t.toList

end SortedSet

end Recompile

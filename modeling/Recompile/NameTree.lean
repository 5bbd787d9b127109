/-!
# Maps from lists of names

A directory tree holds something at lists of names, the way to each entry from the root. `NameTree` is a finite
map from such lists, in which lists that begin alike share their beginning: looking one up takes time in its
length and in the number of names at each level that it passes, and what lies below a list of names is a level of
its own. The names of a level are in ascending order, which is a field of the type.

The main statements say what a look-up yields after a change: for an entry that was just put in
(`NameTree.get?_insert_self`), for another one (`NameTree.get?_insert_of_ne`), and for all of them after
everything below some names was dropped (`NameTree.get?_drop`).
-/

namespace Recompile

universe u

namespace NameTree

/-- **The names at one level of a tree,** each with what is held at it, if anything is, and with the level inside
it. -/
inductive Level (ν : Type u)
  /-- A level without names, or what follows the last name of a level. -/
  | nil
  /-- A name, and the rest of its level. -/
  | cons (name : String) (value : Option ν) (inside next : Level ν)

namespace Level

variable {ν : Type u}

def names : Level ν → List String
  | nil => []
  | cons name _ _ next => name :: next.names

/-- Whether the names of a level and of all levels inside it are in ascending order. -/
def Ascending : Level ν → Prop
  | nil => True
  | cons name _ inside next =>
    (∀ n ∈ next.names, compare name n = .lt) ∧ inside.Ascending ∧ next.Ascending

/-! ### Reading -/

def get? : Level ν → List String → Option ν
  | nil, _ => none
  | cons .., [] => none
  | cons name value inside next, n :: rest =>
    if n = name then if rest = [] then value else inside.get? rest
    else next.get? (n :: rest)

def under : Level ν → List String → Level ν
  | t, [] => t
  | nil, _ :: _ => nil
  | cons name _ inside next, n :: rest => if n = name then inside.under rest else next.under (n :: rest)

/-- All lists of names that hold something, with what they hold, in ascending order. -/
def entries : Level ν → List (List String × ν)
  | nil => []
  | cons name value inside next =>
    (value.map ([name], ·)).toList ++ inside.entries.map (fun e => (name :: e.1, e.2)) ++ next.entries

/-- The empty list of names holds nothing. -/
@[simp] theorem get?_nil (t : Level ν) : t.get? [] = none := by cases t <;> rfl

/-- Nothing is held at a list that starts with a name that the level does not have. -/
theorem get?_eq_none {t : Level ν} {n : String} (h : n ∉ t.names) (rest : List String) :
    t.get? (n :: rest) = none := by
  induction t with
  | nil => rfl
  | cons name value inside next _ ih =>
    obtain ⟨hn, hnext⟩ := not_or.1 (mt List.mem_cons.2 h)
    simp [get?, hn, ih hnext]

/-- What is held below some names is held at the longer lists of names. -/
theorem get?_under (t : Level ν) (base : List String) {rest : List String} (h : rest ≠ []) :
    (t.under base).get? rest = t.get? (base ++ rest) := by
  induction t generalizing base with
  | nil => cases base <;> simp [under, get?]
  | cons name value inside next insideHyp nextHyp =>
    cases base with
    | nil => simp [under]
    | cons n base => by_cases hn : n = name <;> simp [under, get?, hn, insideHyp, nextHyp, h]

/-! ### Putting in -/

/-- A value at a list of names, in front of the names of a level. -/
def chain : List String → ν → Level ν → Level ν
  | [], _, next => next
  | n :: rest, x, next => cons n (if rest = [] then some x else none) (chain rest x nil) next

/-- Puts a value at a list of names, in place of the one that was there. -/
def insert : Level ν → List String → ν → Level ν
  | nil, way, x => chain way x nil
  | cons name value inside next, [], _ => cons name value inside next
  | cons name value inside next, n :: rest, x =>
    match compare n name with
    | .lt => chain (n :: rest) x (cons name value inside next)
    | .eq => if rest = [] then cons name (some x) inside next else cons name value (inside.insert rest x) next
    | .gt => cons name value inside (next.insert (n :: rest) x)

/-- What a chain holds: the value at its end, and what the level behind it holds under other names. -/
theorem get?_chain (n : String) (rest : List String) (x : ν) (next : Level ν) (m : String)
    (others : List String) :
    (chain (n :: rest) x next).get? (m :: others) =
      if m = n then if others = rest then some x else none else next.get? (m :: others) := by
  induction rest generalizing n next m others with
  | nil => cases others <;> simp [chain, get?]
  | cons r rest ih =>
    by_cases hm : m = n
    · cases others with
      | nil => simp [chain, get?, hm]
      | cons o others =>
        have h := ih r nil o others
        by_cases ho : o = r <;> simp_all [chain, get?]
    · simp [chain, get?, hm]

theorem ascending_chain {way : List String} (x : ν) {next : Level ν} (h : next.Ascending)
    (hn : ∀ n ∈ way.head?, ∀ m ∈ next.names, compare n m = .lt) : (chain way x next).Ascending := by
  induction way generalizing next with
  | nil => exact h
  | cons n rest ih =>
    exact ⟨hn n (by simp), ih trivial (by simp [names]), h⟩

/-- An insertion adds at most the first of the given names to a level. -/
theorem mem_names_insert {t : Level ν} {n m : String} {rest : List String} {x : ν}
    (h : m ∈ (t.insert (n :: rest) x).names) : m = n ∨ m ∈ t.names := by
  induction t with
  | nil => simpa [insert, chain, names] using h
  | cons name value inside next _ ih =>
    unfold insert at h
    split at h
    · simpa [chain, names] using h
    · split at h <;> exact Or.inr h
    · rcases List.mem_cons.1 h with rfl | h
      · exact Or.inr List.mem_cons_self
      · exact (ih h).imp id (List.mem_cons_of_mem _)

theorem ascending_insert {t : Level ν} (h : t.Ascending) (way : List String) (x : ν) :
    (t.insert way x).Ascending := by
  induction t generalizing way with
  | nil => exact ascending_chain x trivial (by simp [names])
  | cons name value inside next insideHyp nextHyp =>
    cases way with
    | nil => exact h
    | cons n rest =>
      obtain ⟨hlt, hinside, hnext⟩ := h
      unfold insert
      split
      next hn =>
        -- the chain stands in front: its first name is below all others of the level
        refine ascending_chain x ⟨hlt, hinside, hnext⟩ ?_
        rintro _ ⟨⟩ m hm
        rcases List.mem_cons.1 hm with rfl | hm
        · exact hn
        · exact Std.TransCmp.lt_trans hn (hlt m hm)
      next =>
        split
        · exact ⟨hlt, hinside, hnext⟩
        · exact ⟨hlt, insideHyp hinside rest, hnext⟩
      next hn =>
        -- the new name goes further back, and is above the one that it passes
        refine ⟨fun m hm => ?_, hinside, nextHyp hnext _⟩
        rcases mem_names_insert hm with rfl | hm
        · exact Std.OrientedCmp.gt_iff_lt.1 hn
        · exact hlt m hm

/-- A list of names holds what was just put there. -/
theorem get?_insert_self (t : Level ν) {way : List String} (x : ν) (h : way ≠ []) :
    (t.insert way x).get? way = some x := by
  induction t generalizing way with
  | nil =>
    obtain ⟨n, rest, rfl⟩ := List.exists_cons_of_ne_nil h
    simp [insert, get?_chain]
  | cons name value inside next insideHyp nextHyp =>
    obtain ⟨n, rest, rfl⟩ := List.exists_cons_of_ne_nil h
    -- the name belongs before, into or behind the entry in front
    unfold insert
    split
    next => simp [get?_chain]
    next heq =>
      obtain rfl : n = name := Std.LawfulEqCmp.eq_of_compare heq
      by_cases hr : rest = [] <;> simp [get?, hr, insideHyp]
    next hgt =>
      have hne : n ≠ name := by rintro rfl; simp at hgt
      simp [get?, hne, nextHyp]

/-- Other lists of names keep what they held. -/
theorem get?_insert_of_ne {t : Level ν} (ht : t.Ascending) {way other : List String} (x : ν)
    (h : other ≠ way) : (t.insert way x).get? other = t.get? other := by
  induction t generalizing way other with
  | nil =>
    cases way with
    | nil => rfl
    | cons n rest =>
      cases other with
      | nil => simp
      | cons m others => simp_all [insert, get?_chain, get?]
  | cons name value inside next insideHyp nextHyp =>
    obtain ⟨hlt, hinside, hnext⟩ := ht
    cases way with
    | nil => rfl
    | cons n rest =>
      cases other with
      | nil => simp
      | cons m others =>
        unfold insert
        split
        next hn =>
          rw [get?_chain]
          split
          next hm =>
            subst hm
            -- a name that stands in front of the level is not in it, so nothing was held there
            have hout : m ∉ (cons name value inside next).names := by
              rintro hmem
              rcases List.mem_cons.1 hmem with rfl | hmem
              · simp at hn
              · simpa using Std.TransCmp.lt_trans hn (hlt m hmem)
            simp_all [get?_eq_none hout]
          next => rfl
        next heq =>
          obtain rfl : n = name := Std.LawfulEqCmp.eq_of_compare heq
          by_cases hm : m = n
          · subst hm
            -- one name: the lists differ behind it, or one of them ends here
            by_cases hr : rest = []
            · subst hr
              simp_all [get?]
            · by_cases ho : others = []
              · simp [get?, hr, ho]
              · have hne : others ≠ rest := by rintro rfl; exact h rfl
                simp [get?, hr, ho, insideHyp hinside hne]
          · split <;> simp [get?, hm]
        next =>
          by_cases hm : m = name
          · simp [get?, hm]
          · simp [get?, hm, nextHyp hnext h]

/-! ### Dropping -/

/-- Drops what is held at a list of names and at all that begin with it. -/
def drop : Level ν → List String → Level ν
  | _, [] => nil
  | nil, _ :: _ => nil
  | cons name value inside next, n :: rest =>
    if n ≠ name then cons name value inside (next.drop (n :: rest))
    else if rest = [] then next
    else cons name value (inside.drop rest) next

theorem mem_names_drop {t : Level ν} {way : List String} {m : String} (h : m ∈ (t.drop way).names) :
    m ∈ t.names := by
  induction t generalizing way with
  | nil => cases way <;> exact h
  | cons name value inside next _ ih =>
    cases way with
    | nil => simp [drop, names] at h
    | cons n rest =>
      unfold drop at h
      split at h
      · rcases List.mem_cons.1 h with rfl | h
        · exact List.mem_cons_self
        · exact List.mem_cons_of_mem _ (ih h)
      · split at h
        · exact List.mem_cons_of_mem _ h
        · exact h

theorem ascending_drop {t : Level ν} (h : t.Ascending) (way : List String) : (t.drop way).Ascending := by
  induction t generalizing way with
  | nil => cases way <;> exact h
  | cons name value inside next insideHyp nextHyp =>
    cases way with
    | nil => trivial
    | cons n rest =>
      obtain ⟨hlt, hinside, hnext⟩ := h
      unfold drop
      split
      · exact ⟨fun m hm => hlt m (mem_names_drop hm), hinside, nextHyp hnext _⟩
      · split
        · exact hnext
        · exact ⟨hlt, insideHyp hinside rest, hnext⟩

/-- Nothing is left at lists that begin with the dropped names, and the others keep what they held. -/
theorem get?_drop {t : Level ν} (ht : t.Ascending) (way other : List String) :
    (t.drop way).get? other = if way.isPrefixOf other then none else t.get? other := by
  induction t generalizing way other with
  | nil => cases way <;> simp [drop, get?]
  | cons name value inside next insideHyp nextHyp =>
    obtain ⟨hlt, hinside, hnext⟩ := ht
    cases way with
    | nil => simp [drop, get?]
    | cons n rest =>
      cases other with
      | nil => simp
      | cons m others =>
        unfold drop
        split
        next hn =>
          by_cases hm : m = name
          · subst hm
            simp [get?, List.isPrefixOf, hn]
          · simp [get?, hm, nextHyp hnext]
        next hn =>
          obtain rfl : n = name := Decidable.not_not.1 hn
          by_cases hm : m = n
          · subst hm
            -- the names ascend, so the one that goes is not found further back
            have hout : m ∉ next.names := fun hmem => by simpa using hlt m hmem
            by_cases hr : rest = []
            · simp [hr, List.isPrefixOf, get?_eq_none hout]
            · by_cases ho : others = []
              · subst ho
                cases rest <;> simp_all [get?, List.isPrefixOf]
              · simp [get?, List.isPrefixOf, hr, ho, insideHyp hinside]
          · have hm' : ¬ n = m := fun e => hm e.symm
            by_cases hr : rest = [] <;> simp [get?, List.isPrefixOf, hr, hm, hm']

end Level

end NameTree

/-- **A finite map from lists of names.** The empty list of names holds nothing. -/
structure NameTree (ν : Type u) where
  /-- The names at which the lists start. -/
  top : NameTree.Level ν
  ascending : top.Ascending

namespace NameTree

variable {ν : Type u}

instance : EmptyCollection (NameTree ν) := ⟨⟨.nil, trivial⟩⟩

instance : Inhabited (NameTree ν) := ⟨∅⟩

def get? (t : NameTree ν) (way : List String) : Option ν := t.top.get? way

/-- All lists of names that hold something, with what they hold, in ascending order. -/
def entries (t : NameTree ν) : List (List String × ν) := t.top.entries

/-- The lists of names below one that hold something, in ascending order. -/
def below (t : NameTree ν) (base : List String) : List (List String) :=
  (t.top.under base).entries.map fun e => base ++ e.1

/-- Puts a value at a list of names, in place of the one that was there. -/
def insert (t : NameTree ν) (way : List String) (x : ν) : NameTree ν :=
  ⟨t.top.insert way x, t.top.ascending_insert t.ascending way x⟩

/-- Drops what is held at a list of names and at all that begin with it. -/
def drop (t : NameTree ν) (way : List String) : NameTree ν :=
  ⟨t.top.drop way, t.top.ascending_drop t.ascending way⟩

/-- A list of names holds what was last put there. -/
theorem get?_insert_self (t : NameTree ν) {way : List String} (x : ν) (h : way ≠ []) :
    (t.insert way x).get? way = some x := t.top.get?_insert_self x h

/-- Other lists of names keep what they held. -/
theorem get?_insert_of_ne (t : NameTree ν) {way other : List String} (x : ν) (h : other ≠ way) :
    (t.insert way x).get? other = t.get? other := t.top.get?_insert_of_ne t.ascending x h

/-- Nothing is left at lists that begin with the dropped names, and the others keep what they held. -/
theorem get?_drop (t : NameTree ν) (way other : List String) :
    (t.drop way).get? other = if way.isPrefixOf other then none else t.get? other :=
  t.top.get?_drop t.ascending way other

end NameTree

end Recompile

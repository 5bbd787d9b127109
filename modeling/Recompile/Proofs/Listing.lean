import Mathlib.Data.List.Basic
import Recompile.Proofs.Walk

/-!
# What lies below a directory

A `NameTree` keeps the names of each level in ascending order. From that follow the two facts about its list of entries
that everything here rests on: the list has what the tree holds, and nothing else (`NameTree.Level.mem_entries_iff`), and it
goes up from each entry to the next one when lists of names are compared name by name
(`NameTree.Level.ascending_entries`).

For a directory they say that `Files.ways` has every way down from it to something, once, in an order that depends on
nothing but the ways.
-/

namespace Recompile

universe u

/-- Lists that start alike compare as what follows. -/
theorem compare_append_self {α : Type u} [Ord α] [Std.ReflOrd α] (u v w : List α) :
    compare (u ++ v) (u ++ w) = compare v w := by
  induction u with
  | nil => rfl
  | cons a u ih =>
    have ha : compare a a = .eq := Std.ReflCmp.compare_self
    rw [List.cons_append, List.cons_append, List.compare_cons_cons, ha, ← ih]
    rfl

/-- What a list starts with comes before it. -/
theorem compare_append_lt {α : Type u} [Ord α] [Std.ReflOrd α] (u : List α) {v : List α} (hv : v ≠ []) :
    compare u (u ++ v) = .lt := by
  obtain ⟨a, rest, rfl⟩ := List.exists_cons_of_ne_nil hv
  calc compare u (u ++ a :: rest)
      = compare (u ++ []) (u ++ a :: rest) := by rw [List.append_nil]
    _ = compare [] (a :: rest) := compare_append_self u [] (a :: rest)
    _ = .lt := rfl

namespace NameTree.Level

variable {ν : Type u} {t : Level ν} {way : List String} {x : ν}

/-! ### The entries of a level -/

/-- An entry of a level starts with one of the names of the level. -/
theorem exists_mem_names_of_mem_entries (h : (way, x) ∈ t.entries) : ∃ n rest, way = n :: rest ∧ n ∈ t.names := by
  induction t generalizing way with
  | nil => simp [entries] at h
  | cons name value inside next _ nextHyp =>
    simp only [entries, List.mem_append, List.mem_map, Option.mem_toList, Option.map_eq_some_iff] at h
    rcases h with (⟨_, -, hown⟩ | ⟨e, -, hinside⟩) | hnext
    · obtain ⟨rfl, -⟩ := Prod.mk.inj hown
      exact ⟨name, [], rfl, List.mem_cons_self⟩
    · obtain ⟨rfl, -⟩ := Prod.mk.inj hinside
      exact ⟨name, e.1, rfl, List.mem_cons_self⟩
    · obtain ⟨n, rest, hway, hn⟩ := nextHyp hnext
      exact ⟨n, rest, hway, List.mem_cons_of_mem _ hn⟩

/-- **A level lists what it holds.** -/
theorem mem_entries_iff (ht : t.Ascending) : (way, x) ∈ t.entries ↔ t.get? way = some x := by
  induction t generalizing way with
  | nil => simp [entries, get?]
  | cons name value inside next insideHyp nextHyp =>
    obtain ⟨hlt, hinside, hnext⟩ := ht
    -- an entry is the one at the name itself, one inside it, or one behind it
    have hsplit : (way, x) ∈ (cons name value inside next).entries ↔
        (value = some x ∧ way = [name]) ∨ (∃ rest, (rest, x) ∈ inside.entries ∧ way = name :: rest) ∨
          (way, x) ∈ next.entries := by
      simp only [entries, List.mem_append, List.mem_map, Option.mem_toList, Option.map_eq_some_iff, or_assoc]
      refine or_congr ?_ (or_congr ?_ Iff.rfl)
      · constructor
        · rintro ⟨_, hvalue, hown⟩
          obtain ⟨rfl, rfl⟩ := Prod.mk.inj hown
          exact ⟨hvalue, rfl⟩
        · rintro ⟨hvalue, rfl⟩
          exact ⟨x, hvalue, rfl⟩
      · constructor
        · rintro ⟨⟨rest, _⟩, hrest, hsame⟩
          obtain ⟨rfl, rfl⟩ := Prod.mk.inj hsame
          exact ⟨rest, hrest, rfl⟩
        · rintro ⟨rest, hrest, rfl⟩
          exact ⟨(rest, x), hrest, rfl⟩
    rw [hsplit, nextHyp hnext]
    simp only [insideHyp hinside]
    cases way with
    | nil => simp
    | cons n rest =>
      by_cases hn : n = name
      · subst hn
        -- the names behind are larger, so the name is not among them
        have hout : n ∉ next.names := fun hmem => by simpa using hlt n hmem
        rw [get?_eq_none hout]
        by_cases hrest : rest = [] <;> simp [get?, hrest]
      · simp [get?, hn]

/-- **A level lists in ascending order,** comparing lists of names name by name. -/
theorem ascending_entries (ht : t.Ascending) : t.entries.Pairwise fun a b => compare a.1 b.1 = .lt := by
  induction t with
  | nil => exact List.Pairwise.nil
  | cons name value inside next insideHyp nextHyp =>
    obtain ⟨hlt, hinside, hnext⟩ := ht
    -- the entry at the name comes first, and those inside it start alike
    have hfront : ((value.map ([name], ·)).toList ++ inside.entries.map fun e => (name :: e.1, e.2)).Pairwise
        fun a b => compare a.1 b.1 = .lt := by
      refine List.pairwise_append.2 ⟨?_, ?_, ?_⟩
      · cases value <;> simp
      · refine List.pairwise_map.2 ((insideHyp hinside).imp fun {a b} hab => ?_)
        have htail := compare_append_self [name] a.1 b.1
        exact htail.trans hab
      · intro a ha b hb
        obtain ⟨_, -, rfl⟩ := Option.map_eq_some_iff.1 (Option.mem_toList.1 ha)
        obtain ⟨e, he, rfl⟩ := List.mem_map.1 hb
        obtain ⟨n, rest, hway, -⟩ := exists_mem_names_of_mem_entries he
        exact compare_append_lt [name] (v := e.1) (by simp [hway])
    refine List.pairwise_append.2 ⟨hfront, nextHyp hnext, fun a ha b hb => ?_⟩
    -- what is behind starts with a larger name
    have ha' : ∃ rest, a.1 = name :: rest := by
      rcases List.mem_append.1 ha with hown | hin
      · obtain ⟨_, -, rfl⟩ := Option.map_eq_some_iff.1 (Option.mem_toList.1 hown)
        exact ⟨[], rfl⟩
      · obtain ⟨e, -, rfl⟩ := List.mem_map.1 hin
        exact ⟨e.1, rfl⟩
    obtain ⟨rest, ha'⟩ := ha'
    obtain ⟨n, others, hb', hn⟩ := exists_mem_names_of_mem_entries hb
    rw [ha', hb', List.compare_cons_cons, hlt n hn]
    rfl

/-- The levels inside a level are in ascending order as well. -/
theorem ascending_under (ht : t.Ascending) (base : List String) : (t.under base).Ascending := by
  induction t generalizing base with
  | nil => cases base <;> exact trivial
  | cons name value inside next insideHyp nextHyp =>
    obtain ⟨hlt, hinside, hnext⟩ := ht
    cases base with
    | nil => exact ⟨hlt, hinside, hnext⟩
    | cons n rest =>
      unfold under
      split
      · exact insideHyp hinside rest
      · exact nextHyp hnext (n :: rest)

end NameTree.Level

namespace Files

/-! ### The ways down from a directory -/

/-- **The ways that lead down from a directory** to something, in ascending order. -/
def ways (f : Files) (base : Location) : List Location := (f.nodes.top.under base).entries.map Prod.fst

variable {f : Files} {base way : Location}

theorem below_eq (f : Files) (base : Location) : f.below base = (f.ways base).map (base ++ ·) := by
  simp [below, NameTree.below, ways]

/-- The ways from a directory are those at the end of which there is something. -/
theorem mem_ways_iff : way ∈ f.ways base ↔ way ≠ [] ∧ f.node? (base ++ way) ≠ none := by
  -- the names below the base are looked up as they are listed
  have hentries : way ∈ f.ways base ↔ ∃ node, (f.nodes.top.under base).get? way = some node := by
    simp only [ways, List.mem_map]
    constructor
    · rintro ⟨⟨_, node⟩, hmem, rfl⟩
      exact ⟨node, (NameTree.Level.mem_entries_iff (NameTree.Level.ascending_under f.nodes.ascending base)).1 hmem⟩
    · rintro ⟨node, hnode⟩
      have hmem := (NameTree.Level.mem_entries_iff (NameTree.Level.ascending_under f.nodes.ascending base)).2 hnode
      exact ⟨(way, node), hmem, rfl⟩
  rw [hentries]
  by_cases hway : way = []
  · simp [hway]
  · have hnode : f.node? (base ++ way) = (f.nodes.top.under base).get? way := by
      rw [NameTree.Level.get?_under _ _ hway]
      simp [node?, NameTree.get?, hway]
    rw [hnode, Option.ne_none_iff_exists']
    exact (and_iff_right hway).symm

theorem ascending_ways (f : Files) (base : Location) : (f.ways base).Pairwise fun v w => compare v w = .lt :=
  List.pairwise_map.2 (NameTree.Level.ascending_entries (NameTree.Level.ascending_under f.nodes.ascending base))

theorem nodup_ways (f : Files) (base : Location) : (f.ways base).Nodup := by
  refine (ascending_ways f base).imp ?_
  rintro v _ hlt rfl
  simp at hlt

end Files

end Recompile

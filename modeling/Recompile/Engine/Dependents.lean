import Recompile.Analysis.Basic

/-!
# Sources that refer to others

The edges between sources are followed backwards, from a source whose classes have changed to those that may have to be
compiled because of it: one step (`Analysis.dependentsOfAny`), or as many as there are
(`Analysis.transitiveDependents`).

The latter is a search. It enters every source at most once, when it first meets it, and follows it later on. The
sources from which it starts are followed without being entered, so that one of them is found only if a reference leads
back to it. Each step takes one source out of the queue and moves others from those that were not found to the queue, so
there is less left to do after it (`Search.left_lt_of_next?`).
-/

namespace Recompile

def SourceInfo.refersTo (info : SourceInfo) (targets : List Path) : Bool :=
  targets.any fun t => info.sourceDeps.contains t

/-- The recorded sources that refer to one of some sources. -/
def Analysis.dependentsOfAny (a : Analysis) (targets : List Path) : List Path :=
  (a.sources.filter fun _ info => info.refersTo targets).keys

/-- **A search against the references between sources.** -/
structure Search where
  /-- The sources that were found. -/
  found : SortedSet Path
  /-- The sources that are still to be followed, the next one in front. -/
  queue : List Path

namespace Search

variable {a : Analysis} {s t : Search} {p : Path}

def start (roots : List Path) : Search := ⟨∅, roots.reverse⟩

/-- Enters a source that was met. Only one that was not found before is to be followed. -/
def enter (s : Search) (p : Path) : Search :=
  if s.found.contains p then s else ⟨s.found.add p, p :: s.queue⟩

/-- Follows the next source, back to all that refer to it, if there is one. -/
def next? (a : Analysis) (s : Search) : Option Search :=
  match s.queue with
  | [] => none
  | p :: rest => some ((a.dependentsOf p).foldl enter ⟨s.found, rest⟩)

/-! ### What is left to do -/

def unfound (a : Analysis) (s : Search) : List Path := a.sources.keys.filter fun p => !s.found.contains p

/-- How many sources are still to be found or followed. -/
def left (a : Analysis) (s : Search) : Nat := (s.unfound a).length + s.queue.length

/-- A source that is entered moves from those that were not found to the queue. -/
theorem left_enter_le (hp : p ∈ a.sources.keys) : (s.enter p).left a ≤ s.left a := by
  unfold enter
  split
  next => exact Nat.le_refl _
  next hnew =>
    -- the queue gets one source longer, and those that were not found lose at least this one
    have hmem : p ∈ s.unfound a := List.mem_filter.2 ⟨hp, by simpa using hnew⟩
    have hself : (s.found.add p).contains p = true := by simp [SortedSet.add, SortedMap.contains]
    have hless : ((s.unfound a).filter fun q => !(s.found.add p).contains q).length < (s.unfound a).length :=
      List.length_filter_lt_length_iff_exists.2 ⟨p, hmem, by simp [hself]⟩
    have hsame : (Search.mk (s.found.add p) (p :: s.queue)).unfound a =
        (s.unfound a).filter fun q => !(s.found.add p).contains q := by
      rw [unfound, unfound, List.filter_filter]
      refine List.filter_congr fun q _ => ?_
      cases hq : s.found.contains q
      · simp
      · simp [SortedSet.contains_add, hq]
    rw [left, left, hsame, List.length_cons]
    omega

theorem left_foldl_enter_le {l : List Path} (hl : ∀ p ∈ l, p ∈ a.sources.keys) : (l.foldl enter s).left a ≤ s.left a := by
  induction l generalizing s with
  | nil => exact Nat.le_refl _
  | cons p rest ih =>
    obtain ⟨hp, hrest⟩ := List.forall_mem_cons.1 hl
    exact Nat.le_trans (ih hrest) (left_enter_le hp)

theorem mem_keys_of_mem_dependentsOf {q : Path} (hq : q ∈ a.dependentsOf p) : q ∈ a.sources.keys :=
  (List.filter_sublist.map _).subset hq

/-- **Each step leaves less to do.** -/
theorem left_lt_of_next? (h : s.next? a = some t) : t.left a < s.left a := by
  unfold next? at h
  split at h
  next => simp at h
  next p rest hqueue =>
    obtain rfl := Option.some.inj h
    have hle : ((a.dependentsOf p).foldl enter ⟨s.found, rest⟩).left a ≤ (Search.mk s.found rest).left a :=
      left_foldl_enter_le fun q hq => mem_keys_of_mem_dependentsOf hq
    have hlt : (Search.mk s.found rest).left a < s.left a := by
      simp [left, unfound, hqueue]
    exact Nat.lt_of_le_of_lt hle hlt

/-- What the search finds in the end. -/
def run (a : Analysis) (s : Search) : SortedSet Path :=
  match _h : s.next? a with
  | none => s.found
  | some t => t.run a
termination_by s.left a
decreasing_by exact left_lt_of_next? _h

end Search

/-- **The recorded sources that lead to one of some sources** by one or more references. -/
def Analysis.transitiveDependents (a : Analysis) (roots : List Path) : SortedSet Path := (Search.start roots).run a

end Recompile

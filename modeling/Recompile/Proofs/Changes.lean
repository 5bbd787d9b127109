import Mathlib.Data.List.Perm.Lattice
import Recompile.Engine.Changes
import Recompile.Proofs.Dependents

/-!
# Change detection

The current sources are filed one after another, each under the class that its recorded digest puts it in, and the
recorded sources that are not there any more make up the last class. `Changes.Filed` is what the pass over the sources
has put down so far; `Changes.Filed.file` is one step of it.

Two views of the classes follow. Each one lists the keys of a part of a table, so it ascends, and what is among it can
be said by look-ups (`Changes.among_added` and its kin). And nothing gets lost or is filed twice, so that the classes
partition the current sources as well as the recorded ones (`Changes.classifies_detect`).
-/

namespace Recompile

namespace Path

theorem eq_nil_iff_not_among {l : List Path} : l = [] ↔ ∀ p : Path, ¬ p.Among l := by
  refine ⟨fun h p => h ▸ not_among_nil p, fun h => ?_⟩
  exact List.eq_nil_iff_forall_not_mem.2 fun p hp => h p (among_of_mem hp)

theorem among_iff_components {p : Path} {l : List Path} : p.Among l ↔ p.components ∈ l.map components := by
  simp only [List.mem_map, Among, beq_iff]

theorem map_components_subset {l m : List Path} (h : ∀ p : Path, p.Among l → p.Among m) :
    l.map components ⊆ m.map components := by
  intro cs hcs
  obtain ⟨p, hp, rfl⟩ := List.mem_map.1 hcs
  exact among_iff_components.1 (h p (among_of_mem hp))

theorem nodup_components {l : List Path} (h : l.Pairwise fun p q => (p == q) = false) : (l.map components).Nodup :=
  List.pairwise_map.2 (h.imp fun hne hsame => by simp [beq_iff.2 hsame] at hne)

/-- Lists of different paths that have the same paths among them list the same paths, in some order. -/
theorem perm_components {l m : List Path} (hl : l.Pairwise fun p q => (p == q) = false)
    (hm : m.Pairwise fun p q => (p == q) = false) (h : ∀ p : Path, p.Among l ↔ p.Among m) :
    (l.map components).Perm (m.map components) := by
  refine (List.perm_ext_iff_of_nodup (nodup_components hl) (nodup_components hm)).2 fun cs => ?_
  exact ⟨fun hcs => map_components_subset (fun p => (h p).1) hcs, fun hcs => map_components_subset (fun p => (h p).2) hcs⟩

/-- Paths of lists that have no path in common are different. -/
theorem beq_eq_false_of_apart {l m : List Path} (h : ∀ p : Path, p.Among l → ¬ p.Among m) :
    ∀ p ∈ l, ∀ q ∈ m, (p == q) = false := by
  intro p hp q hq
  by_contra hsame
  exact h p (among_of_mem hp) ((among_of_mem hq).congr (BEq.symm (by simpa using hsame)))

end Path

namespace Changes

variable {digests : SortedMap Path Digest} {a : Analysis} {p : Path}

/-! ### The pass over the sources -/

/-- **What a pass has filed:** each source that it went over, under its class and in the order of the pass. -/
structure Filed (a : Analysis) (l : List (Path × Digest)) (c : Changes) : Prop where
  added : c.added = (l.filter fun e => (a.source? e.1).isNone).map Prod.fst
  modified : c.modified = (l.filter fun e => (a.source? e.1).any fun info => info.digest != e.2).map Prod.fst
  unchanged : c.unchanged = (l.filter fun e => (a.source? e.1).any fun info => info.digest == e.2).map Prod.fst
  all : (c.added ++ c.modified ++ c.unchanged).Perm (l.map Prod.fst)

/-- One step files one source. -/
theorem Filed.file {l : List (Path × Digest)} {c : Changes} (h : Filed a l c) (e : Path × Digest) :
    Filed a (l ++ [e]) (c.file a e) := by
  obtain ⟨hadded, hmodified, hunchanged, hall⟩ := h
  -- wherever the source is put, all lists together have it beside what they had
  have hmove : ∀ x y : List Path, (x ++ y).Perm (c.added ++ c.modified ++ c.unchanged) →
      (x ++ e.1 :: y).Perm ((l ++ [e]).map Prod.fst) := by
    intro x y hxy
    rw [List.map_append]
    exact List.perm_middle.trans (((hxy.trans hall).cons e.1).trans (List.perm_append_singleton e.1 _).symm)
  unfold Changes.file
  cases hsource : a.source? e.1 with
  | none =>
    refine ⟨by simp [hadded, hsource], by simp [hmodified, hsource], by simp [hunchanged, hsource], ?_⟩
    simpa using hmove c.added (c.modified ++ c.unchanged) (by simp)
  | some info =>
    by_cases hsame : info.digest = e.2
    · simp only [hsame, BEq.rfl, if_true]
      refine ⟨by simp [hadded, hsource], by simp [hmodified, hsource, hsame], by simp [hunchanged, hsource, hsame], ?_⟩
      simpa using hmove (c.added ++ c.modified ++ c.unchanged) [] (by simp)
    · simp only [beq_eq_false_iff_ne.2 hsame, Bool.false_eq_true, if_false]
      refine ⟨by simp [hadded, hsource], by simp [hmodified, hsource, hsame], by simp [hunchanged, hsource, hsame], ?_⟩
      simpa using hmove (c.added ++ c.modified) c.unchanged (by simp)

/-- A pass files all its sources. -/
theorem Filed.foldl {l : List (Path × Digest)} {c : Changes} (h : Filed a l c) (m : List (Path × Digest)) :
    Filed a (l ++ m) (m.foldl (Changes.file a) c) := by
  induction m generalizing l c with
  | nil => simpa using h
  | cons e rest ih => simpa using ih (h.file e)

theorem filed_detect (digests : SortedMap Path Digest) (a : Analysis) :
    Filed a digests.entries (detect digests a) := by
  have hpass := Filed.foldl (a := a) (l := []) (c := ⟨[], [], [], []⟩) ⟨rfl, rfl, rfl, .nil⟩ digests.entries
  exact ⟨hpass.added, hpass.modified, hpass.unchanged, hpass.all⟩

/-! ### Classes as parts of tables -/

theorem added_detect : (detect digests a).added = (digests.filter fun p _ => (a.source? p).isNone).keys :=
  (filed_detect digests a).added

theorem modified_detect : (detect digests a).modified =
    (digests.filter fun p d => (a.source? p).any fun info => info.digest != d).keys :=
  (filed_detect digests a).modified

theorem unchanged_detect : (detect digests a).unchanged =
    (digests.filter fun p d => (a.source? p).any fun info => info.digest == d).keys :=
  (filed_detect digests a).unchanged

theorem among_added : p.Among (detect digests a).added ↔ digests.contains p = true ∧ a.source? p = none := by
  rw [added_detect]
  refine (Path.among_filter_keys fun {q r} _ h => ?_).trans ?_
  · rw [a.source?_congr h]
  · simp only [Option.isNone_iff_eq_none, exists_and_right, SortedMap.contains_iff]

/-- The sources that are there and recorded, with digests that pass a test. -/
theorem among_filter_recorded {test : Digest → Digest → Bool} :
    p.Among (digests.filter fun p d => (a.source? p).any fun info => test info.digest d).keys ↔
      ∃ d info, digests.get? p = some d ∧ a.source? p = some info ∧ test info.digest d = true := by
  refine (Path.among_filter_keys fun {q r} _ h => ?_).trans ?_
  · rw [a.source?_congr h]
  · simp only [Option.any_eq_true]
    constructor
    · rintro ⟨d, hd, info, hinfo, hpass⟩
      exact ⟨d, info, hd, hinfo, hpass⟩
    · rintro ⟨d, info, hd, hinfo, hpass⟩
      exact ⟨d, hd, info, hinfo, hpass⟩

theorem among_modified : p.Among (detect digests a).modified ↔
    ∃ d info, digests.get? p = some d ∧ a.source? p = some info ∧ info.digest ≠ d := by
  rw [modified_detect, among_filter_recorded]
  simp only [bne_iff_ne, ne_eq]

theorem among_unchanged : p.Among (detect digests a).unchanged ↔
    ∃ d info, digests.get? p = some d ∧ a.source? p = some info ∧ info.digest = d := by
  rw [unchanged_detect, among_filter_recorded]
  simp only [beq_iff_eq]

theorem among_deleted : p.Among (detect digests a).deleted ↔
    (∃ info, a.source? p = some info) ∧ digests.get? p = none := by
  refine (Path.among_filter_keys fun {q r} _ h => ?_).trans ?_
  · rw [SortedMap.contains_congr digests (Path.compare_eq_iff_beq.2 h)]
  · simp only [Bool.not_eq_true', SortedMap.contains_eq_false, exists_and_right]
    rfl

/-! ### A partition -/

/-- **What change detection promises.** Its four lists are in order and have no path in common, and they account for
every source once, for the current ones as well as for the recorded ones, which may be spelled in another way. -/
structure Classifies (digests : SortedMap Path Digest) (a : Analysis) (c : Changes) : Prop where
  ascending : ∀ l ∈ [c.added, c.modified, c.unchanged, c.deleted], l.Pairwise fun p q => compare p q = .lt
  disjoint : [c.added, c.modified, c.unchanged, c.deleted].Pairwise fun l m => ∀ p : Path, p.Among l → ¬ p.Among m
  current : (c.added ++ c.modified ++ c.unchanged).Perm digests.keys
  recorded : ((c.modified ++ c.unchanged ++ c.deleted).map Path.components).Perm (a.sources.keys.map Path.components)
  unchanged_iff : ∀ p d info, digests.get? p = some d → a.source? p = some info →
    (p.Among c.unchanged ↔ info.digest = d)
  isEmpty_iff : c.isEmpty = true ↔ (a.sources.map SourceInfo.digest == digests) = true

theorem ascending_detect {l : List Path} (hl : l ∈ [(detect digests a).added, (detect digests a).modified,
    (detect digests a).unchanged, (detect digests a).deleted]) : l.Pairwise fun p q => compare p q = .lt := by
  simp only [List.mem_cons, List.not_mem_nil, or_false] at hl
  rcases hl with rfl | rfl | rfl | rfl
  · rw [added_detect]
    exact SortedMap.pairwise_keys _
  · rw [modified_detect]
    exact SortedMap.pairwise_keys _
  · rw [unchanged_detect]
    exact SortedMap.pairwise_keys _
  · exact SortedMap.pairwise_keys _

theorem disjoint_detect (digests : SortedMap Path Digest) (a : Analysis) :
    [(detect digests a).added, (detect digests a).modified, (detect digests a).unchanged,
      (detect digests a).deleted].Pairwise fun l m => ∀ p : Path, p.Among l → ¬ p.Among m := by
  simp only [List.pairwise_cons, List.mem_cons, List.not_mem_nil, or_false, forall_eq_or_imp, forall_eq]
  -- what is found at a path in both tables tells its class
  grind [among_added, among_modified, among_unchanged, among_deleted]

/-- No path is listed twice. -/
theorem distinct_detect (digests : SortedMap Path Digest) (a : Analysis) :
    [(detect digests a).added, (detect digests a).modified, (detect digests a).unchanged,
      (detect digests a).deleted].flatten.Pairwise fun p q => (p == q) = false := by
  refine List.pairwise_flatten.2 ⟨fun l hl => ?_, ?_⟩
  · exact (ascending_detect hl).imp Path.beq_eq_false_of_lt
  · exact (disjoint_detect digests a).imp Path.beq_eq_false_of_apart

/-- What is recorded is modified, unchanged or gone. -/
theorem among_recorded :
    p.Among ((detect digests a).modified ++ (detect digests a).unchanged ++ (detect digests a).deleted) ↔
      p.Among a.sources.keys := by
  rw [Path.among_append, Path.among_append, among_modified, among_unchanged, among_deleted, Path.among_keys,
    SortedMap.contains_iff]
  change _ ↔ ∃ info, a.source? p = some info
  constructor
  · rintro ((⟨_, info, -, hinfo, -⟩ | ⟨_, info, -, hinfo, -⟩) | ⟨⟨info, hinfo⟩, -⟩) <;> exact ⟨info, hinfo⟩
  · -- a recorded source is gone, or it is there with the recorded digest or with another one
    rintro ⟨info, hinfo⟩
    cases hd : digests.get? p with
    | none => exact Or.inr ⟨⟨info, hinfo⟩, rfl⟩
    | some d =>
      by_cases hsame : info.digest = d
      · exact Or.inl (Or.inr ⟨d, info, rfl, hinfo, hsame⟩)
      · exact Or.inl (Or.inl ⟨d, info, rfl, hinfo, hsame⟩)

theorem recorded_detect (digests : SortedMap Path Digest) (a : Analysis) :
    (((detect digests a).modified ++ (detect digests a).unchanged ++ (detect digests a).deleted).map
      Path.components).Perm (a.sources.keys.map Path.components) := by
  refine Path.perm_components ?_ (Path.keys_distinct a.sources) fun p => among_recorded
  refine (distinct_detect digests a).sublist ?_
  simp

/-- Nothing has changed if the recorded digests are the current ones. -/
theorem isEmpty_detect_iff :
    (detect digests a).isEmpty = true ↔ (a.sources.map SourceInfo.digest == digests) = true := by
  have hlists : (detect digests a).isEmpty = true ↔ ∀ p : Path, ¬ p.Among (detect digests a).added ∧
      ¬ p.Among (detect digests a).modified ∧ ¬ p.Among (detect digests a).deleted := by
    simp only [isEmpty, Bool.and_eq_true, List.isEmpty_iff, Path.eq_nil_iff_not_among, forall_and, and_assoc]
  rw [hlists, SortedMap.beq_iff]
  refine forall_congr' fun p => ?_
  rw [among_added, among_modified, among_deleted, SortedMap.get?_map, beq_iff_eq]
  change _ ↔ (a.source? p).map SourceInfo.digest = digests.get? p
  unfold SortedMap.contains
  cases digests.get? p <;> cases a.source? p <;> simp

/-- **Change detection partitions** the current sources and the recorded ones. -/
theorem classifies_detect (digests : SortedMap Path Digest) (a : Analysis) :
    Classifies digests a (detect digests a) where
  ascending _ hl := ascending_detect hl
  disjoint := disjoint_detect digests a
  current := (filed_detect digests a).all
  recorded := recorded_detect digests a
  unchanged_iff p d info hd hinfo := by simp [among_unchanged, hd, hinfo, eq_comm]
  isEmpty_iff := isEmpty_detect_iff

end Changes

end Recompile

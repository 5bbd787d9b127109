import Recompile.Analysis.Basic
import Recompile.Proofs.Table

/-!
# Recording and removing a source

An `Analysis` has two tables that refer to one another. This module says what either holds after
`Analysis.remove` and `Analysis.record`, and states the invariant that ties them together: every recorded class is
listed by the recorded source that owns it (`Analysis.Listed`). Under the invariant a removal takes exactly the
classes that the source owns (`Analysis.Listed.class?_remove`), which is what makes the comparison of a class before
and after a round complete.

Analyses are equal when their look-ups are (`Analysis.beq_iff`), whatever the spelling of the paths in them.
-/

namespace Recompile

namespace Analysis

/-- **Every recorded class is listed by the recorded source that owns it.** -/
def Listed (a : Analysis) : Prop :=
  ∀ name c, a.class? name = some c →
    ∃ info, a.source? c.source = some info ∧ info.classes.contains name = true

@[simp] theorem source?_empty (p : Path) : (∅ : Analysis).source? p = none := rfl

@[simp] theorem class?_empty (name : String) : (∅ : Analysis).class? name = none := rfl

/-- Two spellings of a path have the same record. -/
theorem source?_congr (a : Analysis) {p q : Path} (h : (p == q) = true) : a.source? p = a.source? q :=
  a.sources.get?_congr (Path.compare_eq_iff_beq.2 h)

/-! ### Removal -/

/-- A removal takes the record of the source, whether there is one or not. -/
theorem sources_remove (a : Analysis) (p : Path) : (a.remove p).sources = a.sources.erase p := by
  cases hp : a.source? p with
  | none =>
    have hkept : (a.remove p).sources = a.sources := by rw [remove, hp]
    rw [hkept]
    refine SortedMap.ext_mem fun e => ?_
    rw [SortedMap.mem_entries_erase]
    exact ⟨fun he => ⟨he, SortedMap.find?_eq_none.1 hp e he⟩, And.left⟩
  | some info => simp only [remove, hp]

theorem source?_remove (a : Analysis) (p q : Path) :
    (a.remove p).source? q = if (q == p) = true then none else a.source? q := by
  unfold source?
  rw [sources_remove, SortedMap.get?_erase]
  simp only [Path.compare_eq_iff_beq]

theorem source?_remove_of_ne (a : Analysis) {p q : Path} (h : (q == p) = false) :
    (a.remove p).source? q = a.source? q := by
  simp [source?_remove, h]

/-- A removal drops the classes that the source lists and owns. -/
theorem class?_remove (a : Analysis) (p : Path) (name : String) :
    (a.remove p).class? name = (a.class? name).filter fun c =>
      !((a.source? p).any (fun info => info.classes.contains name) && c.source == p) := by
  cases hp : a.source? p with
  | none => cases hc : a.class? name <;> simp [remove, hp, hc, Option.filter_some]
  | some info =>
    simp only [remove, hp]
    refine (SortedMap.get?_filter ?_ a.classes name).trans ?_
    · intro k k' x hk
      rw [Std.LawfulEqCmp.eq_of_compare hk]
    · simp [class?]

/-- What a removal leaves was there before. -/
theorem class?_of_remove {a : Analysis} {p : Path} {name : String} {c : ClassInfo}
    (h : (a.remove p).class? name = some c) : a.class? name = some c := by
  rw [class?_remove, Option.filter_eq_some_iff] at h
  exact h.1

theorem class?_remove_of_ne {a : Analysis} {p : Path} {name : String} {c : ClassInfo}
    (h : a.class? name = some c) (hne : (c.source == p) = false) : (a.remove p).class? name = some c := by
  simp [class?_remove, h, hne]

/-- If every class is listed, a removal takes exactly the classes that the source owns. -/
theorem Listed.class?_remove {a : Analysis} (ha : a.Listed) (p : Path) (name : String) :
    (a.remove p).class? name = (a.class? name).filter fun c => !(c.source == p) := by
  rw [Analysis.class?_remove]
  cases hc : a.class? name with
  | none => rfl
  | some c =>
    rw [Option.filter_some, Option.filter_some]
    cases hp : c.source == p with
    | false => simp
    | true =>
      obtain ⟨info, hinfo, hlists⟩ := ha name c hc
      rw [a.source?_congr hp] at hinfo
      simp [hinfo, hlists]

theorem listed_empty : (∅ : Analysis).Listed := by
  intro name c h
  exact absurd h (by simp)

theorem Listed.remove {a : Analysis} (ha : a.Listed) (p : Path) : (a.remove p).Listed := by
  intro name c hc
  rw [ha.class?_remove, Option.filter_eq_some_iff] at hc
  obtain ⟨hc, hne⟩ := hc
  obtain ⟨info, hinfo, hlists⟩ := ha name c hc
  refine ⟨info, ?_, hlists⟩
  rw [source?_remove_of_ne a (by simpa using hne)]
  exact hinfo

/-- The file of a class is among those of the source that owns it. -/
theorem Listed.mem_classFiles {a : Analysis} (ha : a.Listed) {name : String} {k : ClassInfo} (hk : a.class? name = some k)
    {p : Path} (howner : (k.source == p) = true) : k.classFile ∈ a.classFiles p := by
  obtain ⟨info, hinfo, hlists⟩ := ha name k hk
  rw [a.source?_congr howner] at hinfo
  unfold classFiles
  rw [hinfo]
  obtain ⟨name', hname, hcmp⟩ := SortedSet.contains_iff_toList.1 hlists
  obtain rfl : name = name' := Std.LawfulEqCmp.eq_of_compare hcmp
  exact List.mem_filterMap.2 ⟨name, hname, by rw [hk]; rfl⟩

/-! ### Recording -/

/-- After a source was recorded it has the record that it was given, with the names of its classes. -/
theorem source?_record (a : Analysis) (p : Path) (info : SourceInfo) (classes : List (String × ClassInfo))
    (q : Path) :
    (a.record p info classes).source? q =
      if (q == p) = true then some { info with classes := SortedSet.ofList (classes.map (·.1)) }
      else a.source? q := by
  change ((a.remove p).sources.insert p _).get? q = _
  rw [SortedMap.get?_insert]
  simp only [Path.compare_eq_iff_beq]
  split
  next => rfl
  next h => exact source?_remove_of_ne a (by simpa using h)

/-- After a source was recorded a class has the last record in the list, or what a removal of the source leaves. -/
theorem class?_record (a : Analysis) (p : Path) (info : SourceInfo) (classes : List (String × ClassInfo))
    (name : String) :
    (a.record p info classes).class? name =
      (SortedMap.find? name classes.reverse).or ((a.remove p).class? name) :=
  SortedMap.get?_insertAll classes (a.remove p).classes name

/-- A class of another source stays when a source is recorded, as long as no class of its name is recorded. -/
theorem class?_record_of_other {a : Analysis} {p : Path} {info : SourceInfo} {classes : List (String × ClassInfo)}
    {name : String} {k : ClassInfo} (hk : a.class? name = some k) (hother : (k.source == p) = false)
    (hnew : ∀ e ∈ classes, e.1 ≠ name) : (a.record p info classes).class? name = some k := by
  have hnone : SortedMap.find? name classes.reverse = none := by
    refine SortedMap.find?_eq_none.2 fun e he hcmp => ?_
    exact hnew e (List.mem_reverse.1 he) (Std.LawfulEqCmp.eq_of_compare hcmp).symm
  rw [class?_record, hnone, Option.none_or]
  exact class?_remove_of_ne hk hother

theorem Listed.record {a : Analysis} (ha : a.Listed) {p : Path} (info : SourceInfo)
    {classes : List (String × ClassInfo)} (hclasses : ∀ e ∈ classes, (e.2.source == p) = true) :
    (a.record p info classes).Listed := by
  intro name c hc
  rw [class?_record, Option.or_eq_some_iff] at hc
  rcases hc with hfind | ⟨-, hold⟩
  · -- a class of the new record is listed by it
    obtain ⟨e, he, hk, rfl⟩ := SortedMap.exists_of_find? hfind
    have hmem := List.mem_reverse.1 he
    refine ⟨_, by rw [source?_record, if_pos (hclasses e hmem)], ?_⟩
    exact SortedSet.contains_ofList.2 ⟨e.1, List.mem_map_of_mem hmem, hk⟩
  · -- the others belong to other sources, whose records are untouched
    have hc := hold
    rw [ha.class?_remove, Option.filter_eq_some_iff] at hc
    obtain ⟨info', hinfo, hlists⟩ := ha.remove p name c hold
    have hne : (c.source == p) = false := by simpa using hc.2
    refine ⟨info', ?_, hlists⟩
    rw [source?_record, if_neg (by simp [hne])]
    rwa [source?_remove_of_ne a hne] at hinfo

end Analysis

/-! ### Equal analyses -/

theorem ClassInfo.beq_iff {k l : ClassInfo} :
    (k == l) = true ↔ (k.source == l.source) = true ∧ (k.classFile == l.classFile) = true ∧ k.api = l.api := by
  cases k with
  | mk source file api =>
    cases l with
    | mk source' file' api' =>
      change (source == source' && (file == file' && api == api')) = true ↔ _
      simp

theorem SourceInfo.beq_iff {i j : SourceInfo} :
    (i == j) = true ↔ i.digest = j.digest ∧ (∀ n, i.classes.contains n = j.classes.contains n) ∧
      (∀ q, i.sourceDeps.contains q = j.sourceDeps.contains q) ∧
      ∀ n, i.binaryDeps.get? n = j.binaryDeps.get? n := by
  cases i with
  | mk digest classes sourceDeps binaryDeps =>
    cases j with
    | mk digest' classes' sourceDeps' binaryDeps' =>
      change (digest == digest' && (classes == classes' && (sourceDeps == sourceDeps' &&
        binaryDeps == binaryDeps'))) = true ↔ _
      rw [Bool.and_eq_true, Bool.and_eq_true, Bool.and_eq_true, SortedSet.beq_iff, SortedSet.beq_iff,
        SortedMap.beq_iff]
      simp

/-- Analyses are equal when their look-ups are. -/
theorem Analysis.beq_iff {a b : Analysis} :
    (a == b) = true ↔
      (∀ p, (a.source? p == b.source? p) = true) ∧ ∀ name, (a.class? name == b.class? name) = true := by
  cases a with
  | mk sources classes =>
    cases b with
    | mk sources' classes' =>
      change (sources == sources' && classes == classes') = true ↔ _
      rw [Bool.and_eq_true, SortedMap.beq_iff, SortedMap.beq_iff]
      rfl

instance : ReflBEq ClassInfo where
  rfl := ClassInfo.beq_iff.2 ⟨BEq.rfl, BEq.rfl, rfl⟩

instance : ReflBEq SourceInfo where
  rfl := SourceInfo.beq_iff.2 ⟨rfl, fun _ => rfl, fun _ => rfl, fun _ => rfl⟩

instance : ReflBEq Analysis where
  rfl := Analysis.beq_iff.2 ⟨fun _ => BEq.rfl, fun _ => BEq.rfl⟩

/-- An analysis that equals one with every class listed has every class listed. -/
theorem Analysis.Listed.of_beq {a b : Analysis} (ha : a.Listed) (h : (b == a) = true) : b.Listed := by
  obtain ⟨hsources, hclasses⟩ := beq_iff.1 h
  intro name c hc
  have hname := hclasses name
  rw [hc] at hname
  cases hk : a.class? name with
  | none => simp [hk] at hname
  | some k =>
    -- equal records name their sources in spellings that may differ
    have hck : (c.source == k.source) = true := (ClassInfo.beq_iff.1 (by simpa [hk] using hname)).1
    obtain ⟨info, hinfo, hlists⟩ := ha name k hk
    have hsource := hsources c.source
    rw [a.source?_congr hck, hinfo] at hsource
    cases hinfo' : b.source? c.source with
    | none => simp [hinfo'] at hsource
    | some info' =>
      have hsame := (SourceInfo.beq_iff.1 (by simpa [hinfo'] using hsource)).2.1 name
      exact ⟨info', rfl, hsame.trans hlists⟩

end Recompile

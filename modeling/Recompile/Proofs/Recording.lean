import Recompile.Engine.Recording
import Recompile.Proofs.Record

/-!
# What recording the units of a batch does

After a batch the engine calls `recordUnits` on what the compiler reported, whatever that is: several units for one
source, none, or units for sources that nobody asked for. The main statement, `recordUnits_source`, says for every
source of the module that the batch accounts for what its record is afterwards: that of the last unit for it, or of a
unit that defines nothing (`unitFor`). What such a record says is `CompiledUnit.Recorded`: the edges lead to the
owners of the referenced classes, and the classes that nobody owns carry what the classpath answered. All other records
are untouched (`recordUnits_source_of_not_mem`).

The classpath remembers its answers. `Classpath.Grows` says that it only ever learns more, so that what was recorded
from an early answer agrees with the last state of the classpath.
-/

namespace Recompile

/-! ### The memory of the classpath -/

namespace Classpath

/-- **A classpath that remembers at least what another one does.** -/
def Grows (c c' : Classpath) : Prop :=
  ∀ name found, c.resolved.get? name = some found → c'.resolved.get? name = some found

theorem Grows.refl (c : Classpath) : c.Grows c := fun _ _ h => h

theorem Grows.trans {c₁ c₂ c₃ : Classpath} (h : c₁.Grows c₂) (h' : c₂.Grows c₃) : c₁.Grows c₃ :=
  fun name found hfound => h' name found (h name found hfound)

/-- What was answered is remembered. -/
theorem fingerprint_resolved (h : Host) (name : String) (c : Classpath) :
    (c.fingerprint h name).2.resolved.get? name = some (c.fingerprint h name).1 := by
  unfold fingerprint
  cases hknown : c.resolved.get? name with
  | some known => simpa using hknown
  | none => simp

theorem grows_fingerprint (h : Host) (name : String) (c : Classpath) :
    c.Grows (c.fingerprint h name).2 := by
  intro other found hfound
  unfold fingerprint
  cases hknown : c.resolved.get? name with
  | some known => exact hfound
  | none =>
    have hne : compare other name ≠ .eq := by
      intro hc
      rw [c.resolved.get?_congr hc, hknown] at hfound
      simp at hfound
    simp [SortedMap.get?_insert, hne, hfound]

end Classpath

/-! ### Owners -/

namespace CompiledUnit

/-- The classes of a unit with the source that owns them. -/
def owned (u : CompiledUnit) : List (String × Path) := u.classes.map fun c => (c.name, u.source)

/-- The classes that some units define, each with its record. -/
def allRecords (units : List CompiledUnit) : List (String × ClassInfo) := units.flatMap records

/-- The record that some units give a class: that of the last one that defines it. -/
def recordIn (units : List CompiledUnit) (name : String) : Option ClassInfo :=
  SortedMap.find? name (allRecords units).reverse

theorem mem_records {u : CompiledUnit} {name : String} {k : ClassInfo} :
    (name, k) ∈ u.records ↔ ∃ c ∈ u.classes, c.name = name ∧ k = ⟨u.source, c.file, c.api⟩ := by
  simp [records, @eq_comm _ k]

/-- The record that some units give a class is that of a class of one of them. -/
theorem exists_class_of_recordIn {units : List CompiledUnit} {name : String} {k : ClassInfo}
    (h : recordIn units name = some k) :
    ∃ u ∈ units, ∃ c ∈ u.classes, c.name = name ∧ k = ⟨u.source, c.file, c.api⟩ := by
  obtain ⟨e, he, hname, rfl⟩ := SortedMap.exists_of_find? h
  obtain rfl : name = e.1 := Std.LawfulEqCmp.eq_of_compare hname
  obtain ⟨u, hu, hmem⟩ := List.mem_flatMap.1 (List.mem_reverse.1 he)
  exact ⟨u, hu, mem_records.1 hmem⟩

theorem exists_recordIn_of_mem {units : List CompiledUnit} {u : CompiledUnit} (hu : u ∈ units) {c : CompiledClass}
    (hc : c ∈ u.classes) : ∃ k, recordIn units c.name = some k := by
  unfold recordIn
  rw [← Option.isSome_iff_exists, SortedMap.isSome_find?]
  refine ⟨(c.name, ⟨u.source, c.file, c.api⟩), ?_, by simp⟩
  rw [List.mem_reverse, allRecords, List.mem_flatMap]
  exact ⟨u, hu, List.mem_map.2 ⟨c, hc, rfl⟩⟩

theorem map_source_records (u : CompiledUnit) :
    u.records.map (fun e => (e.1, e.2.source)) = u.owned := by
  simp [records, owned]

end CompiledUnit

theorem classOwners_eq (a : Analysis) (units : List CompiledUnit) :
    classOwners a units = (a.classes.map ClassInfo.source).insertAll (units.flatMap CompiledUnit.owned) := by
  unfold classOwners
  generalize a.classes.map ClassInfo.source = owners
  induction units generalizing owners with
  | nil => rfl
  | cons u rest ih =>
    rw [List.foldl_cons, ih, List.flatMap_cons, SortedMap.insertAll, SortedMap.insertAll, List.foldl_append,
      CompiledUnit.owned, List.foldl_map]

/-- The owner of a class is the source of the last unit that defines it, and the recorded one if no unit does. -/
theorem get?_classOwners (a : Analysis) (units : List CompiledUnit) (name : String) :
    (classOwners a units).get? name =
      ((CompiledUnit.recordIn units name).or (a.class? name)).map ClassInfo.source := by
  have howned : (CompiledUnit.allRecords units).map (fun e => (e.1, e.2.source)) =
      units.flatMap CompiledUnit.owned := by
    simp only [CompiledUnit.allRecords, List.map_flatMap, CompiledUnit.map_source_records]
  rw [classOwners_eq, SortedMap.get?_insertAll, SortedMap.get?_map, ← howned, ← List.map_reverse,
    SortedMap.find?_map, Option.map_or]
  rfl

/-! ### The references of one source -/

/-- **What adding references to a record does.** `info` and `c` are the record and the classpath before, `info'` and
`c'` those after. -/
structure AddsReferences (owners : SortedMap String Path) (source : Path) (names : List String)
    (info : SourceInfo) (c : Classpath) (info' : SourceInfo) (c' : Classpath) : Prop where
  digest : info'.digest = info.digest
  grows : c.Grows c'
  /-- The new edges lead to the owners of the references. -/
  sourceDeps : ∀ dep, info'.sourceDeps.contains dep = true ↔
    (∃ name ∈ names, ∃ owner, owners.get? name = some owner ∧ (owner == source) = false ∧ (dep == owner) = true) ∨
      info.sourceDeps.contains dep = true
  /-- A reference that nobody owns is looked up, and recorded if it is found. -/
  binaryDeps : ∀ name ∈ names, owners.get? name = none →
    ∃ found, c'.resolved.get? name = some found ∧
      info'.binaryDeps.get? name = found.or (info.binaryDeps.get? name)
  /-- Nothing else is recorded with a fingerprint. -/
  rest : ∀ name, ¬ (name ∈ names ∧ owners.get? name = none) →
    info'.binaryDeps.get? name = info.binaryDeps.get? name

namespace AddsReferences

variable {owners : SortedMap String Path} {source : Path} {name : String} {rest : List String}
  {info info₁ info' : SourceInfo} {c c₁ c' : Classpath}

/-- A reference with an owner adds an edge at most, and no edge to the source itself. -/
theorem owned (step : AddsReferences owners source rest info₁ c info' c') {owner : Path}
    (howner : owners.get? name = some owner) (hdigest : info₁.digest = info.digest)
    (hdeps : ∀ dep, info₁.sourceDeps.contains dep = true ↔
      ((owner == source) = false ∧ (dep == owner) = true) ∨ info.sourceDeps.contains dep = true)
    (hbinary : info₁.binaryDeps = info.binaryDeps) :
    AddsReferences owners source (name :: rest) info c info' c' := by
  refine ⟨step.digest.trans hdigest, step.grows, fun dep => ?_, fun n hn hnone => ?_, fun n hn => ?_⟩
  · rw [step.sourceDeps, hdeps]
    simp [howner, or_assoc, or_left_comm]
  · rw [← hbinary]
    rcases List.mem_cons.1 hn with rfl | hn
    · simp [howner] at hnone
    · exact step.binaryDeps n hn hnone
  · rw [← hbinary]
    exact step.rest n fun hmem => hn ⟨List.mem_cons_of_mem _ hmem.1, hmem.2⟩

/-- A reference without an owner is looked up, and recorded if it is found. -/
theorem unowned (step : AddsReferences owners source rest info₁ c₁ info' c') (howner : owners.get? name = none)
    (hgrows : c.Grows c₁) {found : Option Digest} (hknown : c₁.resolved.get? name = some found)
    (hdigest : info₁.digest = info.digest) (hdeps : info₁.sourceDeps = info.sourceDeps)
    (hname : info₁.binaryDeps.get? name = found.or (info.binaryDeps.get? name))
    (hother : ∀ n, n ≠ name → info₁.binaryDeps.get? n = info.binaryDeps.get? n) :
    AddsReferences owners source (name :: rest) info c info' c' := by
  refine ⟨step.digest.trans hdigest, hgrows.trans step.grows, fun dep => ?_, fun n hn hnone => ?_, fun n hn => ?_⟩
  · rw [step.sourceDeps, hdeps]
    simp [howner]
  · by_cases hnn : n = name
    · subst hnn
      refine ⟨found, step.grows n found hknown, ?_⟩
      by_cases hmem : n ∈ rest
      · -- the name comes again, and the classpath remembers its answer
        obtain ⟨again, hagain, hbin⟩ := step.binaryDeps n hmem hnone
        have hsame : some again = some found := hagain.symm.trans (step.grows n found hknown)
        rw [hbin, hname, Option.some.inj hsame, ← Option.or_assoc, Option.or_self]
      · rw [step.rest n fun h => hmem h.1, hname]
    · obtain ⟨found', hfound', hbin⟩ := step.binaryDeps n ((List.mem_cons.1 hn).resolve_left hnn) hnone
      exact ⟨found', hfound', by rw [hbin, hother n hnn]⟩
  · have hnn : n ≠ name := by
      -- the name in front is none of those that are left out
      rintro rfl
      exact hn ⟨List.mem_cons_self, howner⟩
    rw [step.rest n fun hmem => hn ⟨List.mem_cons_of_mem _ hmem.1, hmem.2⟩, hother n hnn]

end AddsReferences

theorem addReferences_adds (h : Host) (owners : SortedMap String Path) (source : Path) (names : List String)
    (info : SourceInfo) (c : Classpath) :
    AddsReferences owners source names info c (addReferences h owners source names info c).1
      (addReferences h owners source names info c).2 := by
  induction names generalizing info c with
  | nil => exact ⟨rfl, Classpath.Grows.refl c, by simp [addReferences], by simp, by simp [addReferences]⟩
  | cons name rest ih =>
    cases howner : owners.get? name with
    | some owner =>
      cases hself : owner == source with
      -- the source refers to itself
      | true =>
        have hrun : addReferences h owners source (name :: rest) info c =
            addReferences h owners source rest info c := by
          simp [addReferences, howner, hself]
        rw [hrun]
        exact (ih info c).owned howner rfl (by simp [hself]) rfl
      | false =>
        have hrun : addReferences h owners source (name :: rest) info c =
            addReferences h owners source rest { info with sourceDeps := info.sourceDeps.add owner } c := by
          simp [addReferences, howner, hself]
        rw [hrun]
        exact (ih _ c).owned howner rfl (by simp [hself, SortedSet.contains_add, Path.compare_eq_iff_beq]) rfl
    | none =>
      have hknown := Classpath.fingerprint_resolved h name c
      have hgrows := Classpath.grows_fingerprint h name c
      rcases hfp : c.fingerprint h name with ⟨found, c₁⟩
      rw [hfp] at hknown hgrows
      cases found with
      -- it is nowhere on the classpath, which is remembered but not recorded
      | none =>
        have hrun : addReferences h owners source (name :: rest) info c =
            addReferences h owners source rest info c₁ := by
          simp [addReferences, howner, hfp]
        rw [hrun]
        exact (ih info c₁).unowned howner hgrows hknown rfl rfl rfl fun _ _ => rfl
      | some d =>
        have hrun : addReferences h owners source (name :: rest) info c =
            addReferences h owners source rest { info with binaryDeps := info.binaryDeps.insert name d } c₁ := by
          simp [addReferences, howner, hfp]
        rw [hrun]
        refine (ih _ c₁).unowned howner hgrows hknown rfl rfl (by simp) fun n hn => ?_
        exact SortedMap.get?_insert_of_ne _ _ fun hc => hn (Std.LawfulEqCmp.eq_of_compare hc)

/-! ### The record of a unit -/

/-- **What a record says of a unit.** The record has the given digest, the edges of the unit lead to the owners of
what it refers to, and the references that nobody owns have the fingerprints that the classpath remembers. -/
structure CompiledUnit.Recorded (u : CompiledUnit) (digest : Digest) (owners : SortedMap String Path)
    (c : Classpath) (info : SourceInfo) : Prop where
  digest : info.digest = digest
  classes : ∀ name, info.classes.contains name = true ↔ ∃ k ∈ u.classes, k.name = name
  sourceDeps : ∀ dep, info.sourceDeps.contains dep = true ↔
    ∃ name, u.references.contains name = true ∧
      ∃ owner, owners.get? name = some owner ∧ (owner == u.source) = false ∧ (dep == owner) = true
  looked : ∀ name, u.references.contains name = true → owners.get? name = none →
    ∃ found, c.resolved.get? name = some found ∧ info.binaryDeps.get? name = found
  rest : ∀ name, ¬ (u.references.contains name = true ∧ owners.get? name = none) →
    info.binaryDeps.get? name = none

/-- What a record says stays true while the classpath learns more. -/
theorem CompiledUnit.Recorded.grow {u : CompiledUnit} {digest : Digest} {owners : SortedMap String Path}
    {c c' : Classpath} {info : SourceInfo} (h : u.Recorded digest owners c info) (hc : c.Grows c') :
    u.Recorded digest owners c' info where
  digest := h.digest
  classes := h.classes
  sourceDeps := h.sourceDeps
  looked name href hnone := by
    obtain ⟨found, hfound, hbin⟩ := h.looked name href hnone
    exact ⟨found, hc name found hfound, hbin⟩
  rest := h.rest

/-- Every fingerprint in a record is one that the classpath remembers. -/
theorem CompiledUnit.Recorded.answered {u : CompiledUnit} {digest : Digest} {owners : SortedMap String Path}
    {c : Classpath} {info : SourceInfo} (h : u.Recorded digest owners c info) {name : String} {d : Digest}
    (hd : info.binaryDeps.get? name = some d) : c.resolved.get? name = some (some d) := by
  by_cases hn : u.references.contains name = true ∧ owners.get? name = none
  · obtain ⟨found, hfound, hbin⟩ := h.looked name hn.1 hn.2
    rw [hfound, ← hbin, hd]
  · rw [h.rest name hn] at hd
    simp at hd

private theorem contains_string {s : SortedSet String} {name : String} :
    s.contains name = true ↔ name ∈ s.toList := by
  rw [SortedSet.contains_iff_toList]
  simp

/-- The record that `recordEach` makes for a unit says what it should. -/
theorem recorded_addReferences (h : Host) (owners : SortedMap String Path) (u : CompiledUnit) (digest : Digest)
    (c : Classpath) :
    u.Recorded digest owners (addReferences h owners u.source u.references.toList { digest } c).2
      { (addReferences h owners u.source u.references.toList { digest } c).1 with
        classes := SortedSet.ofList (u.records.map (·.1)) } := by
  have adds := addReferences_adds h owners u.source u.references.toList { digest } c
  refine ⟨adds.digest, fun name => ?_, fun dep => ?_, fun name href hnone => ?_, fun name hn => ?_⟩
  · simp [SortedSet.contains_ofList, CompiledUnit.records, @eq_comm _ name]
  · rw [adds.sourceDeps]
    simp [contains_string]
  · obtain ⟨found, hfound, hbin⟩ := adds.binaryDeps name (contains_string.1 href) hnone
    exact ⟨found, hfound, by simpa using hbin⟩
  · exact adds.rest name fun hmem => hn ⟨contains_string.2 hmem.1, hmem.2⟩

/-- A source that defines nothing is recorded like an empty unit. -/
theorem recorded_nothing (p : Path) (digest : Digest) (owners : SortedMap String Path) (c : Classpath) :
    CompiledUnit.Recorded ⟨p, [], ∅⟩ digest owners c { digest, classes := SortedSet.ofList [] } where
  digest := rfl
  classes := by simp [SortedSet.contains_ofList]
  sourceDeps := by simp
  looked := by simp
  rest := by simp

/-! ### All units -/

/-- **The unit that counts for a source:** the last one for it, or one that defines nothing. -/
def unitFor (units : List CompiledUnit) (p : Path) : CompiledUnit :=
  (units.reverse.find? fun u => u.source == p).getD ⟨p, [], ∅⟩

theorem unitFor_source (units : List CompiledUnit) (p : Path) : ((unitFor units p).source == p) = true := by
  unfold unitFor
  cases hu : units.reverse.find? fun u => u.source == p with
  | none => exact BEq.rfl
  | some u => simpa using List.find?_some hu

section Units

variable {h : Host} {digests : SortedMap Path Digest} {owners : SortedMap String Path}

theorem grows_recordEach (units : List CompiledUnit) (a : Analysis) (c : Classpath) :
    c.Grows (recordEach h digests owners units a c).2 := by
  induction units generalizing a c with
  | nil => exact Classpath.Grows.refl c
  | cons u rest ih =>
    unfold recordEach
    split
    next => exact ih a c
    next => exact (addReferences_adds h owners u.source u.references.toList _ c).grows.trans (ih _ _)

/-- Sources without a unit, and those that are not part of the module, keep their records. -/
theorem recordEach_source_of_not_mem {p : Path} {units : List CompiledUnit}
    (hp : digests.get? p = none ∨ ∀ u ∈ units, (u.source == p) = false) (a : Analysis) (c : Classpath) :
    (recordEach h digests owners units a c).1.source? p = a.source? p := by
  induction units generalizing a c with
  | nil => rfl
  | cons u rest ih =>
    have hrest : digests.get? p = none ∨ ∀ u ∈ rest, (u.source == p) = false :=
      hp.imp_right fun h v hv => h v (List.mem_cons_of_mem _ hv)
    unfold recordEach
    cases hd : digests.get? u.source with
    | none => exact ih hrest a c
    | some digest =>
      -- the unit is recorded, so its source is part of the module and is not this one
      have hne : (p == u.source) = false := by
        by_contra hself
        have hself : (p == u.source) = true := by simpa using hself
        rcases hp with hnone | hall
        · rw [digests.get?_congr (Path.compare_eq_iff_beq.2 hself), hd] at hnone
          simp at hnone
        · have := hall u List.mem_cons_self
          rw [BEq.comm, hself] at this
          simp at this
      refine (ih hrest _ _).trans ?_
      rw [Analysis.source?_record, if_neg (by simp [hne])]

/-- A source of the module has the record of the last unit for it. -/
theorem recordEach_source (h : Host) (owners : SortedMap String Path) {p : Path} {digest : Digest}
    (hp : digests.get? p = some digest) {units : List CompiledUnit} {u : CompiledUnit}
    (hu : units.reverse.find? (fun u => u.source == p) = some u) (a : Analysis) (c : Classpath) :
    ∃ info, (recordEach h digests owners units a c).1.source? p = some info ∧
      u.Recorded digest owners (recordEach h digests owners units a c).2 info := by
  induction units generalizing a c with
  | nil => simp at hu
  | cons v rest ih =>
    rw [List.reverse_cons, List.find?_append, Option.or_eq_some_iff] at hu
    rcases hu with hu | ⟨hnone, hu⟩
    · -- a later unit counts
      unfold recordEach
      split
      next => exact ih hu a c
      next => exact ih hu _ _
    · -- this is the last one
      have hrest : ∀ w ∈ rest, (w.source == p) = false := by
        intro w hw
        simpa using List.find?_eq_none.1 hnone w (List.mem_reverse.2 hw)
      obtain rfl : u = v := List.mem_singleton.1 (List.mem_of_find?_eq_some hu)
      have hv : (u.source == p) = true := by simpa using List.find?_some hu
      have hd : digests.get? u.source = some digest := by
        rw [digests.get?_congr (Path.compare_eq_iff_beq.2 hv), hp]
      have hrec := recorded_addReferences h owners u digest c
      unfold recordEach
      rw [hd]
      refine ⟨_, ?_, hrec.grow (grows_recordEach rest _ _)⟩
      refine (recordEach_source_of_not_mem (Or.inr hrest) _ _).trans ?_
      rw [Analysis.source?_record, if_pos (BEq.symm hv)]

theorem recordEach_listed {a : Analysis} (ha : a.Listed) (units : List CompiledUnit) (c : Classpath) :
    (recordEach h digests owners units a c).1.Listed := by
  induction units generalizing a c with
  | nil => exact ha
  | cons u rest ih =>
    unfold recordEach
    split
    next => exact ih ha c
    next =>
      refine ih (ha.record _ ?_) _
      intro e he
      obtain ⟨k, -, rfl⟩ := List.mem_map.1 he
      exact BEq.rfl

/-- A class that is recorded was defined by one of the units or was there before. -/
theorem mem_recordEach {units : List CompiledUnit} {a : Analysis} {c : Classpath} {name : String}
    {k : ClassInfo} (hk : (recordEach h digests owners units a c).1.class? name = some k) :
    (∃ u ∈ units, digests.contains u.source = true ∧ (name, k) ∈ u.records) ∨ a.class? name = some k := by
  induction units generalizing a c with
  | nil => exact Or.inr hk
  | cons u rest ih =>
    unfold recordEach at hk
    cases hd : digests.get? u.source with
    | none =>
      rw [hd] at hk
      exact (ih hk).imp_left fun ⟨v, hv, h⟩ => ⟨v, List.mem_cons_of_mem _ hv, h⟩
    | some digest =>
      rw [hd] at hk
      -- defined by a later unit, by this one, or there before
      rcases ih hk with ⟨v, hv, h⟩ | hk
      · exact Or.inl ⟨v, List.mem_cons_of_mem _ hv, h⟩
      · rw [Analysis.class?_record, Option.or_eq_some_iff] at hk
        rcases hk with hfind | ⟨-, hold⟩
        · obtain ⟨e, he, hname, rfl⟩ := SortedMap.exists_of_find? hfind
          have hname : name = e.1 := Std.LawfulEqCmp.eq_of_compare hname
          subst hname
          exact Or.inl ⟨u, List.mem_cons_self, by simp [SortedMap.contains, hd], List.mem_reverse.1 he⟩
        · exact Or.inr (Analysis.class?_of_remove hold)

/-- Units for different sources, none of which owned anything before, add their classes and take none away. -/
theorem recordEach_class {units : List CompiledUnit}
    (hdistinct : units.Pairwise fun u v => (u.source == v.source) = false)
    (hmodule : ∀ u ∈ units, digests.contains u.source = true) {a : Analysis}
    (hfresh : ∀ u ∈ units, ∀ name k, a.class? name = some k → (k.source == u.source) = false) (c : Classpath)
    (name : String) :
    (recordEach h digests owners units a c).1.class? name =
      (CompiledUnit.recordIn units name).or (a.class? name) := by
  induction units generalizing a c with
  | nil => simp [recordEach, CompiledUnit.recordIn, CompiledUnit.allRecords, SortedMap.find?]
  | cons u rest ih =>
    obtain ⟨hu, hrest⟩ := List.pairwise_cons.1 hdistinct
    obtain ⟨digest, hd⟩ := SortedMap.contains_iff.1 (hmodule u List.mem_cons_self)
    -- recording the unit takes nothing out
    have hremove : ∀ name, (a.remove u.source).class? name = a.class? name := by
      intro name
      cases hk : a.class? name with
      | none =>
        rw [Analysis.class?_remove, hk]
        rfl
      | some k => exact Analysis.class?_remove_of_ne hk (hfresh u List.mem_cons_self name k hk)
    -- and adds its own classes
    have hrecord : ∀ (info : SourceInfo) (name : String), (a.record u.source info u.records).class? name =
        (CompiledUnit.recordIn [u] name).or (a.class? name) := by
      intro info name
      rw [Analysis.class?_record, hremove]
      simp [CompiledUnit.recordIn, CompiledUnit.allRecords]
    unfold recordEach
    simp only [hd]
    rw [ih hrest (fun v hv => hmodule v (List.mem_cons_of_mem _ hv)), hrecord, ← Option.or_assoc]
    · congr 1
      simp [CompiledUnit.recordIn, CompiledUnit.allRecords, SortedMap.find?_append]
    · intro v hv n k hk
      rw [hrecord, Option.or_eq_some_iff] at hk
      -- the classes that were just added belong to another source than those to come
      rcases hk with hfind | ⟨-, hold⟩
      · obtain ⟨e, he, -, rfl⟩ := SortedMap.exists_of_find? hfind
        obtain ⟨k, -, rfl⟩ : ∃ k ∈ u.classes, (k.name, (⟨u.source, k.file, k.api⟩ : ClassInfo)) = e := by
          simpa [CompiledUnit.allRecords, CompiledUnit.records] using he
        exact hu v hv
      · exact hfresh v (List.mem_cons_of_mem _ hv) n k hold

/-! ### Sources without a unit -/

theorem recordWithoutUnit_cons (compiled : SortedSet Path) (q : Path) (rest : List Path) (a : Analysis) :
    recordWithoutUnit digests compiled (q :: rest) a =
      recordWithoutUnit digests compiled rest
        (if compiled.contains q then a
        else
          match digests.get? q with
          | none => a
          | some digest => a.record q { digest } []) := rfl

/-- Sources with a unit, those that were not to be compiled and those that are not part of the module keep their
records. -/
theorem recordWithoutUnit_source_of_not_mem {compiled : SortedSet Path} {batch : List Path} {p : Path}
    (hp : digests.get? p = none ∨ compiled.contains p = true ∨ ∀ q ∈ batch, (q == p) = false) (a : Analysis) :
    (recordWithoutUnit digests compiled batch a).source? p = a.source? p := by
  induction batch generalizing a with
  | nil => rfl
  | cons q rest ih =>
    have hrest : digests.get? p = none ∨ compiled.contains p = true ∨ ∀ q ∈ rest, (q == p) = false :=
      hp.imp_right fun h => h.imp_right fun h v hv => h v (List.mem_cons_of_mem _ hv)
    rw [recordWithoutUnit_cons, ih hrest]
    cases hunit : compiled.contains q with
    | true => simp
    | false =>
      cases hd : digests.get? q with
      | none => simp
      | some digest =>
        -- otherwise the source is recorded here, and it is excluded for each of the reasons
        have hne : (p == q) = false := by
          by_contra hself
          have hself : compare p q = .eq := Path.compare_eq_iff_beq.2 (by simpa using hself)
          rcases hp with hnone | hcompiled | hall
          · rw [digests.get?_congr hself, hd] at hnone
            simp at hnone
          · rw [SortedMap.contains_congr _ hself, hunit] at hcompiled
            simp at hcompiled
          · have := hall q List.mem_cons_self
            rw [BEq.comm, Path.compare_eq_iff_beq.1 hself] at this
            simp at this
        simp [Analysis.source?_record, hne]

/-- A source that was to be compiled and has no unit is recorded as defining nothing. -/
theorem recordWithoutUnit_source {compiled : SortedSet Path} {batch : List Path} {p : Path} {digest : Digest}
    (hp : digests.get? p = some digest) (hunit : compiled.contains p = false)
    (hmem : ∃ q ∈ batch, (q == p) = true) (a : Analysis) :
    (recordWithoutUnit digests compiled batch a).source? p =
      some { digest, classes := SortedSet.ofList [] } := by
  induction batch generalizing a with
  | nil => simp at hmem
  | cons q rest ih =>
    by_cases hrest : ∃ q ∈ rest, (q == p) = true
    · rw [recordWithoutUnit_cons]
      exact ih hrest _
    · -- no later entry of the batch is the source, so this one is
      have hq : (q == p) = true := by
        obtain ⟨r, hr, hrp⟩ := hmem
        rcases List.mem_cons.1 hr with rfl | hr
        · exact hrp
        · exact absurd ⟨r, hr, hrp⟩ hrest
      have hcmp : compare q p = .eq := Path.compare_eq_iff_beq.2 hq
      have hnone : ∀ r ∈ rest, (r == p) = false := by
        intro r hr
        by_contra hrp
        exact hrest ⟨r, hr, by simpa using hrp⟩
      rw [recordWithoutUnit_cons, recordWithoutUnit_source_of_not_mem (Or.inr (Or.inr hnone))]
      have hunit' : compiled.contains q = false := by rw [SortedMap.contains_congr _ hcmp, hunit]
      have hd : digests.get? q = some digest := by rw [digests.get?_congr hcmp, hp]
      simp [hunit', hd, Analysis.source?_record, BEq.symm hq]

/-- Recording sources that have no unit only takes classes away. -/
theorem class?_of_recordWithoutUnit {compiled : SortedSet Path} {batch : List Path} {a : Analysis}
    {name : String} {k : ClassInfo}
    (hk : (recordWithoutUnit digests compiled batch a).class? name = some k) : a.class? name = some k := by
  induction batch generalizing a with
  | nil => exact hk
  | cons q rest ih =>
    rw [recordWithoutUnit_cons] at hk
    have hk := ih hk
    split at hk
    · exact hk
    · split at hk
      · exact hk
      · rw [Analysis.class?_record] at hk
        exact Analysis.class?_of_remove (by simpa [SortedMap.find?] using hk)

theorem recordWithoutUnit_listed {a : Analysis} (ha : a.Listed) (compiled : SortedSet Path)
    (batch : List Path) : (recordWithoutUnit digests compiled batch a).Listed := by
  induction batch generalizing a with
  | nil => exact ha
  | cons q rest ih =>
    rw [recordWithoutUnit_cons]
    refine ih ?_
    split
    · exact ha
    · split
      · exact ha
      · exact ha.record _ (by simp)

/-- If every source of the batch has a unit there is nothing to add. -/
theorem recordWithoutUnit_eq {compiled : SortedSet Path} {batch : List Path}
    (hall : ∀ q ∈ batch, compiled.contains q = true) (a : Analysis) :
    recordWithoutUnit digests compiled batch a = a := by
  induction batch generalizing a with
  | nil => rfl
  | cons q rest ih =>
    rw [recordWithoutUnit_cons, ih fun r hr => hall r (List.mem_cons_of_mem _ hr)]
    simp [hall q List.mem_cons_self]

end Units

/-! ### A whole batch -/

section Batch

variable {h : Host} {digests : SortedMap Path Digest} {batch : List Path} {units : List CompiledUnit}
  {a : Analysis} {c : Classpath}

private theorem contains_compiled (units : List CompiledUnit) {p : Path} (hp : digests.contains p = true) :
    (SortedSet.ofList ((units.map CompiledUnit.source).filter fun p => digests.contains p)).contains p = true ↔
      ∃ u ∈ units, (u.source == p) = true := by
  rw [SortedSet.contains_ofList]
  constructor
  · rintro ⟨q, hq, hpq⟩
    obtain ⟨u, hu, rfl⟩ := List.mem_map.1 (List.mem_filter.1 hq).1
    exact ⟨u, hu, BEq.symm (Path.compare_eq_iff_beq.1 hpq)⟩
  · rintro ⟨u, hu, hup⟩
    have hcmp : compare p u.source = .eq := Path.compare_eq_iff_beq.2 (BEq.symm hup)
    refine ⟨u.source, List.mem_filter.2 ⟨List.mem_map_of_mem hu, ?_⟩, hcmp⟩
    rwa [← SortedMap.contains_congr digests hcmp]

theorem grows_recordUnits (h : Host) (digests : SortedMap Path Digest) (batch : List Path)
    (units : List CompiledUnit) (a : Analysis) (c : Classpath) :
    c.Grows (recordUnits h digests batch units a c).2 := grows_recordEach units a c

/-- **A source that the batch accounts for has the record of the unit that counts for it.** -/
theorem recordUnits_source (h : Host) (a : Analysis) (c : Classpath) {p : Path} {digest : Digest}
    (hp : digests.get? p = some digest) (hmem : (∃ q ∈ batch, (q == p) = true) ∨ ∃ u ∈ units, (u.source == p) = true) :
    ∃ info, (recordUnits h digests batch units a c).1.source? p = some info ∧
      (unitFor units p).Recorded digest (classOwners a units) (recordUnits h digests batch units a c).2 info := by
  have hcontains : digests.contains p = true := SortedMap.contains_iff.2 ⟨digest, hp⟩
  unfold recordUnits unitFor
  cases hu : units.reverse.find? fun u => u.source == p with
  | some u =>
    have hup : (u.source == p) = true := by simpa using List.find?_some hu
    -- the last unit of the source counts
    have hcompiled := (contains_compiled units hcontains).2
      ⟨u, List.mem_reverse.1 (List.mem_of_find?_eq_some hu), hup⟩
    obtain ⟨info, hinfo, hrec⟩ := recordEach_source h (classOwners a units) hp hu a c
    refine ⟨info, ?_, hrec⟩
    exact (recordWithoutUnit_source_of_not_mem (Or.inr (Or.inl hcompiled)) _).trans hinfo
  | none =>
    -- no unit is for the source, so it was to be compiled and is recorded as defining nothing
    have hno : ∀ u ∈ units, (u.source == p) = false := by
      intro u hu'
      simpa using List.find?_eq_none.1 hu u (List.mem_reverse.2 hu')
    have hcompiled : (SortedSet.ofList
        ((units.map CompiledUnit.source).filter fun p => digests.contains p)).contains p = false := by
      by_contra hc
      obtain ⟨u, hu', hup⟩ := (contains_compiled units hcontains).1 (by simpa using hc)
      simp [hno u hu'] at hup
    have hbatch : ∃ q ∈ batch, (q == p) = true := by
      refine hmem.resolve_right ?_
      rintro ⟨u, hu', hup⟩
      simp [hno u hu'] at hup
    exact ⟨_, recordWithoutUnit_source hp hcompiled hbatch _, recorded_nothing ..⟩

/-- A source for which there was nothing to compile and no unit keeps its record, and so does one that is not part of
the module. -/
theorem recordUnits_source_of_not_mem {p : Path}
    (hp : digests.get? p = none ∨
      (∀ q ∈ batch, (q == p) = false) ∧ ∀ u ∈ units, (u.source == p) = false) :
    (recordUnits h digests batch units a c).1.source? p = a.source? p := by
  unfold recordUnits
  refine (recordWithoutUnit_source_of_not_mem (hp.imp_right fun h => Or.inr h.1) _).trans ?_
  exact recordEach_source_of_not_mem (hp.imp_right fun h => h.2) a c

/-- A class that is recorded was defined by one of the units or was there before. -/
theorem mem_recordUnits {name : String} {k : ClassInfo}
    (hk : (recordUnits h digests batch units a c).1.class? name = some k) :
    (∃ u ∈ units, digests.contains u.source = true ∧ (name, k) ∈ u.records) ∨ a.class? name = some k :=
  mem_recordEach (class?_of_recordWithoutUnit hk)

theorem recordUnits_listed (ha : a.Listed) : (recordUnits h digests batch units a c).1.Listed :=
  recordWithoutUnit_listed (recordEach_listed ha units c) _ batch

/-- If the units are for different sources of the module, one for each source of the batch, and none of them owned
anything before, their classes are added to the others. -/
theorem recordUnits_class (hdistinct : units.Pairwise fun u v => (u.source == v.source) = false)
    (hmodule : ∀ u ∈ units, digests.contains u.source = true)
    (hall : ∀ q ∈ batch, ∃ u ∈ units, (u.source == q) = true)
    (hfresh : ∀ u ∈ units, ∀ name k, a.class? name = some k → (k.source == u.source) = false)
    (name : String) :
    (recordUnits h digests batch units a c).1.class? name =
      (CompiledUnit.recordIn units name).or (a.class? name) := by
  -- every source has a unit, so nothing is recorded without one
  have hnothing : ∀ q ∈ batch, (SortedSet.ofList
      ((units.map CompiledUnit.source).filter fun p => digests.contains p)).contains q = true := by
    intro q hq
    obtain ⟨u, hu, huq⟩ := hall q hq
    refine (contains_compiled units ?_).2 ⟨u, hu, huq⟩
    rw [← SortedMap.contains_congr digests (Path.compare_eq_iff_beq.2 huq)]
    exact hmodule u hu
  unfold recordUnits
  dsimp only
  rw [recordWithoutUnit_eq hnothing, recordEach_class hdistinct hmodule hfresh]

end Batch

end Recompile

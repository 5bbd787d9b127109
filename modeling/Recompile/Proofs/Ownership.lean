import Mathlib.Data.List.Induction
import Mathlib.Data.List.Sort
import Recompile.Engine.Incremental
import Recompile.Proofs.Action
import Recompile.Proofs.Record

/-!
# The owner of a class file

An analysis says twice to which source a class belongs. A source lists the classes that it reported when it was recorded
last, and a class names its owner, the source that reported it last. `Analysis.remove` goes by the owner: it takes exactly
the classes that a source owns. The class files of a source (`Analysis.classFiles`), which are deleted before the source is
compiled again and when it is gone, go by the list.

The two agree as long as no source records a class that another one owns, and not a step longer: this is
`Analysis.classFiles_ofEdits`, for every analysis that is made by recording and removing sources. After such a record the
earlier owner still lists the class, and its class files are those of both sources
(`Analysis.classFiles_of_moved_class`).
-/

namespace Recompile

/-- The values of a table at the elements of a set are the entries of the table with a key in the set, in their order. -/
theorem SortedMap.filterMap_get?_toList {κ : Type} {ν : Type} [Ord κ] [Std.TransOrd κ] [Std.LawfulEqOrd κ]
    (m : SortedMap κ ν) (s : SortedSet κ) :
    s.toList.filterMap (fun k => (m.get? k).map (k, ·)) = (m.filter fun k _ => s.contains k).entries := by
  have hsorted : (s.toList.filterMap fun k => (m.get? k).map (k, ·)).Pairwise fun e f => compare e.1 f.1 = .lt := by
    refine List.Pairwise.filterMap (R := fun k k' => compare k k' = .lt) _ ?_ (List.pairwise_map.2 s.sorted)
    intro k k' hlt e he f hf
    obtain ⟨x, -, rfl⟩ := Option.map_eq_some_iff.1 he
    obtain ⟨y, -, rfl⟩ := Option.map_eq_some_iff.1 hf
    exact hlt
  -- so both are tables, and it is enough that they have the same entries
  refine congrArg entries (ext_mem (m := ⟨_, hsorted⟩) fun e => ?_)
  rw [entries_filter, List.mem_filter, List.mem_filterMap]
  constructor
  · rintro ⟨k, hk, he⟩
    obtain ⟨x, hx, rfl⟩ := Option.map_eq_some_iff.1 he
    exact ⟨mem_entries_iff.2 hx, SortedSet.contains_of_mem_toList hk⟩
  · rintro ⟨hmem, hcontains⟩
    obtain ⟨k, hk, hcmp⟩ := SortedSet.contains_iff_toList.1 hcontains
    obtain rfl := Std.LawfulEqCmp.eq_of_compare hcmp
    exact ⟨e.1, hk, by rw [get?_of_mem hmem]; rfl⟩

namespace Analysis

variable {a : Analysis} {p q : Path} {name : String} {c : ClassInfo}

/-- Whether a source listed a class when it was recorded. -/
def Lists (a : Analysis) (p : Path) (name : String) : Prop :=
  ∃ info, a.source? p = some info ∧ info.classes.contains name = true

/-- Whether a source owns a class. -/
def Owns (a : Analysis) (p : Path) (name : String) : Prop :=
  ∃ c, a.class? name = some c ∧ (c.source == p) = true

/-- The class files of the classes that a source owns, in the order of the classes. -/
def ownFiles (a : Analysis) (p : Path) : List Path :=
  (a.classes.filter fun _ c => c.source == p).values.map ClassInfo.classFile

theorem Listed.lists (ha : a.Listed) (h : a.Owns p name) : a.Lists p name := by
  obtain ⟨c, hc, howner⟩ := h
  obtain ⟨info, hinfo, hlists⟩ := ha name c hc
  exact ⟨info, (a.source?_congr howner).symm.trans hinfo, hlists⟩

/-! ### The files of one source -/

/-- The classes that a source lists and that are recorded, in their order. -/
def listedClasses (a : Analysis) (p : Path) : List (String × ClassInfo) :=
  match a.source? p with
  | none => []
  | some info => (a.classes.filter fun name _ => info.classes.contains name).entries

theorem mem_listedClasses {e : String × ClassInfo} :
    e ∈ a.listedClasses p ↔ a.Lists p e.1 ∧ a.class? e.1 = some e.2 := by
  have hentry : e ∈ a.classes.entries ↔ a.class? e.1 = some e.2 := SortedMap.mem_entries_iff
  unfold listedClasses Lists
  cases a.source? p with
  | none => simp
  | some info => simp [hentry, and_comm]

theorem classFiles_eq (a : Analysis) (p : Path) : a.classFiles p = (a.listedClasses p).map fun e => e.2.classFile := by
  unfold classFiles listedClasses
  cases a.source? p with
  | none => rfl
  | some info =>
    dsimp only
    rw [← SortedMap.filterMap_get?_toList a.classes info.classes, List.map_filterMap]
    refine List.filterMap_congr fun name _ => ?_
    rw [Option.map_map]
    rfl

/-- If every class is listed, the classes that a source owns are among those that it lists. -/
theorem Listed.ownFiles_eq (ha : a.Listed) (p : Path) :
    a.ownFiles p = ((a.listedClasses p).filter fun e => e.2.source == p).map fun e => e.2.classFile := by
  unfold ownFiles SortedMap.values
  rw [List.map_map]
  refine congrArg _ ?_
  unfold listedClasses
  cases hp : a.source? p with
  | none =>
    -- a source that is not recorded owns nothing
    refine List.filter_eq_nil_iff.2 fun e he howner => ?_
    obtain ⟨info, hinfo, -⟩ := ha.lists ⟨e.2, SortedMap.get?_of_mem he, howner⟩
    simp [hp] at hinfo
  | some info =>
    simp only [SortedMap.entries_filter, List.filter_filter]
    refine List.filter_congr fun e he => ?_
    cases howner : e.2.source == p with
    | false => rfl
    | true =>
      obtain ⟨info', hinfo, hlists⟩ := ha.lists ⟨e.2, SortedMap.get?_of_mem he, howner⟩
      obtain rfl := Option.some.inj (hp.symm.trans hinfo)
      simp [hlists]

/-- **The class files of a source are those of the classes that it lists,** whoever owns them. -/
theorem mem_classFiles {file : Path} :
    file ∈ a.classFiles p ↔ ∃ name c, a.Lists p name ∧ a.class? name = some c ∧ c.classFile = file := by
  rw [classFiles_eq, List.mem_map]
  constructor
  · rintro ⟨e, he, rfl⟩
    obtain ⟨hlists, hclass⟩ := mem_listedClasses.1 he
    exact ⟨e.1, e.2, hlists, hclass, rfl⟩
  · rintro ⟨name, c, hlists, hclass, rfl⟩
    exact ⟨(name, c), mem_listedClasses.2 ⟨hlists, hclass⟩, rfl⟩

theorem Listed.ownFiles_sublist (ha : a.Listed) (p : Path) : (a.ownFiles p).Sublist (a.classFiles p) := by
  rw [ha.ownFiles_eq, classFiles_eq]
  exact List.filter_sublist.map _

/-- **The class files of a source are exactly its own** if and only if it lists no class of another source. -/
theorem Listed.classFiles_eq_ownFiles_iff (ha : a.Listed) (p : Path) :
    a.classFiles p = a.ownFiles p ↔
      ∀ name c, a.Lists p name → a.class? name = some c → (c.source == p) = true := by
  rw [ha.ownFiles_eq, classFiles_eq]
  constructor
  · intro hsame name c hlists hclass
    have hlength := congrArg List.length hsame
    rw [List.length_map, List.length_map] at hlength
    exact List.length_filter_eq_length_iff.1 hlength.symm (name, c) (mem_listedClasses.2 ⟨hlists, hclass⟩)
  · intro hown
    refine congrArg _ (List.filter_eq_self.2 fun e he => ?_).symm
    obtain ⟨hlists, hclass⟩ := mem_listedClasses.1 he
    exact hown e.1 e.2 hlists hclass

/-! ### The life of an analysis -/

/-- **A step in the life of an analysis.** The classes of a source are recorded with that source. -/
inductive Edit
  | record (p : Path) (info : SourceInfo) (classes : List (String × ClassInfo))
      (own : ∀ e ∈ classes, (e.2.source == p) = true)
  | remove (p : Path)

/-- What a step does. -/
def edit (a : Analysis) : Edit → Analysis
  | .record p info classes _ => a.record p info classes
  | .remove p => a.remove p

/-- **The analysis that some steps make** out of nothing. -/
def ofEdits (es : List Edit) : Analysis := es.foldl edit ∅

/-- Whether a step records a class that another source owns. -/
def Edit.Claims (a : Analysis) : Edit → Prop
  | .record p _ classes _ => ∃ e ∈ classes, ∃ c, a.class? e.1 = some c ∧ (c.source == p) = false
  | .remove _ => False

theorem ofEdits_concat (es : List Edit) (e : Edit) : ofEdits (es ++ [e]) = (ofEdits es).edit e := by
  simp [ofEdits]

theorem Listed.edit (ha : a.Listed) (e : Edit) : (a.edit e).Listed := by
  cases e with
  | record p info classes own => exact ha.record info own
  | remove p => exact ha.remove p

theorem listed_ofEdits (es : List Edit) : (ofEdits es).Listed := by
  induction es using List.reverseRecOn with
  | nil => exact listed_empty
  | append_singleton es e ih =>
    rw [ofEdits_concat]
    exact ih.edit e

/-- Whether every source owns what it lists. -/
def Exclusive (a : Analysis) : Prop := ∀ p name, a.Lists p name → a.Owns p name

theorem exclusive_empty : (∅ : Analysis).Exclusive := by
  rintro p name ⟨info, hinfo, -⟩
  simp at hinfo

theorem Exclusive.classFiles_eq_ownFiles (ha : a.Exclusive) (hlisted : a.Listed) (p : Path) :
    a.classFiles p = a.ownFiles p := by
  refine (hlisted.classFiles_eq_ownFiles_iff p).2 fun name c hlists hclass => ?_
  obtain ⟨c', hclass', howner⟩ := ha p name hlists
  obtain rfl := Option.some.inj (hclass.symm.trans hclass')
  exact howner

theorem lists_remove : (a.remove p).Lists q name ↔ (q == p) = false ∧ a.Lists q name := by
  unfold Lists
  rw [source?_remove]
  cases q == p <;> simp

theorem Exclusive.remove (ha : a.Exclusive) (p : Path) : (a.remove p).Exclusive := by
  intro q name hlists
  obtain ⟨hne, hlists⟩ := lists_remove.1 hlists
  obtain ⟨c, hc, howner⟩ := ha q name hlists
  exact ⟨c, class?_remove_of_ne hc ((BEq.congr_left howner).trans hne), howner⟩

theorem lists_record {info : SourceInfo} {classes : List (String × ClassInfo)} :
    (a.record p info classes).Lists q name ↔
      if (q == p) = true then ∃ e ∈ classes, e.1 = name else a.Lists q name := by
  unfold Lists
  rw [source?_record]
  split
  · simp only [Option.some.injEq, exists_eq_left', SortedSet.contains_ofList, List.mem_map]
    constructor
    · rintro ⟨_, ⟨e, he, rfl⟩, hcmp⟩
      exact ⟨e, he, (Std.LawfulEqCmp.eq_of_compare hcmp).symm⟩
    · rintro ⟨e, he, rfl⟩
      exact ⟨e.1, ⟨e, he, rfl⟩, Std.ReflCmp.compare_self⟩
  · exact Iff.rfl

theorem owns_record (info : SourceInfo) {classes : List (String × ClassInfo)}
    (own : ∀ e ∈ classes, (e.2.source == p) = true) {e : String × ClassInfo} (he : e ∈ classes) :
    (a.record p info classes).Owns p e.1 := by
  have hsome : (SortedMap.find? e.1 classes.reverse).isSome = true :=
    SortedMap.isSome_find?.2 ⟨e, List.mem_reverse.2 he, Std.ReflCmp.compare_self⟩
  obtain ⟨c, hc⟩ := Option.isSome_iff_exists.1 hsome
  obtain ⟨e', he', -, rfl⟩ := SortedMap.exists_of_find? hc
  exact ⟨e'.2, by rw [class?_record, hc]; rfl, own e' (List.mem_reverse.1 he')⟩

/-- **A step that records no class of another source keeps every listed class with its owner.** -/
theorem Exclusive.edit (ha : a.Exclusive) {e : Edit} (he : ¬ e.Claims a) : (a.edit e).Exclusive := by
  cases e with
  | remove p => exact ha.remove p
  | record p info classes own =>
    intro q name hlists
    have hlists := lists_record.1 hlists
    split at hlists
    next hself =>
      -- the source of the record lists what it has just recorded
      obtain ⟨e, hmem, rfl⟩ := hlists
      obtain ⟨c, hc, howner⟩ := owns_record (a := a) info own hmem
      exact ⟨c, hc, BEq.trans howner (BEq.symm hself)⟩
    next hother =>
      -- another source keeps what it lists, since the record has none of it
      obtain ⟨c, hc, howner⟩ := ha q name hlists
      have hne : (c.source == p) = false := (BEq.congr_left howner).trans (by simpa using hother)
      refine ⟨c, class?_record_of_other hc hne fun e hmem hname => he ⟨e, hmem, c, ?_, hne⟩, howner⟩
      rwa [hname]

/-- **After a step that records a class of another source** that one has a class file that is not its own. -/
theorem Listed.exists_foreign_of_claims (ha : a.Listed) {e : Edit} (he : e.Claims a) :
    ∃ p, (a.edit e).classFiles p ≠ (a.edit e).ownFiles p := by
  cases e with
  | remove p => exact he.elim
  | record p info classes own =>
    obtain ⟨e, hmem, c, hc, hne⟩ := he
    refine ⟨c.source, fun hsame => ?_⟩
    obtain ⟨c', hc', howner⟩ := owns_record (a := a) info own hmem
    have hlists : (a.record p info classes).Lists c.source e.1 :=
      lists_record.2 (by rw [hne]; exact ha.lists ⟨c, hc, BEq.rfl⟩)
    have hforeign := ((ha.edit (.record p info classes own)).classFiles_eq_ownFiles_iff c.source).1 hsame e.1 c' hlists hc'
    rw [BEq.trans (BEq.symm hforeign) howner] at hne
    simp at hne

/-- **The class files of a source in every life of an analysis.** They are the files of the classes that the source lists.
Those of the classes that it owns are among them, and the others belong to classes of other sources; a removal takes the
owned classes and no others. At all times of its life the class files of all sources are exactly their own if and only if
no step of it records a class that another source owns. -/
theorem classFiles_ofEdits (es : List Edit) :
    (∀ p, (∀ file, file ∈ (ofEdits es).classFiles p ↔
          ∃ name c, (ofEdits es).Lists p name ∧ (ofEdits es).class? name = some c ∧ c.classFile = file) ∧
        ((ofEdits es).ownFiles p).Sublist ((ofEdits es).classFiles p) ∧
        ((ofEdits es).classFiles p = (ofEdits es).ownFiles p ↔
          ∀ name c, (ofEdits es).Lists p name → (ofEdits es).class? name = some c → (c.source == p) = true) ∧
        ∀ name c, ((ofEdits es).remove p).class? name = some c ↔
          (ofEdits es).class? name = some c ∧ (c.source == p) = false) ∧
      ((∀ before, before <+: es → ∀ p, (ofEdits before).classFiles p = (ofEdits before).ownFiles p) ↔
        ∀ before e, before ++ [e] <+: es → ¬ e.Claims (ofEdits before)) := by
  have hlisted := listed_ofEdits es
  refine ⟨fun p => ⟨fun file => mem_classFiles, hlisted.ownFiles_sublist p, hlisted.classFiles_eq_ownFiles_iff p,
    fun name c => ?_⟩, ?_⟩
  · rw [hlisted.class?_remove, Option.filter_eq_some_iff]
    simp
  constructor
  · intro hown before e hprefix hclaims
    obtain ⟨p, hforeign⟩ := (listed_ofEdits before).exists_foreign_of_claims hclaims
    rw [← ofEdits_concat] at hforeign
    exact hforeign (hown _ hprefix p)
  · intro hnone
    -- along the life every source owns what it lists
    have hexclusive : ∀ before, before <+: es → (ofEdits before).Exclusive := by
      intro before
      induction before using List.reverseRecOn with
      | nil => exact fun _ => exclusive_empty
      | append_singleton before e ih =>
        intro hprefix
        rw [ofEdits_concat]
        exact (ih ((List.prefix_append before [e]).trans hprefix)).edit (hnone before e hprefix)
    exact fun before hprefix p => (hexclusive before hprefix).classFiles_eq_ownFiles (listed_ofEdits before) p

/-- The class `x.X` is recorded for `A.scala`, and then for `B.scala`. -/
private def moved : List Edit :=
  [.record "A.scala" { digest := ⟨1, 0⟩ } [("x.X", ⟨"A.scala", "x/X.class", ⟨1, 1⟩⟩)] (by decide),
   .record "B.scala" { digest := ⟨2, 0⟩ } [("x.X", ⟨"B.scala", "x/X.class", ⟨1, 1⟩⟩)] (by decide)]

/-- A machine with the class file of the class below the directory `out`. -/
private def withClassFile : Host where
  files := ((Files.put ∅ ["out"] .dir).put ["out", "x"] .dir).put ["out", "x", "X.class"] (.file [1] false)

/-- **A class that has moved.** The class is that of the second source, and the first one owns nothing. But its class file
is still among those of the first source, and is deleted together with them. -/
theorem classFiles_of_moved_class :
    ∃ (es : List Edit) (c : ClassInfo) (h h' : Host), (ofEdits es).class? "x.X" = some c ∧ (c.source == "B.scala") = true ∧
      (ofEdits es).ownFiles "A.scala" = [] ∧ (ofEdits es).classFiles "A.scala" = [c.classFile] ∧
      h.isFile ("out" / c.classFile) = true ∧ h'.isFile ("out" / c.classFile) = false ∧
      (Engine.deleteClassFiles "out" (ofEdits es) "A.scala").Yields h () h' := by
  obtain ⟨_, -, hdeletes⟩ := Action.exists_yields_run
    (x := Engine.deleteClassFiles "out" (ofEdits moved) "A.scala") (s := withClassFile) (by decide +kernel)
  exact ⟨moved, ⟨"B.scala", "x/X.class", ⟨1, 1⟩⟩, withClassFile, _, rfl, by decide +kernel, rfl, rfl, by decide +kernel,
    by decide +kernel, hdeletes⟩

end Analysis

end Recompile

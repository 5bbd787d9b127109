import Mathlib.Data.List.Pairwise
import Recompile.Proofs.Record

/-!
# The order in which sources are recorded

Recording a source takes its old record out before the new one goes in, and the old record may list classes that another
source has taken over since, or takes over in the same round. So a record reads what earlier ones have left, and two
records need not commute: if both report one class, the later one owns it.

Sources that have no class in common are `Recording.Apart`, and their records commute, whatever the analysis held before
(`Analysis.enter_comm`). A removal takes only what its source owns; the classes of the other record belong to another
source, and an old class is gone if either of the two listed and owned it. Hence it does not matter in which order many
such records are made (`Analysis.enterAll_perm`): not to what can be looked up afterwards, and not to how it is spelled.
-/

namespace Recompile

/-- **A source that is to be recorded,** with its classes. They are recorded as its own. -/
structure Recording where
  path : Path
  info : SourceInfo
  classes : List (String × ClassInfo)
  own : ∀ e ∈ classes, (e.2.source == path) = true

namespace Recording

/-- Whether two records are of different sources without a common class. -/
structure Apart (r s : Recording) : Prop where
  path : (r.path == s.path) = false
  classes : ∀ e ∈ r.classes, ∀ f ∈ s.classes, e.1 ≠ f.1

instance (r s : Recording) : Decidable (r.Apart s) :=
  decidable_of_iff ((r.path == s.path) = false ∧ ∀ e ∈ r.classes, ∀ f ∈ s.classes, e.1 ≠ f.1)
    ⟨fun ⟨path, classes⟩ => ⟨path, classes⟩, fun h => ⟨h.path, h.classes⟩⟩

theorem Apart.symm {r s : Recording} (h : r.Apart s) : s.Apart r where
  path := by rw [BEq.comm, h.path]
  classes e he f hf := (h.classes f hf e he).symm

/-- The record of the source. -/
def entry (r : Recording) : Path × SourceInfo :=
  (r.path, { r.info with classes := SortedSet.ofList (r.classes.map (·.1)) })

/-- The record of a class. -/
def class? (r : Recording) (name : String) : Option ClassInfo := SortedMap.find? name r.classes.reverse

variable {r s : Recording} {name : String} {c : ClassInfo}

theorem exists_of_class? (h : r.class? name = some c) : ∃ e ∈ r.classes, e.1 = name ∧ e.2 = c := by
  obtain ⟨e, he, hname, hc⟩ := SortedMap.exists_of_find? h
  exact ⟨e, List.mem_reverse.1 he, (Std.LawfulEqCmp.eq_of_compare hname).symm, hc⟩

theorem source_of_class? (h : r.class? name = some c) : (c.source == r.path) = true := by
  obtain ⟨e, he, -, rfl⟩ := exists_of_class? h
  exact r.own e he

theorem Apart.class?_eq_none (h : r.Apart s) (hc : r.class? name = some c) : s.class? name = none := by
  rw [Option.eq_none_iff_forall_ne_some]
  intro d hd
  obtain ⟨e, he, hname, -⟩ := exists_of_class? hc
  obtain ⟨f, hf, hname', -⟩ := exists_of_class? hd
  exact h.classes e he f hf (hname.trans hname'.symm)

end Recording

namespace Analysis

variable {r s : Recording}

/-- Makes one record. -/
def enter (a : Analysis) (r : Recording) : Analysis := a.record r.path r.info r.classes

/-- **Makes records,** one after the other. -/
def enterAll (a : Analysis) (rs : List Recording) : Analysis := rs.foldl enter a

/-- Whether a removal of the source would leave a class. -/
def leaves (a : Analysis) (p : Path) (name : String) (c : ClassInfo) : Bool :=
  !((a.source? p).any (fun info => info.classes.contains name) && c.source == p)

theorem leaves_of_ne (a : Analysis) {p : Path} {c : ClassInfo} (h : (c.source == p) = false) (name : String) :
    a.leaves p name c = true := by
  simp [leaves, h]

/-! ### One record -/

theorem mem_sources_enter {a : Analysis} {e : Path × SourceInfo} :
    e ∈ (a.enter r).sources.entries ↔ e = r.entry ∨ e ∈ a.sources.entries ∧ compare r.path e.1 ≠ .eq := by
  have habsent : (a.remove r.path).source? r.path = none := by rw [source?_remove, if_pos BEq.rfl]
  change e ∈ ((a.remove r.path).sources.insert r.path _).entries ↔ _
  rw [SortedMap.mem_entries_insert habsent, sources_remove, SortedMap.mem_entries_erase]
  rfl

theorem class?_enter (a : Analysis) (r : Recording) (name : String) :
    (a.enter r).class? name = (r.class? name).or ((a.class? name).filter (a.leaves r.path name)) := by
  rw [enter, class?_record, class?_remove]
  rfl

/-- A record does not change what another source lists. -/
theorem leaves_enter (a : Analysis) (h : (s.path == r.path) = false) : (a.enter r).leaves s.path = a.leaves s.path := by
  funext name c
  rw [leaves, leaves, enter, source?_record, if_neg (by simp [h])]

/-! ### Two records -/

/-- After two records that are apart, both are there, and the old records of other sources. -/
theorem mem_sources_enter_enter {a : Analysis} (apart : r.Apart s) {e : Path × SourceInfo} :
    e ∈ ((a.enter r).enter s).sources.entries ↔
      e = r.entry ∨ e = s.entry ∨ e ∈ a.sources.entries ∧ compare r.path e.1 ≠ .eq ∧ compare s.path e.1 ≠ .eq := by
  have hkept : e = r.entry → compare s.path e.1 ≠ .eq := by
    rintro rfl hcmp
    rw [Path.compare_eq_iff_beq] at hcmp
    exact Bool.false_ne_true (apart.symm.path.symm.trans hcmp)
  rw [mem_sources_enter, mem_sources_enter, or_and_right, and_iff_left_of_imp hkept, and_assoc, or_left_comm]

/-- After two records that are apart, a class is the one of either record, or an old one that both of them leave. -/
theorem class?_enter_enter (a : Analysis) (apart : r.Apart s) (name : String) :
    ((a.enter r).enter s).class? name =
      ((r.class? name).or (s.class? name)).or
        ((a.class? name).filter fun c => a.leaves r.path name c && a.leaves s.path name c) := by
  rw [class?_enter, class?_enter, leaves_enter a apart.symm.path]
  cases hr : r.class? name with
  | some c =>
    -- the class belongs to the first source, so the second one does not take it away
    have hother : (c.source == s.path) = false := by
      rw [BEq.congr_left (Recording.source_of_class? hr), apart.path]
    simp [apart.class?_eq_none hr, Option.filter_some, leaves_of_ne a hother]
  | none => rw [Option.none_or, Option.none_or, Option.filter_filter]

/-- **Records that are apart commute,** with every analysis to start from. -/
theorem enter_comm (a : Analysis) (apart : r.Apart s) : (a.enter r).enter s = (a.enter s).enter r := by
  have hsources : ((a.enter r).enter s).sources = ((a.enter s).enter r).sources := by
    refine SortedMap.ext_mem fun e => ?_
    rw [mem_sources_enter_enter apart, mem_sources_enter_enter apart.symm, or_left_comm, and_comm (a := compare _ _ ≠ _)]
  have hclasses : ((a.enter r).enter s).classes = ((a.enter s).enter r).classes := by
    refine SortedMap.ext_get? fun name => ?_
    have hsame : (r.class? name).or (s.class? name) = (s.class? name).or (r.class? name) := by
      cases hr : r.class? name with
      | none => rw [Option.none_or, Option.or_none]
      | some c => rw [apart.class?_eq_none hr, Option.none_or, Option.or_none]
    change ((a.enter r).enter s).class? name = ((a.enter s).enter r).class? name
    rw [class?_enter_enter a apart, class?_enter_enter a apart.symm, hsame]
    simp only [Bool.and_comm]
  exact congrArg₂ mk hsources hclasses

/-! ### Many records -/

/-- **The order of the records does not matter,** if they are of different sources without common classes. The analysis to
start from may hold any of these sources and classes already. -/
theorem enterAll_perm (a : Analysis) {rs rs' : List Recording} (perm : rs.Perm rs') (apart : rs.Pairwise Recording.Apart) :
    (a.enterAll rs == a.enterAll rs') = true ∧ a.enterAll rs = a.enterAll rs' := by
  have hcomm : ∀ r ∈ rs, ∀ s ∈ rs, ∀ a : Analysis, (a.enter r).enter s = (a.enter s).enter r := by
    intro r hr s hs a
    by_cases hsame : r = s
    · rw [hsame]
    · have : Std.Symm Recording.Apart := ⟨fun _ _ => Recording.Apart.symm⟩
      exact enter_comm a (apart.forall hr hs hsame)
  have hfold : a.enterAll rs = a.enterAll rs' := perm.foldl_eq' hcomm a
  rw [hfold]
  exact ⟨BEq.rfl, rfl⟩

private def movedClass (source : Path) : ClassInfo := ⟨source, "a/B.class", ⟨3, 4⟩⟩

/-- An analysis of one source with two classes. -/
private def beforeMove : Analysis :=
  (∅ : Analysis).record "src//A.scala" { digest := ⟨1, 2⟩ }
    [("a.A", movedClass "src//A.scala"), ("a.B", movedClass "src//A.scala")]

/-- The source is recorded again without its second class, and another source with that class. -/
private def afterMove : List Recording :=
  [⟨"src/A.scala", { digest := ⟨5, 6⟩ }, [("a.A", movedClass "src/A.scala")], by decide +kernel⟩,
    ⟨"src/B.scala", { digest := ⟨7, 8⟩ }, [("a.B", movedClass "src/./B.scala")], by decide +kernel⟩,
    ⟨"src/C.scala", { digest := ⟨9, 0⟩ }, [], by decide +kernel⟩]

/-- A class moves from one source to another one, and the records are made in either order. -/
theorem enterAll_perm_of_moved_class :
    afterMove.Pairwise Recording.Apart ∧ beforeMove.class? "a.B" = some (movedClass "src//A.scala") ∧
      (beforeMove.enterAll afterMove).class? "a.B" = some (movedClass "src/./B.scala") ∧
      (beforeMove.enterAll afterMove == beforeMove.enterAll afterMove.reverse) = true := by
  have hapart : afterMove.Pairwise Recording.Apart := by decide +kernel
  exact ⟨hapart, rfl, rfl, (enterAll_perm beforeMove (List.reverse_perm afterMove).symm hapart).1⟩

end Analysis

end Recompile

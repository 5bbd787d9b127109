import Recompile.Proofs.Linkless
import Recompile.Proofs.MakingDirs

/-!
# Names that stay below a directory

The name of a member of an archive is a path that is followed from a directory, and it may go up as well as down. It is
refused if it is absolute, if there is a zero byte in it, or if it goes up once more than it went down before
(`Zip.Member.Refused`). That is said of all fronts of the name at once; the check goes through the components and keeps the
depth (`Zip.Member.enclosed?_eq_none_iff`).

A name that is not refused never leaves the directory on its way. So as long as there are no links below the directory it
leads where it does by its spelling (`Files.LeadsTo.below`), whatever is above the directory.
-/

namespace Recompile

open Recompile.Path

namespace Path

/-- The steps up among some components. -/
def stepsUp (cs : List Component) : Nat := cs.count .up

/-- The names among some components. -/
def stepsDown (cs : List Component) : Nat := cs.countP fun c => c matches .name _

/-- The components of some names. A `.` is none. -/
def componentsOfNames (names : List String) : List Component := names.filterMap fun n => Component.ofSegment? n.toList

theorem root_not_mem_components {p : Path} (hp : p.isAbsolute = false) : .root ∉ p.components := by
  intro hroot
  rw [components, componentsOf_eq, List.mem_append] at hroot
  rcases hroot with hmark | hbody
  · -- only the mark can be the root, and only a separator in front makes it one
    obtain ⟨hwhole, hempty | hdot | hsep⟩ := Files.markAndBody_eq p.spelling.toList
    · have hnone : componentsOf [] = [] := by decide
      simp [hempty, hnone] at hmark
    · have hhere : componentsOf ['.'] = [.here] := by decide
      simp [hdot, hhere] at hmark
    · rw [hsep] at hwhole
      obtain ⟨back, hback⟩ : ∃ back, p.spelling.toList = '/' :: back := ⟨_, hwhole⟩
      simp [Path.isAbsolute, hback] at hp
  · obtain ⟨segment, -, hsegment⟩ := List.mem_filterMap.1 hbody
    by_cases hvoid : isVoid segment = true
    · simp [ofSegment?_of_isVoid hvoid] at hsegment
    · obtain ⟨c, hc, hother⟩ := exists_ofSegment?_of_not_isVoid (by simpa using hvoid)
      exact hother (Option.some.inj (hc.symm.trans hsegment))

theorem componentsOfNames_segments (cs : List Char) :
    componentsOfNames (Files.segments cs) = (cs.splitOn '/').filterMap Component.ofSegment? := by
  unfold componentsOfNames Files.segments
  rw [List.filterMap_filter, List.filterMap_map]
  refine List.filterMap_congr fun piece _ => ?_
  rw [Function.comp_apply, String.toList_ofList]
  split
  next => rfl
  next hempty =>
    obtain rfl : piece = [] := by simpa using hempty
    rfl

end Path

namespace Zip.Member

/-! ### Names that are refused -/

/-- **The names that are refused:** those with a zero byte, the absolute ones, and those of which some front goes up more
often than down. -/
def Refused (name : String) : Prop :=
  '\x00' ∈ name.toList ∨ (⟨name⟩ : Path).isAbsolute = true ∨
    ∃ front, front <+: (⟨name⟩ : Path).components ∧ stepsDown front < stepsUp front

theorem exists_prefix_cons_iff {α : Type} {P : List α → Prop} (hnil : ¬ P []) (c : α) (cs : List α) :
    (∃ front, front <+: c :: cs ∧ P front) ↔ ∃ front, front <+: cs ∧ P (c :: front) := by
  constructor
  · rintro ⟨front, hfront, hP⟩
    rcases List.prefix_cons_iff.1 hfront with rfl | ⟨front, rfl, hrest⟩
    · exact absurd hP hnil
    · exact ⟨front, hrest, hP⟩
  · rintro ⟨front, hfront, hP⟩
    exact ⟨c :: front, List.cons_prefix_cons.2 ⟨rfl, hfront⟩, hP⟩

/-- **The depth is lost** where a front goes up more often than down. -/
theorem foldl_depthAfter_eq_none_iff {cs : List Component} (hroot : .root ∉ cs) (n : Nat) :
    cs.foldl depthAfter (some n) = none ↔ ∃ front, front <+: cs ∧ n + stepsDown front < stepsUp front := by
  induction cs generalizing n with
  | nil => simp [stepsUp]
  | cons c cs ih =>
    obtain ⟨hc, hrest⟩ := not_or.1 (List.mem_cons.not.1 hroot)
    rw [List.foldl_cons, exists_prefix_cons_iff (by simp [stepsUp])]
    cases c with
    | root => exact absurd rfl hc
    | here =>
      rw [depthAfter, ih hrest]
      simp [stepsUp, stepsDown]
    | name s =>
      rw [depthAfter, ih hrest]
      simp [stepsUp, stepsDown, Nat.add_assoc, Nat.add_comm 1]
    | up =>
      cases n with
      | zero =>
        -- the first step already leads out
        rw [depthAfter, Files.foldl_depthAfter_none]
        refine iff_of_true rfl ⟨[], List.nil_prefix, ?_⟩
        simp [stepsUp, stepsDown]
      | succ n =>
        rw [depthAfter, ih hrest]
        simp only [stepsUp, stepsDown, List.count_cons_self]
        simp [Nat.add_right_comm n 1]

theorem enclosed?_eq_none_iff {name : String} : enclosed? name = none ↔ Refused name := by
  unfold enclosed? Refused
  by_cases hzero : '\x00' ∈ name.toList
  · simp [hzero]
  rw [if_neg (by simpa using hzero), Option.map_eq_none_iff]
  cases habsolute : (⟨name⟩ : Path).isAbsolute with
  | true =>
    obtain ⟨cs, hcs⟩ := Files.exists_components_of_isAbsolute habsolute
    simp [hcs, depthAfter, Files.foldl_depthAfter_none]
  | false =>
    rw [foldl_depthAfter_eq_none_iff (root_not_mem_components habsolute)]
    simp [hzero]

instance (name : String) : Decidable (Refused name) := decidable_of_iff ((enclosed? name).isNone = true) <| by
  rw [Option.isNone_iff_eq_none, enclosed?_eq_none_iff]

theorem enclosed?_eq_some_iff {name : String} {p : Path} : enclosed? name = some p ↔ ¬ Refused name ∧ p = ⟨name⟩ := by
  have hsame : ∀ {q}, enclosed? name = some q → q = ⟨name⟩ := by
    intro q hq
    unfold enclosed? at hq
    split at hq
    · cases hq
    · obtain ⟨_, -, rfl⟩ := Option.map_eq_some_iff.1 hq
      rfl
  rw [← enclosed?_eq_none_iff]
  constructor
  · exact fun h => ⟨by simp [h], hsame h⟩
  · rintro ⟨hsome, rfl⟩
    obtain ⟨q, hq⟩ := Option.ne_none_iff_exists'.1 hsome
    rw [hq, hsame hq]

theorem isAbsolute_of_not_refused {name : String} (h : ¬ Refused name) : (⟨name⟩ : Path).isAbsolute = false := by
  rw [← Bool.not_eq_true]
  exact fun habsolute => h (Or.inr (Or.inl habsolute))

/-- **Where a name leads by its spelling,** from the directory from which it is followed. -/
def way (name : String) : Location := (⟨name⟩ : Path).components.foldl Files.componentStep []

end Zip.Member

namespace Files

/-! ### Names that stay below -/

/-- **Names that stay below a directory** when they are followed from a place so deep below it. -/
structure StaysBelow (depth : Nat) (names : List String) : Prop where
  proper : "" ∉ names
  deep : (componentsOfNames names).foldl Zip.Member.depthAfter (some depth) ≠ none

theorem StaysBelow.of_front {depth : Nat} {names front : List String} (h : StaysBelow depth names) (hfront : front <+: names) :
    StaysBelow depth front := by
  obtain ⟨back, rfl⟩ := hfront
  refine ⟨fun hmem => h.proper (List.mem_append_left back hmem), fun hnone => h.deep ?_⟩
  rw [componentsOfNames, List.filterMap_append, List.foldl_append]
  rw [componentsOfNames] at hnone
  rw [hnone, foldl_depthAfter_none]

theorem staysBelow_segments {name : String} (h : ¬ Zip.Member.Refused name) : StaysBelow 0 (segments name.toList) where
  proper := by simp [segments]
  deep := by
    have hrelative := Zip.Member.isAbsolute_of_not_refused h
    rw [componentsOfNames_segments, ← foldl_components (p := ⟨name⟩) (fun d => by cases d <;> rfl) hrelative,
      Ne, Zip.Member.foldl_depthAfter_eq_none_iff (root_not_mem_components hrelative)]
    rintro ⟨front, hfront, hless⟩
    exact h (Or.inr (Or.inr ⟨front, hfront, by omega⟩))

theorem spelled_segments {name : String} (h : ¬ Zip.Member.Refused name) :
    spelled [] (segments name.toList) = Zip.Member.way name := by
  rw [Zip.Member.way, ← spelled_steps_eq_components (Zip.Member.isAbsolute_of_not_refused h), spelled_steps]

namespace StaysBelow

variable {depth : Nat} {step : String} {rest : List String}

theorem dot (h : StaysBelow depth ("." :: rest)) : StaysBelow depth rest where
  proper hmem := h.proper (List.mem_cons_of_mem _ hmem)
  deep := h.deep

/-- A step up is taken back from a step down. -/
theorem up (h : StaysBelow depth (".." :: rest)) : ∃ above, depth = above + 1 ∧ StaysBelow above rest := by
  have hcons : componentsOfNames (".." :: rest) = .up :: componentsOfNames rest := rfl
  have hdeep := h.deep
  rw [hcons, List.foldl_cons] at hdeep
  cases depth with
  | zero => exact absurd (foldl_depthAfter_none _) hdeep
  | succ above => exact ⟨above, rfl, fun hmem => h.proper (List.mem_cons_of_mem _ hmem), hdeep⟩

theorem name (h : StaysBelow depth (step :: rest)) (hstep : IsName step) : StaysBelow (depth + 1) rest where
  proper hmem := h.proper (List.mem_cons_of_mem _ hmem)
  deep := by
    have hempty : step ≠ "" := fun heq => h.proper (heq ▸ List.mem_cons_self)
    have hcomponent : Component.ofSegment? step.toList = some (.name step) := by
      have hdot : step.toList ≠ ['.'] := fun heq => hstep.1 (String.toList_injective heq)
      have hup : step.toList ≠ ['.', '.'] := fun heq => hstep.2.1 (String.toList_injective heq)
      unfold Component.ofSegment?
      rw [if_neg (by simp [hempty, hdot]), if_neg hup, String.ofList_toList]
    have hcons : componentsOfNames (step :: rest) = .name step :: componentsOfNames rest := by
      rw [componentsOfNames, List.filterMap_cons, hcomponent]
      rfl
    have hdeep := h.deep
    rwa [hcons] at hdeep

end StaysBelow

/-- **Names that stay below a directory lead where their spelling says** if there are no links below it. -/
theorem LeadsTo.below {f : Files} {base : Location} {names : List String} {r : Place}
    (hlinks : ∀ w target, w ≠ [] → f.node? (base ++ w) ≠ some (.link target))
    (hnames : StaysBelow 0 names) (h : f.LeadsTo base names r) :
    r.loc = base ++ spelled [] names ∧ (r.node = some .dir ∨ spelled [] names ≠ []) := by
  obtain ⟨links, hwalk⟩ := h
  -- from a place below the directory the names stay below it as well
  refine walk_induct (motive := fun _ here names r => ∀ w, here = base ++ w → StaysBelow w.length names →
    r.loc = base ++ spelled w names ∧ (r.node = some .dir ∨ spelled w names ≠ []))
    ?stop ?dot ?up ?last ?enter ?through hwalk [] (List.append_nil base).symm hnames
  case stop =>
    rintro _ _ w rfl -
    exact ⟨rfl, Or.inl rfl⟩
  case dot => exact fun _ _ _ _ ih w hw hbelow => ih w hw hbelow.dot
  case up =>
    rintro _ _ rest r ih w rfl hbelow
    obtain ⟨above, hlength, hrest⟩ := hbelow.up
    obtain ⟨init, last, rfl⟩ := (List.eq_nil_or_concat w).resolve_left fun hnil => by simp [hnil] at hlength
    rw [List.concat_eq_append] at hlength ⊢
    obtain rfl : init.length = above := by simpa using hlength
    have hup : spelledStep (init ++ [last]) ".." = init := List.dropLast_concat
    rw [spelled_cons, hup]
    exact ih init (by rw [List.concat_eq_append, ← List.append_assoc, List.dropLast_concat]) hrest
  case last =>
    rintro _ _ step node hstep - - - w rfl -
    rw [spelled_cons, spelledStep_of_isName hstep, spelled_nil]
    exact ⟨List.append_assoc _ _ _, Or.inr (by simp)⟩
  case enter =>
    rintro _ _ step rest r hstep - ih w rfl hbelow
    rw [spelled_cons, spelledStep_of_isName hstep]
    refine ih (w ++ [step]) (List.append_assoc _ _ _) ?_
    rw [List.length_append, List.length_singleton]
    exact hbelow.name hstep
  case through =>
    rintro _ _ step rest target r hstep hnode - - w rfl -
    rw [List.append_assoc] at hnode
    exact absurd hnode (hlinks _ target (by simp))

end Files

end Recompile

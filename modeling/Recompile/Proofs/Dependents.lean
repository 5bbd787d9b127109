import Mathlib.Logic.Relation
import Recompile.Engine.Invalidation
import Recompile.Proofs.Record

/-!
# Sources that depend on others

The recorded edges between sources are followed backwards in two ways: `Analysis.dependentsOfAny` takes one step, and
`Analysis.transitiveDependents` takes as many as there are. The second one is a search, and what it keeps from step to step
(`Search.Sound`) says of every source that is known, be it found or one of those from which the search starts, that it still
waits or that all that refer to it are found. At the end nothing waits. So the result is closed under taking one more step
(`Analysis.transitiveDependents_closed`), and conversely all that is found leads to one of the sources that the search starts
from (`Analysis.transGen_of_transitiveDependents`).

Both together say that the search finds exactly the sources from which one of those can be reached
(`Analysis.transitiveDependents_exact`). It comes to an end although edges may go round in circles, and after a number of
steps that is known: every source that it starts from and every source that it finds is followed once.
-/

namespace Recompile

/-- Whether a source is among some sources, in any spelling. -/
def Path.Among (p : Path) (l : List Path) : Prop := ∃ q ∈ l, (q == p) = true

namespace Path

instance (p : Path) (l : List Path) : Decidable (p.Among l) :=
  inferInstanceAs (Decidable (∃ q ∈ l, (q == p) = true))

theorem Among.congr {p q : Path} {l : List Path} (h : p.Among l) (hpq : (p == q) = true) : q.Among l := by
  obtain ⟨r, hr, hrp⟩ := h
  exact ⟨r, hr, BEq.trans hrp hpq⟩

theorem among_of_mem {p : Path} {l : List Path} (h : p ∈ l) : p.Among l := ⟨p, h, BEq.rfl⟩

theorem among_append {p : Path} {l m : List Path} : p.Among (l ++ m) ↔ p.Among l ∨ p.Among m := by
  simp [Among, or_and_right, exists_or]

theorem not_among {p : Path} {l : List Path} : ¬ p.Among l ↔ ∀ q ∈ l, (q == p) = false := by
  simp [Among]

@[simp] theorem not_among_nil (p : Path) : ¬ p.Among [] := by simp [Among]

theorem among_keys {ν : Type} {p : Path} {m : SortedMap Path ν} : p.Among m.keys ↔ m.contains p = true := by
  rw [SortedMap.contains_iff_keys]
  refine exists_congr fun q => and_congr_right fun _ => ?_
  rw [compare_eq_iff_beq]
  exact ⟨BEq.symm, BEq.symm⟩

theorem among_toList {p : Path} {s : SortedSet Path} : p.Among s.toList ↔ s.contains p = true := among_keys

theorem among_ofList {p : Path} {l : List Path} : p.Among (SortedSet.ofList l).toList ↔ p.Among l := by
  rw [among_toList, SortedSet.contains_ofList]
  refine exists_congr fun q => and_congr_right fun _ => ?_
  rw [compare_eq_iff_beq]
  exact ⟨BEq.symm, BEq.symm⟩

/-- The keys of a filtered table, for a test that does not look at the spelling of a path. -/
theorem among_filter_keys {ν : Type} {m : SortedMap Path ν} {test : Path → ν → Bool}
    (htest : ∀ {p q : Path} (x : ν), (p == q) = true → test p x = test q x) {p : Path} :
    p.Among (m.filter test).keys ↔ ∃ x, m.get? p = some x ∧ test p x = true := by
  constructor
  · rintro ⟨q, hq, hqp⟩
    obtain ⟨e, he, rfl⟩ := List.mem_map.1 hq
    obtain ⟨he, hpass⟩ := List.mem_filter.1 he
    refine ⟨e.2, ?_, (htest e.2 hqp).symm.trans hpass⟩
    rw [← m.get?_congr (compare_eq_iff_beq.2 hqp)]
    exact SortedMap.get?_of_mem he
  · rintro ⟨x, hx, hpass⟩
    obtain ⟨q, he, hpq⟩ := SortedMap.get?_eq_some_iff.1 hx
    have hpq := compare_eq_iff_beq.1 hpq
    exact ⟨q, List.mem_map.2 ⟨(q, x), List.mem_filter.2 ⟨he, (htest x hpq).symm.trans hpass⟩, rfl⟩, BEq.symm hpq⟩

end Path

/-! ### One step -/

/-- A record refers to some sources if it has an edge to one of them. -/
theorem SourceInfo.refersTo_iff {info : SourceInfo} {targets : List Path} :
    info.refersTo targets = true ↔ ∃ t ∈ targets, info.sourceDeps.contains t = true := by
  simp [refersTo]

/-- An edge to a source is an edge to all its spellings. -/
theorem SourceInfo.contains_congr (info : SourceInfo) {p q : Path} (h : (p == q) = true) :
    info.sourceDeps.contains p = info.sourceDeps.contains q :=
  SortedMap.contains_congr _ (Path.compare_eq_iff_beq.2 h)

theorem SourceInfo.refersTo_of_among {info : SourceInfo} {t : Path} {targets : List Path}
    (ht : t.Among targets) (h : info.sourceDeps.contains t = true) : info.refersTo targets = true := by
  obtain ⟨r, hr, hrt⟩ := ht
  exact refersTo_iff.2 ⟨r, hr, by rwa [info.contains_congr hrt]⟩

namespace Analysis

/-- The direct dependents of some sources are the recorded sources that refer to one of them. -/
theorem among_dependentsOfAny {a : Analysis} {p : Path} {targets : List Path} :
    p.Among (a.dependentsOfAny targets) ↔
      ∃ info, a.source? p = some info ∧ info.refersTo targets = true :=
  Path.among_filter_keys fun _ _ => rfl

/-- The direct dependents of a source are the recorded sources that refer to it. -/
theorem among_dependentsOf {a : Analysis} {p t : Path} :
    p.Among (a.dependentsOf t) ↔ ∃ info, a.source? p = some info ∧ info.sourceDeps.contains t = true :=
  Path.among_filter_keys fun _ _ => rfl

end Analysis

/-! ### References -/

/-- Whether a recorded source refers to another one. -/
def Analysis.RefersTo (a : Analysis) (p q : Path) : Prop :=
  ∃ info, a.source? p = some info ∧ info.sourceDeps.contains q = true

theorem Analysis.RefersTo.congr {a : Analysis} {p p' q q' : Path} (h : a.RefersTo p q) (hp : (p == p') = true)
    (hq : (q == q') = true) : a.RefersTo p' q' := by
  obtain ⟨info, hinfo, hedge⟩ := h
  exact ⟨info, by rwa [← a.source?_congr hp], by rwa [← info.contains_congr hq]⟩

/-! ### One step of the search -/

namespace Search

variable {a : Analysis} {roots l m : List Path} {s t u : Search} {p q : Path} {n : Nat}

/-- **How sources are entered:** those of the list that were not found before are found and wait in the queue. -/
structure Enters (l : List Path) (s t : Search) : Prop where
  contains : ∀ p, t.found.contains p = true ↔ p.Among l ∨ s.found.contains p = true
  /-- A source is found in the spelling in which it was met. -/
  spelled : ∀ p ∈ t.found.toList, p ∈ l ∨ p ∈ s.found.toList
  met : ∀ p ∈ t.queue, p ∈ l ∨ p ∈ s.queue
  stays : ∀ p ∈ s.queue, p ∈ t.queue
  waits : ∀ p, t.found.contains p = true → s.found.contains p = true ∨ p.Among t.queue
  size : t.found.size + s.queue.length = s.found.size + t.queue.length

theorem Enters.nil (s : Search) : Enters [] s s where
  contains p := by simp
  spelled p hp := Or.inr hp
  met p hp := Or.inr hp
  stays p hp := hp
  waits p hp := Or.inl hp
  size := rfl

theorem Enters.append (h : Enters l s t) (h' : Enters m t u) : Enters (l ++ m) s u where
  contains p := by rw [h'.contains, h.contains, Path.among_append, or_left_comm, or_assoc]
  spelled p hp := by
    rcases h'.spelled p hp with hm | ht
    · exact Or.inl (List.mem_append_right l hm)
    · exact (h.spelled p ht).imp_left (List.mem_append_left m)
  met p hp := by
    rcases h'.met p hp with hm | ht
    · exact Or.inl (List.mem_append_right l hm)
    · exact (h.met p ht).imp_left (List.mem_append_left m)
  stays p hp := h'.stays p (h.stays p hp)
  waits p hp := by
    rcases h'.waits p hp with ht | hu
    · exact (h.waits p ht).imp_right fun ⟨q, hq, hqp⟩ => ⟨q, h'.stays q hq, hqp⟩
    · exact Or.inr hu
  size := by
    have hfirst := h.size
    have hsecond := h'.size
    omega

theorem enters_enter (s : Search) (p : Path) : Enters [p] s (s.enter p) := by
  have hone : ∀ q : Path, q.Among [p] ↔ (p == q) = true := by simp [Path.Among]
  unfold enter
  split
  next hold =>
    -- the source was found before, in this spelling or in another one
    refine ⟨fun q => ⟨Or.inr, fun h => ?_⟩, fun _ => Or.inr, fun _ => Or.inr, fun _ => id, fun _ => Or.inl, rfl⟩
    rcases h with hq | hq
    · rwa [← SortedMap.contains_congr s.found (Path.compare_eq_iff_beq.2 ((hone q).1 hq))]
    · exact hq
  next hnew =>
    have hnone : SortedMap.get? s.found p = none := SortedMap.contains_eq_false.1 (by simpa using hnew)
    have hadd : ∀ q, (s.found.add p).contains q = true ↔ (p == q) = true ∨ s.found.contains q = true := by
      intro q
      rw [SortedSet.contains_add, Bool.or_eq_true, beq_iff_eq, Path.compare_eq_iff_beq]
      exact or_congr_left ⟨BEq.symm, BEq.symm⟩
    have hsize : (s.found.add p).size = s.found.size + 1 := SortedMap.size_insert_of_none hnone ()
    refine ⟨fun q => ?_, fun q hq => ?_, fun q hq => ?_, fun q hq => List.mem_cons_of_mem p hq, fun q hq => ?_, ?_⟩
    · rw [hone, hadd]
    · obtain ⟨e, he, rfl⟩ := List.mem_map.1 hq
      rcases (SortedMap.mem_entries_insert hnone ()).1 he with rfl | he
      · exact Or.inl (List.mem_singleton.2 rfl)
      · exact Or.inr (List.mem_map_of_mem he)
    · exact (List.mem_cons.1 hq).imp_left List.mem_singleton.2
    · exact ((hadd q).1 hq).symm.imp_right fun hpq => ⟨p, List.mem_cons_self, hpq⟩
    · rw [hsize, List.length_cons]
      omega

theorem enters_foldl (l : List Path) (s : Search) : Enters l s (l.foldl enter s) := by
  induction l generalizing s with
  | nil => exact .nil s
  | cons p rest ih => exact (enters_enter s p).append (ih (s.enter p))

/-- As long as a source waits there is a step, which enters all that refer to the first one. -/
theorem next?_eq_some_iff : s.next? a = some t ↔
    ∃ p rest, s.queue = p :: rest ∧ t = (a.dependentsOf p).foldl enter ⟨s.found, rest⟩ := by
  unfold next?
  split
  next hnil => simp [hnil]
  next p rest hqueue => simp [hqueue, eq_comm]

theorem next?_eq_none_iff : s.next? a = none ↔ s.queue = [] := by
  unfold next?
  split <;> simp_all

/-- **What a search keeps.** -/
structure Sound (a : Analysis) (roots : List Path) (s : Search) : Prop where
  /-- What was found is recorded, and is spelled as it is recorded. -/
  recorded : ∀ p ∈ s.found.toList, p ∈ a.sources.keys
  /-- It leads to one of the sources from which the search started. -/
  leads : ∀ p, s.found.contains p = true → ∃ r ∈ roots, Relation.TransGen a.RefersTo p r
  /-- Only sources that are known wait. -/
  known : ∀ p ∈ s.queue, p ∈ roots ∨ s.found.contains p = true
  /-- A known source waits, or whatever refers to it is found. -/
  followed : ∀ p t, a.RefersTo p t → t.Among roots ∨ s.found.contains t = true →
    t.Among s.queue ∨ s.found.contains p = true

theorem sound_start (a : Analysis) (roots : List Path) : Sound a roots (start roots) where
  recorded p hp := absurd hp List.not_mem_nil
  leads p hp := absurd hp Bool.false_ne_true
  known p hp := Or.inl (List.mem_reverse.1 hp)
  followed p t _ ht := by
    rcases ht with ⟨r, hr, hrt⟩ | hfound
    · exact Or.inl ⟨r, List.mem_reverse.2 hr, hrt⟩
    · exact absurd hfound Bool.false_ne_true

/-- **A step keeps it.** -/
theorem Sound.next (h : Sound a roots s) (hstep : s.next? a = some t) : Sound a roots t := by
  obtain ⟨q, rest, hqueue, rfl⟩ := next?_eq_some_iff.1 hstep
  have henters := enters_foldl (a.dependentsOf q) ⟨s.found, rest⟩
  have hdependents : ∀ p, p.Among (a.dependentsOf q) ↔ a.RefersTo p q := fun p => Analysis.among_dependentsOf
  -- the four fields of the invariant: recorded, leads, known, followed
  refine ⟨fun p hp => ?_, fun p hp => ?_, fun p hp => ?_, fun p t hpt ht => ?_⟩
  · exact (henters.spelled p hp).elim mem_keys_of_mem_dependentsOf (h.recorded p)
  · rcases (henters.contains p).1 hp with hnew | hold
    · -- the source refers to the one that was followed
      have hpq := (hdependents p).1 hnew
      rcases h.known q (hqueue ▸ List.mem_cons_self) with hroot | hfound
      · exact ⟨q, hroot, .single hpq⟩
      · obtain ⟨r, hr, hsteps⟩ := h.leads q hfound
        exact ⟨r, hr, .head hpq hsteps⟩
    · exact h.leads p hold
  · rcases henters.met p hp with hnew | hold
    · exact Or.inr ((henters.contains p).2 (Or.inl (Path.among_of_mem hnew)))
    · refine (h.known p (hqueue ▸ List.mem_cons_of_mem q hold)).imp_right fun hfound => ?_
      exact (henters.contains p).2 (Or.inr hfound)
  · have hbefore : t.Among roots ∨ s.found.contains t = true →
        t.Among ((a.dependentsOf q).foldl enter ⟨s.found, rest⟩).queue ∨
          ((a.dependentsOf q).foldl enter ⟨s.found, rest⟩).found.contains p = true := by
      intro ht
      rcases h.followed p t hpt ht with ⟨r, hr, hrt⟩ | hfound
      · rcases List.mem_cons.1 (hqueue ▸ hr) with rfl | hrest
        · -- what is referred to is the source that was followed
          exact Or.inr ((henters.contains p).2 (Or.inl ((hdependents p).2 (hpt.congr BEq.rfl (BEq.symm hrt)))))
        · exact Or.inl ⟨r, henters.stays r hrest, hrt⟩
      · exact Or.inr ((henters.contains p).2 (Or.inr hfound))
    rcases ht with hroot | hfound
    · exact hbefore (Or.inl hroot)
    · exact (henters.waits t hfound).elim (fun hold => hbefore (Or.inr hold)) Or.inl

/-! ### A whole search -/

/-- The search goes on by so many steps. -/
inductive Takes (a : Analysis) : Nat → Search → Search → Prop
  | none (s : Search) : Takes a 0 s s
  | next {n : Nat} {s t u : Search} (hstep : s.next? a = some t) (hrest : Takes a n t u) : Takes a (n + 1) s u

/-- **A search comes to an end,** and what it has found there is what it yields. -/
theorem exists_takes_run (a : Analysis) (s : Search) : ∃ n, Takes a n s ⟨s.run a, []⟩ := by
  fun_induction run a s with
  | case1 s hend =>
    have hs : s = ⟨s.found, []⟩ := by rw [← next?_eq_none_iff.1 hend]
    exact ⟨0, hs ▸ .none s⟩
  | case2 s t hstep ih =>
    obtain ⟨n, htakes⟩ := ih
    exact ⟨n + 1, .next hstep htakes⟩

theorem Takes.sound (h : Takes a n s t) (hs : Sound a roots s) : Sound a roots t := by
  induction h with
  | none => exact hs
  | next hstep _ ih => exact ih (hs.next hstep)

/-- A step takes one source out of the queue and lets as many wait as it finds. -/
theorem count_next? (hstep : s.next? a = some t) :
    1 + t.queue.length + s.found.size = s.queue.length + t.found.size := by
  obtain ⟨q, rest, hqueue, rfl⟩ := next?_eq_some_iff.1 hstep
  have hsize := (enters_foldl (a.dependentsOf q) ⟨s.found, rest⟩).size
  rw [hqueue, List.length_cons]
  dsimp only at hsize
  omega

theorem Takes.count (h : Takes a n s t) : n + t.queue.length + s.found.size = s.queue.length + t.found.size := by
  induction h with
  | none => omega
  | next hstep _ ih =>
    have hone := count_next? hstep
    omega

end Search

namespace Analysis

variable {a : Analysis} {roots : List Path} {p : Path}

theorem sound_transitiveDependents (a : Analysis) (roots : List Path) :
    Search.Sound a roots ⟨a.transitiveDependents roots, []⟩ := by
  obtain ⟨n, htakes⟩ := Search.exists_takes_run a (Search.start roots)
  exact htakes.sound (Search.sound_start a roots)

/-- **The sources that lead to some sources are closed under taking one more step.** -/
theorem transitiveDependents_closed {t : Path} {info : SourceInfo} (hinfo : a.source? p = some info)
    (hedge : info.sourceDeps.contains t = true) (ht : t.Among roots ∨ t.Among (a.transitiveDependents roots).toList) :
    p.Among (a.transitiveDependents roots).toList := by
  rw [Path.among_toList] at ht ⊢
  exact ((sound_transitiveDependents a roots).followed p t ⟨info, hinfo, hedge⟩ ht).resolve_left (Path.not_among_nil t)

/-- The sources that lead to some sources are recorded. -/
theorem exists_source?_of_transitiveDependents (hp : p.Among (a.transitiveDependents roots).toList) :
    ∃ info, a.source? p = some info := by
  obtain ⟨q, hq, hqp⟩ := hp
  have hkey := (sound_transitiveDependents a roots).recorded q hq
  rw [← a.source?_congr hqp]
  exact SortedMap.contains_iff.1 (SortedMap.contains_of_mem_keys hkey)

/-- **The transitive dependents of some sources lead to one of them** by one step or more. -/
theorem transGen_of_transitiveDependents (hp : p.Among (a.transitiveDependents roots).toList) :
    ∃ t ∈ roots, Relation.TransGen a.RefersTo p t :=
  (sound_transitiveDependents a roots).leads p (Path.among_toList.1 hp)

/-- Whatever leads to some sources is among their transitive dependents. -/
theorem among_transitiveDependents {r : Path} (hr : r ∈ roots) (hsteps : Relation.TransGen a.RefersTo p r) :
    p.Among (a.transitiveDependents roots).toList := by
  induction hsteps using Relation.TransGen.head_induction_on with
  | single hstep =>
    obtain ⟨info, hinfo, hedge⟩ := hstep
    exact transitiveDependents_closed hinfo hedge (Or.inl (Path.among_of_mem hr))
  | head hstep _ ih =>
    obtain ⟨info, hinfo, hedge⟩ := hstep
    exact transitiveDependents_closed hinfo hedge (Or.inr ih)

/-- **The search finds exactly the recorded sources from which one of those that it starts from can be reached** by one
reference or more, and it comes to an end: it follows each of the sources that it starts from and each of those that it
finds once, and then nothing is left to follow. So a source that it starts from is found only if references lead from it
to one of them, be it itself. -/
theorem transitiveDependents_exact (a : Analysis) (roots : List Path) :
    Search.Takes a (roots.length + (a.transitiveDependents roots).size) (.start roots)
        ⟨a.transitiveDependents roots, []⟩ ∧
      ∀ p, p ∈ (a.transitiveDependents roots).toList ↔
        p ∈ a.sources.keys ∧ ∃ r ∈ roots, Relation.TransGen a.RefersTo p r := by
  have hsound := sound_transitiveDependents a roots
  constructor
  · obtain ⟨n, htakes⟩ := Search.exists_takes_run a (Search.start roots)
    have hcount : n = roots.reverse.length + (a.transitiveDependents roots).size := htakes.count
    rw [List.length_reverse] at hcount
    exact hcount ▸ htakes
  · intro p
    constructor
    · intro hp
      exact ⟨hsound.recorded p hp, transGen_of_transitiveDependents (Path.among_of_mem hp)⟩
    · rintro ⟨hkey, r, hr, hsteps⟩
      -- it is found in some spelling, and only one of them is recorded
      obtain ⟨q, hq, hqp⟩ := among_transitiveDependents hr hsteps
      rwa [← SortedMap.eq_of_mem_keys (hsound.recorded q hq) hkey (Path.compare_eq_iff_beq.2 hqp)]

end Analysis

end Recompile

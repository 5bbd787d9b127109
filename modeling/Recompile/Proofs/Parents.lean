import Recompile.Proofs.EntryNames
import Recompile.Text.Line

/-!
# The parent of a path

The parent of a path is cut out of its spelling: the segments that are no components are dropped from the end, then the
last component, then again what is no component, and what is left stays as it was spelled. By components that comes down to
dropping the last one, unless it is the root (`Path.components_parent?_eq_some_iff`).

The proof goes by segments. The front of a spelling is its mark, which is the root, a leading `.` or nothing, and all behind
it is segments, each of which is a component or void (`Path.componentsOf_eq`). The cut is made between two segments, so that
it divides the components in the same way (`Path.components_append_segments`).
-/

namespace Recompile

namespace Path

/-! ### Components by segments -/

theorem ofSegment?_of_isVoid {segment : List Char} (h : isVoid segment = true) : Component.ofSegment? segment = none := by
  have hvoid : segment = [] ∨ segment = ['.'] := by simpa [isVoid] using h
  rw [Component.ofSegment?, if_pos hvoid]

/-- Every other segment is one, and it is not the root. -/
theorem exists_ofSegment?_of_not_isVoid {segment : List Char} (h : isVoid segment = false) :
    ∃ c, Component.ofSegment? segment = some c ∧ c ≠ .root := by
  have hvoid : ¬ (segment = [] ∨ segment = ['.']) := by simpa [isVoid] using h
  unfold Component.ofSegment?
  rw [if_neg hvoid]
  split
  · exact ⟨.up, rfl, by simp⟩
  · exact ⟨.name _, rfl, by simp⟩

theorem filterMap_ofSegment?_of_isVoid {segments : List (List Char)} (h : ∀ s ∈ segments, isVoid s = true) :
    segments.filterMap Component.ofSegment? = [] :=
  List.filterMap_eq_nil_iff.2 fun s hs => ofSegment?_of_isVoid (h s hs)

/-- **The components of a spelling** are that of its mark and those of the segments behind it. -/
theorem componentsOf_eq (cs : List Char) :
    componentsOf cs = componentsOf (markAndBody cs).1 ++ (markAndBody cs).2.filterMap Component.ofSegment? := by
  have hnil : componentsOf [] = [] := by decide
  unfold markAndBody
  split
  next rest => exact componentsOf_append_sep [] rest
  next => simp
  next rest =>
    have hdot : componentsOf ['.', '/'] = componentsOf ['.'] := by decide
    have hcut : componentsOf ('.' :: '/' :: rest) = _ := componentsOf_append_sep ['.'] rest
    rw [hcut, List.singleton_append, hdot, List.filterMap_cons, ofSegment?_of_isVoid rfl]
  next hroot hdot hdots =>
    -- nothing stands in front of the segments, so that the first one is a segment like the others
    rw [hnil, List.nil_append]
    obtain ⟨first, rest, hsplit⟩ := List.exists_cons_of_ne_nil (List.splitOn_ne_nil '/' cs)
    have hwhole : ['/'].intercalate (first :: rest) = cs := hsplit ▸ List.intercalate_splitOn '/'
    have hfirst : ¬ (first = [] ∧ rest ≠ []) := by
      rintro ⟨rfl, hrest⟩
      rw [List.intercalate_cons_of_ne_nil hrest] at hwhole
      exact hroot _ hwhole.symm
    have hhere : first ≠ ['.'] := by
      rintro rfl
      by_cases hrest : rest = []
      · rw [hrest] at hwhole
        exact hdot (by simpa using hwhole.symm)
      · rw [List.intercalate_cons_of_ne_nil hrest] at hwhole
        exact hdots _ hwhole.symm
    unfold componentsOf
    rw [hsplit]
    dsimp only
    rw [if_neg hfirst, if_neg hhere, List.filterMap_cons]
    cases Component.ofSegment? first <;> rfl

theorem sep_not_mem_of_mem_body {cs segment : List Char} (h : segment ∈ (markAndBody cs).2) : '/' ∉ segment := by
  unfold markAndBody at h
  split at h
  next => exact Text.not_mem_of_mem_splitOn h
  next => simp at h
  next =>
    rcases List.mem_cons.1 h with rfl | hmem
    · exact List.not_mem_nil
    · exact Text.not_mem_of_mem_splitOn hmem
  next => exact Text.not_mem_of_mem_splitOn h

/-- A mark is the root, a leading `.` or nothing. -/
theorem componentsOf_mark (cs : List Char) :
    componentsOf (markAndBody cs).1 = [] ∨ ∃ c, (c = .root ∨ c = .here) ∧ componentsOf (markAndBody cs).1 = [c] := by
  obtain ⟨-, hempty | hdot | hroot⟩ := Files.markAndBody_eq cs
  · exact Or.inl (by rw [hempty]; decide)
  · exact Or.inr ⟨.here, Or.inr rfl, by rw [hdot]; decide⟩
  · exact Or.inr ⟨.root, Or.inl rfl, by rw [hroot]; decide⟩

theorem isStep_of_mem_body {cs : List Char} {c : Component} (h : c ∈ (markAndBody cs).2.filterMap Component.ofSegment?) :
    c.IsStep := by
  obtain ⟨segment, hmem, hsegment⟩ := List.mem_filterMap.1 h
  exact .of_segment (sep_not_mem_of_mem_body hmem) hsegment

/-- **All components of a path are steps,** but the first one, which may be a mark. -/
theorem isStep_of_components {p : Path} {c : Component} {rest : List Component} (h : p.components = c :: rest) :
    (c = .root ∨ c = .here ∨ c.IsStep) ∧ ∀ d ∈ rest, d.IsStep := by
  rw [components, componentsOf_eq] at h
  rcases componentsOf_mark p.spelling.toList with hnone | ⟨first, hfirst, hone⟩
  · rw [hnone, List.nil_append] at h
    have hall : ∀ d ∈ c :: rest, d.IsStep := fun d hd => isStep_of_mem_body (h ▸ hd)
    obtain ⟨hc, hrest⟩ := List.forall_mem_cons.1 hall
    exact ⟨Or.inr (Or.inr hc), hrest⟩
  · rw [hone] at h
    obtain ⟨rfl, hbody⟩ := List.cons.inj h
    exact ⟨hfirst.imp_right Or.inl, fun d hd => isStep_of_mem_body (hbody ▸ hd)⟩

/-- A name among the components of a path comes from one of its segments. -/
theorem of_mem_components {p : Path} {n : String} (h : .name n ∈ p.components) :
    '/' ∉ n.toList ∧ Component.ofSegment? n.toList = some (.name n) := by
  obtain ⟨c, rest, hp⟩ := List.exists_cons_of_ne_nil (List.ne_nil_of_mem h)
  obtain ⟨hc, hrest⟩ := isStep_of_components hp
  have hstep : (Component.name n).IsStep := by
    rcases List.mem_cons.1 (hp ▸ h) with rfl | hmem
    · simpa using hc
    · exact hrest _ hmem
  exact ⟨hstep.separator, hstep.read⟩

/-- **A spelling that is cut between two segments** has its components divided there. The segments in front of the cut are not
to end in a void one, which would be spelled as a separator without anything in front of it if it is the only one. -/
theorem components_append_segments {cs : List Char} {init more : List (List Char)} (hbody : (markAndBody cs).2 = init ++ more)
    (hmore : more ≠ []) (hinit : ∀ s ∈ init.getLast?, isVoid s = false) :
    componentsOf cs =
      componentsOf ((markAndBody cs).1 ++ ['/'].intercalate init) ++ more.filterMap Component.ofSegment? := by
  by_cases hempty : init = []
  · rw [componentsOf_eq cs, hbody, hempty]
    simp
  · obtain ⟨hwhole, -⟩ := Files.markAndBody_eq cs
    rw [hbody, Files.intercalate_append hempty hmore, ← List.append_assoc] at hwhole
    have hsplit : (['/'].intercalate more).splitOn '/' = more :=
      List.splitOn_intercalate '/' (fun s hs => sep_not_mem_of_mem_body (hbody ▸ List.mem_append_right init hs)) hmore
    -- there is something in front of the cut: the last segment that is kept is no empty one
    have hfront : (markAndBody cs).1 ++ ['/'].intercalate init ≠ [] := by
      intro hnil
      obtain ⟨front, last, rfl⟩ := (List.eq_nil_or_concat init).resolve_left hempty
      rw [List.concat_eq_append] at hnil hinit
      have hlast : isVoid last = false := hinit last (by simp)
      have hends : ['/'].intercalate (front ++ [last]) = [] := (List.append_eq_nil_iff.1 hnil).2
      by_cases hone : front = []
      · rw [hone] at hends
        have hlastNil : last = [] := by simpa using hends
        simp [hlastNil, isVoid] at hlast
      · rw [Files.intercalate_append hone (by simp)] at hends
        simp at hends
    calc componentsOf cs
        = componentsOf (((markAndBody cs).1 ++ ['/'].intercalate init) ++ '/' :: ['/'].intercalate more) := by
          rw [← hwhole]
      _ = componentsOf ((markAndBody cs).1 ++ ['/'].intercalate init) ++ more.filterMap Component.ofSegment? := by
          rw [componentsOf_append_sep, componentsOf_concat_sep hfront, hsplit]

/-! ### The parent -/

variable {p parent : Path} {front : List Component}

/-- A path with a parent has one component more than the parent. -/
theorem exists_components_of_parent? (h : p.parent? = some parent) :
    ∃ c, c ≠ .root ∧ p.components = parent.components ++ [c] := by
  rcases Files.exists_cut_of_parent? h with
    ⟨hmark, hvoids, rfl⟩ | ⟨init, dropped, last, voids, hbody, hinit, hdropped, hlast, hvoids, rfl⟩
  · -- a `.` at the front is all there is
    refine ⟨.here, by simp, ?_⟩
    rw [components, componentsOf_eq, hmark, filterMap_ofSegment?_of_isVoid hvoids]
    decide
  · obtain ⟨c, hc, hroot⟩ := exists_ofSegment?_of_not_isVoid hlast
    refine ⟨c, hroot, ?_⟩
    rw [components, components_append_segments hbody (by simp) hinit, List.filterMap_append, List.filterMap_cons, hc,
      filterMap_ofSegment?_of_isVoid hdropped, filterMap_ofSegment?_of_isVoid hvoids, components, String.toList_ofList]
    rfl

/-- A path without a parent is the empty one or the root. -/
theorem components_of_parent?_eq_none (h : p.parent? = none) : p.components = [] ∨ p.components = [.root] := by
  unfold parent? at h
  dsimp only at h
  obtain ⟨kept, voids, hbody, hvoids, -, hdrop⟩ := Files.exists_trimmed (markAndBody p.spelling.toList).2
  rw [hdrop] at h
  rcases List.eq_nil_or_concat kept with rfl | ⟨init, last, rfl⟩
  · have hmark : (markAndBody p.spelling.toList).1 ≠ ['.'] := by simpa using h
    rw [components, componentsOf_eq, hbody, List.nil_append, filterMap_ofSegment?_of_isVoid hvoids, List.append_nil]
    obtain ⟨-, hempty | hdot | hroot⟩ := Files.markAndBody_eq p.spelling.toList
    · exact Or.inl (by rw [hempty]; decide)
    · exact absurd hdot hmark
    · exact Or.inr (by rw [hroot]; decide)
  · simp at h

/-- **The parent of a path has its components without the last one,** which must not be the root. -/
theorem components_parent?_eq_some_iff :
    (∃ parent, p.parent? = some parent ∧ parent.components = front) ↔
      ∃ c, c ≠ .root ∧ p.components = front ++ [c] := by
  constructor
  · rintro ⟨parent, hparent, rfl⟩
    exact exists_components_of_parent? hparent
  · rintro ⟨c, hroot, hp⟩
    -- only a path without components, or with the root alone, has no parent
    cases hparent : p.parent? with
    | none =>
      rcases components_of_parent?_eq_none hparent with hnil | hone
      · simp [hp] at hnil
      · rw [hp, List.append_eq_singleton_iff] at hone
        simp [hroot] at hone
    | some parent =>
      obtain ⟨c', -, hp'⟩ := exists_components_of_parent? hparent
      exact ⟨parent, rfl, (List.append_inj_left' (hp'.symm.trans hp) rfl)⟩

/-- **A path with a file name** is its parent with the name behind it. -/
theorem fileName?_eq_some_iff {name : String} :
    p.fileName? = some name ↔ ∃ parent, p.parent? = some parent ∧ p.components = parent.components ++ [.name name] := by
  have hlast : p.fileName? = some name ↔ p.components.getLast? = some (.name name) := by
    unfold fileName?
    split
    next s hs => simp [hs]
    next hnot => simpa using fun h => hnot name h
  rw [hlast, List.getLast?_eq_some_iff]
  constructor
  · rintro ⟨front, hp⟩
    obtain ⟨parent, hparent, rfl⟩ := components_parent?_eq_some_iff.2 ⟨.name name, by simp, hp⟩
    exact ⟨parent, hparent, hp⟩
  · rintro ⟨parent, -, hp⟩
    exact ⟨parent.components, hp⟩

end Path

end Recompile

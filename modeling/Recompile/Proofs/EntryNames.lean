import Recompile.Archive.Zip.Member
import Recompile.Proofs.Listing
import Recompile.Proofs.Place

/-!
# Names of entries

The way down from a directory to something in it is spelled with separators between its names (`Path.ofWay`). Followed from
the directory, that is the path of what is there; by itself it is the name of an entry of an archive, with one more
separator at the end if the entry is a directory (`Path.dirOfWay`).

For plain names nothing gets lost on the way: the name of an entry is read back from the path it was made of
(`Path.entryName?_join`), it stays below the directory in which it is unpacked (`Zip.Member.enclosed?_ofWay`,
`Zip.Member.enclosed?_dirOfWay`), and it compares to others as the ways do (`Path.compare_of_components`). The components
of a path may also lead up. Such steps are read back like names (`Path.components_ofWay_steps`).
-/

namespace Recompile

/-- **A plain name:** one that an entry of a directory can have, without a backslash. -/
structure Files.PlainName (n : String) : Prop where
  name : Files.IsName n
  some : n ≠ ""
  separator : '/' ∉ n.toList
  zero : '\x00' ∉ n.toList
  backslash : '\\' ∉ n.toList

instance (n : String) : Decidable (Files.IsName n) := inferInstanceAs (Decidable (_ ∧ _ ∧ _))

instance (n : String) : Decidable (Files.PlainName n) :=
  decidable_of_iff (Files.IsName n ∧ n ≠ "" ∧ '/' ∉ n.toList ∧ '\x00' ∉ n.toList ∧ '\\' ∉ n.toList)
    ⟨fun ⟨hname, hsome, hseparator, hzero, hback⟩ => ⟨hname, hsome, hseparator, hzero, hback⟩,
      fun h => ⟨h.name, h.some, h.separator, h.zero, h.backslash⟩⟩

/-- **A way down that has only plain names.** -/
structure Files.PlainWay (way : Location) : Prop where
  some : way ≠ []
  names : ∀ n ∈ way, Files.PlainName n

/-- The path that spells a way. -/
def Path.ofWay (way : Location) : Path := ⟨"/".intercalate way⟩

/-- The path that spells a way to a directory. -/
def Path.dirOfWay (way : Location) : Path := ⟨(ofWay way).spelling ++ "/"⟩

namespace Files.PlainName

variable {n : String}

theorem toList_ne_nil (hn : PlainName n) : n.toList ≠ [] := by simpa using hn.some

theorem toList_ne_dot (hn : PlainName n) : n.toList ≠ ['.'] := fun h => hn.name.1 (String.toList_injective h)

end Files.PlainName

namespace Files.PlainWay

variable {way : Location}

theorem front (rest : Location) (hway : PlainWay (way ++ rest)) (hsome : way ≠ []) : PlainWay way :=
  ⟨hsome, fun n hn => hway.names n (List.mem_append_left rest hn)⟩

end Files.PlainWay

namespace Path

open Files

variable {root : Path} {v w way : Location} {n : String}

/-! ### Spelling a way -/

theorem toList_ofWay (way : Location) : (ofWay way).spelling.toList = ['/'].intercalate (way.map String.toList) := by
  have hsep : "/".toList = ['/'] := by decide
  rw [ofWay, String.toList_intercalate, hsep]

/-- **The pieces between the separators are the names.** -/
theorem splitOn_ofWay (hway : PlainWay way) : (ofWay way).spelling.toList.splitOn '/' = way.map String.toList := by
  rw [toList_ofWay]
  apply List.splitOn_intercalate
  · intro piece hpiece
    obtain ⟨n, hn, rfl⟩ := List.mem_map.1 hpiece
    exact (hway.names n hn).separator
  · simpa using hway.some

/-- The names of a way do not get lost when it is spelled. -/
theorem ofWay_inj (hv : PlainWay v) (hw : PlainWay w) (h : (ofWay v).spelling = (ofWay w).spelling) : v = w := by
  have hpieces : v.map String.toList = w.map String.toList := by
    rw [← splitOn_ofWay hv, ← splitOn_ofWay hw, h]
  exact List.map_injective_iff.2 (fun _ _ => String.toList_injective) hpieces

theorem exists_toList_ofWay_concat (init : Location) (last : String) :
    ∃ front, (ofWay (init ++ [last])).spelling.toList = front ++ last.toList := by
  by_cases hinit : init = []
  · exact ⟨[], by simp [hinit, toList_ofWay]⟩
  · refine ⟨(ofWay init).spelling.toList ++ ['/'], ?_⟩
    rw [toList_ofWay, List.map_append, intercalate_append (by simpa using hinit) (by simp), toList_ofWay]
    simp

/-- The spelling of a way ends in no separator, of whatever system. -/
theorem getLast?_ofWay (hway : PlainWay way) :
    ∃ c, (ofWay way).spelling.toList.getLast? = some c ∧ c ≠ '/' ∧ c ≠ '\\' := by
  obtain ⟨init, last, rfl⟩ := (List.eq_nil_or_concat way).resolve_left hway.some
  rw [List.concat_eq_append] at hway ⊢
  have hlast := hway.names last (by simp)
  obtain ⟨front, hfront⟩ := exists_toList_ofWay_concat init last
  have hmem := List.getLast_mem hlast.toList_ne_nil
  refine ⟨last.toList.getLast hlast.toList_ne_nil, ?_, ?_, ?_⟩
  · rw [hfront, List.getLast?_append, List.getLast?_eq_some_getLast hlast.toList_ne_nil]
    rfl
  · intro hc
    exact hlast.separator (hc ▸ hmem)
  · intro hc
    exact hlast.backslash (hc ▸ hmem)

theorem toList_ofWay_ne_nil (hway : PlainWay way) : (ofWay way).spelling.toList ≠ [] := by
  obtain ⟨c, hc, -⟩ := getLast?_ofWay hway
  intro hnil
  simp [hnil] at hc

theorem mem_toList_ofWay {c : Char} (h : c ∈ (ofWay way).spelling.toList) : c = '/' ∨ ∃ n ∈ way, c ∈ n.toList := by
  induction way with
  | nil => simp [toList_ofWay] at h
  | cons n rest ih =>
    by_cases hrest : rest = []
    · subst hrest
      have hn : c ∈ n.toList := by simpa [toList_ofWay] using h
      exact Or.inr ⟨n, List.mem_cons_self, hn⟩
    · rw [toList_ofWay, List.map_cons, List.intercalate_cons_of_ne_nil (by simpa using hrest), ← toList_ofWay] at h
      rcases List.mem_append.1 h with hn | hmore
      · rcases List.mem_append.1 hn with hn | hsep
        · exact Or.inr ⟨n, List.mem_cons_self, hn⟩
        · exact Or.inl (List.mem_singleton.1 hsep)
      · exact (ih hmore).imp id fun ⟨m, hm, hc⟩ => ⟨m, List.mem_cons_of_mem n hm, hc⟩

theorem zero_not_mem_ofWay (hway : PlainWay way) : '\x00' ∉ (ofWay way).spelling.toList := by
  intro hzero
  rcases mem_toList_ofWay hzero with hsep | ⟨n, hn, hc⟩
  · exact absurd hsep (by decide)
  · exact (hway.names n hn).zero hc

/-- A spelling whose first piece is not empty is relative. -/
theorem isAbsolute_of_splitOn {p : Path} {first : List Char} {rest : List (List Char)}
    (h : p.spelling.toList.splitOn '/' = first :: rest) (hfirst : first ≠ []) : p.isAbsolute = false := by
  rw [← Bool.not_eq_true]
  intro habsolute
  have hhead : p.spelling.toList.head? = some '/' := by simpa [isAbsolute] using habsolute
  obtain ⟨back, hback⟩ := List.head?_eq_some_iff.1 hhead
  have hsplit : p.spelling.toList.splitOn '/' = [] :: back.splitOn '/' := by
    rw [hback]
    exact @List.splitOn_append_cons_self _ _ _ '/' [] back
  rw [h] at hsplit
  exact hfirst (List.cons.inj hsplit).1

/-- A spelled way is relative. -/
theorem isAbsolute_ofWay (hway : PlainWay way) : (ofWay way).isAbsolute = false := by
  obtain ⟨first, rest, rfl⟩ := List.exists_cons_of_ne_nil hway.some
  exact isAbsolute_of_splitOn (splitOn_ofWay hway) (hway.names first List.mem_cons_self).toList_ne_nil

/-! ### Components -/

/-- Every text but the steps `.` and `..` is the name in a component. -/
theorem ofSegment?_name (hsome : n ≠ "") (hhere : n ≠ ".") (hup : n ≠ "..") :
    Component.ofSegment? n.toList = some (.name n) := by
  have hnil : n.toList ≠ [] := by simpa using hsome
  have hdot : n.toList ≠ ['.'] := fun h => hhere (String.toList_injective h)
  have hdots : n.toList ≠ ['.', '.'] := fun h => hup (String.toList_injective h)
  rw [Component.ofSegment?, if_neg (not_or.2 ⟨hnil, hdot⟩), if_neg hdots, String.ofList_toList]

theorem text_of_ofSegment? {s : String} {c : Component} (h : Component.ofSegment? s.toList = some c) : c.text = s := by
  unfold Component.ofSegment? at h
  split at h
  · simp at h
  · split at h
    next hup =>
      obtain rfl := Option.some.inj h
      exact (String.toList_injective hup).symm
    next =>
      obtain rfl := Option.some.inj h
      exact String.ofList_toList

/-- **A step:** a component that is read back from its text wherever the text stands between separators. -/
structure Component.IsStep (c : Component) : Prop where
  separator : '/' ∉ c.text.toList
  read : Component.ofSegment? c.text.toList = some c

namespace Component.IsStep

variable {c : Component}

theorem not_isVoid (hc : c.IsStep) : ¬ (c.text.toList = [] ∨ c.text.toList = ['.']) := by
  intro hvoid
  have hread := hc.read
  rw [Component.ofSegment?, if_pos hvoid] at hread
  simp at hread

theorem ne_nil (hc : c.IsStep) : c.text.toList ≠ [] := fun h => hc.not_isVoid (Or.inl h)

/-- A segment that stands for a component makes a step of it. -/
theorem of_segment {segment : List Char} (hsep : '/' ∉ segment) (h : Component.ofSegment? segment = some c) : c.IsStep := by
  have htext : c.text = String.ofList segment := text_of_ofSegment? (by rwa [String.toList_ofList])
  have hchars : c.text.toList = segment := by rw [htext, String.toList_ofList]
  exact ⟨by rwa [hchars], by rwa [hchars]⟩

end Component.IsStep

section Steps

variable {cs : List Component}

theorem splitOn_ofWay_steps (hsome : cs ≠ []) (hsteps : ∀ c ∈ cs, c.IsStep) :
    (ofWay (cs.map Component.text)).spelling.toList.splitOn '/' = cs.map fun c => c.text.toList := by
  have hpieces : (cs.map Component.text).map String.toList = cs.map fun c => c.text.toList := by
    rw [List.map_map]
    rfl
  rw [toList_ofWay, hpieces]
  refine List.splitOn_intercalate '/' (fun piece hpiece => ?_) (by simpa using hsome)
  obtain ⟨c, hc, rfl⟩ := List.mem_map.1 hpiece
  exact (hsteps c hc).separator

theorem filterMap_ofSegment?_steps (hsteps : ∀ c ∈ cs, c.IsStep) :
    (cs.map fun c => c.text.toList).filterMap Component.ofSegment? = cs := by
  rw [List.filterMap_map]
  exact (List.filterMap_congr fun c hc => (hsteps c hc).read).trans List.filterMap_some

theorem isAbsolute_ofWay_steps (hsome : cs ≠ []) (hsteps : ∀ c ∈ cs, c.IsStep) :
    (ofWay (cs.map Component.text)).isAbsolute = false := by
  obtain ⟨first, rest, rfl⟩ := List.exists_cons_of_ne_nil hsome
  exact isAbsolute_of_splitOn (splitOn_ofWay_steps hsome hsteps) (hsteps first List.mem_cons_self).ne_nil

/-- **Steps that are spelled out** are the components of the spelling. -/
theorem components_ofWay_steps (hsome : cs ≠ []) (hsteps : ∀ c ∈ cs, c.IsStep) :
    (ofWay (cs.map Component.text)).components = cs := by
  have hread := filterMap_ofSegment?_steps hsteps
  obtain ⟨first, rest, rfl⟩ := List.exists_cons_of_ne_nil hsome
  have hfirst := hsteps first List.mem_cons_self
  obtain ⟨hnil, hdot⟩ := not_or.1 hfirst.not_isVoid
  rw [List.map_cons, List.filterMap_cons, hfirst.read] at hread
  rw [components, componentsOf, splitOn_ofWay_steps hsome hsteps, List.map_cons]
  dsimp only
  rw [if_neg (not_and.2 fun h => absurd h hnil), if_neg hdot, hfirst.read]
  exact hread

end Steps

theorem map_text_names (way : Location) : (way.map Component.name).map Component.text = way := by
  rw [List.map_map]
  exact List.map_id' way

theorem isStep_of_mem_names (hway : PlainWay way) {c : Component} (hc : c ∈ way.map Component.name) : c.IsStep := by
  obtain ⟨n, hn, rfl⟩ := List.mem_map.1 hc
  have hname := hway.names n hn
  exact .of_segment hname.separator (ofSegment?_name hname.some hname.name.1 hname.name.2.1)

/-- **The components of a spelled way are its names.** -/
theorem components_ofWay (hway : PlainWay way) : (ofWay way).components = way.map .name := by
  have hnames := components_ofWay_steps (by simpa using hway.some) fun _ hc => isStep_of_mem_names hway hc
  rwa [map_text_names] at hnames

/-- What stands behind a separator adds its segments to the components. -/
theorem componentsOf_append_sep (front back : List Char) :
    componentsOf (front ++ '/' :: back) =
      componentsOf (front ++ ['/']) ++ (back.splitOn '/').filterMap Component.ofSegment? := by
  have hnil : (([] : List Char).splitOn '/').filterMap Component.ofSegment? = [] := rfl
  unfold componentsOf
  rw [List.splitOn_append_cons_self, List.splitOn_append_cons_self]
  obtain ⟨first, rest, hsplit⟩ := List.exists_cons_of_ne_nil (List.splitOn_ne_nil '/' front)
  have hmore : ∀ cs : List Char, rest ++ cs.splitOn '/' ≠ [] := fun cs h =>
    List.splitOn_ne_nil '/' cs (List.append_eq_nil_iff.1 h).2
  rw [hsplit, List.cons_append, List.cons_append]
  simp only [hmore, ne_eq, not_false_eq_true, and_true, List.filterMap_append, hnil, List.append_nil, List.append_assoc]

/-- A separator at the end is no component. -/
theorem componentsOf_concat_sep {cs : List Char} (hcs : cs ≠ []) : componentsOf (cs ++ ['/']) = componentsOf cs := by
  have hnil : ([] : List Char).splitOn '/' = [[]] := rfl
  unfold componentsOf
  rw [List.splitOn_append_cons_self, hnil]
  obtain ⟨first, rest, hsplit⟩ := List.exists_cons_of_ne_nil (List.splitOn_ne_nil '/' cs)
  rw [hsplit, List.cons_append]
  -- a path that begins with a separator has a segment behind it
  have hfront : first = [] → rest ≠ [] := by
    rintro rfl rfl
    have hwhole : ['/'].intercalate (cs.splitOn '/') = cs := List.intercalate_splitOn '/'
    rw [hsplit] at hwhole
    exact hcs hwhole.symm
  have hroot : (first = [] ∧ rest ++ [[]] ≠ []) ↔ (first = [] ∧ rest ≠ []) :=
    ⟨fun h => ⟨h.1, hfront h.1⟩, fun h => ⟨h.1, by simp⟩⟩
  have hvoid : [([] : List Char)].filterMap Component.ofSegment? = [] := rfl
  simp only [hroot, List.filterMap_append, hvoid, List.append_nil]

theorem components_dirOfWay (hway : PlainWay way) : (dirOfWay way).components = way.map .name := by
  have hdir : (dirOfWay way).spelling.toList = (ofWay way).spelling.toList ++ ['/'] := by simp [dirOfWay]
  rw [components, hdir, componentsOf_concat_sep (toList_ofWay_ne_nil hway)]
  exact components_ofWay hway

/-! ### Following a way from a directory -/

theorem isAbsolute_dirOfWay (hway : PlainWay way) : (dirOfWay way).isAbsolute = false := by
  have hfile := isAbsolute_ofWay hway
  obtain ⟨c, cs, hcs⟩ := List.exists_cons_of_ne_nil (toList_ofWay_ne_nil hway)
  rw [isAbsolute, hcs] at hfile
  rw [isAbsolute, dirOfWay, String.toList_append, hcs]
  exact hfile

/-- Where a relative path is joined to the path of a directory there is a separator. -/
theorem exists_join (hroot : root.spelling ≠ "") :
    ∃ front, (root.spelling.toList = front ∨ root.spelling.toList = front ++ ['/']) ∧ ∀ p : Path, p.isAbsolute = false →
      (root / p).spelling.toList = front ++ '/' :: p.spelling.toList := by
  by_cases hends : root.spelling.toList.getLast? = some '/'
  · obtain ⟨front, hfront⟩ := List.getLast?_eq_some_iff.1 hends
    -- a separator that is there already is not doubled
    refine ⟨front, Or.inr hfront, fun p hp => ?_⟩
    change (root.join p).spelling.toList = _
    simp only [join, hp, Bool.false_eq_true, if_false, hends, or_true, if_true]
    simp [hfront]
  · have hsome : ¬ (root.spelling.toList = [] ∨ root.spelling.toList.getLast? = some '/') :=
      not_or.2 ⟨by simpa using hroot, hends⟩
    refine ⟨root.spelling.toList, Or.inl rfl, fun p hp => ?_⟩
    change (root.join p).spelling.toList = _
    simp only [join, hp, Bool.false_eq_true, if_false, hsome]
    simp

theorem exists_join_ofWay (hroot : root.spelling ≠ "") :
    ∃ front, (root.spelling.toList = front ∨ root.spelling.toList = front ++ ['/']) ∧ ∀ way, PlainWay way →
      (root / ofWay way).spelling.toList = front ++ '/' :: (ofWay way).spelling.toList ∧
      (root / dirOfWay way).spelling.toList = front ++ '/' :: ((ofWay way).spelling.toList ++ ['/']) := by
  obtain ⟨front, hfront, hjoin⟩ := exists_join hroot
  refine ⟨front, hfront, fun way hway => ⟨hjoin _ (isAbsolute_ofWay hway), ?_⟩⟩
  rw [hjoin _ (isAbsolute_dirOfWay hway)]
  simp [dirOfWay]

theorem components_join_relative (hroot : root.spelling ≠ "") {p : Path} (hp : p.isAbsolute = false) :
    (root / p).components =
      root.components ++ (p.spelling.toList.splitOn '/').filterMap Component.ofSegment? := by
  obtain ⟨front, hfront, hjoin⟩ := exists_join hroot
  have hsome : root.spelling.toList ≠ [] := by simpa using hroot
  rw [components, hjoin p hp, componentsOf_append_sep, components]
  rcases hfront with hsame | hsame
  · rw [← hsame, componentsOf_concat_sep hsome]
  · rw [hsame]

theorem components_of_empty (hroot : root.spelling = "") : root.components = [] := by
  rw [components, hroot]
  decide

/-- **Following steps adds them to the components,** from wherever they are followed. -/
theorem components_join_steps (root : Path) {cs : List Component} (hsome : cs ≠ []) (hsteps : ∀ c ∈ cs, c.IsStep) :
    (root / ofWay (cs.map Component.text)).components = root.components ++ cs := by
  by_cases hroot : root.spelling = ""
  · rw [join_of_empty hroot, components_of_empty hroot, components_ofWay_steps hsome hsteps, List.nil_append]
  · rw [components_join_relative hroot (isAbsolute_ofWay_steps hsome hsteps), splitOn_ofWay_steps hsome hsteps,
      filterMap_ofSegment?_steps hsteps]

/-- **Following a way adds its names to the components.** -/
theorem components_join (root : Path) (hway : PlainWay way) :
    (root / ofWay way).components = root.components ++ way.map .name := by
  have hnames := components_join_steps root (by simpa using hway.some) fun _ hc => isStep_of_mem_names hway hc
  rwa [map_text_names] at hnames

/-- **Following a step adds it to the components,** from wherever it is followed. -/
theorem components_join_segment (root : Path) {c : Component} (hsep : '/' ∉ n.toList)
    (hc : Component.ofSegment? n.toList = some c) : (root / (⟨n⟩ : Path)).components = root.components ++ [c] := by
  have hstep := components_join_steps root (List.cons_ne_nil c []) (List.forall_mem_singleton.2 (.of_segment hsep hc))
  have hname : ofWay ([c].map Component.text) = ⟨n⟩ := by
    rw [List.map_singleton, text_of_ofSegment? hc, ofWay, String.intercalate_singleton]
  rwa [hname] at hstep

/-- Following a name adds it to the components. -/
theorem components_join_name (root : Path) (hsep : '/' ∉ n.toList) (hsome : n ≠ "") (hhere : n ≠ ".") (hup : n ≠ "..") :
    (root / (⟨n⟩ : Path)).components = root.components ++ [.name n] :=
  components_join_segment root hsep (ofSegment?_name hsome hhere hup)

theorem componentsBelow?_eq_some_iff {front cs below : List Component} :
    componentsBelow? front cs = some below ↔ cs = front ++ below := by
  induction front generalizing cs with
  | nil => simp [componentsBelow?]
  | cons c front ih =>
    cases cs with
    | nil => simp [componentsBelow?]
    | cons d cs =>
      rw [componentsBelow?]
      split
      next hcd => rw [ih, hcd, List.cons_append, List.cons.injEq, and_iff_right rfl]
      next hcd => simp [Ne.symm hcd]

/-- **The name of an entry spells out the components below the root,** if there are any. -/
theorem entryName?_eq_some_iff {p : Path} : entryName? root p = some n ↔
    ∃ below, below ≠ [] ∧ p.components = root.components ++ below ∧ n = (ofWay (below.map Component.text)).spelling := by
  unfold entryName?
  cases hbelow : componentsBelow? root.components p.components with
  | none =>
    refine iff_of_false (by simp) ?_
    rintro ⟨below, -, hp, -⟩
    rw [componentsBelow?_eq_some_iff.2 hp] at hbelow
    simp at hbelow
  | some below =>
    rw [componentsBelow?_eq_some_iff] at hbelow
    cases below with
    | nil =>
      refine iff_of_false (by simp) ?_
      rintro ⟨below, hsome, hp, -⟩
      exact hsome (List.append_cancel_left (hp.symm.trans hbelow))
    | cons c rest =>
      constructor
      · intro h
        exact ⟨c :: rest, List.cons_ne_nil c rest, hbelow, (Option.some.inj h).symm⟩
      · rintro ⟨below, -, hp, rfl⟩
        rw [List.append_cancel_left (hp.symm.trans hbelow)]
        rfl

/-- **The name of an entry is the way that leads to it.** -/
theorem entryName?_join (root : Path) (hway : PlainWay way) :
    entryName? root (root / ofWay way) = some (ofWay way).spelling := by
  refine entryName?_eq_some_iff.2 ⟨way.map .name, by simpa using hway.some, components_join root hway, ?_⟩
  rw [map_text_names]

/-! ### The order of paths -/

theorem compare_map_name (v w : Location) :
    compare (v.map Component.name) (w.map Component.name) = compare v w := by
  have hname : ∀ a b : String, compare (Component.name a) (Component.name b) = compare a b := fun _ _ => rfl
  induction v generalizing w with
  | nil => cases w <;> rfl
  | cons a v ih =>
    cases w with
    | nil => rfl
    | cons b w => rw [List.map_cons, List.map_cons, List.compare_cons_cons, List.compare_cons_cons, hname, ih]

/-- Spelled ways compare as the ways. -/
theorem compare_of_components {p q : Path} (hp : p.components = v.map .name) (hq : q.components = w.map .name) :
    compare p q = compare v w := by
  change compare p.components q.components = _
  rw [hp, hq, compare_map_name]

/-- **Paths below a directory compare as the ways to them.** -/
theorem compare_join (root : Path) (hv : PlainWay v) (hw : PlainWay w) :
    compare (root / ofWay v) (root / ofWay w) = compare v w := by
  change compare (root / ofWay v).components (root / ofWay w).components = _
  rw [components_join root hv, components_join root hw, compare_append_self, compare_map_name]

/-! ### Steps -/

theorem map_ofList_splitOn_ofWay (hway : PlainWay way) :
    ((ofWay way).spelling.toList.splitOn '/').map String.ofList = way := by
  rw [splitOn_ofWay hway, List.map_map]
  simp [Function.comp_def]

theorem segments_ofWay (hway : PlainWay way) : segments (ofWay way).spelling.toList = way := by
  rw [segments, map_ofList_splitOn_ofWay hway, List.filter_eq_self]
  intro n hn
  simpa using (hway.names n hn).some

/-- **The steps of a spelled way are its names.** -/
theorem steps_ofWay (hway : PlainWay way) : steps (ofWay way) = way := by
  obtain ⟨init, last, rfl⟩ := (List.eq_nil_or_concat way).resolve_left hway.some
  rw [List.concat_eq_append] at hway ⊢
  have hlast := (hway.names last (by simp)).some
  have hinit : init.filter (· != "") = init := by
    rw [List.filter_eq_self]
    intro n hn
    simpa using (hway.names n (by simp [hn])).some
  unfold steps
  rw [map_ofList_splitOn_ofWay hway]
  simp only [List.dropLast_concat, List.getLast?_concat, hinit]

/-- A separator at the end asks for a directory. -/
theorem steps_dirOfWay (hway : PlainWay way) : steps (dirOfWay way) = way ++ ["."] := by
  have hdir : (dirOfWay way).spelling.toList = (ofWay way).spelling.toList ++ '/' :: [] := by simp [dirOfWay]
  have hnone : steps ⟨String.ofList []⟩ = ["."] := by decide
  rw [steps_append_sep hdir, segments_ofWay hway, hnone]

/-- A path to a file does not end in a separator. -/
theorem endsInSeparator_join (hroot : root.spelling ≠ "") (hway : PlainWay way) :
    endsInSeparator (root / ofWay way) = false := by
  obtain ⟨front, -, hjoins⟩ := exists_join_ofWay hroot
  obtain ⟨c, hc, hsep, -⟩ := getLast?_ofWay hway
  have hlast : (front ++ '/' :: (ofWay way).spelling.toList).getLast? = some c := by
    rw [List.getLast?_append, List.getLast?_cons, hc]
    rfl
  rw [endsInSeparator, (hjoins way hway).1, hlast]
  simpa using hsep

/-- Without the separator at its end a path to a directory is the path to a file. -/
theorem withoutEndSeparators_join (hroot : root.spelling ≠ "") (hway : PlainWay way) :
    withoutEndSeparators (root / dirOfWay way) = root / ofWay way := by
  obtain ⟨front, -, hjoins⟩ := exists_join_ofWay hroot
  obtain ⟨hjoin, hdir⟩ := hjoins way hway
  obtain ⟨c, hc, hsep, -⟩ := getLast?_ofWay hway
  obtain ⟨before, hbefore⟩ := List.getLast?_eq_some_iff.1 hc
  -- a plain way ends in a character that is no separator, so exactly one is taken off
  have hrev : (root / dirOfWay way).spelling.toList.reverse = '/' :: c :: (front ++ '/' :: before).reverse := by
    rw [hdir, hbefore]
    simp
  have hsame : root / ofWay way = ⟨String.ofList (front ++ '/' :: before ++ [c])⟩ := by
    have hspelling : (root / ofWay way).spelling = String.ofList (front ++ '/' :: before ++ [c]) := by
      rw [← String.toList_inj, hjoin, hbefore, String.toList_ofList, List.append_assoc, List.cons_append]
    exact congrArg Path.mk hspelling
  unfold withoutEndSeparators
  rw [hrev, hsame]
  simp [hsep]

/-- A path below a directory can be looked up if it is short enough. -/
theorem admissible_join (hroot : Admissible root) (hway : PlainWay way)
    (hshort : (root / ofWay way).spelling.utf8ByteSize < maxPath) : Admissible (root / ofWay way) where
  zero := by
    obtain ⟨front, hfront, hjoins⟩ := exists_join_ofWay hroot.some
    have hbefore : '\x00' ∉ front := by
      intro hzero
      rcases hfront with hsame | hsame <;> exact hroot.zero (by simp [hsame, hzero])
    rw [(hjoins way hway).1, List.mem_append, List.mem_cons]
    rintro (hzero | hzero | hzero)
    · exact hbefore hzero
    · exact absurd hzero (by decide)
    · exact zero_not_mem_ofWay hway hzero
  some := join_ne_empty hroot.some (isAbsolute_ofWay hway)
  short := hshort

/-! ### The parent of an entry -/

/-- The segments behind a separator are the last ones of a path. -/
theorem exists_markAndBody_append_sep (front back : List Char) :
    ∃ before, (markAndBody (front ++ '/' :: back)).2 = before ++ back.splitOn '/' := by
  generalize hcs : front ++ '/' :: back = cs
  unfold markAndBody
  split
  next rest =>
    -- the separator is the root, or is in what follows the root
    cases front with
    | nil => exact ⟨[], by rw [← (List.cons.inj hcs).2]; rfl⟩
    | cons c front =>
      obtain ⟨-, rfl⟩ := List.cons.inj hcs
      exact ⟨front.splitOn '/', List.splitOn_append_cons_self ..⟩
  next =>
    rcases front with - | ⟨c, front⟩ <;> simp at hcs
  next rest =>
    rcases front with - | ⟨c, - | ⟨d, front⟩⟩
    · simp at hcs
    · obtain ⟨-, rfl⟩ : c = '.' ∧ back = rest := by simpa using hcs
      exact ⟨[[]], rfl⟩
    · obtain ⟨-, -, rfl⟩ : c = '.' ∧ d = '/' ∧ front ++ '/' :: back = rest := by simpa using hcs
      exact ⟨[] :: front.splitOn '/', by rw [List.splitOn_append_cons_self]; rfl⟩
  next => exact ⟨front.splitOn '/', by rw [← hcs]; exact List.splitOn_append_cons_self ..⟩

theorem isVoid_toList (hn : PlainName n) : isVoid n.toList = false := by
  simp [isVoid, hn.toList_ne_nil, hn.toList_ne_dot]

/-- A name is one segment. -/
theorem splitOn_toList (hn : PlainName n) : n.toList.splitOn '/' = [n.toList] := List.splitOn_eq_singleton hn.separator

/-- **The parent of an entry two steps down** is one step down. -/
theorem parent?_join {first last : String} (hroot : root.spelling ≠ "") (hway : PlainWay [first, last]) :
    (root / ofWay [first, last]).parent? = some (root / ofWay [first]) := by
  have hfirst := hway.names first (by simp)
  have hlast := hway.names last (by simp)
  have hone : PlainWay [first] := .front [last] hway (by simp)
  obtain ⟨front, -, hjoins⟩ := exists_join_ofWay hroot
  have hspelled : (ofWay [first, last]).spelling.toList = first.toList ++ '/' :: last.toList := by simp [toList_ofWay]
  have hjoin : (root / ofWay [first, last]).spelling.toList = front ++ '/' :: (first.toList ++ '/' :: last.toList) := by
    rw [(hjoins _ hway).1, hspelled]
  have hparent : (root / ofWay [first]).spelling.toList = front ++ '/' :: first.toList := by
    rw [(hjoins _ hone).1]
    simp [toList_ofWay]
  -- the two names are the last segments, and none of them is void
  obtain ⟨before, hbody⟩ := exists_markAndBody_append_sep front (first.toList ++ '/' :: last.toList)
  rw [List.splitOn_append_cons_self, splitOn_toList hfirst, splitOn_toList hlast] at hbody
  obtain ⟨hwhole, -⟩ := markAndBody_eq (front ++ '/' :: (first.toList ++ '/' :: last.toList))
  unfold parent?
  rw [hjoin]
  revert hbody hwhole
  generalize markAndBody (front ++ '/' :: (first.toList ++ '/' :: last.toList)) = split
  obtain ⟨mark, body⟩ := split
  rintro hbody hwhole
  dsimp only at hbody hwhole
  subst hbody
  -- so the spelling up to the last separator is what is left
  have hlong : before ++ ([first.toList] ++ [last.toList]) = (before ++ [first.toList]) ++ [last.toList] := by simp
  rw [hlong, intercalate_append (by simp) (by simp), ← List.append_assoc] at hwhole
  have hend : front ++ '/' :: (first.toList ++ '/' :: last.toList) =
      (front ++ '/' :: first.toList) ++ '/' :: last.toList := by simp
  have hcut : front ++ '/' :: first.toList = mark ++ ['/'].intercalate (before ++ [first.toList]) :=
    List.append_inj_left' (hend.symm.trans hwhole) (by simp)
  have hspelling : (root / ofWay [first]).spelling =
      String.ofList (mark ++ ['/'].intercalate (before ++ [first.toList])) := by
    rw [← String.toList_inj, hparent, hcut, String.toList_ofList]
  have hsame : root / ofWay [first] = ⟨String.ofList (mark ++ ['/'].intercalate (before ++ [first.toList]))⟩ :=
    congrArg Path.mk hspelling
  rw [hsame]
  simp [isVoid_toList hfirst, isVoid_toList hlast]

theorem spelling_join_dirOfWay (hroot : root.spelling ≠ "") (hway : PlainWay way) :
    (root / dirOfWay way).spelling = (root / ofWay way).spelling ++ "/" := by
  obtain ⟨front, -, hjoins⟩ := exists_join_ofWay hroot
  obtain ⟨hjoin, hdir⟩ := hjoins way hway
  rw [← String.toList_inj, hdir, String.toList_append, hjoin]
  simp

/-- A path to a directory can be looked up if there is room for the separator. -/
theorem admissible_join_dirOfWay (hroot : Admissible root) (hway : PlainWay way)
    (hshort : (root / dirOfWay way).spelling.utf8ByteSize < maxPath) :
    Admissible (root / ofWay way) ∧ Admissible (root / dirOfWay way) := by
  have hspelling := spelling_join_dirOfWay hroot.some hway
  have hless : (root / ofWay way).spelling.utf8ByteSize < maxPath := by
    rw [hspelling, String.utf8ByteSize_append] at hshort
    omega
  have hfile := admissible_join hroot hway hless
  refine ⟨hfile, ?_, ?_, hshort⟩
  · rw [hspelling, String.toList_append, List.mem_append]
    rintro (hzero | hzero)
    · exact hfile.zero hzero
    · exact absurd hzero (by decide)
  · rw [hspelling]
    simp

end Path

/-! ### Names in an archive -/

namespace Zip.Member

open Files Recompile.Path

variable {way : Location}

/-- Names that lead down only are not left again. -/
theorem foldl_depthAfter_names (way : Location) (n : Nat) :
    (way.map Component.name).foldl depthAfter (some n) = some (n + way.length) := by
  induction way generalizing n with
  | nil => rfl
  | cons name rest ih =>
    rw [List.map_cons, List.foldl_cons]
    change List.foldl depthAfter (some (n + 1)) _ = _
    rw [ih, List.length_cons, Nat.add_assoc, Nat.add_comm 1]

/-- A name that leads down only stands for a path below the directory. -/
theorem enclosed?_of_components {name : String} (hzero : '\x00' ∉ name.toList)
    (hcomponents : (⟨name⟩ : Path).components = way.map .name) : enclosed? name = some ⟨name⟩ := by
  have hplain : name.toList.contains '\x00' = false := by simpa using hzero
  rw [enclosed?, hplain]
  dsimp only
  rw [hcomponents, foldl_depthAfter_names]
  rfl

/-- **The name of a file leads below the directory.** -/
theorem enclosed?_ofWay (hway : PlainWay way) : enclosed? (ofWay way).spelling = some (ofWay way) :=
  enclosed?_of_components (zero_not_mem_ofWay hway) (components_ofWay hway)

/-- **The name of a directory leads below the directory.** -/
theorem enclosed?_dirOfWay (hway : PlainWay way) : enclosed? (dirOfWay way).spelling = some (dirOfWay way) := by
  have hzero : '\x00' ∉ (dirOfWay way).spelling.toList := by
    have hfile := zero_not_mem_ofWay hway
    simpa [dirOfWay] using hfile
  exact enclosed?_of_components hzero (components_dirOfWay hway)

/-- A member with the name of a file is none of a directory. -/
theorem isDir_of_name_ofWay {m : Zip.Member} (hway : PlainWay way) (hm : m.name = (ofWay way).spelling) :
    m.isDir = false := by
  obtain ⟨c, hc, hsep, hback⟩ := getLast?_ofWay hway
  rw [isDir, hm, hc]
  simp [hsep, hback]

theorem isDir_of_name_dirOfWay {m : Zip.Member} (hm : m.name = (dirOfWay way).spelling) : m.isDir = true := by
  have hlast : (dirOfWay way).spelling.toList.getLast? = some '/' := by simp [dirOfWay]
  rw [isDir, hm, hlast]
  rfl

end Zip.Member

end Recompile

import Recompile.Proofs.Parents

/-!
# Making directories one at a time

To make a directory and those above it, `Files.makeDirs` goes up from the path until it can make one, and then down again.
Each directory that it makes is at a place to which the first names of the path lead, and where nothing was. So a property
of the tree is kept as soon as it is kept when such a directory is made (`Files.makeDirAll_induct`).

The parent of a path is a spelling of its own, and on the way down a path is followed from the place of its parent. What
holds both together are the names in the spelling: those of the parent and then those that the path adds to it are the
names of the path (`Files.segments_parent?`).
-/

namespace Recompile

namespace Files

/-! ### Where names lead -/

/-- **Names lead to a place,** along links where there are some, of which so many are followed as it takes. -/
def LeadsTo (f : Files) (here : Location) (names : List String) (r : Place) : Prop :=
  ∃ links, f.walk true links here names = .ok r

section Leads

variable {f g : Files} {here loc : Location} {names first second : List String} {r r' : Place}

/-- A walk that ends does so if it may follow more links. -/
theorem walk_more {links : Nat} (h : f.walk true links here names = .ok r) (more : Nat) :
    f.walk true (links + more) here names = .ok r := by
  refine walk_induct (motive := fun links here names r => f.walk true (links + more) here names = .ok r)
    ?stop ?dot ?up ?last ?enter ?through h
  case stop => exact fun _ _ => walk_nil ..
  case dot | up =>
    intro links here rest r ih
    simpa using ih
  case last => exact fun _ _ _ _ hstep hnode _ hlink => walk_last hstep hnode hlink
  case enter =>
    intro links here step rest r hstep hnode ih
    rw [walk_enter hstep hnode]
    exact ih
  case through =>
    intro links here step rest target r hstep hnode hmore ih
    rw [Nat.succ_add, walk_through hstep hnode hmore]
    exact ih

namespace LeadsTo

theorem unique (h : f.LeadsTo here names r) (h' : f.LeadsTo here names r') : r = r' := by
  obtain ⟨links, hwalk⟩ := h
  obtain ⟨links', hwalk'⟩ := h'
  have hmore := walk_more hwalk links'
  rw [Nat.add_comm, walk_more hwalk' links] at hmore
  exact (Except.ok.inj hmore).symm

theorem nil (f : Files) (loc : Location) : f.LeadsTo loc [] ⟨loc, some .dir⟩ := ⟨0, walk_nil ..⟩

/-- Names that lead on from a directory. -/
theorem append (h : f.LeadsTo here first ⟨loc, some .dir⟩) (h' : f.LeadsTo loc second r) :
    f.LeadsTo here (first ++ second) r := by
  obtain ⟨links, hwalk⟩ := h
  refine walk_induct (motive := fun _ here names r' => r' = ⟨loc, some .dir⟩ → f.LeadsTo here (names ++ second) r)
    ?stop ?dot ?up ?last ?enter ?through hwalk rfl
  case stop =>
    intro _ here hr
    obtain ⟨rfl, -⟩ := Place.mk.inj hr
    -- the first names are walked, and the rest goes on from there
    exact h'
  case dot | up =>
    intro _ here rest r' ih hr
    obtain ⟨left, hrest⟩ := ih hr
    exact ⟨left, by simpa using hrest⟩
  case last => exact fun _ _ _ _ _ _ hdir _ hr => absurd (Place.mk.inj hr).2 hdir
  case enter =>
    intro _ here step rest r' hstep hnode ih hr
    obtain ⟨left, hrest⟩ := ih hr
    exact ⟨left, by rw [List.cons_append, walk_enter hstep hnode, hrest]⟩
  case through =>
    intro _ here step rest target r' hstep hnode _ ih hr
    obtain ⟨left, hrest⟩ := ih hr
    refine ⟨left + 1, ?_⟩
    rw [List.cons_append, walk_through hstep hnode (by simp), ← List.append_assoc, hrest]

/-- Names that are divided lead to a directory first and then on from there. -/
theorem split (h : f.LeadsTo here (first ++ second) r) (hsecond : second ≠ []) :
    ∃ loc, f.LeadsTo here first ⟨loc, some .dir⟩ ∧ f.LeadsTo loc second r := by
  obtain ⟨links, hwalk⟩ := h
  obtain ⟨loc, left, hfirst, hrest⟩ := walk_append hsecond hwalk
  exact ⟨loc, ⟨links, hfirst⟩, left, hrest⟩

theorem put {old : Option Node} {node : Node} (h : f.LeadsTo here names ⟨loc, old⟩)
    (hold : ∀ found, old = some found → found.isFile = true) (hlink : ∀ target, node ≠ .link target) :
    (f.put loc node).LeadsTo here names ⟨loc, some node⟩ := by
  obtain ⟨links, hwalk⟩ := h
  exact ⟨links, walk_put hold hlink hwalk⟩

/-- Where the directories and links are kept the way to a directory is kept. -/
theorem dir_of_waysKept (h : f.LeadsTo here names ⟨loc, some .dir⟩) (hways : f.WaysKeptIn g) :
    g.LeadsTo here names ⟨loc, some .dir⟩ := by
  obtain ⟨links, hwalk⟩ := h
  exact ⟨links, walk_of_waysKept hways hwalk fun hdir => absurd rfl hdir⟩

theorem node_eq (h : f.LeadsTo here names r) : r.node = some .dir ∨ r.loc ≠ [] ∧ r.node = f.node? r.loc := by
  obtain ⟨links, hwalk⟩ := h
  exact walk_end hwalk

end LeadsTo

theorem leadsTo_of_place {cwd : Location} {follow : Bool} {p : Path} (h : f.place cwd follow p = .ok r)
    (hlink : ∀ target, r.node ≠ some (.link target)) : f.LeadsTo (start cwd p) (segments p.spelling.toList) r := by
  obtain ⟨-, hwalk⟩ : Admissible p ∧ f.walk true maxLinks (start cwd p) (steps p) = .ok r := by
    cases follow with
    | true => exact place_eq_ok_iff.1 h
    | false => exact place_eq_ok_iff.1 (place_true_of_not_link h hlink)
  rcases steps_eq p with hsteps | hsteps
  · exact ⟨maxLinks, hsteps ▸ hwalk⟩
  · -- the step behind the names asks for a directory and stays there
    rw [hsteps] at hwalk
    obtain ⟨loc, left, hfirst, hdot⟩ := walk_append (by simp) hwalk
    obtain rfl : ⟨loc, some .dir⟩ = r := by simpa using hdot
    exact ⟨maxLinks, hfirst⟩

/-- A directory is there if a path below it leads anywhere. -/
theorem exists_leadsTo_of_place_join {cwd : Location} {dest p : Path} (hdest : dest.spelling ≠ "") (hp : p.isAbsolute = false)
    (h : f.place cwd true (dest / p) = .ok r) :
    ∃ dir, f.LeadsTo (start cwd dest) (segments dest.spelling.toList) ⟨dir, some .dir⟩ := by
  obtain ⟨-, hwalk⟩ := place_eq_ok_iff.1 h
  rw [steps_join hdest hp, ← start_join hdest hp] at hwalk
  obtain ⟨dir, left, hfirst, -⟩ := walk_append (steps_ne_nil _) hwalk
  exact ⟨dir, maxLinks, hfirst⟩

end Leads

/-! ### The names of a path and of its parent -/

theorem segments_dropWhile (cs : List Char) : segments (cs.dropWhile (· == '/')) = segments cs := by
  induction cs with
  | nil => rfl
  | cons c rest ih =>
    by_cases hc : c = '/'
    · subst hc
      have hcut : segments ('/' :: rest) = segments rest := segments_append_sep [] rest
      rw [hcut, List.dropWhile_cons_of_pos (by simp), ih]
    · rw [List.dropWhile_cons_of_neg (by simpa using hc)]

/-- The names of a spelling are that of its mark, if it is one, and those behind it. -/
theorem segments_eq_body (cs : List Char) :
    segments cs = segments (Path.markAndBody cs).1 ++ segments (['/'].intercalate (Path.markAndBody cs).2) := by
  unfold Path.markAndBody
  split
  next rest =>
    rw [List.intercalate_splitOn]
    exact segments_append_sep [] rest
  next => rfl
  next rest =>
    rw [List.intercalate_cons_of_ne_nil (List.splitOn_ne_nil _ _), List.intercalate_splitOn]
    exact segments_append_sep ['.'] rest
  next => rw [List.intercalate_splitOn, segments_nil, List.nil_append]

theorem mark_of_isAbsolute {p : Path} (hp : p.isAbsolute = true) : (Path.markAndBody p.spelling.toList).1 = ['/'] := by
  have hhead : p.spelling.toList.head? = some '/' := by simpa [Path.isAbsolute] using hp
  obtain ⟨rest, hspelling⟩ := List.head?_eq_some_iff.1 hhead
  rw [hspelling]
  rfl

/-- **The parent of a path is a front of it,** and the names are divided there. -/
theorem exists_split_of_parent? {q up : Path} (h : q.parent? = some up) :
    ∃ back, q.spelling.toList = up.spelling.toList ++ back ∧
      segments q.spelling.toList = segments up.spelling.toList ++ segments back ∧
      (up.spelling.toList = [] → q.isAbsolute = false) := by
  -- an absolute spelling begins with its mark, which any parent keeps
  have hrelative : (Path.markAndBody q.spelling.toList).1 ≠ ['/'] → q.isAbsolute = false := by
    intro hmark
    rw [← Bool.not_eq_true]
    exact fun habsolute => hmark (mark_of_isAbsolute habsolute)
  obtain ⟨hwhole, -⟩ := markAndBody_eq q.spelling.toList
  rcases exists_cut_of_parent? h with ⟨hmark, -, rfl⟩ | ⟨init, dropped, last, voids, hbody, -, -, -, -, rfl⟩
  · exact ⟨q.spelling.toList, rfl, rfl, fun _ => hrelative (by simp [hmark])⟩
  · rw [String.toList_ofList]
    by_cases hinit : init = []
    · -- the parent is what is in front of all segments
      subst hinit
      rw [List.intercalate_nil, List.append_nil]
      exact ⟨_, hwhole, segments_eq_body q.spelling.toList, fun hnone => hrelative (by simp [hnone])⟩
    · rw [hbody, intercalate_append hinit (by simp), ← List.append_assoc] at hwhole
      refine ⟨_, hwhole, ?_, fun hnone => hrelative ?_⟩
      · have hsep : ∀ back, segments ('/' :: back) = segments back := segments_append_sep []
        rw [hsep, ← segments_append_sep, ← hwhole]
      · rw [(List.append_eq_nil_iff.1 hnone).1]
        simp

/-- **The names of a path** are those of its parent and then those that it adds to the parent. -/
theorem segments_parent? {q up : Path} (h : q.parent? = some up) :
    segments q.spelling.toList = segments up.spelling.toList ++ segments (rest up q).spelling.toList := by
  obtain ⟨back, hq, hsplit, -⟩ := exists_split_of_parent? h
  have hlength : up.spelling.length = up.spelling.toList.length := String.length_toList.symm
  rw [hsplit, rest, String.toList_ofList, segments_dropWhile, hq, hlength, List.drop_left]

theorem start_parent? {q up : Path} (h : q.parent? = some up) (cwd : Location) : start cwd up = start cwd q := by
  obtain ⟨back, hq, -, hrelative⟩ := exists_split_of_parent? h
  by_cases hnone : up.spelling.toList = []
  · have hup : up.isAbsolute = false := by simp [Path.isAbsolute, hnone]
    rw [start, start, hup, hrelative hnone]
  · have hfront : start cwd (String.ofList up.spelling.toList) = start cwd q := start_front hq hnone
    rwa [String.ofList_toList] at hfront

theorem isAbsolute_rest (up q : Path) : (rest up q).isAbsolute = false := by
  rw [rest, Path.isAbsolute, String.toList_ofList]
  have hhead := List.head?_dropWhile_not (· == '/') (q.spelling.toList.drop up.spelling.length)
  cases hfirst : ((q.spelling.toList.drop up.spelling.length).dropWhile (· == '/')).head? with
  | none => rfl
  | some c =>
    rw [hfirst] at hhead
    simpa using hhead

theorem segments_withoutEndSeparators (p : Path) :
    segments (withoutEndSeparators p).spelling.toList = segments p.spelling.toList := by
  -- the spelling is a core and then separators, and those spell no segments
  have hsplit := List.takeWhile_append_dropWhile (p := (· == '/')) (l := p.spelling.toList.reverse)
  have hseps : ((p.spelling.toList.reverse.takeWhile (· == '/')).reverse.dropWhile (· == '/')) = [] := by
    rw [List.dropWhile_eq_nil_iff]
    intro c hc
    exact List.mem_takeWhile_imp (p := (· == '/')) (List.mem_reverse.1 hc)
  unfold withoutEndSeparators
  revert hsplit hseps
  generalize p.spelling.toList.reverse.takeWhile (· == '/') = seps
  generalize p.spelling.toList.reverse.dropWhile (· == '/') = core
  intro hsplit hseps
  have hp : p.spelling.toList = core.reverse ++ seps.reverse := by
    rw [← List.reverse_append, hsplit, List.reverse_reverse]
  dsimp only
  split
  next => rfl
  next =>
    rw [String.toList_ofList, hp]
    cases hback : seps.reverse with
    | nil => rw [List.append_nil]
    | cons c back =>
      rw [hback] at hseps
      obtain rfl : c = '/' := by
        by_contra hc
        rw [List.dropWhile_cons_of_neg (by simpa using hc)] at hseps
        simp at hseps
      have hnone : segments ('/' :: back) = [] := by rw [← segments_dropWhile, hseps, segments_nil]
      have hsep : segments ('/' :: back) = segments back := segments_append_sep [] back
      rw [segments_append_sep, ← hsep, hnone, List.append_nil]

theorem start_withoutEndSeparators (cwd : Location) (p : Path) : start cwd (withoutEndSeparators p) = start cwd p := by
  rcases withoutEndSeparators_eq p with hsame | ⟨front, back, hfront, hp, hcut⟩
  · rw [hsame]
  · rw [hcut]
    exact start_front hp hfront

/-! ### Making directories -/

/-- **A property of a tree that is kept** when a directory is made where the first of some names lead and nothing was. -/
def KeptByMaking (I : Files → Prop) (here : Location) (names : List String) : Prop :=
  ∀ f loc front, I f → front <+: names → f.LeadsTo here front ⟨loc, none⟩ → I (f.put loc .dir)

section Making

variable {I : Files → Prop} {f g : Files} {cwd loc : Location} {q : Path}

theorem KeptByMaking.of_front {here : Location} {names front : List String} (h : KeptByMaking I here names)
    (hfront : front <+: names) : KeptByMaking I here front :=
  fun f loc first hf hfirst hleads => h f loc first hf (hfirst.trans hfront) hleads

theorem of_makeDirAt (h : f.makeDirAt cwd q = .ok (loc, g)) :
    f.LeadsTo (start cwd q) (segments q.spelling.toList) ⟨loc, none⟩ ∧ g = f.put loc .dir := by
  obtain ⟨hplace, rfl⟩ := makeDirAt_eq_ok_iff.1 h
  have hleads := leadsTo_of_place hplace (by simp)
  rw [start_withoutEndSeparators, segments_withoutEndSeparators] at hleads
  exact ⟨hleads, rfl⟩

variable (hkept : KeptByMaking I (start cwd q) (segments q.spelling.toList))

include hkept

/-- A directory that is made, or is there, is where its path leads. -/
theorem of_orThere {made : Except Fault (Location × Files)} (hf : I f)
    (hmade : ∀ loc g, made = .ok (loc, g) →
      f.LeadsTo (start cwd q) (segments q.spelling.toList) ⟨loc, none⟩ ∧ g = f.put loc .dir) :
    I (f.orThere cwd q made).2 ∧ ∀ loc, (f.orThere cwd q made).1 = .ok loc →
      (f.orThere cwd q made).2.LeadsTo (start cwd q) (segments q.spelling.toList) ⟨loc, some .dir⟩ := by
  unfold orThere
  split
  next loc g =>
    obtain ⟨hleads, rfl⟩ := hmade loc g rfl
    refine ⟨hkept f loc _ hf (List.prefix_refl _) hleads, fun other hother => ?_⟩
    obtain rfl := Except.ok.inj hother
    exact hleads.put (by simp) (by simp)
  -- making failed, but the directory may be there already
  next =>
    split
    next loc hplace =>
      refine ⟨hf, fun other hother => ?_⟩
      obtain rfl := Except.ok.inj hother
      exact leadsTo_of_place hplace (by simp)
    next =>
      refine ⟨hf, fun _ hother => ?_⟩
      cases hother

theorem of_makeDirs_cons {up : List Path} (hf : I f) (hup : I (f.makeDirs cwd up).2)
    (hfrom : ∀ base, (f.makeDirs cwd up).1 = .ok base → ∀ loc g,
      (f.makeDirs cwd up).2.makeDirAt base (rest (up.headD "") q) = .ok (loc, g) →
      (f.makeDirs cwd up).2.LeadsTo (start cwd q) (segments q.spelling.toList) ⟨loc, none⟩) :
    I (f.makeDirs cwd (q :: up)).2 ∧ ∀ loc, (f.makeDirs cwd (q :: up)).1 = .ok loc →
      (f.makeDirs cwd (q :: up)).2.LeadsTo (start cwd q) (segments q.spelling.toList) ⟨loc, some .dir⟩ := by
  unfold makeDirs
  split
  next hempty =>
    -- the empty path is where one is
    refine ⟨hf, fun loc hloc => ?_⟩
    obtain rfl := Except.ok.inj hloc
    have hstart : start cwd q = cwd := by simp [start, Path.isAbsolute, hempty]
    rw [hstart, hempty]
    exact .nil f cwd
  next =>
    split
    next =>
      rcases hrun : f.makeDirs cwd up with ⟨base | fault, g⟩
      · rw [hrun] at hup
        refine ⟨hup, fun _ hloc => ?_⟩
        cases hloc
      · rw [hrun] at hup hfrom
        exact of_orThere hkept hup fun loc g' hmade =>
          ⟨hfrom _ rfl loc g' hmade, (makeDirAt_eq_ok_iff.1 hmade).2⟩
    next => exact of_orThere hkept hf fun loc g hmade => of_makeDirAt hmade

theorem of_makeDirs_single (hf : I f) :
    I (f.makeDirs cwd [q]).2 ∧ ∀ loc, (f.makeDirs cwd [q]).1 = .ok loc →
      (f.makeDirs cwd [q]).2.LeadsTo (start cwd q) (segments q.spelling.toList) ⟨loc, some .dir⟩ := by
  refine of_makeDirs_cons hkept hf hf fun _ hbase => ?_
  cases hbase

omit hkept in
/-- **Making the directories of a path,** from the path upwards. -/
theorem of_makeDirs {fuel : Nat} (hkept : KeptByMaking I (start cwd q) (segments q.spelling.toList)) (hf : I f) :
    I (f.makeDirs cwd (ancestors fuel q)).2 ∧ ∀ loc, (f.makeDirs cwd (ancestors fuel q)).1 = .ok loc →
      (f.makeDirs cwd (ancestors fuel q)).2.LeadsTo (start cwd q) (segments q.spelling.toList) ⟨loc, some .dir⟩ := by
  induction fuel generalizing q with
  | zero => exact of_makeDirs_single hkept hf
  | succ fuel ih =>
    unfold ancestors
    split
    next up hparent =>
      have hstart := start_parent? hparent cwd
      have hnames := segments_parent? hparent
      -- the first names of the parent are the first names of the path
      have hkeptUp : KeptByMaking I (start cwd up) (segments up.spelling.toList) := by
        rw [hstart]
        exact hkept.of_front (hnames ▸ List.prefix_append _ _)
      obtain ⟨hup, hleads⟩ := ih hkeptUp
      refine of_makeDirs_cons hkept hf hup fun base hbase loc g hmade => ?_
      obtain ⟨more, hmore⟩ := exists_ancestors fuel up
      rw [hmore, List.headD_cons, ← hmore] at hmade
      have hon := (of_makeDirAt hmade).1
      rw [start, isAbsolute_rest, if_neg Bool.false_ne_true] at hon
      -- the parent leads to where the last directory is made from
      have hwhole := (hleads base hbase).append hon
      rwa [← hnames, hstart] at hwhole
    next => exact of_makeDirs_single hkept hf

/-- **What is kept by making the directories of a path one at a time** is kept by making all of them, whatever comes of it. -/
theorem makeDirAll_induct (hf : I f) : I (f.makeDirAll cwd q).2 := (of_makeDirs hkept hf).1

end Making

end Files

end Recompile

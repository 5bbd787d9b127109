import Recompile.Archive.Zip.Member
import Recompile.Proofs.Place

/-!
# Trees without links

Where there are no links, a path leads where its spelling says. `Files.spelled` is that place, and a walk that ends
anywhere ends there (`Files.Linkless.walk_loc`). So the entries of an archive stay below the directory in which they are
unpacked, though their names may contain `..` (`Files.prefix_spelled_of_enclosed`), and a file is found by its path as long
as the directories on the way to it are there (`Files.Linkless.walk_of_way`).
-/

namespace Recompile

namespace Files

/-! ### Where a spelling leads -/

/-- Where one step leads from a directory. -/
def spelledStep (here : Location) (step : String) : Location :=
  if step = "." then here else if step = ".." then here.dropLast else here ++ [step]

/-- **Where names lead,** if there are no links on the way. -/
def spelled (here : Location) (names : List String) : Location := names.foldl spelledStep here

@[simp] theorem spelled_nil (here : Location) : spelled here [] = here := rfl

@[simp] theorem spelled_cons (here : Location) (step : String) (names : List String) :
    spelled here (step :: names) = spelled (spelledStep here step) names := rfl

theorem spelled_append (here : Location) (first second : List String) :
    spelled here (first ++ second) = spelled (spelled here first) second := List.foldl_append

theorem spelledStep_of_isName {step : String} (hstep : IsName step) (here : Location) :
    spelledStep here step = here ++ [step] := by
  obtain ⟨hdot, hup, -⟩ := hstep
  unfold spelledStep
  rw [if_neg hdot, if_neg hup]

/-- The place of a path by its spelling. -/
def placeOf (cwd : Location) (p : Path) : Location := spelled (start cwd p) (steps p)

/-- A step `.` behind a path leads nowhere else. -/
theorem spelled_steps (here : Location) (p : Path) : spelled here (steps p) = spelled here (segments p.spelling.toList) := by
  rcases steps_eq p with hsteps | hsteps
  · rw [hsteps]
  · rw [hsteps, spelled_append]
    rfl

/-! ### Paths that stay below a directory -/

/-- Where a component leads from a directory. -/
def componentStep (here : Location) : Path.Component → Location
  | .root => []
  | .here => here
  | .up => here.dropLast
  | .name s => here ++ [s]

/-- What a segment adds to the way of the components is what it adds to the way of the steps. -/
theorem componentStep_ofSegment? (here : Location) (segment : List Char) :
    (Path.Component.ofSegment? segment).toList.foldl componentStep here =
      if String.ofList segment = "" then here else spelledStep here (String.ofList segment) := by
  unfold Path.Component.ofSegment? spelledStep
  have hnil : String.ofList segment = "" ↔ segment = [] := by rw [← String.toList_inj]; simp
  have hdot : String.ofList segment = "." ↔ segment = ['.'] := by rw [← String.toList_inj]; simp
  have hup : String.ofList segment = ".." ↔ segment = ['.', '.'] := by rw [← String.toList_inj]; simp
  simp only [hnil, hdot, hup]
  by_cases h₁ : segment = []
  · simp [h₁]
  by_cases h₂ : segment = ['.']
  · simp [h₂]
  by_cases h₃ : segment = ['.', '.'] <;> simp [h₁, h₂, h₃, componentStep]

theorem foldl_filterMap_ofSegment? (here : Location) (pieces : List (List Char)) :
    (pieces.filterMap Path.Component.ofSegment?).foldl componentStep here =
      spelled here ((pieces.map String.ofList).filter (· != "")) := by
  induction pieces generalizing here with
  | nil => rfl
  | cons segment pieces ih =>
    have hfirst := componentStep_ofSegment? here segment
    have hcons : (segment :: pieces).filterMap Path.Component.ofSegment? =
        (Path.Component.ofSegment? segment).toList ++ pieces.filterMap Path.Component.ofSegment? := by
      cases h : Path.Component.ofSegment? segment <;> simp [h]
    rw [hcons, List.foldl_append, hfirst, ih]
    by_cases hempty : String.ofList segment = "" <;> simp [hempty]

/-- **The components of a relative path** are those of its segments, for whoever makes nothing of a `.`. -/
theorem foldl_components {α : Type} {step : α → Path.Component → α} (hhere : ∀ a, step a .here = a) {p : Path}
    (hp : p.isAbsolute = false) (a : α) :
    p.components.foldl step a =
      ((p.spelling.toList.splitOn '/').filterMap Path.Component.ofSegment?).foldl step a := by
  unfold Path.components Path.componentsOf
  cases hsplit : p.spelling.toList.splitOn '/' with
  | nil => rfl
  | cons first rest =>
    -- the first segment of a relative path is not the root
    have hroot : ¬ (first = [] ∧ rest ≠ []) := by
      rintro ⟨rfl, hrest⟩
      have hwhole : ['/'].intercalate (p.spelling.toList.splitOn '/') = p.spelling.toList := List.intercalate_splitOn '/'
      rw [hsplit, List.intercalate_cons_of_ne_nil hrest] at hwhole
      simp [Path.isAbsolute, ← hwhole] at hp
    dsimp only
    rw [if_neg hroot, List.foldl_append]
    split
    next hdot => simp [hdot, Path.Component.ofSegment?, hhere]
    next => cases h : Path.Component.ofSegment? first <;> simp [h]

/-- **A relative path leads where its components lead.** -/
theorem spelled_steps_eq_components {p : Path} (hp : p.isAbsolute = false) (here : Location) :
    spelled here (steps p) = p.components.foldl componentStep here := by
  rw [spelled_steps, foldl_components (fun _ => rfl) hp, foldl_filterMap_ofSegment?]
  rfl

/-- A path that has left the directory stays outside. -/
theorem foldl_depthAfter_none (cs : List Path.Component) : cs.foldl Zip.Member.depthAfter none = none := by
  induction cs with
  | nil => rfl
  | cons c cs ih => exact ih

/-- The components of an enclosed path go down at least as far as they go up. -/
theorem prefix_of_depth (base : Location) {cs : List Path.Component} {w : Location} {n : Nat}
    (h : cs.foldl Zip.Member.depthAfter (some w.length) = some n) : base <+: cs.foldl componentStep (base ++ w) := by
  -- over the components, with the names that are below the base so far; their number is the depth
  induction cs generalizing w with
  | nil => exact List.prefix_append base w
  | cons c cs ih =>
    rw [List.foldl_cons] at h ⊢
    cases c with
    | root => simp [Zip.Member.depthAfter, foldl_depthAfter_none] at h
    | here => exact ih (by simpa [Zip.Member.depthAfter] using h)
    | up =>
      rcases List.eq_nil_or_concat w with rfl | ⟨init, last, rfl⟩
      · simp [Zip.Member.depthAfter, foldl_depthAfter_none] at h
      · have hrest := ih (w := init) (by simpa [Zip.Member.depthAfter] using h)
        simpa [componentStep, ← List.append_assoc] using hrest
    | name s =>
      have hrest := ih (w := w ++ [s]) (by simpa [Zip.Member.depthAfter] using h)
      simpa [componentStep] using hrest

theorem exists_components_of_isAbsolute {p : Path} (hp : p.isAbsolute = true) :
    ∃ cs, p.components = .root :: cs := by
  have hhead : p.spelling.toList.head? = some '/' := by simpa [Path.isAbsolute] using hp
  obtain ⟨rest, hname⟩ := List.head?_eq_some_iff.1 hhead
  have hsplit : ('/' :: rest).splitOn '/' = [] :: rest.splitOn '/' := by
    simpa using @List.splitOn_append_cons_self _ _ _ '/' [] rest
  unfold Path.components Path.componentsOf
  rw [hname, hsplit]
  simp [List.splitOn_ne_nil]

/-- **An enclosed path is relative and leads to no place outside of the directory** from which it is followed, if there are
no links. -/
theorem prefix_spelled_of_enclosed {name : String} {p : Path} (h : Zip.Member.enclosed? name = some p) :
    p.isAbsolute = false ∧ ∀ base, base <+: spelled base (steps p) := by
  unfold Zip.Member.enclosed? at h
  split at h
  · simp at h
  obtain ⟨n, hdepth, rfl⟩ := Option.map_eq_some_iff.1 h
  have hrelative : (⟨name⟩ : Path).isAbsolute = false := by
    rw [← Bool.not_eq_true]
    intro habsolute
    obtain ⟨cs, hcs⟩ := exists_components_of_isAbsolute habsolute
    simp [hcs, Zip.Member.depthAfter, foldl_depthAfter_none] at hdepth
  refine ⟨hrelative, fun base => ?_⟩
  rw [spelled_steps_eq_components hrelative]
  simpa using prefix_of_depth base (w := []) hdepth

/-! ### Walks without links -/

/-- **A tree without links.** -/
def Linkless (f : Files) : Prop := ∀ loc target, f.node? loc ≠ some (.link target)

/-- Whether all that is passed between two locations is directories. -/
def DirsBetween (f : Files) (here loc : Location) : Prop :=
  ∀ other, here <+: other → other <+: loc → other ≠ here → other ≠ loc → f.node? other = some .dir

section Walks

variable {f g : Files} {follow : Bool} {links : Nat} {here cwd : Location} {names : List String} {p : Path} {r : Place}

/-- **A walk that ends anywhere ends where the spelling leads.** -/
theorem Linkless.walk_loc (hf : f.Linkless) (h : f.walk follow links here names = .ok r) : r.loc = spelled here names := by
  refine walk_induct (motive := fun _ here names r => r.loc = spelled here names) ?stop ?dot ?up ?last ?enter ?through h
  case stop => exact fun _ _ => rfl
  case dot | up => exact fun _ _ _ _ ih => ih
  case last => exact fun _ here step _ hstep _ _ _ => (spelledStep_of_isName hstep here).symm
  case enter =>
    intro _ here step rest r hstep _ ih
    rwa [spelled_cons, spelledStep_of_isName hstep]
  case through => exact fun _ _ _ _ target _ _ hnode _ _ => absurd hnode (hf _ target)

theorem Linkless.place_loc (hf : f.Linkless) (h : f.place cwd follow p = .ok r) : r.loc = placeOf cwd p :=
  hf.walk_loc (place_eq_ok_iff.1 h).2

/-- A path that is followed from a directory leads on from the place of that directory. -/
theorem placeOf_join {base file : Path} (hbase : base.spelling ≠ "") (hfile : file.isAbsolute = false) :
    placeOf cwd (base / file) = spelled (placeOf cwd base) (steps file) := by
  unfold placeOf
  rw [steps_join hbase hfile, spelled_append, ← start_join hbase hfile, spelled_steps _ base]

/-- **A walk down** passes directories only. -/
theorem Linkless.walk_dirs (hf : f.Linkless) (hup : ".." ∉ names) (h : f.walk follow links here names = .ok r) :
    here <+: r.loc ∧ f.DirsBetween here r.loc := by
  have hsame : ∀ {a b : Location}, a <+: b → b <+: a → a = b := fun h h' => h.eq_of_length_le h'.length_le
  refine walk_induct (motive := fun _ here names r => ".." ∉ names → here <+: r.loc ∧ f.DirsBetween here r.loc)
    ?stop ?dot ?up ?last ?enter ?through h hup
  case stop =>
    exact fun _ here _ => ⟨List.prefix_refl here, fun other hfirst hsecond hne _ => absurd (hsame hsecond hfirst) hne⟩
  case dot => exact fun _ _ _ _ ih hup => ih fun h => hup (List.mem_cons_of_mem _ h)
  case up => exact fun _ _ _ _ _ hup => absurd List.mem_cons_self hup
  case last =>
    intro _ here step _ _ _ _ _ _
    -- there is nothing between a directory and an entry of it
    refine ⟨List.prefix_append here _, fun other hfirst hsecond hne hend => ?_⟩
    rcases List.prefix_concat_iff.1 hsecond with hlast | hback
    · exact absurd hlast hend
    · exact absurd (hsame hback hfirst) hne
  case enter =>
    intro _ here step rest r _ hnode ih hup
    obtain ⟨hentry, hdirs⟩ := ih fun h => hup (List.mem_cons_of_mem _ h)
    refine ⟨(List.prefix_append here _).trans hentry, fun other hfirst hsecond hne hend => ?_⟩
    rcases List.prefix_or_prefix_of_prefix hsecond hentry with hback | hon
    · rcases List.prefix_concat_iff.1 hback with rfl | hback
      · exact hnode
      · exact absurd (hsame hback hfirst) hne
    · by_cases hstep : other = here ++ [step]
      · rw [hstep, hnode]
      · exact hdirs other hon hsecond hstep hend
  case through => exact fun _ _ _ _ target _ _ hnode _ _ => absurd hnode (hf _ target)

/-- **A walk down ends alike in every tree** in which the directories on its way are there, and in which the end is the
same. -/
theorem Linkless.walk_of_way (hf : f.Linkless) (hup : ".." ∉ names) (h : f.walk follow links here names = .ok r)
    (hdirs : g.DirsBetween here r.loc) (hend : g.node? r.loc = r.node) : g.walk follow links here names = .ok r := by
  refine (walk_induct (motive := fun links here names r => ".." ∉ names → g.DirsBetween here r.loc →
    g.node? r.loc = r.node → here <+: r.loc ∧ (f.node? r.loc = some .dir → r.node = some .dir) ∧
      g.walk follow links here names = .ok r) ?stop ?dot ?up ?last ?enter ?through h hup hdirs hend).2.2
  case stop => exact fun _ here _ _ _ => ⟨List.prefix_refl here, fun _ => rfl, walk_nil ..⟩
  case dot =>
    intro links here rest r ih hup hdirs hend
    simpa using ih (fun h => hup (List.mem_cons_of_mem _ h)) hdirs hend
  case up => exact fun _ _ _ _ _ hup => absurd List.mem_cons_self hup
  case last =>
    intro _ here step _ hstep hnode _ hlink _ _ hend
    exact ⟨List.prefix_append here _, fun hdir => hnode.symm.trans hdir, walk_last hstep hend hlink⟩
  case enter =>
    intro links here step rest r hstep hnode ih hup hdirs hend
    have hmore : ∀ other, here ++ [step] <+: other → other ≠ here := by
      rintro _ ⟨w, rfl⟩ hback
      simp at hback
    obtain ⟨hentry, hkind, hrest⟩ := ih (fun h => hup (List.mem_cons_of_mem _ h))
      (fun other hon hsecond _ hne => hdirs other ((List.prefix_append here _).trans hon) hsecond (hmore other hon) hne) hend
    -- the entry is on the way, or is the end
    have hdir : g.node? (here ++ [step]) = some .dir := by
      by_cases hlast : here ++ [step] = r.loc
      · rw [hlast, hend, hkind (hlast ▸ hnode)]
      · exact hdirs _ (List.prefix_append here _) hentry (hmore _ (List.prefix_refl _)) hlast
    exact ⟨(List.prefix_append here _).trans hentry, hkind, by rw [walk_enter hstep hdir, hrest]⟩
  case through => exact fun _ _ _ _ target _ _ hnode _ _ => absurd hnode (hf _ target)

end Walks

end Files

end Recompile

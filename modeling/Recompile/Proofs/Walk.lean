import Mathlib.Tactic.Common
import Recompile.Files.Basic

/-!
# Walks through a directory tree

`Files.walk` follows the names of a path from a directory, and a link that it meets on the way. What it finds depends
on the tree only through what it passes, which is directories and links, and on what is at its end. The main statements
make that precise for the changes that a build makes to a tree.

* `Files.walk_of_waysKept`: a walk that ends at something ends there in every tree that has the same directories and
  links, as long as the end is the same.
* `Files.walk_put_file`: after a file was put where a walk ended, in place of a link for example, the walk ends at the
  file, or fails because the file is in its way.
* `Files.walk_append`: a walk along two lists of names goes along the first one and then along the second one.
-/

namespace Recompile

/-- A directory is not a regular file. -/
@[simp] theorem Node.isFile_dir : Node.dir.isFile = false := rfl

@[simp] theorem Node.isFile_file (data : Bytes) (executable : Bool) : (Node.file data executable).isFile = true := rfl

@[simp] theorem Node.isFile_link (target : Path) : (Node.link target).isFile = false := rfl

namespace Files

/-! ### What is where -/

/-- Putting something somewhere changes that place only. -/
theorem node?_put (f : Files) {loc : Location} (hloc : loc ≠ []) (node : Node) (other : Location) :
    (f.put loc node).node? other = if other = loc then some node else f.node? other := by
  unfold node? put
  by_cases hother : other = []
  · subst hother
    simp [hloc.symm]
  · by_cases hsame : other = loc
    · subst hsame
      simp [hloc, NameTree.get?_insert_self]
    · simp [hother, hsame, NameTree.get?_insert_of_ne]

/-- Dropping a location drops what is below it, and nothing else. -/
theorem node?_drop (f : Files) {loc : Location} (hloc : loc ≠ []) (other : Location) :
    (f.drop loc).node? other = if loc <+: other then none else f.node? other := by
  unfold node? drop
  by_cases hother : other = []
  · subst hother
    simp [hloc]
  · simp [hother, NameTree.get?_drop]

/-- **What a tree has is kept in another one.** -/
def KeptIn (f g : Files) : Prop := ∀ loc node, f.node? loc = some node → g.node? loc = some node

/-- **The directories and links of a tree are kept in another one.** -/
def WaysKeptIn (f g : Files) : Prop :=
  ∀ loc node, f.node? loc = some node → node.isFile = false → g.node? loc = some node

theorem KeptIn.refl (f : Files) : f.KeptIn f := fun _ _ h => h

theorem KeptIn.trans {f g k : Files} (h : f.KeptIn g) (h' : g.KeptIn k) : f.KeptIn k :=
  fun loc node hnode => h' loc node (h loc node hnode)

theorem KeptIn.ways {f g : Files} (h : f.KeptIn g) : f.WaysKeptIn g := fun loc node hnode _ => h loc node hnode

/-- Putting something where nothing was keeps everything. -/
theorem keptIn_put {f : Files} {loc : Location} (hloc : loc ≠ []) (hfree : f.node? loc = none) (node : Node) :
    f.KeptIn (f.put loc node) := by
  intro other n hn
  rw [node?_put f hloc, if_neg]
  · exact hn
  · rintro rfl
    rw [hfree] at hn
    simp at hn

/-- Putting something where a file was, or nothing, keeps the directories and links. -/
theorem waysKeptIn_put {f : Files} {loc : Location} (hloc : loc ≠ [])
    (hold : ∀ found, f.node? loc = some found → found.isFile = true) (node : Node) : f.WaysKeptIn (f.put loc node) := by
  intro other found hfound hkind
  rw [node?_put f hloc, if_neg]
  · exact hfound
  · rintro rfl
    simp [hold found hfound] at hkind

/-! ### Step by step -/

section Steps

variable {f : Files} {follow : Bool}

/-- Whether a step leads to a name: it is neither `.` nor `..`, and not too long. -/
def IsName (step : String) : Prop := step ≠ "." ∧ step ≠ ".." ∧ ¬ maxName < step.utf8ByteSize

theorem walkWith_name {jump : Location → List String → Except FaultKind Place} {here : Location} {step : String}
    {rest : List String} (hstep : IsName step) :
    walkWith f follow jump here (step :: rest) =
      match f.node? (here ++ [step]) with
      | none => if rest = [] then .ok ⟨here ++ [step], none⟩ else .error .notFound
      | some .dir => walkWith f follow jump (here ++ [step]) rest
      | some (.file data executable) =>
        if rest = [] then .ok ⟨here ++ [step], some (.file data executable)⟩ else .error .notADirectory
      | some (.link target) =>
        if rest = [] ∧ !follow then .ok ⟨here ++ [step], some (.link target)⟩
        else jump (if target.isAbsolute then [] else here) (steps target ++ rest) := by
  obtain ⟨hdot, hup, hlong⟩ := hstep
  rw [walkWith]
  exact (if_neg hdot).trans ((if_neg hup).trans (if_neg hlong))

/-- The walk behind a walk that may follow so many links. -/
def beyond (f : Files) (follow : Bool) : (links : Nat) → Location → List String → Except FaultKind Place
  | 0 => fun _ _ => .error .filesystemLoop
  | links + 1 => f.walk follow links

theorem walk_eq (f : Files) (follow : Bool) (links : Nat) :
    f.walk follow links = walkWith f follow (f.beyond follow links) := by
  cases links <;> rfl

@[simp] theorem walk_nil (f : Files) (follow : Bool) (links : Nat) (here : Location) :
    f.walk follow links here [] = .ok ⟨here, some .dir⟩ := by
  rw [walk_eq, walkWith]

@[simp] theorem walk_cons_dot (f : Files) (follow : Bool) (links : Nat) (here : Location) (rest : List String) :
    f.walk follow links here ("." :: rest) = f.walk follow links here rest := by
  simp [walk_eq, walkWith]

@[simp] theorem walk_cons_up (f : Files) (follow : Bool) (links : Nat) (here : Location) (rest : List String) :
    f.walk follow links here (".." :: rest) = f.walk follow links here.dropLast rest := by
  simp [walk_eq, walkWith]

/-- **Walks step by step.** A property of all walks that end somewhere is proved for walks without a name, for the two
special names, for a name that is the last one and for one behind which the walk goes on, in a directory or at the
target of a link. -/
theorem walk_induct {motive : Nat → Location → List String → Place → Prop}
    (stop : ∀ links here, motive links here [] ⟨here, some .dir⟩)
    (dot : ∀ links here rest r, motive links here rest r → motive links here ("." :: rest) r)
    (up : ∀ links here rest r, motive links here.dropLast rest r → motive links here (".." :: rest) r)
    (last : ∀ links here step node, IsName step →
      f.node? (here ++ [step]) = node → node ≠ some .dir → (∀ target, node = some (.link target) → follow = false) →
      motive links here [step] ⟨here ++ [step], node⟩)
    (enter : ∀ links here step rest r, IsName step →
      f.node? (here ++ [step]) = some .dir → motive links (here ++ [step]) rest r →
      motive links here (step :: rest) r)
    (through : ∀ links here step rest target r, IsName step →
      f.node? (here ++ [step]) = some (.link target) → ¬ (rest = [] ∧ follow = false) →
      motive links (if target.isAbsolute then [] else here) (steps target ++ rest) r →
      motive (links + 1) here (step :: rest) r)
    {links : Nat} {here : Location} {names : List String} {r : Place} (h : f.walk follow links here names = .ok r) :
    motive links here names r := by
  -- by the number of links, and for a fixed number by the names: only a link makes the names
  -- that are left more, and it uses one up
  induction links using Nat.strongRecOn generalizing here names with
  | _ links jumped =>
    rw [walk_eq] at h
    induction names generalizing here with
    | nil =>
      obtain rfl := Except.ok.inj h
      exact stop links here
    | cons step rest ih =>
      by_cases hdot : step = "."
      · subst hdot
        exact dot links here rest r (ih (by simpa [walkWith] using h))
      by_cases hup : step = ".."
      · subst hup
        exact up links here rest r (ih (by simpa [walkWith] using h))
      by_cases hlong : maxName < step.utf8ByteSize
      · simp [walkWith, hdot, hup, hlong] at h
      have hstep : IsName step := ⟨hdot, hup, hlong⟩
      rw [walkWith_name hstep] at h
      cases hnode : f.node? (here ++ [step]) with
      | none =>
        simp only [hnode] at h
        split at h
        next hrest =>
          obtain rfl := Except.ok.inj h
          -- nothing there: the walk may end at such a place, but not go on
          exact hrest ▸ last links here step none hstep hnode (by simp) (by simp)
        next => simp at h
      | some node =>
        simp only [hnode] at h
        cases node with
        | dir => exact enter links here step rest r hstep hnode (ih h)
        | file data executable =>
          simp only at h
          split at h
          next hrest =>
            obtain rfl := Except.ok.inj h
            exact hrest ▸ last links here step _ hstep hnode (by simp) (by simp)
          next => simp at h
        | link target =>
          simp only at h
          split at h
          next hlast =>
            -- a link that is not followed ends the walk as a file does
            obtain rfl := Except.ok.inj h
            exact hlast.1 ▸ last links here step _ hstep hnode (by simp) fun _ _ => by simpa using hlast.2
          next hlast =>
            cases links with
            | zero => simp [beyond] at h
            | succ links =>
              exact through links here step rest target r hstep hnode (by simpa using hlast)
                (jumped links (Nat.lt_succ_self links) h)

end Steps

/-! ### What a walk finds -/

section Walks

variable {f g : Files} {follow : Bool} {links : Nat} {here loc : Location} {names : List String}

theorem walk_enter {step : String} {rest : List String} (hstep : IsName step)
    (hnode : f.node? (here ++ [step]) = some .dir) :
    f.walk follow links here (step :: rest) = f.walk follow links (here ++ [step]) rest := by
  rw [walk_eq, walkWith_name hstep, hnode]

theorem walk_last {step : String} {node : Option Node} (hstep : IsName step)
    (hnode : f.node? (here ++ [step]) = node) (hlink : ∀ target, node = some (.link target) → follow = false) :
    f.walk follow links here [step] = .ok ⟨here ++ [step], node⟩ := by
  rw [walk_eq, walkWith_name hstep, hnode]
  cases node with
  | none => rfl
  | some node =>
    cases node with
    | dir => rfl
    | file data executable => rfl
    | link target => simp [hlink target rfl]

theorem walk_through {step : String} {rest : List String} {target : Path}
    (hstep : IsName step)
    (hnode : f.node? (here ++ [step]) = some (.link target)) (hmore : ¬ (rest = [] ∧ follow = false)) :
    f.walk follow (links + 1) here (step :: rest) =
      f.walk follow links (if target.isAbsolute then [] else here) (steps target ++ rest) := by
  rw [walk_eq, walkWith_name hstep, hnode]
  simp only [Bool.not_eq_true', if_neg hmore]
  rfl

/-- A walk ends in a directory that it entered, or at a name and what is there. -/
theorem walk_end {r : Place} (h : f.walk follow links here names = .ok r) :
    r.node = some .dir ∨ r.loc ≠ [] ∧ r.node = f.node? r.loc := by
  refine walk_induct (motive := fun _ _ _ r => r.node = some .dir ∨ r.loc ≠ [] ∧ r.node = f.node? r.loc)
    ?stop ?dot ?up ?last ?enter ?through h
  case stop => exact fun _ _ => Or.inl rfl
  case dot | up => exact fun _ _ _ _ ih => ih
  case last => exact fun _ here step node _ hnode _ _ => Or.inr ⟨by simp, hnode.symm⟩
  case enter => exact fun _ _ _ _ _ _ _ ih => ih
  case through => exact fun _ _ _ _ _ _ _ _ _ ih => ih

/-- **A walk needs the directories and links of a tree only,** and what is at its end if that is no directory. -/
theorem walk_of_waysKept (hways : f.WaysKeptIn g) {node : Node}
    (h : f.walk follow links here names = .ok ⟨loc, some node⟩) (hend : node ≠ .dir → g.node? loc = some node) :
    g.walk follow links here names = .ok ⟨loc, some node⟩ := by
  refine walk_induct (motive := fun links here names r => r = ⟨loc, some node⟩ →
    g.walk follow links here names = .ok r) ?stop ?dot ?up ?last ?enter ?through h rfl
  case stop => exact fun links here _ => walk_nil ..
  case dot | up =>
    intro links here rest r ih hr
    simpa using ih hr
  -- only the last step can be to a file, and that one is kept by assumption
  case last =>
    intro links here step found hstep _ hdir hlink hr
    obtain ⟨rfl, rfl⟩ := Place.mk.inj hr
    exact walk_last hstep (hend fun hnode => hdir (congrArg some hnode)) hlink
  case enter =>
    intro links here step rest r hstep hnode ih hr
    rw [walk_enter hstep (hways _ _ hnode rfl)]
    exact ih hr
  case through =>
    intro links here step rest target r hstep hnode hmore ih hr
    rw [walk_through hstep (hways _ _ hnode rfl) hmore]
    exact ih hr

/-- **A file that is put where a walk ended** is found by the walk, links followed or not, or is in its way. -/
theorem walk_put_file {data : Bytes} {executable : Bool} {node : Option Node} (hdir : node ≠ some .dir)
    (hother : ∀ other, other ≠ loc → g.node? other = f.node? other)
    (hfile : g.node? loc = some (.file data executable))
    (h : f.walk false links here names = .ok ⟨loc, node⟩) :
    g.walk follow links here names = .ok ⟨loc, some (.file data executable)⟩ ∨
      g.walk follow links here names = .error .notADirectory := by
  -- a step to the file ends there if it is the last one and is refused otherwise
  have arrive : ∀ {links here step rest}, IsName step →
      here ++ [step] = loc →
      g.walk follow links here (step :: rest) = .ok ⟨loc, some (.file data executable)⟩ ∨
        g.walk follow links here (step :: rest) = .error .notADirectory := by
    intro links here step rest hstep hloc
    rw [walk_eq, walkWith_name hstep, hloc, hfile]
    by_cases hrest : rest = []
    · exact Or.inl (by simp [hrest])
    · exact Or.inr (by simp [hrest])
  refine walk_induct (motive := fun links here names r => r = ⟨loc, node⟩ →
    g.walk follow links here names = .ok ⟨loc, some (.file data executable)⟩ ∨
      g.walk follow links here names = .error .notADirectory) ?stop ?dot ?up ?last ?enter ?through h rfl
  case stop =>
    intro links here hr
    exact absurd (Place.mk.inj hr).2.symm hdir
  case dot | up =>
    intro links here rest r ih hr
    simpa using ih hr
  case last =>
    intro links here step found hstep hnode hdir hlink hr
    exact arrive hstep (Place.mk.inj hr).1
  case enter =>
    intro links here step rest r hstep hnode ih hr
    by_cases hloc : here ++ [step] = loc
    · exact arrive hstep hloc
    · rw [walk_enter hstep ((hother _ hloc).trans hnode)]
      exact ih hr
  case through =>
    intro links here step rest target r hstep hnode hmore ih hr
    by_cases hloc : here ++ [step] = loc
    · exact arrive hstep hloc
    · have hrest : rest ≠ [] := by simpa using hmore
      rw [walk_through hstep ((hother _ hloc).trans hnode) (by simp [hrest])]
      exact ih hr

/-- **What is put where a walk ended** is found by the walk, if a file was there or nothing. -/
theorem walk_put {old : Option Node} {node : Node} (hold : ∀ found, old = some found → found.isFile = true)
    (hlink : ∀ target, node ≠ .link target) (h : f.walk follow links here names = .ok ⟨loc, old⟩) :
    (f.put loc node).walk follow links here names = .ok ⟨loc, some node⟩ := by
  have hdir : old ≠ some .dir := fun hsame => by simpa using hold .dir hsame
  obtain ⟨hloc, hend⟩ := (walk_end h).resolve_left hdir
  -- the steps before lead to directories and links, so nothing is different there
  have hways : f.WaysKeptIn (f.put loc node) := waysKeptIn_put hloc (fun found hfound => hold found (hend.trans hfound)) node
  refine walk_induct (motive := fun links here names r => r = ⟨loc, old⟩ →
    (f.put loc node).walk follow links here names = .ok ⟨loc, some node⟩) ?stop ?dot ?up ?last ?enter ?through h rfl
  case stop => exact fun _ _ hr => absurd (Place.mk.inj hr).2.symm hdir
  case dot | up =>
    intro links here rest r ih hr
    simpa using ih hr
  case last =>
    intro links here step found hstep _ _ _ hr
    obtain ⟨rfl, -⟩ := Place.mk.inj hr
    refine walk_last hstep ?_ fun target htarget => absurd (Option.some.inj htarget) (hlink target)
    rw [node?_put f hloc, if_pos rfl]
  case enter =>
    intro links here step rest r hstep hnode ih hr
    rw [walk_enter hstep (hways _ _ hnode rfl)]
    exact ih hr
  case through =>
    intro links here step rest target r hstep hnode hmore ih hr
    rw [walk_through hstep (hways _ _ hnode rfl) (by simpa using hmore)]
    exact ih hr

/-- **A walk along some names and then others** is a walk along the former into a directory, and on from there. -/
theorem walk_append {first second : List String} {r : Place} (hsecond : second ≠ [])
    (h : f.walk follow links here (first ++ second) = .ok r) :
    ∃ loc left, f.walk true links here first = .ok ⟨loc, some .dir⟩ ∧ f.walk follow left loc second = .ok r := by
  -- behind the first part the walk is where the second part begins
  have stay : ∀ {links here names r}, names = [] ++ second → f.walk follow links here names = .ok r →
      ∃ loc left, f.walk true links here [] = .ok ⟨loc, some .dir⟩ ∧ f.walk follow left loc second = .ok r := by
    rintro links here names r rfl h
    exact ⟨here, links, walk_nil .., h⟩
  refine walk_induct (motive := fun links here names r => ∀ first, names = first ++ second →
    f.walk follow links here names = .ok r →
    ∃ loc left, f.walk true links here first = .ok ⟨loc, some .dir⟩ ∧ f.walk follow left loc second = .ok r)
    ?stop ?dot ?up ?last ?enter ?through h first rfl h
  case stop => exact fun links here first hnames _ => absurd (List.append_eq_nil_iff.1 hnames.symm).2 hsecond
  case dot | up =>
    intro links here rest r ih first hnames h
    cases first with
    | nil => exact stay hnames h
    | cons step first =>
      obtain ⟨rfl, rfl⟩ := List.cons.inj hnames
      obtain ⟨loc, left, hfirst, hrest⟩ := ih first rfl (by simpa using h)
      exact ⟨loc, left, by simpa using hfirst, hrest⟩
  case last =>
    intro links here step node _ _ _ _ first hnames h
    cases first with
    | nil => exact stay hnames h
    | cons step first => exact absurd (List.append_eq_nil_iff.1 (List.cons.inj hnames).2.symm).2 hsecond
  case enter =>
    intro links here step rest r hstep hnode ih first hnames h
    cases first with
    | nil => exact stay hnames h
    | cons step' first =>
      obtain ⟨rfl, rfl⟩ := List.cons.inj hnames
      rw [walk_enter hstep hnode] at h
      rw [walk_enter hstep hnode]
      exact ih first rfl h
  case through =>
    intro links here step rest target r hstep hnode hmore ih first hnames h
    cases first with
    | nil => exact stay hnames h
    | cons step' first =>
      obtain ⟨rfl, rfl⟩ := List.cons.inj hnames
      rw [walk_through hstep hnode hmore] at h
      rw [walk_through hstep hnode (by simp)]
      -- the names of the target come in front of the first part and belong to it
      exact ih (steps target ++ first) (List.append_assoc _ _ _).symm h

/-- **A walk into a directory is taken on from there,** whatever comes of it. -/
theorem exists_walk_append (h : f.walk true links here names = .ok ⟨loc, some .dir⟩) :
    ∃ left, ∀ follow second, second ≠ [] →
      f.walk follow links here (names ++ second) = f.walk follow left loc second := by
  refine walk_induct (motive := fun links here names r => r.node = some .dir → ∃ left, ∀ follow second, second ≠ [] →
    f.walk follow links here (names ++ second) = f.walk follow left r.loc second)
    ?stop ?dot ?up ?last ?enter ?through h rfl
  case stop => exact fun links _ _ => ⟨links, fun _ _ _ => rfl⟩
  case dot | up =>
    intro links here rest r ih hr
    obtain ⟨left, hrest⟩ := ih hr
    refine ⟨left, fun follow second hsecond => ?_⟩
    simpa using hrest follow second hsecond
  case last => exact fun _ _ _ _ _ _ hdir _ hr => absurd hr hdir
  case enter =>
    intro links here step rest r hstep hnode ih hr
    obtain ⟨left, hrest⟩ := ih hr
    refine ⟨left, fun follow second hsecond => ?_⟩
    rw [List.cons_append, walk_enter hstep hnode]
    exact hrest follow second hsecond
  case through =>
    intro links here step rest target r hstep hnode _ ih hr
    obtain ⟨left, hrest⟩ := ih hr
    refine ⟨left, fun follow second hsecond => ?_⟩
    -- a link at the end of the names is followed all the same, since more names come after it
    rw [List.cons_append, walk_through hstep hnode (by simp [hsecond]), ← List.append_assoc]
    exact hrest follow second hsecond

/-- A step `.` at the end of a walk into a directory changes nothing. -/
theorem walk_dot (h : f.walk true links here names = .ok ⟨loc, some .dir⟩) :
    f.walk true links here (names ++ ["."]) = .ok ⟨loc, some .dir⟩ := by
  obtain ⟨left, hon⟩ := exists_walk_append h
  rw [hon true ["."] (by simp)]
  simp

/-- If a walk finds something, so does the one that does not follow the last link. -/
theorem exists_walk_false {node : Node} (h : f.walk true links here names = .ok ⟨loc, some node⟩) :
    ∃ loc' node', f.walk false links here names = .ok ⟨loc', some node'⟩ := by
  refine walk_induct (motive := fun links here names r => r.node ≠ none →
    ∃ loc' node', f.walk false links here names = .ok ⟨loc', some node'⟩)
    ?stop ?dot ?up ?last ?enter ?through h (by simp)
  case stop => exact fun links here _ => ⟨here, .dir, walk_nil ..⟩
  case dot | up =>
    intro links here rest r ih hr
    simpa using ih hr
  case last =>
    intro links here step found hstep hnode _ _ hr
    obtain ⟨node', rfl⟩ := Option.ne_none_iff_exists'.1 hr
    exact ⟨here ++ [step], node', walk_last hstep hnode fun _ _ => rfl⟩
  case enter =>
    intro links here step rest r hstep hnode ih hr
    rw [walk_enter hstep hnode]
    exact ih hr
  case through =>
    intro links here step rest target r hstep hnode _ ih hr
    -- a link at the very end is where the walk stays if it does not follow it
    by_cases hrest : rest = []
    · subst hrest
      exact ⟨here ++ [step], _, walk_last hstep hnode fun _ _ => rfl⟩
    · rw [walk_through hstep hnode (by simp [hrest])]
      exact ih hr

/-- A walk that ends at no link without following the last one ends there as well if it follows all links. -/
theorem walk_true_of_not_link {r : Place} (h : f.walk false links here names = .ok r)
    (hlink : ∀ target, r.node ≠ some (.link target)) : f.walk true links here names = .ok r := by
  refine walk_induct (motive := fun links here names r => (∀ target, r.node ≠ some (.link target)) →
    f.walk true links here names = .ok r) ?stop ?dot ?up ?last ?enter ?through h hlink
  case stop => exact fun links here _ => walk_nil ..
  case dot | up =>
    intro links here rest r ih hr
    simpa using ih hr
  -- the walk ended without following, but not at a link
  case last =>
    intro links here step node hstep hnode _ _ hr
    exact walk_last hstep hnode fun target htarget => absurd htarget (hr target)
  case enter =>
    intro links here step rest r hstep hnode ih hr
    rw [walk_enter hstep hnode]
    exact ih hr
  case through =>
    intro links here step rest target r hstep hnode _ ih hr
    rw [walk_through hstep hnode (by simp)]
    exact ih hr

/-- **Where there are no links** plain names lead from a directory to what is below it. -/
theorem walk_below {base way : Location} (hlinks : ∀ w target, f.node? (base ++ w) ≠ some (.link target))
    (hway : ∀ n ∈ way, n ≠ "." ∧ n ≠ "..") (hsome : way ≠ []) {r : Place}
    (h : f.walk follow links base way = .ok r) : r = ⟨base ++ way, f.node? (base ++ way)⟩ := by
  refine walk_induct (motive := fun _ here names r => (∃ w, here = base ++ w) → (∀ n ∈ names, n ≠ "." ∧ n ≠ "..") →
    (names = [] → f.node? here = some .dir) → r = ⟨here ++ names, f.node? (here ++ names)⟩)
    -- the walk never leaves the base: there are no links below it, and no name leads up
    ?stop ?dot ?up ?last ?enter ?through h ⟨[], by simp⟩ hway fun hnone => absurd hnone hsome
  case stop =>
    intro links here _ _ hdir
    rw [List.append_nil, hdir rfl]
  case dot => exact fun _ _ _ _ _ _ hnames _ => absurd rfl (hnames "." List.mem_cons_self).1
  case up => exact fun _ _ _ _ _ _ hnames _ => absurd rfl (hnames ".." List.mem_cons_self).2
  case last => exact fun _ _ _ _ _ hnode _ _ _ _ _ => by rw [hnode]
  case enter =>
    rintro links here step rest r hstep hnode ih ⟨w, rfl⟩ hnames _
    have hrest := ih ⟨w ++ [step], List.append_assoc _ _ _⟩ (fun n hn => hnames n (List.mem_cons_of_mem _ hn))
      fun _ => hnode
    simpa using hrest
  case through =>
    rintro links here step rest target r hstep hnode _ _ ⟨w, rfl⟩ _ _
    rw [List.append_assoc] at hnode
    exact absurd hnode (hlinks _ _)

/-! ### Walks without dots -/

/-- Names from which dots are dropped, but not one at the end. -/
inductive Undotted : List String → List String → Prop
  | done : Undotted [] []
  | dot {names rest : List String} (hsome : names ≠ []) (later : Undotted names rest) : Undotted ("." :: names) rest
  | keep {names rest : List String} (step : String) (later : Undotted names rest) : Undotted (step :: names) (step :: rest)

namespace Undotted

variable {names rest : List String}

theorem eq_nil_iff (h : Undotted names rest) : names = [] ↔ rest = [] := by
  induction h with
  | done => simp
  | dot hsome later ih => simpa [hsome] using ih
  | keep step later => simp

theorem append (first : List String) (h : Undotted names rest) : Undotted (first ++ names) (first ++ rest) := by
  induction first with
  | nil => exact h
  | cons step first ih => exact .keep step ih

theorem filter (hlast : names.getLast? ≠ some ".") : Undotted names (names.filter (· ≠ ".")) := by
  induction names with
  | nil => exact .done
  | cons step names ih =>
    by_cases hnil : names = []
    · subst hnil
      have hstep : step ≠ "." := by simpa using hlast
      simpa [hstep] using Undotted.keep step .done
    · have hrest := ih (by rwa [List.getLast?_cons_of_ne_nil hnil] at hlast)
      by_cases hstep : step = "."
      · simpa [hstep] using Undotted.dot hnil hrest
      · simpa [hstep] using Undotted.keep step hrest

end Undotted

/-- **Dots lead nowhere,** except at the end, where one asks for a directory. -/
theorem walk_undotted {rest : List String} (h : Undotted names rest) :
    f.walk follow links here names = f.walk follow links here rest := by
  induction links using Nat.strongRecOn generalizing here names rest with
  | _ links jumped =>
    rw [walk_eq]
    induction h generalizing here with
    | done => rfl
    | dot hsome later ih => simpa [walkWith] using ih
    | @keep names rest step later ih =>
      by_cases hdot : step = "."
      · simpa [walkWith, hdot] using ih
      by_cases hup : step = ".."
      · simpa [walkWith, hup] using ih
      by_cases hlong : maxName < step.utf8ByteSize
      · simp [walkWith, hdot, hup, hlong]
      -- behind a link the rest of the names follows those of the target
      have hjump : ∀ base target, f.beyond follow links base (steps target ++ names) =
          f.beyond follow links base (steps target ++ rest) := by
        intro base target
        cases links with
        | zero => rfl
        | succ links => exact jumped links (Nat.lt_succ_self links) (later.append _)
      rw [walkWith_name ⟨hdot, hup, hlong⟩, walkWith_name ⟨hdot, hup, hlong⟩]
      simp only [later.eq_nil_iff, hjump, ih]

end Walks

end Files

end Recompile

import Mathlib.Data.List.TakeWhile
import Recompile.Host
import Recompile.Proofs.Fallible
import Recompile.Proofs.Walk

/-!
# Where paths lead

`Files.place` walks along the steps of a path, which come out of its spelling. A path that is cut at one of its
separators leads to a directory on the way of the whole path (`Files.place_of_cut`), and a path that is followed from a
directory leads on from there (`Files.exists_place_join`). With these two the operations of `Files` that make
directories and replace files can be described by what they do to the tree, without a look at spellings:
`Files.makeDirAll_addsDirs`, `Files.makeDirAll_of_isDir` and `Files.replace_eq_ok_iff`.
-/

namespace Recompile

namespace Files

/-! ### Steps of a spelling -/

/-- The pieces of a spelling between separators that are names or dots. -/
def segments (cs : List Char) : List String := ((cs.splitOn '/').map String.ofList).filter (· != "")

/-- Cutting a spelling at a separator cuts its pieces. -/
theorem segments_append_sep (front back : List Char) :
    segments (front ++ '/' :: back) = segments front ++ segments back := by
  simp [segments, List.splitOn_append_cons_self]

@[simp] theorem segments_nil : segments [] = [] := rfl

/-- The steps of a path are its pieces, and a step `.` behind them if it ends in a separator. -/
theorem steps_eq (p : Path) :
    steps p = segments p.spelling.toList ∨ steps p = segments p.spelling.toList ++ ["."] := by
  unfold steps segments
  generalize (p.spelling.toList.splitOn '/').map String.ofList = pieces
  rcases List.eq_nil_or_concat pieces with rfl | ⟨init, last, rfl⟩
  · exact Or.inl rfl
  · simp only [List.concat_eq_append, List.dropLast_concat, List.getLast?_concat, List.filter_append]
    by_cases hlast : last = ""
    · subst hlast
      exact Or.inr (by simp)
    · exact Or.inl (by simp [hlast])

theorem steps_ne_nil (p : Path) : steps p ≠ [] := by
  unfold steps
  have hpieces : (p.spelling.toList.splitOn '/').map String.ofList ≠ [] := by
    simp [List.splitOn_ne_nil]
  obtain ⟨init, last, hsplit⟩ := (List.eq_nil_or_concat _).resolve_left hpieces
  rw [hsplit]
  simp only [List.concat_eq_append, List.getLast?_concat]
  by_cases hlast : last = "" <;> simp [hlast]

/-- The steps of a path that is cut at a separator. -/
theorem steps_append_sep {p : Path} {front back : List Char} (hp : p.spelling.toList = front ++ '/' :: back) :
    steps p = segments front ++ steps ⟨String.ofList back⟩ := by
  unfold steps segments
  rw [hp, List.splitOn_append_cons_self, List.map_append, String.toList_ofList]
  have hback : (back.splitOn '/').map String.ofList ≠ [] := by simp [List.splitOn_ne_nil]
  obtain ⟨init, last, hsplit⟩ := (List.eq_nil_or_concat _).resolve_left hback
  rw [hsplit]
  simp only [List.concat_eq_append, ← List.append_assoc, List.dropLast_concat, List.getLast?_concat,
    List.filter_append]
  by_cases hlast : last = "" <;> simp [hlast]

/-! ### Paths that can be looked up -/

/-- **A path that can be looked up:** it has no zero byte, is not empty and is not too long. -/
structure Admissible (p : Path) : Prop where
  zero : '\x00' ∉ p.spelling.toList
  some : p.spelling ≠ ""
  short : p.spelling.utf8ByteSize < maxPath

/-- A front of a path that can be looked up can be looked up, unless it is empty. -/
theorem Admissible.front {p : Path} (h : Admissible p) {front back : List Char}
    (hp : p.spelling.toList = front ++ back) (hfront : front ≠ []) : Admissible ⟨String.ofList front⟩ where
  zero := by
    have hzero := h.zero
    rw [hp, List.mem_append, not_or] at hzero
    simpa using hzero.1
  some := by simpa using hfront
  short := by
    have hsize : p.spelling = String.ofList front ++ String.ofList back := by
      rw [← String.ofList_append, ← hp, String.ofList_toList]
    have hshort := h.short
    rw [hsize, String.utf8ByteSize_append] at hshort
    exact Nat.lt_of_le_of_lt (Nat.le_add_right _ _) hshort

/-- The directory at which the look-up of a path starts. -/
def start (cwd : Location) (p : Path) : Location := if p.isAbsolute then [] else cwd

theorem start_front {cwd : Location} {p : Path} {front back : List Char} (hp : p.spelling.toList = front ++ back)
    (hfront : front ≠ []) : start cwd ⟨String.ofList front⟩ = start cwd p := by
  obtain ⟨c, rest, rfl⟩ := List.exists_cons_of_ne_nil hfront
  simp [start, Path.isAbsolute, hp]

section Places

variable {f g : Files} {cwd : Location} {follow : Bool} {p : Path}

theorem place_eq (f : Files) (cwd : Location) (follow : Bool) (hp : Admissible p) :
    f.place cwd follow p = (f.walk follow maxLinks (start cwd p) (steps p)).mapError Fault.ofKind := by
  unfold place
  rw [if_neg (by simpa using hp.zero), if_neg hp.some, if_neg (Nat.not_le_of_lt hp.short)]
  rfl

theorem place_eq_ok_iff {r : Place} : f.place cwd follow p = .ok r ↔
    Admissible p ∧ f.walk follow maxLinks (start cwd p) (steps p) = .ok r := by
  constructor
  · intro h
    -- a path that is not admissible is refused before the walk
    have hp : Admissible p := by
      unfold place at h
      split at h
      · simp at h
      split at h
      · simp at h
      split at h
      · simp at h
      next hzero hsome hshort => exact ⟨by simpa using hzero, hsome, Nat.lt_of_not_le hshort⟩
    rw [place_eq f cwd follow hp] at h
    exact ⟨hp, mapError_eq_ok_iff.1 h⟩
  · rintro ⟨hp, hwalk⟩
    rw [place_eq f cwd follow hp, hwalk]
    rfl

/-- A path that cannot be looked up is not reported as not found, unless it is empty. -/
theorem kind_of_not_admissible (hp : ¬ Admissible p) (hsome : p.spelling ≠ "") {fault : Fault}
    (h : f.place cwd follow p = .error fault) : fault.kind ≠ .notFound := by
  by_cases hzero : '\x00' ∈ p.spelling.toList
  · obtain rfl : Fault.zeroByte = fault := by simpa [place, hzero] using h
    decide
  by_cases hlong : maxPath ≤ p.spelling.utf8ByteSize
  · obtain rfl : Fault.ofKind .invalidFilename = fault := by simpa [place, hzero, hsome, hlong] using h
    decide
  · exact absurd ⟨hzero, hsome, Nat.lt_of_not_le hlong⟩ hp

/-- What is at the end of a place is a directory that was entered, or what the tree has there. -/
theorem place_end {r : Place} (h : f.place cwd follow p = .ok r) :
    r.node = some .dir ∨ r.loc ≠ [] ∧ r.node = f.node? r.loc := walk_end (place_eq_ok_iff.1 h).2

theorem place_of_waysKept (hways : f.WaysKeptIn g) {loc : Location} {node : Node}
    (h : f.place cwd follow p = .ok ⟨loc, some node⟩) (hend : node ≠ .dir → g.node? loc = some node) :
    g.place cwd follow p = .ok ⟨loc, some node⟩ := by
  rw [place_eq_ok_iff] at h ⊢
  exact ⟨h.1, walk_of_waysKept hways h.2 hend⟩

/-- If a path leads somewhere, so does the path of which the last link is not followed. -/
theorem exists_place_false {loc : Location} {node : Node} (h : f.place cwd true p = .ok ⟨loc, some node⟩) :
    ∃ loc' node', f.place cwd false p = .ok ⟨loc', some node'⟩ := by
  obtain ⟨hp, hwalk⟩ := place_eq_ok_iff.1 h
  obtain ⟨loc', node', hwalk'⟩ := exists_walk_false hwalk
  exact ⟨loc', node', place_eq_ok_iff.2 ⟨hp, hwalk'⟩⟩

/-- A path that ends at no link without following the last one ends there as well if it is followed. -/
theorem place_true_of_not_link {r : Place} (h : f.place cwd false p = .ok r) (hlink : ∀ target, r.node ≠ some (.link target)) :
    f.place cwd true p = .ok r := by
  rw [place_eq_ok_iff] at h ⊢
  exact ⟨h.1, walk_true_of_not_link h.2 hlink⟩

theorem place_put_file {data : Bytes} {executable : Bool} {loc : Location} {node : Option Node}
    (hdir : node ≠ some .dir) (hother : ∀ other, other ≠ loc → g.node? other = f.node? other)
    (hfile : g.node? loc = some (.file data executable)) (h : f.place cwd false p = .ok ⟨loc, node⟩) :
    g.place cwd follow p = .ok ⟨loc, some (.file data executable)⟩ ∨
      g.place cwd follow p = .error (.ofKind .notADirectory) := by
  obtain ⟨hp, hwalk⟩ := place_eq_ok_iff.1 h
  refine (walk_put_file hdir hother hfile hwalk).imp (fun hfound => place_eq_ok_iff.2 ⟨hp, hfound⟩) fun hrefused => ?_
  rw [place_eq g cwd follow hp, hrefused]
  rfl

theorem place_put {loc : Location} {old : Option Node} {node : Node} (hold : ∀ found, old = some found → found.isFile = true)
    (hlink : ∀ target, node ≠ .link target) (h : f.place cwd follow p = .ok ⟨loc, old⟩) :
    (f.put loc node).place cwd follow p = .ok ⟨loc, some node⟩ := by
  rw [place_eq_ok_iff] at h ⊢
  exact ⟨h.1, walk_put hold hlink h.2⟩

/-- A path leads to a directory if the names in it do. -/
theorem place_of_segments {loc : Location} (hp : Admissible p)
    (h : f.walk true maxLinks (start cwd p) (segments p.spelling.toList) = .ok ⟨loc, some .dir⟩) :
    f.place cwd true p = .ok ⟨loc, some .dir⟩ := by
  refine place_eq_ok_iff.2 ⟨hp, ?_⟩
  rcases steps_eq p with hsteps | hsteps
  · rw [hsteps, h]
  · rw [hsteps, walk_dot h]

/-- A path whose steps start with the names in another one leads on from where that one leads. -/
theorem place_of_steps {q : Path} {rest : List String} {r : Place} (hq : Admissible q) (hstart : start cwd q = start cwd p)
    (hsteps : steps p = segments q.spelling.toList ++ rest) (hrest : rest ≠ []) (h : f.place cwd follow p = .ok r) :
    ∃ loc left, f.place cwd true q = .ok ⟨loc, some .dir⟩ ∧ f.walk follow left loc rest = .ok r := by
  obtain ⟨-, hwalk⟩ := place_eq_ok_iff.1 h
  rw [hsteps] at hwalk
  obtain ⟨loc, left, hfront, hback⟩ := walk_append hrest hwalk
  rw [← hstart] at hfront
  exact ⟨loc, left, place_of_segments hq hfront, hback⟩

/-- **A path that is cut at a separator** leads to a directory. -/
theorem place_of_cut {front back : List Char} {r : Place} (hp : p.spelling.toList = front ++ '/' :: back)
    (hfront : front ≠ []) (h : f.place cwd follow p = .ok r) :
    ∃ loc, f.place cwd true ⟨String.ofList front⟩ = .ok ⟨loc, some .dir⟩ := by
  have hq := (place_eq_ok_iff.1 h).1.front hp hfront
  have hsteps : steps p = segments (⟨String.ofList front⟩ : Path).spelling.toList ++ steps ⟨String.ofList back⟩ := by
    rw [steps_append_sep hp, String.toList_ofList]
  obtain ⟨loc, _, hplace, -⟩ := place_of_steps hq (start_front hp hfront) hsteps (steps_ne_nil _) h
  exact ⟨loc, hplace⟩

/-- A path that is followed from a directory is spelled behind a separator. -/
theorem exists_join_eq {base file : Path} (hbase : base.spelling ≠ "") (hfile : file.isAbsolute = false) :
    ∃ front, (base / file).spelling.toList = front ++ '/' :: file.spelling.toList ∧
      segments front = segments base.spelling.toList := by
  change ∃ front, (base.join file).spelling.toList = front ++ '/' :: file.spelling.toList ∧ _
  simp only [Path.join, hfile, Bool.false_eq_true, if_false]
  split
  -- the base ends with a separator, and its segments do not change when it is cut there
  next hends =>
    have hlast := hends.resolve_left (by simpa using hbase)
    obtain ⟨front, hfront⟩ := List.getLast?_eq_some_iff.1 hlast
    exact ⟨front, by simp [hfront], by rw [hfront, segments_append_sep, segments_nil, List.append_nil]⟩
  next => exact ⟨base.spelling.toList, by simp, rfl⟩

/-- The steps of a path that is followed from a directory. -/
theorem steps_join {base file : Path} (hbase : base.spelling ≠ "") (hfile : file.isAbsolute = false) :
    steps (base / file) = segments base.spelling.toList ++ steps file := by
  obtain ⟨front, hcut, hfront⟩ := exists_join_eq hbase hfile
  rw [steps_append_sep hcut, String.ofList_toList, hfront]

theorem segments_join {base file : Path} (hbase : base.spelling ≠ "") (hfile : file.isAbsolute = false) :
    segments (base / file).spelling.toList = segments base.spelling.toList ++ segments file.spelling.toList := by
  obtain ⟨front, hcut, hfront⟩ := exists_join_eq hbase hfile
  rw [hcut, segments_append_sep, hfront]

/-- Nothing stands before what is followed from the empty path. -/
theorem join_of_empty {base : Path} (hbase : base.spelling = "") (file : Path) : base / file = file := by
  change base.join file = file
  unfold Path.join
  split
  · rfl
  · simp [hbase]

theorem join_ne_empty {base file : Path} (hbase : base.spelling ≠ "") (hfile : file.isAbsolute = false) :
    (base / file).spelling ≠ "" := by
  change (base.join file).spelling ≠ ""
  simp only [Path.join, hfile, Bool.false_eq_true, if_false]
  split <;> simp [hbase]

theorem start_join {base file : Path} (hbase : base.spelling ≠ "") (hfile : file.isAbsolute = false) :
    start cwd base = start cwd (base / file) := by
  have hhead : ∀ back : List Char, (base.spelling.toList ++ back).head? = base.spelling.toList.head? := by
    intro back
    obtain ⟨c, rest, hc⟩ := List.exists_cons_of_ne_nil (l := base.spelling.toList) (by simpa using hbase)
    rw [hc]
    rfl
  have hsame : (base / file).isAbsolute = base.isAbsolute := by
    change (base.join file).isAbsolute = _
    simp only [Path.join, hfile, Bool.false_eq_true, if_false]
    split <;> simp [Path.isAbsolute, hhead, List.append_assoc]
  rw [start, start, hsame]

/-- The names in the path of a directory lead there. -/
theorem walk_segments_of_place {base : Path} {loc : Location} (h : f.place cwd true base = .ok ⟨loc, some .dir⟩) :
    f.walk true maxLinks (start cwd base) (segments base.spelling.toList) = .ok ⟨loc, some .dir⟩ := by
  obtain ⟨-, hwalk⟩ := place_eq_ok_iff.1 h
  rcases steps_eq base with hsteps | hsteps
  · rwa [hsteps] at hwalk
  · rw [hsteps] at hwalk
    obtain ⟨loc', left, hfront, hdot⟩ := walk_append (by simp) hwalk
    have hsame : loc' = loc := by simpa using hdot
    rwa [hsame] at hfront

/-- **A path that is followed from a directory** leads on from where the directory is, or nowhere for the same reason. -/
theorem exists_place_join {base file : Path} {loc : Location} (hfile : file.isAbsolute = false)
    (hbase : f.place cwd true base = .ok ⟨loc, some .dir⟩) :
    ∃ left, ∀ follow, Admissible (base / file) →
      f.place cwd follow (base / file) = (f.walk follow left loc (steps file)).mapError Fault.ofKind := by
  have hsome := (place_eq_ok_iff.1 hbase).1.some
  obtain ⟨left, hrest⟩ := exists_walk_append (walk_segments_of_place hbase)
  refine ⟨left, fun follow hpath => ?_⟩
  rw [place_eq f cwd follow hpath, steps_join hsome hfile, ← start_join hsome hfile, hrest _ _ (steps_ne_nil file)]

end Places

/-! ### Looking at a place -/

section Looking

variable {f : Files} {cwd : Location} {p : Path}

theorem lookup_eq_ok_iff {node : Node} :
    f.lookup cwd p = .ok node ↔ ∃ loc, f.place cwd true p = .ok ⟨loc, some node⟩ := by
  unfold lookup
  rw [bind_eq_ok_iff]
  constructor
  · rintro ⟨⟨loc, _ | found⟩, hplace, hnode⟩
    · simp at hnode
    · exact ⟨loc, Except.ok.inj hnode ▸ hplace⟩
  · rintro ⟨loc, hplace⟩
    exact ⟨_, hplace, rfl⟩

theorem isDir_iff : f.isDir cwd p = true ↔ ∃ loc, f.place cwd true p = .ok ⟨loc, some .dir⟩ := by
  simp only [isDir, Option.any_eq_true, toOption_eq_some_iff, lookup_eq_ok_iff]
  constructor
  · rintro ⟨_ | _ | _, ⟨loc, hplace⟩, hdir⟩
    case dir => exact ⟨loc, hplace⟩
    all_goals cases hdir
  · rintro ⟨loc, hplace⟩
    exact ⟨.dir, ⟨loc, hplace⟩, rfl⟩

theorem isFile_iff : f.isFile cwd p = true ↔
    ∃ loc data executable, f.place cwd true p = .ok ⟨loc, some (.file data executable)⟩ := by
  simp only [isFile, Option.any_eq_true, toOption_eq_some_iff, lookup_eq_ok_iff]
  constructor
  · rintro ⟨_ | ⟨data, executable⟩ | _, ⟨loc, hplace⟩, hfile⟩
    case file => exact ⟨loc, data, executable, hplace⟩
    all_goals cases hfile
  · rintro ⟨loc, data, executable, hplace⟩
    exact ⟨_, ⟨loc, hplace⟩, rfl⟩

theorem read_eq_ok_iff {data : Bytes} : f.read cwd p = .ok data ↔
    ∃ loc executable, f.place cwd true p = .ok ⟨loc, some (.file data executable)⟩ := by
  unfold read
  rw [bind_eq_ok_iff]
  constructor
  · rintro ⟨_ | ⟨content, executable⟩ | _, hlookup, hdata⟩
    case file =>
      obtain ⟨loc, hplace⟩ := lookup_eq_ok_iff.1 hlookup
      exact ⟨loc, executable, Except.ok.inj hdata ▸ hplace⟩
    all_goals simp at hdata
  · rintro ⟨loc, executable, hplace⟩
    exact ⟨_, lookup_eq_ok_iff.2 ⟨loc, hplace⟩, rfl⟩

/-- Where everything is kept paths lead where they led. -/
theorem place_of_keptIn {g : Files} (hkept : f.KeptIn g) {loc : Location} {node : Node}
    (h : f.place cwd follow p = .ok ⟨loc, some node⟩) : g.place cwd follow p = .ok ⟨loc, some node⟩ := by
  refine place_of_waysKept hkept.ways h fun hdir => ?_
  obtain ⟨-, hnode⟩ := (place_end h).resolve_left fun hend => hdir (Option.some.inj hend)
  exact hkept _ _ hnode.symm

/-- What can be read can be read in a tree that has more. -/
theorem read_of_keptIn {g : Files} (hkept : f.KeptIn g) {data : Bytes} (h : f.read cwd p = .ok data) :
    g.read cwd p = .ok data := by
  obtain ⟨loc, executable, hplace⟩ := read_eq_ok_iff.1 h
  exact read_eq_ok_iff.2 ⟨loc, executable, place_of_keptIn hkept hplace⟩

end Looking

/-! ### Making directories -/

/-- **A tree with everything that another one has,** and some directories more. -/
structure AddsDirs (f g : Files) : Prop where
  kept : f.KeptIn g
  only : ∀ loc node, g.node? loc = some node → f.node? loc = some node ∨ node = .dir

theorem AddsDirs.refl (f : Files) : f.AddsDirs f := ⟨KeptIn.refl f, fun _ _ h => Or.inl h⟩

theorem AddsDirs.trans {f g k : Files} (h : f.AddsDirs g) (h' : g.AddsDirs k) : f.AddsDirs k :=
  ⟨h.kept.trans h'.kept, fun loc node hnode => (h'.only loc node hnode).elim (h.only loc node) Or.inr⟩

section Directories

variable {f g : Files} {cwd : Location} {p : Path}

/-- A new directory takes a place where nothing was. -/
theorem makeDirAt_eq_ok_iff {loc : Location} : f.makeDirAt cwd p = .ok (loc, g) ↔
    f.place cwd false (withoutEndSeparators p) = .ok ⟨loc, none⟩ ∧ g = f.put loc .dir := by
  unfold makeDirAt
  rw [bind_eq_ok_iff]
  constructor
  · rintro ⟨⟨loc', _ | node⟩, hplace, hmade⟩
    · obtain ⟨rfl, rfl⟩ := Prod.mk.inj (Except.ok.inj hmade)
      exact ⟨hplace, rfl⟩
    · simp at hmade
  · rintro ⟨hplace, rfl⟩
    exact ⟨_, hplace, rfl⟩

theorem makeDirAt_addsDirs {loc : Location} (h : f.makeDirAt cwd p = .ok (loc, g)) : f.AddsDirs g := by
  obtain ⟨hplace, rfl⟩ := makeDirAt_eq_ok_iff.1 h
  -- the walk ended where nothing is
  obtain ⟨hloc, hfree⟩ := (place_end hplace).resolve_left (by simp)
  refine ⟨keptIn_put hloc hfree.symm .dir, fun other node hnode => ?_⟩
  rw [node?_put f hloc] at hnode
  split at hnode
  · exact Or.inr (Option.some.inj hnode).symm
  · exact Or.inl hnode

theorem makeDir_addsDirs (h : f.makeDir cwd p = .ok g) : f.AddsDirs g := by
  obtain ⟨⟨loc, _⟩, hmade, rfl⟩ := map_eq_ok_iff.1 h
  exact makeDirAt_addsDirs hmade

theorem orThere_addsDirs {made : Except Fault (Location × Files)} (h : ∀ loc g, made = .ok (loc, g) → f.AddsDirs g) :
    f.AddsDirs (f.orThere cwd p made).2 := by
  unfold orThere
  split
  next loc g => exact h loc g rfl
  next => split <;> exact AddsDirs.refl f

theorem makeDirs_addsDirs (up : List Path) : f.AddsDirs (f.makeDirs cwd up).2 := by
  induction up generalizing f with
  | nil => exact AddsDirs.refl f
  | cons p up ih =>
    unfold makeDirs
    split
    · exact AddsDirs.refl f
    split
    -- the directories above are made first
    next =>
      have hup := ih (f := f)
      split
      next hrun => rwa [hrun] at hup
      next base g hrun =>
        rw [hrun] at hup
        exact hup.trans (orThere_addsDirs fun _ _ => makeDirAt_addsDirs)
    next => exact orThere_addsDirs fun _ _ => makeDirAt_addsDirs

/-- **Making directories adds directories and nothing else,** also if not all of them could be made. -/
theorem makeDirAll_addsDirs (f : Files) (cwd : Location) (p : Path) : f.AddsDirs (f.makeDirAll cwd p).2 :=
  makeDirs_addsDirs _

/-- A path without the separators at its end is the path itself, or the path is cut at the first of them. -/
theorem withoutEndSeparators_eq (p : Path) : withoutEndSeparators p = p ∨
    ∃ front back, front ≠ [] ∧ p.spelling.toList = front ++ '/' :: back ∧
      withoutEndSeparators p = ⟨String.ofList front⟩ := by
  unfold withoutEndSeparators
  have hsplit := List.takeWhile_append_dropWhile (p := (· == '/')) (l := p.spelling.toList.reverse)
  have hseps : ∀ c ∈ p.spelling.toList.reverse.takeWhile (· == '/'), c = '/' := by
    intro c hc
    simpa using List.all_eq_true.1 List.all_takeWhile c hc
  revert hsplit hseps
  generalize p.spelling.toList.reverse.takeWhile (· == '/') = seps
  generalize p.spelling.toList.reverse.dropWhile (· == '/') = core
  intro hsplit hseps
  -- what is left of the spelling is in front of its last separators
  have hp : p.spelling.toList = core.reverse ++ seps.reverse := by
    rw [← List.reverse_append, hsplit, List.reverse_reverse]
  by_cases hcore : core = []
  · exact Or.inl (by simp [hcore])
  · rcases hback : seps.reverse with - | ⟨c, back⟩
    · refine Or.inl ?_
      rw [hback, List.append_nil] at hp
      simp [← hp]
    · have hc : c ∈ seps := by
        rw [← List.mem_reverse, hback]
        exact List.mem_cons_self
      obtain rfl := hseps c hc
      exact Or.inr ⟨core.reverse, back, by simpa using hcore, by rw [hp, hback], by simp [hcore]⟩

/-- The path without the separators at its end leads somewhere if the path does. -/
theorem exists_place_withoutEndSeparators {loc : Location} {node : Node}
    (h : f.place cwd true p = .ok ⟨loc, some node⟩) :
    ∃ loc' node', f.place cwd false (withoutEndSeparators p) = .ok ⟨loc', some node'⟩ := by
  rcases withoutEndSeparators_eq p with hsame | ⟨front, back, hfront, hp, hcut⟩
  · rw [hsame]
    exact exists_place_false h
  · obtain ⟨loc', hplace⟩ := place_of_cut hp hfront h
    rw [hcut]
    exact exists_place_false hplace

/-- A path is the first of those that lead up from it. -/
theorem exists_ancestors (fuel : Nat) (p : Path) : ∃ up, ancestors fuel p = p :: up := by
  cases fuel with
  | zero => exact ⟨[], rfl⟩
  | succ n =>
    unfold ancestors
    cases p.parent? with
    | none => exact ⟨[], rfl⟩
    | some parent => exact ⟨_, rfl⟩

/-- A directory that exists cannot be made once more. -/
theorem makeDirAt_of_isDir (h : f.isDir cwd p = true) : f.makeDirAt cwd p = .error (.ofKind .alreadyExists) := by
  obtain ⟨loc, hplace⟩ := isDir_iff.1 h
  obtain ⟨loc', node', hfound⟩ := exists_place_withoutEndSeparators hplace
  rw [makeDirAt, hfound]
  rfl

/-- **A directory that exists is left as it is.** -/
theorem makeDirAll_of_isDir (h : f.isDir cwd p = true) : f.makeDirAll cwd p = (.ok (), f) := by
  obtain ⟨loc, hplace⟩ := isDir_iff.1 h
  have hsome := (place_eq_ok_iff.1 hplace).1.some
  obtain ⟨up, hup⟩ := exists_ancestors p.spelling.length p
  -- the directory cannot be made, since it is there, so nothing above it is looked at
  simp [makeDirAll, hup, makeDirs, hsome, makeDirAt_of_isDir h, Fault.ofKind, orThere, hplace, Except.map]

end Directories

/-! ### Replacing a file -/

/-- Whether a path ends in the name of an entry, as a path that takes a file has to. -/
structure EndsInName (p : Path) : Prop where
  name : ∃ n, (steps p).getLast? = some n ∧ n ≠ "." ∧ n ≠ ".."
  noSeparator : endsInSeparator p = false

theorem withoutEndSeparators_of_not_endsInSeparator {p : Path} (h : endsInSeparator p = false) :
    withoutEndSeparators p = p := by
  unfold withoutEndSeparators
  rcases hrev : p.spelling.toList.reverse with - | ⟨c, rest⟩
  · simp
  · have hp : p.spelling.toList = rest.reverse ++ [c] := by
      rw [← List.reverse_reverse p.spelling.toList, hrev, List.reverse_cons]
    have hc : c ≠ '/' := by simpa [endsInSeparator, hp] using h
    simp [hc, ← hp]

/-- **Replacing a file** puts a file at the end of the path, in place of what is there if that is no directory. -/
theorem replace_eq_ok_iff {f g : Files} {cwd : Location} {p : Path} {data : Bytes} :
    f.replace cwd p data = .ok g ↔ EndsInName p ∧
      ∃ loc node, f.place cwd false p = .ok ⟨loc, node⟩ ∧ node ≠ some .dir ∧ g = f.put loc (.file data false) := by
  unfold replace
  dsimp only
  rw [bind_eq_ok_iff]
  constructor
  · rintro ⟨⟨loc, node⟩, hplace, hput⟩
    -- the cases are the last names that a path can have, and only the last one puts a file
    split at hput
    · simp at hput
    · simp at hput
    · simp at hput
    next n hdot hup hlast =>
      split at hput
      · simp at hput
      next hends =>
        dsimp only at hput
        split at hput
        · simp at hput
        next hdir =>
          have hsep : endsInSeparator p = false := by simpa using hends
          rw [withoutEndSeparators_of_not_endsInSeparator hsep] at hplace hlast
          exact ⟨⟨⟨n, hlast, by simpa using hdot, by simpa using hup⟩, hsep⟩, loc, node, hplace, hdir,
            (Except.ok.inj hput).symm⟩
  · rintro ⟨⟨⟨n, hlast, hdot, hup⟩, hends⟩, loc, node, hplace, hdir, rfl⟩
    rw [withoutEndSeparators_of_not_endsInSeparator hends, hlast]
    refine ⟨_, hplace, ?_⟩
    split
    next heq => simp at heq
    next heq => exact absurd (Option.some.inj heq) hdot
    next heq => exact absurd (Option.some.inj heq) hup
    next => simp [hends]

/-- **A file that was replaced** is found again by its path, or it is in the way of the path. -/
theorem place_of_replace {f g : Files} {cwd : Location} {p : Path} {data : Bytes} (h : f.replace cwd p data = .ok g) :
    EndsInName p ∧ ∃ loc, ∀ follow, g.place cwd follow p = .ok ⟨loc, some (.file data false)⟩ ∨
      g.place cwd follow p = .error (.ofKind .notADirectory) := by
  obtain ⟨hname, loc, node, hplace, hdir, rfl⟩ := replace_eq_ok_iff.1 h
  have hloc := ((place_end hplace).resolve_left hdir).1
  refine ⟨hname, loc, fun follow => place_put_file hdir (fun other hother => ?_) ?_ hplace⟩
  · rw [node?_put f hloc, if_neg hother]
  · rw [node?_put f hloc, if_pos rfl]

/-- A file that was replaced is read again, unless it took the place of a link. -/
theorem read_of_replace {f g : Files} {cwd : Location} {p : Path} {data : Bytes}
    (hlink : ∀ loc target, f.place cwd false p ≠ .ok ⟨loc, some (.link target)⟩) (h : f.replace cwd p data = .ok g) :
    g.read cwd p = .ok data := by
  obtain ⟨-, loc, node, hplace, hdir, rfl⟩ := replace_eq_ok_iff.1 h
  have hold : ∀ found, node = some found → found.isFile = true := by
    rintro found rfl
    cases found with
    | dir => exact absurd rfl hdir
    | file data executable => rfl
    | link target => exact absurd hplace (hlink loc target)
  have hend : (f.put loc (.file data false)).place cwd false p = .ok ⟨loc, some (.file data false)⟩ :=
    place_put hold (by simp) hplace
  exact read_eq_ok_iff.2 ⟨loc, false, place_true_of_not_link hend (by simp)⟩

/-- Writing the file that is there already keeps everything. -/
theorem keptIn_put_same {f : Files} {loc : Location} {node : Node} (hloc : loc ≠ []) (h : f.node? loc = some node) :
    f.KeptIn (f.put loc node) := by
  intro other n hn
  rw [node?_put f hloc]
  split
  next hsame => rw [← hn, hsame, h]
  next => exact hn

/-! ### The directory of a file -/

theorem intercalate_append {first second : List (List Char)} (hfirst : first ≠ []) (hsecond : second ≠ []) :
    ['/'].intercalate (first ++ second) = ['/'].intercalate first ++ '/' :: ['/'].intercalate second := by
  induction first with
  | nil => exact absurd rfl hfirst
  | cons x first ih =>
    rw [List.cons_append, List.intercalate_cons_of_ne_nil (by simp [hsecond])]
    by_cases hmore : first = []
    · simp [hmore]
    · rw [ih hmore, List.intercalate_cons_of_ne_nil hmore]
      simp

/-- A spelling is the mark at its front and the segments after it, with separators between them. -/
theorem markAndBody_eq (cs : List Char) :
    cs = (Path.markAndBody cs).1 ++ ['/'].intercalate (Path.markAndBody cs).2 ∧
      ((Path.markAndBody cs).1 = [] ∨ (Path.markAndBody cs).1 = ['.'] ∨ (Path.markAndBody cs).1 = ['/']) := by
  unfold Path.markAndBody
  split
  next rest => exact ⟨by simp [List.intercalate_splitOn], by simp⟩
  next => exact ⟨by simp, by simp⟩
  next rest =>
    refine ⟨?_, by simp⟩
    rw [List.intercalate_cons_of_ne_nil (List.splitOn_ne_nil _ _), List.intercalate_splitOn]
    rfl
  next => exact ⟨by simp [List.intercalate_splitOn], by simp⟩

/-- **Segments without the void ones at their end.** What is left ends in a component, if anything is left. -/
theorem exists_trimmed (segments : List (List Char)) :
    ∃ kept voids, segments = kept ++ voids ∧ (∀ s ∈ voids, Path.isVoid s = true) ∧
      (∀ s ∈ kept.getLast?, Path.isVoid s = false) ∧ segments.reverse.dropWhile Path.isVoid = kept.reverse := by
  refine ⟨(segments.reverse.dropWhile Path.isVoid).reverse, (segments.reverse.takeWhile Path.isVoid).reverse, ?_, ?_, ?_, ?_⟩
  · rw [← List.reverse_append, List.takeWhile_append_dropWhile, List.reverse_reverse]
  · intro s hs
    exact List.mem_takeWhile_imp (List.mem_reverse.1 hs)
  · intro s hs
    have hnot := List.head?_dropWhile_not Path.isVoid segments.reverse
    rw [List.getLast?_reverse, Option.mem_def] at hs
    rw [hs] at hnot
    exact hnot
  · rw [List.reverse_reverse]

/-- **Where the parent of a path is cut out of its spelling:** in front of the last segment that is not void, and of the void
ones before it. A `.` at the front with void segments behind it has the empty path as its parent. -/
theorem exists_cut_of_parent? {p parent : Path} (h : p.parent? = some parent) :
    ((Path.markAndBody p.spelling.toList).1 = ['.'] ∧
      (∀ s ∈ (Path.markAndBody p.spelling.toList).2, Path.isVoid s = true) ∧ parent = ⟨""⟩) ∨
    ∃ init dropped last voids, (Path.markAndBody p.spelling.toList).2 = init ++ (dropped ++ last :: voids) ∧
      (∀ s ∈ init.getLast?, Path.isVoid s = false) ∧ (∀ s ∈ dropped, Path.isVoid s = true) ∧ Path.isVoid last = false ∧
      (∀ s ∈ voids, Path.isVoid s = true) ∧
      parent = ⟨String.ofList ((Path.markAndBody p.spelling.toList).1 ++ ['/'].intercalate init)⟩ := by
  unfold Path.parent? at h
  dsimp only at h
  obtain ⟨kept, voids, hbody, hvoids, hlast, hdrop⟩ := exists_trimmed (Path.markAndBody p.spelling.toList).2
  rw [hdrop] at h
  rcases List.eq_nil_or_concat kept with rfl | ⟨init, last, rfl⟩
  · obtain ⟨hmark, rfl⟩ : (Path.markAndBody p.spelling.toList).1 = ['.'] ∧ ⟨""⟩ = parent := by simpa using h
    exact Or.inl ⟨hmark, by simpa [hbody] using hvoids, rfl⟩
  · rw [List.concat_eq_append, List.reverse_append, List.reverse_singleton, List.singleton_append] at h
    rw [List.concat_eq_append] at hbody hlast
    -- what is void in front of the last component is dropped as well
    obtain ⟨front, dropped, rfl, hdropped, hfront, htrim⟩ := exists_trimmed init
    refine Or.inr ⟨front, dropped, last, voids, ?_, hfront, hdropped, hlast last (by simp), hvoids, ?_⟩
    · rw [hbody]
      simp
    · rw [← Option.some.inj h, htrim, List.reverse_reverse]

/-- The parent of a path is the path cut at a separator, or the path starts there. -/
theorem parent?_eq {p parent : Path} (h : p.parent? = some parent) :
    parent.spelling = "" ∨ parent.spelling = "." ∨ parent.spelling = "/" ∨
      ∃ front back, front ≠ [] ∧ p.spelling.toList = front ++ '/' :: back ∧ parent = ⟨String.ofList front⟩ := by
  obtain ⟨hp, hmark⟩ := markAndBody_eq p.spelling.toList
  rcases exists_cut_of_parent? h with ⟨-, -, rfl⟩ | ⟨init, dropped, last, voids, hbody, -, -, -, -, rfl⟩
  · exact Or.inl rfl
  · by_cases hinit : init = []
    · rcases hmark with hmark | hmark | hmark <;> simp [hmark, hinit]
    · rw [hbody, intercalate_append hinit (by simp), ← List.append_assoc] at hp
      by_cases hfront : (Path.markAndBody p.spelling.toList).1 ++ ['/'].intercalate init = []
      · exact Or.inl (by rw [hfront])
      · exact Or.inr (Or.inr (Or.inr ⟨_, _, hfront, hp, rfl⟩))

/-- **The directory in which a file is prepared exists if the file does.** -/
theorem isDir_stagingDir {f : Files} {cwd : Location} {follow : Bool} {p : Path} {r : Place}
    (h : f.place cwd follow p = .ok r) : f.isDir cwd (Host.stagingDir p) = true := by
  have hdot : f.isDir cwd ⟨"."⟩ = true := rfl
  have hroot : f.isDir cwd ⟨"/"⟩ = true := rfl
  unfold Host.stagingDir
  split
  next parent hparent =>
    obtain ⟨spelling⟩ := parent
    split
    · exact hdot
    next hsome =>
      -- what is above the last separator was passed on the way
      rcases parent?_eq hparent with hempty | rfl | rfl | ⟨front, back, hfront, hp, hcut⟩
      · exact absurd hempty hsome
      · exact hdot
      · exact hroot
      · rw [hcut]
        exact isDir_iff.2 (place_of_cut hp hfront h)
  next => exact hdot

/-! ### Directories that cannot be made -/

section Failures

variable {f g : Files} {cwd : Location} {p : Path}

/-- The parent of a directory is a directory. -/
theorem isDir_parent {parent : Path} (hparent : p.parent? = some parent) (hsome : parent.spelling ≠ "")
    (h : f.isDir cwd p = true) : f.isDir cwd parent = true := by
  obtain ⟨loc, hplace⟩ := isDir_iff.1 h
  obtain ⟨spelling⟩ := parent
  rcases parent?_eq hparent with hempty | rfl | rfl | ⟨front, back, hfront, hp, hcut⟩
  · exact absurd hempty hsome
  · rfl
  · rfl
  · rw [hcut]
    exact isDir_iff.2 (place_of_cut hp hfront hplace)

theorem orThere_error {made : Except Fault (Location × Files)} {fault : Fault}
    (h : f.orThere cwd p made = (.error fault, g)) : g = f ∧ f.isDir cwd p = false := by
  unfold orThere at h
  split at h
  · simp at h
  next =>
    split at h
    · simp at h
    next hnot =>
      refine ⟨(Prod.mk.inj h).2.symm, ?_⟩
      by_contra hdir
      obtain ⟨loc, hplace⟩ := isDir_iff.1 (by simpa using hdir)
      exact hnot loc hplace

theorem isDir_of_makeDirs_cons_error {up : List Path} {fault : Fault}
    (hup : f.isDir cwd p = false → ∀ g fault, f.makeDirs cwd up = (.error fault, g) → g.isDir cwd p = false)
    (h : f.makeDirs cwd (p :: up) = (.error fault, g)) : g.isDir cwd p = false := by
  unfold makeDirs at h
  split at h
  · simp at h
  split at h
  next hmake =>
    -- something is missing above, so the directory was not there
    have hnot : f.isDir cwd p = false := by
      by_contra hdir
      rw [makeDirAt_of_isDir (by simpa using hdir)] at hmake
      simp [Fault.ofKind] at hmake
    split at h
    next hrun =>
      obtain ⟨-, rfl⟩ := Prod.mk.inj h
      exact hup hnot _ _ hrun
    next =>
      obtain ⟨rfl, hdir⟩ := orThere_error h
      exact hdir
  next =>
    obtain ⟨rfl, hdir⟩ := orThere_error h
    exact hdir

theorem isDir_of_makeDirs_error {fuel : Nat} {fault : Fault}
    (h : f.makeDirs cwd (ancestors fuel p) = (.error fault, g)) : g.isDir cwd p = false := by
  induction fuel generalizing f g p fault with
  | zero =>
    refine isDir_of_makeDirs_cons_error (fun hnot g' _ hrun => ?_) h
    obtain ⟨-, rfl⟩ := Prod.mk.inj hrun
    exact hnot
  | succ fuel ih =>
    unfold ancestors at h
    split at h
    next parent hparent =>
      refine isDir_of_makeDirs_cons_error (fun _ g' fault' hrun => ?_) h
      -- what is below no directory is none
      by_cases hempty : parent.spelling = ""
      · have hok : (f.makeDirs cwd (ancestors fuel parent)).1 = .ok cwd := by
          cases fuel with
          | zero => simp [ancestors, makeDirs, hempty]
          | succ fuel =>
            unfold ancestors
            split <;> simp [makeDirs, hempty]
        simp [hrun] at hok
      · by_contra hdir
        have hup := isDir_parent hparent hempty (by simpa using hdir)
        simp [ih hrun] at hup
    next =>
      refine isDir_of_makeDirs_cons_error (fun hnot g' _ hrun => ?_) h
      obtain ⟨-, rfl⟩ := Prod.mk.inj hrun
      exact hnot

/-- **A directory that could not be made is not there,** whatever was made on the way to it. -/
theorem isDir_of_makeDirAll_error {fault : Fault} (h : f.makeDirAll cwd p = (.error fault, g)) :
    g.isDir cwd p = false := by
  unfold makeDirAll at h
  rcases hrun : f.makeDirs cwd (ancestors p.spelling.length p) with ⟨r, f'⟩
  rw [hrun] at h
  obtain ⟨hr, rfl⟩ := Prod.mk.inj h
  cases r with
  | ok loc => simp [Except.map] at hr
  | error fault' => exact isDir_of_makeDirs_error hrun

/-! ### Paths of files -/

/-- A path that ends in a separator asks for a directory. -/
theorem getLast?_steps_of_endsInSeparator (h : endsInSeparator p = true) : (steps p).getLast? = some "." := by
  have hlast : p.spelling.toList.getLast? = some '/' := by simpa [endsInSeparator] using h
  obtain ⟨front, hp⟩ := List.getLast?_eq_some_iff.1 hlast
  rw [steps_append_sep hp]
  have hdot : steps ⟨String.ofList []⟩ = ["."] := by decide
  rw [hdot, List.getLast?_append]
  rfl

/-- **A path that leads to a file ends in its name.** -/
theorem endsInName_of_place {loc : Location} {data : Bytes} {executable : Bool} {follow : Bool}
    (h : f.place cwd follow p = .ok ⟨loc, some (.file data executable)⟩) : EndsInName p := by
  obtain ⟨-, hwalk⟩ := place_eq_ok_iff.1 h
  -- the walk to all names but the last one ends in a directory, and the last one leads to a file
  obtain ⟨init, last, hsteps⟩ := (List.eq_nil_or_concat (steps p)).resolve_left (steps_ne_nil p)
  rw [List.concat_eq_append] at hsteps
  rw [hsteps] at hwalk
  obtain ⟨here, left, -, hend⟩ := walk_append (by simp) hwalk
  have hname : last ≠ "." ∧ last ≠ ".." := by
    constructor <;> rintro rfl <;> simp at hend
  refine ⟨⟨last, by simp [hsteps], hname⟩, ?_⟩
  by_contra hsep
  have hdot := getLast?_steps_of_endsInSeparator (p := p) (by simpa using hsep)
  rw [hsteps, List.getLast?_append] at hdot
  exact hname.1 (by simpa using hdot)

theorem exists_replace_of_place {loc : Location} {old : Bytes} {executable : Bool}
    (h : f.place cwd true p = .ok ⟨loc, some (.file old executable)⟩) (data : Bytes) :
    ∃ g, f.replace cwd p data = .ok g := by
  obtain ⟨loc', node, hplace⟩ := exists_place_false h
  refine ⟨_, replace_eq_ok_iff.2 ⟨endsInName_of_place h, loc', _, hplace, ?_, rfl⟩⟩
  rintro hdir
  rw [hdir] at hplace
  rw [place_true_of_not_link hplace (by simp)] at h
  simp at h

end Failures

end Files

end Recompile

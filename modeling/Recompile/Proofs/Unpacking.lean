import Mathlib.Data.List.Induction
import Recompile.Proofs.EntryNames
import Recompile.Proofs.OutputDirectory
import Recompile.Proofs.Packaging

/-!
# Unpacking into an empty directory

A `Files.PlainTree` says what is to be in a directory: plain names, everything in a directory, no links. Unpacking puts it
there entry by entry, and after some of the entries the directory has these and nothing else (`Files.Unpacked`). One more
entry is put where nothing is as long as the directories on the way to it are among them (`Jar.yields_extract_file`,
`Jar.yields_extract_dir`); a directory that is there already stays (`Jar.yields_extract_there`).

That only free places are filled has a second consequence: all paths that led somewhere still lead there, the path of the
directory itself among them (`Files.Unpacked.keptIn`).
-/

namespace Recompile

namespace Files

/-! ### Trees in a directory -/

/-- What is below a directory, by the ways that lead down to it. -/
def tree (f : Files) (base way : Location) : Option Node := f.node? (base ++ way)

/-- **A tree of files and directories with plain names.** Everything is in a directory, and there are no links. -/
structure PlainTree (tree : Location → Option Node) : Prop where
  names : ∀ way, way ≠ [] → tree way ≠ none → PlainWay way
  dirs : ∀ v rest, v ≠ [] → rest ≠ [] → tree (v ++ rest) ≠ none → tree v = some .dir
  links : ∀ way target, way ≠ [] → tree way ≠ some (.link target)

theorem mem_ways {f : Files} {base way : Location} : way ∈ f.ways base ↔ way ≠ [] ∧ f.tree base way ≠ none := mem_ways_iff

/-- **Whether a tree is one of plain names** shows when all of its ways have been looked at. -/
theorem plainTree_of_ways {f : Files} {base : Location}
    (h : ∀ way ∈ f.ways base, (∀ n ∈ way, PlainName n) ∧
      (way.dropLast ≠ [] → (f.tree base way.dropLast).any Node.isDir = true) ∧
      (f.tree base way).any (fun node => node.isDir || node.isFile) = true) : PlainTree (f.tree base) where
  names way hway hnode := ⟨hway, (h way (mem_ways.2 ⟨hway, hnode⟩)).1⟩
  dirs v rest hv hrest hnode := by
    induction rest using List.reverseRecOn with
    | nil => exact absurd rfl hrest
    | append_singleton init n ih =>
      -- what has an entry in it is a directory, and so is everything above it
      obtain ⟨-, hparent, -⟩ := h (v ++ (init ++ [n])) (mem_ways.2 ⟨by simp [hv], hnode⟩)
      rw [← List.append_assoc, List.dropLast_concat] at hparent
      have hdir : f.tree base (v ++ init) = some .dir := by
        have hkind := hparent (by simp [hv])
        cases hfound : f.tree base (v ++ init) with
        | none => simp [hfound] at hkind
        | some node => cases node <;> simp [hfound, Node.isDir] at hkind ⊢
      by_cases hinit : init = []
      · simpa [hinit] using hdir
      · exact ih hinit (by simp [hdir])
  links way target hway hnode := by
    obtain ⟨-, -, hkind⟩ := h way (mem_ways.2 ⟨hway, by simp [hnode]⟩)
    rw [hnode] at hkind
    simp [Node.isDir] at hkind

section Places

variable {f : Files} {cwd base : Location} {follow : Bool} {links : Nat} {root : Path} {way : Location}

/-- **Names lead down** through directories to what is at the end, if that is no link. -/
theorem walk_down {init : Location} {last : String} {node : Option Node} (hnames : ∀ n ∈ init ++ [last], IsName n)
    (hdirs : ∀ v, v ≠ [] → v <+: init → f.node? (base ++ v) = some .dir)
    (hnode : f.node? (base ++ (init ++ [last])) = node) (hlink : ∀ target, node ≠ some (.link target)) :
    f.walk follow links base (init ++ [last]) = .ok ⟨base ++ (init ++ [last]), node⟩ := by
  induction init generalizing base with
  | nil =>
    have hlast : IsName last := hnames last (by simp)
    cases hdir : node with
    | none => exact walk_last hlast (hnode.trans hdir) (by simp)
    | some found =>
      cases found with
      | dir =>
        have henter : f.node? (base ++ [last]) = some .dir := hnode.trans hdir
        rw [List.nil_append, walk_enter hlast henter, walk_nil]
      | file data executable => exact walk_last hlast (hnode.trans hdir) (by simp)
      | link target => exact absurd hdir (hlink target)
  | cons n init ih =>
    have hn : IsName n := hnames n (by simp)
    have hdir : f.node? (base ++ [n]) = some .dir := hdirs [n] (by simp) (by simp)
    -- the walk enters the first directory and goes on from there
    have hrest : f.walk follow links (base ++ [n]) (init ++ [last]) = .ok ⟨base ++ [n] ++ (init ++ [last]), node⟩ := ih
      (fun m hm => hnames m (List.mem_cons_of_mem n hm))
      (fun v hv hprefix => by
        have hmore := hdirs (n :: v) (by simp) ((List.cons_prefix_cons).2 ⟨rfl, hprefix⟩)
        simpa using hmore)
      (by simpa using hnode)
    rw [List.cons_append, walk_enter hn hdir, hrest]
    simp

/-- **A way is found by its path** if there are directories on it and no link at its end. -/
theorem place_join (hplace : f.place cwd true root = .ok ⟨base, some .dir⟩) (hway : PlainWay way)
    (hpath : Admissible (root / Path.ofWay way))
    (hdirs : ∀ v rest, v ≠ [] → rest ≠ [] → way = v ++ rest → f.node? (base ++ v) = some .dir)
    (hlink : ∀ target, f.node? (base ++ way) ≠ some (.link target)) (follow : Bool) :
    f.place cwd follow (root / Path.ofWay way) = .ok ⟨base ++ way, f.node? (base ++ way)⟩ := by
  obtain ⟨left, hjoin⟩ := exists_place_join (Path.isAbsolute_ofWay hway) hplace
  obtain ⟨init, last, rfl⟩ := (List.eq_nil_or_concat way).resolve_left hway.some
  rw [List.concat_eq_append] at *
  have hwalk : f.walk follow left base (init ++ [last]) =
      .ok ⟨base ++ (init ++ [last]), f.node? (base ++ (init ++ [last]))⟩ := by
    -- every step on the way enters a directory
    refine walk_down (fun n hn => (hway.names n hn).name) (fun v hv hprefix => ?_) rfl hlink
    obtain ⟨rest, rfl⟩ := hprefix
    exact hdirs v (rest ++ [last]) hv (by simp) (by simp)
  rw [hjoin follow hpath, Path.steps_ofWay hway, hwalk]
  rfl

/-- The path with a separator at its end leads to a directory, too. -/
theorem isDir_join_dirOfWay (hplace : f.place cwd true root = .ok ⟨base, some .dir⟩) (hway : PlainWay way)
    (hpath : Admissible (root / Path.ofWay way)) (hpath' : Admissible (root / Path.dirOfWay way))
    (hdirs : ∀ v rest, v ≠ [] → rest ≠ [] → way = v ++ rest → f.node? (base ++ v) = some .dir)
    (hdir : f.node? (base ++ way) = some .dir) : f.isDir cwd (root / Path.dirOfWay way) = true := by
  have hsome := (place_eq_ok_iff.1 hplace).1.some
  have hfile := place_join hplace hway hpath hdirs (by simp [hdir]) true
  have hstart : start cwd (root / Path.dirOfWay way) = start cwd (root / Path.ofWay way) := by
    rw [← start_join hsome (Path.isAbsolute_dirOfWay hway), ← start_join hsome (Path.isAbsolute_ofWay hway)]
  -- the separator at the end is one more step, which stays where it is
  have hsteps : steps (root / Path.dirOfWay way) = steps (root / Path.ofWay way) ++ ["."] := by
    rw [steps_join hsome (Path.isAbsolute_dirOfWay hway), steps_join hsome (Path.isAbsolute_ofWay hway),
      Path.steps_dirOfWay hway, Path.steps_ofWay hway, List.append_assoc]
  rw [hdir] at hfile
  refine isDir_iff.2 ⟨base ++ way, place_eq_ok_iff.2 ⟨hpath', ?_⟩⟩
  rw [hstart, hsteps]
  exact walk_dot (place_eq_ok_iff.1 hfile).2

end Places

/-! ### Making one entry -/

section Making

variable {f : Files} {cwd loc : Location} {p : Path}

/-- **A directory is made where nothing is.** -/
theorem makeDirAll_of_place (hsome : p.spelling ≠ "")
    (hplace : f.place cwd false (withoutEndSeparators p) = .ok ⟨loc, none⟩) :
    f.makeDirAll cwd p = (.ok (), f.put loc .dir) := by
  have hmake : f.makeDirAt cwd p = .ok (loc, f.put loc .dir) := makeDirAt_eq_ok_iff.2 ⟨hplace, rfl⟩
  obtain ⟨up, hup⟩ := exists_ancestors p.spelling.length p
  simp [makeDirAll, hup, makeDirs, hsome, hmake, orThere, Except.map]

/-- **A file is written where nothing is.** -/
theorem write_of_place {data : Bytes} (hends : endsInSeparator p = false) (hplace : f.place cwd true p = .ok ⟨loc, none⟩) :
    f.write cwd p data = .ok (f.put loc (.file data false)) := by
  simp [Files.write, hends, hplace, bind, Except.bind]

/-- The directory of an entry that can be looked up is there. -/
theorem makeDirAll_parent {follow : Bool} {r : Place} {parent : Path} (hparent : p.parent? = some parent)
    (hplace : f.place cwd follow p = .ok r) : f.makeDirAll cwd parent = (.ok (), f) := by
  obtain ⟨spelling⟩ := parent
  rcases parent?_eq hparent with hempty | rfl | rfl | ⟨front, back, hfront, hp, hcut⟩
  · obtain rfl : spelling = "" := hempty
    rfl
  · exact makeDirAll_of_isDir rfl
  · exact makeDirAll_of_isDir rfl
  · rw [hcut]
    exact makeDirAll_of_isDir (isDir_iff.2 (place_of_cut hp hfront hplace))

end Making

/-! ### A directory that fills -/

/-- **A directory that some entries of a tree have been put into.** It has these and nothing else, and everything outside
of it is as it was. -/
structure Unpacked (before after : Files) (target : Location) (tree : Location → Option Node) (done : List Location) :
    Prop where
  empty : ∀ way, way ≠ [] → before.node? (target ++ way) = none
  there : ∀ way ∈ done, after.node? (target ++ way) = tree way
  only : ∀ way, way ≠ [] → way ∉ done → after.node? (target ++ way) = none
  outside : ∀ loc, (∀ way, way ≠ [] → loc ≠ target ++ way) → after.node? loc = before.node? loc

namespace Unpacked

variable {before after : Files} {target way : Location} {tree : Location → Option Node} {done done' : List Location}

theorem start (hempty : ∀ way, way ≠ [] → before.node? (target ++ way) = none) :
    Unpacked before before target tree [] where
  empty := hempty
  there _ hmem := absurd hmem List.not_mem_nil
  only way hway _ := hempty way hway
  outside _ _ := rfl

theorem congr (h : Unpacked before after target tree done) (hsame : ∀ way, way ∈ done' ↔ way ∈ done) :
    Unpacked before after target tree done' where
  empty := h.empty
  there way hmem := h.there way ((hsame way).1 hmem)
  only way hway hmem := h.only way hway (mt (hsame way).2 hmem)
  outside := h.outside

/-- **One more entry.** -/
theorem put (h : Unpacked before after target tree done) (hway : way ≠ []) {node : Node} (hnode : tree way = some node) :
    Unpacked before (after.put (target ++ way) node) target tree (done ++ [way]) := by
  have hloc : target ++ way ≠ [] := by simp [hway]
  -- no other way ends in this place
  have hother : ∀ other, other ≠ way → (after.put (target ++ way) node).node? (target ++ other) =
      after.node? (target ++ other) := by
    intro other hne
    rw [node?_put after hloc, if_neg]
    exact fun hsame => hne (List.append_cancel_left hsame)
  refine ⟨h.empty, fun other hmem => ?_, fun other hsome hmem => ?_, fun loc hloc' => ?_⟩
  · by_cases hsame : other = way
    · rw [hsame, node?_put after hloc, if_pos rfl, hnode]
    · rw [hother other hsame]
      exact h.there other ((List.mem_append.1 hmem).resolve_right fun hlast => hsame (List.mem_singleton.1 hlast))
  · rw [List.mem_append, List.mem_singleton, not_or] at hmem
    rw [hother other hmem.2]
    exact h.only other hsome hmem.1
  · rw [node?_put after hloc, if_neg (hloc' way hway)]
    exact h.outside loc hloc'

/-- **What was there before is there still,** since nothing was in the directory. -/
theorem keptIn (h : Unpacked before after target tree done) : before.KeptIn after := by
  intro loc node hnode
  rw [h.outside loc]
  · exact hnode
  · rintro way hway rfl
    rw [h.empty way hway] at hnode
    simp at hnode

/-- The path of an entry leads to its place when the directories on the way are there. -/
theorem place_join (h : Unpacked before after target tree done) (ht : PlainTree tree) {cwd : Location} {dest : Path}
    (hdest : before.place cwd true dest = .ok ⟨target, some .dir⟩) (hway : PlainWay way) (hnode : tree way ≠ none)
    (hpath : Admissible (dest / Path.ofWay way))
    (hparents : ∀ v rest, v ≠ [] → rest ≠ [] → way = v ++ rest → v ∈ done) (follow : Bool) :
    after.place cwd follow (dest / Path.ofWay way) = .ok ⟨target ++ way, after.node? (target ++ way)⟩ := by
  refine Files.place_join (place_of_keptIn h.keptIn hdest) hway hpath (fun v rest hv hrest hsplit => ?_)
    (fun link hlink => ?_) follow
  · rw [h.there v (hparents v rest hv hrest hsplit)]
    exact ht.dirs v rest hv hrest (hsplit ▸ hnode)
  · by_cases hdone : way ∈ done
    · rw [h.there way hdone] at hlink
      exact ht.links way link hway.some hlink
    · rw [h.only way hway.some hdone] at hlink
      simp at hlink

end Unpacked

end Files

namespace Jar

open Files Zip

variable {machine : Host} {dest p : Path} {m : Member} {before after f g : Files} {target way loc : Location}
  {tree : Location → Option Node} {done ways : List Location} {data : Bytes}

/-! ### Unpacking one entry -/

/-- The item of an archive for an entry of a tree. -/
def itemAt (way : Location) : Node → Item
  | .file data _ => .file (Path.ofWay way).spelling data
  | _ => .directory (Path.dirOfWay way).spelling

/-- **A member that was read for an item:** it has the name of the item, and its contents are those of the item. -/
def Holds (item : Item) (m : Member) : Prop := m.name = item.name ∧ m.contents? = some ⟨item.data, none⟩

/-- The path of an entry of a tree, with a separator at the end if the entry is a directory. -/
def pathAt (way : Location) : Node → Path
  | .file .. => .ofWay way
  | _ => .dirOfWay way

/-- Whether the paths of all entries of a tree are short enough to be looked up from a directory. -/
def Reaches (dest : Path) (tree : Location → Option Node) : Prop :=
  ∀ way node, way ≠ [] → tree way = some node → (dest / pathAt way node).spelling.utf8ByteSize < maxPath

theorem Reaches.file (h : Reaches dest tree) (hway : way ≠ []) {executable : Bool}
    (hnode : tree way = some (.file data executable)) : (dest / Path.ofWay way).spelling.utf8ByteSize < maxPath := by
  have hshort := h way _ hway hnode
  rw [pathAt] at hshort
  exact hshort

theorem Reaches.dir (h : Reaches dest tree) (hway : way ≠ []) (hnode : tree way = some .dir) :
    (dest / Path.dirOfWay way).spelling.utf8ByteSize < maxPath := by
  have hshort := h way _ hway hnode
  rw [pathAt] at hshort
  · exact hshort
  · simp

/-- A file is written when its directory has been made. -/
theorem yields_writeMember (machine : Host) (data : Bytes)
    (hparent : ∀ parent, p.parent? = some parent → f.makeDirAll machine.cwd parent = (.ok (), g))
    (hnone : p.parent? = none → g = f) (hends : endsInSeparator p = false)
    (hplace : g.place machine.cwd true p = .ok ⟨loc, none⟩) :
    (writeMember p ⟨data, none⟩).Yields { machine with files := f } ()
      { machine with files := g.put loc (.file data false) } := by
  -- the file is written in the same way whether or not there is a directory to make
  have hwrite : (do
      Host.change (.file p) fun files cwd => files.write cwd p data
      pure () : Action Host BridgeError Unit).Yields { machine with files := g } ()
        { machine with files := g.put loc (.file data false) } :=
    Action.yields_bind.2 ⟨(), _, Host.yields_change.2 ⟨_, write_of_place hends hplace, rfl⟩,
      Action.yields_pure.2 ⟨rfl, rfl⟩⟩
  unfold writeMember
  cases hp : p.parent? with
  | none =>
    obtain rfl := hnone hp
    exact hwrite
  | some parent =>
    have hmade := hparent parent hp
    have hmakes : (Host.makeDirAll (BridgeError.file parent) parent).Yields { machine with files := f } ()
        { machine with files := g } :=
      Host.yields_makeDirAll.2 ⟨congrArg Prod.fst hmade, by rw [hmade]⟩
    exact Action.yields_bind.2 ⟨(), _, hmakes, hwrite⟩

theorem extractMember_ofWay {archive : Path} {contents : Zip.Contents} (hway : PlainWay way)
    (hname : m.name = (Path.ofWay way).spelling) (hcontents : m.contents? = some contents) :
    extractMember archive dest m = do writeMember (dest / Path.ofWay way) contents; return 1 := by
  unfold extractMember
  rw [hcontents]
  dsimp only
  rw [hname, Member.enclosed?_ofWay hway]
  dsimp only
  rw [Member.isDir_of_name_ofWay hway hname]
  rfl

theorem extractMember_dirOfWay {archive : Path} {contents : Zip.Contents} (hway : PlainWay way)
    (hname : m.name = (Path.dirOfWay way).spelling) (hcontents : m.contents? = some contents) :
    extractMember archive dest m = do
      Host.makeDirAll (.file (dest / Path.dirOfWay way)) (dest / Path.dirOfWay way); return 0 := by
  unfold extractMember
  rw [hcontents]
  dsimp only
  rw [hname, Member.enclosed?_dirOfWay hway]
  dsimp only
  rw [Member.isDir_of_name_dirOfWay hname]
  rfl

theorem yields_extract_of_write {archive : Path} (hway : PlainWay way) (hname : m.name = (Path.ofWay way).spelling)
    (hcontents : m.contents? = some ⟨data, none⟩)
    (hwrite : (writeMember (dest / Path.ofWay way) ⟨data, none⟩).Yields { machine with files := f } ()
      { machine with files := g }) :
    (extractMember archive dest m).Yields { machine with files := f } 1 { machine with files := g } := by
  rw [extractMember_ofWay hway hname hcontents]
  exact Action.yields_bind.2 ⟨(), _, hwrite, Action.yields_pure.2 ⟨rfl, rfl⟩⟩

/-- A member of a directory is unpacked by making the directory. -/
theorem yields_extract_of_make {archive : Path} (hway : PlainWay way) (hname : m.name = (Path.dirOfWay way).spelling)
    (hcontents : m.contents? = some ⟨data, none⟩)
    (hmake : f.makeDirAll machine.cwd (dest / Path.dirOfWay way) = (.ok (), g)) :
    (extractMember archive dest m).Yields { machine with files := f } 0 { machine with files := g } := by
  have hmakes : (Host.makeDirAll (BridgeError.file (dest / Path.dirOfWay way)) (dest / Path.dirOfWay way)).Yields
      { machine with files := f } () { machine with files := g } :=
    Host.yields_makeDirAll.2 ⟨congrArg Prod.fst hmake, by rw [hmake]⟩
  rw [extractMember_dirOfWay hway hname hcontents]
  exact Action.yields_bind.2 ⟨(), _, hmakes, Action.yields_pure.2 ⟨rfl, rfl⟩⟩

section Entries

variable (hdest : before.place machine.cwd true dest = .ok ⟨target, some .dir⟩) (ht : PlainTree tree)
  (hmarks : ∀ way data, tree way ≠ some (.file data true)) (hreach : Reaches dest tree)

include hdest ht hmarks hreach

/-- **One more entry is unpacked** when the directories on the way to it have been, and it has not, unless it is a directory
itself. -/
theorem exists_yields_extract (archive : Path) {node : Node} (h : Unpacked before after target tree done) (hway : way ≠ [])
    (hnode : tree way = some node) (hm : Holds (itemAt way node) m)
    (hparents : ∀ v rest, v ≠ [] → rest ≠ [] → way = v ++ rest → v ∈ done) (hnew : way ∈ done → node = .dir) :
    ∃ files, (extractMember archive dest m).Yields { machine with files := after } (if node.isFile then 1 else 0)
      { machine with files } ∧ Unpacked before files target tree (done ++ [way]) := by
  have hthere : tree way ≠ none := by simp [hnode]
  have hplain : PlainWay way := ht.names way hway hthere
  have hroot := (place_eq_ok_iff.1 hdest).1
  obtain ⟨hname, hcontents⟩ := hm
  cases node with
  | link link => exact absurd hnode (ht.links way link hway)
  | file data executable =>
    obtain rfl : executable = false := by
      cases executable with
      | false => rfl
      | true => exact absurd hnode (hmarks way data)
    have hpath : Admissible (dest / Path.ofWay way) := Path.admissible_join hroot hplain (hreach.file hway hnode)
    have hfree : way ∉ done := fun hdone => absurd (hnew hdone) (by simp)
    have hplace := h.place_join ht hdest hplain hthere hpath hparents true
    rw [h.only way hway hfree] at hplace
    -- the directory of the file is there, so that nothing is made but the file
    have hwrite := yields_writeMember machine data
      (fun parent hparent => makeDirAll_parent hparent hplace) (fun _ => rfl)
      (Path.endsInSeparator_join hroot.some hplain) hplace
    exact ⟨_, yields_extract_of_write hplain hname hcontents hwrite, h.put hway hnode⟩
  | dir =>
    obtain ⟨hpath, hpath'⟩ := Path.admissible_join_dirOfWay hroot hplain (hreach.dir hway hnode)
    by_cases hdone : way ∈ done
    · -- the directory was made for an entry in it
      have hdirs : ∀ v rest, v ≠ [] → rest ≠ [] → way = v ++ rest → after.node? (target ++ v) = some .dir := by
        intro v rest hv hrest hsplit
        rw [h.there v (hparents v rest hv hrest hsplit)]
        exact ht.dirs v rest hv hrest (hsplit ▸ hthere)
      have hdir : after.node? (target ++ way) = some .dir := (h.there way hdone).trans hnode
      have hmade := makeDirAll_of_isDir
        (isDir_join_dirOfWay (place_of_keptIn h.keptIn hdest) hplain hpath hpath' hdirs hdir)
      refine ⟨after, yields_extract_of_make hplain hname hcontents hmade, h.congr fun other => ?_⟩
      rw [List.mem_append, List.mem_singleton]
      exact ⟨fun hmem => hmem.elim id fun hsame => hsame ▸ hdone, Or.inl⟩
    · have hplace := h.place_join ht hdest hplain hthere hpath hparents false
      rw [h.only way hway hdone, ← Path.withoutEndSeparators_join hroot.some hplain] at hplace
      have hmade := makeDirAll_of_place hpath'.some hplace
      exact ⟨_, yields_extract_of_make hplain hname hcontents hmade, h.put hway hnode⟩

omit hmarks in
/-- **The first entry** is unpacked into the empty directory together with the directory that it is in. -/
theorem exists_yields_extract_first (archive : Path) {first last : String} (h : Unpacked before before target tree [])
    (hnode : tree [first, last] = some (.file data false)) (hm : Holds (itemAt [first, last] (.file data false)) m) :
    ∃ files, (extractMember archive dest m).Yields { machine with files := before } 1 { machine with files } ∧
      Unpacked before files target tree [[first], [first, last]] := by
  have hway : PlainWay [first, last] := ht.names _ (by simp) (by simp [hnode])
  have hfirst : PlainWay [first] := .front [last] hway (by simp)
  have hroot := (place_eq_ok_iff.1 hdest).1
  have hdir : tree [first] = some .dir := ht.dirs [first] [last] (by simp) (by simp) (by simp [hnode])
  have hpath : Admissible (dest / Path.ofWay [first, last]) :=
    Path.admissible_join hroot hway (hreach.file (by simp) hnode)
  obtain ⟨hname, hcontents⟩ := hm
  have hpath' : Admissible (dest / Path.ofWay [first]) :=
    (Path.admissible_join_dirOfWay hroot hfirst (hreach.dir (by simp) hdir)).1
  -- the parent of the file is made in the empty directory
  have hnothing : ∀ v rest, v ≠ [] → rest ≠ [] → [first] = v ++ rest → v ∈ [] := by
    intro v rest hv hrest hsplit
    rcases List.append_eq_singleton_iff.1 hsplit.symm with ⟨hnil, -⟩ | ⟨-, hnil⟩
    · exact absurd hnil hv
    · exact absurd hnil hrest
  have hplace := h.place_join ht hdest hfirst (by simp [hdir]) hpath' hnothing false
  rw [h.only [first] (by simp) (by simp)] at hplace
  have hends := Path.endsInSeparator_join hroot.some hfirst
  have hmade := makeDirAll_of_place hpath'.some (withoutEndSeparators_of_not_endsInSeparator hends ▸ hplace)
  have hnext := h.put (show [first] ≠ [] by simp) hdir
  -- then the file is written into it
  have hone : ∀ v rest, v ≠ [] → rest ≠ [] → [first, last] = v ++ rest → v ∈ [] ++ [[first]] := by
    intro v rest hv hrest hsplit
    obtain ⟨hnil, -⟩ | ⟨v', rfl, htail⟩ := List.cons_eq_append_iff.1 hsplit
    · exact absurd hnil hv
    rcases List.append_eq_singleton_iff.1 htail.symm with ⟨rfl, -⟩ | ⟨-, hnil⟩
    · exact List.mem_singleton_self _
    · exact absurd hnil hrest
  have hplace' := hnext.place_join ht hdest hway (by simp [hnode]) hpath hone true
  rw [hnext.only [first, last] (by simp) (by simp)] at hplace'
  have hwrite := yields_writeMember machine data
    (fun parent hparent => by
      obtain rfl := Option.some.inj ((Path.parent?_join hroot.some hway).symm.trans hparent)
      exact hmade)
    (fun hnone => by simp [Path.parent?_join hroot.some hway] at hnone)
    (Path.endsInSeparator_join hroot.some hway) hplace'
  exact ⟨_, yields_extract_of_write hway hname hcontents hwrite, hnext.put (by simp) hnode⟩

/-! ### Unpacking all entries -/

/-- **The directories come first:** each way comes after the directories on it, and no way comes twice unless it leads to a
directory. -/
def InOrder (tree : Location → Option Node) : (done ways : List Location) → Prop
  | _, [] => True
  | done, way :: rest => way ≠ [] ∧ (∀ v more, v ≠ [] → more ≠ [] → way = v ++ more → v ∈ done) ∧
      (way ∈ done → tree way = some .dir) ∧ InOrder tree (done ++ [way]) rest

/-- **All entries are unpacked,** and the files among them are counted. -/
theorem exists_yields_extractAll (archive : Path) {ms : List Member} (h : Unpacked before after target tree done)
    (horder : InOrder tree done ways)
    (hms : List.Forall₂ (fun way m => ∃ node, tree way = some node ∧ Holds (itemAt way node) m) ways ms) :
    ∃ files, (extractAll archive dest ms).Yields { machine with files := after }
      (ways.countP fun way => (tree way).any Node.isFile) { machine with files } ∧
      Unpacked before files target tree (done ++ ways) := by
  induction hms generalizing after done with
  | nil => exact ⟨after, Action.yields_pure.2 ⟨rfl, rfl⟩, by rwa [List.append_nil]⟩
  | @cons way m rest ms hm _ ih =>
    obtain ⟨hway, hparents, hnew, horder⟩ := horder
    obtain ⟨node, hnode, hm⟩ := hm
    obtain ⟨files, hrun, hnext⟩ := exists_yields_extract hdest ht hmarks hreach archive h hway hnode hm hparents
      fun hdone => Option.some.inj (hnode.symm.trans (hnew hdone))
    obtain ⟨files', hrest, hall⟩ := ih hnext horder
    refine ⟨files', ?_, by rwa [List.append_assoc] at hall⟩
    unfold extractAll
    refine Action.yields_bind.2 ⟨_, _, hrun, Action.yields_bind.2 ⟨_, _, hrest, Action.yields_pure.2 ⟨?_, rfl⟩⟩⟩
    rw [List.countP_cons, hnode, Nat.add_comm]
    rfl

end Entries

end Jar

end Recompile

import Recompile.Proofs.FixedCodes
import Recompile.Proofs.JarContents

/-!
# From a directory into a jar and back

`Jar.package_unzip`: packaging a tree of files and directories writes the manifest and then one item for everything else in
the tree, in the order of the paths, whatever the order in which a directory names its entries; and unpacking that jar into
an empty directory makes the tree again, with the manifest in its place, and counts its files.

The proof follows the order of the items. A directory comes before everything in it, so that each item finds the directory
that it goes into (`Jar.inOrder_of_ascending`); only the manifest, which comes first, brings its directory along. That the
archive gives back what was written into it is a condition on the items, `Zip.ReadsBack`, and so is the length of the paths:
a path that is too long for the system cannot be looked up, however short the names in it are.
-/

namespace Recompile

namespace Zip

/-- What reading a member gives: its name, and its contents as far as they can be read. -/
def outcome (m : Member) : String × Option (Bytes × Option Fault) := (m.name, m.contents?.map fun c => (c.data, c.fault))

/-- **Whether an archive gives back the items that it is made of:** their names and their contents, in their order. -/
def ReadsBack (items : List Item) : Prop :=
  (members? (encode items)).map (List.map outcome) = some (items.map fun item => (item.name, some (item.data, none)))

theorem outcome_deflated {name : String} {packed data : Bytes} {date time : Nat}
    (h : Deflate.unpack ⟨packed.toArray⟩ = (data, none)) :
    outcome ⟨name, .deflated, false, Crc32.ofBytes data, some packed, date, time⟩ = (name, some (data, none)) := by
  unfold outcome Member.contents?
  dsimp only [bind, Option.bind]
  rw [h]
  dsimp only
  rw [checked, if_pos rfl]
  rfl

/-- **The members of an archive** are those of the last end record, if that leads to some. -/
theorem members?_of_last_mark {data : Bytes} {i : Nat} {ms : List Member} (hend : i + 4 ≤ data.length)
    (hmark : u32? ⟨data.toArray⟩ i = some endMark)
    (hlast : ∀ j, i < j → j + 4 ≤ data.length → u32? ⟨data.toArray⟩ j ≠ some endMark)
    (hms : membersAt? ⟨data.toArray⟩ i = some ms) : members? data = some (ms.foldl addMember []) := by
  have hsize : (⟨data.toArray⟩ : ByteArray).size = data.length := rfl
  -- among the marks this one is the last, so the search from the back begins with it
  obtain ⟨front, hfront⟩ : ∃ front, marks ⟨data.toArray⟩ endMark 0 data.length = front ++ [i] := by
    obtain ⟨more, hmore⟩ := Nat.exists_eq_add_of_le (show i + 1 ≤ data.length by omega)
    have hrange : List.range data.length = List.range i ++ [i] ++ (List.range more).map (i + 1 + ·) := by
      rw [hmore, List.range_add, List.range_succ]
    have hthis : [i].filter (fun j => decide (j + 4 ≤ data.length ∧ u32? ⟨data.toArray⟩ j = some endMark)) = [i] := by
      simp [hend, hmark]
    have hlater : ((List.range more).map (i + 1 + ·)).filter
        (fun j => decide (j + 4 ≤ data.length ∧ u32? ⟨data.toArray⟩ j = some endMark)) = [] := by
      rw [List.filter_eq_nil_iff]
      intro j hj
      obtain ⟨k, -, rfl⟩ := List.mem_map.1 hj
      simpa using hlast (i + 1 + k) (by omega)
    refine ⟨(List.range i).filter fun j => decide (j + 4 ≤ data.length ∧ u32? ⟨data.toArray⟩ j = some endMark), ?_⟩
    unfold marks
    simp only [Nat.sub_zero, Nat.add_zero, List.map_id']
    rw [hrange, List.filter_append, List.filter_append, hthis, hlater, List.append_nil]
  unfold members?
  dsimp only
  rw [hsize, hfront, List.reverse_append, List.reverse_singleton, List.singleton_append, List.findSome?_cons_of_isSome,
    hms]
  · rfl
  · simp [hms]

/-- What is read from an archive whose last 22 bytes are its end record. -/
theorem map_members?_of_end_record {β : Type} {data : Bytes} {i : Nat} (hlength : data.length = i + 22)
    (hmark : u32? ⟨data.toArray⟩ i = some endMark)
    (hlater : ∀ k < 18, u32? ⟨data.toArray⟩ (i + 1 + k) ≠ some endMark) {read : List Member → β} {x : β}
    (hread : (membersAt? ⟨data.toArray⟩ i).map (fun ms => read (ms.foldl addMember [])) = some x) :
    (members? data).map read = some x := by
  obtain ⟨ms, hms, hsame⟩ := Option.map_eq_some_iff.1 hread
  rw [members?_of_last_mark (by omega) hmark (fun j hj hend => ?_) hms, Option.map_some, hsame]
  obtain ⟨k, rfl⟩ := Nat.exists_eq_add_of_le (show i + 1 ≤ j by omega)
  exact hlater k (by omega)

end Zip

namespace Files

/-- A directory without entries. -/
structure EmptyDir (f : Files) (cwd : Location) (dir : Path) (target : Location) : Prop where
  leads : f.place cwd true dir = .ok ⟨target, some .dir⟩
  empty : ∀ way, way ≠ [] → f.tree target way = none

/-- The number of regular files below a directory. -/
def fileCount (f : Files) (base : Location) : Nat := (f.ways base).countP fun way => (f.tree base way).any Node.isFile

end Files

namespace Jar

open Files Zip

variable {h machine : Host} {classes dest archive dir : Path} {base target way : Location}
  {tree : Location → Option Node} {manifest : Manifest}

/-! ### The tree that is unpacked -/

/-- The node of a file that is not marked as executable; an archive does not keep the mark. -/
def unmarked : Node → Node
  | .file data _ => .file data false
  | node => node

/-- **A tree with the manifest in its place.** -/
def withManifest (manifest : Manifest) (tree : Location → Option Node) (way : Location) : Option Node :=
  if way = manifestWay then some (.file manifest.bytes false)
  else if way = ["META-INF"] then some .dir
  else (tree way).map unmarked

section Manifest

variable (htree : Packable tree)

theorem withManifest_manifestWay : withManifest manifest tree manifestWay = some (.file manifest.bytes false) :=
  if_pos rfl

theorem withManifest_metaInf : withManifest manifest tree ["META-INF"] = some .dir := by
  unfold withManifest
  rw [if_neg (by decide), if_pos rfl]

theorem withManifest_of_ne (hmanifest : way ≠ manifestWay) (hmeta : way ≠ ["META-INF"]) :
    withManifest manifest tree way = (tree way).map unmarked := by
  unfold withManifest
  rw [if_neg hmanifest, if_neg hmeta]

theorem withManifest_ne_marked (data : Bytes) : withManifest manifest tree way ≠ some (.file data true) := by
  unfold withManifest
  split
  · simp
  split
  · simp
  · cases tree way with
    | none => simp
    | some node => cases node <;> simp [unmarked]

include htree

/-- The entries that are packaged are those that are unpacked. -/
theorem withManifest_eq_some (hmanifest : way ≠ manifestWay) {node : Node} (hnode : tree way = some node) :
    withManifest manifest tree way = some (unmarked node) := by
  by_cases hmeta : way = ["META-INF"]
  · rw [hmeta] at hnode ⊢
    rw [withManifest_metaInf, htree.metaInf node hnode]
    rfl
  · rw [withManifest_of_ne hmanifest hmeta, hnode]
    rfl

/-- **With its manifest the tree is one of plain names** as well. -/
theorem plainTree_withManifest : PlainTree (withManifest manifest tree) where
  names way hway hnode := by
    by_cases hmanifest : way = manifestWay
    · exact hmanifest ▸ plainWay_manifestWay
    by_cases hmeta : way = ["META-INF"]
    · exact hmeta ▸ plainWay_metaInf
    rw [withManifest_of_ne hmanifest hmeta] at hnode
    exact htree.plain.names way hway fun hnone => hnode (by rw [hnone]; rfl)
  dirs v rest hv hrest hnode := by
    by_cases hmeta : v = ["META-INF"]
    · rw [hmeta, withManifest_metaInf]
    -- what leads on from anywhere else was in the tree before
    have hlong : v ++ rest ≠ ["META-INF"] := by
      intro hsame
      rcases List.append_eq_singleton_iff.1 hsame with ⟨hnil, -⟩ | ⟨-, hnil⟩
      · exact hv hnil
      · exact hrest hnil
    have hother : v ++ rest ≠ manifestWay := by
      intro hsame
      obtain ⟨hnil, -⟩ | ⟨v', rfl, htail⟩ := List.append_eq_cons_iff.1 hsame
      · exact hv hnil
      rcases List.append_eq_singleton_iff.1 htail.symm with ⟨rfl, -⟩ | ⟨-, hnil⟩
      · exact hmeta rfl
      · exact hrest hnil
    rw [withManifest_of_ne hother hlong] at hnode
    have hdir := htree.plain.dirs v rest hv hrest fun hnone => hnode (by rw [hnone]; rfl)
    rw [withManifest_of_ne (htree.ne_manifestWay hdir) hmeta, hdir]
    rfl
  links way target hway hnode := by
    unfold withManifest at hnode
    split at hnode
    · simp at hnode
    split at hnode
    · simp at hnode
    · obtain ⟨node, hfound, hlink⟩ := Option.map_eq_some_iff.1 hnode
      cases node with
      | link link => exact htree.plain.links way link hway hfound
      | dir => simp [unmarked] at hlink
      | file data executable => simp [unmarked] at hlink

end Manifest

/-- The mark of an executable file is not part of its item. -/
theorem itemAt_unmarked (way : Location) (node : Node) : itemAt way (unmarked node) = itemAt way node := by
  cases node <;> rfl

/-! ### Unpacking -/

/-- **In ascending order the directories come first.** -/
theorem inOrder_of_ascending {front ways : List Location} (hascending : (front ++ ways).Pairwise fun v w => compare v w = .lt)
    (hways : ∀ way ∈ front ++ ways, way ≠ [] ∧ way ≠ manifestWay)
    (hclosed : ∀ v more, v ≠ [] → more ≠ [] → v ++ more ∈ front ++ ways → v ∈ front ++ ways) :
    InOrder (withManifest manifest tree) ([["META-INF"], manifestWay] ++ front) ways := by
  -- over the ways that are left, with those that are done in front of them
  induction ways generalizing front with
  | nil => trivial
  | cons way rest ih =>
    obtain ⟨hsome, hmanifest⟩ := hways way (by simp)
    obtain ⟨-, hback, hlast⟩ := List.pairwise_append.1 hascending
    have hsplit : front ++ way :: rest = (front ++ [way]) ++ rest := by simp
    refine ⟨hsome, fun v more hv hmore hway => ?_, fun hmem => ?_, ?_⟩
    · -- a directory on the way is smaller than the way, so it is none of those that are still to come
      have hlt : compare v way = .lt := hway ▸ compare_append_lt v hmore
      have hv' := hclosed v more hv hmore (by rw [← hway]; simp)
      rcases List.mem_append.1 hv' with hfront | hlater
      · exact List.mem_append_right _ hfront
      rcases List.mem_cons.1 hlater with rfl | hlater
      · simp at hlt
      · have hgt := List.rel_of_pairwise_cons hback hlater
        have hself := Std.TransCmp.lt_trans hlt hgt
        simp at hself
    · rcases List.mem_append.1 hmem with hfirst | hfront
      · rcases List.mem_pair.1 hfirst with rfl | hsame
        · exact withManifest_metaInf
        · exact absurd hsame hmanifest
      · have hself := hlast way hfront way List.mem_cons_self
        simp at hself
    · rw [List.append_assoc]
      exact ih (hsplit ▸ hascending) (hsplit ▸ hways) (hsplit ▸ hclosed)

/-- The members that are read from an archive hold the items that were written into it. -/
theorem exists_members_of_readsBack {items : List Item} (hcodec : ReadsBack items) :
    ∃ ms, members? (encode items) = some ms ∧ List.Forall₂ Holds items ms := by
  obtain ⟨ms, hms, hsame⟩ := Option.map_eq_some_iff.1 hcodec
  refine ⟨ms, hms, ?_⟩
  clear hcodec hms
  induction ms generalizing items with
  | nil =>
    obtain rfl : items = [] := by simpa using hsame.symm
    exact .nil
  | cons m ms ih =>
    cases items with
    | nil => simp at hsame
    | cons item items =>
      obtain ⟨hhead, htail⟩ := List.cons.inj hsame
      obtain ⟨hname, hcontents⟩ := Prod.mk.inj hhead
      obtain ⟨⟨data, fault⟩, hfound, hpair⟩ := Option.map_eq_some_iff.1 hcontents
      obtain ⟨rfl, rfl⟩ := Prod.mk.inj hpair
      exact .cons ⟨hname, hfound⟩ (ih htail)

theorem openAt_of_read {data : Bytes} {ms : List Member} (hread : machine.read archive = .ok data)
    (hms : members? data = some ms) : openAt machine archive = .ok ms := by
  obtain ⟨loc, executable, hplace⟩ := read_eq_ok_iff.1 hread
  have hlookup : machine.files.lookup machine.cwd archive = .ok (.file data executable) := lookup_eq_ok_iff.2 ⟨loc, hplace⟩
  unfold openAt
  rw [hlookup]
  dsimp only
  rw [hms]

section Unzipping

variable {f files : Files}

/-- **After all entries the directory has the tree,** with the manifest. -/
theorem tree_of_unpacked {before : Files}
    (h : Unpacked before files target (withManifest manifest (f.tree base))
      ([["META-INF"], manifestWay] ++ entryWays f base)) (hway : way ≠ []) :
    files.tree target way = withManifest manifest (f.tree base) way := by
  by_cases hdone : way ∈ [["META-INF"], manifestWay] ++ entryWays f base
  · exact h.there way hdone
  · rw [List.mem_append, not_or] at hdone
    obtain ⟨hfirst, hentry⟩ := hdone
    have hmeta : way ≠ ["META-INF"] := fun hsame => hfirst (by simp [hsame])
    have hmanifest : way ≠ manifestWay := fun hsame => hfirst (by simp [hsame])
    -- a way that is no entry has nothing in the classes
    have hnone : f.tree base way = none := by
      by_contra hnode
      exact hentry (mem_entryWays.2 ⟨hway, hmanifest, hnode⟩)
    rw [withManifest_of_ne hmanifest hmeta, hnone]
    exact h.only way hway (by simp [hmeta, hmanifest, hentry])

/-- The files of the tree are the manifest and those among the entries. -/
theorem fileCount_of_tree (hfiles : ∀ way, way ≠ [] → files.tree target way = withManifest manifest (f.tree base) way) :
    files.fileCount target = 1 + (entryWays f base).countP fun way =>
      (withManifest manifest (f.tree base) way).any Node.isFile := by
  have hmeta : (withManifest manifest (f.tree base) ["META-INF"]).any Node.isFile = false := by
    rw [withManifest_metaInf]
    rfl
  -- both lists have the same files, and none of them twice
  have hperm : ((files.ways target).filter fun way => (files.tree target way).any Node.isFile).Perm
      (manifestWay :: (entryWays f base).filter fun way => (withManifest manifest (f.tree base) way).any Node.isFile) := by
    have hnodup : (manifestWay :: (entryWays f base).filter fun way =>
        (withManifest manifest (f.tree base) way).any Node.isFile).Nodup := by
      refine List.nodup_cons.2 ⟨fun hmem => ?_, ((nodup_ways f base).filter _).filter _⟩
      exact (mem_entryWays.1 (List.mem_filter.1 hmem).1).2.1 rfl
    refine (List.perm_ext_iff_of_nodup ((nodup_ways files target).filter _) hnodup).2 fun way => ?_
    rw [List.mem_cons, List.mem_filter, List.mem_filter, mem_ways, mem_entryWays]
    by_cases hway : way = []
    · simp [hway, manifestWay]
    rw [hfiles way hway]
    by_cases hmanifest : way = manifestWay
    · subst hmanifest
      simp [hway, withManifest_manifestWay]
    by_cases hmetaInf : way = ["META-INF"]
    · simp [hmetaInf, hmeta, manifestWay]
    · rw [withManifest_of_ne hmanifest hmetaInf]
      simp [hway, hmanifest]
  calc files.fileCount target
      = ((files.ways target).filter fun way => (files.tree target way).any Node.isFile).length :=
        List.countP_eq_length_filter
    _ = _ := hperm.length_eq
    _ = _ := by rw [List.length_cons, Nat.add_comm, ← List.countP_eq_length_filter]

/-- The members behind the manifest hold the entries. -/
theorem forall₂_holds (manifest : Manifest) {ways : List Location} {ms : List Member}
    (hways : ∀ way ∈ ways, ∃ node, tree way = some node ∧ withManifest manifest tree way = some (unmarked node))
    (hms : List.Forall₂ Holds (itemsAt tree ways) ms) :
    List.Forall₂ (fun way m => ∃ node, withManifest manifest tree way = some node ∧ Holds (itemAt way node) m) ways ms := by
  induction ways generalizing ms with
  | nil =>
    cases hms
    exact .nil
  | cons way rest ih =>
    obtain ⟨node, hnode, hunpacked⟩ := hways way List.mem_cons_self
    have hitems : itemsAt tree (way :: rest) = itemAt way node :: itemsAt tree rest := by simp [itemsAt, hnode]
    rw [hitems] at hms
    obtain - | ⟨hm, hrest⟩ := hms
    refine .cons ⟨unmarked node, hunpacked, ?_⟩ (ih (fun v hv => hways v (List.mem_cons_of_mem way hv)) hrest)
    rwa [itemAt_unmarked]

/-- **A jar is unpacked into an empty directory:** the tree comes out, and its files are counted. -/
theorem exists_yields_unzip (htree : Packable (f.tree base))
    (hcodec : ReadsBack (allItems manifest (itemsAt (f.tree base) (entryWays f base))))
    (hread : machine.read archive = .ok (encode (allItems manifest (itemsAt (f.tree base) (entryWays f base)))))
    (hdir : EmptyDir machine.files machine.cwd dir target) (hreach : Reaches dir (withManifest manifest (f.tree base))) :
    ∃ files, (unzip archive dir).Yields machine (files.fileCount target) { machine with files } ∧
      Unpacked machine.files files target (withManifest manifest (f.tree base))
        ([["META-INF"], manifestWay] ++ entryWays f base) := by
  obtain ⟨ms, hms, hholds⟩ := exists_members_of_readsBack hcodec
  rw [allItems] at hholds
  obtain - | ⟨hm, hrest⟩ := hholds
  have hplain : PlainTree (withManifest manifest (f.tree base)) := plainTree_withManifest htree
  have hitem : itemAt manifestWay (.file manifest.bytes false) = .file manifestName manifest.bytes := by
    rw [itemAt, spelling_manifestWay]
  rw [← hitem] at hm
  -- the manifest first, with its directory
  obtain ⟨files, hfirst, hunpacked⟩ := exists_yields_extract_first hdir.leads hplain hreach archive
    (Unpacked.start hdir.empty) withManifest_manifestWay hm
  -- then the others, each in a directory that is there
  have horder : InOrder (withManifest manifest (f.tree base)) ([["META-INF"], manifestWay] ++ []) (entryWays f base) := by
    refine inOrder_of_ascending (ascending_entryWays f base) (fun way hmem => ?_) fun v more hv hmore hmem => ?_
    · obtain ⟨hsome, hmanifest, -⟩ := mem_entryWays.1 hmem
      exact ⟨hsome, hmanifest⟩
    · obtain ⟨-, -, hnode⟩ := mem_entryWays.1 hmem
      have hdir := htree.plain.dirs v more hv hmore hnode
      exact mem_entryWays.2 ⟨hv, htree.ne_manifestWay hdir, by simp [hdir]⟩
  have hentries := forall₂_holds manifest (fun way hmem => by
    obtain ⟨-, hmanifest, hnode⟩ := mem_entryWays.1 hmem
    obtain ⟨node, hnode⟩ := Option.ne_none_iff_exists'.1 hnode
    exact ⟨node, hnode, withManifest_eq_some htree hmanifest hnode⟩) hrest
  rw [List.append_nil] at horder
  obtain ⟨files', hothers, hall⟩ := exists_yields_extractAll hdir.leads hplain
    (fun _ => withManifest_ne_marked) hreach archive hunpacked horder hentries
  refine ⟨files', ?_, hall⟩
  rw [fileCount_of_tree fun way hway => tree_of_unpacked hall hway]
  unfold unzip
  refine Action.yields_bind.2 ⟨_, _, yields_members_of_openAt (openAt_of_read hread hms), ?_⟩
  unfold extractAll
  exact Action.yields_bind.2 ⟨_, _, hfirst, Action.yields_bind.2 ⟨_, _, hothers, Action.yields_pure.2 ⟨rfl, rfl⟩⟩⟩

end Unzipping

/-- **From a directory into a jar and back.** A tree of files and directories is packaged into a jar that has the manifest
first and then one item for everything else in the tree, in ascending order of the paths. That is what sorting a listing of
the directory gives in whatever order the entries are found. If the archive gives back its items, unpacking it into an empty
directory, from which the paths of the entries are short enough to be looked up, makes the tree with the manifest in its
place, changes nothing else, and returns the number of regular files in the directory. -/
theorem package_unzip (manifest : Manifest) (hclasses : h.files.place h.cwd true classes = .ok ⟨base, some .dir⟩)
    (htree : Packable (h.files.tree base))
    (hshort : ∀ way, way ≠ [] → way ≠ manifestWay → h.files.tree base way ≠ none →
      (classes / Path.ofWay way).spelling.utf8ByteSize < maxPath) (hdest : CanTake h dest) :
    ∃ contents, Lists (h.files.tree base) contents ∧
      (∀ listing : List Path, listing.Nodup →
        (∀ path, path ∈ listing ↔ ∃ way, way ≠ [] ∧ h.files.tree base way ≠ none ∧ path = classes / Path.ofWay way) →
        h.list classes (fun _ => true) = .ok (listing.mergeSort fun p q => (compare p q).isLE)) ∧
      (∃ loc node, (prepared dest h).place h.cwd false dest = .ok ⟨loc, node⟩ ∧
        (package classes manifest dest).Yields h ()
          { h with files := (prepared dest h).put loc (.file (encode (allItems manifest contents)) false) }) ∧
      (ReadsBack (allItems manifest contents) → ∀ machine archive dir target,
        machine.read archive = .ok (encode (allItems manifest contents)) →
        EmptyDir machine.files machine.cwd dir target → Reaches dir (withManifest manifest (h.files.tree base)) →
        ∃ files, (unzip archive dir).Yields machine (files.fileCount target) { machine with files } ∧
          (∀ way, way ≠ [] → files.tree target way = withManifest manifest (h.files.tree base) way) ∧
          ∀ loc, (∀ way, way ≠ [] → loc ≠ target ++ way) → files.node? loc = machine.files.node? loc) := by
  refine ⟨_, lists_itemsAt htree, fun listing hdistinct hlisting => ?_, ?_, fun hcodec machine archive dir target hread hdir
    hreach => ?_⟩
  · refine list_eq_mergeSort hclasses htree.plain (fun way hway hdir => ?_) hdistinct hlisting
    exact hshort way hway (htree.ne_manifestWay hdir) (by simp [hdir])
  · exact exists_yields_package manifest hclasses htree hshort hdest
  · obtain ⟨files, hrun, hall⟩ := exists_yields_unzip htree hcodec hread hdir hreach
    exact ⟨files, hrun, fun way hway => tree_of_unpacked hall hway, hall.outside⟩

/-! ### A small jar -/

/-- A directory with two directories and a file, and an empty one. -/
private def small : Host where
  files := ((((Files.put ∅ ["c"] .dir).put ["c", "a"] .dir).put ["c", "a", "x"] (.file [1] false)).put ["c", "a-b"] .dir).put
    ["o"] .dir

private def smallItems : List Item := [.file manifestName [13, 10], .directory "a/", .file "a/x" [1], .directory "a-b/"]

/-- The bytes of the jar. -/
private def smallBytes : Bytes :=
  [80, 75, 3, 4, 20, 0, 0, 0, 8, 0, 0, 0, 33, 0, 172, 133, 162, 20, 4, 0, 0, 0, 2, 0, 0, 0, 20, 0, 0, 0, 77, 69, 84, 65,
    45, 73, 78, 70, 47, 77, 65, 78, 73, 70, 69, 83, 84, 46, 77, 70, 227, 229, 2, 0, 80, 75, 3, 4, 20, 0, 0, 0, 0, 0, 0, 0,
    33, 0, 0, 0, 0, 0, 0, 0, 0, 0, 0, 0, 0, 0, 2, 0, 0, 0, 97, 47, 80, 75, 3, 4, 20, 0, 0, 0, 8, 0, 0, 0, 33, 0, 27, 223,
    5, 165, 3, 0, 0, 0, 1, 0, 0, 0, 3, 0, 0, 0, 97, 47, 120, 99, 4, 0, 80, 75, 3, 4, 20, 0, 0, 0, 0, 0, 0, 0, 33, 0, 0, 0,
    0, 0, 0, 0, 0, 0, 0, 0, 0, 0, 4, 0, 0, 0, 97, 45, 98, 47, 80, 75, 1, 2, 20, 3, 20, 0, 0, 0, 8, 0, 0, 0, 33, 0, 172,
    133, 162, 20, 4, 0, 0, 0, 2, 0, 0, 0, 20, 0, 0, 0, 0, 0, 0, 0, 0, 0, 0, 0, 164, 129, 0, 0, 0, 0, 77, 69, 84, 65, 45,
    73, 78, 70, 47, 77, 65, 78, 73, 70, 69, 83, 84, 46, 77, 70, 80, 75, 1, 2, 20, 3, 20, 0, 0, 0, 0, 0, 0, 0, 33, 0, 0, 0,
    0, 0, 0, 0, 0, 0, 0, 0, 0, 0, 2, 0, 0, 0, 0, 0, 0, 0, 0, 0, 0, 0, 237, 65, 54, 0, 0, 0, 97, 47, 80, 75, 1, 2, 20, 3,
    20, 0, 0, 0, 8, 0, 0, 0, 33, 0, 27, 223, 5, 165, 3, 0, 0, 0, 1, 0, 0, 0, 3, 0, 0, 0, 0, 0, 0, 0, 0, 0, 0, 0, 164, 129,
    86, 0, 0, 0, 97, 47, 120, 80, 75, 1, 2, 20, 3, 20, 0, 0, 0, 0, 0, 0, 0, 33, 0, 0, 0, 0, 0, 0, 0, 0, 0, 0, 0, 0, 0, 4,
    0, 0, 0, 0, 0, 0, 0, 0, 0, 0, 0, 237, 65, 122, 0, 0, 0, 97, 45, 98, 47, 80, 75, 5, 6, 0, 0, 0, 0, 4, 0, 4, 0, 213, 0,
    0, 0, 156, 0, 0, 0, 0, 0]

private theorem encode_smallItems : encode smallItems = smallBytes := by
  have hmanifest : (Item.file manifestName [13, 10]).packed = [227, 229, 2, 0] := by
    change (Deflate.deflate ⟨[13, 10].toArray⟩).data.toList = _
    rw [Deflate.deflate_of_literals [13, 10] (by decide) rfl]
    decide +kernel
  have hx : (Item.file "a/x" [1]).packed = [99, 4, 0] := by
    change (Deflate.deflate ⟨[1].toArray⟩).data.toList = _
    rw [Deflate.deflate_of_literals [1] (by decide) rfl]
    decide +kernel
  unfold encode smallItems
  simp only [records, hmanifest, hx]
  decide +kernel

/-- The members of the jar. -/
private def smallMembers : List Member :=
  [⟨manifestName, .deflated, false, Crc32.ofBytes [13, 10], some [227, 229, 2, 0], 33, 0⟩,
    ⟨"a/", .stored, false, 0, some [], 33, 0⟩, ⟨"a/x", .deflated, false, Crc32.ofBytes [1], some [99, 4, 0], 33, 0⟩,
    ⟨"a-b/", .stored, false, 0, some [], 33, 0⟩]

private theorem readsBack_smallItems : ReadsBack smallItems := by
  have hmanifest : Deflate.unpack ⟨#[227, 229, 2, 0]⟩ = ([13, 10], none) := by
    rw [Deflate.unpack_of_coded rfl rfl (by decide +kernel)]
    decide +kernel
  have hx : Deflate.unpack ⟨#[99, 4, 0]⟩ = ([1], none) := by
    rw [Deflate.unpack_of_coded rfl rfl (by decide +kernel)]
    decide +kernel
  -- the end record is the last of the jar
  have hlength : smallBytes.length = 369 + 22 := by decide +kernel
  have hmembers : membersAt? ⟨smallBytes.toArray⟩ 369 = some smallMembers := by decide +kernel
  have hdistinct : smallMembers.foldl addMember [] = smallMembers := by decide +kernel
  unfold ReadsBack
  rw [encode_smallItems]
  refine map_members?_of_end_record hlength (by decide +kernel) (by decide +kernel) ?_
  rw [hmembers, Option.map_some, hdistinct]
  simp only [smallMembers, List.map_cons, List.map_nil, outcome_deflated hmanifest, outcome_deflated hx]
  decide +kernel

private theorem packable_small : Packable (small.files.tree ["c"]) where
  plain := plainTree_of_ways (by decide)
  metaInf node hnode := by
    have hnone : (small.files.tree ["c"] ["META-INF"]).isNone = true := by decide
    simp [hnode] at hnone
  manifest node hnode := by
    have hnone : (small.files.tree ["c"] manifestWay).isNone = true := by decide
    simp [hnode] at hnone

private theorem canTake_small : CanTake small "j.jar" where
  made := rfl
  ends := ⟨⟨"j.jar", by decide, by decide, by decide⟩, by decide⟩
  place := ⟨["j.jar"], none, rfl, by simp⟩

private theorem allItems_small {contents : List Item} (hlists : Lists (small.files.tree ["c"]) contents) :
    allItems ⟨[]⟩ contents = smallItems := by
  have hmanifest : Manifest.bytes ⟨[]⟩ = [13, 10] := by decide
  have hways : entryWays small.files ["c"] = [["a"], ["a", "x"], ["a-b"]] := by decide
  have hnames : (Path.dirOfWay ["a"]).spelling = "a/" ∧ (Path.ofWay ["a", "x"]).spelling = "a/x" ∧
      (Path.dirOfWay ["a-b"]).spelling = "a-b/" := by decide
  have hcontents : itemsAt (small.files.tree ["c"]) [["a"], ["a", "x"], ["a-b"]] =
      [.directory (Path.dirOfWay ["a"]).spelling, .file (Path.ofWay ["a", "x"]).spelling [1],
        .directory (Path.dirOfWay ["a-b"]).spelling] := rfl
  rw [hlists.unique (lists_itemsAt packable_small), hways, hcontents, allItems, hmanifest, hnames.1, hnames.2.1, hnames.2.2]
  rfl

private theorem reaches_small {dir : Path}
    (hshort : ∀ way ∈ ["META-INF"] :: manifestWay :: small.files.ways ["c"],
      (dir / Path.ofWay way).spelling.utf8ByteSize < maxPath ∧ (dir / Path.dirOfWay way).spelling.utf8ByteSize < maxPath) :
    Reaches dir (withManifest ⟨[]⟩ (small.files.tree ["c"])) := by
  intro way node hway hnode
  -- only these ways are in the tree
  have hmem : way ∈ ["META-INF"] :: manifestWay :: small.files.ways ["c"] := by
    rw [List.mem_cons, List.mem_cons]
    by_cases hmeta : way = ["META-INF"]
    · exact Or.inl hmeta
    by_cases hmanifest : way = manifestWay
    · exact Or.inr (Or.inl hmanifest)
    rw [withManifest_of_ne hmanifest hmeta] at hnode
    exact Or.inr (Or.inr (mem_ways.2 ⟨hway, fun hnone => by simp [hnone] at hnode⟩))
  obtain ⟨hfile, hdir⟩ := hshort way hmem
  cases node with
  | file data executable => exact hfile
  | dir => exact hdir
  | link target => exact hdir

/-- The machine with the jar. -/
private def packed : Host :=
  { small with files := (prepared "j.jar" small).put ["j.jar"] (.file (encode smallItems) false) }

private theorem read_packed : packed.read "j.jar" = .ok (encode smallItems) := by
  have hplace : (prepared "j.jar" small).place [] true "j.jar" = .ok ⟨["j.jar"], none⟩ := rfl
  exact read_eq_ok_iff.2 ⟨["j.jar"], false, place_put (by simp) (by simp) hplace⟩

private theorem emptyDir_packed {dir : Path} (hdir : small.files.place [] true dir = .ok ⟨["o"], some .dir⟩) :
    EmptyDir packed.files packed.cwd dir ["o"] where
  leads := by
    have hfree : (prepared "j.jar" small).node? ["j.jar"] = none := rfl
    exact place_of_keptIn ((prepared_addsDirs "j.jar" small).kept.trans (keptIn_put (by simp) hfree _)) hdir
  empty way hway := by
    have hways : packed.files.ways ["o"] = [] := by decide
    by_contra hnode
    have hmem := mem_ways.2 ⟨hway, hnode⟩
    simp [hways] at hmem

private theorem shortPaths_small : ∀ way, way ≠ [] → way ≠ manifestWay → small.files.tree ["c"] way ≠ none →
    (("c" : Path) / Path.ofWay way).spelling.utf8ByteSize < maxPath := by
  have hways : ∀ way ∈ small.files.ways ["c"], (("c" : Path) / Path.ofWay way).spelling.utf8ByteSize < maxPath := by
    decide
  intro way hway _ hnode
  exact hways way (mem_ways.2 ⟨hway, hnode⟩)

private theorem package_small : (package "c" ⟨[]⟩ "j.jar").Yields small () packed := by
  have hclasses : small.files.place [] true "c" = .ok ⟨["c"], some .dir⟩ := rfl
  have hplace : (prepared "j.jar" small).place [] false "j.jar" = .ok ⟨["j.jar"], none⟩ := rfl
  obtain ⟨loc, node, hfound, hpackage⟩ := exists_yields_package (h := small) ⟨[]⟩ hclasses packable_small shortPaths_small
    canTake_small
  obtain ⟨rfl, -⟩ := Place.mk.inj (Except.ok.inj (hplace.symm.trans hfound))
  rwa [allItems_small (lists_itemsAt packable_small)] at hpackage

/-- The jar of the small directory has `a/x` before `a-b/`, and unpacks to the directory and its manifest. -/
theorem package_unzip_small : ∃ files,
    (package "c" ⟨[]⟩ "j.jar").Yields small () packed ∧
      (unzip "j.jar" "o").Yields packed (files.fileCount ["o"]) { packed with files } ∧
      ∀ way, way ≠ [] → files.tree ["o"] way = withManifest ⟨[]⟩ (small.files.tree ["c"]) way := by
  have hclasses : small.files.place [] true "c" = .ok ⟨["c"], some .dir⟩ := rfl
  obtain ⟨contents, hlists, -, -, hunzip⟩ := package_unzip (h := small) ⟨[]⟩ hclasses packable_small shortPaths_small
    canTake_small
  rw [allItems_small hlists] at hunzip
  obtain ⟨files, hrun, htree, -⟩ := hunzip readsBack_smallItems packed "j.jar" "o" ["o"] read_packed (emptyDir_packed rfl)
    (reaches_small (by decide))
  exact ⟨files, package_small, hrun, htree⟩

/-! ### Paths that are too long -/

/-- A directory is not made at a path that cannot be looked up. -/
theorem makeDirAll_of_not_admissible (f : Files) (cwd : Location) {p : Path} (hsome : p.spelling ≠ "")
    (hends : endsInSeparator p = false) (hp : ¬ Admissible p) : ∃ fault, f.makeDirAll cwd p = (.error fault, f) := by
  have hrefused : ∀ follow, ∃ fault, f.place cwd follow p = .error fault := by
    intro follow
    cases hplace : f.place cwd follow p with
    | ok r => exact absurd (place_eq_ok_iff.1 hplace).1 hp
    | error fault => exact ⟨fault, rfl⟩
  obtain ⟨⟨kind, text⟩, hplace⟩ := hrefused false
  obtain ⟨fault', hplace'⟩ := hrefused true
  have hkind : kind ≠ .notFound := kind_of_not_admissible hp hsome hplace
  have hmake : f.makeDirAt cwd p = .error ⟨kind, text⟩ := by
    rw [makeDirAt, withoutEndSeparators_of_not_endsInSeparator hends, hplace]
    rfl
  obtain ⟨up, hup⟩ := exists_ancestors p.spelling.length p
  -- a path that is refused is not missing, so no directory above it is made either
  have hmakes : f.makeDirs cwd (p :: up) = (.error ⟨kind, text⟩, f) := by
    unfold makeDirs
    rw [if_neg hsome, hmake]
    split
    next h => exact absurd (by cases h; rfl) hkind
    next => simp [orThere, hplace']
  refine ⟨⟨kind, text⟩, ?_⟩
  rw [makeDirAll, hup, hmakes]
  rfl

/-- A path below a directory is at least as long as the path of the directory and what is added to it. -/
theorem le_utf8ByteSize_join (base : Path) {file : Path} (hfile : file.isAbsolute = false) :
    base.spelling.utf8ByteSize + file.spelling.utf8ByteSize ≤ (base / file).spelling.utf8ByteSize := by
  change _ ≤ (base.join file).spelling.utf8ByteSize
  simp only [Path.join, hfile, Bool.false_eq_true, if_false]
  split
  · exact Nat.le_of_eq String.utf8ByteSize_append.symm
  · rw [String.utf8ByteSize_append, String.utf8ByteSize_append]
    omega

/-- **A directory from which the manifest cannot be looked up** takes no jar. -/
theorem fails_unzip_of_long (manifest : Manifest) {contents : List Item} (hcodec : ReadsBack (allItems manifest contents))
    (hread : machine.read archive = .ok (encode (allItems manifest contents))) (hdir : dir.spelling ≠ "")
    (hlong : maxPath ≤ (dir / Path.ofWay ["META-INF"]).spelling.utf8ByteSize) :
    ∃ fault, (unzip archive dir).Fails machine (.file (dir / Path.ofWay ["META-INF"]) fault) machine := by
  obtain ⟨ms, hms, hholds⟩ := exists_members_of_readsBack hcodec
  rw [allItems] at hholds
  -- the manifest is the first member, and its directory cannot be made
  obtain - | @⟨_, m, _, rest, ⟨hname, hcontents⟩, -⟩ := hholds
  have hparent := Path.parent?_join hdir plainWay_manifestWay
  obtain ⟨fault, hmake⟩ := makeDirAll_of_not_admissible machine.files machine.cwd
    (join_ne_empty hdir (Path.isAbsolute_ofWay plainWay_metaInf)) (Path.endsInSeparator_join hdir plainWay_metaInf)
    fun hpath => absurd hpath.short (Nat.not_lt_of_le hlong)
  have hmakes : (Host.makeDirAll (BridgeError.file (dir / Path.ofWay ["META-INF"])) (dir / Path.ofWay ["META-INF"])).Fails
      machine (.file (dir / Path.ofWay ["META-INF"]) fault) machine :=
    Host.fails_makeDirAll.2 ⟨fault, congrArg Prod.fst hmake, rfl, by rw [hmake]⟩
  have hextract : (extractMember archive dir m).Fails machine (.file (dir / Path.ofWay ["META-INF"]) fault) machine := by
    have hspelled : m.name = (Path.ofWay manifestWay).spelling := by
      rw [spelling_manifestWay]
      exact hname
    rw [extractMember_ofWay plainWay_manifestWay hspelled hcontents]
    refine Action.fails_bind.2 (Or.inl ?_)
    unfold writeMember
    rw [manifestWay, hparent]
    exact Action.fails_bind.2 (Or.inl hmakes)
  refine ⟨fault, Action.fails_bind.2 (Or.inr ⟨_, _, yields_members_of_openAt (openAt_of_read hread hms), ?_⟩)⟩
  unfold extractAll
  exact Action.fails_bind.2 (Or.inl hextract)

/-- **A directory with a directory in it that cannot be opened** is not packaged. -/
theorem fails_package_of_long (manifest : Manifest) (dest : Path)
    (hclasses : h.files.place h.cwd true classes = .ok ⟨base, some .dir⟩) (hway : way ≠ [])
    (hdir : h.files.tree base way = some .dir) (hlong : maxPath ≤ (classes / Path.ofWay way).spelling.utf8ByteSize) :
    (package classes manifest dest).Fails h (.file classes (.ofKind .invalidFilename)) h := by
  have hlist := list_eq_error hclasses hway hdir hlong
  unfold package
  exact Action.fails_bind.2 (Or.inl (Host.fails_ask.2 ⟨_, hlist, rfl, rfl⟩))

/-- A directory with a name of one letter, and many separators behind it. -/
private def slashed (letter : Char) (count : Nat) : Path := ⟨String.ofList (letter :: List.replicate count '/')⟩

private theorem utf8ByteSize_slashed {letter : Char} (hletter : letter = 'c' ∨ letter = 'o') (count : Nat) :
    (slashed letter count).spelling.utf8ByteSize = count + 1 := by
  have hseps : (String.ofList (List.replicate count '/')).utf8ByteSize = count := by
    induction count with
    | zero => rfl
    | succ n ih =>
      have hone : (String.singleton '/').utf8ByteSize = 1 := by decide
      rw [List.replicate_succ, String.ofList_cons, String.utf8ByteSize_append, ih, hone, Nat.add_comm]
  have hone : (String.singleton letter).utf8ByteSize = 1 := by
    rcases hletter with rfl | rfl <;> decide
  rw [slashed, String.ofList_cons, String.utf8ByteSize_append, hseps, hone, Nat.add_comm]

private theorem place_slashed {letter : Char} (hletter : letter = 'c' ∨ letter = 'o') {count : Nat}
    (hcount : count + 2 < maxPath) :
    small.files.place [] true (slashed letter (count + 1)) = .ok ⟨[String.singleton letter], some .dir⟩ := by
  have hseps : ∀ n, steps ⟨String.ofList (List.replicate n '/')⟩ = ["."] := by
    intro n
    induction n with
    | zero => decide
    | succ n ih =>
      have hcut : (⟨String.ofList (List.replicate (n + 1) '/')⟩ : Path).spelling.toList =
          [] ++ '/' :: List.replicate n '/' := by
        rw [String.toList_ofList, List.replicate_succ, List.nil_append]
      rw [steps_append_sep hcut, ih, segments_nil, List.nil_append]
  have hcut : (slashed letter (count + 1)).spelling.toList = [letter] ++ '/' :: List.replicate count '/' := by
    rw [slashed, String.toList_ofList, List.replicate_succ]
    rfl
  have hsteps : steps (slashed letter (count + 1)) = [String.singleton letter, "."] := by
    have hone : segments [letter] = [String.singleton letter] := by
      rcases hletter with rfl | rfl <;> decide
    rw [steps_append_sep hcut, hseps, hone]
    rfl
  have hpath : Admissible (slashed letter (count + 1)) := by
    refine ⟨?_, ?_, ?_⟩
    · rw [hcut, List.mem_append]
      rintro (hfirst | hseps)
      · rcases hletter with rfl | rfl <;> exact absurd hfirst (by decide)
      rcases List.mem_cons.1 hseps with hsep | hsep
      · exact absurd hsep (by decide)
      · exact absurd (List.eq_of_mem_replicate hsep) (by decide)
    · intro hempty
      rw [← String.toList_inj, hcut] at hempty
      simp at hempty
    · rw [utf8ByteSize_slashed hletter]
      exact hcount
  have hstart : start [] (slashed letter (count + 1)) = [] := ite_self []
  refine place_eq_ok_iff.2 ⟨hpath, ?_⟩
  rw [hsteps, hstart]
  rcases hletter with rfl | rfl <;> rfl

private theorem le_utf8ByteSize_slashed {letter : Char} (hletter : letter = 'c' ∨ letter = 'o') (count : Nat)
    (hway : PlainWay way) :
    count + 1 + (Path.ofWay way).spelling.utf8ByteSize ≤ (slashed letter count / Path.ofWay way).spelling.utf8ByteSize := by
  rw [← utf8ByteSize_slashed hletter count]
  exact le_utf8ByteSize_join _ (Path.isAbsolute_ofWay hway)

/-- Behind enough separators a directory is found, and what is in it is not, since the paths are too long: the directory
cannot be packaged from there, and the jar that it gives under its plain name cannot be unpacked there. -/
theorem fails_behind_separators :
    Packable (small.files.tree ["c"]) ∧
      small.files.place [] true (slashed 'c' 4094) = .ok ⟨["c"], some .dir⟩ ∧
      (∃ e, (package (slashed 'c' 4094) ⟨[]⟩ "j.jar").Fails small e small) ∧
      (package "c" ⟨[]⟩ "j.jar").Yields small () packed ∧ ReadsBack smallItems ∧
      packed.read "j.jar" = .ok (encode smallItems) ∧ EmptyDir packed.files packed.cwd (slashed 'o' 4090) ["o"] ∧
      ∃ e, (unzip "j.jar" (slashed 'o' 4090)).Fails packed e packed := by
  have hclasses : small.files.place [] true (slashed 'c' 4094) = .ok ⟨["c"], some .dir⟩ :=
    place_slashed (Or.inl rfl) (by decide)
  have hdir : small.files.place [] true (slashed 'o' 4090) = .ok ⟨["o"], some .dir⟩ :=
    place_slashed (Or.inr rfl) (by decide)
  -- with the name of the first entry each of the two paths reaches the limit
  have hlong : maxPath ≤ (slashed 'c' 4094 / Path.ofWay ["a"]).spelling.utf8ByteSize := by
    have hname : (Path.ofWay ["a"]).spelling.utf8ByteSize = 1 := by decide
    have hplain : PlainWay ["a"] := ⟨by decide, by decide⟩
    have hjoin := le_utf8ByteSize_slashed (Or.inl rfl : 'c' = 'c' ∨ 'c' = 'o') 4094 hplain
    rw [hname] at hjoin
    exact hjoin
  have hlong' : maxPath ≤ (slashed 'o' 4090 / Path.ofWay ["META-INF"]).spelling.utf8ByteSize := by
    have hname : (Path.ofWay ["META-INF"]).spelling.utf8ByteSize = 8 := by decide
    have hjoin := le_utf8ByteSize_slashed (Or.inr rfl : 'o' = 'c' ∨ 'o' = 'o') 4090 plainWay_metaInf
    rw [hname] at hjoin
    exact Nat.le_trans (by decide) hjoin
  have hitems := allItems_small (lists_itemsAt packable_small)
  obtain ⟨fault, hunzip⟩ := fails_unzip_of_long ⟨[]⟩ (hitems ▸ readsBack_smallItems) (hitems ▸ read_packed)
    (place_eq_ok_iff.1 hdir).1.some hlong'
  exact ⟨packable_small, hclasses, ⟨_, fails_package_of_long ⟨[]⟩ "j.jar" hclasses (by simp) rfl hlong⟩, package_small,
    readsBack_smallItems, read_packed, emptyDir_packed hdir, _, hunzip⟩

end Jar

end Recompile

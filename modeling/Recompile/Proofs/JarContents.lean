import Recompile.Proofs.Unpacking

/-!
# What is in a jar

A directory is packaged as the manifest and one item for everything else in its tree (`Jar.Lists`). The items come in the
order of the paths, and there is only one such list for a tree, since a listing is sorted after it has been read
(`Jar.list_eq_mergeSort`): `a/x` comes before `a-b/`, although the character `-` is smaller than the separator, because
the paths are compared component by component. Of the tree the jar keeps the names and the bytes, and the manifest of the
tree gives way to the one that is asked for (`Jar.item?_eq`).

`Jar.exists_yields_package` says that packaging succeeds, and which jar it puts in its place.
-/

namespace Recompile

namespace Jar

open Files Zip

variable {h : Host} {classes dest : Path} {base way : Location} {tree : Location → Option Node} {manifest : Manifest}

/-! ### Trees that can be packaged -/

/-- The way to the manifest. -/
def manifestWay : Location := ["META-INF", "MANIFEST.MF"]

theorem spelling_manifestWay : (Path.ofWay manifestWay).spelling = manifestName := by decide

theorem plainWay_manifestWay : PlainWay manifestWay := ⟨by decide, by decide⟩

theorem plainWay_metaInf : PlainWay ["META-INF"] := .front ["MANIFEST.MF"] plainWay_manifestWay (by simp)

/-- **A tree that can be packaged:** the place of the manifest is free or taken by a file in a directory. -/
structure Packable (tree : Location → Option Node) : Prop where
  plain : PlainTree tree
  metaInf : ∀ node, tree ["META-INF"] = some node → node = .dir
  manifest : ∀ node, tree manifestWay = some node → node.isFile = true

/-- No directory is at the place of the manifest. -/
theorem Packable.ne_manifestWay (htree : Packable tree) (hdir : tree way = some .dir) : way ≠ manifestWay := by
  rintro rfl
  simpa using htree.manifest _ hdir

/-- **The items for a tree,** without the manifest: one for each entry, in the order of the paths. -/
structure Lists (tree : Location → Option Node) (contents : List Item) : Prop where
  ascending : contents.Pairwise fun a b => compare (⟨a.name⟩ : Path) ⟨b.name⟩ = .lt
  mem_iff : ∀ item, item ∈ contents ↔ ∃ way node, way ≠ [] ∧ way ≠ manifestWay ∧ tree way = some node ∧ item = itemAt way node

/-- **There is one list of items** for a tree. -/
theorem Lists.unique {contents contents' : List Item} (hlists : Lists tree contents) (hlists' : Lists tree contents') :
    contents = contents' := by
  have hnodup : ∀ {items : List Item}, Lists tree items → items.Nodup := by
    intro items hitems
    refine hitems.ascending.imp ?_
    rintro item _ hlt rfl
    simp at hlt
  have hperm : contents.Perm contents' :=
    (List.perm_ext_iff_of_nodup (hnodup hlists) (hnodup hlists')).2 fun item =>
      (hlists.mem_iff item).trans (hlists'.mem_iff item).symm
  refine List.Perm.eq_of_pairwise (fun a b _ _ hab hba => ?_) hlists.ascending hlists'.ascending hperm
  have hself := Std.TransCmp.lt_trans hab hba
  simp at hself

/-- The items of a jar: the manifest, and the others. -/
def allItems (manifest : Manifest) (contents : List Item) : List Item :=
  .file manifestName manifest.bytes :: contents

/-- The ways to the entries that go into a jar behind the manifest. -/
def entryWays (f : Files) (base : Location) : List Location := (f.ways base).filter (· ≠ manifestWay)

/-- The items for some entries of a tree. -/
def itemsAt (tree : Location → Option Node) (ways : List Location) : List Item :=
  ways.filterMap fun way => (tree way).map (itemAt way)

theorem mem_entryWays {f : Files} : way ∈ entryWays f base ↔ way ≠ [] ∧ way ≠ manifestWay ∧ f.tree base way ≠ none := by
  rw [entryWays, List.mem_filter, mem_ways]
  simp only [decide_eq_true_eq]
  exact ⟨fun ⟨⟨hsome, hnode⟩, hne⟩ => ⟨hsome, hne, hnode⟩, fun ⟨hsome, hne, hnode⟩ => ⟨⟨hsome, hnode⟩, hne⟩⟩

theorem ascending_entryWays (f : Files) (base : Location) :
    (entryWays f base).Pairwise fun v w => compare v w = .lt := (ascending_ways f base).filter _

theorem components_itemAt (hway : PlainWay way) (node : Node) :
    (⟨(itemAt way node).name⟩ : Path).components = way.map .name := by
  cases node with
  | file data executable => exact Path.components_ofWay hway
  | dir => exact Path.components_dirOfWay hway
  | link target => exact Path.components_dirOfWay hway

/-- **The items for the entries of a directory** are in the order of their paths, and there is one for each entry. -/
theorem lists_itemsAt (htree : Packable (h.files.tree base)) :
    Lists (h.files.tree base) (itemsAt (h.files.tree base) (entryWays h.files base)) where
  ascending := by
    have hplain : ∀ way ∈ entryWays h.files base, PlainWay way := by
      intro way hmem
      obtain ⟨hsome, -, hnode⟩ := mem_entryWays.1 hmem
      exact htree.plain.names way hsome hnode
    have hways : (entryWays h.files base).Pairwise fun v w => PlainWay v ∧ PlainWay w ∧ compare v w = .lt :=
      (ascending_entryWays h.files base).imp_of_mem fun hv hw hlt => ⟨hplain _ hv, hplain _ hw, hlt⟩
    refine hways.filterMap _ fun v w hlt a ha b hb => ?_
    obtain ⟨hv, hw, hlt⟩ := hlt
    obtain ⟨node, -, rfl⟩ := Option.map_eq_some_iff.1 ha
    obtain ⟨node', -, rfl⟩ := Option.map_eq_some_iff.1 hb
    -- entries compare as the ways do, whether or not a separator ends their names
    rw [Path.compare_of_components (components_itemAt hv node) (components_itemAt hw node'), hlt]
  mem_iff item := by
    rw [itemsAt, List.mem_filterMap]
    constructor
    · rintro ⟨way, hmem, hitem⟩
      obtain ⟨hsome, hne, -⟩ := mem_entryWays.1 hmem
      obtain ⟨node, hnode, rfl⟩ := Option.map_eq_some_iff.1 hitem
      exact ⟨way, node, hsome, hne, hnode, rfl⟩
    · rintro ⟨way, node, hsome, hne, hnode, rfl⟩
      exact ⟨way, mem_entryWays.2 ⟨hsome, hne, by simp [hnode]⟩, Option.map_eq_some_iff.2 ⟨node, hnode, rfl⟩⟩

/-! ### Listing -/

/-- **The listing of a directory** is the ways in it, followed from its path, unless a directory among them cannot be opened. -/
theorem list_eq_ite (hclasses : h.files.place h.cwd true classes = .ok ⟨base, some .dir⟩) :
    h.list classes (fun _ => true) =
      if (h.files.ways base).any fun way =>
        (h.files.tree base way).any Node.isDir && maxPath ≤ (classes / Path.ofWay way).spelling.utf8ByteSize
      then .error (.ofKind .invalidFilename)
      else .ok ((h.files.ways base).map fun way => classes / Path.ofWay way) := by
  -- what is listed is spelled by the names below the directory
  have hpath : ∀ way : Location,
      classes / (⟨"/".intercalate ((base ++ way).drop base.length)⟩ : Path) = classes / Path.ofWay way := by
    intro way
    rw [List.drop_left]
    rfl
  unfold Host.list Files.list
  rw [hclasses]
  simp only [bind, Except.bind, below_eq, List.any_map, List.map_map, Function.comp_def, hpath]
  rw [List.filter_eq_self.2 fun _ _ => rfl]
  rfl

/-- **A directory is listed** if the directories in it can be opened. -/
theorem list_eq (hclasses : h.files.place h.cwd true classes = .ok ⟨base, some .dir⟩)
    (hshort : ∀ way, way ≠ [] → h.files.tree base way = some .dir →
      (classes / Path.ofWay way).spelling.utf8ByteSize < maxPath) :
    h.list classes (fun _ => true) = .ok ((h.files.ways base).map fun way => classes / Path.ofWay way) := by
  rw [list_eq_ite hclasses, if_neg]
  intro hany
  obtain ⟨way, hmem, hlong⟩ := List.any_eq_true.1 hany
  rw [Bool.and_eq_true, decide_eq_true_eq] at hlong
  obtain ⟨hdir, hlong⟩ := hlong
  obtain ⟨node, hnode, hisDir⟩ := (Option.any_eq_true _ _).1 hdir
  obtain rfl : node = .dir := by
    cases node with
    | dir => rfl
    | file data executable => simp [Node.isDir] at hisDir
    | link target => simp [Node.isDir] at hisDir
  exact absurd (hshort way (mem_ways.1 hmem).1 hnode) (Nat.not_lt_of_le hlong)

/-- A directory with a directory in it that cannot be opened is not listed. -/
theorem list_eq_error (hclasses : h.files.place h.cwd true classes = .ok ⟨base, some .dir⟩) (hway : way ≠ [])
    (hdir : h.files.tree base way = some .dir) (hlong : maxPath ≤ (classes / Path.ofWay way).spelling.utf8ByteSize) :
    h.list classes (fun _ => true) = .error (.ofKind .invalidFilename) := by
  have hmem : way ∈ h.files.ways base := mem_ways.2 ⟨hway, by simp [hdir]⟩
  rw [list_eq_ite hclasses, if_pos]
  exact List.any_eq_true.2 ⟨way, hmem, by simp [hdir, Node.isDir, hlong]⟩

/-- **The listing does not depend on the order in which the entries are found,** since it is sorted by their paths. -/
theorem list_eq_mergeSort (hclasses : h.files.place h.cwd true classes = .ok ⟨base, some .dir⟩)
    (htree : PlainTree (h.files.tree base))
    (hshort : ∀ way, way ≠ [] → h.files.tree base way = some .dir →
      (classes / Path.ofWay way).spelling.utf8ByteSize < maxPath) {listing : List Path} (hdistinct : listing.Nodup)
    (hlisting : ∀ path, path ∈ listing ↔
      ∃ way, way ≠ [] ∧ h.files.tree base way ≠ none ∧ path = classes / Path.ofWay way) :
    h.list classes (fun _ => true) = .ok (listing.mergeSort fun p q => (compare p q).isLE) := by
  have hplain : ∀ way ∈ h.files.ways base, PlainWay way := by
    intro way hmem
    obtain ⟨hsome, hnode⟩ := mem_ways.1 hmem
    exact htree.names way hsome hnode
  have hascending : ((h.files.ways base).map fun way => classes / Path.ofWay way).Pairwise
      fun p q => compare p q = .lt := by
    refine List.pairwise_map.2 ((ascending_ways h.files base).imp_of_mem fun {v w} hv hw hlt => ?_)
    rw [Path.compare_join _ (hplain v hv) (hplain w hw), hlt]
  have hnodup : ((h.files.ways base).map fun way => classes / Path.ofWay way).Nodup := by
    refine hascending.imp ?_
    rintro p _ hlt rfl
    simp at hlt
  have hmem : ∀ path, path ∈ (h.files.ways base).map (fun way => classes / Path.ofWay way) ↔ path ∈ listing := by
    intro path
    rw [hlisting, List.mem_map]
    constructor
    · rintro ⟨way, hway, rfl⟩
      obtain ⟨hsome, hnode⟩ := mem_ways.1 hway
      exact ⟨way, hsome, hnode, rfl⟩
    · rintro ⟨way, hsome, hnode, rfl⟩
      exact ⟨way, mem_ways.2 ⟨hsome, hnode⟩, rfl⟩
  have hperm : ((h.files.ways base).map fun way => classes / Path.ofWay way).Perm
      (listing.mergeSort fun p q => (compare p q).isLE) :=
    ((List.perm_ext_iff_of_nodup hnodup hdistinct).2 hmem).trans (List.mergeSort_perm _ _).symm
  have htotal : ∀ a b : Path, ((compare a b).isLE || (compare b a).isLE) = true := by
    intro a b
    rw [Bool.or_eq_true]
    cases hab : compare a b with
    | lt | eq => exact Or.inl rfl
    | gt => exact Or.inr (by rw [Std.OrientedCmp.gt_iff_lt.1 hab]; rfl)
  have htrans : ∀ a b c : Path, (compare a b).isLE = true → (compare b c).isLE = true → (compare a c).isLE = true :=
    fun _ _ _ => Std.TransCmp.isLE_trans
  have hsorted := List.pairwise_mergeSort htrans htotal listing
  rw [list_eq hclasses hshort]
  refine congrArg Except.ok (List.Perm.eq_of_pairwise ?_ (hascending.imp fun hlt => by rw [hlt]; rfl) hsorted hperm)
  -- two entries that do not come before each other are one
  intro a b ha hb hab hba
  have hb' := (hmem b).2 ((List.mergeSort_perm _ _).mem_iff.1 hb)
  obtain ⟨v, hv, rfl⟩ := List.mem_map.1 ha
  obtain ⟨w, hw, rfl⟩ := List.mem_map.1 hb'
  have hsame := Std.OrientedCmp.isLE_antisymm hab hba
  rw [Path.compare_join _ (hplain v hv) (hplain w hw)] at hsame
  rw [Std.LawfulEqCmp.eq_of_compare hsame]

/-! ### Packaging -/

/-- **Whether a jar can take its place:** the directory for it is there or can be made, and its path ends in a name that no
directory has. -/
structure CanTake (h : Host) (dest : Path) : Prop where
  made : (h.files.makeDirAll h.cwd (Host.stagingDir dest)).1 = .ok ()
  ends : EndsInName dest
  place : ∃ loc node, (prepared dest h).place h.cwd false dest = .ok ⟨loc, node⟩ ∧ node ≠ some .dir

/-- The item of one entry. -/
theorem item?_eq {loc : Location} {node : Node} (hway : PlainWay way)
    (hlink : ∀ target, node ≠ .link target)
    (hplace : way ≠ manifestWay → h.files.place h.cwd true (classes / Path.ofWay way) = .ok ⟨loc, some node⟩) :
    item? h classes (classes / Path.ofWay way) = .ok (if way = manifestWay then none else some (itemAt way node)) := by
  unfold item?
  rw [Path.entryName?_join _ hway]
  dsimp only
  by_cases hmanifest : way = manifestWay
  · rw [if_pos hmanifest, if_pos (hmanifest ▸ spelling_manifestWay)]
  · have hname : (Path.ofWay way).spelling ≠ manifestName := by
      rw [← spelling_manifestWay]
      exact fun hsame => hmanifest (Path.ofWay_inj hway plainWay_manifestWay hsame)
    rw [if_neg hmanifest, if_neg hname]
    have hplace := hplace hmanifest
    cases node with
    | link target => exact absurd rfl (hlink target)
    | dir =>
      have hdir : h.isDir (classes / Path.ofWay way) = true := isDir_iff.2 ⟨loc, hplace⟩
      rw [if_pos hdir]
      rfl
    | file data executable =>
      have hdir : ¬ h.isDir (classes / Path.ofWay way) = true := by
        intro hdir
        obtain ⟨_, hfound⟩ := isDir_iff.1 hdir
        rw [hplace] at hfound
        simp at hfound
      have hread : h.read (classes / Path.ofWay way) = .ok data := read_eq_ok_iff.2 ⟨loc, executable, hplace⟩
      rw [if_neg hdir, hread]
      rfl

/-- **The items of some entries,** without the manifest. -/
theorem items_eq {ways : List Location}
    (hways : ∀ way ∈ ways, PlainWay way ∧ ∃ loc node, tree way = some node ∧ (∀ target, node ≠ .link target) ∧
      (way ≠ manifestWay → h.files.place h.cwd true (classes / Path.ofWay way) = .ok ⟨loc, some node⟩)) :
    items h classes (ways.map fun way => classes / Path.ofWay way) =
      .ok (itemsAt tree (ways.filter (· ≠ manifestWay))) := by
  induction ways with
  | nil => rfl
  | cons way rest ih =>
    obtain ⟨hway, loc, node, hnode, hlink, hplace⟩ := hways way List.mem_cons_self
    have hrest := ih fun v hv => hways v (List.mem_cons_of_mem way hv)
    have hitem := item?_eq hway hlink hplace
    rw [List.map_cons, items, hitem, hrest]
    by_cases hmanifest : way = manifestWay
    · rw [if_pos hmanifest, List.filter_cons_of_neg (by simpa using hmanifest)]
      rfl
    · rw [if_neg hmanifest, List.filter_cons_of_pos (by simpa using hmanifest)]
      simp [itemsAt, hnode, bind, Except.bind, pure, Except.pure]

/-- **A tree is packaged** with its manifest in front and its other entries in the order of their paths. -/
theorem exists_yields_package (manifest : Manifest)
    (hclasses : h.files.place h.cwd true classes = .ok ⟨base, some .dir⟩)
    (htree : Packable (h.files.tree base))
    (hreach : ∀ way, way ≠ [] → way ≠ manifestWay → h.files.tree base way ≠ none →
      (classes / Path.ofWay way).spelling.utf8ByteSize < maxPath) (hdest : CanTake h dest) :
    ∃ loc node, (prepared dest h).place h.cwd false dest = .ok ⟨loc, node⟩ ∧
      (package classes manifest dest).Yields h ()
        { h with
          files := (prepared dest h).put loc (.file
            (encode (allItems manifest (itemsAt (h.files.tree base) (entryWays h.files base)))) false) } := by
  obtain ⟨loc, node, hplace, hfree⟩ := hdest.place
  have hdirs : ∀ way, way ≠ [] → h.files.tree base way = some .dir →
      (classes / Path.ofWay way).spelling.utf8ByteSize < maxPath := by
    intro way hway hdir
    exact hreach way hway (htree.ne_manifestWay hdir) (by simp [hdir])
  refine ⟨loc, node, hplace, yields_package.2 ⟨_, _, _, list_eq hclasses hdirs, hdest.made, ?_,
    replace_eq_ok_iff.2 ⟨hdest.ends, loc, node, hplace, hfree, rfl⟩, rfl⟩⟩
  have hroot := (place_eq_ok_iff.1 hclasses).1
  refine items_eq fun way hmem => ?_
  obtain ⟨hsome, hthere⟩ := mem_ways.1 hmem
  obtain ⟨found, hnode⟩ := Option.ne_none_iff_exists'.1 hthere
  have hway := htree.plain.names way hsome hthere
  have hlink : ∀ target, found ≠ .link target := by
    rintro target rfl
    exact htree.plain.links way target hsome hnode
  refine ⟨hway, base ++ way, found, hnode, hlink, fun hmanifest => ?_⟩
  -- making the directory for the jar has moved none of the entries
  dsimp only
  refine place_of_keptIn (prepared_addsDirs dest h).kept ?_
  have hpath := Path.admissible_join hroot hway (hreach way hsome hmanifest hthere)
  have hfound := place_join hclasses hway hpath
    (fun v rest hv hrest hsplit => htree.plain.dirs v rest hv hrest (hsplit ▸ hthere))
    (fun target => htree.plain.links way target hsome) true
  have hthere' : h.files.node? (base ++ way) = some found := hnode
  rwa [hthere'] at hfound

end Jar

end Recompile

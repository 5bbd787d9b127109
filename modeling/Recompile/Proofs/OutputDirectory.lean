import Mathlib.Data.List.Induction
import Recompile.Proofs.Removal

/-!
# Files in an output directory

A class file is named by a path that is followed from the output directory. Which files there are in the directory is a
set of ways that lead down from it: `Host.Outputs` says that these are the ways of a given set. That takes more than a
look at the tree, since the path of the directory has to lead there, and since a path below it finds what is at its end
only if there are no links on the way (`Files.Orderly`).

The main statements are about deleting and writing a file. A path that leads down to a file is deleted, one that leads
to no file is reported as not found, and nothing else changes (`Host.Outputs.removeFile`); what is written is there
afterwards, with the rest (`Host.Outputs.write`).
-/

namespace Recompile

/-- **A path that leads down** from a directory: it is relative, it does not lead up, and it ends in a name. -/
structure Path.LeadsDown (p : Path) : Prop where
  relative : p.isAbsolute = false
  up : ".." ∉ Files.steps p
  ends : (Files.steps p).getLast? ≠ some "."

/-- The way that a path leads down: its names. -/
def Path.way (p : Path) : Location := (Files.steps p).filter (· ≠ ".")

namespace Path.LeadsDown

variable {p : Path}

theorem names (hp : p.LeadsDown) : ∀ n ∈ p.way, n ≠ "." ∧ n ≠ ".." := by
  intro n hn
  obtain ⟨hmem, hdot⟩ := List.mem_filter.1 hn
  refine ⟨by simpa using hdot, ?_⟩
  rintro rfl
  exact hp.up hmem

theorem way_ne_nil (hp : p.LeadsDown) : p.way ≠ [] := by
  intro hnil
  exact Files.steps_ne_nil p ((Files.Undotted.filter hp.ends).eq_nil_iff.2 hnil)

end Path.LeadsDown

/-! ### A directory in order -/

namespace Files

/-- **A directory in order:** there are no links below it, and everything below it is in a directory. -/
structure Orderly (f : Files) (base : Location) : Prop where
  plain : ∀ w target, f.node? (base ++ w) ≠ some (.link target)
  inDirs : ∀ w n, w ≠ [] → f.node? (base ++ w ++ [n]) ≠ none → f.node? (base ++ w) = some .dir

/-- Whether there is a regular file at a location. -/
def fileAt (f : Files) (loc : Location) : Bool := (f.node? loc).any Node.isFile

variable {f : Files} {base w way : Location} {follow : Bool} {links : Nat}

theorem fileAt_iff : f.fileAt w = true ↔ ∃ data executable, f.node? w = some (.file data executable) := by
  unfold fileAt
  cases f.node? w with
  | none => simp
  | some node => cases node <;> simp

namespace Orderly

theorem isDir_of_below (ho : f.Orderly base) {rest : Location} (hw : w ≠ []) (hrest : rest ≠ [])
    (hnode : f.node? (base ++ w ++ rest) ≠ none) : f.node? (base ++ w) = some .dir := by
  induction rest using List.reverseRecOn with
  | nil => exact absurd rfl hrest
  | append_singleton init n ih =>
    have hdir : f.node? (base ++ (w ++ init)) = some .dir := by
      refine ho.inDirs (w ++ init) n (by simp [hw]) ?_
      simpa using hnode
    by_cases hinit : init = []
    · simpa [hinit] using hdir
    · exact ih hinit (by simp [List.append_assoc, hdir])

theorem node?_below_file (ho : f.Orderly base) (hw : w ≠ []) (hfile : f.fileAt (base ++ w) = true) {rest : Location}
    (hrest : rest ≠ []) : f.node? (base ++ w ++ rest) = none := by
  by_contra hnode
  have hdir := ho.isDir_of_below hw hrest hnode
  simp [fileAt, hdir] at hfile

/-- What is below the directory is in order as well. -/
theorem below (ho : f.Orderly base) (w : Location) : f.Orderly (base ++ w) where
  plain v target := by
    rw [List.append_assoc]
    exact ho.plain _ target
  inDirs v n hv hnode := by
    rw [List.append_assoc]
    exact ho.inDirs (w ++ v) n (by simp [hv]) (by simpa using hnode)

/-- **Names lead to what is there,** or one of them is too long for a name. -/
theorem walk_of_node (ho : f.Orderly base) (hway : ∀ n ∈ way, n ≠ "." ∧ n ≠ "..") (hsome : way ≠ [])
    (hnode : f.node? (base ++ way) ≠ none) :
    f.walk follow links base way = .ok ⟨base ++ way, f.node? (base ++ way)⟩ ∨
      f.walk follow links base way = .error .invalidFilename := by
  induction way generalizing base with
  | nil => exact absurd rfl hsome
  | cons n rest ih =>
    obtain ⟨hdot, hup⟩ := hway n List.mem_cons_self
    by_cases hlong : maxName < n.utf8ByteSize
    · exact Or.inr (by simp [walk_eq, walkWith, hdot, hup, hlong])
    have hstep : IsName n := ⟨hdot, hup, hlong⟩
    -- the last step ends where it is, the others lead through directories
    by_cases hrest : rest = []
    · subst hrest
      refine Or.inl ?_
      cases hdir : f.node? (base ++ [n]) with
      | none => exact absurd hdir hnode
      | some node =>
        cases node with
        | dir => rw [walk_enter hstep hdir, walk_nil]
        | file data executable => exact walk_last hstep hdir (by simp)
        | link target => exact absurd hdir (ho.plain [n] target)
    · have hdir : f.node? (base ++ [n]) = some .dir := ho.isDir_of_below (by simp) hrest (by simpa using hnode)
      rw [walk_enter hstep hdir]
      have hnext := ih (ho.below [n]) (fun m hm => hway m (List.mem_cons_of_mem _ hm)) hrest (by simpa using hnode)
      simpa using hnext

end Orderly

theorem Orderly.node?_drop_file (ho : f.Orderly base) (hw : w ≠ []) (hfile : f.fileAt (base ++ w) = true)
    (other : Location) : (f.drop (base ++ w)).node? other = if other = base ++ w then none else f.node? other := by
  rw [node?_drop f (by simp [hw])]
  by_cases hbelow : base ++ w <+: other
  · obtain ⟨rest, rfl⟩ := hbelow
    by_cases hrest : rest = []
    · simp [hrest]
    · rw [if_pos (List.prefix_append _ _), if_neg (by simpa using hrest), ho.node?_below_file hw hfile hrest]
  · rw [if_neg hbelow, if_neg]
    rintro rfl
    exact hbelow (List.prefix_refl _)

/-! ### Changing one file -/

section Change

variable {g : Files} {cwd : Location} {output : Path} {new : Option Node}

/-- A path to a directory does not need the files. -/
theorem place_of_change (hplace : f.place cwd true output = .ok ⟨base, some .dir⟩)
    (hold : ∀ node, f.node? way = some node → node.isFile = true)
    (hother : ∀ other, other ≠ way → g.node? other = f.node? other) :
    g.place cwd true output = .ok ⟨base, some .dir⟩ := by
  refine place_of_waysKept (fun other node hnode hfile => ?_) hplace (by simp)
  rw [hother other, hnode]
  rintro rfl
  simp [hold node hnode] at hfile

/-- **A directory stays in order** when one file in it changes, comes into one of its directories, or goes. -/
theorem Orderly.change (ho : f.Orderly base) (hold : ∀ node, f.node? (base ++ way) = some node → node.isFile = true)
    (hnew : ∀ node, new = some node → node.isFile = true)
    (hparent : new ≠ none → ∀ w n, w ≠ [] → way = w ++ [n] → f.node? (base ++ w) = some .dir)
    (hg : ∀ other, g.node? other = if other = base ++ way then new else f.node? other) : g.Orderly base where
  plain w target hlink := by
    rw [hg] at hlink
    split at hlink
    · simpa using hnew _ hlink
    · exact ho.plain w target hlink
  inDirs w n hw hbelow := by
    have hdir : f.node? (base ++ w) = some .dir := by
      rw [hg] at hbelow
      split at hbelow
      next hsame =>
        rw [List.append_assoc, List.append_cancel_left_eq] at hsame
        exact hparent hbelow w n hw hsame.symm
      next => exact ho.inDirs w n hw hbelow
    rw [hg, if_neg, hdir]
    -- a directory was not what is put in the place
    intro hsame
    rw [hsame] at hdir
    simpa using hold .dir hdir

theorem fileAt_of_change (hg : ∀ other, g.node? other = if other = base ++ way then new else f.node? other)
    (hnew : ∀ node, new = some node → node.isFile = true) (w : Location) :
    g.fileAt (base ++ w) = true ↔ if w = way then new ≠ none else f.fileAt (base ++ w) = true := by
  unfold fileAt
  rw [hg]
  by_cases hsame : w = way
  · rw [if_pos (congrArg _ hsame), if_pos hsame]
    cases new with
    | none => simp
    | some node => simp [hnew node rfl]
  · rw [if_neg (by simpa using hsame), if_neg hsame]

/-- A write that succeeds puts a file where the path leads. It may be executed if one was there that may. -/
theorem of_write {cwd : Location} {p : Path} {data : Bytes} (hwrite : f.write cwd p data = .ok g) :
    ∃ r executable, f.place cwd true p = .ok r ∧
      (r.node = none ∧ executable = false ∨ ∃ old, r.node = some (.file old executable)) ∧
      g = f.put r.loc (.file data executable) := by
  unfold Files.write at hwrite
  split at hwrite
  · -- a path with a separator at the end names no file
    obtain ⟨_, -, hfails⟩ := bind_eq_ok_iff.1 hwrite
    cases hfails
  · obtain ⟨r, hr, hput⟩ := bind_eq_ok_iff.1 hwrite
    split at hput
    next hnone => exact ⟨r, false, hr, Or.inl ⟨hnone, rfl⟩, (Except.ok.inj hput).symm⟩
    next old executable hold => exact ⟨r, executable, hr, Or.inr ⟨old, hold⟩, (Except.ok.inj hput).symm⟩
    · cases hput

/-- A write that succeeds puts a file where the path leads, and there was a file before or nothing. -/
theorem exists_put_of_write {cwd : Location} {p : Path} {data : Bytes} (hwrite : f.write cwd p data = .ok g) :
    ∃ r executable, f.place cwd true p = .ok r ∧ (∀ node, r.node = some node → node.isFile = true) ∧
      g = f.put r.loc (.file data executable) := by
  obtain ⟨r, executable, hr, hnode, rfl⟩ := of_write hwrite
  refine ⟨r, executable, hr, fun node hsome => ?_, rfl⟩
  rcases hnode with ⟨hnone, -⟩ | ⟨old, hold⟩
  · simp [hnone] at hsome
  · rw [hold] at hsome
    exact Option.some.inj hsome ▸ rfl

end Change

end Files

/-! ### The files below an output directory -/

/-- **The files in an output directory.** The path of the directory leads to a directory in order, and the ways that lead
from there to a file are the given ones. -/
def Host.Outputs (h : Host) (output : Path) (W : Location → Prop) : Prop :=
  ∃ loc, h.files.place h.cwd true output = .ok ⟨loc, some .dir⟩ ∧ h.files.Orderly loc ∧
    ∀ w, h.files.fileAt (loc ++ w) = true ↔ W w

/-- Whether there is a file at the end of a way down from an output directory. -/
def Host.HasOutput (h : Host) (output : Path) (w : Location) : Prop := ∃ W, h.Outputs output W ∧ W w

theorem Host.HasOutput.exists_fileAt {h : Host} {output : Path} {w : Location} (hw : h.HasOutput output w) :
    ∃ loc, h.files.place h.cwd true output = .ok ⟨loc, some .dir⟩ ∧ h.files.fileAt (loc ++ w) = true := by
  obtain ⟨W, ⟨loc, hplace, -, hfiles⟩, hW⟩ := hw
  exact ⟨loc, hplace, (hfiles w).2 hW⟩

namespace Host.Outputs

open Files

variable {h : Host} {output file : Path} {W : Location → Prop} {files : Files}

theorem congr {W' : Location → Prop} (ho : h.Outputs output W) (hW : ∀ w, W w ↔ W' w) : h.Outputs output W' := by
  obtain ⟨loc, hplace, horder, hfiles⟩ := ho
  exact ⟨loc, hplace, horder, fun w => (hfiles w).trans (hW w)⟩

/-- There is one set of files in a directory. -/
theorem unique {W' : Location → Prop} (ho : h.Outputs output W) (ho' : h.Outputs output W') (w : Location) :
    W w ↔ W' w := by
  obtain ⟨loc, hplace, -, hfiles⟩ := ho
  obtain ⟨loc', hplace', -, hfiles'⟩ := ho'
  obtain ⟨rfl, -⟩ := Place.mk.inj (Except.ok.inj (hplace.symm.trans hplace'))
  exact (hfiles w).symm.trans (hfiles' w)

theorem hasOutput_iff (ho : h.Outputs output W) {w : Location} : h.HasOutput output w ↔ W w :=
  ⟨fun ⟨_, ho', hw⟩ => (ho.unique ho' w).2 hw, fun hw => ⟨W, ho, hw⟩⟩

theorem logged (ho : h.Outputs output W) (e : Event) : (h.logged e).Outputs output W := ho

theorem logs (output : Path) (W : Location → Prop) (h : Host) (log : Array Event) (ho : h.Outputs output W) :
    { h with log }.Outputs output W := ho

/-- A path below the directory is looked up by walking its way. -/
theorem exists_place_way {loc : Location} (hplace : h.files.place h.cwd true output = .ok ⟨loc, some .dir⟩)
    (hfile : file.LeadsDown) : ∃ left, ∀ follow, Admissible (output / file) →
      h.files.place h.cwd follow (output / file) = (h.files.walk follow left loc file.way).mapError Fault.ofKind := by
  obtain ⟨left, hjoin⟩ := exists_place_join hfile.relative hplace
  refine ⟨left, fun follow hpath => ?_⟩
  rw [hjoin follow hpath, walk_undotted (Undotted.filter hfile.ends)]
  rfl

/-- A path below the directory that leads somewhere leads down to what is there. -/
theorem place_eq_of_ok {loc : Location} (hplace : h.files.place h.cwd true output = .ok ⟨loc, some .dir⟩)
    (horder : h.files.Orderly loc) (hfile : file.LeadsDown) {follow : Bool} {r : Place}
    (hr : h.files.place h.cwd follow (output / file) = .ok r) :
    r = ⟨loc ++ file.way, h.files.node? (loc ++ file.way)⟩ := by
  obtain ⟨left, hjoin⟩ := exists_place_way hplace hfile
  rw [hjoin follow (place_eq_ok_iff.1 hr).1, mapError_eq_ok_iff] at hr
  exact walk_below horder.plain hfile.names hfile.way_ne_nil hr

/-- A file below the directory is found by its path, if the path can be looked up at all. -/
theorem place_ne_notFound {loc : Location} (hplace : h.files.place h.cwd true output = .ok ⟨loc, some .dir⟩)
    (horder : h.files.Orderly loc) (hfile : file.LeadsDown) (hthere : h.files.fileAt (loc ++ file.way) = true)
    {follow : Bool} {fault : Fault} (hfault : h.files.place h.cwd follow (output / file) = .error fault) :
    fault.kind ≠ .notFound := by
  obtain ⟨left, hjoin⟩ := exists_place_way hplace hfile
  by_cases hpath : Admissible (output / file)
  · have hnode : h.files.node? (loc ++ file.way) ≠ none := by
      intro hnone
      simp [fileAt, hnone] at hthere
    rw [hjoin follow hpath] at hfault
    -- the walk down ends at the file, or at a name that is too long
    have hway : h.files.walk follow left loc (file.way) = .ok ⟨loc ++ file.way, h.files.node? (loc ++ file.way)⟩ ∨
        h.files.walk follow left loc (file.way) = .error .invalidFilename :=
      horder.walk_of_node hfile.names hfile.way_ne_nil hnode
    rcases hway with hwalk | hwalk
    · simp [hwalk, Except.mapError] at hfault
    · obtain rfl : Fault.ofKind .invalidFilename = fault := by simpa [hwalk, Except.mapError] using hfault
      simp [Fault.ofKind]
  · exact kind_of_not_admissible hpath (join_ne_empty (place_eq_ok_iff.1 hplace).1.some hfile.relative) hfault

theorem of_empty {loc : Location} (hplace : h.files.place h.cwd true output = .ok ⟨loc, some .dir⟩)
    (hnode : h.files.node? loc = some .dir) (hempty : ∀ w, w ≠ [] → h.files.node? (loc ++ w) = none) :
    h.Outputs output fun _ => False := by
  have hall : ∀ w, h.files.node? (loc ++ w) = some .dir ∨ h.files.node? (loc ++ w) = none := by
    intro w
    by_cases hw : w = []
    · exact Or.inl (by simpa [hw] using hnode)
    · exact Or.inr (hempty w hw)
  refine ⟨loc, hplace, ⟨fun w target => ?_, fun w n hw hbelow => ?_⟩, fun w => ?_⟩
  · rcases hall w with h | h <;> simp [h]
  · exact absurd (hempty (w ++ [n]) (by simp)) (by simpa using hbelow)
  · rcases hall w with h | h <;> simp [fileAt, h, Node.isFile]

/-- **A file outside the directory may change** without a trace in there. -/
theorem edit (ho : h.Outputs output W) {way : Location}
    (houtside : ∀ r, h.files.place h.cwd true output = .ok r → ¬ r.loc <+: way)
    (hold : ∀ node, h.files.node? way = some node → node.isFile = true)
    (hother : ∀ other, other ≠ way → files.node? other = h.files.node? other) : { h with files }.Outputs output W := by
  obtain ⟨loc, hplace, horder, hfiles⟩ := ho
  have hbelow : ∀ w, files.node? (loc ++ w) = h.files.node? (loc ++ w) := by
    refine fun w => hother _ ?_
    rintro rfl
    exact houtside _ hplace (List.prefix_append _ _)
  -- below the directory nothing is different, and the way to it is the same
  refine ⟨loc, place_of_change hplace hold hother, ⟨fun w target => ?_, fun w n => ?_⟩, fun w => ?_⟩
  · rw [hbelow]
    exact horder.plain w target
  · rw [List.append_assoc, hbelow, hbelow, ← List.append_assoc]
    exact horder.inDirs w n
  · unfold fileAt
    rw [hbelow]
    exact hfiles w

/-! ### Deleting a file -/

/-- **A file that is deleted is gone,** and the others stay. -/
theorem removeFile (ho : h.Outputs output W) (hfile : file.LeadsDown)
    (hremove : h.files.removeFile h.cwd (output / file) = .ok files) :
    { h with files }.Outputs output fun w => W w ∧ w ≠ file.way := by
  obtain ⟨loc, hplace, horder, hfiles⟩ := ho
  obtain ⟨_, node, hr, hdir, rfl⟩ := Files.removeFile_eq_ok_iff.1 hremove
  obtain ⟨rfl, hnode⟩ := Place.mk.inj (place_eq_of_ok hplace horder hfile hr)
  -- it is no link, since there is none below the directory
  have hthere : h.files.fileAt (loc ++ file.way) = true := by
    cases node with
    | dir => exact absurd rfl hdir
    | file data executable => exact fileAt_iff.2 ⟨data, executable, hnode.symm⟩
    | link target => exact absurd hnode.symm (horder.plain _ target)
  have hdrop := horder.node?_drop_file hfile.way_ne_nil hthere
  have hold : ∀ node, h.files.node? (loc ++ file.way) = some node → node.isFile = true := by
    intro node hnode
    simpa [fileAt, hnode] using hthere
  refine ⟨loc, place_of_change hplace hold fun other hother => by rw [hdrop, if_neg hother],
    horder.change hold (by simp) (by simp) hdrop, fun w => ?_⟩
  rw [fileAt_of_change hdrop (by simp)]
  split
  next hsame => simp [hsame]
  next hother => exact (hfiles w).trans (by simp [hother])

theorem not_of_removeFile_error (ho : h.Outputs output W) (hfile : file.LeadsDown) {fault : Fault}
    (hremove : h.files.removeFile h.cwd (output / file) = .error fault) (hkind : fault.kind = .notFound) :
    ¬ W (file.way) := by
  obtain ⟨loc, hplace, horder, hfiles⟩ := ho
  rw [← hfiles]
  intro hthere
  obtain hfail | ⟨r, hr, hfail⟩ := bind_eq_error_iff.1 hremove
  · -- a path to a file that is there leads there
    exact place_ne_notFound hplace horder hfile hthere hfail hkind
  · obtain rfl := place_eq_of_ok hplace horder hfile hr
    obtain ⟨data, executable, hnode⟩ := fileAt_iff.1 hthere
    simp [hnode] at hfail

/-! ### Writing a file -/

/-- What is passed on the way down to a place is a directory. -/
theorem node?_of_walk {f : Files} {base w rest : Location} {follow : Bool} {links : Nat} {r : Place}
    (horder : f.Orderly base) (hway : ∀ n ∈ w ++ rest, n ≠ "." ∧ n ≠ "..") (hw : w ≠ []) (hrest : rest ≠ [])
    (hwalk : f.walk follow links base (w ++ rest) = .ok r) : f.node? (base ++ w) = some .dir := by
  obtain ⟨loc, left, hfirst, -⟩ := walk_append hrest hwalk
  have hplain : ∀ n ∈ w, n ≠ "." ∧ n ≠ ".." := fun n hn => hway n (List.mem_append_left _ hn)
  exact (Place.mk.inj (walk_below horder.plain hplain hw hfirst)).2.symm

/-- **A file that is written is there,** with the others. -/
theorem write (ho : h.Outputs output W) (hfile : file.LeadsDown) {data : Bytes}
    (hwrite : h.files.write h.cwd (output / file) data = .ok files) :
    { h with files }.Outputs output fun w => W w ∨ w = file.way := by
  obtain ⟨loc, hplace, horder, hfiles⟩ := ho
  obtain ⟨r, executable, hr, hnode, rfl⟩ := Files.exists_put_of_write hwrite
  obtain ⟨left, hjoin⟩ := exists_place_way hplace hfile
  have hwalk : h.files.walk true left loc file.way = .ok r :=
    mapError_eq_ok_iff.1 ((hjoin true (place_eq_ok_iff.1 hr).1).symm.trans hr)
  -- what is written is below the directory, where there are no links
  obtain rfl := place_eq_of_ok hplace horder hfile hr
  dsimp only at hnode ⊢
  have hsome : loc ++ file.way ≠ [] := by simp [hfile.way_ne_nil]
  have hput := node?_put h.files hsome (.file data executable)
  -- the walk passed the directories above the file
  have hparent : ∀ w n, w ≠ [] → file.way = w ++ [n] → h.files.node? (loc ++ w) = some .dir := by
    intro w n hw hsteps
    rw [hsteps] at hwalk
    exact node?_of_walk horder (hsteps ▸ hfile.names) hw (by simp) hwalk
  refine ⟨loc, place_of_change hplace hnode fun other hother => by rw [hput, if_neg hother],
    horder.change hnode (by simp) (fun _ => hparent) hput, fun w => ?_⟩
  rw [fileAt_of_change hput (by simp)]
  split
  next hsame => simp [hsame]
  next hother => exact (hfiles w).trans (by simp [hother])

end Host.Outputs

end Recompile

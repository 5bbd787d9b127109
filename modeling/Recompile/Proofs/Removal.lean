import Recompile.Proofs.Place

/-!
# Removing files

Removing a file or a directory takes an entry out of the tree with everything below it, and nothing else. So paths that
lead somewhere afterwards led there before (`Files.keptIn_of_removeFile`, `Files.keptIn_of_removeTree`), and the path that
was removed leads to no file or directory any more, not even through a link (`Files.not_isFile_of_removeFile`,
`Files.not_isDir_of_removeTree`).
-/

namespace Recompile

namespace Files

variable {f g : Files} {cwd : Location} {p : Path}

/-- What is left after an entry is dropped was there before. -/
theorem keptIn_drop (f : Files) (loc : Location) : (f.drop loc).KeptIn f := by
  intro other node hnode
  by_cases hroot : loc = []
  · subst hroot
    -- nothing but the root is left
    unfold node? drop at hnode
    split at hnode
    next hother => rw [hother, node?, if_pos rfl, hnode]
    next => simp [NameTree.get?_drop] at hnode
  · rw [node?_drop f hroot] at hnode
    split at hnode
    · simp at hnode
    · exact hnode

theorem isFile_of_keptIn (hkept : f.KeptIn g) (h : f.isFile cwd p = true) : g.isFile cwd p = true := by
  obtain ⟨loc, data, executable, hplace⟩ := isFile_iff.1 h
  exact isFile_iff.2 ⟨loc, data, executable, place_of_keptIn hkept hplace⟩

theorem isDir_of_keptIn (hkept : f.KeptIn g) (h : f.isDir cwd p = true) : g.isDir cwd p = true := by
  obtain ⟨loc, hplace⟩ := isDir_iff.1 h
  exact isDir_iff.2 ⟨loc, place_of_keptIn hkept hplace⟩

/-- A file or a link is removed where the path ends. -/
theorem removeFile_eq_ok_iff : f.removeFile cwd p = .ok g ↔
    ∃ loc node, f.place cwd false p = .ok ⟨loc, some node⟩ ∧ node ≠ .dir ∧ g = f.drop loc := by
  unfold removeFile
  rw [bind_eq_ok_iff]
  constructor
  · rintro ⟨⟨loc, found⟩, hplace, hdrop⟩
    rcases found with _ | _ | _ | _
    · simp at hdrop
    · simp at hdrop
    all_goals exact ⟨loc, _, hplace, by simp, (Except.ok.inj hdrop).symm⟩
  · rintro ⟨loc, node, hplace, hdir, rfl⟩
    refine ⟨_, hplace, ?_⟩
    cases node with
    | dir => exact absurd rfl hdir
    | file | link => rfl

theorem exists_drop_of_removeFile (h : f.removeFile cwd p = .ok g) :
    ∃ loc node, loc ≠ [] ∧ f.place cwd false p = .ok ⟨loc, some node⟩ ∧ node ≠ .dir ∧ g = f.drop loc := by
  obtain ⟨loc, node, hplace, hdir, hg⟩ := removeFile_eq_ok_iff.1 h
  refine ⟨loc, node, ?_, hplace, hdir, hg⟩
  rcases place_end hplace with hend | ⟨hloc, -⟩
  · exact absurd (Option.some.inj hend) hdir
  · exact hloc

/-- **Removing a file adds nothing.** -/
theorem keptIn_of_removeFile (h : f.removeFile cwd p = .ok g) : g.KeptIn f := by
  obtain ⟨loc, _, -, -, -, rfl⟩ := exists_drop_of_removeFile h
  exact keptIn_drop f loc

/-- **A path that was removed leads to no file.** -/
theorem not_isFile_of_removeFile (h : f.removeFile cwd p = .ok g) : ¬ g.isFile cwd p = true := by
  intro hfile
  obtain ⟨_, _, _, hthere⟩ := isFile_iff.1 hfile
  -- whatever the path ends at now is what it ended at before, and that was dropped
  obtain ⟨loc', node', hend⟩ := exists_place_false hthere
  have hbefore := place_of_keptIn (keptIn_of_removeFile h) hend
  obtain ⟨loc, node, hloc, hplace, hdir, rfl⟩ := exists_drop_of_removeFile h
  obtain ⟨rfl, hnode⟩ := Place.mk.inj (Except.ok.inj (hplace.symm.trans hbefore))
  obtain rfl := Option.some.inj hnode
  rcases place_end hend with hisdir | ⟨-, hthere⟩
  · exact hdir (Option.some.inj hisdir)
  · rw [node?_drop f hloc, if_pos (List.prefix_refl _)] at hthere
    simp at hthere

/-- What is not found when it is to be removed is no file. -/
theorem not_isFile_of_removeFile_error {fault : Fault} (h : f.removeFile cwd p = .error fault)
    (hkind : fault.kind = .notFound) : ¬ f.isFile cwd p = true := by
  intro hfile
  obtain ⟨_, _, _, hthere⟩ := isFile_iff.1 hfile
  obtain ⟨loc, node, hend⟩ := exists_place_false hthere
  unfold removeFile at h
  rw [hend] at h
  cases node with
  | dir =>
    obtain rfl : Fault.ofKind .isADirectory = fault := Except.error.inj h
    simp [Fault.ofKind] at hkind
  | file | link => cases h

/-! ### Directories -/

/-- A directory or a link is removed with everything below where the path ends. -/
theorem removeTree_eq_ok_iff : f.removeTree cwd p = .ok g ↔
    ∃ loc node, f.place cwd false p = .ok ⟨loc, some node⟩ ∧ node.isFile = false ∧ g = f.drop loc := by
  unfold removeTree
  rw [bind_eq_ok_iff]
  constructor
  · rintro ⟨⟨loc, found⟩, hplace, hdrop⟩
    rcases found with _ | _ | _ | _
    · simp at hdrop
    case some.file => simp at hdrop
    all_goals exact ⟨loc, _, hplace, rfl, (Except.ok.inj hdrop).symm⟩
  · rintro ⟨loc, node, hplace, hfile, rfl⟩
    refine ⟨_, hplace, ?_⟩
    cases node with
    | file => simp at hfile
    | dir | link => rfl

/-- **Removing a directory adds nothing.** -/
theorem keptIn_of_removeTree (h : f.removeTree cwd p = .ok g) : g.KeptIn f := by
  obtain ⟨loc, _, -, -, rfl⟩ := removeTree_eq_ok_iff.1 h
  exact keptIn_drop f loc

/-- A path that ends in a name leads to the entry of that name in some directory. -/
theorem place_of_last_name {front : List String} {name : String} (hsteps : steps p = front ++ [name]) (hname : IsName name)
    {r : Place} (h : f.place cwd false p = .ok r) : ∃ base, r = ⟨base ++ [name], f.node? (base ++ [name])⟩ := by
  obtain ⟨-, hwalk⟩ := place_eq_ok_iff.1 h
  rw [hsteps] at hwalk
  obtain ⟨base, left, -, hend⟩ := walk_append (by simp) hwalk
  refine ⟨base, ?_⟩
  rw [walk_last hname rfl fun _ _ => rfl] at hend
  exact (Except.ok.inj hend).symm

/-- **A path that was removed leads to no directory,** if it ends in a name. -/
theorem not_isDir_of_removeTree {front : List String} {name : String} (hsteps : steps p = front ++ [name])
    (hname : IsName name) (h : f.removeTree cwd p = .ok g) : ¬ g.isDir cwd p = true := by
  intro hdir
  obtain ⟨_, hthere⟩ := isDir_iff.1 hdir
  -- whatever the path ends at now is what it ended at before, and that was dropped
  obtain ⟨loc', node', hend⟩ := exists_place_false hthere
  have hbefore := place_of_keptIn (keptIn_of_removeTree h) hend
  obtain ⟨loc, node, hplace, -, rfl⟩ := removeTree_eq_ok_iff.1 h
  obtain ⟨rfl, -⟩ := Place.mk.inj (Except.ok.inj (hplace.symm.trans hbefore))
  obtain ⟨base, hr⟩ := place_of_last_name hsteps hname hend
  obtain ⟨rfl, hnode⟩ := Place.mk.inj hr
  rw [node?_drop f (by simp), if_pos (List.prefix_refl _)] at hnode
  simp at hnode

/-- What cannot be removed as a directory is none. -/
theorem not_isDir_of_removeTree_error {fault : Fault} (h : f.removeTree cwd p = .error fault) :
    ¬ f.isDir cwd p = true := by
  intro hdir
  obtain ⟨loc, hthere⟩ := isDir_iff.1 hdir
  obtain ⟨loc', node', hend⟩ := exists_place_false hthere
  by_cases hfile : node'.isFile = true
  · -- a file is found whether links are followed or not
    have hsame : f.place cwd true p = .ok ⟨loc', some node'⟩ := by
      refine place_true_of_not_link hend ?_
      rintro target ⟨⟩
      simp at hfile
    obtain ⟨-, hnode⟩ := Place.mk.inj (Except.ok.inj (hsame.symm.trans hthere))
    obtain rfl := Option.some.inj hnode
    simp at hfile
  · -- anything else is removed, be it a link to the directory
    have hok := removeTree_eq_ok_iff.2 ⟨loc', node', hend, by simpa using hfile, rfl⟩
    simp [hok] at h

end Files

end Recompile

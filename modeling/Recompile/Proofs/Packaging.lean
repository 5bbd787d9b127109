import Recompile.Jar.Archive
import Recompile.Proofs.Action
import Recompile.Proofs.Place

/-!
# Packaging and unpacking, step by step

Packaging a directory looks at it, makes the directory for the jar, looks at the files and puts the jar in its place.
`Jar.yields_package` and `Jar.of_fails_package` say what each outcome has done to the machine. Unpacking writes files and
makes directories one after the other, all of them below its directory as far as the names of the members say, and
changes nothing else (`Jar.keeps_unzip`).
-/

namespace Recompile

namespace Jar

variable {classes dest : Path} {manifest : Manifest} {h h' : Host}

/-! ### Packaging -/

/-- The tree when the directory for a jar has been made. -/
def prepared (dest : Path) (h : Host) : Files := (h.files.makeDirAll h.cwd (Host.stagingDir dest)).2

theorem prepared_addsDirs (dest : Path) (h : Host) : h.files.AddsDirs (prepared dest h) := Files.makeDirAll_addsDirs _ _ _

/-- **A jar that is packaged** has the manifest and then the items of the directory, and takes its place at once. -/
theorem yields_package {u : Unit} : (package classes manifest dest).Yields h u h' ↔ ∃ paths contents files,
    h.list classes (fun _ => true) = .ok paths ∧ (h.files.makeDirAll h.cwd (Host.stagingDir dest)).1 = .ok () ∧
      items { h with files := prepared dest h } classes paths = .ok contents ∧
      (prepared dest h).replace h.cwd dest (Zip.encode (.file manifestName manifest.bytes :: contents)) = .ok files ∧
      h' = { h with files } := by
  unfold package prepared
  simp only [Action.yields_bind, Host.yields_ask, Host.yields_makeDirAll, Action.yields_get, Action.yields_liftM,
    Host.yields_change]
  constructor
  · rintro ⟨paths, _, ⟨hlist, rfl⟩, _, _, ⟨hmade, rfl⟩, _, _, ⟨rfl, rfl⟩, contents, _, ⟨hitems, rfl⟩, files, hreplace, rfl⟩
    dsimp only at hreplace
    refine ⟨paths, contents, files, hlist, hmade, ?_, ?_, ?_⟩
    · exact hitems
    · exact hreplace
    · rfl
  · rintro ⟨paths, contents, files, hlist, hmade, hitems, hreplace, rfl⟩
    refine ⟨paths, h, ?_, ?_⟩
    · exact ⟨hlist, rfl⟩
    refine ⟨(), { h with files := (h.files.makeDirAll h.cwd (Host.stagingDir dest)).2 }, ?_, ?_⟩
    · exact ⟨hmade, rfl⟩
    refine ⟨_, _, ⟨rfl, rfl⟩, contents, _, ⟨hitems, rfl⟩, files, ?_, rfl⟩
    dsimp only
    exact hreplace

/-- A jar that cannot be packaged has made a directory at most. -/
theorem of_fails_package {e : BridgeError} (hrun : (package classes manifest dest).Fails h e h') :
    h' = h ∨ h' = { h with files := prepared dest h } := by
  unfold package at hrun
  rcases Action.fails_bind.1 hrun with hask | ⟨paths, _, hask, hmake⟩
  · obtain ⟨_, -, -, rfl⟩ := Host.fails_ask.1 hask
    exact Or.inl rfl
  obtain ⟨-, rfl⟩ := Host.yields_ask.1 hask
  -- from here on the directory for the new file may have been made, and nothing else
  refine Or.inr ?_
  rcases Action.fails_bind.1 hmake with hmade | ⟨_, _, hmade, hget⟩
  · obtain ⟨_, -, -, rfl⟩ := Host.fails_makeDirAll.1 hmade
    rfl
  obtain ⟨-, rfl⟩ := Host.yields_makeDirAll.1 hmade
  obtain ⟨_, _, hsame, hitems⟩ := (Action.fails_bind.1 hget).resolve_left Action.not_fails_get
  obtain ⟨rfl, rfl⟩ := Action.yields_get.1 hsame
  rcases Action.fails_bind.1 hitems with hlift | ⟨contents, _, hlift, hchange⟩
  · obtain ⟨-, rfl⟩ := Action.fails_liftM.1 hlift
    rfl
  · obtain ⟨-, rfl⟩ := Action.yields_liftM.1 hlift
    obtain ⟨_, -, -, rfl⟩ := Host.fails_change.1 hchange
    rfl

/-! ### Unpacking -/

theorem yields_members_of_openAt {archive : Path} {ms : List Zip.Member} (hopen : Zip.openAt h archive = .ok ms) :
    (members archive).Yields h ms h := by
  unfold members
  refine Action.yields_bind.2 ⟨h, h, Action.yields_get.2 ⟨rfl, rfl⟩, ?_⟩
  rw [hopen]
  exact Action.yields_pure.2 ⟨rfl, rfl⟩

section Keeping

variable {I : Host → Prop}

theorem keeps_members (archive : Path) : (members archive).Keeps I fun _ => True := by
  unfold members
  refine Action.keeps_get.bind fun h _ => ?_
  split
  · exact Action.keeps_pure trivial
  · exact Action.keeps_throw _
  · exact Action.keeps_throw _

theorem keeps_change (wrap : Fault → BridgeError) {operation : Files → Location → Except Fault Files}
    (hop : ∀ h files, I h → operation h.files h.cwd = .ok files → I { h with files }) :
    (Host.change wrap operation).Keeps I fun _ => True := by
  unfold Host.change
  refine Action.keeps_get.bind fun h hI => ?_
  split
  next files hfiles => exact Action.keeps_set (hop h files hI hfiles)
  next => exact Action.keeps_throw _

theorem keeps_makeDirAll (wrap : Fault → BridgeError) {p : Path}
    (hmake : ∀ h, I h → I { h with files := (h.files.makeDirAll h.cwd p).2 }) :
    (Host.makeDirAll wrap p).Keeps I fun _ => True := by
  unfold Host.makeDirAll
  refine Action.keeps_get.bind fun h hI => ?_
  dsimp only
  refine (Action.keeps_set (hmake h hI)).bind fun _ _ => ?_
  split
  · exact Action.keeps_pure trivial
  · exact Action.keeps_throw _

theorem keeps_writeMember {target : Path}
    (hmake : ∀ up h, target.parent? = some up → I h → I { h with files := (h.files.makeDirAll h.cwd up).2 })
    (hwrite : ∀ h files data, I h → h.files.write h.cwd target data = .ok files → I { h with files })
    (contents : Zip.Contents) : (writeMember target contents).Keeps I fun _ => True := by
  unfold writeMember
  extract_lets write
  have hkeeps : ∀ u, (write u).Keeps I fun _ => True := by
    intro u
    refine (keeps_change _ fun h files hI hfiles => hwrite h files contents.data hI hfiles).bind fun _ _ => ?_
    split
    · exact Action.keeps_throw _
    · exact Action.keeps_pure trivial
  split
  next up hup => exact (keeps_makeDirAll _ fun h => hmake up h hup).bind fun u _ => hkeeps u
  next => exact hkeeps ()

/-- **A file that is written for a member** has all of its contents, and its directory was made before. -/
theorem of_yields_writeMember {target : Path} {contents : Zip.Contents} {u : Unit}
    (hrun : (writeMember target contents).Yields h u h') :
    contents.fault = none ∧ ∃ f files,
      (f = h.files ∨ ∃ up, target.parent? = some up ∧ f = (h.files.makeDirAll h.cwd up).2) ∧
      f.write h.cwd target contents.data = .ok files ∧ h' = { h with files } := by
  unfold writeMember at hrun
  extract_lets write at hrun
  -- with or without a directory above it, the file is written in the same way
  have hwritten : ∀ {k : Host}, (write ()).Yields k u h' → contents.fault = none ∧ ∃ files,
      k.files.write k.cwd target contents.data = .ok files ∧ h' = { k with files } := by
    intro k hk
    obtain ⟨_, _, hchange, hrest⟩ := Action.yields_bind.1 hk
    obtain ⟨files, hfiles, rfl⟩ := Host.yields_change.1 hchange
    split at hrest
    next => exact absurd hrest Action.not_yields_throw
    next hfault =>
      obtain ⟨-, rfl⟩ := Action.yields_pure.1 hrest
      exact ⟨Option.eq_none_iff_forall_ne_some.2 hfault, files, hfiles, rfl⟩
  split at hrun
  next up hup =>
    obtain ⟨_, k, hmade, hrest⟩ := Action.yields_bind.1 hrun
    obtain ⟨-, rfl⟩ := Host.yields_makeDirAll.1 hmade
    obtain ⟨hfault, files, hfiles, rfl⟩ := hwritten hrest
    exact ⟨hfault, _, files, Or.inr ⟨up, hup, rfl⟩, hfiles, rfl⟩
  next =>
    obtain ⟨hfault, files, hfiles, rfl⟩ := hwritten hrun
    exact ⟨hfault, _, files, Or.inl rfl, hfiles, rfl⟩

section Members

variable {dest : Path}
  (hmakes : ∀ name relative p h, Zip.Member.enclosed? name = some relative →
    p = dest / relative ∨ (dest / relative).parent? = some p → I h → I { h with files := (h.files.makeDirAll h.cwd p).2 })
  (hwrites : ∀ name relative h files data, Zip.Member.enclosed? name = some relative → I h →
    h.files.write h.cwd (dest / relative) data = .ok files → I { h with files })

include hmakes hwrites

theorem keeps_extractMember (archive : Path) (m : Zip.Member) : (extractMember archive dest m).Keeps I fun _ => True := by
  unfold extractMember
  split
  · exact Action.keeps_throw _
  split
  · exact Action.keeps_pure trivial
  next relative hrelative =>
    dsimp only
    split
    · refine Action.Keeps.bind (P := fun _ => True) ?_ fun _ _ => Action.keeps_pure trivial
      exact keeps_makeDirAll _ fun h => hmakes m.name relative _ h hrelative (Or.inl rfl)
    · refine Action.Keeps.bind (P := fun _ => True) ?_ fun _ _ => Action.keeps_pure trivial
      exact keeps_writeMember (fun up h hup => hmakes m.name relative up h hrelative (Or.inr hup))
        (fun h files data => hwrites m.name relative h files data hrelative) _

theorem keeps_extractAll (archive : Path) (ms : List Zip.Member) : (extractAll archive dest ms).Keeps I fun _ => True := by
  induction ms with
  | nil => exact Action.keeps_pure trivial
  | cons m rest ih =>
    exact (keeps_extractMember hmakes hwrites archive m).bind fun _ _ => ih.bind fun _ _ => Action.keeps_pure trivial

/-- **Unpacking makes directories and writes files** of which the paths are followed from the directory below which it
unpacks, and the directories of such files. It changes nothing else. -/
theorem keeps_unzip (archive : Path) : (unzip archive dest).Keeps I fun _ => True := by
  unfold unzip
  exact (keeps_members archive).bind fun ms _ => keeps_extractAll hmakes hwrites archive ms

end Members

/-- **Packaging changes the tree only.** -/
theorem keeps_package (hfiles : ∀ h files, I h → I { h with files }) (classes dest : Path) (manifest : Manifest) :
    (package classes manifest dest).Keeps I fun _ => True := by
  intro h hI
  refine ⟨?_, fun _ _ => trivial⟩
  rcases Action.yields_or_fails (package classes manifest dest) h with ⟨_, h', hrun⟩ | ⟨_, h', hrun⟩
  · obtain ⟨_, _, files, -, -, -, -, rfl⟩ := yields_package.1 hrun
    rw [show ((package classes manifest dest).run.run h).run = _ from hrun]
    exact hfiles h files hI
  · rw [show ((package classes manifest dest).run.run h).run = _ from hrun]
    rcases of_fails_package hrun with rfl | rfl
    · exact hI
    · exact hfiles h _ hI

end Keeping

end Jar

end Recompile

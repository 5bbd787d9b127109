import Recompile.Bridge.Cache
import Recompile.Proofs.Action
import Recompile.Proofs.Removal

/-!
# Scratch directories

A bridge is built in two scratch directories, one inside the life of the other, and each is removed when the work in it
is over, whether that succeeded or not. Removing fails silently, and the work may have put something else in the place of
its directory. The main statement, `BridgeCache.tidy_withScratch`, is that nevertheless neither of the two directories is
left, whatever the work does apart from moving the machine to another place.

The directories have fixed names here. A new name is chosen for every directory in practice, so the statement starts on a
machine where these are still free.
-/

namespace Recompile

/-! ### Entries of a directory -/

/-- **A path that is the name of an entry.** -/
structure Path.IsEntry (p : Path) : Prop where
  name : ∃ n, Files.steps p = [n] ∧ Files.IsName n
  relative : p.isAbsolute = false
  noSeparator : Files.endsInSeparator p = false

namespace Path.IsEntry

open Files

variable {base p : Path} {f g : Files} {cwd : Location}

theorem spelling_ne_empty (hp : p.IsEntry) : p.spelling ≠ "" := by
  intro hempty
  obtain ⟨n, hsteps, hdot, -⟩ := hp.name
  obtain ⟨spelling⟩ := p
  subst hempty
  have hempty : steps ⟨""⟩ = ["."] := by decide
  rw [hempty] at hsteps
  exact hdot (List.cons.inj hsteps).1.symm

theorem join_ne_empty (hp : p.IsEntry) (base : Path) : (base / p).spelling ≠ "" := by
  by_cases hbase : base.spelling = ""
  · rw [Files.join_of_empty hbase]
    exact hp.spelling_ne_empty
  · exact Files.join_ne_empty hbase hp.relative

theorem steps_join (hp : p.IsEntry) (base : Path) :
    ∃ front n, steps (base / p) = front ++ [n] ∧ IsName n := by
  obtain ⟨n, hsteps, hname⟩ := hp.name
  by_cases hbase : base.spelling = ""
  · exact ⟨[], n, by rw [Files.join_of_empty hbase, hsteps, List.nil_append], hname⟩
  · exact ⟨_, n, by rw [Files.steps_join hbase hp.relative, hsteps], hname⟩

theorem withoutEndSeparators_join (hp : p.IsEntry) (base : Path) : withoutEndSeparators (base / p) = base / p := by
  apply withoutEndSeparators_of_not_endsInSeparator
  have hlast : p.spelling.toList.getLast? ≠ some '/' := by simpa [endsInSeparator] using hp.noSeparator
  have hsome : p.spelling.toList ≠ [] := by simpa using hp.spelling_ne_empty
  -- the last character of the path is the one of the entry
  have hback : ∀ front : List Char, (front ++ p.spelling.toList).getLast? ≠ some '/' := by
    intro front
    rw [List.getLast?_append]
    cases hc : p.spelling.toList.getLast? with
    | none => exact absurd (List.getLast?_eq_none_iff.1 hc) hsome
    | some c => simpa [hc] using hlast
  change endsInSeparator (base.join p) = false
  simp only [join, hp.relative, Bool.false_eq_true, if_false]
  split
  · simpa [endsInSeparator] using hback base.spelling.toList
  · simpa [endsInSeparator] using hback (base.spelling.toList ++ ['/'])

/-- A directory that was made in a free place is the one that is removed there. -/
theorem removeTree_of_makeDir (hp : p.IsEntry) (hmake : f.makeDir cwd (base / p) = .ok g) :
    ∃ k, g.removeTree cwd (base / p) = .ok k ∧ k.KeptIn f := by
  obtain ⟨⟨loc, _⟩, hat, rfl⟩ := map_eq_ok_iff.1 hmake
  obtain ⟨hplace, rfl⟩ := makeDirAt_eq_ok_iff.1 hat
  rw [hp.withoutEndSeparators_join] at hplace
  have hthere : (f.put loc .dir).place cwd false (base / p) = .ok ⟨loc, some .dir⟩ := place_put (by simp) (by simp) hplace
  refine ⟨_, removeTree_eq_ok_iff.2 ⟨loc, .dir, hthere, rfl, rfl⟩, fun other node hnode => ?_⟩
  -- what is left is neither the directory nor below it
  obtain ⟨hloc, -⟩ := (place_end hplace).resolve_left (by simp)
  rw [node?_drop _ hloc] at hnode
  split at hnode
  · simp at hnode
  next hother =>
    rw [node?_put f hloc, if_neg] at hnode
    · exact hnode
    · rintro rfl
      exact hother (List.prefix_refl _)

end Path.IsEntry

/-! ### Working in a scratch directory -/

namespace BridgeCache

open Recompile.Action

variable {σ α : Type} {name : Path} {work : Path → Action (Session σ) BridgeError α}

/-- A session of which a scratch directory is removed. -/
def unscratched (dir : Path) (s : Session σ) : Session σ :=
  { s with host := { s.host with files := withScratch.remove s.host dir } }

/-- **Working in a scratch directory** ends as the work does, with the directory removed, or the directory cannot be
made. -/
theorem ends_withScratch {s : Session σ} {Q : α → Session σ → Prop} {E : BridgeError → Session σ → Prop}
    (hrefused : ∀ e, E e s)
    (hmade : ∀ files, s.host.files.makeDir s.host.cwd (s.host.temp / name) = .ok files →
      (work (s.host.temp / name)).Ends { s with host := { s.host with files } }
        (fun a t => Q a (unscratched (s.host.temp / name) t))
        (fun e t => E e (unscratched (s.host.temp / name) t))) :
    (withScratch name work).Ends s Q E := by
  unfold withScratch
  constructor
  · intro a t hrun
    obtain ⟨s₀, _, hget, hon⟩ := yields_bind.1 hrun
    obtain ⟨rfl, rfl⟩ := yields_get.1 hget
    obtain ⟨_, _, hmake, hthen⟩ := yields_bind.1 hon
    obtain ⟨_, hchange, rfl⟩ := Session.yields_onHost.1 hmake
    obtain ⟨files, hfiles, rfl⟩ := Host.yields_change.1 hchange
    obtain ⟨result, s₁, hwork, hremove⟩ := yields_bind.1 hthen
    -- the work is over, and the directory goes whatever came of it
    have hdone := (hmade files hfiles).success
    obtain ⟨_, s₂, hmodify, hend⟩ := yields_bind.1 hremove
    obtain rfl := yields_modify.1 hmodify
    cases result with
    | error e => exact absurd hend not_yields_throw
    | ok b =>
      obtain ⟨rfl, rfl⟩ := yields_pure.1 hend
      exact hdone _ _ (yields_outcome.1 hwork)
  · intro e t hrun
    obtain ⟨s₀, _, hget, hon⟩ := (fails_bind.1 hrun).resolve_left not_fails_get
    obtain ⟨rfl, rfl⟩ := yields_get.1 hget
    rcases fails_bind.1 hon with hmake | ⟨_, _, hmake, hthen⟩
    · obtain ⟨_, hchange, rfl⟩ := Session.fails_onHost.1 hmake
      obtain ⟨_, -, -, rfl⟩ := Host.fails_change.1 hchange
      exact hrefused e
    obtain ⟨_, hchange, rfl⟩ := Session.yields_onHost.1 hmake
    obtain ⟨files, hfiles, rfl⟩ := Host.yields_change.1 hchange
    obtain ⟨result, s₁, hwork, hremove⟩ := (fails_bind.1 hthen).resolve_left not_fails_outcome
    have hdone := (hmade files hfiles).failure
    obtain ⟨_, s₂, hmodify, hend⟩ := (fails_bind.1 hremove).resolve_left not_fails_modify
    obtain rfl := yields_modify.1 hmodify
    cases result with
    | ok b => exact absurd hend not_fails_pure
    | error e' =>
      obtain ⟨rfl, rfl⟩ := fails_throw.1 hend
      exact hdone _ _ (yields_outcome.1 hwork)

/-! ### No directory is left -/

/-- What is removed adds nothing. -/
theorem keptIn_remove (h : Host) (dir : Path) : (withScratch.remove h dir).KeptIn h.files := by
  unfold withScratch.remove
  split
  next hremove => exact Files.keptIn_of_removeTree hremove
  next => exact Files.KeptIn.refl _

section Removed

variable {s : Session σ} {base p q : Path}

/-- No directory is left where one was removed. -/
theorem isDir_unscratched (hp : p.IsEntry) : (unscratched (base / p) s).host.isDir (base / p) = false := by
  obtain ⟨front, n, hsteps, hname⟩ := hp.steps_join base
  rw [← Bool.not_eq_true]
  unfold Host.isDir unscratched withScratch.remove
  dsimp only
  split
  next hremove => exact Files.not_isDir_of_removeTree hsteps hname hremove
  next hremove => exact Files.not_isDir_of_removeTree_error hremove

/-- What was no directory is none after a removal. -/
theorem isDir_unscratched_of_not (h : s.host.isDir q = false) (dir : Path) : (unscratched dir s).host.isDir q = false := by
  rw [← Bool.not_eq_true] at h ⊢
  exact mt (Files.isDir_of_keptIn (keptIn_remove s.host dir)) h

/-- Where a scratch directory has been made and removed again there is nothing that was not there before. -/
theorem isDir_unscratched_of_made {files : Files} (hp : p.IsEntry)
    (hmake : s.host.files.makeDir s.host.cwd (base / p) = .ok files) (h : s.host.isDir q = false) :
    (unscratched (base / p) { s with host := { s.host with files } }).host.isDir q = false := by
  obtain ⟨k, hremove, hkept⟩ := hp.removeTree_of_makeDir hmake
  have hfiles : withScratch.remove { s.host with files } (base / p) = k := by
    unfold withScratch.remove
    dsimp only
    rw [hremove]
  rw [← Bool.not_eq_true] at h ⊢
  unfold unscratched
  dsimp only
  rw [hfiles]
  exact mt (Files.isDir_of_keptIn hkept) h

end Removed

/-- The directory in which the sources of a bridge are unpacked. -/
def sourcesName : Path := "kiln-compiler-bridge-sources"

/-- The directory in which the class files of a bridge are written. -/
def classesName : Path := "kiln-compiler-bridge-classes"

theorem isEntry_sourcesName : sourcesName.IsEntry where
  name := ⟨"kiln-compiler-bridge-sources", by decide, by decide, by decide, by decide⟩
  relative := by decide
  noSeparator := by decide

theorem isEntry_classesName : classesName.IsEntry where
  name := ⟨"kiln-compiler-bridge-classes", by decide, by decide, by decide, by decide⟩
  relative := by decide
  noSeparator := by decide

/-- **The place of a machine:** where its scratch directories are made, and from where relative paths are followed. -/
structure At (temp : Path) (cwd : Location) (h : Host) : Prop where
  temp_eq : h.temp = temp
  cwd_eq : h.cwd = cwd

/-- **A machine on which no scratch directory is left.** -/
structure Tidy (temp : Path) (cwd : Location) (h : Host) : Prop extends At temp cwd h where
  sources : h.isDir (temp / sourcesName) = false
  classes : h.isDir (temp / classesName) = false

/-- **Two scratch directories are both gone** when the work in them is over, if none of them was there before. -/
theorem tidy_withScratch {temp : Path} {cwd : Location} {work : Path → Path → Action (Session σ) BridgeError α}
    (hwork : ∀ sources classes, (work sources classes).Keeps (fun s => At temp cwd s.host) fun _ => True)
    {s : Session σ} (hs : Tidy temp cwd s.host) :
    (withScratch sourcesName fun sources => withScratch classesName (work sources)).Ends s
      (fun _ t => Tidy temp cwd t.host) fun _ t => Tidy temp cwd t.host := by
  obtain ⟨⟨rfl, rfl⟩, hsources, hclasses⟩ := hs
  refine ends_withScratch (fun _ => ⟨⟨rfl, rfl⟩, hsources, hclasses⟩) fun files hfirst => ?_
  -- if the second directory cannot be made, the first one is gone as if it had never been
  have hrefused := isDir_unscratched_of_made isEntry_sourcesName hfirst hclasses
  refine ends_withScratch (fun _ => ⟨⟨rfl, rfl⟩, isDir_unscratched isEntry_sourcesName, hrefused⟩) fun files' _ => ?_
  have hafter : ∀ t : Session σ, At s.host.temp s.host.cwd t.host →
      Tidy s.host.temp s.host.cwd
        (unscratched (s.host.temp / sourcesName) (unscratched (s.host.temp / classesName) t)).host := by
    rintro t ⟨htemp, hcwd⟩
    -- the second directory is removed first, and does not come back
    exact ⟨⟨htemp, hcwd⟩, isDir_unscratched isEntry_sourcesName,
      isDir_unscratched_of_not (isDir_unscratched isEntry_classesName) _⟩
  have hstart : At s.host.temp s.host.cwd { s.host with files := files' } := ⟨rfl, rfl⟩
  have hends := (hwork (s.host.temp / sourcesName) (s.host.temp / classesName)).ends (s := ⟨_, s.tool⟩) hstart
  exact hends.mono (fun _ t ht => hafter t ht.1) fun _ t ht => hafter t ht

end BridgeCache

end Recompile

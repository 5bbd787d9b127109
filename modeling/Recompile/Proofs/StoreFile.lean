import Recompile.Proofs.Compile

/-!
# Stores on disk

A store is written by renaming a finished file over its path and read by following the path. `Store.commit_load_commit`
puts the two together with the written form of the contents: what was committed is loaded as it was, down to the spelling
of every path, and committing what was loaded writes the same bytes again.

A commit can succeed and leave a path that cannot be followed. The path may run through a symbolic link at its own end,
and the file that takes the place of the link is then in its way. Loading fails in that case; it never yields anything but
what was committed.
-/

namespace Recompile

namespace Store

variable {path : Path} {c : Contents} {h h' : Host}

/-- A store that can be loaded after it was committed is a file. -/
theorem isFile_of_commit {u : Unit} (hrun : (commit path c).Yields h u h') {found : Option Contents}
    (hload : loaded path h' = .ok found) : h'.isFile path = true := by
  rcases read_of_commit hrun with hread | hrefused
  · obtain ⟨loc, executable, hplace⟩ := Files.read_eq_ok_iff.1 hread
    exact Files.isFile_iff.2 ⟨loc, _, executable, hplace⟩
  · rcases read_of_loaded hload with ⟨_, hread⟩ | ⟨fault, hfault, hkind⟩
    · simp [hrefused] at hread
    · obtain rfl := Except.error.inj (hrefused.symm.trans hfault)
      simp [Fault.ofKind] at hkind

/-- **What was committed is loaded as it was, and committed again it gives the same bytes.** The lengths in a store are
numbers of a machine word, so the bytes of a store that exists are fewer than there are such numbers. -/
theorem commit_load_commit (small : (encode c).length < Codec.maxLength) :
    decode (encode c) = .ok c ∧
      ∀ path h h₁ h₂ found, (commit path c).Yields h () h₁ → (load path).Yields h₁ found h₂ →
        ∃ c' h₃, found = some c' ∧ c' = c ∧ (commit path c').Yields h₂ () h₃ ∧
          h₃.read path = h₁.read path ∧ h₁.read path = .ok (encode c) := by
  refine ⟨decode_encode small, fun path h h₁ h₂ found first second => ?_⟩
  obtain ⟨hload, log, rfl⟩ := (reads_load path h₁).eq_of_yields second
  obtain ⟨hname, loc, hplace⟩ := exists_place_of_commit first (isFile_of_commit first hload)
  have hread : h₁.read path = .ok (encode c) := Files.read_eq_ok_iff.2 ⟨loc, false, hplace true⟩
  have hfound : found = some c := Except.ok.inj (hload.symm.trans (loaded_of_read hread small))
  -- the file takes its own place once more
  generalize hfiles : h₁.files.put loc (.file (encode c) false) = files
  have hnode := (Files.place_end (hplace true)).resolve_left (by simp)
  have hkept : h₁.files.KeptIn files := hfiles ▸ Files.keptIn_put_same hnode.1 hnode.2.symm
  have hcommit : (commit path c).Yields { h₁ with log } ()
      ({ h₁ with files, log }.logged (.debug "committed analysis" [("store", path.spelling)])) := by
    refine Action.yields_bind.2 ⟨(), _, ?_, Host.yields_report.2 rfl⟩
    rw [← hfiles]
    exact Host.yields_writeAtomically_again hname hplace
  refine ⟨c, _, hfound, rfl, hcommit, ?_, hread⟩
  rw [hread]
  exact Files.read_of_keptIn hkept hread

/-- Contents with paths that are not spelled as they compare, and with text beyond ASCII. -/
private def spelled : Contents where
  analysis := ((∅ : Analysis).record "src//A.scala"
    { digest := ⟨1, 2⟩, sourceDeps := SortedSet.ofList ["./src/B.scala"],
      binaryDeps := SortedMap.ofList [("lib.Größe", ⟨3, 4⟩)] }
    [("a.A", ⟨"src/./A.scala", "a/A.class", ⟨5, 6⟩⟩)]).record "./src/B.scala" { digest := ⟨7, 8⟩ } []
  setup := ⟨"out/", "2.13.12", ["-Xlint", ""], ["-g"], .javaThenScala⟩

/-- The contents are committed in a directory that is made for them, loaded and committed again. -/
theorem commit_load_commit_spelled :
    ∃ h₁ h₂ found, (commit "analysis/main" spelled).Yields {} () h₁ ∧ (load "analysis/main").Yields h₁ found h₂ ∧
      ∃ c' h₃, found = some c' ∧ c' = spelled ∧ (commit "analysis/main" c').Yields h₂ () h₃ ∧
        h₃.read "analysis/main" = h₁.read "analysis/main" ∧ h₁.read "analysis/main" = .ok (encode spelled) := by
  have hfacts : ((commit "analysis/main" spelled).run.run {}).run.1.toBool = true ∧
      ((commit "analysis/main" spelled).run.run {}).run.2.isFile "analysis/main" = true ∧
      (encode spelled).length < Codec.maxLength := by
    decide +kernel
  obtain ⟨hcommits, hfile, small⟩ := hfacts
  obtain ⟨_, h₁, hcommit⟩ := Action.exists_yields hcommits
  have hsecond := congrArg Prod.snd hcommit
  dsimp only at hsecond
  rw [hsecond] at hfile
  obtain ⟨-, loc, hplace⟩ := exists_place_of_commit hcommit hfile
  -- what the file holds is what was encoded, so the load gives it back
  have hloaded := loaded_of_read (Files.read_eq_ok_iff.2 ⟨loc, false, hplace true⟩) small
  have hreads := reads_load "analysis/main" h₁
  rw [hloaded] at hreads
  obtain ⟨log, hload⟩ := hreads.yields
  exact ⟨h₁, _, _, hcommit, hload, (commit_load_commit small).2 _ _ _ _ _ hcommit hload⟩

end Store

end Recompile

import Recompile.Proofs.Opening
import Recompile.Proofs.RoundTrip
import Recompile.Proofs.Suppliers

/-!
# Class names and entries

A toolchain is indexed by the entries of its archives, each of which gives the name of a class. A classpath is probed the
other way round: for the name of a class an entry is looked for. Each direction puts one separator in place of the other
wherever it occurs, so that a name with a `/` in it and an entry with a `.` in its stem come back changed. Apart from these
there are only the names that no entry gives, which are the empty one and those that end in a dot
(`ClassName.inverse_where_possible`).

For an archive of which classes are loaded this means: a class is indexed for every entry with a stem, and the probe for the
class finds this entry unless its stem has a dot in it. Then the probe asks for another entry, which may be there as well.
-/

namespace Recompile

namespace ClassName

/-! ### Replacing separators -/

variable {a b : Char}

theorem replace_eq_self_iff (h : a ≠ b) {cs : List Char} : replace a b cs = cs ↔ a ∉ cs := by
  induction cs with
  | nil => simp [replace]
  | cons c rest ih =>
    have hcons : replace a b (c :: rest) = (if c = a then b else c) :: replace a b rest := rfl
    rw [hcons, List.cons.injEq, ih, List.mem_cons, not_or]
    refine and_congr_left fun _ => ?_
    split
    next hc => simp [hc, h.symm]
    next hc => simp [Ne.symm hc]

/-- Replaced and put back, both characters are the one that is put back. -/
theorem replace_replace (a b : Char) (cs : List Char) : replace b a (replace a b cs) = replace b a cs := by
  rw [replace, replace, replace, List.map_map]
  refine List.map_congr_left fun c _ => ?_
  rw [Function.comp_apply]
  by_cases hc : c = a
  · subst hc
    simp
  · rw [if_neg hc]

theorem getLast?_replace (a b : Char) (cs : List Char) :
    (replace a b cs).getLast? = some b ↔ cs.getLast? = some a ∨ cs.getLast? = some b := by
  rw [replace, List.getLast?_map]
  cases cs.getLast? with
  | none => simp
  | some c =>
    by_cases hc : c = a
    · simp [hc]
    · simp [hc]

/-! ### Stems -/

/-- **The entries that define a class** are those with a stem, which is not to end in a separator. -/
theorem ofEntryChars?_eq_some_iff {entry name : List Char} :
    ofEntryChars? entry = some name ↔
      ∃ stem, entry = stem ++ suffix ∧ stem ≠ [] ∧ stem.getLast? ≠ some '/' ∧ replace '/' '.' stem = name := by
  unfold ofEntryChars?
  by_cases hsuffix : suffix.isSuffixOf entry = true
  · obtain ⟨stem, rfl⟩ := List.isSuffixOf_iff_suffix.1 hsuffix
    have hstem : (stem ++ suffix).take ((stem ++ suffix).length - suffix.length) = stem := by simp
    rw [if_pos hsuffix, hstem]
    dsimp only
    constructor
    · intro h
      split at h
      next => cases h
      next hgood =>
        rw [not_or] at hgood
        exact ⟨stem, rfl, hgood.1, hgood.2, Option.some.inj h⟩
    · rintro ⟨other, heq, hne, hlast, rfl⟩
      obtain rfl := List.append_cancel_right heq
      exact if_neg (not_or.2 ⟨hne, hlast⟩)
  · rw [if_neg hsuffix]
    constructor
    · intro h
      cases h
    · rintro ⟨stem, rfl, -⟩
      exact absurd (List.isSuffixOf_iff_suffix.2 (List.suffix_append stem suffix)) hsuffix

theorem ofEntryChars?_fileChars {name : List Char} :
    ofEntryChars? (fileChars name) = some name ↔ name ≠ [] ∧ '/' ∉ name ∧ name.getLast? ≠ some '.' := by
  rw [ofEntryChars?_eq_some_iff]
  have hback : replace '/' '.' name = name ↔ '/' ∉ name := replace_eq_self_iff (by decide)
  constructor
  · rintro ⟨stem, hstem, hne, hlast, hname⟩
    -- the stem is the name with its dots replaced, so that replacing them back loses the separators it had
    obtain rfl := List.append_cancel_right hstem
    rw [replace_replace, hback] at hname
    rw [Ne, getLast?_replace, not_or] at hlast
    exact ⟨fun h => hne (by rw [h]; rfl), hname, hlast.1⟩
  · rintro ⟨hne, hsep, hlast⟩
    refine ⟨replace '.' '/' name, rfl, ?_, ?_, ?_⟩
    · simpa [replace] using hne
    · rw [Ne, getLast?_replace, not_or]
      exact ⟨hlast, fun h => hsep (List.mem_of_getLast? h)⟩
    · rw [replace_replace, hback]
      exact hsep

/-- The file of the class that an entry defines. -/
theorem fileChars_of_stem (stem : List Char) :
    fileChars (replace '/' '.' stem) = stem ++ suffix ↔ '.' ∉ stem := by
  rw [fileChars, replace_replace, List.append_cancel_right_eq]
  exact replace_eq_self_iff (by decide)

theorem ofEntry?_file (n : String) :
    ofEntry? (file n) = some n ↔ n ≠ "" ∧ '/' ∉ n.toList ∧ n.toList.getLast? ≠ some '.' := by
  have hname : ofEntry? (file n) = some n ↔ ofEntryChars? (fileChars n.toList) = some n.toList := by
    unfold ofEntry? file
    rw [String.toList_ofList]
    constructor
    · intro h
      obtain ⟨cs, hcs, rfl⟩ := Option.map_eq_some_iff.1 h
      rw [hcs, String.toList_ofList]
    · intro h
      rw [h, Option.map_some, String.ofList_toList]
  rw [hname, ofEntryChars?_fileChars]
  simp

/-- **The file of the class that an entry defines** is the entry unless its stem has a dot in it. -/
theorem file_of_ofEntry? {e n : String} (h : ofEntry? e = some n) :
    ∃ stem, e = stem ++ ".class" ∧ (file n = e ↔ '.' ∉ stem.toList) := by
  obtain ⟨cs, hcs, rfl⟩ := Option.map_eq_some_iff.1 h
  obtain ⟨stem, hstem, -, -, rfl⟩ := ofEntryChars?_eq_some_iff.1 hcs
  have hentry : e = String.ofList (stem ++ suffix) := by rw [← hstem, String.ofList_toList]
  refine ⟨String.ofList stem, ?_, ?_⟩
  · rw [hentry, String.ofList_append]
    rfl
  · rw [hentry, file, String.toList_ofList, String.ofList_inj, String.toList_ofList]
    exact fileChars_of_stem stem

end ClassName

/-! ### The index of a toolchain -/

namespace LoadingContext

/-- **An archive of a toolchain that was read has been opened,** and the classes of its entries are indexed. -/
theorem exists_openAt_of_build {h : Host} {identity : ToolchainIdentity} {c : LoadingContext}
    (hbuild : build h identity = .ok c) {p : Path} (hp : p ∈ identity.artifacts) (hfile : h.isDir p = false) :
    ∃ ms, Zip.openAt h p = .ok ms ∧ ∀ m ∈ ms, ∀ n, ClassName.ofEntry? m.name = some n → c.defines n = true := by
  obtain ⟨lists, hlists, rfl⟩ := build_eq_ok_iff.1 hbuild
  obtain ⟨names, hmem, hnames⟩ := List.mem_map.1 (hlists ▸ List.mem_map_of_mem hp)
  have hread : archiveClasses h p = .ok names := by rw [hnames, artifactClasses, if_neg (by simp [hfile])]
  unfold archiveClasses at hread
  split at hread
  next ms hopen =>
    obtain rfl := Except.ok.inj hread
    refine ⟨ms, hopen, fun m hm n hn => ?_⟩
    exact (contains_suppliers 0 ∅ lists n).2 (Or.inl ⟨_, hmem, List.mem_filterMap.2 ⟨m, hm, hn⟩⟩)
  next => cases hread
  next => cases hread

end LoadingContext

/-! ### Entries that are probed -/

/-- The class files of an archive that can be opened are those of its members. -/
theorem ClassFiles.yields_ofEntry {ε : Type} {h : Host} {p : Path} {ms : List Zip.Member}
    (hkind : EntryKind.ofPath h p = .archive) (hopen : Zip.openAt h p = .ok ms) :
    (ClassFiles.ofEntry p : Action Host ε ClassFiles).Yields h
      (.archive p (SortedSet.ofList (ms.map Zip.Member.name))) h := by
  have hopen? : Zip.openAt? h p = some ms := by rw [Zip.openAt?, hopen]; rfl
  unfold ClassFiles.ofEntry
  refine Action.yields_bind.2 ⟨h, h, Action.yields_get.2 ⟨rfl, rfl⟩, ?_⟩
  rw [hkind]
  dsimp only
  rw [hopen?]
  exact Action.yields_pure.2 ⟨rfl, rfl⟩

theorem ClassFiles.defines_archive {h : Host} {p : Path} {ms : List Zip.Member} {n : String} :
    defines h n (.archive p (SortedSet.ofList (ms.map Zip.Member.name))) = true ↔ ∃ m ∈ ms, m.name = ClassName.file n := by
  rw [defines, SortedSet.contains_ofList]
  constructor
  · rintro ⟨name, hname, heq⟩
    obtain ⟨m, hm, rfl⟩ := List.mem_map.1 hname
    exact ⟨m, hm, (Std.LawfulEqOrd.compare_eq_iff_eq.1 heq).symm⟩
  · rintro ⟨m, hm, hname⟩
    exact ⟨m.name, List.mem_map_of_mem hm, Std.LawfulEqOrd.compare_eq_iff_eq.2 hname.symm⟩

namespace ClassName

/-- **Class names and class files are inverse exactly where they can be.** The name of a class is read from its file unless it
is empty, has a `/` in it or ends in a dot, and an entry is the file of the class that is read from it unless its stem has a
dot in it. So for the entries of an archive of a toolchain: the classes of all of them are indexed, and the probe for a class
finds its entry exactly if the stem has no dot, and some entry exactly if the stem has none or there is another entry of
the name that is asked for. Where the probe finds an entry for the name of a class that can be read from an entry, the class
is indexed. -/
theorem inverse_where_possible {ε : Type} :
    (∀ n, ofEntry? (file n) = some n ↔ n ≠ "" ∧ '/' ∉ n.toList ∧ n.toList.getLast? ≠ some '.') ∧
      (∀ e n, ofEntry? e = some n → ∃ stem, e = stem ++ ".class" ∧ (file n = e ↔ '.' ∉ stem.toList)) ∧
      ∀ h identity c p, LoadingContext.build h identity = .ok c → p ∈ identity.artifacts →
        EntryKind.ofPath h p = .archive →
        ∃ ms files, Zip.openAt h p = .ok ms ∧ (ClassFiles.ofEntry p : Action Host ε ClassFiles).Yields h files h ∧
          (∀ m ∈ ms, ∀ n, ofEntry? m.name = some n →
            c.defines n = true ∧ ∃ stem, m.name = stem ++ ".class" ∧ (file n = m.name ↔ '.' ∉ stem.toList) ∧
              (files.defines h n = true ↔ '.' ∉ stem.toList ∨ ∃ m' ∈ ms, m'.name = file n ∧ m'.name ≠ m.name)) ∧
          ∀ n, ofEntry? (file n) = some n → files.defines h n = true → c.defines n = true := by
  refine ⟨ofEntry?_file, fun e n => file_of_ofEntry?, ?_⟩
  intro h identity c p hbuild hp hkind
  have hfile : h.isDir p = false := by
    unfold EntryKind.ofPath at hkind
    split at hkind
    next => cases hkind
    next hdir => simpa using hdir
  obtain ⟨ms, hopen, hindexed⟩ := LoadingContext.exists_openAt_of_build hbuild hp hfile
  refine ⟨ms, _, hopen, ClassFiles.yields_ofEntry hkind hopen, fun m hm n hn => ?_, fun n hn hprobe => ?_⟩
  · obtain ⟨stem, hstem, hsame⟩ := file_of_ofEntry? hn
    refine ⟨hindexed m hm n hn, stem, hstem, hsame, ?_⟩
    -- the probe finds the entry itself, or another one of the name that it asks for
    rw [ClassFiles.defines_archive, ← hsame]
    constructor
    · rintro ⟨m', hm', hname⟩
      by_cases hself : m'.name = m.name
      · exact Or.inl (hname.symm.trans hself)
      · exact Or.inr ⟨m', hm', hname, hself⟩
    · rintro (hself | ⟨m', hm', hname, -⟩)
      · exact ⟨m, hm, hself.symm⟩
      · exact ⟨m', hm', hname⟩
  · obtain ⟨m, hm, hname⟩ := ClassFiles.defines_archive.1 hprobe
    exact hindexed m hm n (hname ▸ hn)

/-! ### Two entries -/

private def twoEntries : List Zip.Item := [.file "a.b/C.class" [], .file "a/D.class" []]

/-- The bytes of the archive. -/
private def twoBytes : Bytes :=
  [80, 75, 3, 4, 20, 0, 0, 0, 8, 0, 0, 0, 33, 0, 0, 0, 0, 0, 2, 0, 0, 0, 0, 0, 0, 0, 11, 0, 0, 0, 97, 46, 98, 47, 67, 46,
    99, 108, 97, 115, 115, 3, 0, 80, 75, 3, 4, 20, 0, 0, 0, 8, 0, 0, 0, 33, 0, 0, 0, 0, 0, 2, 0, 0, 0, 0, 0, 0, 0, 9, 0,
    0, 0, 97, 47, 68, 46, 99, 108, 97, 115, 115, 3, 0, 80, 75, 1, 2, 20, 3, 20, 0, 0, 0, 8, 0, 0, 0, 33, 0, 0, 0, 0, 0, 2,
    0, 0, 0, 0, 0, 0, 0, 11, 0, 0, 0, 0, 0, 0, 0, 0, 0, 0, 0, 164, 129, 0, 0, 0, 0, 97, 46, 98, 47, 67, 46, 99, 108, 97,
    115, 115, 80, 75, 1, 2, 20, 3, 20, 0, 0, 0, 8, 0, 0, 0, 33, 0, 0, 0, 0, 0, 2, 0, 0, 0, 0, 0, 0, 0, 9, 0, 0, 0, 0, 0,
    0, 0, 0, 0, 0, 0, 164, 129, 43, 0, 0, 0, 97, 47, 68, 46, 99, 108, 97, 115, 115, 80, 75, 5, 6, 0, 0, 0, 0, 2, 0, 2, 0,
    112, 0, 0, 0, 84, 0, 0, 0, 0, 0]

private theorem encode_twoEntries : Zip.encode twoEntries = twoBytes := by
  have hpacked : ∀ name, (Zip.Item.file name []).packed = [3, 0] := fun _ => Deflate.deflate_nil
  unfold Zip.encode twoEntries
  simp only [Zip.records, hpacked]
  decide +kernel

private def withTwoEntries : Host where
  files := Files.put ∅ ["t.jar"] (.file (Zip.encode twoEntries) false)

private theorem exists_members_twoEntries :
    ∃ m₁ m₂, Zip.openAt withTwoEntries "t.jar" = .ok [m₁, m₂] ∧ m₁.name = "a.b/C.class" ∧ m₂.name = "a/D.class" := by
  have hlength : twoBytes.length = 196 + 22 := by decide +kernel
  have hnames : (Zip.members? twoBytes).map (List.map Zip.Member.name) = some ["a.b/C.class", "a/D.class"] :=
    Zip.map_members?_of_end_record hlength (by decide +kernel) (by decide +kernel) (by decide +kernel)
  rw [← encode_twoEntries] at hnames
  obtain ⟨ms, hms, hsame⟩ := Option.map_eq_some_iff.1 hnames
  have hread : withTwoEntries.read "t.jar" = .ok (Zip.encode twoEntries) := rfl
  obtain ⟨m₁, rest, rfl, hname₁, hrest⟩ := List.map_eq_cons_iff.1 hsame
  obtain ⟨m₂, rest, rfl, hname₂, hnil⟩ := List.map_eq_cons_iff.1 hrest
  obtain rfl := List.map_eq_nil_iff.1 hnil
  exact ⟨m₁, m₂, Jar.openAt_of_read hread hms, hname₁, hname₂⟩

/-- Both classes are indexed. The probe for the class of the entry with a dot in its stem asks for another entry, and that one
is not there. -/
theorem inverse_of_two_entries :
    ∃ c files, LoadingContext.build withTwoEntries ⟨"1", ["t.jar"]⟩ = .ok c ∧
      EntryKind.ofPath withTwoEntries "t.jar" = .archive ∧
      (ClassFiles.ofEntry "t.jar" : Action Host Fault ClassFiles).Yields withTwoEntries files withTwoEntries ∧
      c.defines "a.b.C" = true ∧ files.defines withTwoEntries "a.b.C" = false ∧
      c.defines "a.D" = true ∧ files.defines withTwoEntries "a.D" = true := by
  obtain ⟨m₁, m₂, hopen, hname₁, hname₂⟩ := exists_members_twoEntries
  -- the archive is opened once, and both readings of it are about its two members
  have hkind : EntryKind.ofPath withTwoEntries "t.jar" = .archive := by decide +kernel
  have hclasses : LoadingContext.artifactClasses withTwoEntries "t.jar" = .ok ["a.b.C", "a.D"] := by
    have hfile : withTwoEntries.isDir "t.jar" = false := by decide +kernel
    have hnames : [m₁, m₂].filterMap (fun m => ofEntry? m.name) = ["a.b.C", "a.D"] := by
      simp only [List.filterMap_cons, hname₁, hname₂]
      decide
    rw [LoadingContext.artifactClasses, hfile, if_neg (by decide), LoadingContext.archiveClasses, hopen]
    dsimp only
    rw [hnames]
  have hbuild : ∃ c, LoadingContext.build withTwoEntries ⟨"1", ["t.jar"]⟩ = .ok c := by
    have hthere : LoadingContext.missing? withTwoEntries ⟨"1", ["t.jar"]⟩ = none := by decide +kernel
    refine ⟨⟨⟨"1", ["t.jar"]⟩, LoadingContext.suppliers 0 ∅ [["a.b.C", "a.D"]]⟩, ?_⟩
    rw [LoadingContext.build, hthere]
    dsimp only
    rw [List.mapM_cons, hclasses]
    rfl
  obtain ⟨c, hc⟩ := hbuild
  obtain ⟨ms, files, hms, hfiles, hentries, -⟩ :=
    (@inverse_where_possible Fault).2.2 withTwoEntries ⟨"1", ["t.jar"]⟩ c "t.jar" hc (by simp) hkind
  obtain rfl : [m₁, m₂] = ms := Except.ok.inj (hopen.symm.trans hms)
  have hfirst : ofEntry? m₁.name = some "a.b.C" := by rw [hname₁]; decide
  have hsecond : ofEntry? m₂.name = some "a.D" := by rw [hname₂]; decide
  obtain ⟨hindexed₁, stem₁, hstem₁, -, hprobe₁⟩ := hentries m₁ (by simp) _ hfirst
  obtain ⟨hindexed₂, stem₂, hstem₂, -, hprobe₂⟩ := hentries m₂ (by simp) _ hsecond
  -- the stem of the first is not the spelling its class would have, that of the second is
  obtain rfl : "a.b/C" = stem₁ := (String.append_left_inj ".class").1 (hname₁.symm.trans hstem₁)
  obtain rfl : "a/D" = stem₂ := (String.append_left_inj ".class").1 (hname₂.symm.trans hstem₂)
  refine ⟨c, files, hc, hkind, hfiles, hindexed₁, ?_, hindexed₂, ?_⟩
  · rw [← Bool.not_eq_true, hprobe₁]
    rintro (hdot | ⟨m', hm', hname, hother⟩)
    · exact absurd hdot (by decide)
    · rcases List.mem_pair.1 hm' with rfl | rfl
      · exact hother rfl
      · rw [hname₂] at hname
        exact absurd hname (by decide)
  · exact hprobe₂.2 (Or.inl (by decide))

end ClassName

end Recompile

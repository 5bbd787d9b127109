import Recompile.Proofs.Bridges
import Recompile.Proofs.EntryNames

/-!
# The names of the jars in a cache

The name of a cached jar is made of the six ingredients of its key (`BridgeKey.display`), and the marks between them are
characters that occur in the ingredients, too. So the name alone does not tell where an ingredient ends: of
`org.scala-sbt-compiler-bridge_2.13` any dash may be the one between the group and the artifact, and keys that differ in
nothing but that place have one jar (`BridgeCache.shared_jar`).

A name can be read in two ways. If it is known of every ingredient how many dashes and underscores it has, the place of
every mark is known, and the ingredients follow (`BridgeKey.Aligned.eq`). All dashes together can be counted in the name,
so that one ingredient may stay unknown; this is why a change of one ingredient always shows
(`BridgeKey.fileName_ne_of_change`). If no underscore is in the versions and the timestamp, the name can be read from its
end, up to the group and the artifact, which stay together (`BridgeKey.WellVersioned.eq`).

`BridgeKey.fileName_tells` has both. A name without a separator is one step below the directory of the cache, where
different names are different paths (`Path.components_join_name`); so no call is answered with the jar of another name.
-/

namespace Recompile

/-- Where two lists were put together with a mark between them can be seen, if it is known how many marks are in front. -/
theorem append_mark_inj {α : Type} [DecidableEq α] {mark : α} {u u' x x' : List α} (h : u ++ mark :: x = u' ++ mark :: x')
    (hcount : u.count mark = u'.count mark) : u = u' ∧ x = x' := by
  induction u generalizing u' with
  | nil =>
    cases u' with
    | nil => exact ⟨rfl, (List.cons.inj h).2⟩
    | cons c u' =>
      -- the first character is the mark, and would be one more in front
      obtain ⟨rfl, -⟩ := List.cons.inj h
      simp at hcount
  | cons c u ih =>
    cases u' with
    | nil =>
      obtain ⟨rfl, -⟩ := List.cons.inj h
      simp at hcount
    | cons c' u' =>
      obtain ⟨rfl, hrest⟩ := List.cons.inj h
      obtain ⟨rfl, rfl⟩ := ih hrest (by simpa [List.count_cons] using hcount)
      exact ⟨rfl, rfl⟩

/-- The same without a mark behind the one between them. -/
theorem append_mark_inj_of_last {α : Type} [DecidableEq α] {mark : α} {u u' x x' : List α}
    (h : u ++ mark :: x = u' ++ mark :: x') (hx : mark ∉ x) (hx' : mark ∉ x') : u = u' ∧ x = x' := by
  refine append_mark_inj h ?_
  -- the marks in front are all but one
  have hcount := congrArg (List.count mark) h
  simpa [List.count_append, List.count_eq_zero_of_not_mem hx, List.count_eq_zero_of_not_mem hx'] using hcount

namespace BridgeKey

inductive Part
  | group
  | artifact
  | version
  | compiler
  | classVersion
  | timestamp
deriving DecidableEq

/-- The ingredients of a key, by name. -/
def part (k : BridgeKey) : Part → String
  | .group => k.group
  | .artifact => k.artifact
  | .version => k.version
  | .compiler => k.compiler
  | .classVersion => k.classVersion
  | .timestamp => k.timestamp

/-- How often a character occurs in an ingredient. -/
def occurs (k : BridgeKey) (mark : Char) (i : Part) : Nat := (k.part i).toList.count mark

/-- **Keys with marks in the same places.** All ingredients but one have as many dashes in the one key as in the other,
and all ingredients but one have as many underscores. -/
def Aligned (k k' : BridgeKey) : Prop :=
  ∀ mark ∈ ['-', '_'], ∃ i, ∀ j, j ≠ i → k.occurs mark j = k'.occurs mark j

/-- **A key of releases.** The versions are written without an underscore, and so is the timestamp; the version of the
class files is written without a dash. -/
structure WellVersioned (k : BridgeKey) : Prop where
  version : '_' ∉ k.version.toList
  compiler : '_' ∉ k.compiler.toList
  classVersion : '_' ∉ k.classVersion.toList ∧ '-' ∉ k.classVersion.toList
  timestamp : '_' ∉ k.timestamp.toList

/-- The group and the artifact, as they are at the front of the name. -/
def published (k : BridgeKey) : String := k.group ++ "-" ++ k.artifact

variable {k k' : BridgeKey}

/-! ### Reading a name from its front -/

theorem toList_fileName (k : BridgeKey) :
    k.fileName.toList =
      k.group.toList ++ '-' :: (k.artifact.toList ++ '-' :: (k.version.toList ++ '-' :: ("bin".toList ++ '_' ::
        (k.compiler.toList ++ '_' :: '_' :: (k.classVersion.toList ++ '-' :: (k.version.toList ++ '_' ::
          (k.timestamp.toList ++ ".jar".toList))))))) := by
  simp [fileName, display]

/-- A character is in the name as often as in the ingredients, the version being there twice, and in what stands between
them. -/
theorem count_fileName (mark : Char) : ∃ between, ∀ k : BridgeKey, k.fileName.toList.count mark =
    k.occurs mark .group + k.occurs mark .artifact + 2 * k.occurs mark .version + k.occurs mark .compiler +
      k.occurs mark .classVersion + k.occurs mark .timestamp + between := by
  -- the seven pieces of text in `display` and `fileName`
  refine ⟨"-".toList.count mark + "-".toList.count mark + "-bin_".toList.count mark + "__".toList.count mark +
    "-".toList.count mark + "_".toList.count mark + ".jar".toList.count mark, fun k => ?_⟩
  simp only [fileName, display, String.toList_append, List.count_append, occurs, part]
  omega

/-- In aligned keys with one name every ingredient has as many marks as in the other key. -/
theorem Aligned.occurs_eq (h : k.Aligned k') (hname : k.fileName = k'.fileName) {mark : Char} (hmark : mark ∈ ['-', '_'])
    (i : Part) : k.occurs mark i = k'.occurs mark i := by
  obtain ⟨other, hothers⟩ := h mark hmark
  by_cases hi : i = other
  · -- what the other ingredients do not have is in this one
    subst hi
    obtain ⟨between, hcount⟩ := count_fileName mark
    have htotal := hcount k
    rw [hname, hcount k'] at htotal
    cases i <;> simp only [hothers .group, hothers .artifact, hothers .version, hothers .compiler, hothers .classVersion,
      hothers .timestamp, ne_eq, reduceCtorEq, not_false_eq_true] at htotal <;> omega
  · exact hothers i hi

/-- **Aligned keys with one name are the same.** -/
theorem Aligned.eq (h : k.Aligned k') (hname : k.fileName = k'.fileName) : k = k' := by
  have hdashes : ∀ i, k.occurs '-' i = k'.occurs '-' i := h.occurs_eq hname (by simp)
  have hunderscores : ∀ i, k.occurs '_' i = k'.occurs '_' i := h.occurs_eq hname (by simp)
  have hlist := congrArg String.toList hname
  rw [toList_fileName, toList_fileName] at hlist
  obtain ⟨hgroup, hlist⟩ := append_mark_inj hlist (hdashes .group)
  obtain ⟨hartifact, hlist⟩ := append_mark_inj hlist (hdashes .artifact)
  obtain ⟨hversion, hlist⟩ := append_mark_inj hlist (hdashes .version)
  -- behind the version there is `bin`
  obtain ⟨-, hlist⟩ := append_mark_inj hlist rfl
  obtain ⟨hcompiler, hlist⟩ := append_mark_inj hlist (hunderscores .compiler)
  obtain ⟨hclass, hlist⟩ := append_mark_inj (List.cons.inj hlist).2 (hdashes .classVersion)
  -- the version is there for the second time
  rw [hversion] at hlist
  have htime := List.append_cancel_right (List.cons.inj (List.append_cancel_left hlist)).2
  cases k
  cases k'
  simp only [mk.injEq]
  exact ⟨String.toList_injective hgroup, String.toList_injective hartifact, String.toList_injective hversion,
    String.toList_injective hcompiler, String.toList_injective hclass, String.toList_injective htime⟩

/-- **Every ingredient counts:** if one of them changes and the others stay, so does the name. -/
theorem fileName_ne_of_change (i : Part) (hothers : ∀ j, j ≠ i → k.part j = k'.part j) (hi : k.part i ≠ k'.part i) :
    k.fileName ≠ k'.fileName := by
  have haligned : k.Aligned k' := by
    refine fun mark _ => ⟨i, fun j hj => ?_⟩
    rw [occurs, occurs, hothers j hj]
  intro hname
  exact hi (by rw [haligned.eq hname])

/-! ### Reading a name from its end -/

theorem fileName_eq_published (k : BridgeKey) :
    k.fileName = k.published ++ "-" ++ k.version ++ "-bin_" ++ k.compiler ++ "__" ++ k.classVersion ++ "-" ++ k.version ++
      "_" ++ k.timestamp ++ ".jar" := rfl

theorem toList_fileName_published (k : BridgeKey) :
    k.fileName.toList =
      ((k.published.toList ++ ('-' :: k.version.toList ++ "-bin".toList)) ++ '_' :: k.compiler.toList ++ ['_']) ++ '_' ::
        (k.classVersion.toList ++ '-' :: k.version.toList) ++ '_' :: (k.timestamp.toList ++ ".jar".toList) := by
  simp [fileName_eq_published]

/-- **The ingredients in the name of a key of releases,** the group and the artifact together. -/
theorem WellVersioned.eq (h : k.WellVersioned) (h' : k'.WellVersioned) (hname : k.fileName = k'.fileName) :
    k.published = k'.published ∧ k.version = k'.version ∧ k.compiler = k'.compiler ∧ k.classVersion = k'.classVersion ∧
      k.timestamp = k'.timestamp := by
  have hlist := congrArg String.toList hname
  rw [toList_fileName_published, toList_fileName_published] at hlist
  have htime : ∀ {key : BridgeKey}, key.WellVersioned → '_' ∉ key.timestamp.toList ++ ".jar".toList := fun hkey hmem =>
    (List.mem_append.1 hmem).elim hkey.timestamp (by decide)
  have hversions : ∀ {key : BridgeKey}, key.WellVersioned → '_' ∉ key.classVersion.toList ++ '-' :: key.version.toList := by
    intro key hkey
    simp [hkey.classVersion.1, hkey.version]
  -- the last underscore is before the timestamp, the next one before the versions, and one more before the compiler
  obtain ⟨hlist, hstamp⟩ := append_mark_inj_of_last hlist (htime h) (htime h')
  obtain ⟨hlist, hback⟩ := append_mark_inj_of_last hlist (hversions h) (hversions h')
  obtain ⟨hlist, hcompiler⟩ := append_mark_inj_of_last (List.append_cancel_right hlist) h.compiler h'.compiler
  have hdashes : k.classVersion.toList.count '-' = k'.classVersion.toList.count '-' := by
    rw [List.count_eq_zero_of_not_mem h.classVersion.2, List.count_eq_zero_of_not_mem h'.classVersion.2]
  obtain ⟨hclass, hversion⟩ := append_mark_inj hback hdashes
  rw [hversion] at hlist
  exact ⟨String.toList_injective (List.append_cancel_right hlist), String.toList_injective hversion,
    String.toList_injective hcompiler, String.toList_injective hclass,
    String.toList_injective (List.append_cancel_right hstamp)⟩

/-! ### The jars of a cache -/

theorem sep_not_mem_fileName (h : ∀ i, '/' ∉ (k.part i).toList) : '/' ∉ k.fileName.toList := by
  have hgroup := h .group
  have hartifact := h .artifact
  have hversion := h .version
  have hcompiler := h .compiler
  have hclass := h .classVersion
  have htime := h .timestamp
  simp only [part] at hgroup hartifact hversion hcompiler hclass htime
  simp [toList_fileName, hgroup, hartifact, hversion, hcompiler, hclass, htime]

/-- The name of a jar is no step of another kind. -/
theorem fileName_ne {text : String} (k : BridgeKey) (h : 'j' ∉ text.toList) : k.fileName ≠ text := by
  rintro rfl
  exact h (by simp [toList_fileName])

end BridgeKey

namespace BridgeCache

variable {c c' : BridgeCache} {k k' : BridgeKey} {p p' : Path}

theorem components_jar (c : BridgeCache) (hsep : ∀ i, '/' ∉ (k.part i).toList) :
    (c.jar k).components = c.dir.components ++ [.name k.fileName] :=
  Path.components_join_name c.dir (k.sep_not_mem_fileName hsep) (k.fileName_ne (by decide)) (k.fileName_ne (by decide))
    (k.fileName_ne (by decide))

theorem jar_beq_eq_false (hsep : ∀ i, '/' ∉ (k.part i).toList) (hsep' : ∀ i, '/' ∉ (k'.part i).toList)
    (hdir : (c.dir == c'.dir) = true) (hname : k.fileName ≠ k'.fileName) : (c.jar k == c'.jar k') = false := by
  rw [Bool.eq_false_iff, ne_eq, Path.beq_iff, components_jar c hsep, components_jar c' hsep', Path.beq_iff.1 hdir]
  simpa using hname

/-- **What a call may be answered with,** on some machine and with some tools. -/
def Answers (c : BridgeCache) (k : BridgeKey) (p : Path) : Prop :=
  ∃ (σ : Type) (tools : BridgeTools σ) (toolchain : Toolchain) (coordinates : Coordinates) (s s' : Session σ)
    (after : BridgeCache), ((c.ensure tools toolchain coordinates k).run s).run = ((.ok p, after), s')

theorem Served.eq_of_answers (hc : Served c) (h : c.Answers k p) : p = c.jar k := by
  obtain ⟨σ, tools, toolchain, coordinates, s, s', after, hcall⟩ := h
  exact hc.path_of_ensure hcall

/-- A call that finds the jar is answered with it. -/
theorem answers_of_isFile {σ : Type} (tools : BridgeTools σ) (toolchain : Toolchain) (coordinates : Coordinates)
    (s : Session σ) (hfile : s.host.isFile (c.jar k) = true) : c.Answers k (c.jar k) := by
  rcases hcall : ((c.ensure tools toolchain coordinates k).run s).run with ⟨⟨r, after⟩, s'⟩
  obtain ⟨_, ⟨-, rfl, -⟩ | ⟨habsent, -⟩⟩ := of_ensure hcall
  · exact ⟨σ, tools, toolchain, coordinates, s, s', after, hcall⟩
  · simp [hfile] at habsent

end BridgeCache

/-- **The name of a jar tells aligned keys apart, and keys of releases** but for the place where the group ends and the
artifact begins. If the ingredients have no separator, keys with different names have different jars in one directory, and
no two calls for them are answered with one path. -/
theorem BridgeKey.fileName_tells (k k' : BridgeKey) :
    (k.Aligned k' → (k.fileName = k'.fileName ↔ k = k')) ∧
      (k.WellVersioned → k'.WellVersioned →
        (k.fileName = k'.fileName ↔ k.published = k'.published ∧ k.version = k'.version ∧ k.compiler = k'.compiler ∧
          k.classVersion = k'.classVersion ∧ k.timestamp = k'.timestamp)) ∧
      ((∀ i, '/' ∉ (k.part i).toList) → (∀ i, '/' ∉ (k'.part i).toList) → k.fileName ≠ k'.fileName →
        ∀ c c' : BridgeCache, (c.dir == c'.dir) = true →
          (c.jar k == c'.jar k') = false ∧
            (c.Served → c'.Served → ∀ p p', c.Answers k p → c'.Answers k' p' → (p == p') = false)) := by
  refine ⟨fun haligned => ⟨haligned.eq, congrArg fileName⟩, fun h h' => ⟨h.eq h', ?_⟩, ?_⟩
  · rintro ⟨hpublished, hversion, hcompiler, hclass, htime⟩
    rw [fileName_eq_published, fileName_eq_published, hpublished, hversion, hcompiler, hclass, htime]
  · intro hsep hsep' hname c c' hdir
    -- the jars differ in their last name, which is the file name as long as no part has a separator
    have hjar := BridgeCache.jar_beq_eq_false hsep hsep' hdir hname
    refine ⟨hjar, fun hc hc' p p' h h' => ?_⟩
    rw [hc.eq_of_answers h, hc'.eq_of_answers h']
    exact hjar

namespace BridgeCache

private def release : Toolchain := ⟨⟨2, 13, 12, none⟩, "l", "k", ⟨⟨"2.13.12", []⟩, ∅⟩⟩

/-- A new cache in the root directory. -/
private def rootCache : BridgeCache := ⟨"/", ⟨"1.9.3", "20230713T100000"⟩, "52.0", ∅⟩

private theorem rootCache_served : Served rootCache := .new fun _ => rfl

private def noTools : BridgeTools Unit := ⟨⟨fun _ => pure "/s", fun _ => pure []⟩, fun _ => pure ()⟩

/-- A machine with the jar of a key. -/
private def holding (k : BridgeKey) : Session Unit := ⟨{ files := Files.put ∅ [k.fileName] (.file [] false) }, ()⟩

private theorem rootCache_answers (k : BridgeKey) (hfile : (holding k).host.isFile (rootCache.jar k) = true) :
    rootCache.Answers k (rootCache.jar k) := answers_of_isFile noTools release {} (holding k) hfile

/-- Two releases of the compiler, which are aligned, and a release with a nightly build, whose two versions have dashes. -/
theorem fileName_tells_of_releases : ∃ k l m n : BridgeKey,
    k.Aligned l ∧ k ≠ l ∧ k.fileName ≠ l.fileName ∧
      (m.WellVersioned ∧ n.WellVersioned ∧ ¬ m.Aligned n ∧ m.fileName ≠ n.fileName) ∧
      ∃ p q, rootCache.Answers k p ∧ rootCache.Answers l q ∧ (p == q) = false := by
  let k := rootCache.keyFor release {}
  let l : BridgeKey := ⟨"org.scala-sbt", "compiler-bridge_2.12", "1.9.3", "2.12.18", "52.0", "20230713T100000"⟩
  let m : BridgeKey := ⟨"org.scala-lang", "scala3-sbt-bridge", "3.3.1", "3.3.1", "52.0", "20230713T100000"⟩
  let n : BridgeKey := ⟨"org.scala-lang", "scala3-sbt-bridge", "3.4.0-RC1-bin-20230901", "3.4.0-RC1-bin-20230901", "52.0",
    "20230713T100000"⟩
  have haligned : k.Aligned l := by
    intro mark hmark
    refine ⟨.compiler, fun j _ => ?_⟩
    rcases List.mem_pair.1 hmark with rfl | rfl <;> cases j <;> decide +kernel
  have hmn : ¬ m.Aligned n := by
    intro h
    obtain ⟨i, hothers⟩ := h '-' (by simp)
    -- the version of the bridge and that of the compiler both have other dashes
    by_cases hi : i = .version
    · exact absurd (hothers .compiler (by simp [hi])) (by decide +kernel)
    · exact absurd (hothers .version (Ne.symm hi)) (by decide +kernel)
  have hm : m.WellVersioned := ⟨by decide, by decide, by decide, by decide⟩
  have hn : n.WellVersioned := ⟨by decide, by decide, by decide, by decide⟩
  have hkl : k ≠ l := by decide +kernel
  obtain ⟨haligns, -, hjars⟩ := BridgeKey.fileName_tells k l
  have hname : k.fileName ≠ l.fileName := fun h => hkl ((haligns haligned).1 h)
  have hmn' : m.fileName ≠ n.fileName := fun h => by
    have hversion := (((BridgeKey.fileName_tells m n).2.1 hm hn).1 h).2.1
    exact absurd hversion (by decide)
  have hk := rootCache_answers k (by decide +kernel)
  have hl := rootCache_answers l (by decide +kernel)
  have hsep : ∀ i, '/' ∉ (k.part i).toList := by intro i; cases i <;> decide +kernel
  have hsep' : ∀ i, '/' ∉ (l.part i).toList := by intro i; cases i <;> decide +kernel
  exact ⟨k, l, m, n, haligned, hkl, hname, ⟨hm, hn, hmn, hmn'⟩, _, _, hk, hl,
    (hjars hsep hsep' hname rootCache rootCache (Path.beq_iff.2 rfl)).2 rootCache_served rootCache_served _ _ hk hl⟩

/-- **Two keys with one jar.** The second one is that of pinned coordinates; on a machine with the jar of the first key, a
call for it is answered with that jar. -/
theorem shared_jar : ∃ (c : BridgeCache) (toolchain : Toolchain) (x y : Coordinates) (p : Path),
    c.Served ∧ c.keyFor toolchain x ≠ c.keyFor toolchain y ∧
      (c.keyFor toolchain x).fileName = (c.keyFor toolchain y).fileName ∧
      c.Answers (c.keyFor toolchain x) p ∧ c.Answers (c.keyFor toolchain y) p := by
  let pinned : Coordinates :=
    { pinnedBridgeGroup := some "org.scala", pinnedBridgeArtifact := some "sbt-compiler-bridge_2.13" }
  have hname : (rootCache.keyFor release {}).fileName = (rootCache.keyFor release pinned).fileName := by decide +kernel
  have hjar : rootCache.jar (rootCache.keyFor release {}) = rootCache.jar (rootCache.keyFor release pinned) :=
    congrArg (fun name => rootCache.dir / (⟨name⟩ : Path)) hname
  have hanswers := rootCache_answers (rootCache.keyFor release pinned) (by decide +kernel)
  exact ⟨rootCache, release, {}, pinned, _, rootCache_served, by decide +kernel, hname,
    rootCache_answers _ (by decide +kernel), hjar ▸ hanswers⟩

end BridgeCache

end Recompile

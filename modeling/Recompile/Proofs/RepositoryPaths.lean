import Recompile.Bridge.Artifact
import Recompile.Proofs.EntryNames

/-!
# Artifacts have places of their own

The path of an artifact leads from the root of a repository through a directory for each segment of the group, one for the
artifact and one for the version, to a file whose name says the last two again and the classifier after them. The number of
segments varies and dashes may be anywhere, so neither the spelling of the path nor the name of the file tells what belongs
to which part. The way down from the root does (`Artifact.way`): it ends in three names that are not of the group, the first
two of which say how much of the third is the classifier (`Artifact.way_inj`).

That the path takes this way from every root, an empty one included, holds of coordinates of which each part is one step
(`Artifact.WellFormed`, `Artifact.components_path`). A classifier is part of a name only, so it may be `..` or empty.
-/

namespace Recompile

/-- **One step down:** text that is followed as the name of an entry. -/
structure Path.IsStepDown (n : String) : Prop where
  separator : '/' ∉ n.toList
  some : n ≠ ""
  here : n ≠ "."
  up : n ≠ ".."

instance (n : String) : Decidable (Path.IsStepDown n) :=
  decidable_of_iff ('/' ∉ n.toList ∧ n ≠ "" ∧ n ≠ "." ∧ n ≠ "..")
    ⟨fun ⟨hsep, hsome, hhere, hup⟩ => ⟨hsep, hsome, hhere, hup⟩, fun h => ⟨h.separator, h.some, h.here, h.up⟩⟩

/-- **Following steps down adds their names to the components,** from wherever they are followed. -/
theorem Path.components_foldl_join {names : List String} (h : ∀ n ∈ names, IsStepDown n) (root : Path) :
    (names.foldl (fun dir n => dir / (⟨n⟩ : Path)) root).components = root.components ++ names.map .name := by
  induction names generalizing root with
  | nil => simp
  | cons n rest ih =>
    obtain ⟨hn, hrest⟩ := List.forall_mem_cons.1 h
    rw [List.foldl_cons, ih hrest, components_join_name root hn.separator hn.some hn.here hn.up, List.append_assoc,
      List.map_cons, List.singleton_append]

namespace Artifact

/-- **Coordinates of which each part is one step.** -/
structure WellFormed (a : Artifact) : Prop where
  group : ∀ n ∈ a.groupSegments, Path.IsStepDown n
  artifact : Path.IsStepDown a.artifact
  version : Path.IsStepDown a.version
  classifier : ∀ c, a.classifier = some c → '/' ∉ c.toList

/-- **The way from the root of a repository to an artifact.** -/
def way (a : Artifact) : List String := a.groupSegments ++ [a.artifact, a.version, a.fileName]

variable {a b : Artifact}

/-! ### The name of the file -/

/-- What the name of the file says behind the version. -/
def tail (a : Artifact) : String :=
  match a.classifier with
  | some c => "-" ++ c ++ ".jar"
  | none => ".jar"

theorem fileName_eq_tail (a : Artifact) : a.fileName = a.artifact ++ "-" ++ a.version ++ a.tail := by
  unfold fileName tail
  cases a.classifier <;> simp [String.append_assoc]

theorem toList_tail (a : Artifact) :
    a.tail.toList = (a.classifier.elim [] fun c => '-' :: c.toList) ++ ['.', 'j', 'a', 'r'] := by
  unfold tail
  cases a.classifier <;> simp

/-- **The tail of a name tells the classifier,** even an empty one from none. -/
theorem classifier_eq_of_tail (h : a.tail = b.tail) : a.classifier = b.classifier := by
  have hchars := congrArg String.toList h
  rw [toList_tail, toList_tail] at hchars
  have hends := List.append_cancel_right hchars
  cases ha : a.classifier with
  | none =>
    cases hb : b.classifier with
    | none => rfl
    | some d => simp [ha, hb] at hends
  | some c =>
    cases hb : b.classifier with
    | none => simp [ha, hb] at hends
    | some d =>
      have hsame : c.toList = d.toList := by simpa [ha, hb] using hends
      rw [String.toList_injective hsame]

/-- The name of the file is one step, whatever the classifier is. -/
theorem WellFormed.fileName (ha : a.WellFormed) : Path.IsStepDown a.fileName := by
  have hends : 'j' ∈ a.fileName.toList := by simp [fileName_eq_tail, toList_tail]
  refine ⟨?_, fun h => ?_, fun h => ?_, fun h => ?_⟩
  · have htail : '/' ∉ a.tail.toList := by
      rw [toList_tail]
      cases hc : a.classifier with
      | none => decide
      | some c => simp [ha.classifier c hc]
    simp [fileName_eq_tail, ha.artifact.separator, ha.version.separator, htail]
  all_goals
    rw [h] at hends
    revert hends
    decide

/-! ### The way to the file -/

theorem group_eq_of_segments (h : a.groupSegments = b.groupSegments) : a.group = b.group := by
  have hpieces : a.group.toList.splitOn '.' = b.group.toList.splitOn '.' :=
    List.map_injective_iff.2 (fun _ _ => String.ofList_injective) h
  have hchars : ['.'].intercalate (a.group.toList.splitOn '.') = ['.'].intercalate (b.group.toList.splitOn '.') :=
    congrArg _ hpieces
  rw [List.intercalate_splitOn, List.intercalate_splitOn] at hchars
  exact String.toList_injective hchars

/-- **The way tells the artifact.** It is read from its end, since the number of segments is known only then. -/
theorem way_inj (h : a.way = b.way) : a = b := by
  obtain ⟨hsegments, hnames⟩ := List.append_inj' h rfl
  have hgroup := group_eq_of_segments hsegments
  obtain ⟨hartifact, hversion, hfile⟩ : a.artifact = b.artifact ∧ a.version = b.version ∧ a.fileName = b.fileName := by
    simpa using hnames
  have htail : a.tail = b.tail := by
    rw [fileName_eq_tail, fileName_eq_tail, hartifact, hversion] at hfile
    exact (String.append_right_inj _).1 hfile
  have hclassifier := classifier_eq_of_tail htail
  cases a
  cases b
  simp_all

theorem path_eq_foldl (root : Path) (a : Artifact) :
    a.path root = a.way.foldl (fun dir n => dir / (⟨n⟩ : Path)) root := by
  rw [path, way, List.foldl_append]
  rfl

/-- **The path of an artifact takes the way from the root.** -/
theorem WellFormed.components_path (ha : a.WellFormed) (root : Path) :
    (a.path root).components = root.components ++ a.way.map .name := by
  rw [path_eq_foldl]
  refine Path.components_foldl_join (fun n hn => ?_) root
  rcases List.mem_append.1 hn with hsegment | hname
  · exact ha.group n hsegment
  · simp only [List.mem_cons, List.not_mem_nil, or_false] at hname
    rcases hname with rfl | rfl | rfl
    · exact ha.artifact
    · exact ha.version
    · exact ha.fileName

/-- **Paths in a repository tell artifacts apart.** Below whatever root, the paths of well-formed coordinates are the same only
if the coordinates are, and each of them leads strictly downwards from the root. -/
theorem path_tells (root : Path) (ha : a.WellFormed) (hb : b.WellFormed) :
    ((a.path root == b.path root) = true ↔ a = b) ∧
      ∃ names, names ≠ [] ∧ (a.path root).components = root.components ++ names.map .name := by
  refine ⟨⟨fun hsame => ?_, ?_⟩, a.way, by simp [way], ha.components_path root⟩
  · have hcomponents := Path.beq_iff.1 hsame
    rw [ha.components_path, hb.components_path] at hcomponents
    have hnames : a.way.map Path.Component.name = b.way.map Path.Component.name := List.append_cancel_left hcomponents
    exact way_inj (List.map_injective_iff.2 (fun _ _ => Path.Component.name.inj) hnames)
  · rintro rfl
    exact Path.beq_iff.2 rfl

private def bridgeSources : Artifact := ⟨"org.scala-sbt", "compiler-bridge_2.13", "1.9.3", some "sources"⟩

/-- An artifact that is a version of the bridge by itself. -/
private def sourcesVersion : Artifact := ⟨"org.scala-sbt", "compiler-bridge_2.13", "1.9.3-sources", none⟩

/-- The sources of a bridge and an artifact of which the version says the same are in files of one name, but in two places. -/
theorem path_tells_sources : bridgeSources.WellFormed ∧ sourcesVersion.WellFormed ∧
    bridgeSources.fileName = sourcesVersion.fileName ∧ (bridgeSources.path "/repo" == sourcesVersion.path "/repo") = false ∧
    ∃ names, names ≠ [] ∧ (bridgeSources.path "/repo").components = (Path.components "/repo") ++ names.map .name := by
  have hsources : bridgeSources.WellFormed := by
    refine ⟨by decide +kernel, by decide, by decide, ?_⟩
    rintro c hc
    obtain rfl : "sources" = c := Option.some.inj hc
    decide
  have hversion : sourcesVersion.WellFormed := ⟨by decide +kernel, by decide, by decide, by simp [sourcesVersion]⟩
  obtain ⟨htells, hbelow⟩ := path_tells "/repo" hsources hversion
  refine ⟨hsources, hversion, by decide, ?_, hbelow⟩
  rw [Bool.eq_false_iff, ne_eq, htells]
  decide

end Artifact

end Recompile

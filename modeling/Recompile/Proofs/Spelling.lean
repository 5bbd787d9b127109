import Recompile.Proofs.Codec
import Recompile.Proofs.Record

/-!
# Equal contents and their bytes

Paths are compared by their components, and written as they are spelled. So contents that are equal need not be written
in the same way: `a/b` and `a//b` are one key of a table, and two different texts in a store. The tables are sorted, which
makes the order of the entries the same; it does not make the spelling the same, since a set that gets two spellings of
one path keeps the first one, and which one is the first depends on the order in which the set is filled
(`Store.encode_ne_of_equal`).

The spelling of paths is the whole difference. `Contents.spellings` lists the paths in some contents as they are spelled,
in the order in which they are written, and equal contents have the same bytes if and only if they agree in that list
(`Store.encode_eq_iff_spellings`).
-/

namespace Recompile

/-- Two lists with matching elements are the same if their images, put together, are, and so is what follows them. Matching
elements have images of one length, so the images can be told apart again. -/
theorem eq_of_flatMap_append {α β : Type} {R : α → α → Prop} {f : α → List β} {l l' : List α} {t t' : List β}
    (hl : List.Forall₂ R l l') (hlength : ∀ x y, R x y → (f x).length = (f y).length)
    (hf : ∀ x y, R x y → f x = f y → x = y) (h : l.flatMap f ++ t = l'.flatMap f ++ t') : l = l' ∧ t = t' := by
  induction hl with
  | nil => exact ⟨rfl, h⟩
  | cons hxy _ ih =>
    rw [List.flatMap_cons, List.flatMap_cons, List.append_assoc, List.append_assoc] at h
    obtain ⟨hfirst, hrest⟩ := List.append_inj h (hlength _ _ hxy)
    obtain ⟨rfl, htail⟩ := ih hrest
    exact ⟨by rw [hf _ _ hxy hfirst], htail⟩

namespace SortedMap

variable {κ ν : Type} [Ord κ]

/-- Equal tables match entry by entry. -/
theorem forall₂_of_beq [BEq ν] {m n : SortedMap κ ν} (h : (m == n) = true) :
    List.Forall₂ (fun e f => compare e.1 f.1 = .eq ∧ (e.2 == f.2) = true) m.entries n.entries := by
  change (m.size == n.size && (m.entries.zip n.entries).all _) = true at h
  rw [Bool.and_eq_true, List.all_eq_true] at h
  refine List.forall₂_iff_zip.2 ⟨by simpa [size] using h.1, fun {e f} hef => ?_⟩
  simpa using h.2 (e, f) hef

end SortedMap

theorem Path.ext_spelling {p q : Path} (h : p.spelling = q.spelling) : p = q := by
  cases p
  cases q
  exact congrArg _ h

/-! ### The paths in some contents -/

/-- The paths in the record of a source, as they are spelled. -/
def SourceInfo.spellings (i : SourceInfo) : List String := i.sourceDeps.toList.map Path.spelling

/-- The paths in the record of a class. -/
def ClassInfo.spellings (k : ClassInfo) : List String := [k.source.spelling, k.classFile.spelling]

/-- The paths in an analysis, in the order in which they are written. -/
def Analysis.spellings (a : Analysis) : List String :=
  a.sources.entries.flatMap (fun e => e.1.spelling :: e.2.spellings) ++ a.classes.entries.flatMap fun e => e.2.spellings

/-- The paths in the contents of a store, as they are spelled. -/
def Contents.spellings (c : Contents) : List String := c.analysis.spellings ++ [c.setup.output.spelling]

theorem SortedSet.eq_of_spellings {s t : SortedSet Path} (h : s.toList.map Path.spelling = t.toList.map Path.spelling) :
    s = t := by
  have hkeys : s.toList = t.toList := List.map_injective_iff.2 (fun _ _ => Path.ext_spelling) h
  rw [← SortedSet.addAll_toList s, hkeys, SortedSet.addAll_toList t]

namespace SourceInfo

variable {i j : SourceInfo}

theorem length_spellings_of_beq (h : (i == j) = true) : i.spellings.length = j.spellings.length := by
  obtain ⟨-, -, hdeps, -⟩ := beq_iff.1 h
  have hsize : SortedMap.size i.sourceDeps = SortedMap.size j.sourceDeps :=
    (SortedMap.forall₂_of_beq (SortedSet.beq_iff.2 hdeps)).length_eq
  have hlength : ∀ s : SortedSet Path, (s.toList.map Path.spelling).length = SortedMap.size s := by
    intro s
    rw [List.length_map]
    exact List.length_map ..
  rw [spellings, spellings, hlength, hlength, hsize]

/-- Equal records of sources differ in the spelling of paths at most. -/
theorem eq_of_beq_of_spellings (h : (i == j) = true) (hspelled : i.spellings = j.spellings) : i = j := by
  obtain ⟨hdigest, hclasses, -, hbinary⟩ := beq_iff.1 h
  have hdeps : i.sourceDeps = j.sourceDeps := SortedSet.eq_of_spellings hspelled
  have hnames : i.classes = j.classes := SortedSet.ext_contains hclasses
  have hfingerprints : i.binaryDeps = j.binaryDeps := SortedMap.ext_get? hbinary
  cases i
  cases j
  simp_all

end SourceInfo

/-- Equal records of classes differ in the spelling of paths at most. -/
theorem ClassInfo.eq_of_beq_of_spellings {k l : ClassInfo} (h : (k == l) = true) (hspelled : k.spellings = l.spellings) :
    k = l := by
  obtain ⟨-, -, hapi⟩ := beq_iff.1 h
  obtain ⟨hsource, hfile⟩ : k.source.spelling = l.source.spelling ∧ k.classFile.spelling = l.classFile.spelling := by
    simpa [spellings] using hspelled
  cases k
  cases l
  simp only [mk.injEq]
  exact ⟨Path.ext_spelling hsource, Path.ext_spelling hfile, hapi⟩

/-- **Equal analyses differ in the spelling of paths at most,** which shows wherever the list of these paths ends. -/
theorem Analysis.eq_of_beq_of_spellings {a b : Analysis} {t t' : List String} (h : (a == b) = true)
    (hspelled : a.spellings ++ t = b.spellings ++ t') : a = b ∧ t = t' := by
  obtain ⟨hsources, hclasses⟩ := beq_iff.1 h
  rw [spellings, spellings, List.append_assoc, List.append_assoc] at hspelled
  -- the paths of every source are as many in either list
  have hlength : ∀ e f : Path × SourceInfo, compare e.1 f.1 = .eq ∧ (e.2 == f.2) = true →
      (e.1.spelling :: e.2.spellings).length = (f.1.spelling :: f.2.spellings).length := by
    rintro e f ⟨-, hinfo⟩
    rw [List.length_cons, List.length_cons, SourceInfo.length_spellings_of_beq hinfo]
  have hsame : ∀ e f : Path × SourceInfo, compare e.1 f.1 = .eq ∧ (e.2 == f.2) = true →
      e.1.spelling :: e.2.spellings = f.1.spelling :: f.2.spellings → e = f := by
    rintro e f ⟨-, hinfo⟩ hpaths
    obtain ⟨hkey, hdeps⟩ := List.cons_eq_cons.1 hpaths
    exact Prod.ext (Path.ext_spelling hkey) (SourceInfo.eq_of_beq_of_spellings hinfo hdeps)
  obtain ⟨htable, hrest⟩ :=
    eq_of_flatMap_append (SortedMap.forall₂_of_beq (SortedMap.beq_iff.2 hsources)) hlength hsame hspelled
  -- and those of a class are two
  have hclass : ∀ e f : String × ClassInfo, compare e.1 f.1 = .eq ∧ (e.2 == f.2) = true →
      e.2.spellings = f.2.spellings → e = f := by
    rintro e f ⟨hname, hinfo⟩ hpaths
    exact Prod.ext (Std.LawfulEqCmp.eq_of_compare hname) (ClassInfo.eq_of_beq_of_spellings hinfo hpaths)
  obtain ⟨hclassTable, htail⟩ :=
    eq_of_flatMap_append (SortedMap.forall₂_of_beq (SortedMap.beq_iff.2 hclasses)) (fun _ _ _ => rfl) hclass hrest
  cases a
  cases b
  exact ⟨congrArg₂ mk (SortedMap.ext htable) (SortedMap.ext hclassTable), htail⟩

theorem Setup.beq_iff {s t : Setup} :
    (s == t) = true ↔ (s.output == t.output) = true ∧ s.compiler = t.compiler ∧ s.scalacOptions = t.scalacOptions ∧
      s.javacOptions = t.javacOptions ∧ s.order = t.order := by
  cases s with
  | mk output compiler scalac javac order =>
    cases t with
    | mk output' compiler' scalac' javac' order' =>
      change (output == output' && (compiler == compiler' && (scalac == scalac' && (javac == javac' &&
        order == order')))) = true ↔ _
      simp

/-- **Equal contents are the same if their paths are spelled alike.** -/
theorem Contents.eq_of_beq_of_spellings {c c' : Contents} (h : (c == c') = true) (hspelled : c.spellings = c'.spellings) :
    c = c' := by
  cases c with
  | mk a s =>
    cases c' with
    | mk a' s' =>
      change (a == a' && s == s') = true at h
      obtain ⟨ha, hs⟩ := Bool.and_eq_true_iff.1 h
      obtain ⟨rfl, houtput⟩ := Analysis.eq_of_beq_of_spellings ha hspelled
      obtain ⟨-, hcompiler, hscalac, hjavac, horder⟩ := Setup.beq_iff.1 hs
      have hout : s.output = s'.output := Path.ext_spelling (List.singleton_inj.1 houtput)
      cases s
      cases s'
      simp_all

/-! ### The bytes of equal contents -/

namespace Store

/-- **Equal contents are written in the same way if and only if their paths are spelled alike.** -/
theorem encode_eq_iff_spellings {c c' : Contents} (same : (c == c') = true)
    (small : (encode c).length < Codec.maxLength) : encode c = encode c' ↔ c.spellings = c'.spellings := by
  constructor
  · -- what is written can be read, with every path as it was spelled
    intro hbytes
    have hread := decode_encode small
    rw [hbytes, decode_encode (hbytes ▸ small)] at hread
    rw [Except.ok.inj hread]
  · intro hspelled
    rw [Contents.eq_of_beq_of_spellings same hspelled]

/-- The contents of a store with one source and others that it refers to. -/
private def referringTo (others : List Path) : Contents where
  analysis := (∅ : Analysis).record "src//A.scala" { digest := ⟨1, 2⟩, sourceDeps := SortedSet.addAll ∅ others }
    [("a.A", ⟨"src//A.scala", "a/./A.class", ⟨3, 4⟩⟩)]
  setup := ⟨"out/", "2.13.12", ["-Xlint"], [], .mixed⟩

/-- References to two sources, noted in either order. -/
theorem encode_eq_iff_spellings_of_two :
    (referringTo ["src/./B.scala", "lib//C.java"] == referringTo ["lib//C.java", "src/./B.scala"]) = true ∧
      (encode (referringTo ["src/./B.scala", "lib//C.java"])).length < Codec.maxLength ∧
      encode (referringTo ["src/./B.scala", "lib//C.java"]) = encode (referringTo ["lib//C.java", "src/./B.scala"]) := by
  have hfacts : (referringTo ["src/./B.scala", "lib//C.java"] == referringTo ["lib//C.java", "src/./B.scala"]) = true ∧
      (encode (referringTo ["src/./B.scala", "lib//C.java"])).length < Codec.maxLength ∧
      (referringTo ["src/./B.scala", "lib//C.java"]).spellings = (referringTo ["lib//C.java", "src/./B.scala"]).spellings := by
    decide +kernel
  obtain ⟨same, small, hspelled⟩ := hfacts
  exact ⟨same, small, (encode_eq_iff_spellings same small).2 hspelled⟩

/-- **Equal contents with different bytes.** Two spellings of one source are noted, in either order. The set of the sources
is the same, and keeps the spelling that came first. -/
theorem encode_ne_of_equal : ∃ c c' : Contents, (c == c') = true ∧ encode c ≠ encode c' :=
  ⟨referringTo ["src/B.scala", "src//B.scala"], referringTo ["src//B.scala", "src/B.scala"], by decide +kernel,
    by decide +kernel⟩

end Store

end Recompile

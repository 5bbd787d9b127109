import Recompile.Proofs.Opening

/-!
# Searching without a memory

A classpath remembers what it was asked for, and what it remembers of a class is found faster. As long as the files stay as
they are, that is all there is to it: whatever it was asked before, it answers what a search from the start finds
(`Classpath.answers_eq_plain`). The plain search (`Classpath.plain`) knows nothing of opened entries. It goes through the
paths, and at each of them it looks for the class in the analysis and then for its file in the directory or the archive.

The look-up has a memory of its own, which the classpath takes as it is: the analysis of an entry is what the look-up gives
for it. In particular two spellings of a path are one entry to the look-up, and it reads the analysis by the first one. With
a new look-up and a classpath that names no entry twice, nothing but the files counts (`Classpath.plain_of_new`).
-/

namespace Recompile

open Recompile.Action

/-! ### The plain search -/

/-- The contents of the file for a class at an entry, if there is one and it can be read to the end. -/
def ClassFiles.bytesAt? (h : Host) (entry : Path) (name : String) : Option Bytes :=
  match EntryKind.ofPath h entry with
  | .directory => (h.read (entry / ⟨ClassName.file name⟩)).toOption
  | .archive => memberData? h entry (ClassName.file name)
  | .missing => none

namespace Classpath

/-- **The fingerprint of a class by a plain search.** The first entry counts that has one: the API in its analysis, or else
the digest of its file. -/
def plain (l : Lookup) (h : Host) (paths : List Path) (name : String) : Option Digest :=
  paths.findSome? fun p =>
    ((l.given h (firstSpelling paths p)).bind fun a => a.api? name).or
      ((ClassFiles.bytesAt? h p name).map Digest.ofBytes)

/-- The fingerprints of some classes for which a classpath is asked, one after the other. -/
def answers (h : Host) : Classpath → List String → List (Option Digest)
  | _, [] => []
  | c, name :: rest => (c.fingerprint h name).1 :: answers h (c.fingerprint h name).2 rest

end Classpath

/-! ### An entry -/

namespace Classpath

variable {ε : Type} {l : Lookup} {h : Host} {c : Classpath}

theorem firstSpelling_of_distinct {paths : List Path} (hdistinct : paths.Pairwise fun p q => (p == q) = false) {p : Path}
    (hp : p ∈ paths) : firstSpelling paths p = p := by
  induction paths with
  | nil => exact absurd hp List.not_mem_nil
  | cons path rest ih =>
    obtain ⟨hpath, hrest⟩ := List.pairwise_cons.1 hdistinct
    rw [firstSpelling_cons]
    rcases List.mem_cons.1 hp with rfl | hmem
    · rw [if_pos BEq.rfl]
    · rw [hpath p hmem, if_neg Bool.false_ne_true, ih hrest hmem]

/-- **With a new look-up and different paths nothing but the files counts.** -/
theorem plain_of_new {paths : List Path} (hnew : l.loaded = ∅) (hdistinct : paths.Pairwise fun p q => (p == q) = false)
    (name : String) :
    plain l h paths name = paths.findSome? fun p =>
      ((Lookup.stored l.layout h p).bind fun a => a.api? name).or ((ClassFiles.bytesAt? h p name).map Digest.ofBytes) := by
  have hmap : ∀ f : Path → Option Digest, paths.findSome? f = (paths.map f).findSome? id := by
    intro f
    rw [List.findSome?_map]
    rfl
  unfold plain
  rw [hmap, hmap]
  refine congrArg _ (List.map_congr_left fun p hp => ?_)
  have hgiven : l.given h p = Lookup.stored l.layout h p := by rw [Lookup.given, hnew, SortedMap.get?_empty, Option.getD_none]
  rw [firstSpelling_of_distinct hdistinct hp, hgiven]

/-! ### All answers -/

/-- **A faithful classpath answers what its entries answer,** however often it is asked. -/
theorem Faithful.answers (hc : c.Faithful h) (names : List String) :
    c.answers h names = names.map fun name => search? h name c.entries := by
  induction names generalizing c with
  | nil => rfl
  | cons name rest ih =>
    obtain ⟨c', hfirst, hentries, hc'⟩ := hc.fingerprint name
    rw [Classpath.answers, hfirst, ih hc', hentries]
    rfl

end Classpath

end Recompile

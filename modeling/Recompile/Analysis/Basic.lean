import Recompile.Digest
import Recompile.Path

/-!
# The analysis of a module

What a compile has learnt about a module is kept for the next one: for every source its digest, the classes
it defined and what it referred to; for every class its source, its file and the digest of its API. The two
tables of an `Analysis` refer to one another. A source lists the classes that it reported, and a class names
the one source that owns it, the last one that reported it. Both directions are written by
`Analysis.record` and taken apart by `Analysis.remove`, which drops only the classes that the source still
owns.

References to sources of the same module are edges between sources; a reference to a class of another module
is recorded with the fingerprint that the class had, so that a later compile can tell whether it changed.
-/

namespace Recompile

/-- **What a source contributed to the last compile.** -/
structure SourceInfo where
  /-- The digest of the source when it was compiled. -/
  digest : Digest
  /-- The classes that it reported. -/
  classes : SortedSet String := ∅
  /-- The other sources of the module that it referred to. -/
  sourceDeps : SortedSet Path := ∅
  /-- The classes of other modules that it referred to, with their fingerprints at the time. -/
  binaryDeps : SortedMap String Digest := ∅
deriving BEq

/-- **A class of the module.** -/
structure ClassInfo where
  /-- The source that owns it. -/
  source : Path
  /-- Its class file, relative to the output directory. -/
  classFile : Path
  /-- The digest of its API. -/
  api : Digest
deriving BEq

/-- **The sources and classes of one output directory.** -/
structure Analysis where
  sources : SortedMap Path SourceInfo := ∅
  classes : SortedMap String ClassInfo := ∅
deriving BEq

namespace Analysis

instance : EmptyCollection Analysis := ⟨⟨∅, ∅⟩⟩

instance : Inhabited Analysis := ⟨∅⟩

def isEmpty (a : Analysis) : Bool := a.sources.isEmpty

def source? (a : Analysis) (p : Path) : Option SourceInfo := a.sources.get? p

def class? (a : Analysis) (name : String) : Option ClassInfo := a.classes.get? name

def api? (a : Analysis) (name : String) : Option Digest := (a.class? name).map ClassInfo.api

/-- Drops a source and the classes that it lists and owns. -/
def remove (a : Analysis) (p : Path) : Analysis :=
  match a.source? p with
  | none => a
  | some info =>
    { sources := a.sources.erase p
      classes := a.classes.filter fun name c => !(info.classes.contains name && c.source == p) }

/-- **Records a source and its classes** in place of what was recorded for the source. The classes of the
record are the names in the list; of two classes with one name the later one stays. -/
def record (a : Analysis) (p : Path) (info : SourceInfo) (classes : List (String × ClassInfo)) : Analysis :=
  let a := a.remove p
  { sources := a.sources.insert p { info with classes := SortedSet.ofList (classes.map (·.1)) }
    classes := classes.foldl (fun table c => table.insert c.1 c.2) a.classes }

/-- The sources that refer to a source directly. -/
def dependentsOf (a : Analysis) (p : Path) : List Path :=
  (a.sources.filter fun _ info => info.sourceDeps.contains p).keys

/-- The class files of the classes that a source lists, relative to the output directory. -/
def classFiles (a : Analysis) (p : Path) : List Path :=
  match a.source? p with
  | none => []
  | some info => info.classes.toList.filterMap fun name => (a.class? name).map ClassInfo.classFile

end Analysis

end Recompile

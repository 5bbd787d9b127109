import Recompile.Engine.Classpath
import Recompile.Engine.Compiler

/-!
# Recording what was compiled

After a batch of sources has been compiled its units go into the analysis. A reference is an edge to the source
that owns the class, if a source of the module does; the units count for that before the analysis. A reference
to a class of another module is recorded with the fingerprint it has on the classpath, and one to a class that
nobody has is dropped. A source without a unit is recorded as defining nothing.
-/

namespace Recompile

/-- The source that owns each class once some units are recorded. -/
def classOwners (a : Analysis) (units : List CompiledUnit) : SortedMap String Path :=
  units.foldl (fun owners unit => unit.classes.foldl (fun owners c => owners.insert c.name unit.source) owners)
    (a.classes.map ClassInfo.source)

def addReferences (h : Host) (owners : SortedMap String Path) (source : Path) :
    List String → SourceInfo → Classpath → SourceInfo × Classpath
  | [], info, c => (info, c)
  | name :: rest, info, c =>
    match owners.get? name with
    | some owner =>
      -- a source does not depend on itself
      if owner == source then addReferences h owners source rest info c
      else addReferences h owners source rest { info with sourceDeps := info.sourceDeps.add owner } c
    | none =>
      match c.fingerprint h name with
      -- a class that nobody has may come from the platform, and is not recorded
      | (none, c) => addReferences h owners source rest info c
      | (some d, c) =>
        addReferences h owners source rest { info with binaryDeps := info.binaryDeps.insert name d } c

def CompiledUnit.records (u : CompiledUnit) : List (String × ClassInfo) :=
  u.classes.map fun c => (c.name, ⟨u.source, c.file, c.api⟩)

/-- Records units. Those for sources that are not part of the module are left out. -/
def recordEach (h : Host) (digests : SortedMap Path Digest) (owners : SortedMap String Path) :
    List CompiledUnit → Analysis → Classpath → Analysis × Classpath
  | [], a, c => (a, c)
  | u :: rest, a, c =>
    match digests.get? u.source with
    | none => recordEach h digests owners rest a c
    | some digest =>
      let (info, c) := addReferences h owners u.source u.references.toList { digest } c
      recordEach h digests owners rest (a.record u.source info u.records) c

def recordWithoutUnit (digests : SortedMap Path Digest) (compiled : SortedSet Path) (batch : List Path)
    (a : Analysis) : Analysis :=
  batch.foldl (fun a source =>
    if compiled.contains source then a
    else
      match digests.get? source with
      | none => a
      | some digest => a.record source { digest } []) a

/-- **Records the units of a batch.** -/
def recordUnits (h : Host) (digests : SortedMap Path Digest) (batch : List Path) (units : List CompiledUnit)
    (a : Analysis) (c : Classpath) : Analysis × Classpath :=
  -- a unit for a source that is none of the module does not stand for one
  let compiled := SortedSet.ofList ((units.map CompiledUnit.source).filter fun p => digests.contains p)
  let (a, c) := recordEach h digests (classOwners a units) units a c
  (recordWithoutUnit digests compiled batch a, c)

end Recompile

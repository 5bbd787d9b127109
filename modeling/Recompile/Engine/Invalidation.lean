import Recompile.Engine.Changes
import Recompile.Engine.Classpath
import Recompile.Engine.Dependents
import Recompile.Engine.Error

/-!
# Which sources to compile

A source has to be compiled if it is new or modified, if it refers to a source that is gone, or if a class of
another module that it refers to has changed. Later on, a source has to be compiled if it refers to a source
whose classes have changed (`Analysis.dependentsOfAny`); after too many rounds, all sources that lead to one
by any number of references (`Analysis.transitiveDependents`).
-/

namespace Recompile

/-! ### The first round -/

/-- The digests of sources, all of which have to be readable. -/
def digestSources (h : Host) : List Path → Except EngineError (List (Path × Digest))
  | [] => .ok []
  | p :: rest =>
    match h.read p with
    | .error fault => .error (.file p fault)
    | .ok data => do return (p, Digest.ofBytes data) :: (← digestSources h rest)

def sourceDigests (h : Host) (sources : List Path) : Except EngineError (SortedMap Path Digest) := do
  -- a source that is listed twice, in whatever spelling, has one entry
  return SortedMap.insertAll ∅ (← digestSources h sources)

/-- The first of some recorded references to classes of other modules that is no longer right. -/
def staleClass (h : Host) : List (String × Digest) → Classpath → Option String × Classpath
  | [], c => (none, c)
  | (name, recorded) :: rest, c =>
    let (now, c) := c.fingerprint h name
    if now = some recorded then staleClass h rest c else (some name, c)

/-- Adds the sources that refer to a changed class of another module. Only sources that are there and not yet
in the set are looked at. -/
def addStale {ε : Type} (current : SortedMap Path Digest) :
    List (Path × SourceInfo) → SortedSet Path → Classpath → Action Host ε (SortedSet Path × Classpath)
  | [], invalid, c => return (invalid, c)
  | (path, info) :: rest, invalid, c => do
    if invalid.contains path ∨ !current.contains path then addStale current rest invalid c
    else
      -- the search ends at the first class that tells
      match staleClass (← get) info.binaryDeps.entries c with
      | (none, c) => addStale current rest invalid c
      | (some name, c) =>
        Host.report (.debug "classpath dependency changed" [("source", path.spelling), ("class", name)])
        addStale current rest (invalid.add path) c

/-- The sources that have to be compiled whatever the other modules look like: the changed ones and those
that refer to one that is gone. -/
def Changes.invalidated (changes : Changes) (current : SortedMap Path Digest) (a : Analysis) : SortedSet Path :=
  changes.deleted.foldl (fun invalid gone =>
      -- dependents that are gone themselves are not to be compiled
      invalid.addAll ((a.dependentsOf gone).filter fun p => current.contains p))
    (SortedSet.ofList changes.dirty)

end Recompile

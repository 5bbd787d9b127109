import Recompile.Analysis.Basic

/-!
# What has changed since the last compile

The sources of a module, with their digests, are compared with those an analysis recorded. Each path falls
into one of four classes, and every class is listed in ascending order.
-/

namespace Recompile

/-- **How the current sources differ from the recorded ones.** -/
structure Changes where
  /-- Sources that are not recorded. -/
  added : List Path
  /-- Sources that are recorded with another digest. -/
  modified : List Path
  /-- Recorded sources that are no longer there. -/
  deleted : List Path
  /-- Sources that are recorded with their digest. -/
  unchanged : List Path

namespace Changes

/-- Files a current source under its class. -/
def file (a : Analysis) (c : Changes) (e : Path × Digest) : Changes :=
  -- the sources come in the order of their paths, which the classes keep
  match a.source? e.1 with
  | none => { c with added := c.added ++ [e.1] }
  | some info =>
    if info.digest == e.2 then { c with unchanged := c.unchanged ++ [e.1] }
    else { c with modified := c.modified ++ [e.1] }

/-- Compares the digests of the current sources with an analysis: a pass over the sources, and one over the records. -/
def detect (digests : SortedMap Path Digest) (a : Analysis) : Changes :=
  { digests.entries.foldl (file a) ⟨[], [], [], []⟩ with
    deleted := (a.sources.filter fun p _ => !digests.contains p).keys }

/-- Whether the sources are those that were recorded. -/
def isEmpty (c : Changes) : Bool := c.added.isEmpty && c.modified.isEmpty && c.deleted.isEmpty

/-- The sources that have to be compiled for their own sake. -/
def dirty (c : Changes) : List Path := c.added ++ c.modified

end Changes

end Recompile

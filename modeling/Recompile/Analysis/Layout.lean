import Recompile.Path

/-!
# Where analyses are kept

The analysis of an output directory is kept in a file of the directory `analysis` beside it. A layout gives
the name of that file for output directories by their own name. A module that compiles into a directory the
layout does not name keeps its analysis in a file of the directory's name, where no other module looks for
it.
-/

namespace Recompile

/-- **The names of stores by the names of output directories.** -/
structure Layout where
  stores : SortedMap String String

namespace Layout

/-- The directory beside the output directories that holds the stores. -/
def directory : Path := "analysis"

/-- The layout of a build that configures none. -/
def standard : Layout :=
  ⟨SortedMap.ofList [("classes", "compile"), ("test-classes", "test-compile")]⟩

instance : Inhabited Layout := ⟨standard⟩

/-- The name of the store for an output directory of the given name. -/
def storeName? (l : Layout) (name : String) : Option String := l.stores.get? name

/-- The store in which other modules find the analysis of an output directory. -/
def store? (l : Layout) (output : Path) : Option Path := do
  let name ← output.fileName?
  let store ← l.storeName? name
  let parent ← output.parent?
  return parent / directory / ⟨store⟩

/-- The store that a compile into an output directory writes. -/
def storeForOutput (l : Layout) (output : Path) : Path :=
  match l.store? output with
  | some store => store
  | none =>
    output.parent?.getD "." / directory / ⟨output.fileName?.getD "classes"⟩

end Layout

end Recompile

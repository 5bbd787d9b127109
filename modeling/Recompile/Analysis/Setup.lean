import Recompile.Analysis.Basic
import Recompile.CompileOrder

/-!
# The setup of a compile

An analysis is only good for a compile with the setup under which it was made: the output directory, the
compiler version, the options of both compilers and the order of the languages. `Contents` is an analysis
with its setup, as a store holds it.
-/

namespace Recompile

/-- **The options under which an analysis was made.** -/
structure Setup where
  output : Path
  compiler : String
  scalacOptions : List String
  javacOptions : List String
  order : CompileOrder
deriving BEq

/-- Whether an analysis made under one setup may be used under another. -/
def Setup.isCompatible (s t : Setup) : Bool := s == t

/-- An analysis and its setup. -/
structure Contents where
  analysis : Analysis
  setup : Setup
deriving BEq

end Recompile

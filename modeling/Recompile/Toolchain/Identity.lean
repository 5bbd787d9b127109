import Recompile.Path

/-!
# What a toolchain is

A toolchain is identified by the version it is configured with and the list of its artifacts. The order of
the artifacts counts, since it decides which of several definitions of a class is loaded.
-/

namespace Recompile

/-- **Where the jars of a compiler are.** -/
structure ToolchainSpec where
  version : String
  library : Path
  compiler : Path
  /-- The reflection jar, which is recorded and not loaded. -/
  reflect : Option Path := none
  /-- Further jars that the compiler needs to run. -/
  extra : List Path := []

/-- **A version and the artifacts it is loaded from,** in the order in which they are searched. -/
structure ToolchainIdentity where
  version : String
  artifacts : List Path
deriving BEq

namespace ToolchainIdentity

/-- The version with the number of artifacts. -/
def display (i : ToolchainIdentity) : String :=
  i.version ++ " (" ++ toString i.artifacts.length ++ " artifacts)"

end ToolchainIdentity

/-- The identity of the toolchain that a specification describes: the further jars, then the library, then
the compiler. -/
def ToolchainSpec.identity (s : ToolchainSpec) : ToolchainIdentity :=
  ⟨s.version, s.extra ++ [s.library, s.compiler]⟩

end Recompile

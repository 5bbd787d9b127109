import Recompile.Toolchain.Version

/-!
# Where a compiler and its bridge are published

The compiler of a build and the bridge that connects it to the build are artifacts of a repository. Which
ones depends on the compiler version: up to the second major release the bridge belongs to the build engine
and is published per binary version, from the third on it comes with each compiler release. A configuration
may pin the main class of the compiler and any of the coordinates of the bridge.
-/

namespace Recompile

/-- **The coordinates of a compiler family,** with what a configuration pins. -/
structure Coordinates where
  /-- The compiler version they are for, if it is known. -/
  version : Option Version := none
  pinnedMainClass : Option String := none
  pinnedBridgeGroup : Option String := none
  pinnedBridgeArtifact : Option String := none
  pinnedBridgeVersion : Option String := none
deriving Inhabited

namespace Coordinates

/-- Whether they are for the third or a later major release. -/
def isScala3 (c : Coordinates) : Bool := c.version.any Version.isScala3

def group (_ : Coordinates) : String := "org.scala-lang"

def artifact (c : Coordinates) : String := if c.isScala3 then "scala3-compiler_3" else "scala-compiler"

/-- The class that a compiler process starts with. -/
def mainClass (c : Coordinates) : String :=
  c.pinnedMainClass.getD (if c.isScala3 then "dotty.tools.dotc.Main" else "scala.tools.nsc.Main")

def bridgeGroup (c : Coordinates) : String :=
  c.pinnedBridgeGroup.getD (if c.isScala3 then "org.scala-lang" else "org.scala-sbt")

def bridgeArtifact (c : Coordinates) (compiler : Version) : String :=
  c.pinnedBridgeArtifact.getD
    (if compiler.isScala3 then "scala3-sbt-bridge" else "compiler-bridge_" ++ compiler.binary)

/-- The version of the bridge for a compiler version and an engine release. -/
def bridgeVersion (c : Coordinates) (compiler : Version) (engine : String) : String :=
  c.pinnedBridgeVersion.getD (if compiler.isScala3 then compiler.display else engine)

end Coordinates

end Recompile

/-!
# Cache keys of bridges

A compiled bridge is good for one compiler version, one version of class files and one release of the
build engine. All of them go into the name of its file in the cache.
-/

namespace Recompile

/-- **The release of the build engine** that bridges are compiled against. -/
structure EngineRelease where
  version : String
  timestamp : String
deriving DecidableEq, Repr

/-- **What a cached bridge is good for.** -/
structure BridgeKey where
  group : String
  artifact : String
  /-- The version of the bridge. -/
  version : String
  /-- The version of the compiler that the bridge is compiled with. -/
  compiler : String
  /-- The version of the class files that the runtime accepts. -/
  classVersion : String
  /-- The timestamp of the engine release. -/
  timestamp : String
deriving DecidableEq, Repr

namespace BridgeKey

/-- The key as one name. -/
def display (k : BridgeKey) : String :=
  k.group ++ "-" ++ k.artifact ++ "-" ++ k.version ++ "-bin_" ++ k.compiler ++ "__" ++ k.classVersion
    ++ "-" ++ k.version ++ "_" ++ k.timestamp

def fileName (k : BridgeKey) : String := k.display ++ ".jar"

end BridgeKey

end Recompile

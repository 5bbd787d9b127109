import Recompile.CommandLine.Project

/-!
# What a command reads

A command runs on a value that stands for the machine, so what it reads has to be gathered before it runs. The
arguments name the places where the configuration may be (`configPlaces`) and the paths that are looked at
(`Command.paths`). The configuration then names the rest: the jars of the toolchain, the program that compiles
a bridge, the artifacts the bridge is made from and the jar that it may have been kept in (`projectPaths`).
-/

namespace Recompile

namespace CommandLine

def configPlaces (h : Host) (config : Option String) : List Path :=
  match config with
  | some given => [⟨given⟩, ⟨given⟩ / Config.fileName]
  | none =>
    let start := currentDir h
    (Files.ancestors start.spelling.length start).map fun dir => dir / Config.fileName

/-- The paths that a command looks at, with the stores of output directories. -/
def Command.paths (layout : Layout) : Command → List Path
  | .key => []
  | .bridge _ => []
  | .analysis store _ => [store]
  | .lookup entries _ => entries ++ entries.filterMap layout.store?

def Command.bridgeVersion? : Command → Option String
  | .bridge version => version
  | _ => none

/-- The artifacts that a bridge is made from and the jar that it is kept in. -/
def bridgePaths (h : Host) (c : Config) (version : Option String) : List Path :=
  match Version.parse? c.toolchain.version, c.effectiveRepositoryDir h.home, bridges h c with
  | some compiler, .ok root, .ok (cache, _) =>
    let toolchain : Toolchain := ⟨compiler, c.toolchain.library, c.toolchain.compiler, ⟨c.toolchain.identity, ∅⟩⟩
    let key := match version with
      | some v => cache.keyForVersion toolchain (c.coordinates compiler) v
      | none => cache.keyFor toolchain (c.coordinates compiler)
    cache.jar key :: (BridgeCache.sourcesOf key :: c.dependencies.map (·.1)).map fun a => a.path root
  | _, _, _ => []

/-- **The paths that a configuration adds** to those of the arguments. -/
def projectPaths (h : Host) (c : Config) (command : Command) : List Path :=
  c.toolchain.identity.artifacts ++ [JavaCommand.program ⟨c.javaHome⟩ h]
    ++ bridgePaths h c command.bridgeVersion? ++ command.paths c.layout

end CommandLine

end Recompile

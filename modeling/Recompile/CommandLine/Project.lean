import Recompile.Bridge.Cache
import Recompile.CommandLine.Arguments
import Recompile.Config.Loading

/-!
# The project of a command

A command works for the project whose configuration is named in its arguments, or else for the one whose
directory is the nearest on the way from the working directory to the root.
-/

namespace Recompile

namespace CommandLine

/-- The working directory as a path. -/
def currentDir (h : Host) : Path := ⟨"/" ++ "/".intercalate h.cwd⟩

/-- The first directory of some that has a configuration file. -/
def nearestConfig? (h : Host) (dirs : List Path) : Option Path :=
  (dirs.map fun dir => dir / Config.fileName).find? h.isFile

/-- The configuration file of the nearest project. -/
def findConfig (h : Host) : Except String Path :=
  let start := currentDir h
  match nearestConfig? h (Files.ancestors start.spelling.length start) with
  | some file => .ok file
  | none =>
    .error ("could not find " ++ Config.fileName.spelling ++ " in " ++ start.spelling
      ++ " or any parent directory")

/-- **The configuration of the project.** -/
def loadConfig (h : Host) (config : Option String) : Except String Config := do
  let file ← match config with
    | some given =>
      let p : Path := ⟨given⟩
      -- a directory stands for the file in it
      pure (if h.isDir p then p / Config.fileName else p)
    | none => findConfig h
  (Config.loadFile h file).mapError ConfigError.message

def toolchain (c : Config) : StateM Host (Except String Toolchain) := do
  let (result, _) ← (default : Registry).instance? c.toolchain
  return result.mapError ToolchainError.message

def bridges (h : Host) (c : Config) : Except ConfigError (BridgeCache × BridgeTools Unit) := do
  let repository : Repository := ⟨← c.effectiveRepositoryDir h.home, c.dependencies⟩
  let cache : BridgeCache := ⟨← c.effectiveCacheDir h.home, c.engine, c.classVersion, ∅⟩
  return (cache, ⟨repository.resolver, JavaCommand.compiler ⟨c.javaHome⟩⟩)

end CommandLine

end Recompile

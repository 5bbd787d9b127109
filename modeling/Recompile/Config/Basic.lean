import Recompile.Analysis.Layout
import Recompile.Bridge.Artifact
import Recompile.Bridge.Key
import Recompile.CompileOrder
import Recompile.Config.Error
import Recompile.Diagnostic.Sink
import Recompile.Text.Space
import Recompile.Toolchain.Coordinates
import Recompile.Toolchain.Identity

/-!
# The configuration of a build

A configuration says which compiler a build uses and where its jars are, which engine release its bridge is
for, and how modules are compiled. Most of it has values to fall back on. Relative paths are meant from the
directory of the configuration file; two directories are found below the home directory of the user if none
is configured.
-/

namespace Recompile

/-- **A configuration.** -/
structure Config where
  toolchain : ToolchainSpec
  /-- The class that a compiler process starts with. -/
  mainClass : Option String := none
  engine : EngineRelease
  bridgeGroup : Option String := none
  bridgeArtifact : Option String := none
  bridgeVersion : Option String := none
  /-- What the sources of the bridge depend on. -/
  dependencies : List (Artifact × Scope) := []
  /-- The version of the class files that the runtime accepts. -/
  classVersion : String := "52.0"
  /-- The Java installation that runs bootstrap compiles. -/
  javaHome : Option Path := none
  order : CompileOrder := .mixed
  scalacOptions : List String := []
  javacOptions : List String := []
  maxErrors : Nat := Sink.defaultMaxErrors
  /-- The directory of compiled bridges. -/
  cacheDir : Option Path := none
  /-- The directory of artifacts. -/
  repositoryDir : Option Path := none
  layout : Layout := .standard

namespace Config

/-! ### Checks -/

def isBlankText (s : String) : Bool := Text.trim s == ""

/-- Checks an entry of the layout. -/
def checkStore (dir store : String) : Except ConfigError Unit :=
  if dir = "" ∨ store = "" then .error (.invalid "analysis.layout entries must not be empty")
  else if store.toList.any fun c => c == '/' || c == '\\' then
    .error (.invalid ("analysis store name '" ++ store ++ "' must not contain path separators"))
  else .ok ()

/-- **Checks a configuration.** -/
def check (c : Config) : Except ConfigError Unit := do
  if isBlankText c.toolchain.version then throw (.missing "toolchain.version")
  if c.toolchain.library.spelling = "" then throw (.missing "toolchain.library_jar")
  if c.toolchain.compiler.spelling = "" then throw (.missing "toolchain.compiler_jar")
  if isBlankText c.engine.version then throw (.missing "engine.version")
  if c.maxErrors = 0 then throw (.invalid "compile.max_errors must be at least 1")
  c.layout.stores.entries.forM fun (dir, store) => checkStore dir store

/-! ### Paths -/

/-- The configuration with its relative paths followed from a directory. -/
def resolvePaths (c : Config) (base : Path) : Config :=
  let resolve (p : Path) : Path := base / p
  { c with
    toolchain := { c.toolchain with
      library := resolve c.toolchain.library
      compiler := resolve c.toolchain.compiler
      reflect := c.toolchain.reflect.map resolve
      extra := c.toolchain.extra.map resolve }
    javaHome := c.javaHome.map resolve
    cacheDir := c.cacheDir.map resolve
    repositoryDir := c.repositoryDir.map resolve }

/-- The home directory, which the environment has to name. -/
def homeDir (home : Option String) : Except ConfigError Path :=
  match home with
  | none | some "" => .error (.missing "HOME environment variable")
  | some dir => .ok ⟨dir⟩

/-- The directory of compiled bridges, by default one below the home directory. -/
def effectiveCacheDir (c : Config) (home : Option String) : Except ConfigError Path :=
  match c.cacheDir with
  | some dir => .ok dir
  | none => do return (← homeDir home) / ".sbt" / "1.0" / "zinc" / "org.scala-sbt"

/-- The directory of artifacts, by default one below the home directory. -/
def effectiveRepositoryDir (c : Config) (home : Option String) : Except ConfigError Path :=
  match c.repositoryDir with
  | some dir => .ok dir
  | none => do return (← homeDir home) / ".m2" / "repository"

/-- The coordinates of the compiler and the bridge, with what the configuration pins. -/
def coordinates (c : Config) (version : Version) : Coordinates :=
  ⟨some version, c.mainClass, c.bridgeGroup, c.bridgeArtifact, c.bridgeVersion⟩

end Config

end Recompile

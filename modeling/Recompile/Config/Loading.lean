import Recompile.Config.Basic
import Recompile.Host
import Recompile.Toml.Decoding
import Recompile.Toml.Reading

/-!
# Loading configurations

A configuration is written as a document with a table for each of its parts, of which those on the toolchain
and the engine must be there. `Config.ofText` reads and checks it; `Config.load` also follows its relative
paths from the directory of the file.
-/

namespace Recompile

namespace Config

open Toml Toml.Fields

/-! ### The parts of the document -/

/-- The toolchain, and the class that a compiler process starts with. -/
def toolchainPart : Fields (ToolchainSpec × Option String) :=
  (fun version library compiler reflect extra mainClass =>
    (⟨version, ⟨library⟩, ⟨compiler⟩, reflect.map Path.mk, extra.map Path.mk⟩, mainClass))
  <$> required "version" text <*> required "library_jar" path <*> required "compiler_jar" path
  <*> optionalLast "reflect_jar" path <*> orElse "extra_jars" (Toml.list path) []
  <*> optionalLast "main_class" text

def enginePart : Fields EngineRelease :=
  EngineRelease.mk <$> required "version" text <*> orElse "timestamp" text ""

def scopes : List (String × Scope) := Scope.all.map fun s => (s.configName, s)

def dependencyPart : Fields (Artifact × Scope) :=
  (fun group artifact version classifier scope => (⟨group, artifact, version, classifier⟩, scope))
  <$> required "group" text <*> required "artifact" text <*> required "version" text
  <*> optionalLast "classifier" text <*> orElse "scope" (oneOf scopes) .compile

/-- What is pinned of the bridge, and its dependencies. -/
structure BridgePart where
  group : Option String := none
  artifact : Option String := none
  version : Option String := none
  dependencies : List (Artifact × Scope) := []

def bridgePart : Fields BridgePart :=
  BridgePart.mk <$> optional "group" text <*> optional "artifact" text <*> optional "version" text
  <*> orElse "dependencies" (Toml.list (decode "DependencyConfig" dependencyPart)) []

/-- The runtime: the version of class files, and the Java installation. -/
def runtimePart : Fields (String × Option String) :=
  Prod.mk <$> orElse "class_version" text "52.0" <*> optionalLast "java_home" path

/-- How modules are compiled. -/
structure CompilePart where
  order : CompileOrder := .mixed
  scalacOptions : List String := []
  javacOptions : List String := []
  maxErrors : Nat := Sink.defaultMaxErrors

def orders : List (String × CompileOrder) := CompileOrder.all.map fun o => (o.configName, o)

def compilePart : Fields CompilePart :=
  CompilePart.mk <$> orElse "order" (oneOf orders) .mixed
  <*> orElse "scalac_options" (Toml.list text) [] <*> orElse "javac_options" (Toml.list text) []
  <*> orElse "max_errors" count Sink.defaultMaxErrors

/-- The directory of compiled bridges. -/
def cachePart : Fields (Option String) := optional "secondary_dir" path

/-- The directory of artifacts. -/
def repositoryPart : Fields (Option String) := optional "local" path

def analysisPart : Fields Layout :=
  orElse "layout" (fun v => (fun es => ⟨SortedMap.insertAll ∅ es⟩) <$> Toml.entries text v) .standard

def wholeDocument : Fields Config :=
  (fun (toolchain, mainClass) engine bridge (classVersion, javaHome) compile cacheDir repositoryDir layout =>
    { toolchain, mainClass, engine, classVersion, layout
      bridgeGroup := bridge.group, bridgeArtifact := bridge.artifact, bridgeVersion := bridge.version
      dependencies := bridge.dependencies
      javaHome := javaHome.map Path.mk
      order := compile.order, scalacOptions := compile.scalacOptions
      javacOptions := compile.javacOptions, maxErrors := compile.maxErrors
      cacheDir := cacheDir.map Path.mk, repositoryDir := repositoryDir.map Path.mk })
  <$> required "toolchain" (decode "ToolchainConfig" toolchainPart)
  <*> required "engine" (decode "EngineConfig" enginePart)
  <*> orElse "bridge" (decode "BridgeConfig" bridgePart) {}
  <*> orElse "runtime" (decode "RuntimeConfig" runtimePart) ("52.0", none)
  <*> orElse "compile" (decode "CompileConfig" compilePart) {}
  <*> orElse "cache" (decode "CacheConfig" cachePart) none
  <*> orElse "repository" (decode "RepositoryConfig" repositoryPart) none
  <*> orElse "analysis" (decode "AnalysisConfig" analysisPart) .standard

/-! ### Loading -/

/-- **Reads and checks a configuration.** Its paths are as they are written. -/
def ofText (s : String) : Except ConfigError Config := do
  match Toml.parse? s with
  | none => throw (.parse "not a document")
  | some v =>
    match decode "KilnConfig" wholeDocument v with
    | .error e => throw (.parse e.message)
    | .ok c =>
      -- a document that is well formed may still say what cannot be
      c.check
      return c

def fileName : Path := "kiln.toml"

/-- **Loads a configuration file.** -/
def loadFile (h : Host) (file : Path) : Except ConfigError Config := do
  let text ← (h.readText file).mapError .file
  let c ← ofText text
  return match file.parent? with
    -- relative paths start at the directory of the file, wherever the program runs
    | some base => c.resolvePaths base
    | none => c

def load (h : Host) (dir : Path) : Except ConfigError Config := loadFile h (dir / fileName)

end Config

end Recompile

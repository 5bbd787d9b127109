import Recompile.Bridge.Bootstrap
import Recompile.Bridge.Key
import Recompile.Bridge.Resolution
import Recompile.Jar.Archive
import Recompile.Toolchain.Coordinates

/-!
# The cache of compiled bridges

A bridge connects a build to one compiler version and takes long to compile, so its jar is kept in a
directory that builds share. Only when the jar is not there, the sources of the bridge are resolved, unpacked,
compiled against what they depend on and the jars of the toolchain, and packaged. Sources and class files lie
in scratch directories meanwhile, which are gone afterwards whatever happens.
-/

namespace Recompile

/-- **The cache of a build.** -/
structure BridgeCache where
  /-- The directory of the jars. -/
  dir : Path
  /-- The engine release that bridges are built for. -/
  engine : EngineRelease
  /-- The version of the class files that the runtime accepts. -/
  classVersion : String
  /-- The jars that this cache has built. -/
  built : SingleFlight BridgeKey Path := ∅

/-- What a cache builds bridges with. -/
structure BridgeTools (σ : Type) where
  resolver : Resolver σ
  compiler : BootstrapCompiler σ

namespace BridgeCache

variable {σ α : Type}

/-! ### Keys -/

def keyForVersion (c : BridgeCache) (toolchain : Toolchain) (coordinates : Coordinates) (version : String) :
    BridgeKey where
  group := coordinates.bridgeGroup
  artifact := coordinates.bridgeArtifact toolchain.version
  version := version
  compiler := toolchain.versionText
  classVersion := c.classVersion
  timestamp := c.engine.timestamp

/-- The key of the bridge that belongs to the engine release. -/
def keyFor (c : BridgeCache) (toolchain : Toolchain) (coordinates : Coordinates) : BridgeKey :=
  c.keyForVersion toolchain coordinates (coordinates.bridgeVersion toolchain.version c.engine.version)

def jar (c : BridgeCache) (key : BridgeKey) : Path := c.dir / ⟨key.fileName⟩

/-! ### Building -/

def sourcesOf (key : BridgeKey) : Artifact := ⟨key.group, key.artifact, key.version, some "sources"⟩

/-- The paths of a list without those that occurred before, be it in `seen`. -/
def distinct (seen : List Path) : List Path → List Path
  | [] => []
  | p :: rest => if seen.any (· == p) then distinct seen rest else p :: distinct (p :: seen) rest

/-- The classpath of the bootstrap compile: what the sources depend on and nobody provides, then the jars of
the toolchain, each once. -/
def classpath (resolved : List ResolvedArtifact) (toolchain : Toolchain) : List Path :=
  distinct [] (((resolved.filter fun r => r.scope != .provided).map ResolvedArtifact.path) ++ toolchain.jars)

/-- Works in a new directory that is removed afterwards. -/
def withScratch (name : Path) (work : Path → Action (Session σ) BridgeError α) :
    Action (Session σ) BridgeError α := do
  let temp := (← get).host.temp
  let dir := temp / name
  Session.onHost (Host.change (fun fault => .file temp (fault.atPath dir)) fun files cwd => files.makeDir cwd dir)
  -- the work may fail, and the directory is removed all the same
  let result ← (work dir).outcome
  modify fun s => { s with host := { s.host with files := remove s.host dir } }
  match result with
  | .ok x => return x
  | .error e => throw e
where
  remove (h : Host) (dir : Path) : Files :=
    match h.files.removeTree h.cwd dir with
    | .ok files => files
    | .error _ => h.files

/-- Whether a path leads to a source that the compiler takes. -/
def isSource (h : Host) (p : Path) : Bool :=
  h.isFile p && (p.extension? == some "scala" || p.extension? == some "java")

/-- Compiles the sources in one directory and packages the class files from another. -/
def compileAndPackage (compiler : BootstrapCompiler σ) (toolchain : Toolchain) (mainClass version : String)
    (classpath : List Path) (archive dest sourcesDir classesDir : Path) :
    Action (Session σ) BridgeError Unit := do
  -- how many members were unpacked does not matter
  discard <| Session.onHost (Jar.unzip archive sourcesDir)
  let sources ← Session.onHost (Host.ask (.file sourcesDir) fun h => h.list sourcesDir (isSource h))
  compiler { toolchain, mainClass, sources, classpath, output := classesDir, options := [] }
  -- the jar is written in one step, so no half of it is ever found
  Session.onHost (Jar.package classesDir (.forBridge version) dest)

def build (tools : BridgeTools σ) (toolchain : Toolchain) (coordinates : Coordinates) (key : BridgeKey)
    (dest : Path) : Action (Session σ) BridgeError Unit := do
  let archive ← tools.resolver.resolve (sourcesOf key)
  let resolved ← tools.resolver.closure (sourcesOf key)
  withScratch "kiln-compiler-bridge-sources" fun sourcesDir =>
    withScratch "kiln-compiler-bridge-classes" fun classesDir =>
      compileAndPackage tools.compiler toolchain coordinates.mainClass key.version
        (classpath resolved toolchain) archive dest sourcesDir classesDir

/-- Builds a jar for the first time, and says so. -/
def install (tools : BridgeTools σ) (toolchain : Toolchain) (coordinates : Coordinates) (key : BridgeKey)
    (dest : Path) : Action (Session σ) BridgeError Path := do
  Session.onHost (Host.report (.info "Compiler bridge file is not installed yet"))
  build tools toolchain coordinates key dest
  Session.onHost (Host.report (.info "Compiler bridge installed"))
  return dest

/-- Builds a jar that has been deleted since it was built. -/
def reinstall (tools : BridgeTools σ) (toolchain : Toolchain) (coordinates : Coordinates) (key : BridgeKey)
    (dest : Path) : Action (Session σ) BridgeError Path := do
  build tools toolchain coordinates key dest
  return dest

/-- **The jar of a key, built if it is not there.** -/
def ensure (c : BridgeCache) (tools : BridgeTools σ) (toolchain : Toolchain) (coordinates : Coordinates)
    (key : BridgeKey) : StateM (Session σ) (Except BridgeError Path × BridgeCache) := do
  let dest := c.jar key
  modify fun s => { s with host := s.host.logged (.info ("Compiler bridge file: " ++ dest.spelling)) }
  -- a jar on the disk is taken without a look at the table
  if (← get).host.isFile dest then return (.ok dest, c)
  let (result, built) ← c.built.getOrInit key (install tools toolchain coordinates key dest).run
  let c := { c with built }
  match result with
  | .error e => return (.error e, c)
  | .ok jar =>
    -- the table may hold a jar that somebody deleted: it is forgotten and built anew
    if (← get).host.isFile jar then return (.ok jar, c)
    let (result, built) ←
      (c.built.forget key).getOrInit key (reinstall tools toolchain coordinates key dest).run
    return (result, { c with built })

end BridgeCache

end Recompile

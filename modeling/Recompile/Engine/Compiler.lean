import Recompile.CompileOrder
import Recompile.Diagnostic.Basic
import Recompile.Digest
import Recompile.Engine.Error
import Recompile.Session
import Recompile.Toolchain.Provisioning

/-!
# The compiler under control

The engine decides what is compiled and leaves the compiling to a `SourceCompiler`. One request names the
sources of a batch; the answer has a unit for every source that the compiler wants to account for, and the
diagnostics in the order in which they arose. Errors in the sources are diagnostics. The compiler fails only
if it could not be run.

Nothing is assumed of a compiler: it may read and write any file of the machine, keep a state, leave out
units, and report units for sources that it was not asked to compile.
-/

namespace Recompile

/-- **The compilers of a build:** the toolchain and the bridge that drives it. -/
structure Compilers where
  toolchain : Toolchain
  bridge : Path

/-- **What to compile and how.** -/
structure CompileOptions where
  /-- The classpath, the output directory first. -/
  classpath : List Path
  /-- All sources of the module. -/
  sources : List Path
  output : Path
  scalacOptions : List String
  javacOptions : List String
  order : CompileOrder

/-- **One batch of sources for the compiler.** -/
structure CompileRequest where
  sources : List Path
  classpath : List Path
  output : Path
  scalacOptions : List String
  javacOptions : List String
deriving BEq

def CompileOptions.request (o : CompileOptions) (batch : List Path) : CompileRequest :=
  ⟨batch, o.classpath, o.output, o.scalacOptions, o.javacOptions⟩

/-- **A class that the compiler wrote.** -/
structure CompiledClass where
  name : String
  /-- The class file, relative to the output directory. -/
  file : Path
  /-- The digest of the API. -/
  api : Digest

/-- **What the compiler made of a source.** -/
structure CompiledUnit where
  source : Path
  classes : List CompiledClass
  /-- The classes that the source refers to. -/
  references : SortedSet String

/-- **The answer to a request.** -/
structure CompilerOutput where
  units : List CompiledUnit := []
  diagnostics : List Diagnostic := []

/-- **A compiler.** It works on the machine and may keep a state of its own. -/
abbrev SourceCompiler (σ : Type) := Compilers → CompileRequest → Action (Session σ) EngineError CompilerOutput

/-- A compiler that also notes what it was asked for. -/
def SourceCompiler.recording {σ : Type} (c : SourceCompiler σ) :
    SourceCompiler (σ × List (Compilers × CompileRequest)) := fun compilers request => do
  modify fun s => { s with tool := (s.tool.1, s.tool.2 ++ [(compilers, request)]) }
  Action.onPart (fun s => ⟨s.host, s.tool.1⟩) (fun t s => ⟨t.host, (t.tool, s.tool.2)⟩) (c compilers request)

end Recompile

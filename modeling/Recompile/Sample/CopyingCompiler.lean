import Recompile.Bridge.Bootstrap

/-!
# A bootstrap compiler that copies

The class file of a source is the source itself. A source that starts with the word `error` cannot be
compiled, for the reason that follows the word.
-/

namespace Recompile

namespace CopyingCompiler

/-- The reason in a source that cannot be compiled. -/
def reason? (text : String) : Option String :=
  let mark := "error ".toList
  if mark.isPrefixOf text.toList then some (String.ofList (text.toList.drop mark.length)) else none

def compileSource (output source : Path) : Action Host BridgeError Unit := do
  let data ← Host.ask (.file source) fun h => h.read source
  match reason? (Bytes.toStringLossy data) with
  | some reason => throw (.bootstrap reason)
  | none =>
    let dir := output / "xsbt"
    Host.makeDirAll (.file dir) dir
    let path := dir / ⟨source.fileStem?.getD "" ++ ".class"⟩
    Host.change (.file path) fun files cwd => files.write cwd path data

def compileSources (output : Path) : List Path → Action Host BridgeError Unit
  | [] => return
  | source :: rest => do
    compileSource output source
    compileSources output rest

/-- **The compiler.** -/
def compiler {σ : Type} : BootstrapCompiler σ := fun r => Session.onHost (compileSources r.output r.sources)

end CopyingCompiler

end Recompile

import Recompile.ClassName
import Recompile.Engine.Compiler
import Recompile.Text.Line
import Recompile.Text.Space

/-!
# A compiler for sources made of lines

A small compiler with everything in it that an incremental build can stumble over. The first word of a line of
a source says what the line does:

* `class N A`: the class `N`, with the line as its file and the API `A`;
* `sig N T`: a class whose API is made of `T` and of the classes that follow it as references;
* `ref N`: a reference to a class;
* `error`, `warning` and `info`: a diagnostic with the rest of the line as its message;
* `crash`: the compiler cannot go on;
* `nounit`: there is no unit for the source; `as P`: the unit claims to be for the source `P`.

The classes of `sig` lines are written when all sources of the batch are read. The text of such a class is
that of its line followed by the texts of its references, so its API changes when theirs do.
-/

namespace Recompile

namespace LineCompiler

/-- **A class whose API depends on other classes.** -/
structure Signature where
  /-- The source that declares it. -/
  source : Path
  token : String
  references : List String := []

/-- What is known of a source while its lines are read. -/
structure Draft where
  unit : CompiledUnit
  /-- The signature to which references are added. -/
  current : Option String := none
  /-- Whether the source has a unit. -/
  kept : Bool := true

/-- What is known of a batch while its sources are read. -/
structure Batch where
  output : Path
  signatures : SortedMap String Signature := ∅
  units : List CompiledUnit := []
  diagnostics : List Diagnostic := []

/-! ### Lines -/

def writeClass (output : Path) (name text : String) : Action Host EngineError Unit := do
  let path := output / ⟨ClassName.file name⟩
  if let some parent := path.parent? then
    Host.makeDirAll (.file path) parent
  Host.change (.file path) fun files cwd => files.write cwd path (Bytes.ofString text)

def compiledClass (name api : String) : CompiledClass := ⟨name, ⟨ClassName.file name⟩, Digest.ofString api⟩

/-- The severity of the diagnostics that a word reports. -/
def severity? : String → Option Severity
  | "error" => some .error
  | "warning" => some .warning
  | "info" => some .info
  | _ => none

def readLine (b : Batch) (d : Draft) (source : Path) (number : Nat) (line : String) :
    Action Host EngineError (Batch × Draft) := do
  match Text.words line with
  | [] => return (b, d)
  | word :: args =>
    let first := args.headD ""
    let second := args.tail.headD ""
    match word, severity? word with
    | _, some severity =>
      let position : Position := ⟨some source, some number, some 1, some line⟩
      return ({ b with diagnostics := b.diagnostics ++ [⟨severity, " ".intercalate args, position⟩] }, d)
    | "class", _ =>
      writeClass b.output first line
      let unit := { d.unit with classes := d.unit.classes ++ [compiledClass first second] }
      return (b, { d with unit, current := none })
    | "sig", _ =>
      return ({ b with signatures := b.signatures.insert first { source, token := second } },
        { d with current := some first })
    | "ref", _ =>
      let d := { d with unit := { d.unit with references := d.unit.references.add first } }
      match d.current.bind fun name => (b.signatures.get? name).map fun s => (name, s) with
      | none => return (b, d)
      | some (name, s) =>
        let s := { s with references := s.references ++ [first] }
        return ({ b with signatures := b.signatures.insert name s }, d)
    | "crash", _ => throw (.compiler (" ".intercalate args))
    | "nounit", _ => return (b, { d with kept := false })
    | "as", _ => return (b, { d with unit := { d.unit with source := ⟨first⟩ } })
    | _, _ => return (b, d)

def readLines (source : Path) :
    (number : Nat) → List String → Batch → Draft → Action Host EngineError (Batch × Draft)
  | _, [], b, d => return (b, d)
  | number, line :: rest, b, d => do
    let (b, d) ← readLine b d source number line
    readLines source (number + 1) rest b d

def readSources : List Path → Batch → Action Host EngineError Batch
  | [], b => return b
  | source :: rest, b => do
    let text ← Host.ask (.file source) fun h => h.readText source
    let (b, d) ← readLines source 1 (Text.lines text) b { unit := ⟨source, [], ∅⟩ }
    readSources rest (if d.kept then { b with units := b.units ++ [d.unit] } else b)

/-! ### Signatures -/

/-- The text of the file of a class that is no signature. -/
def storedText (h : Host) (output : Path) (name : String) : String :=
  (h.readText (output / ⟨ClassName.file name⟩)).toOption.getD ""

mutual

/-- The text of a class. A class whose text is being put together counts as its token alone; texts that are
finished are remembered. `depth` bounds how deep references are followed. -/
def text (h : Host) (b : Batch) : (depth : Nat) → (open_ : List String) → SortedMap String String → String →
    String × SortedMap String String
  | 0, _, known, _ => ("", known)
  | depth + 1, open_, known, name =>
    match known.get? name, b.signatures.get? name with
    | some t, _ => (t, known)
    | none, none =>
      let t := storedText h b.output name
      (t, known.insert name t)
    | none, some s =>
      if open_.contains name then (s.token, known)
      else
        let (parts, known) := texts h b depth (name :: open_) known s.references
        let t := s.token ++ String.join (parts.map fun part => "|" ++ part)
        (t, known.insert name t)

def texts (h : Host) (b : Batch) : (depth : Nat) → (open_ : List String) → SortedMap String String →
    List String → List String × SortedMap String String
  | _, _, known, [] => ([], known)
  | 0, _, known, _ => ([], known)
  | depth + 1, open_, known, name :: rest =>
    let (t, known) := text h b depth open_ known name
    let (ts, known) := texts h b depth open_ known rest
    (t :: ts, known)

end

/-- A depth that no chain of references in a batch exceeds. -/
def maxDepth (b : Batch) : Nat :=
  2 * b.signatures.values.foldl (fun n s => n + s.references.length + 2) 2

def addClass (source : Path) (c : CompiledClass) : List CompiledUnit → List CompiledUnit
  | [] => []
  | u :: rest =>
    if u.source == source then { u with classes := u.classes ++ [c] } :: rest else u :: addClass source c rest

def writeSignatures :
    List (String × Signature) → SortedMap String String → Batch → Action Host EngineError Batch
  | [], _, b => return b
  | (name, s) :: rest, known, b => do
    let (t, known) := text (← get) b (maxDepth b) [] known name
    writeClass b.output name t
    writeSignatures rest known { b with units := addClass s.source (compiledClass name t) b.units }

def compileBatch (r : CompileRequest) : Action Host EngineError CompilerOutput := do
  let b ← readSources r.sources { output := r.output }
  let b ← writeSignatures b.signatures.entries ∅ b
  return ⟨b.units, b.diagnostics⟩

/-- **The compiler.** -/
def compiler {σ : Type} : SourceCompiler σ := fun _ r => Session.onHost (compileBatch r)

end LineCompiler

end Recompile

import Recompile.Analysis.Error
import Recompile.Analysis.Setup
import Recompile.Codec
import Recompile.Host

/-!
# Analysis stores

The analysis of an output directory and its setup are kept in one file between two compiles. The file begins
with the length of its header. The header names the format, the version of the format, the version of the
program that wrote it and the digest of the payload; the payload is the contents. A file that is not exactly
of this form is refused and never taken for an empty store.

A store is replaced in one step, so that a reader finds the old contents or the new ones.
-/

namespace Recompile

namespace Store

/-! ### The written form -/

/-- The four bytes that every header starts with. -/
def magic : Bytes := [0x4B, 0x49, 0x4C, 0x4E]

/-- The version of the format that is written and read. -/
def formatVersion : Nat := 1

/-- The version of the program, as it is noted in headers. -/
def programVersion : String := "0.1.0"

/-- **What stands in front of the contents.** -/
structure Header where
  magic : Bytes
  formatVersion : Nat
  programVersion : String
  checksum : Digest

/-- The written form of headers. -/
def header : Codec Header :=
  ((Codec.raw 4).pair ((Codec.number 4).pair (Codec.text.pair Codec.digest))).via
    (fun h => (h.magic, h.formatVersion, h.programVersion, h.checksum))
    fun (magic, formatVersion, programVersion, checksum) =>
      some ⟨magic, formatVersion, programVersion, checksum⟩

/-- The written form of the record of a source. -/
def sourceInfo : Codec SourceInfo :=
  (Codec.digest.pair (Codec.text.set.pair (Codec.path.set.pair (Codec.text.table Codec.digest)))).via
    (fun s => (s.digest, s.classes, s.sourceDeps, s.binaryDeps))
    fun (digest, classes, sourceDeps, binaryDeps) => some { digest, classes, sourceDeps, binaryDeps }

/-- The written form of the record of a class. -/
def classInfo : Codec ClassInfo :=
  (Codec.path.pair (Codec.path.pair Codec.digest)).via (fun c => (c.source, c.classFile, c.api))
    fun (source, classFile, api) => some { source, classFile, api }

/-- The written form of an analysis. -/
def analysis : Codec Analysis :=
  ((Codec.path.table sourceInfo).pair (Codec.text.table classInfo)).via (fun a => (a.sources, a.classes))
    fun (sources, classes) => some { sources, classes }

def order : Codec CompileOrder := (Codec.number 4).via CompileOrder.code fun code => CompileOrder.all[code]?

/-- The written form of a setup. -/
def setup : Codec Setup :=
  (Codec.path.pair (Codec.text.pair (Codec.text.list.pair (Codec.text.list.pair order)))).via
    (fun s => (s.output, s.compiler, s.scalacOptions, s.javacOptions, s.order))
    fun (output, compiler, scalacOptions, javacOptions, order) =>
      some { output, compiler, scalacOptions, javacOptions, order }

/-- The written form of the contents of a store. -/
def contents : Codec Contents :=
  (analysis.pair setup).via (fun c => (c.analysis, c.setup)) fun (analysis, setup) => some ⟨analysis, setup⟩

def headerOf (payload : Bytes) : Header := ⟨magic, formatVersion, programVersion, Digest.ofBytes payload⟩

/-- **The bytes of a store.** -/
def encode (c : Contents) : Bytes :=
  let payload := contents.write c
  let head := header.write (headerOf payload)
  Codec.word.write head.length ++ head ++ payload

/-! ### Reading -/

/-- **What is wrong with a file that is no store.** -/
inductive Damage
  /-- The file ends in the length of its header. -/
  | tooShort (size : Nat)
  /-- The file ends in its header. -/
  | truncatedHeader
  /-- The header has another form. -/
  | unreadableHeader
  /-- The header does not start like one. -/
  | wrongMagic
  /-- The file has another version of the format. -/
  | wrongVersion (formatVersion : Nat) (programVersion : String)
  /-- The payload is not the one that was written. -/
  | wrongChecksum (expected actual : Digest)
  /-- The payload has another form. -/
  | unreadablePayload
deriving DecidableEq

def Damage.message : Damage → String
  | tooShort size => "file is " ++ toString size ++ " bytes, too short for a header"
  | truncatedHeader => "truncated header"
  | unreadableHeader => "unreadable header: unexpected data"
  | wrongMagic => "bad magic bytes"
  | wrongVersion format program =>
    "format version " ++ toString format ++ " written by kiln " ++ program ++ ", expected "
      ++ toString formatVersion
  | wrongChecksum expected actual =>
    "checksum mismatch: expected " ++ expected.toHex ++ ", got " ++ actual.toHex
  | unreadablePayload => "unreadable payload: unexpected data"

def Header.check (h : Header) (payload : Bytes) : Except Damage Unit :=
  if h.magic ≠ Store.magic then .error .wrongMagic
  else if h.formatVersion ≠ Store.formatVersion then .error (.wrongVersion h.formatVersion h.programVersion)
  else
    -- the payload is looked at only in a file of this version
    let actual := Digest.ofBytes payload
    if actual ≠ h.checksum then .error (.wrongChecksum h.checksum actual) else .ok ()

/-- The bytes of the header and of the payload of a file. -/
def split (file : Bytes) : Except Damage (Bytes × Bytes) :=
  match Codec.word.read file with
  | none => .error (.tooShort file.length)
  | some (n, rest) =>
    match Codec.take? n rest with
    | none => .error .truncatedHeader
    -- what follows the header is the payload, however long it is
    | some parts => .ok parts

/-- **The contents of a store,** or what is wrong with the file. -/
def decode (file : Bytes) : Except Damage Contents := do
  let (head, payload) ← split file
  match header.read head with
  | none => .error .unreadableHeader
  -- bytes behind the fields of a header are not looked at
  | some (h, _) =>
    h.check payload
    match contents.read payload with
    | none => .error .unreadablePayload
    -- the check sum covers the whole payload, so nothing more is asked of its end
    | some (c, _) => .ok c

/-! ### Files -/

def exists? (h : Host) (path : Path) : Bool := h.isFile path

/-- **Reads a store.** A file that does not exist holds nothing; one that is no store is an error. -/
def load (path : Path) : Action Host AnalysisError (Option Contents) := do
  match (← get).read path with
  | .error fault =>
    if fault.kind = .notFound then
      Host.report (.debug "no previous analysis" [("store", path.spelling)])
      return none
    else throw (.file path fault)
  | .ok file =>
    match decode file with
    | .error damage => throw (.corrupt path damage.message)
    | .ok c =>
      Host.report (.debug "loaded previous analysis"
        [("store", path.spelling), ("sources", toString c.analysis.sources.size)])
      return some c

/-- **Replaces the contents of a store.** -/
def commit (path : Path) (c : Contents) : Action Host AnalysisError Unit := do
  Host.writeAtomically (.file path) path (encode c)
  Host.report (.debug "committed analysis" [("store", path.spelling)])

end Store

end Recompile

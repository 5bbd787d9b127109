import Recompile.Archive.Zip.Opening
import Recompile.Archive.Zip.Writing
import Recompile.Bridge.Error
import Recompile.Jar.Manifest

/-!
# Jars

A jar is packaged from a directory: its manifest first, then everything below the directory in the order of
the paths, so that one directory always gives the same bytes. It is unpacked below a directory and never
outside of it: a member whose name would lead elsewhere is skipped.

Packaging reads the directory before it writes, and the finished jar takes its place in one step.
-/

namespace Recompile

namespace Jar

open Host

def manifestName : String := "META-INF/MANIFEST.MF"

def members (archive : Path) : Action Host BridgeError (List Zip.Member) := do
  match Zip.openAt (← get) archive with
  | .ok ms => return ms
  | .error (.file fault) => throw (.file archive fault)
  | .error (.format reason) => throw (.packaging archive reason)

/-! ### Unpacking -/

/-- Writes the contents of a member to a file, as far as they can be read. -/
def writeMember (target : Path) (contents : Zip.Contents) : Action Host BridgeError Unit := do
  if let some parent := target.parent? then
    makeDirAll (.file parent) parent
  change (.file target) fun files cwd => files.write cwd target contents.data
  -- the part that could be read stays on the disk
  if let some fault := contents.fault then
    throw (.file target fault)

/-- Unpacks one member below a directory, and returns the number of files that were written. -/
def extractMember (archive dest : Path) (m : Zip.Member) : Action Host BridgeError Nat := do
  match m.contents? with
  | none => throw (.packaging archive "unsupported Zip archive")
  | some contents =>
    match Zip.Member.enclosed? m.name with
    -- a name that leads out of the directory is passed over, but only if the member can be read at all
    | none => return 0
    | some relative =>
      let target := dest / relative
      if m.isDir then
        makeDirAll (.file target) target
        return 0
      else
        writeMember target contents
        return 1

/-- Unpacks members one after another, and returns the number of files that were written. -/
def extractAll (archive dest : Path) : List Zip.Member → Action Host BridgeError Nat
  | [] => return 0
  | m :: rest => do
    let written ← extractMember archive dest m
    return written + (← extractAll archive dest rest)

/-- **Unpacks an archive below a directory,** and returns the number of files that were written. -/
def unzip (archive dest : Path) : Action Host BridgeError Nat := do
  extractAll archive dest (← members archive)

/-! ### Packaging -/

/-- The item of one path below a directory, if it goes into the jar. -/
def item? (h : Host) (classes path : Path) : Except BridgeError (Option Zip.Item) :=
  match Path.entryName? classes path with
  | none => .ok none
  | some name =>
    -- the manifest that is written comes from the caller
    if name = manifestName then .ok none
    else if h.isDir path then .ok (some (.directory (name ++ "/")))
    else
      match h.read path with
      | .ok data => .ok (some (.file name data))
      | .error fault => .error (.file path fault)

/-- The items of some paths below a directory. -/
def items (h : Host) (classes : Path) : List Path → Except BridgeError (List Zip.Item)
  | [] => .ok []
  | path :: rest => do
    match ← item? h classes path with
    | some item => return item :: (← items h classes rest)
    | none => items h classes rest

/-- **Packages the contents of a directory into a jar.** -/
def package (classes : Path) (manifest : Manifest) (dest : Path) : Action Host BridgeError Unit := do
  -- listed before anything is made, read after it
  let paths ← ask (.file classes) fun h => h.list classes fun _ => true
  makeDirAll (.file dest) (stagingDir dest)
  let contents ← items (← get) classes paths
  let data := Zip.encode (.file manifestName manifest.bytes :: contents)
  change (.file dest) fun files cwd => files.replace cwd dest data

/-! ### Manifests -/

/-- The manifest of the jar at a path, if it has one. -/
def readManifest (archive : Path) : Action Host BridgeError (Option Manifest) := do
  match Zip.find? (← members archive) manifestName with
  | none => return none
  | some m =>
    match m.contents? with
    | none => throw (.packaging archive "unsupported Zip archive")
    -- half a manifest is none
    | some ⟨_, some fault⟩ => throw (.file archive fault)
    | some ⟨data, none⟩ =>
      match Bytes.toString? data with
      | some text => return some (Manifest.parse text)
      | none => throw (.file archive .notText)

end Jar

end Recompile

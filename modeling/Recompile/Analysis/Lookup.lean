import Recompile.Analysis.Layout
import Recompile.Analysis.Store
import Recompile.Archive.Zip.Opening
import Recompile.ClassName

/-!
# Entries of the classpath

What a module needs to know about the other modules it compiles against: for an output directory the
analysis that describes it, if the layout says where that is kept and it can be read, and for any entry
whether it defines a class and with which contents. An analysis that cannot be read counts as none. A
`Lookup` reads each store at most once.
-/

namespace Recompile

/-- What an entry of the classpath is on disk. -/
inductive EntryKind
  /-- A directory of class files. -/
  | directory
  /-- An archive of class files. -/
  | archive
  /-- Nothing, or a file that is no archive by its name. -/
  | missing
deriving DecidableEq, Repr

namespace EntryKind

def isArchiveName (entry : Path) : Bool :=
  match entry.extension? with
  | some e => let e := Text.lowerAscii e; e == "jar" || e == "zip"
  | none => false

def ofPath (h : Host) (entry : Path) : EntryKind :=
  if h.isDir entry then directory
  else if h.isFile entry ∧ isArchiveName entry then archive
  else missing

end EntryKind

/-- **The class files of an entry.** -/
inductive ClassFiles
  /-- Those below a directory. -/
  | directory (root : Path)
  /-- Those in an archive, of which the names were read. -/
  | archive (path : Path) (names : SortedSet String)
  /-- There are none. -/
  | nothing

namespace ClassFiles

def defines (h : Host) (name : String) : ClassFiles → Bool
  | directory root => h.isFile (root / ⟨ClassName.file name⟩)
  | archive _ names => names.contains (ClassName.file name)
  | nothing => false

/-- The contents of a member of an archive, if they can be read to the end. -/
def memberData? (h : Host) (path : Path) (name : String) : Option Bytes := do
  let m ← Zip.find? (← Zip.openAt? h path) name
  let contents ← m.contents?
  -- data up to a damage are not taken for the whole
  if contents.fault.isNone then some contents.data else none

/-- The digest of the file for a class, if there is one and it can be read. -/
def fingerprint? (h : Host) (name : String) : ClassFiles → Option Digest
  | directory root => (h.read (root / ⟨ClassName.file name⟩)).toOption.map Digest.ofBytes
  | archive path names =>
    if names.contains (ClassName.file name) then (memberData? h path (ClassName.file name)).map Digest.ofBytes
    else none
  | nothing => none

def ofEntry {ε : Type} (entry : Path) : Action Host ε ClassFiles := do
  let h ← get
  match EntryKind.ofPath h entry with
  | .directory => return directory entry
  | .archive =>
    match Zip.openAt? h entry with
    | some ms => return archive entry (SortedSet.ofList (ms.map Zip.Member.name))
    | none =>
      -- an archive that cannot be read is an entry without classes
      Host.report (.debug "unreadable archive on classpath" [("entry", entry.spelling)])
      return nothing
  | .missing => return nothing

end ClassFiles

/-- **The analyses of other modules,** as far as somebody has asked for them. -/
structure Lookup where
  layout : Layout := .standard
  /-- The answers so far. -/
  loaded : SortedMap Path (Option Analysis) := ∅
deriving Inhabited

namespace Lookup

/-- Reads the analysis of an output directory, if there is one. -/
def readAnalysis {ε : Type} (layout : Layout) (entry : Path) : Action Host ε (Option Analysis) := do
  if !(← get).isDir entry then return none
  match layout.store? entry with
  | none => return none
  | some store =>
    match ← (Store.load store).outcome with
    | .ok contents? => return contents?.map Contents.analysis
    -- a damaged store of another module does not stop this one
    | .error e =>
      Host.report (.debug "ignoring unreadable analysis" [("entry", entry.spelling), ("err", e.message)])
      return none

/-- **The analysis of an entry,** and the look-up that remembers it. -/
def analysis {ε : Type} (l : Lookup) (entry : Path) : Action Host ε (Option Analysis × Lookup) := do
  match l.loaded.get? entry with
  | some known => return (known, l)
  | none =>
    -- an entry without an analysis is remembered as well
    let found ← readAnalysis l.layout entry
    return (found, { l with loaded := l.loaded.insert entry found })

end Lookup

end Recompile

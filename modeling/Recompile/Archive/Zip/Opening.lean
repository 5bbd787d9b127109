import Recompile.Archive.Zip.Reading
import Recompile.Host

/-!
# Opening archives

An archive on disk cannot be opened for one of two reasons: the file cannot be opened, or what it holds is no
archive. A directory counts as a file that holds no archive.
-/

namespace Recompile

namespace Zip

/-- **Why an archive cannot be opened.** -/
inductive OpenError
  /-- The file cannot be opened. -/
  | file (fault : Fault)
  /-- The file is no archive. -/
  | format (reason : String)

def openAt (h : Host) (path : Path) : Except OpenError (List Member) :=
  match h.files.lookup h.cwd path with
  | .error fault => .error (.file fault)
  | .ok (.file data _) =>
    match members? data with
    | some ms => .ok ms
    | none => .error (.format "invalid Zip archive")
  | .ok _ => .error (.format FaultKind.isADirectory.systemText)

/-- The members of the archive at a path, if it can be opened. -/
def openAt? (h : Host) (path : Path) : Option (List Member) := (openAt h path).toOption

def find? (ms : List Member) (name : String) : Option Member := ms.find? fun m => m.name == name

end Zip

end Recompile

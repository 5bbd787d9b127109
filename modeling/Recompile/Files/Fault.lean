import Recompile.Path
import Recompile.Text.Quoted

/-!
# Failures of file operations

A file operation fails with one of a few causes. Each has a number and a text that the operating system
gives it; two causes arise above the system, from text that is no UTF-8 and from names that no system call
accepts, and have a text of their own.
-/

namespace Recompile

/-- The causes for which a file operation fails. -/
inductive FaultKind
  | notFound
  | permissionDenied
  | resourceBusy
  | alreadyExists
  | notADirectory
  | isADirectory
  | invalidInput
  | invalidFilename
  | directoryNotEmpty
  | filesystemLoop
  | invalidData
  | unexpectedEof
  | unsupported
  | uncategorized
deriving DecidableEq, Repr

namespace FaultKind

def name : FaultKind → String
  | notFound => "NotFound"
  | permissionDenied => "PermissionDenied"
  | resourceBusy => "ResourceBusy"
  | alreadyExists => "AlreadyExists"
  | notADirectory => "NotADirectory"
  | isADirectory => "IsADirectory"
  | invalidInput => "InvalidInput"
  | invalidFilename => "InvalidFilename"
  | directoryNotEmpty => "DirectoryNotEmpty"
  | filesystemLoop => "FilesystemLoop"
  | invalidData => "InvalidData"
  | unexpectedEof => "UnexpectedEof"
  | unsupported => "Unsupported"
  | uncategorized => "Uncategorized"

def systemText : FaultKind → String
  | notFound => "No such file or directory (os error 2)"
  | permissionDenied => "Permission denied (os error 13)"
  | resourceBusy => "Device or resource busy (os error 16)"
  | alreadyExists => "File exists (os error 17)"
  | notADirectory => "Not a directory (os error 20)"
  | isADirectory => "Is a directory (os error 21)"
  | invalidInput => "Invalid argument (os error 22)"
  | invalidFilename => "File name too long (os error 36)"
  | directoryNotEmpty => "Directory not empty (os error 39)"
  | filesystemLoop => "Too many levels of symbolic links (os error 40)"
  | invalidData => "invalid data"
  | unexpectedEof => "unexpected end of file"
  | unsupported => "unsupported"
  | uncategorized => "Exec format error (os error 8)"

end FaultKind

/-- **A failed file operation:** its cause and the text that describes it. -/
structure Fault where
  kind : FaultKind
  text : String
deriving DecidableEq, Repr

namespace Fault

/-- A failure that the system reports. -/
def ofKind (kind : FaultKind) : Fault := ⟨kind, kind.systemText⟩

/-- A failure with the path at which it arose in its text. -/
def atPath (fault : Fault) (path : Path) : Fault :=
  { fault with text := fault.text ++ " at path " ++ Text.quoted path.spelling }

def zeroByte : Fault := ⟨.invalidInput, "file name contained an unexpected NUL byte"⟩

def notText : Fault := ⟨.invalidData, "stream did not contain valid UTF-8"⟩

end Fault

end Recompile

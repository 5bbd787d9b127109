import Recompile.Files.Fault
import Recompile.Path

/-!
# Failures of analysis stores
-/

namespace Recompile

/-- **Why a store cannot be read or written.** -/
inductive AnalysisError
  /-- The store is there and its contents cannot be decoded. -/
  | corrupt (path : Path) (reason : String)
  /-- A file operation failed. -/
  | file (path : Path) (fault : Fault)
  /-- The contents cannot be encoded. -/
  | serialization (reason : String)

def AnalysisError.message : AnalysisError → String
  | corrupt path reason => "corrupt analysis store " ++ path.spelling ++ ": " ++ reason
  | file path fault => "analysis store I/O error at " ++ path.spelling ++ ": " ++ fault.text
  | serialization reason => "serialization error: " ++ reason

end Recompile

import Recompile.Files.Fault
import Recompile.Path

/-!
# Failures of the incremental engine
-/

namespace Recompile

/-- **Why an incremental compile fails.** -/
inductive EngineError
  /-- The compiler reported errors; the diagnostics are in the sink. -/
  | failed (errors : Nat)
  /-- The compiler could not be run. -/
  | compiler (reason : String)
  /-- A source or a class file could not be read or removed. -/
  | file (path : Path) (fault : Fault)

def EngineError.message : EngineError → String
  | failed errors => "compilation failed with " ++ toString errors ++ " error(s)"
  | compiler reason => "compiler failure: " ++ reason
  | file path fault => "I/O error at " ++ path.spelling ++ ": " ++ fault.text

end Recompile

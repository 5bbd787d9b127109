import Recompile.Files.Fault
import Recompile.Toolchain.Error

/-!
# Failures of bridges
-/

namespace Recompile

/-- **Why a compiler bridge cannot be produced.** -/
inductive BridgeError
  /-- The sources of the bridge or one of its dependencies are not to be found. -/
  | resolution (artifact : String) (reason : String)
  /-- The sources could not be compiled. -/
  | bootstrap (reason : String)
  /-- The archive at a path could not be read or written. -/
  | packaging (path : Path) (reason : String)
  /-- A file operation failed. -/
  | file (path : Path) (fault : Fault)
  /-- The toolchain could not be provisioned. -/
  | toolchain (e : ToolchainError)

def BridgeError.message : BridgeError → String
  | resolution artifact reason => "failed to resolve " ++ artifact ++ ": " ++ reason
  | bootstrap reason => "compiler bridge compilation failed: " ++ reason
  | packaging path reason => "failed to package " ++ path.spelling ++ ": " ++ reason
  | file path fault => "bridge I/O error at " ++ path.spelling ++ ": " ++ fault.text
  | toolchain e => e.message

end Recompile

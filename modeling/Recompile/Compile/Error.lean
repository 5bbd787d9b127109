import Recompile.Analysis.Error
import Recompile.Bridge.Error
import Recompile.Diagnostic.Basic

/-!
# Failures of a compile

What a build is told when a compile, or the preparation for one, fails. Every failure of a part of the
library becomes one of these; `CompileError.stage` names the part.
-/

namespace Recompile

/-- **Why a compile or its preparation failed.** -/
inductive CompileError
  /-- An artifact of the toolchain does not exist or may not be read. -/
  | missing (path : Path)
  /-- The toolchain is described wrongly or is not readable. -/
  | invalidToolchain (reason : String)
  /-- The sources of the bridge or one of its dependencies are not to be found. -/
  | resolution (artifact : String) (reason : String)
  /-- The bridge could not be compiled. -/
  | bootstrap (reason : String)
  /-- The jar of the bridge could not be packaged. -/
  | packaging (path : Path) (reason : String)
  /-- The previous analysis is there and cannot be decoded. -/
  | corruptStore (path : Path) (reason : String)
  /-- The compiler reported errors or could not be run. -/
  | failed (diagnostics : List Diagnostic)
  /-- A file operation failed. -/
  | file (path : Path) (fault : Fault)

namespace CompileError

def message : CompileError → String
  | missing path => "toolchain artifact not found: " ++ path.spelling
  | invalidToolchain reason => "invalid toolchain: " ++ reason
  | resolution artifact reason => "failed to resolve " ++ artifact ++ ": " ++ reason
  | bootstrap reason => "compiler bridge compilation failed: " ++ reason
  | packaging path reason => "failed to package " ++ path.spelling ++ ": " ++ reason
  | corruptStore path reason => "corrupt analysis store " ++ path.spelling ++ ": " ++ reason
  | failed diagnostics =>
    "compilation failed with " ++ toString (diagnostics.filter Diagnostic.isError).length ++ " error(s)"
  | file path fault => "I/O error at " ++ path.spelling ++ ": " ++ fault.text

/-- The part that failed. -/
def stage : CompileError → String
  | missing _ | invalidToolchain _ => "toolchain"
  | resolution .. | bootstrap _ | packaging .. => "bridge"
  | corruptStore .. => "analysis"
  | failed _ => "compile"
  | file .. => "io"

/-- The failure of a compile for which a toolchain cannot be provisioned. -/
def ofToolchain : ToolchainError → CompileError
  | .missing path => missing path
  | e => invalidToolchain e.message

/-- The failure of a compile for which a bridge cannot be produced. -/
def ofBridge : BridgeError → CompileError
  | .resolution artifact reason => resolution artifact reason
  | .bootstrap reason => bootstrap reason
  | .packaging path reason => packaging path reason
  | .file path fault => file path fault
  | .toolchain e => ofToolchain e

/-- The failure of a compile whose store cannot be read or written. -/
def ofAnalysis : AnalysisError → CompileError
  | .corrupt path reason => corruptStore path reason
  | .file path fault => file path fault
  | .serialization reason => file ⟨""⟩ ⟨.invalidData, reason⟩

end CompileError

end Recompile

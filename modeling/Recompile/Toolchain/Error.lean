import Recompile.Path

/-!
# Failures of toolchains
-/

namespace Recompile

/-- **Why a toolchain cannot be provisioned.** -/
inductive ToolchainError
  /-- An artifact does not exist or may not be read. -/
  | missing (path : Path)
  /-- An artifact exists and is no readable archive. -/
  | archive (path : Path) (reason : String)
  /-- A text that is no compiler version. -/
  | invalidVersion (version : String)

def ToolchainError.message : ToolchainError → String
  | missing path => "toolchain artifact not found: " ++ path.spelling
  | archive path reason => "failed to read toolchain archive " ++ path.spelling ++ ": " ++ reason
  | invalidVersion version => "invalid compiler version '" ++ version ++ "'"

end Recompile

import Recompile.Files.Fault

/-!
# Failures of configurations
-/

namespace Recompile

/-- **Why a configuration cannot be used.** -/
inductive ConfigError
  /-- The file cannot be read. -/
  | file (fault : Fault)
  /-- The file is no document, or one of the wrong shape. -/
  | parse (reason : String)
  /-- A value that must be there is not, or is blank. -/
  | missing (field : String)
  /-- A value is not allowed. -/
  | invalid (reason : String)
deriving DecidableEq, Repr

def ConfigError.message : ConfigError → String
  | file fault => "failed to read configuration: " ++ fault.text
  | parse reason => "failed to parse configuration: " ++ reason
  | missing field => "missing required field: " ++ field
  | invalid reason => "validation error: " ++ reason

end Recompile

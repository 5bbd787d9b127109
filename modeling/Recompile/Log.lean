/-!
# Log events

Everything a build does that its caller may want to follow is reported as an event with a level, a message
and named values. Events are part of the behaviour of the library: which ones a step emits, and in which
order, is fixed.
-/

namespace Recompile

/-- How important an event is. -/
inductive Level
  | error
  | warn
  | info
  | debug
deriving DecidableEq, Repr

def Level.name : Level → String
  | error => "ERROR"
  | warn => "WARN"
  | info => "INFO"
  | debug => "DEBUG"

/-- **Something that happened during a build.** -/
structure Event where
  level : Level
  message : String
  /-- The named values of the event, as text. -/
  fields : List (String × String) := []
deriving DecidableEq, Repr

namespace Event

/-- An event that only matters when looking for a fault. -/
def debug (message : String) (fields : List (String × String) := []) : Event := ⟨.debug, message, fields⟩

/-- An event about the progress of a build. -/
def info (message : String) (fields : List (String × String) := []) : Event := ⟨.info, message, fields⟩

def line (e : Event) : String :=
  e.level.name ++ " " ++ e.message ++ String.join (e.fields.map fun (name, value) => " " ++ name ++ "=" ++ value)

end Event

end Recompile

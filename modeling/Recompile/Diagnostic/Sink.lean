import Recompile.Diagnostic.Basic
import Recompile.Log

/-!
# The sink of a compile

A compile collects the diagnostics of all its rounds in one sink. The sink counts every error and every
warning it is given, and stores what it is given except the errors beyond its limit, so that a cascade of
follow-up errors does not flood the output. Taking the stored diagnostics empties the store and leaves the
counts alone; a compile has failed as soon as one error was reported, stored or not.
-/

namespace Recompile

/-- **The diagnostics of one compile.** -/
structure Sink where
  /-- The number of errors that are stored at most. -/
  maxErrors : Nat
  /-- The stored diagnostics in the order in which they came. -/
  stored : List Diagnostic := []
  errors : Nat := 0
  warnings : Nat := 0

namespace Sink

/-- The limit of a sink for which none is given. -/
def defaultMaxErrors : Nat := 100

def hasErrors (s : Sink) : Bool := 0 < s.errors

def event (d : Diagnostic) : Event :=
  match d.severity with
  | .error => ⟨.error, d.position.display ++ ": " ++ d.message, []⟩
  | .warning => ⟨.warn, d.position.display ++ ": " ++ d.message, []⟩
  | .info => ⟨.info, d.message, []⟩

/-- Whether the sink still stores a diagnostic. -/
def admits (s : Sink) (d : Diagnostic) : Bool := !d.isError || s.errors < s.maxErrors

def emit (s : Sink) (d : Diagnostic) : Sink :=
  { s with
    stored := if s.admits d then s.stored ++ [d] else s.stored
    -- an error that is not stored counts all the same
    errors := if d.isError then s.errors + 1 else s.errors
    warnings := if d.isWarning then s.warnings + 1 else s.warnings }

def emitted (s : Sink) (d : Diagnostic) : List Event := if s.admits d then [event d] else []

/-- Reports diagnostics in their order, with the events of each. -/
def emitAll (s : Sink) (ds : List Diagnostic) : Sink × List Event :=
  ds.foldl (fun acc d => (acc.1.emit d, acc.2 ++ acc.1.emitted d)) (s, [])

def takeAll (s : Sink) : List Diagnostic × Sink := (s.stored, { s with stored := [] })

end Sink

end Recompile

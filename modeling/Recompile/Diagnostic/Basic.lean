import Recompile.Path

/-!
# Diagnostics

What the compiler under control reports about the sources: a message with a severity and a position. A
position may be known to any degree, from nothing to a column, and is kept as the compiler gave it.
-/

namespace Recompile

/-- How bad a reported problem is. -/
inductive Severity
  /-- Chatter such as a note on progress. -/
  | info
  /-- A problem in spite of which class files are written. -/
  | warning
  /-- The compile failed. -/
  | error
deriving DecidableEq, Repr

namespace Severity

/-- The severities from harmless to fatal. -/
def rank : Severity → Nat
  | info => 0
  | warning => 1
  | error => 2

instance : Ord Severity := ⟨compareOn rank⟩

/-- The label in front of a message. -/
def label : Severity → String
  | info => "info"
  | warning => "warning"
  | error => "error"

/-- The name of a severity in reports of a compiler. -/
def name : Severity → String
  | info => "Info"
  | warning => "Warning"
  | error => "Error"

def ofName? (s : String) : Option Severity := [info, warning, error].find? fun v => v.name == s

/-- The terminal colour of the label. -/
def colour : Severity → String
  | info => "36"
  | warning => "33"
  | error => "31"

/-- The worse of two severities. -/
def worse (a b : Severity) : Severity := if a.rank ≤ b.rank then b else a

def worst? : List Severity → Option Severity
  | [] => none
  | s :: rest => some (rest.foldl worse s)

/-- Severities in ascending order. -/
def sort (l : List Severity) : List Severity := l.mergeSort fun a b => a.rank ≤ b.rank

end Severity

/-- **Where a diagnostic points.** Lines and columns count from one. -/
structure Position where
  source : Option Path := none
  line : Option Nat := none
  column : Option Nat := none
  /-- The text of the line. -/
  lineContent : Option String := none
deriving Inhabited

namespace Position

/-- The position about which nothing is known. -/
def unknown : Position := {}

/-- Whether neither the source nor the line is known. -/
def isUnknown (p : Position) : Bool := p.source.isNone && p.line.isNone

/-- The source with the line and the column as far as they are known; a column without a line is left
out. -/
def display (p : Position) : String :=
  let source := match p.source with
    | some s => s.spelling
    | none => "<unknown>"
  match p.line, p.column with
  | none, _ => source
  | some line, none => source ++ ":" ++ toString line
  | some line, some column => source ++ ":" ++ toString line ++ ":" ++ toString column

end Position

/-- **A message of the compiler.** -/
structure Diagnostic where
  severity : Severity
  message : String
  position : Position

namespace Diagnostic

/-- Whether the diagnostic fails a compile. -/
def isError (d : Diagnostic) : Bool := d.severity == .error

def isWarning (d : Diagnostic) : Bool := d.severity == .warning

end Diagnostic

end Recompile

import Recompile.Diagnostic.Basic

/-!
# Diagnostics on a terminal

A diagnostic is shown as its label and message, then its position if anything is known of it, then the
line it points into with a mark under the column, as far as the compiler supplied them.
-/

namespace Recompile

namespace Diagnostic

/-- The label of the severity, in its colour if colours are wanted. -/
def renderLabel (color : Bool) (s : Severity) : String :=
  if color then "\x1b[1;" ++ s.colour ++ "m" ++ s.label ++ "\x1b[0m" else s.label

def blanks (n : Nat) : String := String.ofList (List.replicate n ' ')

/-- The excerpt under the position: an empty line, the line of the source, and the mark. -/
def renderExcerpt (p : Position) : String :=
  match p.line, p.lineContent with
  | some line, some content =>
    let number := toString line
    let margin := blanks number.length
    let mark := match p.column with
      | some column => margin ++ " | " ++ blanks (column - 1) ++ "^\n"
      | none => ""
    margin ++ " |\n" ++ number ++ " | " ++ content ++ "\n" ++ mark
  | _, _ => ""

/-- **The text of a diagnostic.** -/
def render (color : Bool) (d : Diagnostic) : String :=
  let head := renderLabel color d.severity ++ ": " ++ d.message ++ "\n"
  if d.position.isUnknown then head
  else head ++ "  --> " ++ d.position.display ++ "\n" ++ renderExcerpt d.position

end Diagnostic

end Recompile

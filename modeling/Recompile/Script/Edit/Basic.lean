import Recompile.Script.Regex

/-!
# Programs that edit lines

A `sed` program is a list of commands. Each may have addresses, which say for which lines it is. Commands stand one
after another also where some are in braces: the opening brace knows the place behind the closing one, and a command
that branches knows the place of its label.
-/

namespace Recompile

namespace Script

namespace Edit

/-- **What is searched for.** Without expression it is what was searched for last. -/
structure Search where
  regex : Option Regex
  fold : Bool
deriving Repr

/-- **The place of lines.** -/
inductive Address
  | line (n : Nat)
  /-- Every so many lines after a first one. -/
  | stepped (first step : Nat)
  | last
  | fitting (s : Search)
  /-- So many lines after the first address. -/
  | further (count : Nat)
  /-- The line after the first address whose number is the next multiple. -/
  | multiple (n : Nat)
deriving Repr

/-- **How the case of letters changes** in a replacement. -/
inductive CaseChange
  | upper
  | lower
  | upperNext
  | lowerNext
  | stop
deriving DecidableEq, Repr

/-- **A piece of a replacement.** -/
inductive Piece
  | text (s : String)
  /-- The part that is replaced, or a group of it. -/
  | group (n : Nat)
  | case (c : CaseChange)
deriving Repr

/-- **A replacement** of parts of a line. -/
structure Substitution where
  search : Search
  pieces : List Piece
  every : Bool := false
  /-- The number of the first part that is replaced. -/
  which : Nat := 1
  shows : Bool := false
  file : Option String := none
deriving Repr

/-- **What a command does.** -/
inductive Action
  /-- The start of a block, with the place behind its end. -/
  | opening (exit : Nat)
  | closing
  | label (name : String)
  | append (text : String)
  | insert (text : String)
  | change (text : String)
  | branch (label : String)
  /-- Branches if something was replaced, or if nothing was. -/
  | branchIf (replaced : Bool) (label : String)
  | replace (s : Substitution)
  | exchange (table : List (Char × Char))
  | delete
  | deleteFirst
  | recall
  | recallMore
  | hold
  | holdMore
  | swap
  | print
  | printFirst
  | quit (silent : Bool) (status : Nat)
  | number
  | list (width : Option Nat)
  | next
  | nextMore
  | readFile (path : String)
  | readLine (path : String)
  | write (first : Bool) (path : String)
  | fileName
  | empty
deriving Repr

/-- **A command** with the lines that it is for. -/
structure Command where
  first : Option Address := none
  last : Option Address := none
  negated : Bool := false
  action : Action
deriving Repr

/-- **A program,** and whether it says itself that lines are not shown. -/
structure Program where
  commands : Array Command
  silent : Bool := false

def Program.placeOf? (p : Program) (label : String) : Option Nat :=
  p.commands.findIdx? fun c =>
    match c.action with
    | .label name => name == label
    | _ => false

end Edit

end Script

end Recompile

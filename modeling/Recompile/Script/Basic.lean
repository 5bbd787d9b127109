import Recompile.Text.Bytes

/-!
# Scripts

A program that a build starts may be a script for the shell. This module holds what a script is made of: words,
redirections and commands.

All texts in a script are strings of bytes: each character stands for the byte with its number. `Script.raw`
makes such a text of an ordinary one, and `Script.plain` is the way back.
-/

namespace Recompile

namespace Script

/-! ### Texts -/

def ofBytes (b : Bytes) : String := String.ofList (b.map fun b => Char.ofNat b.toNat)

def toBytes (s : String) : Bytes := s.toList.map fun c => UInt8.ofNat c.toNat

def raw (s : String) : String := ofBytes (Bytes.ofString s)

/-- The text that a string of bytes stands for. -/
def plain (s : String) : String := Bytes.toStringLossy (toBytes s)

/-! ### Syntax -/

/-- **What becomes of a word that goes with a parameter** and of the value of the parameter. -/
inductive Otherwise
  /-- The word stands for a missing value. -/
  | default
  /-- The word becomes the value where one is missing. -/
  | assign
  /-- The word is the complaint about a missing value. -/
  | require
  /-- The word stands for a value that is there. -/
  | alternative
deriving DecidableEq, Repr

mutual

/-- **A part of a word.** Only what is not quoted is split at blanks and read as a pattern. -/
inductive Part
  | text (s : String) (quoted : Bool)
  | parameter (name : String) (use : Use) (quoted : Bool)
  /-- What some commands print. -/
  | output (body : List Command) (quoted : Bool)
  /-- The value of an arithmetic expression. -/
  | arithmetic (expression : List Part) (quoted : Bool)

/-- **What is made of the value of a parameter.** -/
inductive Use
  | value
  | length
  /-- A word goes with the parameter. With `orEmpty` an empty value counts as missing. -/
  | otherwise (kind : Otherwise) (orEmpty : Bool) (word : List Part)
  /-- The value without what fits a pattern, at its end or its start. -/
  | trim (atEnd longest : Bool) (pattern : List Part)
  /-- Nothing that there is. -/
  | bad

/-- **A change of where input comes from or output goes to.** -/
inductive Redirection
  | input (descriptor : Nat) (path : List Part)
  /-- Output to a file, from its start. With `force` a file that must not be overwritten is. -/
  | output (descriptor : Nat) (force : Bool) (path : List Part)
  | append (descriptor : Nat) (path : List Part)
  | update (descriptor : Nat) (path : List Part)
  /-- One descriptor becomes the same as another, or is closed. -/
  | duplicate (descriptor : Nat) (source : List Part)
  /-- Input from the document with the given number. -/
  | document (descriptor : Nat) (number : Nat)

/-- **A command,** with the line it stands on where a complaint may name it. -/
inductive Command
  | simple (line : Nat) (assignments : List (String × List Part)) (words : List (List Part))
      (redirections : List Redirection)
  | pipeline (commands : List Command)
  | negation (command : Command)
  | both (first second : Command)
  | either (first second : Command)
  | background (command : Command)
  | choice (condition yes no : List Command)
  | select (line : Nat) (subject : List Part) (arms : List (List (List Part) × List Command))
  | loop (untilTrue : Bool) (condition body : List Command)
  /-- A loop for each of some words, or for each argument. -/
  | each (line : Nat) (name : String) (items : Option (List (List Part))) (body : List Command)
  | group (body : List Command)
  | subshell (line : Nat) (body : List Command)
  | define (line : Nat) (name : String) (body : Command)
  | redirected (line : Nat) (command : Command) (redirections : List Redirection)

end

/-- A word as it is written. -/
abbrev Word := List Part

/-- The text of a word that is written without quotes and parameters. -/
def plainWord? : Word → Option String
  | [] => some ""
  | .text s false :: rest => (plainWord? rest).map (s ++ ·)
  | _ => none

/-! ### Characters -/

def isNameStart (c : Char) : Bool := c.isAlpha || c == '_'

/-- Whether a character may stand in the name of a parameter. -/
def isNameChar (c : Char) : Bool := c.isAlphanum || c == '_'

/-- Whether a text is the name of a parameter. -/
def isName (s : String) : Bool :=
  match s.toList with
  | [] => false
  | c :: rest => isNameStart c && rest.all isNameChar

/-- The name and the rest of a text of the form `name=rest`. -/
def splitAssignment? (s : String) : Option (String × String) :=
  match s.toList.span (· != '=') with
  | (name, _ :: rest) =>
    if isName (String.ofList name) then some (String.ofList name, String.ofList rest) else none
  | _ => none

end Script

end Recompile

import Recompile.Script.Regex

/-!
# Programs over records

An `awk` program is a list of rules. Each has a pattern, which chooses records of the input, and commands that are
run for these. This module holds what such a program is made of.
-/

namespace Recompile

namespace Script

namespace Awk

/-- **An operation on two numbers.** -/
inductive Operation
  | add
  | subtract
  | multiply
  | divide
  | remainder
  | power
deriving DecidableEq, Repr

/-- **A comparison.** -/
inductive Comparison
  | less
  | atMost
  | equal
  | unequal
  | atLeast
  | greater
deriving DecidableEq, Repr

mutual

/-- **An expression.** -/
inductive Expr
  | number (x : Float)
  | text (s : String)
  /-- Whether the record has a part that fits, or the pattern itself where one is wanted. -/
  | pattern (r : Regex)
  | place (p : Place)
  /-- An expression in parentheses, to which nothing can be assigned. -/
  | grouped (a : Expr)
  | assign (operation : Option Operation) (target : Place) (value : Expr)
  /-- Counts a place up or down; the value is that from before or after. -/
  | count (up before : Bool) (target : Place)
  | operate (operation : Operation) (a b : Expr)
  | compare (comparison : Comparison) (a b : Expr)
  | negate (a : Expr)
  | plus (a : Expr)
  | not (a : Expr)
  | both (a b : Expr)
  | either (a b : Expr)
  | choose (condition yes no : Expr)
  | join (a b : Expr)
  | search (negated : Bool) (a pattern : Expr)
  | member (subscripts : List Expr) (array : String)
  /-- A function that the language has. -/
  | builtin (name : String) (args : List Expr)
  | call (name : String) (args : List Expr)
  /-- Takes a record from somewhere. -/
  | take (source : Source) (target : Option Place)

/-- **What has a value that can be changed.** -/
inductive Place
  | variable (name : String)
  | field (number : Expr)
  | element (array : String) (subscripts : List Expr)

/-- **Where records come from.** -/
inductive Source
  | input
  | file (path : Expr)
  | command (text : Expr)

end

/-- **Where output goes to,** other than the usual place. -/
inductive Destination
  | file (append : Bool)
  | command
deriving DecidableEq, Repr

/-- **A command of a program.** -/
inductive Statement
  | expr (e : Expr)
  | print (args : List Expr) (target : Option (Destination × Expr))
  | printf (args : List Expr) (target : Option (Destination × Expr))
  | choice (condition : Expr) (yes : Statement) (no : Option Statement)
  | loop (condition : Expr) (body : Statement)
  | repeated (body : Statement) (condition : Expr)
  | counted (start : Option Statement) (condition : Option Expr) (next : Option Statement) (body : Statement)
  | each (target array : String) (body : Statement)
  | block (body : List Statement)
  | next
  | nextFile
  | exit (status : Option Expr)
  | return (value : Option Expr)
  | break
  | continue
  | delete (array : String) (subscripts : Option (List Expr))

/-- **Which records a rule is for.** -/
inductive Choice
  | start
  | finish
  | always
  | when (condition : Expr)
  | range (first last : Expr)

/-- **A rule.** Without commands it prints the record. -/
structure Rule where
  choice : Choice
  body : Option (List Statement)

/-- **A function of a program.** -/
structure Function where
  name : String
  parameters : List String
  body : List Statement

/-- **A program.** -/
structure Program where
  rules : List Rule := []
  functions : List Function := []

end Awk

end Script

end Recompile

import Recompile.Text.Space

/-!
# The order of the two source languages

A module may hold Java and Scala sources. A compile takes them together or one language strictly before the
other; with a strict order the sources of the second language wait for a full pass over the first. The order
is part of the recorded setup of a compile, so a change of it recompiles everything.

An order has three spellings: the one of summaries (`CompileOrder.display`), the one of configuration files
(`CompileOrder.configName`), which is the only one accepted there, and those a caller may give, which are read
without regard to case and to the difference between `_` and `-` (`CompileOrder.parse`).
-/

namespace Recompile

/-- **Which language is compiled first.** -/
inductive CompileOrder
  /-- Both languages in one pass. -/
  | mixed
  /-- All Java sources, then all Scala sources. -/
  | javaThenScala
  /-- All Scala sources, then all Java sources. -/
  | scalaThenJava
deriving DecidableEq, Repr, Inhabited

/-- A name that is no compile order. -/
structure UnknownCompileOrder where
  /-- The rejected name, as it was given. -/
  name : String
deriving DecidableEq, Repr

/-- The text of the error. -/
def UnknownCompileOrder.message (e : UnknownCompileOrder) : String :=
  "unknown compile order '" ++ e.name ++ "' (expected mixed, java-then-scala or scala-then-java)"

namespace CompileOrder

/-- The spelling of summaries and logs. -/
def display : CompileOrder → String
  | mixed => "Mixed"
  | javaThenScala => "JavaThenScala"
  | scalaThenJava => "ScalaThenJava"

instance : ToString CompileOrder := ⟨display⟩

/-- The spelling of configuration files. -/
def configName : CompileOrder → String
  | mixed => "mixed"
  | javaThenScala => "java-then-scala"
  | scalaThenJava => "scala-then-java"

/-- All orders, in the order of their codes in a store. -/
def all : List CompileOrder := [mixed, javaThenScala, scalaThenJava]

def code : CompileOrder → Nat
  | mixed => 0
  | javaThenScala => 1
  | scalaThenJava => 2

/-- The order with the given spelling of configuration files. -/
def ofConfigName? (s : String) : Option CompileOrder := all.find? fun o => o.configName == s

/-- Every order is listed at the position of its code. -/
theorem all_getElem?_code (o : CompileOrder) : all[o.code]? = some o := by
  cases o <;> rfl

theorem ofConfigName?_configName (o : CompileOrder) : ofConfigName? o.configName = some o := by
  cases o <;> decide

/-- The order that a caller names. -/
def parse (s : String) : Except UnknownCompileOrder CompileOrder :=
  match (Text.lowerAscii s).map fun c => if c = '_' then '-' else c with
  | "mixed" => .ok mixed
  | "java-then-scala" | "javathenscala" => .ok javaThenScala
  | "scala-then-java" | "scalathenjava" => .ok scalaThenJava
  | _ => .error ⟨s⟩

end CompileOrder

end Recompile

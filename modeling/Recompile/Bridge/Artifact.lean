import Recompile.Path

/-!
# Artifacts of a repository

An artifact has a group, a name, a version and perhaps a classifier. In a repository on disk it lies in a
directory made of the segments of its group, its name and its version, in a file named after all but the
group.
-/

namespace Recompile

/-- **The coordinates of an artifact.** -/
structure Artifact where
  group : String
  artifact : String
  version : String
  /-- What sets the file apart from others of the same artifact, such as `sources`. -/
  classifier : Option String := none
deriving DecidableEq, Repr

/-- Where a dependency is needed. -/
inductive Scope
  /-- To compile and to run. -/
  | compile
  /-- Only to run. -/
  | runtime
  /-- Supplied by the environment. -/
  | provided
  /-- Only by tests. -/
  | test
  /-- Supplied from an explicit path. -/
  | system
deriving DecidableEq, Repr

namespace Scope

/-- The name of a scope in summaries. -/
def display : Scope → String
  | compile => "Compile"
  | runtime => "Runtime"
  | provided => "Provided"
  | test => "Test"
  | system => "System"

/-- The spelling of a scope in configuration files. -/
def configName : Scope → String
  | compile => "compile"
  | runtime => "runtime"
  | provided => "provided"
  | test => "test"
  | system => "system"

def all : List Scope := [compile, runtime, provided, test, system]

/-- The scope with the given spelling of configuration files. -/
def ofConfigName? (s : String) : Option Scope := all.find? fun o => o.configName == s

end Scope

namespace Artifact

/-- The coordinates separated by colons. -/
def display (a : Artifact) : String :=
  let base := a.group ++ ":" ++ a.artifact ++ ":" ++ a.version
  match a.classifier with
  | some c => base ++ ":" ++ c
  | none => base

def fileName (a : Artifact) : String :=
  match a.classifier with
  | some c => a.artifact ++ "-" ++ a.version ++ "-" ++ c ++ ".jar"
  | none => a.artifact ++ "-" ++ a.version ++ ".jar"

def groupSegments (a : Artifact) : List String := (a.group.toList.splitOn '.').map String.ofList

/-- **Where an artifact lies in the repository at a root.** -/
def path (root : Path) (a : Artifact) : Path :=
  let group := a.groupSegments.foldl (fun dir segment => dir / (⟨segment⟩ : Path)) root
  group / ⟨a.artifact⟩ / ⟨a.version⟩ / ⟨a.fileName⟩

end Artifact

end Recompile

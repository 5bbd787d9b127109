import Recompile.Text.Bytes
import Recompile.Text.Line

/-!
# Manifests

A manifest is a list of attributes, each a name and a value on a line of its own. It is written with a
carriage return before every line feed and an empty line at the end. Reading stops at the first empty line
and skips lines without the separator `: `; the name of an attribute ends at the first separator.
-/

namespace Recompile

/-- **The main section of a manifest.** -/
structure Manifest where
  /-- The attributes in their order. -/
  attributes : List (String × String)
deriving DecidableEq, Repr

namespace Manifest

def initial : Manifest := ⟨[("Manifest-Version", "1.0")]⟩

def add (m : Manifest) (name value : String) : Manifest := ⟨m.attributes ++ [(name, value)]⟩

def forBridge (version : String) : Manifest :=
  ((initial.add "Specification-Vendor" "org.scala-sbt").add "Specification-Title" "Compiler Bridge").add
    "Specification-Version" version

/-- The first value of an attribute. -/
def get? (m : Manifest) (name : String) : Option String :=
  (m.attributes.find? fun a => a.1 == name).map (·.2)

/-! ### Reading -/

/-- A line without all carriage returns at its end. -/
def dropReturns (line : List Char) : List Char := (line.reverse.dropWhile (· == '\r')).reverse

def splitLine : List Char → Option (List Char × List Char)
  -- a colon alone belongs to the name
  | ':' :: ' ' :: value => some ([], value)
  | c :: rest => (splitLine rest).map fun (name, value) => (c :: name, value)
  | [] => none

def parseLines (lines : List (List Char)) : List (String × String) :=
  -- the main part ends at the first empty line; a line without a separator is no attribute
  ((((lines.map dropReturns).takeWhile fun line => !line.isEmpty).filterMap splitLine)).map
    fun (name, value) => (String.ofList name, String.ofList value)

/-- **Reads a manifest.** -/
def parse (text : String) : Manifest := ⟨parseLines (Text.lineChars text.toList)⟩

/-! ### Writing -/

def text (m : Manifest) : String :=
  String.join (m.attributes.map fun (name, value) => name ++ ": " ++ value ++ "\r\n") ++ "\r\n"

def bytes (m : Manifest) : Bytes := Bytes.ofString m.text

end Manifest

end Recompile

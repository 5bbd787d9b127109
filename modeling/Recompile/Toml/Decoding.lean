import Recompile.Text.Quoted
import Recompile.Toml.Value

/-!
# Decoding documents

A program reads its configuration out of a document as a record of fields. `Decoder` gives the value that a
part of a document stands for, or says in what way it is of the wrong shape (`Mismatch`). The first fault in the
order of the document counts; fields that are missing are found last, in the order of the record. Keys that
are no field do not matter.

A record may also be written as an array with the fields in their order, which need not be complete as far as
the last ones have a value to fall back on.
-/

namespace Recompile

namespace Toml

/-- **In what way a value is of the wrong shape.** -/
inductive Mismatch
  /-- A field that must be there is not. -/
  | missing (field : String)
  /-- A text that is none of the names that may stand in its place. -/
  | variant (found : String) (names : List String)
  /-- A value of another kind. -/
  | kind (found expected : String)
  /-- A value of the right kind that is not allowed. -/
  | value (found expected : String)
  /-- An array that is too short for a record. -/
  | length (found : Nat) (expected : String)
  /-- A value that names nothing. -/
  | unnamed
deriving DecidableEq, Repr

def Mismatch.message : Mismatch → String
  | missing field => "missing field `" ++ field ++ "`"
  | variant found names =>
    "unknown variant `" ++ found ++ "`, expected one of "
      ++ ", ".intercalate (names.map fun n => "`" ++ n ++ "`")
  | kind found expected => "invalid type: " ++ found ++ ", expected " ++ expected
  | value found expected => "invalid value: " ++ found ++ ", expected " ++ expected
  | length found expected => "invalid length " ++ toString found ++ ", expected " ++ expected
  | unnamed => "wanted string or table"

/-- How messages refer to a value. -/
def Value.describe : Value → String
  | text s => "string " ++ Text.quoted s
  | integer n => "integer `" ++ toString n ++ "`"
  | decimal shown => "floating point `" ++ shown ++ "`"
  | boolean b => "boolean `" ++ toString b ++ "`"
  | moment _ => "map"
  | array _ => "sequence"
  | table _ => "map"

/-- **A way to read a part of a document.** -/
abbrev Decoder (α : Type) := Value → Except Mismatch α

/-! ### Simple values -/

def text : Decoder String
  | .text s => .ok s
  | v => .error (.kind v.describe "a string")

def path : Decoder String
  | .text s => .ok s
  | v => .error (.kind v.describe "path string")

def count : Decoder Nat
  | .integer n => if 0 ≤ n then .ok n.toNat else .error (.value (Value.integer n).describe "usize")
  | v => .error (.kind v.describe "usize")

def list (d : Decoder α) : Decoder (List α)
  | .array vs => vs.mapM d
  | v => .error (.kind v.describe "a sequence")

/-- The entries of a table whose values are of one type. -/
def entries (d : Decoder α) : Decoder (List (String × α)) := fun v =>
  match v.entries? with
  | some es => es.mapM fun (key, v) => do return (key, ← d v)
  | none => .error (.kind v.describe "a map")

/-- Whether a value is an array or a table without contents. -/
def Value.isVoid : Value → Bool
  | array vs => vs.isEmpty
  | table es => es.isEmpty
  | _ => false

/-- One of several names. A table with the name as its only key and nothing in it is another spelling. -/
def oneOf (choices : List (String × α)) : Decoder α := fun v =>
  let choose (name : String) : Except Mismatch α :=
    match choices.lookup name with
    | some x => .ok x
    | none => .error (.variant name (choices.map (·.1)))
  match v with
  | .text s => choose s
  | .table [(name, inner)] => do
    let x ← choose name
    if inner.isVoid then .ok x else .error .unnamed
  | _ => .error .unnamed

/-! ### Records -/

/-- **The fields of a record.** -/
structure Fields (α : Type) where
  /-- The names of the fields, each with the check of its value. -/
  checks : List (String × (Value → Except Mismatch Unit))
  /-- The record with the given values of fields, all of which have been checked. -/
  named : (String → Option Value) → Except Mismatch α
  /-- The record that the front of an array stands for, given how many elements came before. The length is
  the fault if it ends too early. -/
  positional : Nat → List Value → Except (Mismatch ⊕ Nat) (α × Nat × List Value)

namespace Fields

variable {α β : Type}

instance : Functor Fields where
  map f r :=
    { checks := r.checks
      named := fun look => f <$> r.named look
      positional := fun i vs => (fun (x, i, vs) => (f x, i, vs)) <$> r.positional i vs }

instance : Seq Fields where
  seq f x :=
    let x := x ()
    { checks := f.checks ++ x.checks
      named := fun look => do return (← f.named look) (← x.named look)
      positional := fun i vs => do
        let (f, i, vs) ← f.positional i vs
        let (x, i, vs) ← x.positional i vs
        return (f x, i, vs) }

/-- A field, with what stands for it where it is missing from a table and from an array. -/
def field (name : String) (d : Decoder α) (absent fallback : Option α) : Fields α where
  checks := [(name, fun v => discard (d v))]
  named look :=
    match look name, absent with
    | some v, _ => d v
    | none, some x => .ok x
    | none, none => .error (.missing name)
  positional i vs :=
    match vs, fallback with
    | v :: rest, _ =>
      match d v with
      | .ok x => .ok (x, i + 1, rest)
      | .error e => .error (.inl e)
    | [], some x => .ok (x, i, [])
    | [], none => .error (.inr i)

def required (name : String) (d : Decoder α) : Fields α := field name d none none

/-- A field with a value to fall back on. -/
def orElse (name : String) (d : Decoder α) (x : α) : Fields α := field name d (some x) (some x)

/-- A field that may be missing from a table. -/
def optional (name : String) (d : Decoder α) : Fields (Option α) :=
  field name (fun v => some <$> d v) (some none) none

/-- A field that may be missing. -/
def optionalLast (name : String) (d : Decoder α) : Fields (Option α) :=
  field name (fun v => some <$> d v) (some none) (some none)

/-- The number of fields in words. -/
def countText (r : Fields α) : String :=
  toString r.checks.length ++ (if r.checks.length = 1 then " element" else " elements")

/-- **Reads a record.** -/
def decode (name : String) (r : Fields α) : Decoder α := fun v =>
  match v with
  | .array vs =>
    match r.positional 0 vs with
    | .ok (x, _) => .ok x
    | .error (.inl e) => .error e
    | .error (.inr n) => .error (.length n ("struct " ++ name ++ " with " ++ r.countText))
  | v =>
    match v.entries? with
    | none => .error (.kind v.describe ("struct " ++ name))
    | some es => do
      for (key, v) in es do
        if let some check := r.checks.lookup key then check v
      r.named fun name => es.lookup name

end Fields

end Toml

end Recompile

import Recompile.Toml.Value

/-!
# Tables under construction

While a document is read its tables are open to different degrees. A table that a header names is complete
with the lines below the header; one that only lies on the way to such a table may still get a header of its
own; one that was made by a dotted key may only be extended by dotted keys. Defining anything twice is an
error.
-/

namespace Recompile

namespace Toml

/-- How a table came about. -/
inductive Origin
  /-- By its own header. -/
  | header
  /-- On the way to a table or to an array of tables. -/
  | passage
  /-- By a dotted key. -/
  | dotted
deriving DecidableEq, Repr

/-- **What a key of an open table holds.** -/
inductive Item
  | leaf (v : Value)
  | table (origin : Origin) (entries : List (String × Item))
  /-- The tables of an array, the one that is extended at the front. -/
  | tables (elements : List (List (String × Item)))

/-- The entries of an open table. -/
abbrev Entries := List (String × Item)

/-- Puts an item at a key, in place of the one that was there. -/
def Entries.put (es : Entries) (key : String) (item : Item) : Entries :=
  if es.any fun e => e.1 == key then es.map fun e => if e.1 == key then (key, item) else e
  else es ++ [(key, item)]

/-- Changes the table that a path leads to from a table of the given origin. Missing tables on the way are
made; what else is on the way must be open for it. -/
def Entries.update (dotted : Bool) (change : Origin → Entries → Option Entries) :
    List String → Origin → Entries → Option Entries
  | [], origin, es => change origin es
  | key :: path, _, es =>
    match es.lookup key with
    | none => do
      let fresh : Origin := if dotted then .dotted else .passage
      return es.put key (.table fresh (← Entries.update dotted change path fresh []))
    | some (.table origin inner) =>
      if dotted ∧ origin = .header then none
      else do return es.put key (.table origin (← Entries.update dotted change path origin inner))
    | some (.tables (last :: before)) => do
      return es.put key (.tables ((← Entries.update dotted change path .header last) :: before))
    | some (.tables []) | some (.leaf _) => none

/-- Adds the value of a key with the given path in front of its last part. -/
def Entries.define (es : Entries) (path : List String) (key : String) (v : Value) : Option Entries :=
  es.update true (fun origin inner =>
    if (origin == .dotted) == path.isEmpty then none
    else if inner.any fun e => e.1 == key then none
    else some (inner ++ [(key, .leaf v)])) path .header

mutual

def Item.value : Item → Value
  | .leaf v => v
  | .table _ entries => .table (values entries)
  | .tables elements => .array (elementValues elements).reverse

/-- The values of finished entries. -/
def values : List (String × Item) → List (String × Value)
  | [] => []
  | (key, item) :: rest => (key, item.value) :: values rest

/-- The values of the finished tables of an array. -/
def elementValues : List (List (String × Item)) → List Value
  | [] => []
  | es :: rest => .table (values es) :: elementValues rest

end

/-! ### The document -/

/-- What the header in force is. -/
inductive Header
  /-- There was none yet. -/
  | start
  | table (path : List String) (key : String)
  | element (path : List String) (key : String)

/-- **A document as far as it has been read.** -/
structure Draft where
  root : Entries := []
  header : Header := .start
  /-- The table that lines are added to. -/
  current : Entries := []

namespace Draft

/-- Puts the table that lines were added to in its place. -/
def finish (d : Draft) : Option Entries :=
  match d.header with
  | .start => some d.current
  | .table path key =>
    d.root.update false (fun _ es =>
      match es.lookup key with
      | none | some (.table .passage _) => some (es.put key (.table .header d.current))
      | _ => none) path .header
  | .element path key =>
    d.root.update false (fun _ es =>
      match es.lookup key with
      | none => some (es.put key (.tables [d.current]))
      | some (.tables elements) => some (es.put key (.tables (d.current :: elements)))
      | _ => none) path .header

/-- Begins the table of a header. One that was passed on the way to others keeps what it has. -/
def beginTable (d : Draft) (path : List String) (key : String) : Option Draft := do
  let root ← d.finish
  let root ← root.update false (fun _ es => some es) path .header
  let place (root : Entries) : Option Item := (find root path).bind fun es => es.lookup key
  match place root with
  | none => return { root, header := .table path key }
  | some (.table .passage entries) =>
    let root ← root.update false (fun _ es => some (es.filter fun e => e.1 != key)) path .header
    return { root, header := .table path key, current := entries }
  | some _ => none
where
  /-- The entries of the table at a path. -/
  find (es : Entries) : List String → Option Entries
    | [] => some es
    | key :: path =>
      match es.lookup key with
      | some (.table _ inner) => find inner path
      | some (.tables (last :: _)) => find last path
      | _ => none

/-- Begins a further table of an array. -/
def beginElement (d : Draft) (path : List String) (key : String) : Option Draft := do
  let root ← d.finish
  let root ← root.update false (fun _ es =>
    match es.lookup key with
    | none => some (es.put key (.tables []))
    | some (.tables _) => some es
    | _ => none) path .header
  return { root, header := .element path key }

/-- Adds a line to the table of the header in force. -/
def define (d : Draft) (path : List String) (key : String) (v : Value) : Option Draft := do
  return { d with current := ← d.current.define path key v }

end Draft

end Toml

end Recompile

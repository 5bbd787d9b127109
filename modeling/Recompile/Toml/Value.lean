import Recompile.Text.Decimal

/-!
# Values of a configuration document

The grammar of a document is that of TOML 1.0. A document is a table. Tables keep their keys in the order in
which they were defined, since of several faults the first one is reported. A number with a fraction is kept
as the text by which messages refer to it, and so are dates and times, in their normal form.
-/

namespace Recompile

namespace Toml

/-- **A value.** -/
inductive Value
  | text (s : String)
  | integer (n : Int)
  | decimal (shown : String)
  | boolean (b : Bool)
  | moment (shown : String)
  | array (elements : List Value)
  | table (entries : List (String × Value))

/-- The key under which a date is seen by readers that take it for a table. -/
def momentKey : String := "$__toml_private_datetime"

/-- The entries of a table. A date counts as a table with one entry. -/
def Value.entries? : Value → Option (List (String × Value))
  | table entries => some entries
  | moment shown => some [(momentKey, text shown)]
  | _ => none

end Toml

end Recompile

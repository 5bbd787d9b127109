import Recompile.Script.Basic

/-!
# Patterns

A pattern is a text in which an unquoted `*` stands for any text, `?` for any character and a bracket for one
of the characters in it. Every other character stands for itself.
-/

namespace Recompile

namespace Script

/-- A character of a word after its expansion, and whether it was quoted. -/
abbrev Marked := Char × Bool

/-- What may stand in a bracket. -/
inductive Member
  | single (c : Char)
  | range (first last : Char)
  | named (name : String)
deriving Repr

/-- **An element of a pattern.** -/
inductive Element
  | char (c : Char)
  | any
  | many
  | oneOf (negated : Bool) (members : List Member)
deriving Repr

def classNames : List String :=
  ["alpha", "digit", "alnum", "upper", "lower", "space", "blank", "punct", "print", "graph", "cntrl", "xdigit"]

def classHolds (name : String) (c : Char) : Bool :=
  match name with
  | "alpha" => c.isAlpha
  | "digit" => c.isDigit
  | "alnum" => c.isAlphanum
  | "upper" => c.isUpper
  | "lower" => c.isLower
  | "space" => " \t\n\x0b\x0c\r".toList.contains c
  | "blank" => c == ' ' || c == '\t'
  | "punct" => '!' ≤ c && c ≤ '~' && !c.isAlphanum
  | "print" => ' ' ≤ c && c ≤ '~'
  | "graph" => '!' ≤ c && c ≤ '~'
  | "cntrl" => c < ' ' || c == '\x7f'
  | "xdigit" => c.isDigit || ('a' ≤ c && c ≤ 'f') || ('A' ≤ c && c ≤ 'F')
  | _ => false

/-- Whether a character is meant by a member of a bracket. -/
def Member.holds (c : Char) : Member → Bool
  | single d => c == d
  | range first last => first ≤ c && c ≤ last
  | named name => classHolds name c

/-- The members of a bracket up to its end, and what follows; a bracket at the front stands for itself. `fuel`
bounds the number of members. -/
def bracket? : (fuel : Nat) → (isFirst : Bool) → List Marked → Option (List Member × List Marked)
  | 0, _, _ => none
  | _ + 1, _, [] => none
  | fuel + 1, isFirst, (']', false) :: rest =>
    if isFirst then (bracket? fuel false rest).map fun (ms, rest) => (.single ']' :: ms, rest)
    else some ([], rest)
  | fuel + 1, _, ('[', false) :: (':', false) :: rest =>
    let name := (rest.takeWhile fun m => m.1.isAlpha).map (·.1)
    match rest.drop name.length with
    | (':', _) :: (']', _) :: rest =>
      (bracket? fuel false rest).map fun (ms, rest) => (.named (String.ofList name) :: ms, rest)
    | _ => (bracket? fuel false ((':', false) :: rest)).map fun (ms, rest) => (.single '[' :: ms, rest)
  | fuel + 1, _, ('[', false) :: ('.', false) :: (c, _) :: ('.', _) :: (']', _) :: rest
  | fuel + 1, _, ('[', false) :: ('=', false) :: (c, _) :: ('=', _) :: (']', _) :: rest =>
    (bracket? fuel false rest).map fun (ms, rest) => (.single c :: ms, rest)
  | fuel + 1, _, (c, _) :: ('-', false) :: (d, quoted) :: rest =>
    if d == ']' && !quoted then
      (bracket? fuel false (('-', false) :: (d, quoted) :: rest)).map fun (ms, rest) => (.single c :: ms, rest)
    else (bracket? fuel false rest).map fun (ms, rest) => (.range c d :: ms, rest)
  | fuel + 1, _, (c, _) :: rest => (bracket? fuel false rest).map fun (ms, rest) => (.single c :: ms, rest)

/-- Whether a bracket lists what is not meant, and its text after the mark for that. -/
def negation : List Marked → Bool × List Marked
  | ('!', false) :: rest => (true, rest)
  | cs => (false, cs)

/-- The elements of a pattern; `fuel` bounds their number. -/
def elementsUpTo : (fuel : Nat) → List Marked → List Element
  | 0, _ => []
  | _, [] => []
  | fuel + 1, ('*', false) :: rest => .many :: elementsUpTo fuel rest
  | fuel + 1, ('?', false) :: rest => .any :: elementsUpTo fuel rest
  | fuel + 1, ('[', false) :: rest =>
    let (negated, inner) := negation rest
    match bracket? (inner.length + 1) true inner with
    | some (members, rest) => .oneOf negated members :: elementsUpTo fuel rest
    | none => .char '[' :: elementsUpTo fuel rest
  | fuel + 1, (c, _) :: rest => .char c :: elementsUpTo fuel rest

/-- **The elements of a pattern.** -/
def elements (cs : List Marked) : List Element := elementsUpTo cs.length cs

def Element.holds (c : Char) : Element → Bool
  | char d => c == d
  | any => true
  | many => false
  | oneOf negated members => (members.any (Member.holds c)) != negated

/-- **Whether a text fits a pattern.** -/
def fits : List Element → List Char → Bool
  | [], [] => true
  | [], _ :: _ => false
  | .many :: p, [] => fits p []
  | .many :: p, c :: cs => fits p (c :: cs) || fits (.many :: p) cs
  | _ :: _, [] => false
  | e :: p, c :: cs => e.holds c && fits p cs
termination_by p cs => p.length + cs.length

/-- Whether a word has anything but characters that stand for themselves in it. -/
def isPattern (cs : List Marked) : Bool := cs.any fun m => !m.2 && "*?[".toList.contains m.1

/-- What stands between the fields of a text of several fields. -/
def fieldMark : Char := '\x00'

def firstField (cs : List Char) : List Char := cs.takeWhile (· != fieldMark)

/-- A text without the part at its start that fits a pattern. Of several fields only the first one counts; with
`longest`, whatever is in front of the place where the search ends goes with it. -/
def dropFront (longest : Bool) (p : List Element) (cs : List Char) : List Char :=
  let sizes := if longest then (List.range (cs.length + 1)).reverse else List.range ((firstField cs).length + 1)
  match sizes.find? fun n => fits p (firstField (cs.take n)) with
  | some n => cs.drop n
  | none => cs

/-- A text without the part at its end that fits a pattern. Of several fields the one counts that starts at the
place in question, and what follows goes with it. -/
def dropBack (longest : Bool) (p : List Element) (cs : List Char) : List Char :=
  let sizes := if longest then List.range ((firstField cs).length + 1) else (List.range (cs.length + 1)).reverse
  match sizes.find? fun n => fits p (firstField (cs.drop n)) with
  | some n => cs.take n
  | none => cs

end Script

end Recompile

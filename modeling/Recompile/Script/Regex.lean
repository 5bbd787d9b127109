import Recompile.Script.Pattern

/-!
# Regular expressions

A regular expression in its basic form has backslashes in front of groups and bounds, in its extended form
backslashes make them ordinary. Of all parts of a text that fit, the one that starts first counts, and of those
the longest.
-/

namespace Recompile

namespace Script

/-- **A regular expression.** -/
inductive Regex
  | empty
  | char (c : Char)
  | any
  | oneOf (negated : Bool) (members : List Member)
  /-- The start of the text; with `each` also that of a line in it. -/
  | lineStart (each : Bool)
  | lineEnd (each : Bool)
  | textStart
  | textEnd
  /-- The place between a character of a word and another one, or one of its two kinds. -/
  | wordEdge (start finish : Bool)
  /-- A place that is no edge of a word. -/
  | noEdge
  | sequence (a b : Regex)
  | either (a b : Regex)
  | repeated (least : Nat) (most : Option Nat) (r : Regex)
  | group (number : Nat) (r : Regex)
  /-- What a group stood for. -/
  | back (number : Nat)
deriving Repr

/-- **Why a text is no regular expression.** -/
inductive RegexError
  | unmatchedOpening
  | unmatchedClosing
  | unmatchedBrace
  | unmatchedBracket
  /-- A bracket with nothing behind it. -/
  | openBracket
  | badBounds
  | tooLarge
  | badClass
  | badRange
  | nothingRepeated
  | badReference
  | lastBackslash
deriving DecidableEq, Repr

/-- What is wrong, in words. -/
def RegexError.message : RegexError → String
  | openBracket => "Invalid regular expression"
  | unmatchedOpening => "Unmatched ( or \\("
  | unmatchedClosing => "Unmatched ) or \\)"
  | unmatchedBrace => "Unmatched \\\x7b"
  | unmatchedBracket => "Unmatched [, [^, [:, [., or [="
  | badBounds => "Invalid content of \\\x7b\\\x7d"
  | tooLarge => "Regular expression too big"
  | badClass => "Invalid character class name"
  | badRange => "Invalid range end"
  | nothingRepeated => "Invalid preceding regular expression"
  | badReference => "Invalid back reference"
  | lastBackslash => "Trailing backslash"

namespace Regex

/-! ### Reading -/

/-- **How regular expressions are written.** -/
structure Dialect where
  /-- Whether groups and bounds are written without backslashes. -/
  extended : Bool
  /-- Whether a backslash in a bracket quotes what follows it. -/
  escaping : Bool := false
  /-- Whether what makes no sense stands for itself as far as it can. -/
  lenient : Bool := false

/-- Whether an expression stands for a place without characters, which cannot be repeated. -/
def isEdge : Regex → Bool
  | lineStart _ | lineEnd _ | textStart | textEnd | wordEdge .. | noEdge => true
  | _ => false

/-- What is still to be read of an expression, the number of groups so far, those that are complete, and how many
are open. -/
structure Source where
  rest : List Char
  groups : Nat := 0
  complete : List Nat := []
  depth : Nat := 0

/-- A reader of an expression. -/
abbrev Reader := StateT Source (Except RegexError)

/-- Takes a text, if it is at the front. -/
def accept (t : String) : Reader Bool := do
  let s ← get
  if t.toList.isPrefixOf s.rest then
    set { s with rest := s.rest.drop t.length }
    return true
  else return false

def number? : Reader (Option Nat) := do
  let s ← get
  let (ds, rest) := s.rest.span Char.isDigit
  set { s with rest }
  return if ds.isEmpty then none else some (ds.foldl (fun n d => n * 10 + (d.toNat - '0'.toNat)) 0)

/-- The greatest number of repetitions that bounds may ask for. -/
def maxRepetitions : Nat := 32767

/-- The bounds in braces, after the first of them. -/
def bounds (close : String) : Reader (Nat × Option Nat) := do
  let least ← number?
  let (low, high) ← if ← accept "," then do pure (least.getD 0, ← number?)
    else match least with
      | some n => pure (n, some n)
      | none => throw (if (← get).rest.isEmpty then .unmatchedBrace else .badBounds)
  if !(← accept close) then throw (if (← get).rest.isEmpty then .unmatchedBrace else .badBounds)
  if high.any (· < low) then throw .badBounds
  if maxRepetitions < high.getD low then throw .tooLarge
  return (low, high)

/-- The character that a letter after a backslash stands for. -/
def escapedChar (c : Char) : Char :=
  match c with
  | 'n' => '\n'
  | 't' => '\t'
  | 'r' => '\r'
  | 'f' => '\x0c'
  | 'v' => '\x0b'
  | 'a' => '\x07'
  | c => c

/-- The characters of a bracket up to its end, where a backslash quotes what follows it, and all that is behind it;
`inClass` says whether they are those of a class. -/
def quotedBracket (isFirst inClass : Bool) : List Char → List Marked
  | [] => []
  | '\\' :: c :: rest => (escapedChar c, true) :: quotedBracket false inClass rest
  | '[' :: rest => ('[', false) :: quotedBracket false (rest.head? == some ':') rest
  | ']' :: rest =>
    if isFirst || inClass then (']', false) :: quotedBracket false false rest
    else (']', false) :: rest.map (·, false)
  | c :: rest => (c, false) :: quotedBracket false inClass rest

/-- What is wrong with a member of a bracket. -/
def memberError? : Member → Option RegexError
  | .single _ => none
  | .range first last => if last < first then some .badRange else none
  | .named name => if classNames.contains name then none else some .badClass

/-- The members of a bracket, after its start. -/
def bracket (d : Dialect) : Reader Regex := do
  let s ← get
  let (negated, inner) := match s.rest with
    | '^' :: rest => (true, rest)
    | rest => (false, rest)
  let marked := if d.escaping then quotedBracket true false inner else inner.map (·, false)
  match bracket? (inner.length + 1) true marked with
  | some (members, rest) =>
    match members.findSome? memberError? with
    | some e => throw e
    | none => do
      set { s with rest := rest.map fun (m : Marked) => m.1 }
      return .oneOf negated members
  | none => throw (if inner.isEmpty then .openBracket else .unmatchedBracket)

mutual

def alternatives (d : Dialect) : (fuel : Nat) → Reader Regex
  | 0 => throw .tooLarge
  | fuel + 1 => do
    let a ← sequenceOf d fuel true
    if ← accept (if d.extended then "|" else "\\|") then return .either a (← alternatives d fuel)
    else return a

def sequenceOf (d : Dialect) : (fuel : Nat) → (isFirst : Bool) → Reader Regex
  | 0, _ => throw .tooLarge
  | fuel + 1, isFirst => do
    let s ← get
    let ends := match s.rest with
      | [] => true
      | '|' :: _ => d.extended
      | ')' :: _ => d.extended && s.depth != 0
      | '\\' :: '|' :: _ => !d.extended
      | '\\' :: ')' :: _ => !d.extended && s.depth != 0
      | _ => false
    if ends then return .empty
    let a ← piece d fuel isFirst
    let a ← repetitions d fuel a
    return .sequence a (← sequenceOf d fuel (d.extended && a.isEdge))

/-- Reads how often something is repeated. -/
def repetitions (d : Dialect) : (fuel : Nat) → Regex → Reader Regex
  | 0, _ => throw .tooLarge
  | fuel + 1, r => do
    if r.isEdge then return r
    if ← accept "*" then
      if !d.extended && !d.lenient && (← get).rest.head? == some '*' then throw .nothingRepeated
      repetitions d fuel (.repeated 0 none r)
    else if ← accept (if d.extended then "+" else "\\+") then repetitions d fuel (.repeated 1 none r)
    else if ← accept (if d.extended then "?" else "\\?") then repetitions d fuel (.repeated 0 (some 1) r)
    else
      let before ← get
      if ← accept (if d.extended then "\x7b" else "\\\x7b") then
        match (bounds (if d.extended then "\x7d" else "\\\x7d")).run (← get) with
        | .ok ((least, most), s) => do
          set s
          repetitions d fuel (.repeated least most r)
        | .error e =>
          if d.extended && d.lenient && e == .unmatchedBrace then
            set before
            return r
          else throw e
      else return r

def piece (d : Dialect) : (fuel : Nat) → (isFirst : Bool) → Reader Regex
  | 0, _ => throw .tooLarge
  | fuel + 1, isFirst => do
    let s ← get
    if ← accept (if d.extended then "(" else "\\(") then
      let number := s.groups + 1
      modify fun s => { s with groups := number, depth := s.depth + 1 }
      let r ← alternatives d fuel
      if !(← accept (if d.extended then ")" else "\\)")) then throw .unmatchedOpening
      modify fun s => { s with depth := s.depth - 1, complete := number :: s.complete }
      return .group number r
    match s.rest with
    | [] => return .empty
    | ['\\'] => throw .lastBackslash
    | '\\' :: c :: rest => do
      set { s with rest }
      if c.isDigit && c != '0' then
        let number := c.toNat - '0'.toNat
        if !s.complete.contains number then throw .badReference
        return .back number
      else
        match c with
        | '<' => return .wordEdge true false
        | '>' => return .wordEdge false true
        | 'b' => return .wordEdge true true
        | 'B' => return .noEdge
        | '\x60' => return .textStart
        | '\'' => return .textEnd
        | 'w' => return .oneOf false [.named "alnum", .single '_']
        | 'W' => return .oneOf true [.named "alnum", .single '_']
        | 's' => return .oneOf false [.named "space"]
        | 'S' => return .oneOf true [.named "space"]
        | ')' => if d.extended then return .char ')' else throw .unmatchedClosing
        | '\x7b' => if d.extended then return .char c else throw .nothingRepeated
        | c => return .char (escapedChar c)
    | c :: rest => do
      set { s with rest }
      match c with
      | '.' => return .any
      | '[' => bracket d
      | '^' => return if d.extended || isFirst then .lineStart false else .char '^'
      | '$' =>
        let atEnd := match rest with
          | [] => true
          | '\\' :: ')' :: _ | '\\' :: '|' :: _ => !d.extended
          | _ => d.extended
        return if atEnd then .lineEnd false else .char '$'
      | ')' => if d.extended && !d.lenient then throw .unmatchedClosing else return .char ')'
      | c =>
        if d.extended && isFirst && "*+?".toList.contains c then
          if d.lenient then return .empty else throw .nothingRepeated
        else if d.extended && isFirst && c == '\x7b' && !d.lenient then throw .nothingRepeated
        else return .char c

end

/-- **The regular expression that a text is,** or why it is none. -/
def parse (d : Dialect) (s : String) : Except RegexError Regex := do
  let (r, source) ← (alternatives d (8 * s.length + 16)).run { rest := s.toList }
  if source.rest.isEmpty then return r else throw .unmatchedClosing

/-- The expression that is just a text. -/
def ofText (s : String) : Regex := s.toList.foldr (fun c r => .sequence (.char c) r) .empty

/-- The expression in which the edges of the text are those of each line, and a line end is only matched by itself. -/
def perLine : Regex → Regex
  | lineStart _ => lineStart true
  | lineEnd _ => lineEnd true
  | any => oneOf true [.single '\n']
  | oneOf true members => oneOf true (.single '\n' :: members)
  | sequence a b => sequence a.perLine b.perLine
  | either a b => either a.perLine b.perLine
  | repeated least most r => repeated least most r.perLine
  | group number r => group number r.perLine
  | r => r

/-- The greatest number of a group. -/
def groupCount : Regex → Nat
  | sequence a b | either a b => max a.groupCount b.groupCount
  | repeated _ _ r => r.groupCount
  | group number r => max number r.groupCount
  | _ => 0

/-! ### Fitting -/

/-- A place in a text, and what the groups stood for. -/
structure Match where
  position : Nat
  groups : List (Nat × Nat × Nat) := []
deriving Repr

/-- Leaves only the first match at each place. -/
def distinct (ms : List Match) : List Match :=
  match ms with
  | [] | [_] => ms
  | _ =>
    let most := ms.foldl (fun n m => max n m.position) 0
    let (_, kept) := ms.foldl (fun (state : Array Bool × List Match) m =>
      let (seen, kept) := state
      if (seen[m.position]?).getD true then state else (seen.setIfInBounds m.position true, m :: kept))
      (Array.replicate (most + 1) false, [])
    kept.reverse

def isWordAt (text : Array Char) (i : Nat) : Bool := text[i]?.any isNameChar

/-- Whether a character fits an expression, if that stands for single characters. -/
def single? (fold : Bool) : Regex → Option (Char → Bool)
  | .char d => some (folded (· == d))
  | .any => some fun _ => true
  | .oneOf negated members => some fun c => folded (fun d => members.any (Member.holds d)) c != negated
  | _ => none
where
  /-- A class to which both cases of a letter belong if one does. -/
  folded (p : Char → Bool) (c : Char) : Bool := p c || (fold && (p c.toLower || p c.toUpper))

/-- How many characters of a class follow one another from a place on; `fuel` bounds their number. -/
def runLength (text : Array Char) (p : Char → Bool) : (fuel i : Nat) → Nat
  | 0, _ => 0
  | fuel + 1, i =>
    match text[i]? with
    | some c => if p c then runLength text p fuel (i + 1) + 1 else 0
    | none => 0

mutual

/-- The places at which what fits an expression may end. -/
def ends (text : Array Char) (fold : Bool) : (fuel : Nat) → Regex → Match → List Match
  | 0, _, _ => []
  | fuel + 1, r, m =>
    match r with
    | .empty => [m]
    | .char _ | .any | .oneOf .. =>
      match single? fold r, text[m.position]? with
      | some p, some c => if p c then [{ m with position := m.position + 1 }] else []
      | _, _ => []
    | .lineStart each => if m.position = 0 ∨ each ∧ text[m.position - 1]? = some '\n' then [m] else []
    | .lineEnd each => if m.position = text.size ∨ each ∧ text[m.position]? = some '\n' then [m] else []
    | .textStart => if m.position = 0 then [m] else []
    | .textEnd => if m.position = text.size then [m] else []
    | .wordEdge start finish =>
      let before := m.position != 0 && isWordAt text (m.position - 1)
      let after := isWordAt text m.position
      if (start && !before && after) || (finish && before && !after) then [m] else []
    | .noEdge =>
      let before := m.position != 0 && isWordAt text (m.position - 1)
      if before == isWordAt text m.position then [m] else []
    | .sequence a b => distinct ((ends text fold fuel a m).flatMap (ends text fold fuel b))
    | .either a b => distinct (ends text fold fuel a m ++ ends text fold fuel b m)
    | .repeated least most r =>
      match single? fold r with
      | some p =>
        let count := runLength text p (most.getD text.size) m.position
        (List.range (count + 1 - least)).map fun k => { m with position := m.position + count - k }
      | none => repetitionEnds text fold fuel least most r 0 m
    | .group number r =>
      (ends text fold fuel r m).map fun e =>
        { e with groups := (number, m.position, e.position) :: e.groups.filter (·.1 != number) }
    | .back number =>
      match m.groups.find? (·.1 == number) with
      | none => []
      | some (_, i, j) =>
        let part := text.extract i j
        if text.extract m.position (m.position + part.size) == part then
          [{ m with position := m.position + part.size }]
        else []

/-- The places at which repetitions may end, the longer ones first. -/
def repetitionEnds (text : Array Char) (fold : Bool) :
    (fuel : Nat) → (least : Nat) → (most : Option Nat) → Regex → (count : Nat) → Match → List Match
  | 0, _, _, _, _, _ => []
  | fuel + 1, least, most, r, count, m =>
    let stay := if least ≤ count then [m] else []
    if most.any (· ≤ count) then stay
    else
      let next := (ends text fold fuel r m).filter fun e => e.position != m.position || count < least
      distinct (next.flatMap (repetitionEnds text fold fuel least most r (count + 1)) ++ stay)

end

/-- The depth that fitting an expression to a text needs at most. -/
def depth (text : Array Char) : Regex → Nat
  | .sequence a b | .either a b => 1 + max (depth text a) (depth text b)
  | .repeated least _ r => text.size + least + 3 + depth text r
  | .group _ r => 1 + depth text r
  | _ => 1

/-- The longest part that fits and starts at a place. -/
def matchAt? (r : Regex) (fold : Bool) (text : Array Char) (i : Nat) : Option Match :=
  (ends text fold (depth text r + 1) r { position := i }).foldl (fun best m =>
    match best with
    | some b => if b.position < m.position then some m else best
    | none => some m) none

/-- **The first part that fits,** from a place on: where it starts, where it ends, and the groups. -/
def find? (r : Regex) (fold : Bool) (text : Array Char) (start : Nat) : Option (Nat × Match) :=
  ((List.range (text.size + 1 - start)).map (· + start)).findSome? fun i =>
    (matchAt? r fold text i).map (i, ·)

/-- Whether some part of a text fits. -/
def occurs (r : Regex) (fold : Bool) (text : List Char) : Bool := (r.find? fold text.toArray 0).isSome

end Regex

end Script

end Recompile

import Recompile.Script.Arithmetic
import Recompile.Script.Pattern
import Recompile.Script.Shell

/-!
# What words stand for

The parts of a word are put in for one after another: parameters, the output of commands and the values of
arithmetic expressions. What comes from outside of quotes is then split into fields, a field that is a pattern
is replaced by the paths that fit it, and quotes leave no trace but an empty field.

What commands print is asked of `capture`, so that expansion does not depend on how commands run. `fuel` bounds
how deep words stand within words.
-/

namespace Recompile

namespace Script

/-- **A character of a word while it is expanded,** or a mark between characters. -/
inductive Atom
  /-- A character. One that is not quoted may be part of a pattern, and may separate fields. -/
  | char (c : Char) (quoted separates : Bool)
  /-- A place where quotes stand. -/
  | quotes
  /-- The end of one field and the start of another. A blank gap is as good as a blank between them. -/
  | gap (blank : Bool)
deriving DecidableEq, Repr

/-! ### Fields -/

/-- The fields so far, and the one that was begun. -/
structure Splitting where
  /-- The finished fields, the last one first. -/
  finished : List (List Marked) := []
  /-- The characters of the field that was begun, the last one first. -/
  current : Option (List Marked) := none
  /-- Whether the last field ended at a blank. -/
  atBlank : Bool := false

namespace Splitting

/-- Finishes the field that was begun. -/
def finish (s : Splitting) : Splitting :=
  match s.current with
  | some cs => { s with finished := cs.reverse :: s.finished, current := none }
  | none => s

/-- Adds an atom. Blanks among the separators only end fields; any other separator ends a field that may be
empty, and one with blanks around it is a single separator. -/
def add (separators : List Char) (s : Splitting) : Atom → Splitting
  | .quotes => { s with current := some (s.current.getD []), atBlank := false }
  | .gap true => if s.current.isSome then { s.finish with atBlank := true } else s
  | .gap false => { s.finish with atBlank := false }
  | .char c quoted separates =>
    if separates && separators.contains c then
      if standardSeparators.toList.contains c then
        if s.current.isSome then { s.finish with atBlank := true } else s
      else if s.current.isSome then { s.finish with atBlank := false }
      else if s.atBlank then { s with atBlank := false }
      else { s with finished := [] :: s.finished }
    else { s with current := some ((c, quoted) :: s.current.getD []), atBlank := false }

end Splitting

/-- **The fields of an expanded word.** -/
def fields (separators : List Char) (atoms : List Atom) : List (List Marked) :=
  (atoms.foldl (Splitting.add separators) {}).finish.finished.reverse

/-- The text of an expanded word that is not split. -/
def flatText (joint : String) (atoms : List Atom) : String :=
  String.join (atoms.map fun
    | .char c _ _ => c.toString
    | .quotes => ""
    | .gap _ => joint)

/-- The characters of an expanded word that is not split. -/
def flatMarked (atoms : List Atom) : List Marked :=
  atoms.filterMap fun
    | .char c quoted _ => some (c, quoted)
    | .quotes => none
    | .gap _ => some (' ', true)

def valueAtoms (quoted : Bool) (s : String) : List Atom :=
  (if quoted then [.quotes] else []) ++ s.toList.map fun c => .char c quoted (!quoted)

/-! ### Paths -/

def entryNames (s : Shell) (directory : String) : List String :=
  match s.host.files.place s.cwd true (Shell.path (if directory = "" then "." else directory)) with
  | .ok ⟨loc, some .dir⟩ =>
    (s.host.files.below loc).filterMap fun l =>
      if l.length = loc.length + 1 then l.getLast?.map raw else none
  | _ => []

/-- Whether there is something at a path. A link counts by itself. -/
def isThere (s : Shell) (p : String) : Bool :=
  match s.host.files.place s.cwd false (Shell.path p) with
  | .ok place => place.node.isSome
  | .error _ => false

/-- The names that fit a pattern. Names with a dot at the front have to be meant. -/
def fittingNames (s : Shell) (directory : String) (pattern : List Marked) : List String :=
  let es := elements pattern
  if (pattern.head?.map (·.1)) == some '.' then
    ("." :: ".." :: entryNames s directory).filter fun name => name.toList.head? == some '.' && fits es name.toList
  else (entryNames s directory).filter fun name => name.toList.head? != some '.' && fits es name.toList

/-- The paths that fit the parts of a path, after a part that is known. -/
def fittingPaths (s : Shell) (known : String) : List (List Marked) → List String
  | [] => []
  | [last] =>
    if isPattern last then (fittingNames s known last).map (known ++ ·)
    else
      let p := known ++ String.ofList (last.map (·.1))
      if isThere s (if last.isEmpty then known ++ "." else p) then [p] else []
  | part :: rest =>
    let names := if isPattern part then fittingNames s known part else [String.ofList (part.map (·.1))]
    names.flatMap fun name => fittingPaths s (known ++ name ++ "/") rest

/-- What a field stands for: the paths that fit it, or else itself. -/
def pathsOf (s : Shell) (field : List Marked) : List String :=
  let itself := String.ofList (field.map (·.1))
  if s.has 'f' || !isPattern field then [itself]
  else
    match fittingPaths s "" (field.splitOnP fun m => m.1 == '/') with
    | [] => [itself]
    | ps => ps.mergeSort fun a b => !(b < a)

/-! ### Home directories -/

/-- The directory that a text with a tilde at the front stands for, and the rest. -/
def tilde? (s : Shell) (ends : Char → Bool) (t : String) : Option (String × String) :=
  match t.toList with
  | '~' :: cs =>
    let (user, rest) := cs.span fun c => !ends c
    let home := if user.isEmpty then s.get? "HOME" else if user == "root".toList then some "/root" else none
    home.map (·, String.ofList rest)
  | _ => none

def replaceTilde (s : Shell) : Word → Word
  | .text t false :: rest =>
    match tilde? s (· == '/') t with
    | some (home, "") => if rest.isEmpty then [.text home true] else .text t false :: rest
    | some (home, after) => .text home true :: .text after false :: rest
    | none => .text t false :: rest
  | w => w

/-- The parts of an assigned text between colons, with tildes replaced. -/
def tildeSegments (s : Shell) (isEnd : Bool) : List String → Word
  | [] => []
  | [t] =>
    match tilde? s (· == '/') t with
    | some (home, rest) =>
      if rest = "" ∧ !isEnd then [.text t false] else [.text home true, .text rest false]
    | none => [.text t false]
  | t :: rest =>
    (match tilde? s (· == '/') t with
      | some (home, after) => [.text home true, .text after false]
      | none => [.text t false]) ++ .text ":" false :: tildeSegments s isEnd rest

/-- An assigned word with tildes at the front and after colons replaced. -/
def replaceTildes (s : Shell) (isStart : Bool) : Word → Word
  | .text t false :: rest =>
    match (t.toList.splitOn ':').map String.ofList with
    | first :: others =>
      let front := if isStart then tildeSegments s rest.isEmpty (first :: others)
        else match others with
          | [] => [.text first false]
          | _ => .text first false :: .text ":" false :: tildeSegments s rest.isEmpty others
      front ++ replaceTildes s false rest
    | [] => replaceTildes s false rest
  | p :: rest => p :: replaceTildes s false rest
  | [] => []

/-! ### Parameters -/

/-- The value of a parameter, other than all arguments together. -/
def parameter? (s : Shell) (name : String) : Option String :=
  match name with
  | "#" => some (toString s.args.length)
  | "?" => some (toString s.status)
  | "$" => some (toString s.number)
  | "!" => s.jobs.head?.map fun j => toString j.1
  | "-" => some s.optionsOn
  | _ =>
    match name.toNat? with
    | some 0 => some s.name
    | some (n + 1) => s.args[n]?
    | none => s.get? name

/-- Whether a parameter is all arguments together. -/
def isAll (name : String) : Bool := name == "@" || name == "*"

/-- The value of all arguments together. They are fields of their own where fields are wanted, unless they are
quoted as one. -/
def allValue (s : Shell) (full : Bool) (name : String) (quoted : Bool) : String :=
  (if full && !(quoted && name == "*") then fieldMark.toString else s.joint).intercalate s.args

def fieldAtoms (quoted : Bool) (value : String) : List Atom :=
  [Atom.gap (!quoted)].intercalate ((value.toList.splitOn fieldMark).map fun f => valueAtoms quoted (String.ofList f))

def allAtoms (s : Shell) (full : Bool) (name : String) (quoted : Bool) : List Atom :=
  if s.args.isEmpty then (if quoted && name == "*" then [.quotes] else [])
  else fieldAtoms quoted (allValue s full name quoted)

/-- The value of a parameter, which has to be there if the shell insists on it. -/
def required (name : String) : Running String := do
  let s ← get
  match parameter? s name with
  | some v => return v
  | none => if s.has 'u' then fault (name ++ ": parameter not set") else return ""

/-- The integer in a parameter of an arithmetic expression, or what is wrong with it. -/
def integerValue (s : Shell) (name : String) : Except String Int :=
  match s.get? name with
  | none => .ok 0
  | some v =>
    match Arithmetic.integer? v with
    | some n => .ok n
    | none => .error ("Illegal number: " ++ v)

def evaluate (expression : String) : Running Int := do
  match Arithmetic.evaluate (integerValue (← get)) expression with
  | .error reason => fault reason
  | .ok (n, assigned) => do
    for (name, value) in assigned.reverse do
      assign name (toString value)
    return n

/-! ### Words -/

section

variable (capture : List Command → Running String) (full : Bool)

mutual

/-- The atoms of the parts of a word; `full` says whether fields are wanted. -/
def expandParts : (fuel : Nat) → Word → Running (List Atom)
  | 0, _ => return []
  | _ + 1, [] => return []
  | fuel + 1, p :: rest => do
    let atoms ← expandPart fuel p
    return atoms ++ (← expandParts fuel rest)

def expandPart : (fuel : Nat) → Part → Running (List Atom)
  | 0, _ => return []
  | fuel + 1, p => do
    match p with
    | .text t quoted =>
      return (if quoted then [.quotes] else []) ++ t.toList.map fun c => .char c quoted false
    | .output body quoted => return valueAtoms quoted (← capture body)
    | .arithmetic expression quoted => do
      let atoms ← expandParts fuel expression
      let n ← evaluate (flatText (← get).joint atoms)
      return valueAtoms quoted (toString n)
    | .parameter name use quoted =>
      match use with
      | .bad => fault "Bad substitution"
      | .value => do
        if isAll name then return allAtoms (← get) full name quoted
        else return valueAtoms quoted (← required name)
      | .length => do
        let value ← if isAll name then pure ((← get).joint.intercalate (← get).args) else required name
        return valueAtoms quoted (toString value.length)
      | .trim atEnd longest pattern => do
        let s ← get
        if isAll name && s.args.isEmpty then return allAtoms s full name quoted
        let value ← if isAll name then pure (allValue s full name quoted) else required name
        if value = "" ∧ !isAll name ∧ (parameter? s name).isNone then return valueAtoms quoted ""
        let es := elements (flatMarked (← expandParts fuel pattern))
        return fieldAtoms quoted (String.ofList ((if atEnd then dropBack else dropFront) longest es value.toList))
      | .otherwise kind orEmpty word => expandOtherwise fuel name kind orEmpty word quoted

/-- The atoms of a parameter that a word goes with. -/
def expandOtherwise : (fuel : Nat) → String → Otherwise → Bool → Word → Bool → Running (List Atom)
  | 0, _, _, _, _, _ => return []
  | fuel + 1, name, kind, orEmpty, word, quoted => do
    let s ← get
    let value := if isAll name then some (s.joint.intercalate s.args) else parameter? s name
    let isMissing := match value with
      | none => true
      | some v => orEmpty && v == ""
    let itself := if isAll name then allAtoms s full name quoted else valueAtoms quoted (value.getD "")
    let instead : Running (List Atom) := do
      let atoms ← expandParts fuel (replaceTilde s word)
      return (if quoted then [.quotes] else []) ++ atoms.map fun
        | .char c q _ => .char c q (!q)
        | a => a
    match kind with
    | .default => if isMissing then instead else return itself
    | .alternative => if isMissing then return (if quoted then [.quotes] else []) else instead
    | .assign =>
      if isMissing then
        if !isName name then fault (name ++ ": bad variable name")
        let atoms ← expandParts fuel (replaceTilde s word)
        let t := flatText (← get).joint atoms
        assign name t
        return valueAtoms quoted t
      else return itself
    | .require =>
      if isMissing then
        let atoms ← expandParts fuel word
        let t := flatText (← get).joint atoms
        fault (name ++ ": " ++ if t = "" then
          (if orEmpty then "parameter not set or null" else "parameter not set") else t)
      else return itself

end

end

variable (capture : List Command → Running String) (fuel : Nat)

/-- The text of a word that is not split. -/
def expandText (w : Word) : Running String := do
  let atoms ← expandParts capture false fuel w
  return flatText (← get).joint atoms

/-- **The fields that a word stands for.** -/
def expandWord (w : Word) : Running (List String) := do
  let atoms ← expandParts capture true fuel (replaceTilde (← get) w)
  let s ← get
  return (fields s.separators atoms).flatMap (pathsOf s)

/-- The fields that some words stand for. -/
def expandWords : List Word → Running (List String)
  | [] => return []
  | w :: rest => do
    let fs ← expandWord capture fuel w
    return fs ++ (← expandWords rest)

/-- **The text that a word stands for** where it is not split. -/
def expandFlat (w : Word) : Running String := do expandText capture fuel (replaceTilde (← get) w)

def expandAssigned (w : Word) : Running String := do expandText capture fuel (replaceTildes (← get) true w)

def expandPattern (w : Word) : Running (List Element) := do
  return elements (flatMarked (← expandParts capture false fuel (replaceTilde (← get) w)))

end Script

end Recompile

import Recompile.Script.Condition
import Recompile.Script.Format
import Recompile.Script.Tool.Difference
import Recompile.Script.Tool.Dump
import Recompile.Script.Tool.Editing
import Recompile.Script.Tool.Search
import Recompile.Script.Tool.Storage

/-!
# Tools for values

The tools that compute, count and print values, and the list of all tools that need no other program.
-/

namespace Recompile

namespace Script

namespace Tool

/-! ### Expressions -/

/-- What is still to be read of an expression; failures are what is wrong. -/
abbrev ExprReader := StateT (List String) (Except String)

def exprInteger? (s : String) : Option Int :=
  let (negative, ds) := match s.toList with
    | '-' :: ds => (true, ds)
    | ds => (false, ds)
  if ds.isEmpty || !ds.all Char.isDigit then none
  else
    let n : Int := Arithmetic.natOf 10 ds
    some (if negative then -n else n)

def needInteger (s : String) : ExprReader Int :=
  match exprInteger? s with
  | some n => return n
  | none => throw "non-integer argument"

/-- Whether a value counts as false. -/
def isNull (s : String) : Bool := s == "" || exprInteger? s == some 0

/-- The part of a text at its start that fits an expression: its first group, or else its length. -/
def startFit (s pattern : String) : ExprReader String := do
  match Regex.parse { extended := false } pattern with
  | .error e => throw e.message
  | .ok r => do
    let text := s.toList.toArray
    let grouped := (pattern.splitOn "\\(").length != 1
    match r.matchAt? false text 0 with
    | none => return if grouped then "" else "0"
    | some m =>
      match m.groups.find? (·.1 == 1) with
      | some (_, i, j) => return String.ofList (text.extract i j).toList
      | none => return if grouped then "" else toString m.position

def exprCompare (o a b : String) : String :=
  let order := match exprInteger? a, exprInteger? b with
    | some m, some n => compare m n
    | _, _ => compare a b
  let holds : Bool := match o with
    | "<" => order == .lt
    | "<=" => order != .gt
    | "=" | "==" => order == .eq
    | "!=" => order != .eq
    | ">=" => order != .lt
    | _ => order == .gt
  if holds then "1" else "0"

/-- The operators from the loosest to the tightest. -/
def exprLevels : List (List String) :=
  [["|"], ["&"], ["<", "<=", "=", "==", "!=", ">=", ">"], ["+", "-"], ["*", "/", "%"], [":"]]

def exprApply (o a b : String) : ExprReader String := do
  match o with
  | "|" => return if !isNull a then a else if !isNull b then b else "0"
  | "&" => return if isNull a || isNull b then "0" else a
  | ":" => startFit a b
  | "+" => return toString ((← needInteger a) + (← needInteger b))
  | "-" => return toString ((← needInteger a) - (← needInteger b))
  | "*" => return toString ((← needInteger a) * (← needInteger b))
  | "/" | "%" => do
    let m ← needInteger a
    let n ← needInteger b
    if n = 0 then throw "division by zero"
    return toString (if o = "/" then Int.tdiv m n else Int.tmod m n)
  | _ => return exprCompare o a b

mutual

def exprLevel : (fuel : Nat) → List (List String) → ExprReader String
  | 0, _ => throw "syntax error"
  | fuel + 1, [] => exprOperand fuel
  | fuel + 1, os :: tighter => do
    let a ← exprLevel fuel tighter
    exprRest fuel os tighter a

/-- Reads the operators of a level and their operands. -/
def exprRest : (fuel : Nat) → List String → List (List String) → String → ExprReader String
  | 0, _, _, _ => throw "syntax error"
  | fuel + 1, os, tighter, a => do
    match ← get with
    | o :: rest =>
      if os.contains o then
        set rest
        let b ← exprLevel fuel tighter
        exprRest fuel os tighter (← exprApply o a b)
      else return a
    | [] => return a

def exprOperand : (fuel : Nat) → ExprReader String
  | 0 => throw "syntax error"
  | fuel + 1 => do
    match ← get with
    | [] => throw "syntax error: missing argument"
    | "(" :: rest => do
      set rest
      let a ← exprLevel fuel exprLevels
      match ← get with
      | ")" :: rest => do
        set rest
        return a
      | _ => throw "syntax error: expecting ')'"
    | "length" :: a :: rest => do
      set rest
      return toString a.length
    | "match" :: a :: b :: rest => do
      set rest
      startFit a b
    | "index" :: a :: b :: rest => do
      set rest
      return toString ((a.toList.findIdx? b.toList.contains).elim 0 (· + 1))
    | "substr" :: a :: b :: c :: rest => do
      set rest
      match exprInteger? b, exprInteger? c with
      | some p, some n =>
        return if p < 1 ∨ n < 1 then "" else String.ofList ((a.toList.drop (p.toNat - 1)).take n.toNat)
      | _, _ => return ""
    | "+" :: a :: rest => do
      set rest
      return a
    | a :: rest => do
      set rest
      return a

end

def expr : Action := fun args => do
  let args := match args with
    | "--" :: rest => rest
    | args => args
  if args.isEmpty then return ← missingOperand "expr" 2
  match (exprLevel (20 * args.length + 40) exprLevels).run args with
  | .ok (value, []) => do
    print (value ++ "\n")
    return if isNull value then 1 else 0
  | .ok (_, extra :: _) => failWith "expr" ("syntax error: unexpected argument " ++ shown extra) 2
  | .error "syntax error: missing argument" =>
    failWith "expr" ("syntax error: missing argument after " ++ shown (args.getLast?.getD "")) 2
  | .error reason => failWith "expr" reason 2

/-! ### Sequences -/

/-- **A number of a sequence:** a whole number of parts, of which one is so many places behind the point. -/
structure Term where
  parts : Int
  places : Nat
  /-- The length of its text. -/
  width : Nat

def Term.read? (text : String) : Option Term :=
  let cs := text.toList.dropWhile Arithmetic.isBlank
  let (negative, cs) := match cs with
    | '-' :: rest => (true, rest)
    | '+' :: rest => (false, rest)
    | cs => (false, cs)
  let signed (n : Nat) : Int := if negative then -(n : Int) else n
  let front := if negative then 1 else 0
  match cs with
  | '0' :: 'x' :: ds =>
    if ds.isEmpty || !ds.all SignedBinary.isHexDigit then none
    else some ⟨signed (SignedBinary.hexValue ds), 0, front + ds.length + 2⟩
  | _ =>
    let (whole, rest) := cs.span Char.isDigit
    let (fraction, rest) := match rest with
      | '.' :: ds => ds.span Char.isDigit
      | rest => ([], rest)
    let exponent? : Option Int := match rest with
      | [] => some 0
      | e :: rest =>
        if e != 'e' && e != 'E' then none
        else
          let (down, ds) := match rest with
            | '-' :: ds => (true, ds)
            | '+' :: ds => (false, ds)
            | ds => (false, ds)
          if ds.isEmpty || !ds.all Char.isDigit then none
          else
            let n : Int := min 400 (Arithmetic.natOf 10 ds)
            some (if down then -n else n)
    if whole.isEmpty && fraction.isEmpty then none
    else
      exponent?.map fun exponent =>
        let places : Int := fraction.length - exponent
        let n := Arithmetic.natOf 10 (whole ++ fraction) * Nat.pow 10 (-places).toNat
        let width := max 1 whole.length + (if fraction.isEmpty then 0 else fraction.length + 1)
        ⟨signed n, places.toNat, front + width⟩

/-- The parts of a number if one part is so many places behind the point. -/
def Term.scaled (t : Term) (places : Nat) : Int := t.parts * Int.ofNat (Nat.pow 10 (places - t.places))

/-- The length of a number that is written with so many places behind the point. -/
def Term.widthAt (t : Term) (places : Nat) : Nat :=
  let whole := if t.places = 0 then t.width else t.width - t.places - 1
  if places = 0 then whole else whole + places + 1

/-- A number with some places behind the point, filled up with zeros. -/
def termText (width places : Nat) (parts : Int) : String :=
  let ds := (toString parts.natAbs).toList
  let ds := List.replicate (places + 1 - ds.length) '0' ++ ds
  let whole := ds.take (ds.length - places)
  let digits := if places = 0 then whole else whole ++ '.' :: ds.drop (ds.length - places)
  String.ofList (numberField ⟨['0'], width, none, 'd'⟩ (if parts < 0 then ['-'] else []) digits)

/-- The numbers from one to another one. -/
def integersFrom : (fuel : Nat) → (first step last : Int) → List Int
  | 0, _, _, _ => []
  | fuel + 1, first, step, last =>
    if (0 < step && first ≤ last) || (step < 0 && last ≤ first) then
      first :: integersFrom fuel (first + step) step last
    else []

/-- What is wrong with a format for numbers; `found` is whether it had a place for one already. -/
def sequenceFormatFault? (format : String) : (fuel : Nat) → (found : Bool) → List Char → Option String
  | 0, _, _ => none
  | _ + 1, found, [] => if found then none else some ("format " ++ shown format ++ " has no % directive")
  | fuel + 1, found, '%' :: '%' :: rest => sequenceFormatFault? format fuel found rest
  | fuel + 1, found, '%' :: rest =>
    if found then some ("format " ++ shown format ++ " has too many % directives")
    else
      let rest := ((rest.dropWhile "-+#0 '".toList.contains).dropWhile Char.isDigit)
      let rest := match rest with
        | '.' :: rest => rest.dropWhile Char.isDigit
        | rest => rest
      match if rest.head? == some 'L' then rest.tail else rest with
      | [] => some ("format " ++ shown format ++ " ends in %")
      | c :: rest =>
        if "efgaEFGA".toList.contains c then sequenceFormatFault? format fuel true rest
        else some ("format " ++ shown format ++ " has unknown %" ++ c.toString ++ " directive")
  | fuel + 1, found, _ :: rest => sequenceFormatFault? format fuel found rest

/-- Shows numbers from one to another one. -/
def seq : Action :=
  withOptions "seq"
    { flags := "w", valued := "sf", anywhere := false, numbers := true
      names := [("equal-width", 'w'), ("format", 'f'), ("separator", 's')] } 1 fun g => do
    match g.operands with
    | [] => missingOperand "seq" 1
    | _ :: _ :: _ :: extra :: _ => misuse "seq" ("extra operand " ++ shown extra) 1
    | operands =>
      let format := g.value? 'f'
      if let some reason := format.bind fun f => sequenceFormatFault? f (f.length + 1) false f.toList then
        return ← failWith "seq" reason 1
      if let some bad := operands.find? fun a => (Term.read? a).isNone then
        let isNumber := bad.toLower != "nan"
        return ← misuse "seq"
          ((if isNumber then "invalid floating point argument: " else "invalid 'not-a-number' argument: ") ++
            shown bad) 1
      let one : Term := ⟨1, 0, 1⟩
      let (first, step, last) : Term × Term × Term := match operands.filterMap Term.read? with
        | [last] => (one, one, last)
        | [first, last] => (first, one, last)
        | first :: step :: last :: _ => (first, step, last)
        | [] => (one, one, one)
      if step.parts = 0 then
        return ← misuse "seq" ("invalid Zero increment value: " ++ shown (operands[1]?.getD "0")) 1
      if format.isSome && g.has 'w' then
        return ← misuse "seq" "format string may not be specified when printing equal width strings" 1
      let places := max first.places step.places
      let fine := max places last.places
      let ns := integersFrom (((last.scaled fine) - (first.scaled fine)).natAbs / (step.scaled fine).natAbs + 1)
        (first.scaled fine) (step.scaled fine) (last.scaled fine)
      let width := if g.has 'w' then max (first.widthAt places) (last.widthAt places) else 0
      let texts := ns.map fun n =>
        let text := termText width places (n / Int.ofNat (Nat.pow 10 (fine - places)))
        match format with
        | some f => (formatted f [text]).out
        | none => text
      if !texts.isEmpty then print (((g.value? 's').getD "\n").intercalate texts ++ "\n")
      return 0

/-! ### The environment -/

/-- Shows parameters of the environment. -/
def printenv : Action := fun args => do
  let environment := (← get).environment
  match args.filter fun a => a != "-0" with
  | [] => do
    print (unlines (environment.map fun (name, value) => name ++ "=" ++ value))
    return 0
  | names =>
    forEach names fun name =>
      match environment.lookup name with
      | some value => do
        print (value ++ "\n")
        return 0
      | none => return 1

/-- Echoes its arguments as they stand, or with escapes put in. -/
def plainEcho : Action := fun args => do
  let isOption (a : String) : Bool :=
    match a.toList with
    | '-' :: c :: cs => (c :: cs).all "neE".toList.contains
    | _ => false
  let options := (args.takeWhile isOption).flatMap String.toList
  let operands := args.dropWhile isOption
  let escaped := (options.filter fun c => c == 'e' || c == 'E').getLast? == some 'e'
  let line := " ".intercalate operands
  let (cs, stops) := if escaped then unescapeAll (line.length + 1) line.toList else (line.toList, false)
  print (String.ofList cs ++ if options.contains 'n' || stops then "" else "\n")
  return 0

/-- Prints arguments the way a format says. -/
def printf : Action := fun args => do
  match args with
  | [] => missingOperand "printf" 1
  | format :: args => do
    let p := formatted format args
    print p.out
    for c in p.complaints do
      complain "printf" c
    return if p.status = 0 then 0 else 1

def condition (name : String) : Action := fun args => do
  let s ← get
  let operands := if name = "[" then args.dropLast else args
  if name = "[" ∧ args.getLast? ≠ some "]" then return ← failWith "[" "missing ']'" 2
  match Condition.evaluate s (operands.length + 1) operands with
  | .ok holds => return if holds then 0 else 1
  | .error reason =>
    let number := "Illegal number: "
    let told :=
      if reason.startsWith number then "invalid integer " ++ shown (String.ofList (reason.toList.drop number.length))
      else
        match operands with
        | [_, a] => "missing argument after " ++ shown a
        | [_, o, _] => shown o ++ ": binary operator expected"
        | _ => reason
    failWith name told 2

/-! ### All tools -/

/-- **The tools that need no other program.** -/
def all : List (String × Action) :=
  [("arch", fixedText "arch" "x86_64" 0), ("base64", base64), ("basename", basename), ("cat", cat), ("chmod", chmod),
    ("cksum", cksum), ("cmp", cmp), ("comm", comm), ("cp", cp), ("cut", cut), ("dd", dd), ("diff", diff),
    ("dirname", dirname),
    ("echo", plainEcho), ("egrep", grep true), ("expand", expand), ("expr", expr), ("false", fun _ => return 1),
    ("fgrep", fun args => grep false ("-F" :: args)), ("fold", fold), ("grep", grep false),
    ("groups", fixedText "groups" "root" 0), ("head", head), ("id", user), ("install", install), ("link", link),
    ("ln", ln),
    ("logname", fun _ => failWith "logname" "no login name" 1), ("ls", ls), ("mkdir", mkdir), ("mktemp", mktemp),
    ("mv", mv), ("nl", nl), ("od", od), ("paste", paste), ("printenv", printenv), ("printf", printf),
    ("readlink", readlink), ("realpath", realpath), ("rev", rev), ("rm", rm), ("rmdir", rmdir), ("sed", sed),
    ("seq", seq),
    ("sleep", fun _ => return 0), ("sort", sort), ("stat", stat), ("sync", fun _ => return 0), ("tac", tac),
    ("tail", tail), ("tee", tee), ("test", condition "test"), ("[", condition "["), ("touch", touch), ("tr", tr),
    ("true", fun _ => return 0), ("truncate", truncate), ("tty", fixedText "tty" "not a tty" 1), ("uname", system),
    ("uniq", uniq), ("unlink", unlink), ("wc", wc), ("whoami", fixedText "whoami" "root" 0), ("yes", yes)]

end Tool

end Script

end Recompile

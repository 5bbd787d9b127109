import Recompile.Script.Arithmetic
import Recompile.Text.Rounded

/-!
# Formatted output

`echo` prints its arguments with escapes put in, and `printf` prints them the way a format says. A format is
used again as long as there are arguments that it has not used.
-/

namespace Recompile

namespace Script

/-! ### Escapes -/

def escapes : List (Char × Char) :=
  [('\\', '\\'), ('a', '\x07'), ('b', '\x08'), ('e', '\x1b'), ('f', '\x0c'), ('n', '\n'), ('r', '\r'), ('t', '\t'),
    ('v', '\x0b')]

/-- The number of at most so many octal digits, and what follows. -/
def octal : (digits value : Nat) → List Char → Nat × List Char
  | 0, value, cs => (value, cs)
  | digits + 1, value, c :: cs =>
    if '0' ≤ c ∧ c ≤ '7' then octal digits (value * 8 + (c.toNat - '0'.toNat)) cs else (value, c :: cs)
  | _ + 1, value, [] => (value, [])

/-- The character that an escape stands for, after its backslash, and what follows. A backslash before anything
else stands for itself. -/
def unescape : List Char → Char × List Char
  | c :: rest =>
    if '0' ≤ c ∧ c ≤ '7' then
      let (value, rest) := octal 3 0 (c :: rest)
      (Char.ofNat (value % 256), rest)
    else
      match escapes.lookup c with
      | some d => (d, rest)
      | none => ('\\', c :: rest)
  | [] => ('\\', [])

/-- A text with its escapes put in, and whether one of them ends all output. A number in octal may have a zero
more in front. `fuel` bounds the number of characters. -/
def unescapeAll : (fuel : Nat) → List Char → List Char × Bool
  | 0, _ => ([], false)
  | _ + 1, [] => ([], false)
  | _ + 1, '\\' :: 'c' :: _ => ([], true)
  | fuel + 1, '\\' :: rest =>
    let digits := match rest with
      | '0' :: d :: more => if '0' ≤ d ∧ d ≤ '7' then d :: more else rest
      | _ => rest
    let (c, rest) := unescape digits
    let (cs, stops) := unescapeAll fuel rest
    (c :: cs, stops)
  | fuel + 1, c :: rest =>
    let (cs, stops) := unescapeAll fuel rest
    (c :: cs, stops)

/-- **What is echoed for some arguments.** -/
def echoed (args : List String) : String :=
  let (newline, args) := match args with
    | "-n" :: args => (false, args)
    | args => (true, args)
  let line := " ".intercalate args
  let (cs, stops) := unescapeAll (line.length + 1) line.toList
  String.ofList (if newline && !stops then cs ++ ['\n'] else cs)

/-! ### Formats -/

/-- What was printed. -/
structure Printed where
  out : String := ""
  complaints : List String := []
  status : Nat := 0
  /-- The arguments that are left. -/
  args : List String
  /-- Whether output has ended. -/
  stopped : Bool := false

/-- A directive of a format: its flags, width, precision and letter. -/
structure Directive where
  flags : List Char
  width : Nat
  precision : Option Nat
  letter : Char

namespace Printed

def add (p : Printed) (s : String) : Printed := { p with out := p.out ++ s }

/-- Takes the next argument. -/
def next (p : Printed) : Option String × Printed := (p.args.head?, { p with args := p.args.tail })

def complainAbout (a reason : String) (p : Printed) : Printed :=
  { p with complaints := p.complaints ++ [a ++ ": " ++ reason], status := 1 }

/-- What is wrong with a number that is too large. -/
def outOfRange : String := "Numerical result out of range"

/-- The greatest integer with a sign. -/
def maxSigned : Nat := 9223372036854775807

/-- The greatest integer without a sign. -/
def maxUnsigned : Nat := 18446744073709551615

/-- Takes the next argument as an integer, which may be as large as `most`. -/
def number (p : Printed) (most : Nat) : Int × Printed :=
  match p.next with
  | (none, p) => (0, p)
  | (some a, p) =>
    match a.toList with
    | [] => (0, p)
    | quote :: rest =>
      if quote == '"' || quote == '\'' then ((rest.headD '\x00').toNat, p)
      else
        let cs := a.toList.dropWhile Arithmetic.isBlank
        let (negative, digits) := match cs with
          | '-' :: ds => (true, ds)
          | '+' :: ds => (false, ds)
          | ds => (false, ds)
        match Arithmetic.number? digits with
        | none => (0, p.complainAbout a "expected numeric value")
        | some (n, after) =>
          let bound := if negative ∧ most = maxSigned then most + 1 else most
          let magnitude := if n ≤ bound then n else bound
          let value : Int := if negative ∧ (n ≤ bound ∨ most = maxSigned) then -magnitude else magnitude
          if !after.isEmpty then (value, p.complainAbout a "not completely converted")
          else if bound < n then (value, p.complainAbout a outOfRange)
          else (value, p)

/-- Takes the next argument as a number with a fraction. -/
def real (p : Printed) : Float × Printed :=
  match p.next with
  | (none, p) => (0, p)
  | (some a, p) =>
    match a.toList with
    | [] => (0, p)
    | quote :: rest =>
      if quote == '"' || quote == '\'' then (Float.ofNat (rest.headD '\x00').toNat, p)
      else
        match SignedBinary.read? (a.toList.dropWhile Arithmetic.isBlank) with
        | none => (0, p.complainAbout a "expected numeric value")
        | some (x, after) =>
          let isLarge := x.isInf && a.toList.any Char.isDigit
          let isSmall := x.abs < Float.ofScientific 22250738585072014 true 324 &&
            (a.toList.takeWhile fun c => c != 'e' && c != 'E').any fun c => '1' ≤ c && c ≤ '9'
          if !after.isEmpty then (x, p.complainAbout a "not completely converted")
          else if isLarge || isSmall then (x, p.complainAbout a outOfRange)
          else (x, p)

end Printed

/-- A text in a field of some width. -/
def pad (left : Bool) (filler : Char) (width : Nat) (cs : List Char) : List Char :=
  let gap := List.replicate (width - cs.length) filler
  if left then cs ++ gap else gap ++ cs

/-- The digits of a number, at least as many as the precision says. -/
def digitsOf (base : Nat) (upper : Bool) (precision : Option Nat) (n : Nat) : List Char :=
  let ds := if n = 0 ∧ precision = some 0 then [] else Nat.toDigits base n
  pad false '0' (precision.getD 1) (if upper then ds.map Char.toUpper else ds)

def numberField (d : Directive) (lead digits : List Char) : List Char :=
  if d.flags.contains '-' then pad true ' ' d.width (lead ++ digits)
  else if d.flags.contains '0' ∧ d.precision = none then
    lead ++ pad false '0' (d.width - lead.length) digits
  else pad false ' ' d.width (lead ++ digits)

/-- What goes in front of a number. -/
def signOf (d : Directive) (negative : Bool) : List Char :=
  if negative then ['-'] else if d.flags.contains '+' then ['+'] else if d.flags.contains ' ' then [' '] else []

/-- A text in a field, cut to the precision. -/
def textField (d : Directive) (cs : List Char) : String :=
  let cs := match d.precision with
    | some n => cs.take n
    | none => cs
  String.ofList (pad (d.flags.contains '-') ' ' d.width cs)

/-- The text of a number with a fraction in the form that a letter asks for, without its sign. -/
def realDigits (d : Directive) (x : SignedBinary) : List Char :=
  let places := d.precision.getD 6
  let marked := d.flags.contains '#'
  let cs := match d.letter.toLower with
    | 'e' => x.scientific places marked
    | 'f' => x.fixed places marked
    | _ => x.general places marked
  if d.letter.isUpper then cs.map Char.toUpper else cs

/-- A number with a fraction in a field. -/
def realField (d : Directive) (x : Float) : String :=
  let parts := SignedBinary.ofFloat x
  let lead := signOf d parts.isNegative
  let digits := realDigits d parts
  let flags := if x.isFinite then d.flags else d.flags.filter (· != '0')
  String.ofList (numberField { d with flags, precision := none } lead digits)

def Printed.directive (p : Printed) (d : Directive) : Printed :=
  let unsigned (base : Nat) (upper : Bool) (mark : List Char) : Printed :=
    let (n, p) := p.number Printed.maxUnsigned
    let n := Arithmetic.bitsOf n
    let lead := if d.flags.contains '#' ∧ n ≠ 0 then mark else []
    p.add (String.ofList (numberField d lead (digitsOf base upper d.precision n)))
  match d.letter with
  | 's' =>
    let (a, p) := p.next
    p.add (textField d (a.getD "").toList)
  | 'b' =>
    let (a, p) := p.next
    let (cs, stops) := unescapeAll ((a.getD "").length + 1) (a.getD "").toList
    { p.add (textField d cs) with stopped := stops }
  | 'c' =>
    let (a, p) := p.next
    p.add (textField { d with precision := none } [((a.getD "").toList.headD '\x00')])
  | 'd' | 'i' =>
    let (n, p) := p.number Printed.maxSigned
    p.add (String.ofList (numberField d (signOf d (n < 0)) (digitsOf 10 false d.precision n.natAbs)))
  | 'u' => unsigned 10 false []
  | 'o' => unsigned 8 false ['0']
  | 'x' => unsigned 16 false ['0', 'x']
  | 'X' => unsigned 16 true ['0', 'X']
  | 'e' | 'E' | 'f' | 'F' | 'g' | 'G' =>
    let (x, p) := p.real
    p.add (realField d x)
  | _ => { p with stopped := true, status := 2 }

/-- A width or a precision: digits, or the next argument for a `*`. -/
def measure (p : Printed) : List Char → Option Int × Printed × List Char
  | '*' :: rest =>
    let (n, p) := p.number Printed.maxSigned
    (some n, p, rest)
  | cs =>
    match cs.span Char.isDigit with
    | ([], rest) => (none, p, rest)
    | (ds, rest) => (some (Arithmetic.natOf 10 ds), p, rest)

/-- The directive after a percent sign, and what follows; there is none without a letter. -/
def directive? (p : Printed) (cs : List Char) : Printed × Option (Directive × List Char) :=
  let (flags, cs) := cs.span fun c => "#-+ 0".toList.contains c
  let (width, p, cs) := measure p cs
  let (precision, p, cs) := match cs with
    | '.' :: rest =>
      let (n, p, rest) := measure p rest
      (some (n.getD 0).toNat, p, rest)
    | cs => (none, p, cs)
  let flags := if width.any (· < 0) then '-' :: flags else flags
  match cs with
  | letter :: rest => (p, some (⟨flags, (width.getD 0).natAbs, precision, letter⟩, rest))
  | [] => (p, none)

/-- Prints a format once; `fuel` bounds its length. -/
def formatOnce : (fuel : Nat) → List Char → Printed → Printed
  | 0, _, p => p
  | _ + 1, [], p => p
  | fuel + 1, '\\' :: rest, p =>
    let (c, rest) := unescape rest
    formatOnce fuel rest (p.add c.toString)
  | fuel + 1, '%' :: '%' :: rest, p => formatOnce fuel rest (p.add "%")
  | fuel + 1, '%' :: rest, p =>
    match directive? p rest with
    | (p, none) => { p with complaints := p.complaints ++ ["missing format character"], status := 2, stopped := true }
    | (p, some (d, after)) =>
      if "sbcdiuoxXeEfFgG".toList.contains d.letter then
        let p := p.directive d
        if p.stopped then p else formatOnce fuel after p
      else
        let start := String.ofList ('%' :: rest.take (rest.length - after.length))
        { p with complaints := p.complaints ++ [start ++ ": invalid directive"], status := 2, stopped := true }
  | fuel + 1, c :: rest, p => formatOnce fuel rest (p.add c.toString)

/-- Prints a format until all arguments are used; `rounds` bounds how often. -/
def formatRounds (format : List Char) : (rounds : Nat) → Printed → Printed
  | 0, p => p
  | rounds + 1, p =>
    let q := formatOnce (format.length + 1) format p
    if q.stopped || q.args.isEmpty || q.args.length == p.args.length then q else formatRounds format rounds q

/-- **Prints arguments the way a format says.** -/
def formatted (format : String) (args : List String) : Printed :=
  formatRounds format.toList (args.length + 1) { args }

end Script

end Recompile

import Recompile.Script.Arithmetic
import Recompile.Script.Tool.Options

/-!
# Tools that put lines in order

`sort` orders lines by keys, which are parts of them, and `comm` tells which lines of two ordered files are in both.

* `SortKey.read` reads the description of a key.
* `SortKey.order` compares two lines by a key.
-/

namespace Recompile

namespace Script

namespace Tool

/-! ### Keys -/

/-- How the texts of a key are compared. -/
structure SortManner where
  /-- The letters of the manner, without those for blanks. -/
  letters : List Char := []
  /-- Whether blanks at the start of the first field and of the last one are left out. -/
  skipsFirst : Bool := false
  skipsLast : Bool := false

/-- **A key:** the part of a line from a field and a character on, up to the end of others, counted from zero; the
end of a field stands for all its characters. -/
structure SortKey where
  field : Nat := 0
  char : Nat := 0
  /-- The last field and how many characters of it belong to the key. -/
  last : Option (Nat × Nat) := none
  manner : SortManner := {}

/-- The letters that say how keys are compared. -/
def mannerLetters : List Char := "dfghiMnRrV".toList

/-- Takes letters from the description of a key. -/
def takeManner (isFirst : Bool) (m : SortManner) : List Char → SortManner × List Char
  | [] => (m, [])
  | c :: rest =>
    if c == 'b' then
      takeManner isFirst (if isFirst then { m with skipsFirst := true } else { m with skipsLast := true }) rest
    else if mannerLetters.contains c then takeManner isFirst { m with letters := m.letters ++ [c] } rest
    else (m, c :: rest)

/-- Takes a number from the description of a key. -/
def takeCount (fault : String) (cs : List Char) : Except String (Nat × List Char) :=
  let (ds, rest) := cs.span Char.isDigit
  if ds.isEmpty then .error (fault ++ ": invalid count at start of " ++ shown (String.ofList cs))
  else .ok (Arithmetic.natOf 10 ds, rest)

/-- **Reads the description of a key,** or says what is wrong with it. -/
def SortKey.read (text : String) : Except String SortKey := do
  let invalid (reason : String) : String := reason ++ ": invalid field specification " ++ shown text
  let (field, rest) ← takeCount "invalid number at field start" text.toList
  if field = 0 then throw (invalid "field number is zero")
  let (char, rest) ← match rest with
    | '.' :: rest => takeCount "invalid number after '.'" rest
    | rest => pure (1, rest)
  if char = 0 then throw (invalid "character offset is zero")
  let (manner, rest) := takeManner true {} rest
  let key : SortKey := { field := field - 1, char := char - 1, manner }
  match rest with
  | [] => return key
  | ',' :: rest => do
    let (field, rest) ← takeCount "invalid number after ','" rest
    if field = 0 then throw (invalid "field number is zero")
    let (char, rest) ← match rest with
      | '.' :: rest => takeCount "invalid number after '.'" rest
      | rest => pure (0, rest)
    let (manner, rest) := takeManner false manner rest
    if !rest.isEmpty then throw (invalid "stray character in field spec")
    return { key with last := some (field - 1, char), manner }
  | _ => throw (invalid "stray character in field spec")

def isFieldGap (c : Char) : Bool := c == ' ' || c == '\t' || c == '\n'

/-- What follows some fields; with `whole` also the separator behind the last of them is left out. -/
def afterFields (separator : Option Char) (whole : Bool) : (count : Nat) → List Char → List Char
  | 0, cs => cs
  | count + 1, cs =>
    match separator with
    | some t =>
      let rest := cs.dropWhile (· != t)
      afterFields separator whole count (if count = 0 && !whole then rest else rest.drop 1)
    | none => afterFields separator whole count ((cs.dropWhile isFieldGap).dropWhile fun c => !isFieldGap c)

def SortKey.part (k : SortKey) (separator : Option Char) (line : List Char) : List Char :=
  let start := afterFields separator true k.field line
  let start := if k.manner.skipsFirst then start.dropWhile isFieldGap else start
  let start := start.drop k.char
  match k.last with
  | none => start
  | some (field, char) =>
    let rest := if char = 0 then afterFields separator false (field + 1) line
      else
        let rest := afterFields separator true field line
        (if k.manner.skipsLast then rest.dropWhile isFieldGap else rest).drop char
    start.take (start.length - rest.length)

/-! ### Manners -/

/-- A number at the front of a text: whether it is negative, its digits, and those of its fraction. -/
def frontDecimal (cs : List Char) : Bool × List Char × List Char :=
  let cs := cs.dropWhile isFieldGap
  let (negative, cs) := match cs with
    | '-' :: rest => (true, rest)
    | cs => (false, cs)
  let (whole, rest) := cs.span Char.isDigit
  let fraction := match rest with
    | '.' :: ds => ds.takeWhile Char.isDigit
    | _ => []
  (negative, whole, fraction)

/-- The order of the numbers at the front of two texts; without digits it is zero. -/
def decimalOrder (a b : List Char) : Ordering :=
  let (m, x, y) := frontDecimal a
  let (n, z, w) := frontDecimal b
  let places := max y.length w.length
  let value (negative : Bool) (whole fraction : List Char) : Int :=
    let v : Int := Arithmetic.natOf 10 (whole ++ fraction ++ List.replicate (places - fraction.length) '0')
    if negative then -v else v
  compare (value m x y) (value n z w)

/-- The rank of the unit behind the number at the front of a text. -/
def unitRank (cs : List Char) : Int :=
  let (negative, whole, fraction) := frontDecimal cs
  if (whole ++ fraction).all (· == '0') then 0
  else
    let rest := cs.dropWhile fun c => isFieldGap c || c == '-' || c == '.' || c.isDigit
    let rank : Int := match rest with
      | c :: _ => if c == 'k' then 1 else ("KMGTPEZYRQ".toList.idxOf? c).elim 0 fun i => i + 1
      | [] => 0
    if negative then -rank else rank

/-- The number of the month at the front of a text, or zero. -/
def monthNumber (cs : List Char) : Nat :=
  let name := ((cs.dropWhile isFieldGap).take 3).map Char.toUpper
  let names := ["JAN", "FEB", "MAR", "APR", "MAY", "JUN", "JUL", "AUG", "SEP", "OCT", "NOV", "DEC"]
  (names.idxOf? (String.ofList name)).elim 0 (· + 1)

/-- A number with an exponent at the front of a text, as a whole number and the exponent of ten. -/
def frontScientific? (cs : List Char) : Option (Int × Int) :=
  let cs := cs.dropWhile isFieldGap
  let (negative, cs) := match cs with
    | '-' :: rest => (true, rest)
    | '+' :: rest => (false, rest)
    | cs => (false, cs)
  let (whole, rest) := cs.span Char.isDigit
  let (fraction, rest) := match rest with
    | '.' :: ds => ds.span Char.isDigit
    | rest => ([], rest)
  if whole.isEmpty && fraction.isEmpty then none
  else
    let exponent : Int := match rest with
      | e :: rest =>
        if e == 'e' || e == 'E' then
          match rest with
          | '-' :: ds => -(Arithmetic.natOf 10 (ds.takeWhile Char.isDigit) : Int)
          | '+' :: ds => Arithmetic.natOf 10 (ds.takeWhile Char.isDigit)
          | ds => Arithmetic.natOf 10 (ds.takeWhile Char.isDigit)
        else 0
      | [] => 0
    let n : Int := Arithmetic.natOf 10 (whole ++ fraction)
    some (if negative then -n else n, max (-5000) (min 5000 exponent) - fraction.length)

/-- The order of the numbers with exponents at the front of two texts. What is no number comes first. -/
def scientificOrder (a b : List Char) : Ordering :=
  match frontScientific? a, frontScientific? b with
  | none, none => .eq
  | none, some _ => .lt
  | some _, none => .gt
  | some (m, e), some (n, f) =>
    let least := min e f
    compare (m * Int.ofNat (Nat.pow 10 (e - least).toNat)) (n * Int.ofNat (Nat.pow 10 (f - least).toNat))

/-- The weight of the first character of a text among versions. -/
def versionWeight : List Char → Int
  | [] => -1
  | c :: _ =>
    if c.isDigit then 0 else if c.isAlpha then c.toNat else if c == '~' then -2 else (c.toNat : Int) + 256

/-- The order of two texts in which runs of digits are numbers; `fuel` bounds their lengths. -/
def versionOrder : (fuel : Nat) → List Char → List Char → Ordering
  | 0, _, _ => .eq
  | _ + 1, [], [] => .eq
  | fuel + 1, a, b =>
    let isText (cs : List Char) : Bool := cs.head?.any fun c => !c.isDigit
    if isText a || isText b then
      (compare (versionWeight a) (versionWeight b)).then (versionOrder fuel a.tail b.tail)
    else
      let (x, a) := (a.dropWhile (· == '0')).span Char.isDigit
      let (y, b) := (b.dropWhile (· == '0')).span Char.isDigit
      (compare (Arithmetic.natOf 10 x) (Arithmetic.natOf 10 y)).then (versionOrder fuel a b)

/-- A text without the endings that name a kind of file. -/
def withoutEndings (cs : List Char) : List Char :=
  let isLetter (c : Char) : Bool := c.isAlpha || c == '~'
  let rec cut : List (List Char) → List (List Char)
    | [] => []
    | part :: before =>
      if part.head?.any isLetter && part.all (fun c => isLetter c || c.isDigit) && !before.isEmpty then cut before
      else part :: before
  ['.'].intercalate (cut (cs.splitOn '.').reverse).reverse

/-- The order of two names with versions. -/
def versionNameOrder (a b : List Char) : Ordering :=
  let rank (cs : List Char) : Nat :=
    if cs = [] then 0
    else if cs = ['.'] then 1
    else if cs = ['.', '.'] then 2
    else if cs.head? == some '.' then 3
    else 4
  let size := a.length + b.length + 1
  (compare (rank a) (rank b)).then
    ((versionOrder size (withoutEndings a) (withoutEndings b)).then (versionOrder size a b))

/-- The order of two texts. -/
def textOrder (a b : List Char) : Ordering := compare (String.ofList a) (String.ofList b)

/-- The order of two texts in a manner. -/
def SortManner.order (m : SortManner) (a b : List Char) : Ordering :=
  let has (c : Char) : Bool := m.letters.contains c
  let o :=
    if has 'n' then decimalOrder a b
    else if has 'g' then scientificOrder a b
    else if has 'h' then (compare (unitRank a) (unitRank b)).then (decimalOrder a b)
    else if has 'M' then compare (monthNumber a) (monthNumber b)
    else if has 'V' then versionNameOrder a b
    else
      let kept (cs : List Char) : List Char :=
        let cs := if has 'd' then cs.filter fun c => c.isAlphanum || isFieldGap c else cs
        let cs := if has 'i' then cs.filter fun c => ' ' ≤ c && c ≤ '~' else cs
        if has 'f' then cs.map Char.toUpper else cs
      textOrder (kept a) (kept b)
  if has 'r' then o.swap else o

/-- The letters of a manner, if it asks for different kinds of order. -/
def SortManner.conflict? (m : SortManner) : Option String :=
  let has (c : Char) : Bool := m.letters.contains c
  let kinds := ("nghM".toList.filter has).length + (if "VRdi".toList.any has then 1 else 0)
  if 1 < kinds then some (String.ofList ("dfghiMnRV".toList.filter has)) else none

/-- The order of two lines by a key. -/
def SortKey.order (k : SortKey) (separator : Option Char) (a b : String) : Ordering :=
  k.manner.order (k.part separator a.toList) (k.part separator b.toList)

/-- The order of two lines by some keys. -/
def keysOrder (separator : Option Char) (a b : String) : List SortKey → Ordering
  | [] => .eq
  | k :: rest => (k.order separator a b).then (keysOrder separator a b rest)

/-! ### Sorting -/

/-- Lines without those that equal the one before them. -/
def dropRepeats (equal : String → String → Bool) : List String → List String
  | a :: b :: rest => if equal a b then dropRepeats equal (a :: rest) else a :: dropRepeats equal (b :: rest)
  | ls => ls
termination_by ls => ls.length

/-- The parts of a text between separators, where the last part may lack one. -/
def recordsOf (separator : Char) (s : String) : List String :=
  let pieces := (s.toList.splitOn separator).map String.ofList
  if pieces.getLast? == some "" then pieces.dropLast else pieces

/-- The first line that does not follow the one before it, with its number. -/
def disorder? (follows : String → String → Bool) : (number : Nat) → List String → Option (Nat × String)
  | number, a :: b :: rest => if follows a b then disorder? follows (number + 1) (b :: rest) else some (number + 1, b)
  | _, _ => none

/-- The description of a key that an old form of argument stands for: a number after a plus sign. -/
def oldKey (args : List String) : List String :=
  args.flatMap fun a =>
    match a.toList with
    | '+' :: c :: cs =>
      if (c :: cs).all Char.isDigit then ["-k", toString (Arithmetic.natOf 10 (c :: cs) + 1)] else [a]
    | _ => [a]

/-- The options of `sort`. -/
def sortOptions : Options where
  flags := "nrufbsdiVghMmcCzR"
  valued := "ktoTSPB"
  attached := "K"
  names := [("unique", 'u'), ("reverse", 'r'), ("numeric-sort", 'n'), ("key", 'k'), ("field-separator", 't'),
    ("output", 'o'), ("stable", 's'), ("ignore-case", 'f'), ("ignore-leading-blanks", 'b'), ("dictionary-order", 'd'),
    ("general-numeric-sort", 'g'), ("human-numeric-sort", 'h'), ("ignore-nonprinting", 'i'), ("month-sort", 'M'),
    ("version-sort", 'V'), ("merge", 'm'), ("check", 'K'), ("zero-terminated", 'z'), ("sort", 'P'),
    ("temporary-directory", 'T'), ("buffer-size", 'S'), ("parallel", 'B')]

def namedManner : List (String × Char) :=
  [("general-numeric", 'g'), ("human-numeric", 'h'), ("month", 'M'), ("numeric", 'n'), ("random", 'R'),
    ("version", 'V')]

/-- Sorts lines, or checks whether they are in order. -/
def sort : Action := fun args => withOptions "sort" sortOptions 2 (fun g => do
  let separator ← match g.value? 't' with
    | none => pure none
    | some "" => return ← failWith "sort" "empty tab" 2
    | some t =>
      match t.toList with
      | ['\\', '0'] => pure (some '\x00')
      | [c] => pure (some c)
      | _ => return ← failWith "sort" ("multi-character tab " ++ shown t) 2
  let letters := (mannerLetters.filter g.has) ++ (g.values 'P').filterMap fun n => namedManner.lookup n
  let common : SortManner := { letters, skipsFirst := g.has 'b', skipsLast := g.has 'b' }
  match (g.values 'k').mapM SortKey.read with
  | .error reason => failWith "sort" reason 2
  | .ok keys => do
    let inherit (k : SortKey) : SortKey :=
      if k.manner.letters.isEmpty && !k.manner.skipsFirst && !k.manner.skipsLast then { k with manner := common } else k
    let keys := if keys.isEmpty then [{ manner := common }] else keys.map inherit
    if let some letters := keys.findSome? fun k => k.manner.conflict? then
      return ← failWith "sort" ("options '-" ++ letters ++ "' are incompatible") 2
    let checks := g.has 'c' || g.has 'C' || g.has 'K'
    if checks then
      if let extra :: _ := g.operands.drop 1 then
        return ← failWith "sort" ("extra operand " ++ shown extra ++ " not allowed with -c") 2
    let wording (p cause : String) : String :=
      (if cause = causeText (.ofKind .isADirectory) then "read failed: " else "cannot read: ") ++ p ++ ": " ++ cause
    let (texts, status) ← inputTexts "sort" wording (inputs g)
    if status ≠ 0 then return 2
    let ending := if g.has 'z' then '\x00' else '\n'
    let ls := texts.flatMap (recordsOf ending)
    let byKeys (a b : String) : Ordering := keysOrder separator a b keys
    let order (a b : String) : Ordering :=
      if g.has 's' || g.has 'u' then byKeys a b
      else (byKeys a b).then (if g.has 'r' then (compare a b).swap else compare a b)
    if checks then
      match disorder? (fun a b => if g.has 'u' then byKeys a b == .lt else order a b != .gt) 1 ls with
      | none => return 0
      | some (number, line) =>
        if g.has 'C' || (g.value? 'K').any (· != "") then return 1
        failWith "sort" ((inputs g).headD "-" ++ ":" ++ toString number ++ ": disorder: " ++ line) 1
    else
      let ls := ls.mergeSort fun a b => order a b != .gt
      let ls := if g.has 'u' then dropRepeats (fun a b => byKeys a b == .eq) ls else ls
      let out := String.join (ls.map (·.push ending))
      match g.value? 'o' with
      | none => do
        print out
        return 0
      | some p =>
        match ← openFile .overwrite p with
        | .error fault => failWith "sort" ("open failed: " ++ p ++ ": " ++ causeText fault) 2
        | .ok channel => do
          let s ← get
          connect 9 channel
          discard <| write 9 out
          modify fun t => { t with descriptors := s.descriptors }
          return 0) (oldKey args)

/-! ### Common lines -/

/-- Where a line is: in the first of two files, in the second, or in both. -/
inductive Whereabouts
  | first
  | second
  | both
deriving DecidableEq

/-- The lines of two ordered lists, with where each one is; `fuel` bounds their number. -/
def merged : (fuel : Nat) → List String → List String → List (Whereabouts × String)
  | 0, _, _ => []
  | _ + 1, as, [] => as.map (.first, ·)
  | _ + 1, [], bs => bs.map (.second, ·)
  | fuel + 1, a :: as, b :: bs =>
    match compare a b with
    | .lt => (.first, a) :: merged fuel as (b :: bs)
    | .gt => (.second, b) :: merged fuel (a :: as) bs
    | .eq => (.both, a) :: merged fuel as bs

/-- Tells which lines are in one of two ordered files, or in both. -/
def comm : Action :=
  withOptions "comm"
    { flags := "123zNHQ", valued := "O"
      names := [("output-delimiter", 'O'), ("zero-terminated", 'z'), ("nocheck-order", 'N'), ("check-order", 'H'),
        ("total", 'Q')] } 1 fun g => do
    match g.operands with
    | [] => missingOperand "comm" 1
    | [a] => misuse "comm" ("missing operand after " ++ shown a) 1
    | _ :: _ :: extra :: _ => misuse "comm" ("extra operand " ++ shown extra) 1
    | [a, b] => do
      match ← operandText a, ← operandText b with
      | .error cause, _ => failWith "comm" (a ++ ": " ++ cause) 1
      | _, .error cause => failWith "comm" (b ++ ": " ++ cause) 1
      | .ok x, .ok y => do
        let ending := if g.has 'z' then '\x00' else '\n'
        let delimiter := (g.value? 'O').getD "\t"
        let as := recordsOf ending x
        let bs := recordsOf ending y
        let rows := merged (as.length + bs.length + 1) as bs
        let column (n : Char) : String := if g.has n then "" else delimiter
        print (String.join (rows.map fun (w, line) =>
          match w with
          | .first => if g.has '1' then "" else line.push ending
          | .second => if g.has '2' then "" else (column '1' ++ line).push ending
          | .both => if g.has '3' then "" else (column '1' ++ column '2' ++ line).push ending))
        if g.has 'Q' then
          let count (w : Whereabouts) : String := toString (rows.countP (·.1 == w))
          print (delimiter.intercalate [count .first, count .second, count .both, "total"] ++ "\n")
        let follows (a b : String) : Bool := compare a b != .gt
        let unordered := [(1, as), (2, bs)].filter fun (_, ls) => (disorder? follows 1 ls).isSome
        if unordered.isEmpty || g.has 'N' || (as == bs && !g.has 'H') then return 0
        unordered.forM fun (n, _) => complain "comm" ("file " ++ toString n ++ " is not in sorted order")
        if !g.has 'H' then complain "comm" "input is not in sorted order"
        return 1

end Tool

end Script

end Recompile

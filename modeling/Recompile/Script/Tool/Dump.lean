import Recompile.Script.Tool.Text

/-!
# Tools that show bytes in other forms

`od` shows bytes as numbers or as characters, `base64` writes them in letters, `fold` and `expand` change how wide
lines are.
-/

namespace Recompile

namespace Script

namespace Tool

/-! ### Numbers and characters -/

/-- **How a group of bytes is shown.** -/
inductive Shape
  | named
  | char
  /-- Digits of a base, as many as the largest number needs. -/
  | digits (base : Nat)
  | decimal (signed : Bool)
deriving DecidableEq, Repr

/-- **A row of a dump:** how groups of so many bytes are shown, and whether the characters stand at its end. -/
structure DumpRow where
  shape : Shape
  size : Nat
  seen : Bool := false
deriving Repr

/-- The number of digits that the largest number of a row has, with a sign if it may have one. -/
def DumpRow.width (r : DumpRow) : Nat :=
  let most := Nat.pow 256 r.size - 1
  match r.shape with
  | .named | .char => 3
  | .digits base => (Nat.toDigits base most).length
  | .decimal false => (toString most).length
  | .decimal true => (toString (most / 2)).length + 1

/-- The names of the bytes that have no shape of their own. -/
def byteNames : List String :=
  ["nul", "soh", "stx", "etx", "eot", "enq", "ack", "bel", "bs", "ht", "nl", "vt", "ff", "cr", "so", "si", "dle", "dc1",
    "dc2", "dc3", "dc4", "nak", "syn", "etb", "can", "em", "sub", "esc", "fs", "gs", "rs", "us", "sp"]

def charForm (c : Char) : String :=
  match [('\x00', "\\0"), ('\x07', "\\a"), ('\x08', "\\b"), ('\x0c', "\\f"), ('\n', "\\n"), ('\r', "\\r"),
    ('\t', "\\t"),
    ('\x0b', "\\v")].lookup c with
  | some s => s
  | none =>
    if ' ' ≤ c && c ≤ '~' then c.toString
    else
      let ds := Nat.toDigits 8 c.toNat
      String.ofList (List.replicate (3 - ds.length) '0' ++ ds)

/-- The number that some bytes are, the lowest first. -/
def littleEndian (cs : List Char) : Nat := cs.foldr (fun c n => n * 256 + c.toNat) 0

/-- A group of bytes in the form of a row. What is missing at the end of the input counts as zero. -/
def DumpRow.form (r : DumpRow) (cs : List Char) : String :=
  let n := littleEndian cs
  match r.shape with
  | .char => String.join (cs.map charForm)
  | .named => if n % 128 = 127 then "del" else (byteNames[n % 128]?).getD (Char.ofNat (n % 128)).toString
  | .digits base =>
    let ds := Nat.toDigits base n
    String.ofList (List.replicate (r.width - ds.length) '0' ++ ds)
  | .decimal false => toString n
  | .decimal true =>
    let all := Nat.pow 256 r.size
    toString (if all / 2 ≤ n then (n : Int) - all else n)

/-- The groups of so many members of a list; `fuel` bounds their number. -/
def groupsOf {α : Type} (size : Nat) : (fuel : Nat) → List α → List (List α)
  | 0, _ => []
  | _ + 1, [] => []
  | fuel + 1, xs => xs.take size :: groupsOf size fuel (xs.drop size)

/-- A row for some bytes. `width` is that of the widest row for as many bytes as a line has: what a row needs less
is spread over its groups. -/
def DumpRow.text (r : DumpRow) (width count : Nat) (cs : List Char) : String :=
  let fields := count / r.size
  let spare := width - (r.width + 1) * fields
  let groups := groupsOf r.size (cs.length + 1) cs
  let column (i : Nat) : Nat := r.width + 1 + (spare * (fields - i) / fields - spare * (fields - i - 1) / fields)
  let row := String.join (groups.zipIdx.map fun (g, i) =>
    let s := r.form g
    String.ofList (List.replicate (column i - s.length) ' ') ++ s)
  if !r.seen then row
  else
    let missing := ((List.range fields).drop groups.length).map column
    row ++ String.ofList (List.replicate (missing.foldl (· + ·) 0) ' ') ++ "  >" ++
      String.ofList (cs.map fun c => if ' ' ≤ c && c ≤ '~' then c else '.') ++ "<"

/-- The address of a line, in a base and so many digits. -/
def addressText (base : Option Nat) (n : Nat) : String :=
  match base with
  | none => ""
  | some base =>
    let ds := Nat.toDigits base n
    String.ofList (List.replicate ((if base = 16 then 6 else 7) - ds.length) '0' ++ ds)

/-- The lines of a dump. Of lines that equal the one before them only a mark is shown, unless all are asked for;
the last line is always shown. `fuel` bounds their number. -/
def dumpLines (base : Option Nat) (every : Bool) (rows : List DumpRow) (count : Nat) :
    (fuel place : Nat) → (before : Option (List Char)) → (marked : Bool) → List Char → List String
  | 0, _, _, _, _ => []
  | _ + 1, place, _, _, [] => if base.isSome then [addressText base place] else []
  | fuel + 1, place, before, marked, cs =>
    let block := cs.take count
    let rest := cs.drop count
    let next := dumpLines base every rows count fuel (place + block.length) (some block)
    if !every && before == some block && block.length == count then
      if marked then next true rest else "*" :: next true rest
    else
      let width := (rows.map fun r => (r.width + 1) * (count / r.size)).foldl max 0
      let blank := String.ofList (List.replicate (addressText base place).length ' ')
      let shown := rows.zipIdx.map fun (r, i) =>
        (if i = 0 then addressText base place else blank) ++ r.text width count block
      shown ++ next false rest

/-- The rows that a description asks for, or what is wrong with it; `fuel` bounds their number. -/
def dumpRows (whole : String) : (fuel : Nat) → List Char → Except String (List DumpRow)
  | 0, _ => .ok []
  | _ + 1, [] => .ok []
  | fuel + 1, c :: rest => do
    let seen (rest : List Char) : Bool × List Char :=
      match rest with
      | 'z' :: rest => (true, rest)
      | rest => (false, rest)
    let shape? : Option Shape := match c with
      | 'a' => some .named
      | 'c' => some .char
      | 'd' => some (.decimal true)
      | 'u' => some (.decimal false)
      | 'o' => some (.digits 8)
      | 'x' => some (.digits 16)
      | _ => none
    match shape? with
    | none => throw ("invalid character '" ++ c.toString ++ "' in type string " ++ shown whole)
    | some shape =>
      if shape = .named ∨ shape = .char then
        let (isSeen, rest) := seen rest
        return ⟨shape, 1, isSeen⟩ :: (← dumpRows whole fuel rest)
      let ds := rest.takeWhile Char.isDigit
      let (size, rest) := match rest with
        | 'C' :: rest => (1, rest)
        | 'S' :: rest => (2, rest)
        | 'I' :: rest => (4, rest)
        | 'L' :: rest => (8, rest)
        | rest => (if ds.isEmpty then 4 else Arithmetic.natOf 10 ds, rest.drop ds.length)
      if !([1, 2, 4, 8].contains size) then
        throw ("invalid type string " ++ shown whole ++ ";\nthis system doesn't provide a " ++ toString size
          ++ "-byte integral type")
      let (isSeen, rest) := seen rest
      return ⟨shape, size, isSeen⟩ :: (← dumpRows whole fuel rest)

/-- The rows that the letters without a value stand for. -/
def plainRows : List (Char × String) :=
  [('a', "a"), ('b', "o1"), ('c', "c"), ('d', "u2"), ('i', "dI"), ('l', "dL"), ('o', "o2"), ('s', "d2"), ('x', "x2")]

/-- Shows bytes as numbers or characters. -/
def od : Action :=
  withOptions "od"
    { flags := "abcdilosxv", valued := "tANj", attached := "w"
      names := [("format", 't'), ("address-radix", 'A'), ("read-bytes", 'N'), ("skip-bytes", 'j'), ("width", 'w'),
        ("output-duplicates", 'v')] } 1 fun g => do
    let descriptions := g.options.filterMap fun (c, value) => if c == 't' then some value else plainRows.lookup c
    let base? : Option (Option Nat) := match g.value? 'A' with
      | none | some "o" => some (some 8)
      | some "d" => some (some 10)
      | some "x" => some (some 16)
      | some "n" => some none
      | some _ => none
    let descriptions := if descriptions.isEmpty then ["o2"] else descriptions
    match base?, descriptions.mapM fun d => dumpRows d (d.length + 1) d.toList with
    | none, _ =>
      failWith "od" ("invalid output address radix " ++ shown ((g.value? 'A').getD "")
        ++ "; it must be one character from [doxn]") 1
    | _, .error reason => failWith "od" reason 1
    | some base, .ok rows => do
      let (text, status) ← inputText "od" plainWording (inputs g)
      let skip := ((g.value? 'j').bind fun s => sized? s.toList).getD 0
      if text.isEmpty && status ≠ 0 then return status
      if text.length < skip then return ← failWith "od" "cannot skip past end of combined input" 1
      let cs := text.toList.drop skip
      let cs := match (g.value? 'N').bind fun s => sized? s.toList with
        | some n => cs.take n
        | none => cs
      let count := match g.value? 'w' with
        | some "" => 32
        | some n => max 1 ((digits? n).getD 16)
        | none => 16
      print (unlines (dumpLines base (g.has 'v') rows.flatten count (cs.length + 2) skip none false cs))
      return status

/-! ### Letters -/

/-- The letters that stand for six bits each. -/
def base64Letters : Array Char := "ABCDEFGHIJKLMNOPQRSTUVWXYZabcdefghijklmnopqrstuvwxyz0123456789+/".toList.toArray

/-- Bytes in letters, three bytes in four letters. -/
def toBase64 : List Char → List Char
  | [] => []
  | [a] =>
    let n := a.toNat * 16
    [letter (n / 64), letter n, '=', '=']
  | [a, b] =>
    let n := (a.toNat * 256 + b.toNat) * 4
    [letter (n / 4096), letter (n / 64), letter n, '=']
  | a :: b :: c :: rest =>
    let n := (a.toNat * 256 + b.toNat) * 256 + c.toNat
    letter (n / 262144) :: letter (n / 4096) :: letter (n / 64) :: letter n :: toBase64 rest
where
  /-- The letter for the six lowest bits of a number. -/
  letter (n : Nat) : Char := (base64Letters[n % 64]?).getD '='

/-- The bytes that letters stand for, and whether all of them made sense. -/
def fromBase64 : List Char → List Char × Bool
  | [] => ([], true)
  | a :: b :: rest =>
    match base64Letters.idxOf? a, base64Letters.idxOf? b, rest with
    | some i, some j, ['=', '='] | some i, some j, [] =>
      ([Char.ofNat ((i * 64 + j) / 16 % 256)], !rest.isEmpty)
    | some i, some j, c :: rest =>
      match base64Letters.idxOf? c, rest with
      | some k, ['='] | some k, [] =>
        let n := (i * 64 + j) * 64 + k
        ([Char.ofNat (n / 1024 % 256), Char.ofNat (n / 4 % 256)], !rest.isEmpty)
      | some k, d :: rest =>
        match base64Letters.idxOf? d with
        | some l =>
          let n := ((i * 64 + j) * 64 + k) * 64 + l
          let (more, fine) := fromBase64 rest
          (Char.ofNat (n / 65536 % 256) :: Char.ofNat (n / 256 % 256) :: Char.ofNat (n % 256) :: more, fine)
        | none => ([Char.ofNat ((i * 64 + j) / 16 % 256), Char.ofNat (((i * 64 + j) * 64 + k) / 4 % 256)], false)
      | none, _ => ([Char.ofNat ((i * 64 + j) / 16 % 256)], false)
    | _, _, _ => ([], false)
  | _ => ([], false)

/-- Writes bytes in letters, or the other way round. -/
def base64 : Action :=
  withOptions "base64"
    { flags := "di", valued := "w", names := [("decode", 'd'), ("ignore-garbage", 'i'), ("wrap", 'w')] } 1 fun g => do
    if let some extra := g.operands[1]? then return ← misuse "base64" ("extra operand " ++ shown extra) 1
    match ← operandText (g.operands.headD "-") with
    | .error cause => failWith "base64" (g.operands.headD "-" ++ ": " ++ cause) 1
    | .ok text =>
      if g.has 'd' then
        let isLetter (c : Char) : Bool := base64Letters.contains c || c == '='
        let (cs, fine) := fromBase64 (text.toList.filter fun c => if g.has 'i' then isLetter c else c != '\n')
        print (String.ofList cs)
        if fine then return 0 else failWith "base64" "invalid input" 1
      else
        let cs := toBase64 text.toList
        match (g.value? 'w').map digits? with
        | some none => failWith "base64" ("invalid wrap size: " ++ shown ((g.value? 'w').getD "")) 1
        | some (some 0) => do
          print (String.ofList cs)
          return 0
        | width => do
          print (unlines ((groupsOf ((width.bind id).getD 76) (cs.length + 1) cs).map String.ofList))
          return 0

/-! ### Sums -/

/-- The remainder of a check sum after a bit that is shifted out. -/
def checkStep (remainder : Nat) : Nat :=
  let shifted := remainder * 2
  if 2147483648 ≤ remainder then (shifted % 4294967296) ^^^ 79764919 else shifted

def checkByte (remainder byte : Nat) : Nat :=
  let r := remainder ^^^ (byte * 16777216)
  checkStep (checkStep (checkStep (checkStep (checkStep (checkStep (checkStep (checkStep r)))))))

/-- The bytes of a number, the lowest first; `fuel` bounds their number. -/
def bytesOf : (fuel n : Nat) → List Nat
  | 0, _ => []
  | fuel + 1, n => if n = 0 then [] else n % 256 :: bytesOf fuel (n / 256)

/-- **The check sum of a text,** which also counts how long it is. -/
def checkSum (text : String) : Nat :=
  let remainder := (text.toList.map Char.toNat ++ bytesOf 8 text.length).foldl checkByte 0
  4294967295 - remainder

/-- Shows the check sums of files. -/
def cksum : Action := withOptions "cksum" {} 1 fun g =>
  forEach (inputs g) fun p => do
    match ← operandText p with
    | .error cause => failWith "cksum" (plainWording p cause) 1
    | .ok text => do
      let name := if g.operands.isEmpty then "" else " " ++ p
      print (toString (checkSum text) ++ " " ++ toString text.length ++ name ++ "\n")
      return 0

/-! ### Widths -/

def columnAfter (column : Nat) (c : Char) : Nat :=
  match c with
  | '\t' => (column / 8 + 1) * 8
  | '\x08' => column - 1
  | '\r' => 0
  | _ => column + 1

/-- How many characters of a line are shown before it is broken: as many as fit, and if possible up to a blank. -/
def foldedSize (advance : Nat → Char → Nat) (atBlanks : Bool) (width : Nat) (line : List Char) : Nat :=
  let rec fitting (column : Nat) : List Char → Nat
    | [] => 0
    | c :: rest => if width < advance column c then 0 else fitting (advance column c) rest + 1
  let size := max 1 (fitting 0 line)
  if !atBlanks || line.length ≤ size then size
  else
    match (line.take size).reverse.findIdx? fun c => c == ' ' || c == '\t' with
    | some i => size - i
    | none => size

/-- The pieces of a line that are no wider than a width; `fuel` bounds their number. -/
def foldedLine (advance : Nat → Char → Nat) (atBlanks : Bool) (width : Nat) : (fuel : Nat) → List Char → List String
  | 0, line => [String.ofList line]
  | fuel + 1, line =>
    let size := foldedSize advance atBlanks width line
    if line.length ≤ size then [String.ofList line]
    else String.ofList (line.take size) :: foldedLine advance atBlanks width fuel (line.drop size)

/-- Breaks lines that are too wide. -/
def fold : Action := fun args =>
  let plain (a : String) : List String :=
    match a.toList with
    | '-' :: c :: cs => if (c :: cs).all Char.isDigit then ["-w", String.ofList (c :: cs)] else [a]
    | _ => [a]
  withOptions "fold"
    { flags := "bs", valued := "w", names := [("bytes", 'b'), ("spaces", 's'), ("width", 'w')] } 1 (fun g => do
      let width := (g.value? 'w').map digits?
      match width with
      | some none | some (some 0) =>
        failWith "fold" ("invalid number of columns: " ++ shown ((g.value? 'w').getD "")
          ++ (if width == some (some 0) then ": Numerical result out of range" else "")) 1
      | width => do
        let (text, status) ← inputText "fold" plainWording (inputs g)
        let advance : Nat → Char → Nat := if g.has 'b' then fun column _ => column + 1 else columnAfter
        print ("\n".intercalate ((text.toList.splitOn '\n').flatMap fun line =>
          foldedLine advance (g.has 's') ((width.bind id).getD 80) (line.length + 1) line))
        return status) (args.flatMap plain)

/-- A line with blanks in place of tabs. -/
def expandedLine (size : Nat) : (column : Nat) → List Char → List Char
  | _, [] => []
  | _, '\n' :: rest => '\n' :: expandedLine size 0 rest
  | column, '\t' :: rest =>
    let next := (column / size + 1) * size
    List.replicate (next - column) ' ' ++ expandedLine size next rest
  | column, c :: rest => c :: expandedLine size (column + 1) rest

/-- Puts blanks in place of tabs. -/
def expand : Action :=
  withOptions "expand" { flags := "i", valued := "t", names := [("tabs", 't'), ("initial", 'i')] } 1 fun g => do
    let (text, status) ← inputText "expand" plainWording (inputs g)
    print (String.ofList (expandedLine (max 1 (((g.value? 't').bind digits?).getD 8)) 0 text.toList))
    return status

end Tool

end Script

end Recompile

import Recompile.Script.Arithmetic
import Recompile.Script.Pattern
import Recompile.Script.Tool.Sorting

/-!
# Tools for text

The tools that show, cut and count the lines of files. A tool without files works on its input.
-/

namespace Recompile

namespace Script

namespace Tool

/-- The usual complaint about a file that cannot be read. -/
def plainWording (p cause : String) : String := p ++ ": " ++ cause

/-- Whether a character separates fields where nothing else is said. -/
def isGap (c : Char) : Bool := c == ' ' || c == '\t'

/-- A number at the right end of a column of some width, which is filled up with a character. -/
def padded (width : Nat) (filler : Char) (n : Nat) : String :=
  let digits := toString n
  String.ofList (List.replicate (width - digits.length) filler) ++ digits

/-! ### Whole files -/

/-- Leaves only the first of empty lines that follow one another; `after` is whether one comes before. -/
def squeezed : (after : Bool) → List String → List String
  | _, [] => []
  | after, line :: rest =>
    let more := squeezed (line == "\n") rest
    if after && line == "\n" then more else line :: more

/-- A character as it is shown where nothing stays unseen: what has no shape of its own stands after a mark. -/
def visible (tabs others : Bool) (c : Char) : String :=
  if c == '\n' then "\n"
  else if c == '\t' then (if tabs then "^I" else "\t")
  else if !others then c.toString
  else
    let (mark, n) := if 128 ≤ c.toNat then ("M-", c.toNat - 128) else ("", c.toNat)
    if n < 32 then mark ++ "^" ++ (Char.ofNat (n + 64)).toString
    else if n = 127 then mark ++ "^?"
    else mark ++ (Char.ofNat n).toString

/-- A line with a mark before its end. A carriage return before the end is shown as well. -/
def withEndShown (line : String) : String :=
  match line.toList.reverse with
  | '\n' :: '\x0d' :: front => String.ofList front.reverse ++ "^M$\n"
  | '\n' :: front => String.ofList front.reverse ++ "$\n"
  | _ => line

/-- Shows files one after another. -/
def cat : Action :=
  withOptions "cat"
    { flags := "nbuevstAET"
      names := [("show-all", 'A'), ("number-nonblank", 'b'), ("show-ends", 'E'), ("number", 'n'),
        ("squeeze-blank", 's'), ("show-tabs", 'T'), ("show-nonprinting", 'v')] } 1 fun g => do
    let (text, status) ← inputText "cat" plainWording (inputs g)
    let any (letters : String) : Bool := letters.toList.any g.has
    let ls := endedLines text
    let ls := if g.has 's' then squeezed false ls else ls
    let shape (line : String) : String :=
      let line := String.join (line.toList.map (visible (any "AtT") (any "Aetv")))
      if any "AeE" then withEndShown line else line
    let front (number : Nat) : String := padded 6 ' ' number ++ "\t"
    let (output, _) := ls.foldl (fun (output, number) line =>
      if any "nb" && !(g.has 'b' && line == "\n") then (output ++ front number ++ shape line, number + 1)
      else (output ++ shape line, number)) ("", 1)
    print output
    return status

/-- Shows the lines of each file from the last one on. -/
def tac : Action := withOptions "tac" {} 1 fun g => do
  let (texts, status) ←
    inputTexts "tac" (fun p c => "failed to open '" ++ p ++ "' for reading: " ++ c) (inputs g)
  print (String.join (texts.flatMap fun text => (endedLines text).reverse))
  return status

/-- Shows the lines of files with their characters from the last one on. A last line without end stays so, and a
dash is a file like others. -/
def rev : Action := withOptions "rev" { flags := "0" } 1 fun g => do
  let turned (text : String) : String :=
    String.ofList (['\n'].intercalate ((text.toList.splitOn '\n').map List.reverse))
  if g.operands.isEmpty then
    print (turned (← readAll 0))
    return 0
  forEach g.operands fun p => do
    match ← if p = "-" then pure (.error (causeText (.ofKind .notFound))) else operandText p with
    | .ok text => do
      print (turned text)
      return 0
    | .error cause => failWith "rev" ("cannot open " ++ p ++ ": " ++ cause) 1

/-- Shows lines with their numbers. -/
def nl : Action := withOptions "nl" { valued := "bviwsn" } 1 fun g => do
  let number (c : Char) (usual : Nat) : Nat := ((g.value? c).bind digits?).getD usual
  let width := number 'w' 6
  let separator := (g.value? 's').getD "\t"
  let place (n : Nat) : String :=
    match g.value? 'n' with
    | some "ln" => toString n ++ String.ofList (List.replicate (width - (toString n).length) ' ')
    | some "rz" => padded width '0' n
    | _ => padded width ' ' n
  let counts (line : String) : Bool :=
    match g.value? 'b' with
    | some "a" => true
    | some "n" => false
    | _ => line != ""
  let (ls, status) ← inputLines "nl" plainWording (inputs g)
  let blank := String.ofList (List.replicate (width + separator.length) ' ')
  let (numbered, _) := ls.foldl (fun (numbered, n) line =>
    if counts line then (numbered ++ [place n ++ separator ++ line], n + number 'i' 1)
    else (numbered ++ [blank ++ line], n)) (([] : List String), number 'v' 1)
  print (unlines numbered)
  return status

/-- Copies its input to its output and to files. -/
def tee : Action := withOptions "tee" { flags := "ai", names := [("append", 'a')] } 1 fun g => do
  let text ← readAll 0
  print text
  forEach g.operands fun p => do
    match ← openFile (if g.has 'a' then .append else .overwrite) p with
    | .error fault => failWith "tee" (p ++ ": " ++ causeText fault) 1
    | .ok channel => do
      let s ← get
      connect 9 channel
      discard <| write 9 text
      modify fun t => { t with descriptors := s.descriptors }
      return 0

/-! ### The first and the last part -/

/-- Arguments in which a number after a dash stands for a count of lines, and after a plus sign for the line to
start at. -/
def countOption (plus : Bool) (args : List String) : List String :=
  match args with
  | a :: rest =>
    match a.toList with
    | '-' :: c :: cs => if (c :: cs).all Char.isDigit then "-n" :: String.ofList (c :: cs) :: rest else args
    | '+' :: c :: cs => if plus && (c :: cs).all Char.isDigit then "-n" :: a :: rest else args
    | _ => args
  | [] => []

/-- The units that may follow a count. -/
def unitSizes : List (String × Nat) :=
  [("", 1), ("b", 512), ("kB", 1000), ("K", 1024), ("k", 1024), ("KiB", 1024), ("MB", 1000000), ("M", 1048576),
    ("MiB", 1048576), ("GB", 1000000000), ("G", 1073741824), ("GiB", 1073741824)]

/-- The count that digits with a unit stand for. -/
def sized? (cs : List Char) : Option Nat :=
  let (ds, unit) := cs.span Char.isDigit
  if ds.isEmpty then none else (unitSizes.lookup (String.ofList unit)).map (Arithmetic.natOf 10 ds * ·)

/-- **How much of a list is shown.** -/
structure Portion where
  /-- The sign in front of the count. -/
  sign : Option Char
  count : Nat

def Portion.read? (text : String) : Option Portion :=
  match text.toList with
  | '-' :: cs => (sized? cs).map (⟨some '-', ·⟩)
  | '+' :: cs => (sized? cs).map (⟨some '+', ·⟩)
  | cs => (sized? cs).map (⟨none, ·⟩)

/-- The first members of a list, or all but the last ones. -/
def Portion.first {α : Type} (k : Portion) (xs : List α) : List α :=
  if k.sign = some '-' then xs.take (xs.length - k.count) else xs.take k.count

/-- The last members of a list, or all from one on. -/
def Portion.last {α : Type} (k : Portion) (xs : List α) : List α :=
  if k.sign = some '+' then xs.drop (k.count - 1) else xs.drop (xs.length - k.count)

/-- The complaint about a file that cannot be opened. -/
def openWording (p cause : String) : String :=
  if cause = "Is a directory" then "error reading '" ++ p ++ "': " ++ cause
  else "cannot open '" ++ p ++ "' for reading: " ++ cause

/-- Shows a part of each file, with its name in front if there are several. -/
def showParts (name : String) (operands : List String) (headings : Bool) (part : String → String) :
    Running Nat := do
  let mut status := 0
  let mut first := true
  for p in operands do
    match ← operandText p with
    | .error cause => do
      complain name (openWording p cause)
      status := 1
    | .ok text => do
      if headings then
        let title := if p = "-" then "standard input" else p
        print ((if first then "" else "\n") ++ "==> " ++ title ++ " <==\n")
      first := false
      print (part text)
  return status

/-- A tool that shows the first or the last part of files. -/
def partTool (name : String) (byLines : Portion → List String → List String)
    (byBytes : Portion → List Char → List Char) : Action := fun args =>
  withOptions name
    { flags := "qvfzF", valued := "ncs", attached := "w"
      names := [("lines", 'n'), ("bytes", 'c'), ("quiet", 'q'), ("silent", 'q'), ("verbose", 'v'), ("follow", 'w'),
        ("zero-terminated", 'z')] } 1
    (fun g => do
      let (inBytes, count) := ((g.options.filter fun o => o.1 == 'n' || o.1 == 'c').getLast?.map fun o =>
        (o.1 == 'c', o.2)).getD (false, "10")
      match Portion.read? count with
      | none =>
        let digits := if count.startsWith "-" then String.ofList count.toList.tail else count
        failWith name ("invalid number of " ++ (if inBytes then "bytes: " else "lines: ") ++ shown digits) 1
      | some k =>
        let part (text : String) : String :=
          if inBytes then String.ofList (byBytes k text.toList) else String.join (byLines k (endedLines text))
        let files := inputs g
        if name = "tail" ∧ k.count = 0 ∧ k.sign ≠ some '+' then return 0
        let isOld (a : String) : Bool :=
          match a.toList with
          | '-' :: c :: cs => (c :: cs).all Char.isDigit
          | _ => false
        if name = "tail" ∧ 1 < files.length ∧ args.head?.any isOld then
          let letter := String.ofList ((args.headD "").toList.drop 1 |>.take 1)
          return ← failWith name ("option used in invalid context -- " ++ letter) 1
        showParts name files ((1 < files.length || g.has 'v') && !g.has 'q') part)
    (countOption (name == "tail") args)

/-- Shows the first lines of files. -/
def head : Action := partTool "head" Portion.first Portion.first

/-- Shows the last lines of files. -/
def tail : Action := partTool "tail" Portion.last Portion.last

/-! ### Counting -/

def wordCount (s : String) : Nat :=
  ((s.toList.splitOnP Arithmetic.isBlank).filter fun w => !w.isEmpty).length

/-- How many columns the longest line of a text takes up; a tab goes on to the next multiple of eight. -/
def longestLine (s : String) : Nat :=
  let columns (line : List Char) : Nat :=
    line.foldl (fun n c => if c == '\t' then (n / 8 + 1) * 8 else if ' ' ≤ c && c ≤ '~' then n + 1 else n) 0
  ((s.toList.splitOnP fun c => c == '\n' || c == '\r' || c == '\x0c').map columns).foldl max 0

/-- The counts of lines, words, characters and bytes that are asked for, and the length of the longest line. -/
def counts (g : Given) (text : String) : List Nat :=
  let every := !"lwcmL".toList.any g.has
  (if every || g.has 'l' then [text.toList.countP (· == '\n')] else []) ++
    (if every || g.has 'w' then [wordCount text] else []) ++
    (if g.has 'm' then [text.length] else []) ++
    (if every || g.has 'c' then [text.length] else []) ++
    (if g.has 'L' then [longestLine text] else [])

/-- The sum of two rows of counts; of the longest lines the longer one counts. -/
def addCounts (longest : Bool) (a b : List Nat) : List Nat :=
  let sums := a.zipWith (· + ·) b
  if longest then sums.dropLast ++ [max (a.getLast?.getD 0) (b.getLast?.getD 0)] else sums

/-- The size of what an operand names, if it is a regular file; none if it is there and is something else. -/
def regularSize (s : Shell) (p : String) : Option Nat :=
  if p = "-" then
    match channel? s 0 with
    | some (_, ⟨.file loc, _, _, _⟩) =>
      match s.host.files.node? loc with
      | some (.file data _) => some data.length
      | _ => none
    | _ => none
  else if p = nullPath then none
  else
    match s.host.files.lookup s.cwd (Shell.path p) with
    | .ok (.file data _) => some data.length
    | .ok _ => none
    | .error _ => some 0

/-- Counts lines, words and bytes. -/
def wc : Action :=
  withOptions "wc"
    { flags := "lwcmL"
      names := [("bytes", 'c'), ("chars", 'm'), ("lines", 'l'), ("words", 'w'),
        ("max-line-length", 'L')] } 1 fun g => do
    let files := inputs g
    let s ← get
    let sizes := files.map (regularSize s)
    let columns := (counts g "").length
    let width :=
      if columns = 1 ∧ files.length = 1 then 1
      else max (if sizes.any Option.isNone then 7 else 1) (toString ((sizes.filterMap id).foldl (· + ·) 0)).length
    let row (name : String) (ns : List Nat) : String :=
      " ".intercalate (ns.map (padded width ' ')) ++ (if name = "" then "" else " " ++ name) ++ "\n"
    let mut total := List.replicate columns 0
    let mut status := 0
    for p in files do
      match ← operandText p with
      | .error cause => do
        complain "wc" (plainWording p cause)
        status := 1
        if cause = causeText (.ofKind .isADirectory) then print (row p (List.replicate columns 0))
      | .ok text => do
        let ns := counts g text
        total := addCounts (g.has 'L') total ns
        print (row (if p = "-" ∧ g.operands.isEmpty then "" else p) ns)
    if 1 < files.length then print (row "total" total)
    return status

/-! ### Repeated lines -/

/-- A line without some fields at its front; `fuel` is their number. -/
def withoutFields : (fuel : Nat) → List Char → List Char
  | 0, cs => cs
  | fuel + 1, cs => withoutFields fuel ((cs.dropWhile isGap).dropWhile fun c => !isGap c)

/-- Writes a text to the output, or to a file. -/
def printTo (name : String) (target : Option String) (text : String) : Running Nat := do
  match target with
  | none | some "-" => do
    print text
    return 0
  | some p =>
    match ← openFile .overwrite p with
    | .error fault => failWith name (p ++ ": " ++ causeText fault) 1
    | .ok channel => do
      let s ← get
      connect 9 channel
      discard <| write 9 text
      modify fun t => { t with descriptors := s.descriptors }
      return 0

/-- Drops lines that equal the one before them. -/
def uniq : Action :=
  withOptions "uniq"
    { flags := "cduiDz", valued := "fsw"
      names := [("count", 'c'), ("repeated", 'd'), ("unique", 'u'), ("ignore-case", 'i'), ("skip-fields", 'f'),
        ("skip-chars", 's'), ("check-chars", 'w'), ("all-repeated", 'D'), ("zero-terminated", 'z')] } 1 fun g => do
    if let some extra := g.operands[2]? then return ← misuse "uniq" ("extra operand " ++ shown extra) 1
    if g.has 'c' && g.has 'D' then
      return ← misuse "uniq" "printing all duplicated lines and repeat counts is meaningless" 1
    let number (c : Char) : Option Nat := (g.value? c).bind digits?
    let ending := if g.has 'z' then '\x00' else '\n'
    match ← operandText (g.operands.headD "-") with
    | .error cause => failWith "uniq" (plainWording (g.operands.headD "-") cause) 1
    | .ok text => do
      let key (line : String) : List Char :=
        let cs := (withoutFields ((number 'f').getD 0) line.toList).drop ((number 's').getD 0)
        let cs := cs.take ((number 'w').getD cs.length)
        if g.has 'i' then cs.map Char.toLower else cs
      let groups := ((recordsOf ending text).splitBy fun a b => key a == key b).filter fun group =>
        (!(g.has 'd' || g.has 'D') || 1 < group.length) && (!g.has 'u' || group.length == 1)
      let shape (group : List String) : List String :=
        if g.has 'D' then group
        else (group.take 1).map fun l => if g.has 'c' then padded 7 ' ' group.length ++ " " ++ l else l
      printTo "uniq" g.operands[1]? (String.join ((groups.flatMap shape).map (·.push ending)))

/-! ### Columns -/

/-- A range that is being read: the number before its dash, if there was a dash, and the number after that. -/
structure RangeStart where
  first : Option (Option Nat) := none
  number : Option Nat := none

/-- The complaint about a place before the first one. -/
def placeZero (fields : Bool) : String :=
  if fields then "fields are numbered from 1" else "byte/character positions are numbered from 1"

/-- The range that has been read, or what is wrong with it. A range without an end goes on to the last place. -/
def RangeStart.finish (fields : Bool) (r : RangeStart) : Except String (Nat × Option Nat) :=
  match r.first, r.number with
  | none, none | none, some 0 => .error (placeZero fields)
  | none, some n => .ok (n, some n)
  | some none, none => .error "invalid range with no endpoint: -"
  | some first, none => .ok (first.getD 1, none)
  | some first, some last =>
    if last < first.getD 1 then .error "invalid decreasing range" else .ok (first.getD 1, some last)

/-- **The places that a list of ranges means,** or what is wrong with it. -/
def ranges (fields : Bool) : RangeStart → List Char → Except String (List (Nat × Option Nat))
  | r, [] => (r.finish fields).map fun range => [range]
  | r, c :: rest =>
    if c == '-' then
      if r.first.isSome then
        .error (if fields then "invalid field range" else "invalid byte or character range")
      else if r.number == some 0 then .error (placeZero fields)
      else ranges fields { first := some r.number } rest
    else if c == ',' || isGap c then do
      let range ← r.finish fields
      return range :: (← ranges fields {} rest)
    else if c.isDigit then
      ranges fields { r with number := some (10 * r.number.getD 0 + (c.toNat - '0'.toNat)) } rest
    else
      .error ((if fields then "invalid field value " else "invalid byte/character position ")
        ++ shown (String.ofList (c :: rest)))

def meant (rs : List (Nat × Option Nat)) (place : Nat) : Bool :=
  rs.any fun (first, last) => first ≤ place && last.all (place ≤ ·)

/-- The members of a list at places that are meant. -/
def atPlaces {α : Type} (rs : List (Nat × Option Nat)) (negated : Bool) (xs : List α) : List α :=
  (xs.zipIdx.filter fun (_, i) => meant rs (i + 1) != negated).map (·.1)

/-- Shows some characters or fields of each line. -/
def cut : Action :=
  withOptions "cut"
    { flags := "snC", valued := "fcbdO"
      names := [("fields", 'f'), ("characters", 'c'), ("bytes", 'b'), ("delimiter", 'd'), ("complement", 'C'),
        ("only-delimited", 's'), ("output-delimiter", 'O')] } 1 fun g => do
    let lists := g.values 'f' ++ g.values 'c' ++ g.values 'b'
    let fields := !(g.values 'f').isEmpty
    let delimiter := (g.value? 'd').map String.toList
    if 1 < lists.length then return ← misuse "cut" "only one list may be specified" 1
    if delimiter.any (1 < ·.length) then return ← misuse "cut" "the delimiter must be a single character" 1
    match lists.head? with
    | none => misuse "cut" "you must specify a list of bytes, characters, or fields" 1
    | some list =>
      if delimiter.isSome && !fields then
        return ← misuse "cut" "an input delimiter may be specified only when operating on fields" 1
      if g.has 's' && !fields then
        return ← misuse "cut"
          "suppressing non-delimited lines makes sense\n\tonly when operating on fields" 1
      match ranges fields {} list.toList with
      | .error reason => misuse "cut" reason 1
      | .ok rs => do
        let (ls, status) ← inputLines "cut" plainWording (inputs g)
        let delimiter := (delimiter.map (·.headD '\x00')).getD '\t'
        let joint := ((g.value? 'O').getD delimiter.toString).toList
        let ls := ls.filterMap fun line =>
          if fields then
            if !line.toList.contains delimiter then (if g.has 's' then none else some line)
            else some (String.ofList (joint.intercalate (atPlaces rs (g.has 'C') (line.toList.splitOn delimiter))))
          else some (String.ofList (atPlaces rs (g.has 'C') line.toList))
        print (unlines ls)
        return status

/-- The delimiters that a list of characters stands for, one after another. -/
def delimiters : List Char → List String
  | [] => []
  | ['\\'] => []
  | '\\' :: c :: rest =>
    (match c with
      | '0' => ""
      | 'n' => "\n"
      | 't' => "\t"
      | 'b' => "\x08"
      | 'f' => "\x0c"
      | 'r' => "\r"
      | 'v' => "\x0b"
      | c => c.toString) :: delimiters rest
  | c :: rest => c.toString :: delimiters rest

def joinInTurn (ds : List String) (texts : List String) : String :=
  match texts with
  | [] => ""
  | first :: rest =>
    first ++ String.join (rest.zipIdx.map fun (t, i) => (ds[i % max 1 ds.length]?).getD "" ++ t)

/-- The lines of each column. What several columns read from one input they take in turn. -/
def pasteColumns (operands : List String) (texts : List (List String)) : List (List String) :=
  let shared := operands.countP (· == "-")
  if shared ≤ 1 then texts
  else
    let ls := ((operands.zip texts).find? fun e => e.1 == "-").elim [] (·.2)
    (operands.zip texts).zipIdx.map fun ((p, t), i) =>
      if p != "-" then t
      else
        let turn := (operands.take i).countP (· == "-")
        (ls.zipIdx.filter fun e => e.2 % shared == turn).map (·.1)

/-- Joins lines of files. -/
def paste : Action :=
  withOptions "paste"
    { flags := "sz"
      valued := "d"
      names := [("serial", 's'), ("delimiters", 'd'), ("zero-terminated", 'z')] } 1 fun g => do
  let list := ((g.value? 'd').getD "\t").toList
  if (list.reverse.takeWhile (· == '\\')).length % 2 == 1 then
    return ← failWith "paste" ("delimiter list ends with an unescaped backslash: " ++ String.ofList list) 1
  let ds := if list.isEmpty then [""] else delimiters list
  let ending := if g.has 'z' then '\x00' else '\n'
  let operands := inputs g
  let mut columns : List (List String) := []
  let mut status := 0
  for p in operands do
    match ← operandText p with
    | .ok text => columns := columns ++ [recordsOf ending text]
    | .error cause => do
      complain "paste" (plainWording p cause)
      if !g.has 's' then return 1
      status := 1
  if g.has 's' then print (String.join (columns.map fun column => (joinInTurn ds column).push ending))
  else
    let turned := pasteColumns operands columns
    let height := (turned.map List.length).foldl max 0
    print (String.join ((List.range height).map fun i =>
      (joinInTurn ds (turned.map fun column => column[i]?.getD "")).push ending))
  return status

/-! ### Characters -/

/-- The characters of a class in their order. -/
def classMembers (name : String) : List Char :=
  ((List.range 128).map Char.ofNat).filter (classHolds name)

/-- **A part of a set of characters:** some characters, or one that is repeated so often, or as often as need be. -/
inductive SetPart
  | chars (cs : List Char)
  | repeated (c : Char) (count : Option Nat)

/-- The first character of a set, and what follows; a backslash may be in front of it. -/
def setChar : List Char → Option (Char × List Char)
  | [] => none
  | ['\\'] => some ('\\', [])
  | '\\' :: c :: rest =>
    if '0' ≤ c ∧ c ≤ '7' then
      let ds := ((c :: rest).take 3).takeWhile fun d => '0' ≤ d ∧ d ≤ '7'
      let ds := if 255 < Arithmetic.natOf 8 ds then ds.take 2 else ds
      some (Char.ofNat (Arithmetic.natOf 8 ds), (c :: rest).drop ds.length)
    else
      match [('n', '\n'), ('t', '\t'), ('r', '\r'), ('a', '\x07'), ('b', '\x08'), ('f', '\x0c'),
        ('v', '\x0b')].lookup c with
      | some d => some (d, rest)
      | none => some (c, rest)
  | c :: rest => some (c, rest)

/-- A repetition in brackets, after the first of them. -/
def setRepeat? (cs : List Char) : Option (SetPart × List Char) := do
  let (c, rest) ← setChar cs
  match rest with
  | '*' :: rest =>
    let ds := rest.takeWhile Char.isDigit
    match rest.drop ds.length with
    | ']' :: rest =>
      let n := Arithmetic.natOf (if ds.head? == some '0' then 8 else 10) ds
      some (.repeated c (if n = 0 then none else some n), rest)
    | _ => none
  | _ => none

/-- The parts of a set, or what is wrong with it; `fuel` bounds their number. -/
def setParts : (fuel : Nat) → List Char → Except String (List SetPart)
  | 0, _ => .ok []
  | _ + 1, [] => .ok []
  | fuel + 1, '[' :: ':' :: rest => do
    let name := rest.takeWhile fun c => c != ':'
    match rest.drop name.length with
    | ':' :: ']' :: rest => do
      if !classNames.contains (String.ofList name) then throw ("invalid character class " ++ shown (String.ofList name))
      return .chars (classMembers (String.ofList name)) :: (← setParts fuel rest)
    | _ => return .chars ['['] :: (← setParts fuel (':' :: rest))
  | fuel + 1, cs => do
    let equal? : Option (Char × List Char) := match cs with
      | '[' :: '=' :: c :: '=' :: ']' :: rest => some (c, rest)
      | _ => none
    match equal? with
    | some (c, rest) => return .chars [c] :: (← setParts fuel rest)
    | none =>
      match if cs.head? == some '[' then setRepeat? cs.tail else none with
      | some (part, rest) => return part :: (← setParts fuel rest)
      | none =>
        match setChar cs with
        | none => return []
        | some (c, '-' :: d :: more) => do
          match setChar (d :: more) with
          | none => return [.chars [c]]
          | some (d, more) =>
            if d < c then
              let range := c.toString ++ "-" ++ d.toString
              throw ("range-endpoints of '" ++ range ++ "' are in reverse collating sequence order")
            let range := (List.range (d.toNat + 1 - c.toNat)).map fun i => Char.ofNat (c.toNat + i)
            return .chars range :: (← setParts fuel more)
        | some (c, rest) => return .chars [c] :: (← setParts fuel rest)

/-- The characters of a set in their order. A character that is repeated as often as need be fills up a size. -/
def setMembers (size : Nat) (parts : List SetPart) : List Char :=
  let length (p : SetPart) : Nat :=
    match p with
    | .chars cs => cs.length
    | .repeated _ n => n.getD 0
  let fixed := parts.foldl (fun n p => n + length p) 0
  parts.flatMap fun p =>
    match p with
    | .chars cs => cs
    | .repeated c n => List.replicate (n.getD (size - fixed)) c

/-- Text with runs of some characters made single. -/
def squeeze (members : List Char) : List Char → List Char
  | a :: b :: rest =>
    if a == b && members.contains a then squeeze members (b :: rest) else a :: squeeze members (b :: rest)
  | cs => cs

/-- What is wrong with the operands of `tr`. -/
def setFault? (g : Given) : Option String :=
  let deletesOnly := g.has 'd' && !g.has 's'
  match g.operands with
  | [] => some "missing operand"
  | [a] =>
    if g.has 'd' && g.has 's' then
      some ("missing operand after " ++ shown a
        ++ "\nTwo strings must be given when both deleting and squeezing repeats.")
    else if g.has 'd' || g.has 's' then none
    else some ("missing operand after " ++ shown a ++ "\nTwo strings must be given when translating.")
  | [_, b] =>
    if deletesOnly then
      some ("extra operand " ++ shown b ++ "\nOnly one string may be given when deleting without squeezing repeats.")
    else none
  | _ :: _ :: extra :: _ => some ("extra operand " ++ shown extra)

/-- Replaces, drops or squeezes characters. -/
def tr : Action :=
  withOptions "tr"
    { flags := "cCdst", anywhere := false
      names := [("delete", 'd'), ("squeeze-repeats", 's'), ("complement", 'c'), ("truncate-set1", 't')] } 1 fun g => do
    if let some reason := setFault? g then return ← misuse "tr" reason 1
    let endsOpen (s : String) : Bool := (s.toList.reverse.takeWhile (· == '\\')).length % 2 == 1
    if g.operands.any endsOpen then
      complain "tr" "warning: an unescaped backslash at end of string is not portable"
    match g.operands.mapM fun s => setParts (s.length + 1) s.toList with
    | .error reason => failWith "tr" reason 1
    | .ok sets => do
      let isRepeated (p : SetPart) : Bool :=
        match p with
        | .repeated .. => true
        | .chars _ => false
      if (sets.headD []).any isRepeated then
        return ← failWith "tr" "the [c*] repeat construct may not appear in string1" 1
      let given := setMembers 0 (sets.headD [])
      let first :=
        if g.has 'c' || g.has 'C' then ((List.range 256).map Char.ofNat).filter fun c => !given.contains c
        else given
      let second := sets[1]?.map (setMembers first.length)
      let member (cs : List Char) : Array Bool :=
        cs.foldl (fun a c => a.setIfInBounds c.toNat true) (Array.replicate 256 false)
      let isFirst := member first
      let isIn (a : Array Bool) (c : Char) : Bool := (a[c.toNat]?).getD false
      let text ← readAll 0
      match second with
      | none =>
        let cs := text.toList
        print (String.ofList (if g.has 'd' then cs.filter fun c => !isIn isFirst c else squeeze first cs))
        return 0
      | some second =>
        if g.has 'd' then
          print (String.ofList (squeeze second (text.toList.filter fun c => !isIn isFirst c)))
          return 0
        match second.getLast? with
        | none => failWith "tr" "when not truncating set1, string2 must be non-empty" 1
        | some filler => do
          let pairs := if g.has 't' then first.zip second
            else first.zip (second ++ List.replicate (first.length - second.length) filler)
          let same := (Array.range 256).map Char.ofNat
          let table := pairs.foldl (fun (t : Array Char) (c, d) => t.setIfInBounds c.toNat d) same
          let out := text.toList.map fun c => (table[c.toNat]?).getD c
          print (String.ofList (if g.has 's' then squeeze second out else out))
          return 0

end Tool

end Script

end Recompile

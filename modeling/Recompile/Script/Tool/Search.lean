import Recompile.Script.Regex
import Recompile.Script.Tool.Files
import Recompile.Script.Tool.Sorting

/-!
# Tools that search

`grep` shows the lines in which something is found.
-/

namespace Recompile

namespace Script

namespace Tool

/-! ### Finding lines -/

/-- What is searched for, and how. -/
structure Search where
  patterns : List Regex
  fold : Bool
  wholeLine : Bool
  wholeWord : Bool

/-- Whether a part of a text stands by itself. -/
def isWordPart (text : Array Char) (first last : Nat) : Bool :=
  (first == 0 || !Regex.isWordAt text (first - 1)) && !Regex.isWordAt text last

/-- The first part of a line from a place on that is searched for. -/
def Search.find? (q : Search) (line : Array Char) (start : Nat) : Option (Nat × Nat) :=
  let found := q.patterns.filterMap fun r =>
    ((List.range (line.size + 1 - start)).map (· + start)).findSome? fun i =>
      let candidates := (Regex.ends line q.fold (Regex.depth line r + 1) r { position := i }).filter fun m =>
        (!q.wholeLine || (i == 0 && m.position == line.size)) &&
          (!q.wholeWord || isWordPart line i m.position)
      (candidates.map (·.position)).max?.map (i, ·)
  found.foldl (fun best m =>
    match best with
    | none => some m
    | some b => if m.1 < b.1 ∨ m.1 = b.1 ∧ b.2 < m.2 then some m else best) none

def filesBelow (s : Shell) (p : String) : List String :=
  match s.host.files.list s.cwd (Shell.path p) fun _ => true with
  | .ok paths => (paths.filter fun q => s.host.files.isFile s.cwd q).map fun q => raw q.spelling
  | .error _ => []

/-- The options of `grep`. -/
def searchOptions : Options where
  flags := "qvicnlLhHsxwoEFrRGabyzZTPuUI"
  valued := "efmABCjXY"
  attached := "K"
  names := [("quiet", 'q'), ("silent", 'q'), ("invert-match", 'v'), ("ignore-case", 'i'), ("count", 'c'),
    ("line-number", 'n'), ("files-with-matches", 'l'), ("files-without-match", 'L'), ("only-matching", 'o'),
    ("extended-regexp", 'E'), ("fixed-strings", 'F'), ("basic-regexp", 'G'), ("perl-regexp", 'P'), ("word-regexp", 'w'),
    ("line-regexp", 'x'), ("no-messages", 's'), ("regexp", 'e'), ("file", 'f'), ("recursive", 'r'),
    ("dereference-recursive", 'R'), ("with-filename", 'H'), ("no-filename", 'h'), ("max-count", 'm'),
    ("after-context", 'A'), ("before-context", 'B'), ("context", 'C'), ("byte-offset", 'b'), ("text", 'a'),
    ("null", 'Z'), ("null-data", 'z'), ("initial-tab", 'T'), ("line-buffered", 'u'), ("label", 'j'), ("color", 'K'),
    ("colour", 'K'), ("include", 'X'), ("exclude", 'Y')]

/-- Arguments in which a number after a dash stands for a number of lines around what is found. -/
def contextOption (args : List String) : List String :=
  args.flatMap fun a =>
    match a.toList with
    | '-' :: c :: cs => if (c :: cs).all Char.isDigit then ["-C", String.ofList (c :: cs)] else [a]
    | _ => [a]

/-- **How lines are shown** in which something is found. -/
structure Showing where
  /-- How many lines before and after are shown as well, if that is asked for. -/
  around : Option (Nat × Nat)
  /-- What stands in front of each line, apart from its mark. -/
  name : Option String
  nameEnd : Option Char
  numbered : Bool
  placed : Bool
  partsOnly : Bool
  ending : Char

/-- What stands in front of a line. -/
def Showing.front (h : Showing) (mark : Char) (number place : Nat) : String :=
  let name := match h.name with
    | some n => n.push (h.nameEnd.getD mark)
    | none => ""
  name ++ (if h.numbered then (toString number).push mark else "") ++
    (if h.placed then (toString place).push mark else "")

/-- A line of a file, with where it starts. -/
structure Numbered where
  number : Nat
  place : Nat
  text : String

def numberedLines (number place : Nat) : List String → List Numbered
  | [] => []
  | l :: rest => ⟨number, place, l⟩ :: numberedLines (number + 1) (place + l.length + 1) rest

/-- What is searched for in a line, each part with its place; `fuel` bounds their number. -/
def Search.placedParts (q : Search) (line : Array Char) : (fuel start : Nat) → List (Nat × String)
  | 0, _ => []
  | fuel + 1, start =>
    match q.find? line start with
    | none => []
    | some (i, j) =>
      if i = j then (if line.size ≤ i then [] else Search.placedParts q line fuel (i + 1))
      else (i, String.ofList (line.extract i j).toList) :: Search.placedParts q line fuel j

/-- The lines of a file that are shown; `hits` are the numbers of those in which something is found. Lines that do
not follow one another have a mark between them, also if `apart` says that others were shown before. -/
def Showing.lines (h : Showing) (q : Search) (apart : Bool) (hits : Array Bool) (ls : List Numbered) : String :=
  let isHit (i : Nat) : Bool := (hits[i]?).getD false
  let near (i : Nat) : Bool :=
    isHit i ||
      match h.around with
      | none => false
      | some (before, after) =>
        ((List.range (after + 1)).any fun k => k ≤ i && isHit (i - k)) ||
          (List.range (before + 1)).any fun k => isHit (i + k)
  let (out, _) := ls.foldl (fun (state : String × Option Nat) l =>
    let (out, previous) := state
    let i := l.number - 1
    if !near i then state
    else
      let follows := match previous with
        | some p => p + 1 == i
        | none => !apart
      let out := if h.around.isSome && !follows then out ++ "--\n" else out
      let out :=
        if h.partsOnly then
          if !isHit i then out
          else
            out ++ String.join ((q.placedParts l.text.toList.toArray (l.text.length + 1) 0).map fun (k, part) =>
              h.front ':' l.number (l.place + k) ++ part.push h.ending)
        else out ++ h.front (if isHit i then ':' else '-') l.number l.place ++ l.text.push h.ending
      (out, some i)) ("", none)
  out

/-- The pattern with the signs of another dialect written out. -/
def withoutShorthand : List Char → List Char
  | '\\' :: 'd' :: rest => "[0-9]".toList ++ withoutShorthand rest
  | '\\' :: 'D' :: rest => "[^0-9]".toList ++ withoutShorthand rest
  | '\\' :: 'h' :: rest => "[ \t]".toList ++ withoutShorthand rest
  | '\\' :: 't' :: rest => '\t' :: withoutShorthand rest
  | '\\' :: c :: rest => '\\' :: c :: withoutShorthand rest
  | '(' :: '?' :: ':' :: rest => '(' :: withoutShorthand rest
  | c :: rest => c :: withoutShorthand rest
  | [] => []

/-- What is searched for, or what is wrong with it. -/
def Search.read (extended : Bool) (g : Given) (texts : List String) : Except RegexError Search := do
  let kind := (g.options.filter fun o => "EFGP".toList.contains o.1).getLast?.map (·.1)
  let patterns ← texts.mapM fun t =>
    match kind with
    | some 'F' => .ok (Regex.ofText t)
    | some 'P' => Regex.parse { extended := true, lenient := true } (String.ofList (withoutShorthand t.toList))
    | some 'G' => Regex.parse { extended := false, lenient := true } t
    | some _ => Regex.parse { extended := true, lenient := true } t
    | none => Regex.parse { extended, lenient := true } t
  return ⟨patterns, g.has 'i' || g.has 'y', g.has 'x', g.has 'w'⟩

/-- A step of `grep`, which may end it with a status. -/
abbrev SearchStep := ExceptT Nat Running

def searchCount (g : Given) (letters : List Char) (fault : String → String) : SearchStep (Option Nat) := do
  match (g.options.filter fun o => letters.contains o.1).getLast? with
  | none => return none
  | some (_, value) =>
    match digits? value with
    | some n => return some n
    | none => do
      complain "grep" (fault value)
      throw 2

/-- The patterns that are given, and the other operands. -/
def searchTexts (g : Given) : SearchStep (List String × List String) := do
  let mut texts : List String := g.values 'e'
  for p in g.values 'f' do
    match ← operandText p with
    | .ok text => texts := texts ++ linesOf text
    | .error cause => do
      complain "grep" (p ++ ": " ++ cause)
      throw 2
  let (patterns, files) := match g.has 'e' || g.has 'f', g.operands with
    | false, p :: files => ([p], files)
    | _, files => (texts, files)
  if patterns.isEmpty && !g.has 'f' then
    printError "Usage: grep [OPTION]... PATTERNS [FILE]...\nTry 'grep --help' for more information.\n"
    throw 2
  return (patterns.flatMap fun p => (p.toList.splitOn '\n').map String.ofList, files)

/-- Whether the name of a file that was found is wanted. -/
def isWanted (g : Given) (p : String) : Bool :=
  let name := (p.toList.reverse.takeWhile (· != '/')).reverse
  let fitsAny (patterns : List String) : Bool :=
    patterns.any fun t => fits (elements (t.toList.map (·, false))) name
  (!g.has 'X' || fitsAny (g.values 'X')) && !fitsAny (g.values 'Y')

/-- Shows the lines in which something is found. -/
def searchFiles (extended : Bool) (g : Given) : SearchStep Nat := do
  let context (value : String) : String := value ++ ": invalid context length argument"
  let after ← searchCount g ['A', 'C'] context
  let before ← searchCount g ['B', 'C'] context
  let most ← searchCount g ['m'] fun _ => "invalid max count"
  let (texts, operands) ← searchTexts g
  match Search.read extended g texts with
  | .error e => do
    complain "grep" e.message
    return 2
  | .ok q => do
    let s ← get
    let deep := g.has 'r' || g.has 'R'
    let given := if operands.isEmpty then [if deep then "." else "-"] else operands
    let below (p : String) : List String :=
      if s.host.files.isDir s.cwd (Shell.path p) then
        ((filesBelow s p).filter (isWanted g)).map fun q =>
          if operands.isEmpty && q.startsWith "./" then String.ofList (q.toList.drop 2) else q
      else [p]
    let files := if deep then given.flatMap below else given
    let named := (1 < given.length || deep || g.has 'H') && !g.has 'h'
    let ending := if g.has 'z' then '\x00' else '\n'
    let mut status := 1
    let mut failed := false
    let mut apart := false
    for p in files do
      match ← operandText p with
      | .error cause =>
        if !g.has 's' then complain "grep" (p ++ ": " ++ cause)
        failed := true
      | .ok text => do
        let label := if p = "-" then (g.value? 'j').getD "(standard input)" else p
        let ls := recordsOf ending text
        let found := ls.map fun line => (q.find? line.toList.toArray 0).isSome != g.has 'v'
        let (hits, _) := found.foldl (fun (state : Array Bool × Nat) hit =>
          let counts := hit && most.all (state.2 < ·)
          (state.1.push counts, if counts then state.2 + 1 else state.2)) (#[], 0)
        let number := hits.toList.countP id
        let isBinary := !g.has 'a' && !g.has 'z' && text.contains '\x00'
        let number := if isBinary && g.has 'I' then 0 else number
        if 0 < number then status := 0
        let named? := if named then some label else none
        if g.has 'q' then pure ()
        else if g.has 'l' || g.has 'L' then
          if (0 < number) != g.has 'L' then print (label.push (if g.has 'Z' then '\x00' else '\n'))
        else if g.has 'c' then
          print ((named?.map fun n => n.push (if g.has 'Z' then '\x00' else ':')).getD "" ++ toString number ++ "\n")
        else if isBinary then
          if 0 < number then print ("grep: " ++ label ++ ": binary file matches\n")
        else
          let around := if after.isSome || before.isSome then some (before.getD 0, after.getD 0) else none
          let h : Showing :=
            { around, name := named?, nameEnd := if g.has 'Z' then some '\x00' else none, numbered := g.has 'n'
              placed := g.has 'b', partsOnly := g.has 'o', ending }
          let out := h.lines q apart hits (numberedLines 1 0 ls)
          if 0 < number then apart := true
          print out
    return if failed && !(g.has 'q' && status == 0) then 2 else status

/-- Shows the lines in which something is found. -/
def grep (extended : Bool) : Action := fun args => do
  match searchOptions.read (contextOption args) with
  | .error reason => do
    complain "grep" reason
    printError "Usage: grep [OPTION]... PATTERNS [FILE]...\nTry 'grep --help' for more information.\n"
    return 2
  | .ok g =>
    match ← (searchFiles extended g).run with
    | .ok status | .error status => return status

end Tool

end Script

end Recompile

import Recompile.Script.Tool.Files
import Recompile.Script.Tool.Text

/-!
# The difference of two files

`diff` tells how a file becomes another one by leaving out lines and putting in others. It leaves as many lines as it
can as they are.

* `Change` is a run of lines that are left out, together with the lines that take their place.
* `changes` finds the changes between two lists of lines.
-/

namespace Recompile

namespace Script

namespace Tool

/-! ### Changes -/

/-- **A change:** so many lines from a place on are left out, and so many from a place of the other file put in. -/
structure Change where
  first : Nat
  removed : Nat
  second : Nat
  added : Nat
deriving DecidableEq, Repr

/-- A row of the table of common lines: how many lines the part from a line of the first file on has in common with
each part of the second file, where `below` is the row for the line after it. -/
def commonRow (same : Nat → Bool) (below : Array Nat) : (j : Nat) → (row : List Nat) → List Nat
  | 0, row => row
  | j + 1, row =>
    let n := if same j then (below[j + 1]?).getD 0 + 1 else max ((below[j]?).getD 0) (row.headD 0)
    commonRow same below j (n :: row)

/-- The rows of the table of common lines, for the lines of the first file from a place on. -/
def commonTable (same : Nat → Nat → Bool) (width : Nat) : (i : Nat) → (rows : List (Array Nat)) → List (Array Nat)
  | 0, rows => rows
  | i + 1, rows =>
    let below := rows.headD (Array.replicate (width + 1) 0)
    commonTable same width i ((commonRow (same i) below width [0]).toArray :: rows)

/-- Adds lines that are left out or put in to the changes, of which the last one is at the front. -/
def addChange (i removed j added : Nat) : List Change → List Change
  | [] => [⟨i, removed, j, added⟩]
  | c :: rest =>
    if c.first + c.removed = i ∧ c.second + c.added = j then
      { c with removed := c.removed + removed, added := c.added + added } :: rest
    else ⟨i, removed, j, added⟩ :: c :: rest

/-- Follows the table of common lines to the end of both files; `fuel` bounds the number of lines. -/
def follow (same : Nat → Nat → Bool) (table : Array (Array Nat)) (height width : Nat) :
    (fuel i j : Nat) → (found : List Change) → List Change
  | 0, _, _, found => found
  | fuel + 1, i, j, found =>
    if height ≤ i ∧ width ≤ j then found
    else if width ≤ j then follow same table height width fuel (i + 1) j (addChange i 1 j 0 found)
    else if height ≤ i then follow same table height width fuel i (j + 1) (addChange i 0 j 1 found)
    else if same i j then follow same table height width fuel (i + 1) (j + 1) found
    else
      let common (i j : Nat) : Nat := ((table[i]?).bind (·[j]?)).getD 0
      if common i (j + 1) ≤ common (i + 1) j then
        follow same table height width fuel (i + 1) j (addChange i 1 j 0 found)
      else follow same table height width fuel i (j + 1) (addChange i 0 j 1 found)

/-- **The changes** between two lists of lines. -/
def changes (same : String → String → Bool) (as bs : Array String) : List Change :=
  let sameAt (i j : Nat) : Bool := ((as[i]?).bind fun a => (bs[j]?).map (same a)).getD false
  let table := (commonTable sameAt bs.size as.size []).toArray
  (follow sameAt table as.size bs.size (as.size + bs.size + 1) 0 0 []).reverse

/-! ### Showing -/

/-- A line with a mark in front of it. A line without end is noted. -/
def markedLine (mark line : String) : String :=
  if line.endsWith "\n" then mark ++ line else mark ++ line ++ "\n\\ No newline at end of file\n"

def markedLines (mark : String) (ls : Array String) (first count : Nat) : String :=
  String.join ((ls.extract first (first + count)).toList.map (markedLine mark))

/-- The numbers of some lines; of none it is the number of the line before. -/
def lineRange (first count : Nat) : String :=
  if count ≤ 1 then toString (first + count) else toString (first + 1) ++ "," ++ toString (first + count)

def plainChange (as bs : Array String) (c : Change) : String :=
  let kind := if c.removed = 0 then "a" else if c.added = 0 then "d" else "c"
  lineRange c.first c.removed ++ kind ++ lineRange c.second c.added ++ "\n" ++
    markedLines "< " as c.first c.removed ++ (if kind = "c" then "---\n" else "") ++
    markedLines "> " bs c.second c.added

/-- Changes in groups: those with no more than so many lines between them belong together. -/
def changeGroups (gap : Nat) : List Change → List (List Change)
  | [] => []
  | c :: rest =>
    match changeGroups gap rest with
    | (d :: more) :: groups =>
      if d.first - (c.first + c.removed) ≤ gap then (c :: d :: more) :: groups else [c] :: (d :: more) :: groups
    | groups => [c] :: groups

/-- The place and number of some lines, as it is shown above a group. -/
def groupRange (first count : Nat) : String :=
  if count = 1 then toString (first + 1)
  else toString (if count = 0 then first else first + 1) ++ "," ++ toString count

def shownGroup (as bs : Array String) (around : Nat) (group : List Change) : String :=
  match group.head?, group.getLast? with
  | some first, some last =>
    let before := min around first.first
    let start := first.first - before
    let stop := min as.size (last.first + last.removed + around)
    let otherStart := first.second - before
    let otherStop := last.second + last.added + (stop - (last.first + last.removed))
    let (body, place) := group.foldl (fun (state : String × Nat) c =>
      let (out, place) := state
      (out ++ markedLines " " as place (c.first - place) ++ markedLines "-" as c.first c.removed ++
        markedLines "+" bs c.second c.added, c.first + c.removed)) ("", start)
    "@@ -" ++ groupRange start (stop - start) ++ " +" ++ groupRange otherStart (otherStop - otherStart) ++ " @@\n" ++
      body ++ markedLines " " as place (stop - place)
  | _, _ => ""

/-! ### The tool -/

/-- The complaint about wrong arguments of `diff`. -/
def refuseDifference (reason : String) : Running Nat := do
  complain "diff" reason
  complain "diff" "Try 'diff --help' for more information."
  return 2

def comparedLine (g : Given) (line : String) : List Char :=
  let cs := if g.has 'i' then line.toList.map Char.toLower else line.toList
  let isBlank (c : Char) : Bool := c == ' ' || c == '\t' || c == '\n'
  if g.has 'w' then cs.filter fun c => !isBlank c
  else if g.has 'b' then
    let words := (cs.splitOnP isBlank).filter fun w => !w.isEmpty
    (if cs.head?.any isBlank then [' '] else []) ++ [' '].intercalate words
  else cs

/-- Tells how a file becomes another one. -/
def diff : Action := fun args => do
  let options : Options :=
    { flags := "uqsiwbaNrBtd", valued := "UL"
      names := [("unified", 'u'), ("brief", 'q'), ("report-identical-files", 's'), ("ignore-case", 'i'),
        ("ignore-all-space", 'w'), ("ignore-space-change", 'b'), ("text", 'a'), ("new-file", 'N'), ("label", 'L'),
        ("recursive", 'r'), ("normal", 'd')] }
  match options.read args with
  | .error reason => refuseDifference reason
  | .ok g =>
    let around := match g.value? 'U' with
      | some n => digits? n
      | none => some 3
    if around.isNone then return ← refuseDifference ("invalid context length " ++ shown ((g.value? 'U').getD ""))
    match g.operands with
    | [] => refuseDifference "missing operand after 'diff'"
    | [a] => refuseDifference ("missing operand after " ++ shown a)
    | _ :: _ :: extra :: _ => refuseDifference ("extra operand " ++ shown extra)
    | [a, b] => do
      let s ← get
      let isDir (p : String) : Bool := s.host.files.isDir s.cwd (Shell.path p)
      let (x, y) := if isDir a && !isDir b then (inside a (lastPart b), b)
        else if isDir b && !isDir a then (a, inside b (lastPart a)) else (a, b)
      let text (p : String) : Running (Except String String) := do
        match ← operandText p with
        | .error cause => return if g.has 'N' && cause = causeText (.ofKind .notFound) then .ok "" else .error cause
        | .ok text => return .ok text
      match ← text x, ← text y with
      | .error cause, .error other => do
        complain "diff" (x ++ ": " ++ cause)
        failWith "diff" (y ++ ": " ++ other) 2
      | .error cause, _ => failWith "diff" (x ++ ": " ++ cause) 2
      | _, .error cause => failWith "diff" (y ++ ": " ++ cause) 2
      | .ok s, .ok t => do
        let same (a b : String) : Bool := comparedLine g a == comparedLine g b
        let as := (endedLines s).toArray
        let bs := (endedLines t).toArray
        let found := changes same as bs
        if found.isEmpty then
          if g.has 's' then print ("Files " ++ x ++ " and " ++ y ++ " are identical\n")
          return 0
        if g.has 'q' then print ("Files " ++ x ++ " and " ++ y ++ " differ\n")
        else if g.has 'u' || g.has 'U' then
          let around := around.getD 3
          let heading (i : Nat) (p : String) : String :=
            ((g.values 'L')[i]?).getD (p ++ "\t1970-01-01 00:00:00.000000000 +0000")
          print ("--- " ++ heading 0 x ++ "\n+++ " ++ heading 1 y ++ "\n")
          print (String.join ((changeGroups (2 * around) found).map (shownGroup as bs around)))
        else print (String.join (found.map (plainChange as bs)))
        return 1

end Tool

end Script

end Recompile

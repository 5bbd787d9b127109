import Recompile.Script.Edit.Basic
import Recompile.Text.Bytes

/-!
# Running programs that edit lines

Lines are taken one after another into a space in which the commands change them, and what is there at the end is
shown. A line that had no end gets one only if something follows it. What is appended to a line waits until the next
one is taken.

A run is a function of the lines: what files hold is known before, and what is written to files is part of the
result. `fuel` bounds the number of commands that are run.
-/

namespace Recompile

namespace Script

namespace Edit

/-! ### State -/

/-- **A line of input,** whether it has an end, and the file that it is from. -/
structure Line where
  text : String
  ended : Bool
  file : String

/-- **What was written,** and whether an end of line is missing at its end. -/
structure Output where
  text : String := ""
  owed : Bool := false

/-- What is appended after the current line. -/
inductive Appended
  | text (s : String)
  | line (s : String) (ended : Bool)

/-- How far the lines of a command have come: none yet, up to a line, or up to an address. -/
inductive Span
  | outside
  | upTo (line : Nat)
  | upToAddress
deriving DecidableEq

/-- **How lines are edited.** -/
structure Mode where
  silent : Bool := false
  /-- The character between lines. -/
  separator : Char := '\n'
  /-- The greatest length of a listed line. -/
  width : Nat := 70

/-- **The state of a run.** -/
structure Machine where
  program : Program
  mode : Mode
  text : String := ""
  ended : Bool := true
  file : String := "-"
  number : Nat := 0
  held : String := ""
  heldEnded : Bool := true
  rest : List Line
  /-- Whether something was replaced since a line was taken or a command branched for it. -/
  replaced : Bool := false
  appended : List Appended := []
  spans : Array Span
  searched : Option (Regex × Bool) := none
  out : Output := {}
  written : List (String × Output) := []
  /-- Whether an end of line is missing at the end of what a command wrote to the output as if it were a file. -/
  directOwed : Bool := false
  /-- What files hold, and which lines of them are still to be taken. -/
  known : List (String × String) := []
  toTake : List (String × List Line) := []
  /-- Whether an expression was asked for before there was one. -/
  lost : Bool := false

/-- How the commands for a line end. -/
inductive Outcome
  | shown
  | dropped
  /-- The commands start again without taking a line. -/
  | again
  | quit (silent : Bool) (status : Nat)
deriving DecidableEq

/-! ### Output -/

/-- Adds a text that brings its own line ends. -/
def Output.add (o : Output) (separator : Char) (s : String) : Output :=
  { text := (if o.owed then o.text.push separator else o.text) ++ s, owed := false }

def Output.addLine (o : Output) (separator : Char) (s : String) (ended : Bool) : Output :=
  let o := o.add separator s
  if ended then { o with text := o.text.push separator } else { o with owed := true }

namespace Machine

/-- Adds a text to the output. -/
def emit (m : Machine) (s : String) : Machine := { m with out := m.out.add m.mode.separator s }

/-- Adds a line to the output. -/
def emitLine (m : Machine) (s : String) (ended : Bool) : Machine :=
  { m with out := m.out.addLine m.mode.separator s ended }

/-- Adds a line to a file, or to the output if the file is none of those that are kept apart from it. -/
def writeLine (m : Machine) (path s : String) (ended : Bool) : Machine :=
  if m.written.any (·.1 == path) then
    { m with written := m.written.map fun w =>
        if w.1 == path then (path, w.2.addLine m.mode.separator s ended) else w }
  else
    let o := Output.addLine ⟨m.out.text, m.directOwed⟩ m.mode.separator s ended
    { m with out := { m.out with text := o.text }, directOwed := o.owed }

/-- Shows what is appended. -/
def flush (m : Machine) : Machine :=
  let m := m.appended.foldl (fun m a =>
    match a with
    | .text s => m.emit s
    | .line s ended => m.emitLine s ended) m
  { m with appended := [] }

/-- Appends something to the current line. -/
def append (m : Machine) (a : Appended) : Machine := { m with appended := m.appended ++ [a] }

/-- Takes the next line; the text so far stays in front of it if it is kept. -/
def advance? (m : Machine) (keep : Bool) : Option Machine :=
  match m.rest with
  | [] => none
  | l :: rest =>
    let m := m.flush
    some { m with
      text := if keep then m.text.push m.mode.separator ++ l.text else l.text
      ended := l.ended, file := l.file, number := m.number + 1, rest, replaced := false }

/-! ### Addresses -/

/-- What is searched for; it is what is searched for last from then on. -/
def search (m : Machine) (s : Search) : Option (Regex × Bool) × Machine :=
  match s.regex with
  | some r => (some (r, s.fold), { m with searched := some (r, s.fold) })
  | none => (m.searched, if m.searched.isNone then { m with lost := true } else m)

def isAt (m : Machine) : Address → Bool × Machine
  | .line n => (m.number == n, m)
  | .stepped first step => (first ≤ m.number && (m.number - first) % step == 0, m)
  | .last => (m.rest.isEmpty, m)
  | .fitting s =>
    match m.search s with
    | (some (r, fold), m) => (r.occurs fold m.text.toList, m)
    | (none, m) => (false, m)
  | .further _ | .multiple _ => (false, m)

/-- Sets how far the lines of a command have come. -/
def setSpan (m : Machine) (place : Nat) (s : Span) : Machine := { m with spans := m.spans.setIfInBounds place s }

/-- Whether the current line is from one address to another, where the first one was not met before. -/
def entersSpan (m : Machine) (place : Nat) (first final : Address) : Bool × Machine :=
  match m.isAt first with
  | (false, m) => (false, m)
  | (true, m) =>
    let upTo (n : Nat) : Bool × Machine := (true, if m.number < n then m.setSpan place (.upTo n) else m)
    match final with
    | .line n => upTo n
    | .further count => upTo (m.number + count)
    | .multiple n => upTo (if n = 0 then 0 else (m.number / n + 1) * n)
    | _ => (true, m.setSpan place .upToAddress)

/-- Whether a command is for the current line. -/
def selects (m : Machine) (place : Nat) (c : Command) : Bool × Machine :=
  match c.first, c.last with
  | none, _ => (true, m)
  | some a, none => m.isAt a
  | some a, some b =>
    match (m.spans[place]?).getD .outside with
    | .outside => m.entersSpan place a b
    | .upTo n => (decide (m.number ≤ n), if n ≤ m.number then m.setSpan place .outside else m)
    | .upToAddress =>
      let (ends, m) := m.isAt b
      (true, if ends then m.setSpan place .outside else m)

/-- Whether the lines of a command go on after the current one. -/
def inSpan (m : Machine) (place : Nat) : Bool := (m.spans[place]?).getD .outside != .outside

/-! ### Replacements -/

/-- How letters are changed: all that follow, and the next one. -/
structure Casing where
  all : Option Bool := none
  next : Option Bool := none

/-- A text with its letters changed. -/
def Casing.apply (k : Casing) (cs : List Char) : List Char × Casing :=
  let change (upper : Option Bool) (c : Char) : Char :=
    match upper with
    | some true => c.toUpper
    | some false => c.toLower
    | none => c
  match cs with
  | [] => ([], k)
  | c :: rest => (change (k.next <|> k.all) c :: rest.map (change k.all), { k with next := none })

/-- What takes the place of a part. -/
def replacement (text : Array Char) (start : Nat) (found : Regex.Match) (ps : List Piece) : List Char :=
  let part (n : Nat) : List Char :=
    if n = 0 then (text.extract start found.position).toList
    else
      match found.groups.find? (·.1 == n) with
      | some (_, i, j) => (text.extract i j).toList
      | none => []
  (ps.foldl (fun (state : List Char × Casing) p =>
    let (done, k) := state
    let add (cs : List Char) : List Char × Casing :=
      let (cs, k) := k.apply cs
      (done ++ cs, k)
    match p with
    | .text s => add s.toList
    | .group n => add (part n)
    | .case .upper => (done, { k with all := some true })
    | .case .lower => (done, { k with all := some false })
    | .case .upperNext => (done, { k with next := some true })
    | .case .lowerNext => (done, { k with next := some false })
    | .case .stop => (done, {})) ([], {})).1

/-- A text with parts replaced from a place on, and whether any was; `count` parts were found so far and `before` is
the end of the last of them. `fuel` bounds their number. -/
def replaceFrom (r : Regex) (fold : Bool) (s : Substitution) (text : Array Char) :
    (fuel start count : Nat) → (before : Option Nat) → List Char × Bool
  | 0, start, _, _ => ((text.extract start text.size).toList, false)
  | fuel + 1, start, count, before =>
    match r.find? fold text start with
    | none => ((text.extract start text.size).toList, false)
    | some (i, found) =>
      let front := (text.extract start i).toList
      let isEmpty := found.position == i
      let skip (front : List Char) (count : Nat) (changed : Bool) : List Char × Bool :=
        if text.size ≤ i then (front, changed)
        else
          let (rest, again) := replaceFrom r fold s text fuel (i + 1) count none
          (front ++ (text.extract i (i + 1)).toList ++ rest, changed || again)
      if isEmpty && before == some i then skip front count false
      else
        let counts := s.which ≤ count + 1
        let itself := if counts then replacement text i found s.pieces else (text.extract i found.position).toList
        if counts && !s.every then (front ++ itself ++ (text.extract found.position text.size).toList, true)
        else if isEmpty then skip (front ++ itself) (count + 1) counts
        else
          let (rest, again) := replaceFrom r fold s text fuel found.position (count + 1) (some found.position)
          (front ++ itself ++ rest, counts || again)

/-- Replaces parts of the current text. -/
def substitute (m : Machine) (s : Substitution) : Machine :=
  match m.search s.search with
  | (none, m) => m
  | (some (r, fold), m) =>
    let cs := m.text.toList.toArray
    let (result, changed) := replaceFrom r fold s cs (cs.size + 2) 0 0 none
    if !changed then m
    else
      let m := { m with text := String.ofList result, replaced := true }
      let m := if s.shows then m.emitLine m.text m.ended else m
      match s.file with
      | some path => m.writeLine path m.text m.ended
      | none => m

/-! ### Listing -/

def listedChar (c : Char) : List Char :=
  match c with
  | '\\' => ['\\', '\\']
  | '\x07' => ['\\', 'a']
  | '\x08' => ['\\', 'b']
  | '\x0c' => ['\\', 'f']
  | '\n' => ['\\', 'n']
  | '\r' => ['\\', 'r']
  | '\t' => ['\\', 't']
  | '\x0b' => ['\\', 'v']
  | c =>
    if ' ' ≤ c ∧ c ≤ '~' then [c]
    else
      let ds := Nat.toDigits 8 c.toNat
      '\\' :: List.replicate (3 - ds.length) '0' ++ ds

/-- A text as it is listed, in lines of a given length; zero stands for any length. -/
def listed (width : Nat) (cs : List Char) : String :=
  let (done, _) := cs.foldl (fun (state : List Char × Nat) c =>
    let (done, column) := state
    let shown := listedChar c
    if 0 < width ∧ width - 1 < column + shown.length then (done ++ ['\\', '\n'] ++ shown, shown.length)
    else (done ++ shown, column + shown.length)) ([], 0)
  String.ofList done ++ "$\n"

/-! ### Commands -/

def linesOf (separator : Char) (file text : String) : List Line :=
  let pieces := (text.toList.splitOn separator).map String.ofList
  match pieces.getLast? with
  | none => []
  | some unended =>
    pieces.dropLast.map (⟨·, true, file⟩) ++ if unended = "" then [] else [⟨unended, false, file⟩]

/-- Takes a line of a file that is read line by line. -/
def takeLine (m : Machine) (path : String) : Machine :=
  match m.toTake.lookup path with
  | some (l :: rest) =>
    let m := m.append (.line l.text l.ended)
    { m with toTake := m.toTake.map fun t => if t.1 == path then (path, rest) else t }
  | _ => m

/-- The front of the current text up to its first line end, and what follows, if there is one. -/
def firstLine? (m : Machine) : Option (String × String) :=
  match m.text.toList.span (· != m.mode.separator) with
  | (front, _ :: rest) => some (String.ofList front, String.ofList rest)
  | _ => none

/-- Where a command goes to that branches. -/
def placeAfter (m : Machine) (label : String) : Nat :=
  if label = "" then m.program.commands.size else (m.program.placeOf? label).getD m.program.commands.size

/-- The state after a command that neither ends the commands nor goes anywhere. -/
def apply (m : Machine) : Action → Machine
  | .append s => m.append (.text s)
  | .insert s => m.emit s
  | .replace s => m.substitute s
  | .exchange table => { m with text := m.text.map fun c => (table.lookup c).getD c }
  | .recall => { m with text := m.held, ended := m.heldEnded }
  | .recallMore => { m with text := m.text.push m.mode.separator ++ m.held, ended := m.heldEnded }
  | .hold => { m with held := m.text, heldEnded := m.ended }
  | .holdMore => { m with held := m.held.push m.mode.separator ++ m.text, heldEnded := m.ended }
  | .swap => { m with text := m.held, ended := m.heldEnded, held := m.text, heldEnded := m.ended }
  | .print => m.emitLine m.text m.ended
  | .printFirst =>
    match m.firstLine? with
    | some (front, _) => m.emitLine front true
    | none => m.emitLine m.text m.ended
  | .number => m.emit (toString m.number ++ "\n")
  | .list width => m.emit (listed (width.getD m.mode.width) m.text.toList)
  | .readFile path =>
    match m.known.lookup path with
    | some s => m.append (.text s)
    | none => m.append (.text "")
  | .readLine path => m.takeLine path
  | .write first path =>
    match if first then m.firstLine? else none with
    | some (front, _) => m.writeLine path front true
    | none => m.writeLine path m.text m.ended
  | .fileName => m.emit (m.file ++ "\n")
  | .empty => { m with text := "" }
  | _ => m

def runFrom : (fuel place : Nat) → Machine → Outcome × Machine
  | 0, _, m => (.quit true 4, m)
  | fuel + 1, place, m =>
    match m.program.commands[place]? with
    | none => (.shown, m)
    | some c =>
      let (selected, m) := m.selects place c
      if m.lost then (.quit true 1, m)
      else if selected == c.negated then
        match c.action with
        | .opening exit => runFrom fuel exit m
        | _ => runFrom fuel (place + 1) m
      else
        match c.action with
        | .branch label => runFrom fuel (m.placeAfter label) m
        | .branchIf wanted label =>
          if m.replaced == wanted then
            runFrom fuel (m.placeAfter label) (if wanted then { m with replaced := false } else m)
          else runFrom fuel (place + 1) (if wanted then m else { m with replaced := false })
        | .change s =>
          let shows := c.last.isNone || !m.inSpan place || c.negated
          (.dropped, if shows then m.emit s else m)
        | .delete => (.dropped, m)
        | .deleteFirst =>
          match m.firstLine? with
          | some (_, rest) => (.again, { m with text := rest })
          | none => (.dropped, m)
        | .quit silent status => (.quit silent status, m)
        | .next =>
          if m.rest.isEmpty then (.shown, m)
          else
            let m := if m.mode.silent then m else m.emitLine m.text m.ended
            match m.advance? false with
            | some m => runFrom fuel (place + 1) m
            | none => (.shown, m)
        | .nextMore =>
          match m.advance? true with
          | some m => runFrom fuel (place + 1) m
          | none => (.shown, m)
        | a =>
          let m := m.apply a
          if m.lost then (.quit true 1, m) else runFrom fuel (place + 1) m

/-- How many commands are run for one line at most. -/
def maxCommands : Nat := 10000000

/-- Edits lines until the end or a command that quits; returns the status of that. `again` says that no line is
taken first. -/
def runLines : (fuel : Nat) → (again : Bool) → Machine → Option Nat × Machine
  | 0, _, m => (none, m)
  | fuel + 1, again, m =>
    match if again then some m else m.advance? false with
    | none => (none, m)
    | some m =>
      let shown (m : Machine) : Machine := if m.mode.silent then m else m.emitLine m.text m.ended
      match runFrom maxCommands 0 m with
      | (.shown, m) => runLines fuel false (shown m).flush
      | (.dropped, m) => runLines fuel false m.flush
      | (.again, m) => runLines fuel true m.flush
      | (.quit true status, m) => (some status, m)
      | (.quit false status, m) => (some status, (shown m).flush.emit "")

end Machine

/-! ### Files -/

/-- The files that a program reads whole. -/
def Program.sources (p : Program) : List String :=
  (p.commands.toList.filterMap fun c =>
    match c.action with
    | .readFile path => some path
    | _ => none).eraseDups

def Program.lineSources (p : Program) : List String :=
  (p.commands.toList.filterMap fun c =>
    match c.action with
    | .readLine path => some path
    | _ => none).eraseDups

/-- The files that a program writes. -/
def Program.targets (p : Program) : List String :=
  (p.commands.toList.filterMap fun c =>
    match c.action with
    | .write _ path => some path
    | .replace s => s.file
    | _ => none).eraseDups

/-- How far each command has come at first: an address before the first line is met already. -/
def Program.spans (p : Program) : Array Span :=
  p.commands.map fun c =>
    match c.first with
    | some (.line 0) => .upToAddress
    | _ => .outside

end Edit

end Script

end Recompile

import Recompile.Script.Process
import Recompile.Script.Tool.Records

/-!
# Tools that start programs

The tools that run other programs: in another environment, for what they read, or for files that they find. How
a program is started they are told by `start`, which returns how it ended or why it did not start.
-/

namespace Recompile

namespace Script

namespace Tool

variable (start : List String → Running (Except Fault Ending))

def startStatus (fault : Fault) : Nat := if fault.kind = .notFound then 127 else 126

/-- Becomes another program, which ends as the tool does. -/
def become (complaint : String → Running Unit) (args : List String) : Running Nat := do
  match ← start args with
  | .ok (.exited status) => return status
  | .ok (.killed signal) => throw (.killed signal)
  | .error fault => do
    complaint (shown (args.headD "") ++ ": " ++ causeText fault)
    return startStatus fault

/-! ### Environments -/

/-- Sets parameters from the front of some arguments, and returns the rest. -/
def setParameters : List String → Running (List String)
  | [] => return []
  | a :: rest =>
    match a.toList.span (· != '=') with
    | (name, _ :: value) => do
      changeBinding (String.ofList name) fun _ => ⟨some (String.ofList value), true, false⟩
      setParameters rest
    | _ => return a :: rest

/-- Runs a program in another environment, or shows the environment. -/
def env : Action :=
  withOptions "env" { flags := "i0v", valued := "uCS", names := [("ignore-environment", 'i'), ("unset", 'u'),
      ("chdir", 'C'), ("null", '0'), ("split-string", 'S')], anywhere := false } 125 fun g => do
    let (alone, operands) := match g.operands with
      | "-" :: rest => (true, rest)
      | operands => (g.has 'i', operands)
    if alone then modify fun s => { s with bindings := ∅ }
    for name in g.values 'u' do
      modify fun s => { s with bindings := s.bindings.erase name }
    let split := (g.values 'S').flatMap fun t => (t.toList.splitOn ' ').map String.ofList
    match ← setParameters (split.filter (· != "") ++ operands) with
    | [] => do
      print (unlines ((← get).environment.map fun (name, value) => name ++ "=" ++ value))
      return 0
    | args => become start (complain "env") args

/-- Runs a program as it is. -/
def nohup : Action := fun args => do
  match args.filter (· != "--") with
  | [] => misuse "nohup" "missing operand" 125
  | args => become start (fun cause => complain "nohup" ("failed to run command " ++ cause)) args

/-- Runs a program, however much it asks of the machine. -/
def nice : Action := withOptions "nice" { valued := "n", anywhere := false } 125 fun g => do
  match g.operands with
  | [] => do
    print "0\n"
    return 0
  | args => become start (complain "nice") args

/-- Runs a program, which is over before any time has passed. -/
def timeout : Action :=
  withOptions "timeout" { flags := "vf", valued := "ks", names := [("signal", 's'), ("kill-after", 'k'),
      ("foreground", 'f'), ("preserve-status", 'f'), ("verbose", 'v')], anywhere := false } 125 fun g => do
    match g.operands with
    | duration :: name :: args =>
      let number := if "smhd".toList.any (duration.toList.getLast? == some ·) then duration.toList.dropLast
        else duration.toList
      if number.isEmpty || !number.all fun c => c.isDigit || c == '.' then
        misuse "timeout" ("invalid time interval " ++ shown duration) 125
      else
        match ← start (name :: args) with
        | .ok ending => return ending.status
        | .error fault => do
          complain "timeout" ("failed to run command " ++ shown name ++ ": " ++ causeText fault)
          return startStatus fault
    | _ => do
      printError "Try 'timeout --help' for more information.\n"
      return 125

/-- Shows the paths of programs. -/
def which : Action := fun args => do
  let names := args.filter fun a => a != "-a" && a != "--"
  forEach names fun name => do
    let s ← get
    match programPath? s name with
    | none => return 1
    | some path =>
      if (Process.ofScript s path path []).toOption.isSome then
        print (path ++ "\n")
        return 0
      else return 1

/-! ### Arguments from input -/

/-- The items of a text between blanks. Quotes keep blanks within an item. -/
def itemsOf : (quote : Option Char) → (item : Option String) → List Char → List String
  | _, none, [] => []
  | _, some item, [] => [item]
  | some q, item, c :: cs =>
    if c == q then itemsOf none (some (item.getD "")) cs else itemsOf (some q) (some ((item.getD "").push c)) cs
  | none, item, '\\' :: c :: cs => itemsOf none (some ((item.getD "").push c)) cs
  | none, item, c :: cs =>
    if c == '\'' || c == '"' then itemsOf (some c) (some (item.getD "")) cs
    else if c == ' ' || c == '\t' || c == '\n' then
      match item with
      | some item => item :: itemsOf none none cs
      | none => itemsOf none none cs
    else itemsOf none (some ((item.getD "").push c)) cs

/-- Parts of a list of so many elements each; `fuel` bounds their number. -/
def portions {α : Type} (size : Nat) : (fuel : Nat) → List α → List (List α)
  | 0, _ => []
  | fuel + 1, xs => if xs.isEmpty then [] else xs.take size :: portions size fuel (xs.drop size)

/-- Runs a program for each of some lists of arguments. -/
def startAll (shows : Bool) : List (List String) → Running Nat
  | [] => return 0
  | args :: rest => do
    let name := args.headD ""
    if shows then printError (" ".intercalate args ++ "\n")
    match ← start args with
    | .error fault => failWith "xargs" (name ++ ": " ++ causeText fault) (startStatus fault)
    | .ok (.killed signal) => failWith "xargs" (name ++ ": terminated by signal " ++ toString signal) 125
    | .ok (.exited 255) => failWith "xargs" (name ++ ": exited with status 255; aborting") 124
    | .ok (.exited status) => do
      let others ← startAll shows rest
      return if others = 0 ∧ status ≠ 0 then 123 else others

/-- Runs a program with what is read for arguments. -/
def xargs : Action :=
  withOptions "xargs" { flags := "0rtx", valued := "nILPsd", names := [("null", '0'), ("no-run-if-empty", 'r'),
      ("max-args", 'n'), ("max-lines", 'L'), ("delimiter", 'd'), ("verbose", 't')], anywhere := false } 1 fun g => do
    for c in ['n', 'L', 'P', 's'] do
      if let some bad := (g.values c).find? fun n => (digits? n).isNone then
        return ← misuse "xargs" ("invalid number \"" ++ bad ++ "\" for -" ++ c.toString ++ " option") 1
    let text ← readAll 0
    let command := if g.operands.isEmpty then ["echo"] else g.operands
    let pieces (separator : Char) : List String :=
      let ps := (text.toList.splitOn separator).map String.ofList
      if ps.getLast? == some "" then ps.dropLast else ps
    match g.value? 'I' with
    | some mark => do
      let lines := (pieces '\n').map fun l => String.ofList (l.toList.dropWhile fun c => c == ' ' || c == '\t')
      startAll start (g.has 't')
        ((lines.filter (· != "")).map fun l => command.map fun a => l.intercalate (a.splitOn mark))
    | none => do
      let items := if g.has '0' then pieces '\x00' else
        match (g.value? 'd').bind fun d => d.toList.head? with
        | some d => pieces d
        | none => itemsOf none none text.toList
      let lists := match (g.value? 'n').bind digits? with
        | some (n + 1) => portions (n + 1) (items.length + 1) items
        | _ =>
          match (g.value? 'L').bind digits? with
          | some (n + 1) =>
            (portions (n + 1) (text.length + 1) ((pieces '\n').filter (· != ""))).map fun ls =>
              itemsOf none none ("\n".intercalate ls).toList
          | _ => if items.isEmpty then [] else [items]
      let lists := if lists.isEmpty && !g.has 'r' then [[]] else lists
      startAll start (g.has 't') (lists.map (command ++ ·))

/-! ### Finding files -/

/-- **What is asked of a file that was found,** and what is done with it. -/
inductive Question
  | isNamed (fold : Bool) (pattern : List Element)
  | isAt (fold : Bool) (pattern : List Element)
  | isMatched (fold : Bool) (r : Regex)
  | isOfType (cs : List Char)
  | isEmpty
  /-- Its size in units of so many bytes, rounded up, in comparison with a number. -/
  | isSized (order : Ordering) (count unit : Nat)
  /-- Whether its permissions are these, or all of these or any of these are among them. -/
  | isPermitted (order : Ordering) (bits : Nat)
  | isSame (path : String)
  | isExecutable
  | constant (holds : Bool)
  | print (ending : String)
  | printFormat (format : String)
  | delete
  | doNotEnter
  | stop
  /-- A program is run for the file, or once for all files together. -/
  | run (together : Bool) (command : List String)
  | not (q : Question)
  | both (q r : Question)
  | either (q r : Question)
  /-- One question after another, of which the last one counts. -/
  | after (q r : Question)

namespace Question

/-- Whether something is done with the file. -/
def acts : Question → Bool
  | print _ | printFormat _ | delete | stop | run .. => true
  | not q => q.acts
  | both q r | either q r | after q r => q.acts || r.acts
  | _ => false

end Question

/-- A file that was found, and where the search for it began. -/
structure Found where
  path : String
  name : String
  node : Node
  depth : Nat
  root : String

/-- **The answer to a question:** whether it holds, whether the file is not to be entered, whether the search ends,
and the files for each program that is run for all together. -/
structure Answer where
  holds : Bool
  pruned : Bool := false
  stops : Bool := false
  later : List (List String × String) := []

/-- The answer that holds or not, with what else came of two answers. -/
def Answer.with (a b : Answer) (holds : Bool) : Answer :=
  ⟨holds, a.pruned || b.pruned, a.stops || b.stops, a.later ++ b.later⟩

/-- A reader of the questions in arguments; failures are what is wrong. -/
abbrev QuestionReader := StateT (List String) (Except String)

def patternOf (s : String) : List Element :=
  let rec marked : List Char → List Marked
    | '\\' :: c :: rest => (c, true) :: marked rest
    | c :: rest => (c, false) :: marked rest
    | [] => []
  elements (marked s.toList)

def questionArgument (name : String) : QuestionReader String := do
  match ← get with
  | [] => throw ("missing argument to \x60" ++ name ++ "'")
  | a :: rest => do
    set rest
    return a

/-- A number with a sign that says whether more, less or just as much is meant. -/
def comparedNumber? (s : String) : Option (Ordering × List Char) :=
  let (order, cs) : Ordering × List Char := match s.toList with
    | '+' :: cs => (.gt, cs)
    | '-' :: cs => (.lt, cs)
    | cs => (.eq, cs)
  if cs.head?.any Char.isDigit then some (order, cs) else none

/-- The size that an argument describes. -/
def sizeQuestion (s : String) : Except String Question :=
  match comparedNumber? s with
  | none => .error ("invalid -size type `" ++ (s.toList.getLast?.getD ' ').toString ++ "'")
  | some (order, cs) =>
    let ds := cs.takeWhile Char.isDigit
    let unit? : Option Nat := match cs.drop ds.length with
      | [] | ['b'] => some 512
      | ['c'] => some 1
      | ['w'] => some 2
      | ['k'] => some 1024
      | ['M'] => some 1048576
      | ['G'] => some 1073741824
      | _ => none
    match unit? with
    | some unit => .ok (.isSized order (Arithmetic.natOf 10 ds) unit)
    | none => .error ("invalid -size type `" ++ (s.toList.getLast?.getD ' ').toString ++ "'")

/-- The permissions that an argument describes. -/
def permissionQuestion (s : String) : Except String Question :=
  let (order, cs) : Ordering × List Char := match s.toList with
    | '-' :: cs => (.gt, cs)
    | '/' :: cs => (.lt, cs)
    | cs => (.eq, cs)
  if !cs.isEmpty && cs.all fun c => '0' ≤ c && c ≤ '7' then .ok (.isPermitted order (Arithmetic.natOf 8 cs))
  else if isMode (String.ofList cs) then
    let who := cs.takeWhile "ugoa".toList.contains
    let who := if who.isEmpty || who.contains 'a' then "ugo".toList else who
    let bit (c : Char) : Nat := if c == 'r' then 4 else if c == 'w' then 2 else if c == 'x' then 1 else 0
    let one := (cs.dropWhile "ugoa+=-".toList.contains).foldl (fun n c => n + bit c) 0
    let place (c : Char) : Nat := if c == 'u' then 64 else if c == 'g' then 8 else 1
    .ok (.isPermitted order (who.foldl (fun n c => n + one * place c) 0))
  else .error ("invalid mode " ++ shown s)

/-- Whether a file whose times are those of now is as old as an argument says. -/
def ageQuestion (s : String) : Question :=
  match comparedNumber? s with
  | some (.eq, ds) => .constant (Arithmetic.natOf 10 (ds.takeWhile Char.isDigit) = 0)
  | some (.lt, _) => .constant true
  | _ => .constant false

def plainQuestion (name : String) : QuestionReader Question := do
  let argument : QuestionReader String := questionArgument name
  match name with
  | "-name" => return .isNamed false (patternOf (← argument))
  | "-iname" => return .isNamed true (patternOf (← argument).toLower)
  | "-path" | "-wholename" => return .isAt false (patternOf (← argument))
  | "-ipath" | "-iwholename" => return .isAt true (patternOf (← argument).toLower)
  | "-regex" | "-iregex" => do
    match Regex.parse { extended := false, lenient := true } (← argument) with
    | .ok r => return .isMatched (name == "-iregex") r
    | .error e => throw e.message
  | "-type" | "-xtype" => do
    let t ← argument
    let kinds := (t.toList.splitOn ',').flatten
    if kinds.isEmpty || !kinds.all "fdlbcps".toList.contains then throw ("Unknown argument to -type: " ++ t)
    return .isOfType kinds
  | "-empty" => return .isEmpty
  | "-size" => do
    match sizeQuestion (← argument) with
    | .ok q => return q
    | .error reason => throw reason
  | "-perm" => do
    match permissionQuestion (← argument) with
    | .ok q => return q
    | .error reason => throw reason
  | "-mtime" | "-atime" | "-ctime" | "-mmin" | "-amin" | "-cmin" => return ageQuestion (← argument)
  | "-newer" => do
    discard argument
    return .constant false
  | "-user" | "-group" => return .constant ((← argument) == "root")
  | "-samefile" => return .isSame (← argument)
  | "-executable" => return .isExecutable
  | "-true" | "-readable" | "-writable" => return .constant true
  | "-false" | "-nouser" | "-nogroup" => return .constant false
  | "-print" => return .print "\n"
  | "-print0" => return .print "\x00"
  | "-printf" => return .printFormat (← argument)
  | "-delete" => return .delete
  | "-prune" => return .doNotEnter
  | "-quit" => return .stop
  | "-exec" | "-execdir" => do
    let (command, rest) := (← get).span fun a => a != ";" && a != "+"
    match rest with
    | [] => throw ("missing argument to \x60" ++ name ++ "'")
    | o :: rest => do
      set rest
      return .run (o == "+") command
  | _ => throw ("unknown predicate \x60" ++ name ++ "'")

mutual

def readList : (fuel : Nat) → QuestionReader Question
  | 0 => throw "too long"
  | fuel + 1 => do
    let q ← readEither fuel
    match ← get with
    | "," :: rest => do
      set rest
      return .after q (← readList fuel)
    | _ => return q

def readEither : (fuel : Nat) → QuestionReader Question
  | 0 => throw "too long"
  | fuel + 1 => do
    let q ← readBoth fuel
    match ← get with
    | o :: rest =>
      if o = "-o" ∨ o = "-or" then
        set rest
        return .either q (← readEither fuel)
      else return q
    | [] => return q

def readBoth : (fuel : Nat) → QuestionReader Question
  | 0 => throw "too long"
  | fuel + 1 => do
    let q ← readOne fuel
    match ← get with
    | [] => return q
    | o :: rest =>
      if o = "-o" ∨ o = "-or" ∨ o = ")" ∨ o = "," then return q
      if o = "-a" ∨ o = "-and" then set rest
      return .both q (← readBoth fuel)

def readOne : (fuel : Nat) → QuestionReader Question
  | 0 => throw "too long"
  | fuel + 1 => do
    match ← get with
    | [] => throw "expected an expression"
    | name :: rest => do
      set rest
      match name with
      | "!" | "-not" => do
        if rest.isEmpty then throw ("expected an expression after " ++ shown name)
        return .not (← readOne fuel)
      | "(" => do
        let q ← readList fuel
        match ← get with
        | ")" :: rest => do
          set rest
          return q
        | _ => throw "invalid expression; I was expecting to find a ')' somewhere but did not see one."
      | "-a" | "-and" | "-o" | "-or" =>
        throw ("invalid expression; you have used a binary operator " ++ shown name ++ " with nothing before it.")
      | _ => plainQuestion name

end

def permissionsOf : Node → Nat
  | .file _ executable => if executable then 493 else 420
  | .dir => 493
  | .link _ => 511

def kindLetter : Node → Char
  | .dir => 'd'
  | .file .. => 'f'
  | .link _ => 'l'

/-- What a letter of a format stands for. -/
def Found.part (f : Found) (c : Char) : String :=
  match c with
  | 'p' => f.path
  | 'f' => f.name
  | 'h' => frontPart f.path
  | 'P' => String.ofList ((f.path.toList.drop f.root.length).dropWhile (· == '/'))
  | 'H' => f.root
  | 'd' => toString f.depth
  | 'y' => (kindLetter f.node).toString
  | 'm' => String.ofList (Nat.toDigits 8 (permissionsOf f.node))
  | 's' => told f.path f.node 's'
  | 'l' =>
    match f.node with
    | .link target => raw target.spelling
    | _ => ""
  | 'u' | 'g' => "root"
  | '%' => "%"
  | _ => ""

/-- A format with the parts of a file put in. -/
def Found.text (f : Found) : List Char → List Char
  | [] => []
  | '%' :: c :: rest => (f.part c).toList ++ f.text rest
  | '\\' :: 'n' :: rest => '\n' :: f.text rest
  | '\\' :: 't' :: rest => '\t' :: f.text rest
  | '\\' :: '0' :: rest => '\x00' :: f.text rest
  | '\\' :: '\\' :: rest => '\\' :: f.text rest
  | c :: rest => c :: f.text rest

/-- Answers a question about a file, and does what is asked for. -/
def answer (f : Found) : Question → Running Answer
  | .isNamed fold p => return { holds := fits p (if fold then f.name.toLower else f.name).toList }
  | .isAt fold p => return { holds := fits p (if fold then f.path.toLower else f.path).toList }
  | .isMatched fold r => do
    let text := f.path.toList.toArray
    return { holds := (r.matchAt? fold text 0).any fun m => m.position == text.size }
  | .isOfType cs => return { holds := cs.contains (kindLetter f.node) }
  | .isEmpty => do
    let s ← get
    let holds : Bool := match f.node with
      | .file data _ => data.isEmpty
      | .dir => (entryNames s f.path).isEmpty
      | .link _ => false
    return { holds }
  | .isSized order count unit => do
    let size := (told f.path f.node 's').toNat?.getD 0
    return { holds := compare ((size + unit - 1) / unit) count == order }
  | .isPermitted order bits => do
    let own := permissionsOf f.node
    return { holds := match order with
      | .eq => own == bits
      | .gt => own &&& bits == bits
      | .lt => bits == 0 || own &&& bits != 0 }
  | .isSame p => do
    let s ← get
    let locate (p : String) : Option Location := (s.host.files.place s.cwd true (Shell.path p)).toOption.map (·.loc)
    return { holds := locate p == locate f.path }
  | .isExecutable => return { holds := permissionsOf f.node &&& 64 != 0 }
  | .constant holds => return { holds }
  | .print ending => do
    Script.print (f.path ++ ending)
    return { holds := true }
  | .printFormat format => do
    Script.print (String.ofList (f.text format.toList))
    return { holds := true }
  | .delete => do
    match ← changeFiles fun files cwd =>
        if f.node.isDir then removeEmpty f.path files cwd else files.removeFile cwd (Shell.path f.path) with
    | .ok _ => return { holds := true }
    | .error fault => do
      complain "find" ("cannot delete " ++ shown f.path ++ ": " ++ causeText fault)
      return { holds := false }
  | .doNotEnter => return { holds := true, pruned := true }
  | .stop => return { holds := true, stops := true }
  | .run true command => return { holds := true, later := [(command, f.path)] }
  | .run false command => do
    match ← start (command.map fun a => f.path.intercalate (a.splitOn "\x7b\x7d")) with
    | .ok ending => return { holds := ending == .exited 0 }
    | .error fault => do
      complain "find" (shown (command.headD "") ++ ": " ++ causeText fault)
      return { holds := false }
  | .not q => do
    let a ← answer f q
    return { a with holds := !a.holds }
  | .both q r => do
    let a ← answer f q
    if !a.holds || a.stops then return a
    let b ← answer f r
    return a.with b b.holds
  | .either q r => do
    let a ← answer f q
    if a.holds || a.stops then return a
    let b ← answer f r
    return a.with b b.holds
  | .after q r => do
    let a ← answer f q
    if a.stops then return a
    let b ← answer f r
    return a.with b b.holds

/-- The limits of a search. -/
structure Limits where
  minDepth : Nat := 0
  maxDepth : Option Nat := none
  /-- Whether a directory comes after what is in it. -/
  inner : Bool := false

/-- Takes the limits out of some arguments. -/
def limitsOf : Limits → List String → Except String (Limits × List String)
  | l, [] => .ok (l, [])
  | l, a :: n :: rest => do
    if a = "-maxdepth" ∨ a = "-mindepth" then
      match digits? n with
      | none => throw ("Expected a positive decimal integer argument to " ++ a ++ ", but got " ++ shown n)
      | some d => limitsOf (if a = "-maxdepth" then { l with maxDepth := some d } else { l with minDepth := d }) rest
    else if a = "-regextype" then limitsOf l rest
    else if a = "-depth" then limitsOf { l with inner := true } (n :: rest)
    else if a = "-xdev" ∨ a = "-mount" ∨ a = "-follow" then limitsOf l (n :: rest)
    else do
      let (found, others) ← limitsOf { l with inner := l.inner || a == "-delete" } (n :: rest)
      return (found, a :: others)
  | l, [a] =>
    if a = "-maxdepth" ∨ a = "-mindepth" then .error ("missing argument to \x60" ++ a ++ "'")
    else if a = "-depth" then .ok ({ l with inner := true }, [])
    else if a = "-xdev" ∨ a = "-mount" ∨ a = "-follow" then .ok (l, [])
    else .ok ({ l with inner := l.inner || a == "-delete" }, [a])

/-- Visits a file and what is below it; `fuel` bounds the depth. -/
def visit (limits : Limits) (q : Question) (root : String) : (fuel depth : Nat) → (path name : String) → Running Answer
  | 0, _, _, _ => return { holds := true }
  | fuel + 1, depth, path, name => do
    match nodeOf (← get) false path with
    | .error _ => return { holds := true }
    | .ok node => do
      let own : Running Answer := do
        if depth < limits.minDepth then return { holds := true }
        answer start ⟨path, name, node, depth, root⟩ q
      let below : Running Answer := do
        let mut all : Answer := { holds := true }
        if !node.isDir || limits.maxDepth.any (· ≤ depth) then return all
        for n in (entryNames (← get) path).mergeSort fun a b => !(b < a) do
          if !all.stops then
            let p := if path.endsWith "/" then path ++ n else path ++ "/" ++ n
            all := all.with (← visit limits q root fuel (depth + 1) p n) true
        return all
      if limits.inner then
        let first ← below
        if first.stops then return first
        return first.with (← own) true
      else
        let first ← own
        if first.pruned || first.stops then return { first with pruned := false }
        return first.with (← below) true

def find : Action := fun args => do
  let args := args.dropWhile fun a => a == "-L" || a == "-H" || a == "-P"
  let isQuestion (a : String) : Bool := a == "!" || a == "(" || (a.toList.head? == some '-' && a != "-")
  let roots := args.takeWhile fun a => !isQuestion a
  let parsed : Except String (Limits × Question) := do
    let (limits, questions) ← limitsOf {} (args.dropWhile fun a => !isQuestion a)
    if questions.isEmpty then return (limits, .print "\n")
    match (readList (20 * questions.length + 40)).run questions with
    | .ok (q, []) => return (limits, if q.acts then q else .both q (.print "\n"))
    | .ok (_, a :: _) => throw ("paths must precede expression: \x60" ++ a ++ "'")
    | .error reason => throw reason
  match parsed with
  | .error reason => failWith "find" reason 1
  | .ok (limits, q) => do
    let mut status := 0
    let mut all : Answer := { holds := true }
    for root in if roots.isEmpty then ["."] else roots do
      if !all.stops then
        match nodeOf (← get) false root with
        | .error fault => do
          complain "find" (shown root ++ ": " ++ causeText fault)
          status := 1
        | .ok _ => all := all.with (← visit start limits q root 4096 0 root (lastPart root)) true
    for command in (all.later.map (·.1)).eraseDups do
      let paths := (all.later.filter (·.1 == command)).map (·.2)
      match ← start (command.flatMap fun a => if a = "\x7b\x7d" then paths else [a]) with
      | .ok ending => if ending != .exited 0 then status := 1
      | .error fault => do
        complain "find" (shown (command.headD "") ++ ": " ++ causeText fault)
        status := 1
    return status

/-- **The tools that start programs.** -/
def starting : List (String × Action) :=
  [("awk", awk start "awk"), ("mawk", awk start "mawk"), ("env", env start), ("find", find start), ("nice", nice start),
    ("nohup", nohup start), ("setsid", nohup start), ("timeout", timeout start), ("which", which),
    ("xargs", xargs start)]

end Tool

end Script

end Recompile

import Recompile.Script.Awk.Reading
import Recompile.Script.Awk.Value
import Recompile.Script.Tool.Options

/-!
# Running programs over records

A program runs its rules for one record after another. The record and its fields depend on each other: fields are
split off when they are first wanted, and a field that is changed changes the record. Commands that leave a
statement, a rule or the program jump; what they jump out of catches them.

Other programs are started through `start`. Output is held back until another program is started or the end, so
that it comes after what is written to the error channel. `fuel` bounds how often statements call one another.
-/

namespace Recompile

namespace Script

namespace Awk

/-! ### State -/

/-- **A name within a function:** a value, or the number of the table that it stands for if it is used as one. -/
inductive Slot
  | value (v : Value)
  | table (number : Nat)

/-- **What records are taken from** by name: the characters that are left, and how a command ended. -/
structure Supply where
  name : String
  rest : List Char
  status : Nat := 0

/-- **What output goes to** by name: an open descriptor, or a command with what it will read. -/
structure Sink where
  name : String
  descriptor : Option Nat
  text : String := ""

/-- **A running program.** -/
structure Machine where
  program : Program
  globals : SortedMap String Value
  tables : Array Table := #[]
  /-- The tables that names stand for outside of functions. -/
  arrays : SortedMap String Nat := ∅
  /-- The names of the function that runs. -/
  frame : List (String × Slot) := []
  record : String := ""
  /-- What was between the fields when the record was set. -/
  separator : String := " "
  fields : Option (Array Value) := none
  /-- What is left of the current input. -/
  input : Option (List Char) := none
  /-- The number of the next operand, and whether one was opened. -/
  operand : Nat := 1
  opened : Bool := false
  supplies : List Supply := []
  sinks : List Sink := []
  /-- What was printed and is held back. -/
  out : String := ""
  /-- The rules whose ranges have begun. -/
  ranges : List Nat := []
  status : Nat := 0
  seed : Nat := 1

/-- **Why a program does not go on** with the next statement. -/
inductive Leave
  | next
  | nextFile
  | break
  | continue
  | return (v : Value)
  | exit
  /-- A mistake that ends the program, and its status. -/
  | fault (reason : String)

/-- A step of a program. -/
abbrev Working := ExceptT Leave (StateT Machine Running)

/-- A step of the shell within a program. -/
def outer {α : Type} (step : Running α) : Working α := liftM step

/-! ### Splitting -/

/-- The fields of a text between runs of blanks. -/
def blankFields (cs : List Char) : List String :=
  ((cs.splitOnP fun c => c == ' ' || c == '\t' || c == '\n').filter (!·.isEmpty)).map String.ofList

/-- The parts of a text between what fits an expression; `fuel` bounds their number. -/
def partsBetween (r : Regex) (text : Array Char) : (fuel start search : Nat) → List String
  | 0, start, _ => [String.ofList (text.extract start text.size).toList]
  | fuel + 1, start, search =>
    match r.find? false text search with
    | none => [String.ofList (text.extract start text.size).toList]
    | some (i, m) =>
      if m.position = i then
        if text.size ≤ i then [String.ofList (text.extract start text.size).toList]
        else partsBetween r text fuel start (i + 1)
      else String.ofList (text.extract start i).toList :: partsBetween r text fuel m.position m.position

/-- The regular expression that a text is, as far as it is one. -/
def patternOf (s : String) : Regex :=
  (Regex.parse { extended := true, escaping := true, lenient := true } s).toOption.getD (Regex.ofText s)

/-- **The fields of a text** for a separator. A blank stands for runs of blanks, any other character for itself, and
without separator each character is a field. -/
def splitFields (separator : String) (inLines : Bool) (text : String) : List String :=
  let cs := text.toList
  if cs.isEmpty then []
  else
    match separator.toList with
    | [' '] => blankFields cs
    | [] => cs.map Char.toString
    | [c] => (cs.splitOnP fun d => d == c || (inLines && d == '\n')).map String.ofList
    | _ =>
      let r := patternOf separator
      partsBetween (if inLines then .either r (.char '\n') else r) cs.toArray (cs.length + 1) 0 0

/-- The first record of some input, and what is left of it. Without separator records are what stands between
empty lines. -/
def firstRecord (separator : String) (cs : List Char) : Option (String × List Char) :=
  match separator.toList with
  | [c] =>
    if cs.isEmpty then none
    else
      let (front, rest) := cs.span (· != c)
      some (String.ofList front, rest.tail)
  | [] =>
    let cs := cs.dropWhile (· == '\n')
    if cs.isEmpty then none
    else
      let rec paragraph : List Char → List Char × List Char
        | '\n' :: '\n' :: rest => ([], rest.dropWhile (· == '\n'))
        | ['\n'] | [] => ([], [])
        | c :: rest =>
          let (front, rest) := paragraph rest
          (c :: front, rest)
      let (front, rest) := paragraph cs
      some (String.ofList front, rest)
  | _ =>
    if cs.isEmpty then none
    else
      let text := cs.toArray
      match (patternOf separator).find? false text 0 with
      | some (i, m) =>
        if m.position = i then some (String.ofList cs, [])
        else some (String.ofList (cs.take i), cs.drop m.position)
      | none => some (String.ofList cs, [])

/-! ### Names -/

/-- A variable outside of functions. -/
def global (name : String) : Working Value := do return ((← get).globals.get? name).getD .unset

/-- Sets a variable outside of functions. -/
def setGlobal (name : String) (v : Value) : Working Unit :=
  modify fun s => { s with globals := s.globals.insert name v }

def format : Working String := do return ((← get).globals.get? "CONVFMT").elim "%.6g" (·.toText "%.6g")

def textOf (v : Value) : Working String :=
  match v with
  | .text s | .input s => return s
  | .unset => return ""
  | .number x => do return numberText (← format) x

def globalText (name : String) : Working String := do textOf (← global name)

def newTable : Working Nat := do
  let s ← get
  set { s with tables := s.tables.push {} }
  return s.tables.size

/-- The number of the table that a name stands for. -/
def tableOf (name : String) : Working Nat := do
  let s ← get
  match s.frame.lookup name with
  | some (.table n) => return n
  | some (.value _) => throw (.fault ("illegal reference to variable " ++ name))
  | none =>
    match s.arrays.get? name with
    | some n => return n
    | none => do
      let n ← newTable
      modify fun s => { s with arrays := s.arrays.insert name n }
      return n

def changeTable (n : Nat) (f : Table → Table) : Working Unit :=
  modify fun s => { s with tables := s.tables.modify n f }

def table (n : Nat) : Working Table := do return ((← get).tables[n]?).getD {}

/-! ### Records -/

def setRecord (record : String) : Working Unit := do
  let separator ← globalText "FS"
  modify fun s => { s with record, separator, fields := none }

def fieldsOf : Working (Array Value) := do
  let s ← get
  match s.fields with
  | some fields => return fields
  | none => do
    let inLines := (← globalText "RS") == ""
    let fields := ((splitFields s.separator inLines s.record).map Value.input).toArray
    modify fun s => { s with fields := some fields }
    return fields

/-- Makes the record of its fields. -/
def joinFields (fields : Array Value) : Working Unit := do
  let between ← globalText "OFS"
  let texts ← fields.toList.mapM textOf
  modify fun s => { s with fields := some fields, record := between.intercalate texts }

/-- A mistake that is mentioned with the place in the input. -/
def runFault {α : Type} (reason : String) : Working α := do
  throw (.fault ("run time error: " ++ reason ++ "\n\tFILENAME=\"" ++ (← globalText "FILENAME") ++ "\" FNR=" ++
    (← globalText "FNR") ++ " NR=" ++ (← globalText "NR")))

/-- The greatest number of a field. -/
def maxField : Nat := 1000000

def fieldNumber (v : Value) : Working Nat := do
  let n := truncated v.toNumber
  if n < 0 then runFault ("negative field index $" ++ toString n)
  if (maxField : Int) < n then runFault "maximum number of fields exceeded"
  return n.toNat

def field (n : Nat) : Working Value := do
  if n = 0 then return .input (← get).record
  else return ((← fieldsOf)[n - 1]?).getD .unset

def setField (n : Nat) (v : Value) : Working Unit := do
  if n = 0 then setRecord (← textOf v)
  else
    let fields ← fieldsOf
    let fields := fields ++ Array.replicate (n - fields.size) (.input "")
    joinFields (fields.setIfInBounds (n - 1) v)

def setFieldCount (n : Nat) : Working Unit := do
  let fields ← fieldsOf
  joinFields (fields.extract 0 n ++ Array.replicate (n - fields.size) (.input ""))

/-! ### Variables -/

def variableOf (name : String) : Working Value := do
  match (← get).frame.lookup name with
  | some (.value v) => return v
  | some (.table _) => return .unset
  | none => if name = "NF" then return .ofNat (← fieldsOf).size else global name

def setVariable (name : String) (v : Value) : Working Unit := do
  let s ← get
  if s.frame.any (·.1 == name) then
    let frame : List (String × Slot) := s.frame.map fun slot => if slot.1 == name then (name, .value v) else slot
    set { s with frame }
  else if name = "NF" then setFieldCount (← fieldNumber v)
  else setGlobal name v

/-! ### Input -/

/-- What goes wrong when a file cannot be opened for input. -/
def inputFault (path cause : String) : Leave :=
  .fault
    (if cause = "Is a directory" then "read error (Is a directory)"
    else "cannot open \"" ++ path ++ "\" (" ++ cause ++ ")")

/-- The name and the value of an operand that assigns. -/
def assignment? (s : String) : Option (String × Value) :=
  (splitAssignment? s).map fun (name, value) =>
    (name, .input (String.ofList (unescapeText (value.length + 1) value.toList)))

/-- Opens the next file among the operands, or the usual input if there is none; says whether there was one.
`fuel` bounds the number of operands. -/
def openNext : (fuel : Nat) → Working Bool
  | 0 => return false
  | fuel + 1 => do
    let s ← get
    let count := truncated (← global "ARGC").toNumber
    if count ≤ s.operand then
      if s.opened then return false
      let text ← outer (readAll 0)
      modify fun s => { s with opened := true, input := some text.toList }
      setGlobal "FILENAME" (.text "-")
      return true
    else
      set { s with operand := s.operand + 1 }
      let operand ← textOf (((← table (← tableOf "ARGV")).get? (toString s.operand)).getD .unset)
      if operand = "" then openNext fuel
      else
        match assignment? operand with
        | some (name, v) => do
          setVariable name v
          openNext fuel
        | none =>
          match ← outer (Tool.operandText operand) with
          | .error cause => throw (inputFault operand cause)
          | .ok text => do
            modify fun s => { s with opened := true, input := some text.toList }
            setGlobal "FILENAME" (.text operand)
            setGlobal "FNR" (.number 0)
            return true

def nextRecord : (fuel : Nat) → Working (Option String)
  | 0 => return none
  | fuel + 1 => do
    match (← get).input with
    | some cs =>
      match firstRecord (← globalText "RS") cs with
      | some (record, rest) => do
        modify fun s => { s with input := some rest }
        setGlobal "NR" (.number ((← global "NR").toNumber + 1))
        setGlobal "FNR" (.number ((← global "FNR").toNumber + 1))
        return some record
      | none => do
        modify fun s => { s with input := none }
        nextRecord fuel
    | none => if ← openNext 100000 then nextRecord fuel else return none

/-! ### Output -/

section

variable (start : List String → Running (Except Fault Ending))

/-- Lets go of what was held back. -/
def flush : Working Unit := do
  let s ← get
  set { s with out := "" }
  outer (print s.out)

/-- How a shell within ended that runs a command. -/
def runCommand (command : String) : Working Nat := do
  match ← outer (start ["/bin/sh", "-c", command]) with
  | .ok (.exited status) => return status
  | .ok (.killed signal) => return 256 + signal
  | .error _ => return 127

def connected {α : Type} (descriptor channel : Nat) (step : Working α) : Working α := do
  let before ← outer (do return (← get).descriptors)
  outer (connect descriptor channel)
  let result ← step
  outer (modify fun s => { s with descriptors := before })
  return result

/-- What a command prints, and its status. -/
def outputOf (command : String) : Working (String × Nat) := do
  flush
  let channel ← outer (addChannel { endpoint := .memory })
  let status ← connected 1 channel (runCommand start command)
  let data ← outer (do return (((← get).channels[channel]?).map Channel.data).getD .empty)
  return (ofBytes data.data.toList, status)

/-- Ends what output goes to, and returns the status. -/
def endSink (k : Sink) : Working Nat := do
  match k.descriptor with
  | some d => do
    outer (close d)
    return 0
  | none => do
    let channel ← outer (addChannel (.ofText k.text))
    connected 0 channel (runCommand start k.name)

/-- Ends all that output goes to, the one that was opened last first. -/
def endSinks : Working Unit := do
  let sinks := (← get).sinks
  modify fun s => { s with sinks := [] }
  for k in sinks do
    discard <| endSink start k

/-- The descriptor for the next file. -/
def freeDescriptor (sinks : List Sink) : Nat := (sinks.filterMap (·.descriptor)).foldl max 99 + 1

/-- Writes to a file or a command. -/
def writeTo (d : Destination) (name text : String) : Working Unit := do
  match d with
  | .command => do
    let s ← get
    if s.sinks.any fun k => k.name == name && k.descriptor.isNone then
      let sinks : List Sink := s.sinks.map fun k =>
        if k.name == name && k.descriptor.isNone then { k with text := k.text ++ text } else k
      set { s with sinks }
    else
      flush
      modify fun s => { s with sinks := ⟨name, none, text⟩ :: s.sinks }
  | .file append =>
    if name = "/dev/stdout" ∨ name = "-" then modify fun s => { s with out := s.out ++ text }
    else if name = "/dev/stderr" then outer (printError text)
    else
      let s ← get
      match s.sinks.find? fun k => k.name == name && k.descriptor.isSome with
      | some k => discard <| outer (write (k.descriptor.getD 2) text)
      | none =>
        match ← outer (openFile (if append then .append else .overwrite) name) with
        | .error fault => throw (.fault ("cannot open \"" ++ name ++ "\" for output (" ++ causeText fault ++ ")"))
        | .ok channel => do
          let descriptor := freeDescriptor s.sinks
          outer (connect descriptor channel)
          modify fun s => { s with sinks := ⟨name, some descriptor, ""⟩ :: s.sinks }
          discard <| outer (write descriptor text)

/-- Prints. -/
def emit (target : Option (Destination × String)) (text : String) : Working Unit :=
  match target with
  | none => modify fun s => { s with out := s.out ++ text }
  | some (d, name) => writeTo d name text

/-- The supply of a name, which is opened if need be. -/
def supply? (isCommand : Bool) (name : String) : Working (Option Supply) := do
  let s ← get
  match s.supplies.find? (·.name == name) with
  | some k => return some k
  | none =>
    let opened ← if isCommand then do
        let (text, status) ← outputOf start name
        pure (some (text, status))
      else do
        match ← outer (Tool.operandText name) with
        | .ok text => pure (some (text, 0))
        | .error cause =>
          if cause = "Is a directory" then throw (inputFault name cause)
          pure none
    match opened with
    | none => return none
    | some (text, status) => do
      let k : Supply := ⟨name, text.toList, status⟩
      modify fun s => { s with supplies := k :: s.supplies }
      return some k

def recordFrom (k : Supply) : Working (Option String) := do
  match firstRecord (← globalText "RS") k.rest with
  | none => return none
  | some (record, rest) => do
    modify fun s =>
      { s with supplies := s.supplies.map fun other => if other.name == k.name then { k with rest } else other }
    return some record

/-- Closes what goes by a name, and returns its status, or that of nothing. -/
def closeNamed (name : String) : Working Float := do
  let s ← get
  match s.sinks.find? (·.name == name), s.supplies.find? (·.name == name) with
  | some k, _ => do
    set { s with sinks := s.sinks.filter (·.name != name) }
    return Float.ofNat (← endSink start k)
  | none, some k => do
    set { s with supplies := s.supplies.filter (·.name != name) }
    return Float.ofNat k.status
  | none, none => return -1

/-! ### Texts -/

/-- What takes the place of a part: an ampersand stands for the part itself. -/
def substitute (part : List Char) : List Char → List Char
  | '\\' :: '\\' :: '&' :: rest => '\\' :: part ++ substitute part rest
  | '\\' :: '&' :: rest => '&' :: substitute part rest
  | '&' :: rest => part ++ substitute part rest
  | c :: rest => c :: substitute part rest
  | [] => []

/-- A text with its parts that fit replaced, and how many there were; `last` is the end of the part before.
`fuel` bounds their number. -/
def substituteFrom (r : Regex) (every : Bool) (instead : List Char) (text : Array Char) :
    (fuel start : Nat) → (last : Option Nat) → List Char × Nat
  | 0, start, _ => ((text.extract start text.size).toList, 0)
  | fuel + 1, start, last =>
    match r.find? false text start with
    | none => ((text.extract start text.size).toList, 0)
    | some (i, m) =>
      let before := (text.extract start i).toList
      let next := (text.extract i (i + 1)).toList
      let isEmpty := m.position == i
      if isEmpty && last == some i then
        if text.size ≤ i then (before, 0)
        else
          let (rest, count) := substituteFrom r every instead text fuel (i + 1) none
          (before ++ next ++ rest, count)
      else
        let itself := substitute (text.extract i m.position).toList instead
        if !every then (before ++ itself ++ (text.extract m.position text.size).toList, 1)
        else if isEmpty then
          if text.size ≤ i then (before ++ itself, 1)
          else
            let (rest, count) := substituteFrom r every instead text fuel (i + 1) none
            (before ++ itself ++ next ++ rest, count + 1)
        else
          let (rest, count) := substituteFrom r every instead text fuel m.position (some m.position)
          (before ++ itself ++ rest, count + 1)

/-- The part of a text from a place on, with a given length. A place before the text lengthens the part. -/
def part (text : String) (first : Float) (length : Option Float) : String :=
  let first := truncated first
  let length := length.map truncated
  let length := if first < 1 then length.map (· - min 0 first) else length
  let rest := text.toList.drop ((max 1 first).toNat - 1)
  String.ofList (match length with
    | some n => rest.take n.toNat
    | none => rest)

/-- The first place of one text in another, where the place in front is `place`; there is zero if there is none. -/
def indexFrom (part : List Char) (place : Nat) : List Char → Nat
  | [] => 0
  | c :: rest => if part.isPrefixOf (c :: rest) then place else indexFrom part (place + 1) rest

/-- What is printed for a format, which has to suit its values. -/
def formatted (called : String) (vs : List Value) : Working String := do
  let fmt ← format
  let f ← textOf (vs.headD .unset)
  match formattedUpTo Value.toNumber (Value.toText fmt) (f.length + 1) 0 f.toList vs.tail with
  | (s, none) => return s
  | (s, some e) => do
    if called = "printf" then modify fun m => { m with out := m.out ++ s }
    runFault ((match e with
      | .tooFew => "not enough arguments passed to "
      | .badDirective n => "improper conversion(number " ++ toString n ++ ") in ") ++ called ++ "(\"" ++ f ++ "\")")

/-! ### Expressions -/

/-- Runs a step, and catches what leaves a loop: whether the loop is left. -/
def inLoop (body : Working Unit) : Working Bool := do
  try
    body
    return false
  catch
    | .break => return true
    | .continue => return false
    | l => throw l

mutual

/-- **The value of an expression.** -/
def eval : (fuel : Nat) → Expr → Working Value
  | 0, _ => throw .exit
  | fuel + 1, e => do
    match e with
    | .number x => return .number x
    | .text s => return .text s
    | .pattern r => return .ofBool (r.occurs false (← get).record.toList)
    | .place p => getPlace fuel p
    | .grouped a => eval fuel a
    | .assign none target value => do
      let v ← eval fuel value
      setPlace fuel target v
      return v
    | .assign (some o) target value => do
      let y := (← eval fuel value).toNumber
      let v := Value.number (o.apply (← getPlace fuel target).toNumber y)
      setPlace fuel target v
      return v
    | .count up before target => do
      let x := (← getPlace fuel target).toNumber
      let y := if up then x + 1 else x - 1
      setPlace fuel target (.number y)
      return .number (if before then y else x)
    | .operate o a b => do
      let x := (← eval fuel a).toNumber
      return .number (o.apply x (← eval fuel b).toNumber)
    | .compare c a b => do
      let v ← eval fuel a
      let w ← eval fuel b
      return .ofBool (c.holds (← format) v w)
    | .negate a => return .number (-(← eval fuel a).toNumber)
    | .plus a => return .number (← eval fuel a).toNumber
    | .not a => return .ofBool (!(← eval fuel a).isTrue)
    | .both a b => do
      if (← eval fuel a).isTrue then return .ofBool (← eval fuel b).isTrue else return .ofBool false
    | .either a b => do
      if (← eval fuel a).isTrue then return .ofBool true else return .ofBool (← eval fuel b).isTrue
    | .choose condition yes no => do
      if (← eval fuel condition).isTrue then eval fuel yes else eval fuel no
    | .join a b => do
      let s ← textOf (← eval fuel a)
      return .text (s ++ (← textOf (← eval fuel b)))
    | .search negated a pattern => do
      let s ← textOf (← eval fuel a)
      let r ← regex fuel pattern
      return .ofBool (r.occurs false s.toList != negated)
    | .member subscripts array => do
      let key ← keyOf fuel subscripts
      return .ofBool ((← table (← tableOf array)).get? key).isSome
    | .builtin name args => builtin fuel name args
    | .call name args => call fuel name args
    | .take source target => take fuel source target

/-- The regular expression that an expression stands for where one is wanted. -/
def regex : (fuel : Nat) → Expr → Working Regex
  | 0, _ => throw .exit
  | fuel + 1, e => do
    match e with
    | .pattern r => return r
    | .grouped a => regex fuel a
    | e => return patternOf (← textOf (← eval fuel e))

/-- The key that subscripts make. -/
def keyOf : (fuel : Nat) → List Expr → Working String
  | 0, _ => throw .exit
  | _ + 1, [] => return ""
  | fuel + 1, [e] => do textOf (← eval fuel e)
  | fuel + 1, e :: rest => do
    let s ← textOf (← eval fuel e)
    return s ++ (← globalText "SUBSEP") ++ (← keyOf fuel rest)

def getPlace : (fuel : Nat) → Place → Working Value
  | 0, _ => throw .exit
  | fuel + 1, p => do
    match p with
    | .variable name => variableOf name
    | .field e => do field (← fieldNumber (← eval fuel e))
    | .element array subscripts => do
      let key ← keyOf fuel subscripts
      let n ← tableOf array
      let v := ((← table n).get? key).getD .unset
      changeTable n (·.insert key v)
      return v

def setPlace : (fuel : Nat) → Place → Value → Working Unit
  | 0, _, _ => throw .exit
  | fuel + 1, p, v => do
    match p with
    | .variable name => setVariable name v
    | .field e => do setField (← fieldNumber (← eval fuel e)) v
    | .element array subscripts => do
      let key ← keyOf fuel subscripts
      changeTable (← tableOf array) (·.insert key v)

def evalAll : (fuel : Nat) → List Expr → Working (List Value)
  | 0, _ => throw .exit
  | _ + 1, [] => return []
  | fuel + 1, e :: rest => do
    let v ← eval fuel e
    return v :: (← evalAll fuel rest)

/-- Takes a record from somewhere, and returns whether there was one. -/
def take : (fuel : Nat) → Source → Option Place → Working Value
  | 0, _, _ => throw .exit
  | fuel + 1, source, target => do
    let put (record : String) : Working Unit :=
      match target with
      | none => setRecord record
      | some p => setPlace fuel p (.input record)
    match source with
    | .input =>
      match ← nextRecord 100000 with
      | none => return .number 0
      | some record => do
        put record
        return .number 1
    | .file path => do
      match ← supply? start false (← textOf (← eval fuel path)) with
      | none => return .number (-1)
      | some k =>
        match ← recordFrom k with
        | none => return .number 0
        | some record => do
          put record
          return .number 1
    | .command text => do
      match ← supply? start true (← textOf (← eval fuel text)) with
      | none => return .number (-1)
      | some k =>
        match ← recordFrom k with
        | none => return .number 0
        | some record => do
          setGlobal "NR" (.number ((← global "NR").toNumber + 1))
          put record
          return .number 1

/-- The value of a function that the language has. -/
def builtin : (fuel : Nat) → String → List Expr → Working Value
  | 0, _, _ => throw .exit
  | fuel + 1, name, args => do
    match name, args with
    | "length", [] => return .ofNat (← get).record.length
    | "length", [.place (.variable v)] => do
      let s ← get
      match s.frame.lookup v, s.arrays.get? v, s.globals.get? v with
      | some (.table n), _, _ => return .ofNat (← table n).size
      | none, some n, none => return .ofNat (← table n).size
      | _, _, _ => return .ofNat (← textOf (← variableOf v)).length
    | "length", e :: _ => return .ofNat (← textOf (← eval fuel e)).length
    | "split", e :: .place (.variable array) :: rest => do
      let text ← textOf (← eval fuel e)
      let parts ← match rest with
        | [] => do pure (splitFields (← globalText "FS") false text)
        | .pattern r :: _ =>
          pure (if text = "" then [] else partsBetween r text.toList.toArray (text.length + 1) 0 0)
        | e :: _ => do pure (splitFields (← textOf (← eval fuel e)) false text)
      changeTable (← tableOf array) fun _ =>
        parts.zipIdx.foldl (fun t (s, i) => t.insert (toString (i + 1)) (.input s)) {}
      return .ofNat parts.length
    | "sub", r :: e :: rest | "gsub", r :: e :: rest => do
      let r ← regex fuel r
      let instead ← textOf (← eval fuel e)
      let target := match rest with
        | .place p :: _ | .grouped (.place p) :: _ => some p
        | [] => some (.field (.number 0))
        | _ => none
      let text ← match target with
        | some p => do textOf (← getPlace fuel p)
        | none => do textOf (← eval fuel (rest.headD (.text "")))
      let cs := text.toList.toArray
      let (result, count) := substituteFrom r (name == "gsub") instead.toList cs (cs.size + 2) 0 none
      if let some p := target then
        if 0 < count then setPlace fuel p (.text (String.ofList result))
      return .ofNat count
    | "match", e :: r :: _ => do
      let text ← textOf (← eval fuel e)
      let r ← regex fuel r
      let (first, length) : Float × Float := match r.find? false text.toList.toArray 0 with
        | some (i, m) => (Float.ofNat (i + 1), Float.ofNat (m.position - i))
        | none => (0, -1)
      setGlobal "RSTART" (.number first)
      setGlobal "RLENGTH" (.number length)
      return .number first
    | _, _ => do
      let vs ← evalAll fuel args
      let v := vs.headD .unset
      let x := v.toNumber
      match name with
      | "substr" => return .text (part (← textOf v) (vs[1]?.getD Value.unset).toNumber (vs[2]?.map Value.toNumber))
      | "index" => return .ofNat (indexFrom (← textOf (vs[1]?.getD Value.unset)).toList 1 (← textOf v).toList)
      | "sprintf" => return .text (← formatted "sprintf" vs)
      | "tolower" => return .text ((← textOf v).map Char.toLower)
      | "toupper" => return .text ((← textOf v).map Char.toUpper)
      | "sin" => return .number x.sin
      | "cos" => return .number x.cos
      | "atan2" => return .number (x.atan2 (vs[1]?.getD Value.unset).toNumber)
      | "exp" => return .number x.exp
      | "log" => return .number x.log
      | "sqrt" => return .number x.sqrt
      | "int" => return .number (if x < 0 then x.ceil else x.floor)
      | "rand" => do
        let next := ((← get).seed * 1103515245 + 12345) % 2147483648
        modify fun s => { s with seed := next }
        return .number (Float.ofNat next / 2147483648)
      | "srand" => do
        let old := (← get).seed
        modify fun s => { s with seed := (truncated x).natAbs }
        return .ofNat old
      | "system" => do
        flush
        return .ofNat (← runCommand start (← textOf v))
      | "close" => return .number (← closeNamed start (← textOf v))
      | "fflush" => do
        flush
        return .number 0
      | _ => return .unset

/-- The value of a function of the program. -/
def call : (fuel : Nat) → String → List Expr → Working Value
  | 0, _, _ => throw .exit
  | fuel + 1, name, args => do
    let s ← get
    match s.program.functions.find? (·.name == name) with
    | none => throw (.fault ("function " ++ name ++ " never defined"))
    | some f => do
      let slots ← slotsOf fuel f.parameters args
      let frame := (← get).frame
      modify fun s => { s with frame := slots }
      let result : Except Leave Value ← try
          statements fuel f.body
          pure (.ok .unset)
        catch
          | .return v => pure (.ok v)
          | l => pure (.error l)
      modify fun s => { s with frame }
      match result with
      | .ok v => return v
      | .error l => throw l

/-- What parameters stand for. A name without a value may become a table on both sides. -/
def slotsOf : (fuel : Nat) → List String → List Expr → Working (List (String × Slot))
  | 0, _, _ => throw .exit
  | _ + 1, [], _ => return []
  | fuel + 1, p :: ps, args => do
    let slot : Slot ← match args with
      | [] => do pure (.table (← newTable))
      | .place (.variable v) :: _ => do
        let s ← get
        match s.frame.lookup v with
        | some slot => pure slot
        | none =>
          if v != "NF" && (s.globals.get? v).isNone then pure (.table (← tableOf v))
          else pure (.value (← variableOf v))
      | e :: _ => do pure (.value (← eval fuel e))
    return (p, slot) :: (← slotsOf fuel ps args.tail)

def statements : (fuel : Nat) → List Statement → Working Unit
  | 0, _ => throw .exit
  | _ + 1, [] => return
  | fuel + 1, s :: rest => do
    statement fuel s
    statements fuel rest

def statement : (fuel : Nat) → Statement → Working Unit
  | 0, _ => throw .exit
  | fuel + 1, c => do
    outer step
    match c with
    | .expr e => discard <| eval fuel e
    | .print args target => do
      let vs ← evalAll fuel args
      let fmt ← globalText "OFMT"
      let target ← destination fuel target
      let line ← if args.isEmpty then do pure (← get).record
        else do pure ((← globalText "OFS").intercalate (vs.map fun v => v.toText fmt))
      emit target (line ++ (← globalText "ORS"))
    | .printf args target => do
      let vs ← evalAll fuel args
      let target ← destination fuel target
      emit target (← formatted "printf" vs)
    | .choice condition yes no => do
      if (← eval fuel condition).isTrue then statement fuel yes
      else if let some s := no then statement fuel s
    | .loop condition body => loop fuel (some condition) none body
    | .repeated body condition => do
      if !(← inLoop (statement fuel body)) then loop fuel (some condition) none body
    | .counted start condition next body => do
      if let some s := start then statement fuel s
      loop fuel condition next body
    | .each target array body => do
      let n ← tableOf array
      each fuel target n (← table n).keys body
    | .block body => statements fuel body
    | .next => throw .next
    | .nextFile => throw .nextFile
    | .exit status => do
      if let some e := status then
        let n := truncated (← eval fuel e).toNumber
        modify fun s => { s with status := (n % 256).toNat }
      throw .exit
    | .return value => do
      match value with
      | none => throw (.return .unset)
      | some e => do throw (.return (← eval fuel e))
    | .break => throw .break
    | .continue => throw .continue
    | .delete array none => do changeTable (← tableOf array) fun _ => {}
    | .delete array (some subscripts) => do
      let key ← keyOf fuel subscripts
      changeTable (← tableOf array) (·.erase key)

/-- Where output goes to. -/
def destination : (fuel : Nat) → Option (Destination × Expr) → Working (Option (Destination × String))
  | 0, _ => throw .exit
  | _ + 1, none => return none
  | fuel + 1, some (d, e) => do return some (d, ← textOf (← eval fuel e))

def loop : (fuel : Nat) → (condition : Option Expr) → (next : Option Statement) → (body : Statement) → Working Unit
  | 0, _, _, _ => throw .exit
  | fuel + 1, condition, next, body => do
    outer step
    let goesOn ← match condition with
      | none => pure true
      | some e => do pure (← eval fuel e).isTrue
    if goesOn then
      if !(← inLoop (statement fuel body)) then
        if let some s := next then statement fuel s
        loop fuel condition next body

/-- Runs a loop for the keys of a table that are still in it. -/
def each : (fuel : Nat) → (target : String) → (n : Nat) → List String → (body : Statement) → Working Unit
  | 0, _, _, _, _ => throw .exit
  | _ + 1, _, _, [], _ => return
  | fuel + 1, target, n, key :: rest, body => do
    setVariable target (.input key)
    if !(← inLoop (statement fuel body)) then each fuel target n rest body

end

/-! ### Programs -/

/-- How often statements may call one another. -/
def maxDepth : Nat := 100000000

def runBody (rule : Rule) : Working Unit :=
  match rule.body with
  | some body => statements start maxDepth body
  | none => statement start maxDepth (.print [] none)

/-- Runs the rules that are for the current record; `number` is that of the first of them. -/
def runRules : (number : Nat) → List Rule → Working Unit
  | _, [] => return
  | number, rule :: rest => do
    let holds (e : Expr) : Working Bool := do return (← eval start maxDepth e).isTrue
    let chosen ← match rule.choice with
      | .start | .finish => pure false
      | .always => pure true
      | .when e => holds e
      | .range first last => do
        let begins ← if (← get).ranges.contains number then pure true else holds first
        if begins then
          let ends ← holds last
          modify fun s => { s with ranges := (s.ranges.filter (· != number)) ++ if ends then [] else [number] }
          pure true
        else pure false
    if chosen then runBody start rule
    runRules (number + 1) rest

/-- Runs the rules for all records; `fuel` bounds their number. -/
def runRecords (rules : List Rule) : (fuel : Nat) → Working Unit
  | 0 => return
  | fuel + 1 => do
    match ← nextRecord 100000 with
    | none => return
    | some record => do
      setRecord record
      try runRules start 0 rules catch
        | .next => pure ()
        | .nextFile => modify fun s => { s with input := none }
        | l => throw l
      runRecords rules fuel

def runAll (rules : List Rule) : Working Unit := rules.forM (runBody start)

/-- **Runs a program to its end.** Leaving it early still runs the rules for the end, unless it is left there or by a
mistake. -/
def runProgram (p : Program) : Working Unit := do
  let of (isWanted : Choice → Bool) : List Rule := p.rules.filter fun r => isWanted r.choice
  let starts := of fun
    | .start => true
    | _ => false
  let finishes := of fun
    | .finish => true
    | _ => false
  let others := starts.length + finishes.length < p.rules.length
  let survive (body : Working Unit) : Working Bool := do
    try
      body
      return true
    catch
      | .exit => return false
      | l => throw l
  let goesOn ← survive (runAll start starts)
  if others || !finishes.isEmpty then
    if goesOn then discard <| survive (runRecords start p.rules maxDepth)
    discard <| survive (runAll start finishes)

def startVariables : List (String × Value) :=
  [("CONVFMT", .text "%.6g"), ("FILENAME", .text ""), ("FNR", .number 0), ("FS", .text " "), ("NR", .number 0),
    ("OFMT", .text "%.6g"), ("OFS", .text " "), ("ORS", .text "\n"), ("RLENGTH", .number (-1)), ("RS", .text "\n"),
    ("RSTART", .number 0), ("SUBSEP", .text "\x1c")]

/-- Sets the tables that a program starts with. -/
def startTables (called : String) (operands : List String) : Working Unit := do
  let environment ← outer (do return (← get).environment)
  let fill (name : String) (entries : List (String × String)) : Working Unit := do
    changeTable (← tableOf name) fun _ => entries.foldl (fun t (key, s) => t.insert key (.input s)) {}
  fill "ENVIRON" environment
  fill "ARGV" ((called :: operands).zipIdx.map fun (a, i) => (toString i, a))
  setGlobal "ARGC" (.ofNat (operands.length + 1))

def run (called : String) (p : Program) (assignments : List (String × Value)) (operands : List String) :
    Running Nat := do
  let whole : Working Unit := do
    startTables called operands
    for (name, v) in assignments do
      setVariable name v
    runProgram start p
  let finished : Working Unit := do
    endSinks start
    flush
  let machine : Machine := { program := p, globals := .ofList startVariables }
  let (result, machine) ← whole.run.run machine
  let status ← match result with
    | .error (.fault reason) => do
      Tool.complain called reason
      pure 2
    | _ => pure machine.status
  discard <| finished.run.run machine
  return status

end

end Awk

end Script

end Recompile

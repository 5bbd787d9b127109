import Recompile.Host
import Recompile.Script.Ending
import Recompile.Script.Reading

/-!
# The shell

A running script has parameters, functions, arguments and options of its own. It reads and writes through
numbered descriptors, each of which stands for a channel: a file with a position in it, bytes in memory, or
nothing. Files, channels and the number of steps that are left are shared with the shells that it starts within
itself; everything else a shell within has a copy of.
-/

namespace Recompile

namespace Script

/-! ### State -/

/-- Where the bytes of a channel go to and come from. -/
inductive Endpoint
  | nothing
  | memory
  | file (loc : Location)
deriving DecidableEq, Repr

/-- **A channel.** -/
structure Channel where
  endpoint : Endpoint
  /-- The bytes of a channel in memory. -/
  data : ByteArray := .empty
  /-- Where reading and writing goes on. -/
  offset : Nat := 0
  /-- Whether writing always goes on at the end. -/
  append : Bool := false

/-- **A parameter that has a name.** -/
structure Binding where
  value : Option String
  exported : Bool := false
  readOnly : Bool := false
deriving Repr

/-- **A running shell.** -/
structure Shell where
  host : Host
  channels : Array Channel
  /-- The number of steps that are left. -/
  budget : Nat
  /-- What the script calls itself. -/
  name : String
  args : List String
  /-- The channel of each descriptor that is open. -/
  descriptors : List (Nat × Nat)
  cwd : Location
  /-- The working directory as it was named. -/
  cwdName : String
  bindings : SortedMap String Binding := ∅
  functions : SortedMap String Command := ∅
  /-- The texts that stand for commands. -/
  aliases : List (String × String) := []
  documents : Array Word := #[]
  flags : List Char := []
  /-- The status of the last command. -/
  status : Nat := 0
  /-- The status of the last commands within a word of the current command. -/
  wordStatus : Nat := 0
  /-- The line of the current command. -/
  line : Nat := 1
  /-- The command that complaints name, if it belongs to the shell. -/
  speaker : Option String := none
  /-- What is to be done at signals; zero stands for the end. -/
  traps : List (Nat × String) := []
  /-- The signals that came and wait for what is to be done. -/
  waiting : List Nat := []
  loops : Nat := 0
  /-- For each function that runs, the parameters that it has for itself, as they were before. -/
  frames : List (List (String × Option Binding)) := []
  /-- How commands in the background ended, the last one first. -/
  jobs : List (Nat × Nat) := []
  /-- The number by which the script knows itself, and that of what started it. -/
  number : Nat := 4242
  parent : Nat := 4241
  /-- The number of the argument that `getopts` looks at next. -/
  optionIndex : Nat := 1
  /-- How many characters of the argument before that `getopts` has seen, if it is a group of options. -/
  optionOffset : Option Nat := none
  /-- The permissions that new files do not get. -/
  mask : Nat := 18
  /-- How many shells of the script this one is within. -/
  depth : Nat := 0
  /-- The signals that were sent from within, each with the number of what it was sent to. -/
  sent : List (Nat × Nat) := []
  /-- The status before the trap that runs. -/
  statusBefore : Option Nat := none
  /-- Whether something could not be printed. -/
  lost : Bool := false
  /-- The programs whose places are known. -/
  known : List String := []
  /-- The line up to which the script was read. -/
  readTo : Nat := 1

/-- **Why a shell does not go on** with the next command. -/
inductive Jump
  /-- So many loops are left. -/
  | leaveLoops (count : Nat)
  /-- All but one of so many loops are left, and that one goes on. -/
  | nextRound (count : Nat)
  | leaveFunction
  | exit
  /-- A mistake that a shell does not survive. -/
  | fault
  | killed (signal : Nat)
deriving DecidableEq, Repr

/-- A step of a shell. Its state is changed also if it does not go on. -/
abbrev Running := ExceptT Jump (StateM Shell)

/-- The blanks at which words are split if nothing else is said. -/
def standardSeparators : String := " \t\n"

/-- The directories in which programs are looked for. -/
def standardPath : String := "/usr/local/sbin:/usr/local/bin:/usr/sbin:/usr/bin:/sbin:/bin"

namespace Shell

/-! ### Parameters -/

def get? (s : Shell) (name : String) : Option String := (s.bindings.get? name).bind Binding.value

/-- A shell with the parameters that each one has from its start. -/
def ready (s : Shell) : Shell :=
  let own : List (String × String) :=
    [("IFS", standardSeparators), ("OPTIND", "1"), ("PATH", standardPath), ("PPID", toString s.parent),
      ("PS1", "# "), ("PS2", "> "), ("PS4", "+ ")]
  let bindings := own.foldl (fun bindings (name, value) =>
    if (bindings.get? name).isSome then bindings else bindings.insert name ⟨some value, false, false⟩) s.bindings
  { s with bindings := bindings.insert "PWD" ⟨some s.cwdName, true, false⟩ }

/-- The letters of the options that are on. -/
def optionsOn (s : Shell) : String := String.ofList ("ubaCEVvxsnmiIfe".toList.filter s.flags.contains)

/-- Whether an option is on. -/
def has (s : Shell) (flag : Char) : Bool := s.flags.contains flag

/-- The characters at which words are split. -/
def separators (s : Shell) : List Char :=
  match s.bindings.get? "IFS" with
  | some b => (b.value.getD standardSeparators).toList
  | none => standardSeparators.toList

/-- What goes between arguments that are joined. -/
def joint (s : Shell) : String :=
  match s.separators with
  | c :: _ => c.toString
  | [] => ""

/-- The parameters that programs get. -/
def environment (s : Shell) : List (String × String) :=
  s.bindings.entries.filterMap fun (name, b) => if b.exported then b.value.map (name, ·) else none

/-- The path that a text names. -/
def path (s : String) : Path := ⟨plain s⟩

end Shell

/-! ### Files -/

def causeText (fault : Fault) : String := (fault.text.splitOn " (os error").headD ""

/-- The file at a path, seen from the working directory. -/
def nodeAt? (s : Shell) (p : String) : Option Node := (s.host.files.lookup s.cwd (Shell.path p)).toOption

def changeFiles (operation : Files → Location → Except Fault Files) : Running (Except Fault Unit) := do
  let s ← get
  match operation s.host.files s.cwd with
  | .ok files => do
    set { s with host := { s.host with files } }
    return .ok ()
  | .error fault => return .error fault

/-! ### Channels -/

namespace Channel

def ofText (t : String) : Channel := { endpoint := .memory, data := ⟨(toBytes t).toArray⟩ }

/-- The bytes that are still to be read. -/
def rest (c : Channel) (files : Files) : Bytes :=
  match c.endpoint with
  | .nothing => []
  | .memory => c.data.data.toList.drop c.offset
  | .file loc =>
    match files.node? loc with
    | some (.file data _) => data.drop c.offset
    | _ => []

/-- The bytes up to the end of a line, and whether there is one; `fuel` bounds their number. -/
def lineFrom (data : ByteArray) : (fuel : Nat) → (offset : Nat) → (before : Bytes) → Bytes × Bool
  | 0, _, before => (before.reverse, false)
  | fuel + 1, offset, before =>
    if h : offset < data.size then
      if data[offset] == 10 then (before.reverse, true) else lineFrom data fuel (offset + 1) (data[offset] :: before)
    else (before.reverse, false)

/-- The next line that is to be read, without its end, and whether it has one. -/
def nextLine (c : Channel) (files : Files) : Bytes × Bool :=
  match c.endpoint with
  | .memory => lineFrom c.data (c.data.size + 1 - c.offset) c.offset []
  | _ =>
    let (line, rest) := (c.rest files).span (· != 10)
    (line, !rest.isEmpty)

def write (c : Channel) (files : Files) (b : Bytes) : Channel × Files :=
  match c.endpoint with
  | .nothing => (c, files)
  | .memory => ({ c with data := b.foldl ByteArray.push c.data }, files)
  | .file loc =>
    match files.node? loc with
    | some (.file data executable) =>
      let start := if c.append then data.length else c.offset
      ({ c with offset := start + b.length }, files.put loc (.file (data.overlay start b) executable))
    | _ => (c, files)

end Channel

def channel? (s : Shell) (descriptor : Nat) : Option (Nat × Channel) := do
  let i ← s.descriptors.lookup descriptor
  return (i, ← s.channels[i]?)

/-- Writes bytes to a descriptor, and returns whether it is open. -/
def write (descriptor : Nat) (t : String) : Running Bool := do
  let s ← get
  match channel? s descriptor with
  | none => return false
  | some (i, c) => do
    let (c, files) := c.write s.host.files (toBytes t)
    set { s with channels := s.channels.setIfInBounds i c, host := { s.host with files } }
    return true

/-- Writes to the output, and notes if that is closed. -/
def print (t : String) : Running Unit := do
  if !(← write 1 t) && t != "" then modify fun s => { s with lost := true }

def printError (t : String) : Running Unit := discard <| write 2 t

/-- Takes all that is still to be read from a descriptor. -/
def readAll (descriptor : Nat) : Running String := do
  let s ← get
  match channel? s descriptor with
  | none => return ""
  | some (i, c) => do
    let rest := c.rest s.host.files
    set { s with channels := s.channels.setIfInBounds i { c with offset := c.offset + rest.length } }
    return ofBytes rest

/-- Takes a line from a descriptor, without its end, and returns whether it has one. -/
def readLine (descriptor : Nat) : Running (String × Bool) := do
  let s ← get
  match channel? s descriptor with
  | none => return ("", false)
  | some (i, c) => do
    let (line, ended) := c.nextLine s.host.files
    let offset := c.offset + line.length + (if ended then 1 else 0)
    set { s with channels := s.channels.setIfInBounds i { c with offset } }
    return (ofBytes line, ended)

def addChannel (c : Channel) : Running Nat := do
  let s ← get
  set { s with channels := s.channels.push c }
  return s.channels.size

def connect (descriptor channel : Nat) : Running Unit :=
  modify fun s => { s with descriptors := (descriptor, channel) :: s.descriptors.filter (·.1 != descriptor) }

def close (descriptor : Nat) : Running Unit :=
  modify fun s => { s with descriptors := s.descriptors.filter (·.1 != descriptor) }

/-- What a file is opened for. -/
inductive Access
  | read
  /-- To write it from its start. -/
  | overwrite
  /-- To write at its end. -/
  | append
  /-- To read it and write it from its start, without losing what is in it. -/
  | update
deriving DecidableEq, Repr

/-- The descriptor that a path of the system stands for. -/
def systemDescriptor? (p : String) : Option Nat :=
  match p with
  | "/dev/stdin" | "/dev/fd/0" => some 0
  | "/dev/stdout" | "/dev/fd/1" => some 1
  | "/dev/stderr" | "/dev/fd/2" => some 2
  | _ => none

/-- The path of the file with nothing in it. -/
def nullPath : String := "/dev/null"

/-- Opens a file, and returns the number of its channel. -/
def openFile (access : Access) (p : String) : Running (Except Fault Nat) := do
  if p = nullPath then return .ok (← addChannel { endpoint := .nothing })
  let s ← get
  match systemDescriptor? p with
  | some d =>
    match s.descriptors.lookup d with
    | some i => return .ok i
    | none => return .error (.ofKind .notFound)
  | none => do
    let target := Shell.path p
    let prepared : Except Fault Files :=
      match access with
      | .read => (s.host.files.lookup s.cwd target).map fun _ => s.host.files
      | .overwrite => s.host.files.write s.cwd target []
      | _ => s.host.files.write s.cwd target ((s.host.files.read s.cwd target).toOption.getD [])
    match prepared.bind fun files => (files.place s.cwd true target).map (files, ·) with
    | .error fault => return .error fault
    | .ok (files, place) => do
      set { s with host := { s.host with files } }
      return .ok (← addChannel { endpoint := .file place.loc, append := access == .append })

/-! ### Complaints -/

/-- Says what is wrong. -/
def complain (reason : String) : Running Unit := do
  let s ← get
  let speaker := match s.speaker with
    | some c => c ++ ": "
    | none => ""
  printError (s.name ++ ": " ++ toString s.line ++ ": " ++ speaker ++ reason ++ "\n")

/-- Sets the status of the last command. -/
def setStatus (status : Nat) : Running Unit := modify fun s => { s with status }

/-- Says what is wrong, and does not go on. -/
def fault {α : Type} (reason : String) : Running α := do
  complain reason
  setStatus 2
  throw .fault

def step : Running Unit := do
  let s ← get
  if s.budget = 0 then throw .exit
  set { s with budget := s.budget - 1 }

/-! ### Assignments -/

/-- Gives a parameter a value that nothing else depends on. -/
def assignOnly (name value : String) : Running Unit := do
  let s ← get
  let old := s.bindings.get? name
  if old.any Binding.readOnly then fault (name ++ ": is read only")
  let exported := old.any Binding.exported || s.has 'a'
  set { s with bindings := s.bindings.insert name ⟨some value, exported, false⟩ }

/-- The greatest number that an argument may be. -/
def maxNumber : Nat := 2147483647

/-- The number that a text is, with blanks around it. -/
def decimal? (t : String) : Option Nat :=
  let isBlank (c : Char) : Bool := c == ' ' || ('\t' ≤ c && c ≤ '\r')
  let cs := t.toList.dropWhile isBlank
  let (ds, rest) := (if cs.head? == some '+' then cs.tail else cs).span Char.isDigit
  if ds.isEmpty || !rest.all isBlank then none else (String.ofList ds).toNat?.filter (· ≤ maxNumber)

/-- Lets `getopts` start at an argument. -/
def startOptionsAt (index : Nat) (s : Shell) : Shell := { s with optionIndex := max 1 index, optionOffset := none }

/-- Gives a parameter a value. `OPTIND` has to be a number. -/
def assign (name value : String) : Running Unit := do
  assignOnly name value
  if name = "OPTIND" then
    match decimal? value with
    | some n => modify (startOptionsAt n)
    | none => fault ("Illegal number: " ++ value)

/-- Sets a parameter back to what it was. -/
def restoreBinding (name : String) (old : Option Binding) : Running Unit :=
  modify fun s => { s with
    bindings := match old with
      | some b => s.bindings.insert name b
      | none => s.bindings.erase name }

/-- Takes away a parameter. -/
def unset (name : String) : Running Unit := do
  let s ← get
  if (s.bindings.get? name).any Binding.readOnly then fault (name ++ ": is read only")
  set { s with bindings := s.bindings.erase name }
  if name = "OPTIND" then fault "Illegal number: "

/-- Changes a parameter that need not have a value. -/
def changeBinding (name : String) (f : Binding → Binding) : Running Unit :=
  modify fun s => { s with bindings := s.bindings.insert name (f ((s.bindings.get? name).getD { value := none })) }

/-! ### Shells within -/

def Shell.within (s : Shell) : Shell :=
  { s with traps := s.traps.filter (·.2 == ""), waiting := [], depth := s.depth + 1, statusBefore := none }

/-- What a shell hands on to a program that it starts under a name. -/
def Shell.forProgram (name : String) (s : Shell) : Shell :=
  { host := s.host, channels := s.channels, budget := s.budget, name, args := [], line := 0
    descriptors := s.descriptors, cwd := s.cwd, cwdName := s.cwdName, documents := s.documents
    bindings := (s.bindings.filter fun _ b => b.exported && b.value.isSome).map fun b => { b with readOnly := false }
    traps := s.traps.filter (·.2 == ""), number := s.number + 1, parent := s.number, sent := s.sent, mask := s.mask }

/-- Runs a step in a shell of its own, and returns how it ended; what shells share is handed back. -/
def apart (start : Shell → Shell) (body : Running Unit) : Running Ending := do
  let outer ← get
  let (result, s) := body.run.run (start outer)
  set { outer with
    host := s.host, channels := s.channels, budget := s.budget, documents := s.documents, sent := s.sent }
  return match result with
    | .error (.killed signal) => .killed signal
    | _ => .exited (s.status % 256)

/-- Runs a step, then another one in any case. -/
def andThen {α : Type} (body : Running α) (after : Running Unit) : Running α := do
  let result ← try pure (Except.ok (← body)) catch jump => pure (Except.error jump)
  after
  match result with
  | .ok a => return a
  | .error jump => throw jump

def receive (signal : Nat) : Running Unit := do
  if signal = 0 then return
  let s ← get
  match if signal = 9 then none else s.traps.lookup signal with
  | some "" => return
  | some _ => set { s with waiting := s.waiting ++ [signal] }
  | none =>
    if harmlessSignals.contains signal || (19 ≤ signal && signal ≤ 22) then return
    throw (.killed signal)

/-- A signal is sent. A shell within gets none itself; it is the outermost one that all of them are known by. -/
def send (number signal : Nat) : Running Unit := do
  let s ← get
  if s.depth = 0 ∧ number = s.number then receive signal
  else if 0 < signal then set { s with sent := s.sent ++ [(number, signal)] }

/-- The signals arrive that were sent to the shell from within. -/
def collect : Running Unit := do
  let s ← get
  if s.depth = 0 then
    let (mine, others) := s.sent.partition (·.1 == s.number)
    set { s with sent := others }
    for (_, signal) in mine do
      receive signal

end Script

end Recompile

import Recompile.Script.Builtin
import Recompile.Script.Tool.Starting

/-!
# Running scripts

The commands of a script run one after another on the state of a shell. A command that leaves loops, a function
or the shell jumps; what it jumps out of catches it or takes back what it has changed for the time it ran. Shells
within, such as those of a pipeline or of a word, run to their end before anything else goes on, and so do the
programs that are started. What `tested` says is that the status of a command is looked at by another one, so that
its failure is none of the script.

`Script.execute` starts the program at a path. `fuel` bounds how often commands call one another, and so does the
number of steps that a shell has left.
-/

namespace Recompile

namespace Script

/-! ### What commands are -/

/-- The commands of the shell that need other commands to be run. -/
def runningNames : List String := [".", "command", "eval", "exec", "type"]

/-- Whether a command belongs to the shell. -/
def isBuiltin (name : String) : Bool := runningNames.contains name || Builtin.all.any (·.1 == name)

/-- **What a name is known as.** -/
def meaning? (s : Shell) (name : String) : Option Meaning :=
  if Reader.keywords.contains name then some .keyword
  else if let some text := s.aliases.lookup name then some (.shorthand text)
  else if Reader.specialNames.contains name then some .special
  else if (s.functions.get? name).isSome then some .function
  else if isBuiltin name then some .builtin
  else
    ((programPath? s name).filter fun p =>
      !name.toList.contains '/' || (nodeAt? s p).isSome || (Process.systemProgram? p).isSome).map .program

/-- What a name is known as, in words. `known` says whether its program was looked for before. -/
def Meaning.describe (name : String) (known : Bool) : Meaning → String
  | keyword => name ++ " is a shell keyword"
  | shorthand text => name ++ " is an alias for " ++ text
  | special => name ++ " is a special shell builtin"
  | function => name ++ " is a shell function"
  | builtin => name ++ " is a shell builtin"
  | program path => name ++ " is " ++ (if known then "a tracked alias for " else "") ++ path

/-- How a name can be used for a command. -/
def Meaning.short (name : String) : Meaning → String
  | program path => path
  | shorthand text => "alias " ++ name ++ "=" ++ Builtin.quotedValue text
  | _ => name

/-- Notes that the place of a program is known. -/
def remember (name : String) : Running Unit :=
  modify fun s => if name.toList.contains '/' || s.known.contains name then s else { s with known := name :: s.known }

def tellMeanings (show? : Shell → String → Meaning → String) (names : List String) (missing : String → String) :
    Running Unit := do
  setStatus 0
  for name in names do
    let s ← get
    match meaning? s name with
    | some m => do
      print (show? s name m ++ "\n")
      if let .program _ := m then remember name
    | none => do
      print (missing name)
      setStatus 127

/-- The words of a command without `command` at the front, and whether it was there. -/
def withoutCommand : List String → Bool × List String
  | "command" :: rest =>
    match rest with
    | "-p" :: rest => withoutCommand ("command" :: rest)
    | [] | ["--"] => (false, ["command"])
    | "--" :: a :: rest => (true, (withoutCommand (a :: rest)).2)
    | a :: rest =>
      -- an option that asks something about the name: the command is itself meant
      if a.length ≠ 1 ∧ a.toList.head? = some '-' then (false, "command" :: a :: rest)
      else (true, (withoutCommand (a :: rest)).2)
  | args => (false, args)
termination_by args => args.length

/-! ### Endings -/

/-- Mentions the end of a command by a signal. -/
def mention : Ending → Running Unit
  | .exited _ => return
  | .killed signal => do
    if !quietSignals.contains signal then printError (signalText signal ++ "\n")

/-- How a command ended becomes the status. -/
def conclude (e : Ending) : Running Unit := do
  mention e
  setStatus e.status
  collect

/-- Why a program does not start, and the status for it. -/
def startFault (fault : Fault) : String × Nat :=
  match fault.kind with
  | .notFound | .notADirectory => ("not found", 127)
  | .filesystemLoop | .invalidFilename => (causeText fault, 127)
  | _ => (causeText fault, 126)

/-- Says why a program does not start. -/
def refuse (name : String) (fault : Fault) : Running Unit := do
  let (cause, status) := startFault fault
  complain (name ++ ": " ++ cause)
  setStatus status

/-- Catches the jumps that concern a loop: whether the loop is left, if there was one. -/
def inLoop (body : Running Unit) : Running (Option Bool) := do
  try
    body
    return none
  catch
    | .leaveLoops n => if n ≤ 1 then return some true else throw (.leaveLoops (n - 1))
    | .nextRound n => if n ≤ 1 then return some false else throw (.nextRound (n - 1))
    | jump => throw jump

/-- Catches the jump out of a function. -/
def inFunction (body : Running Unit) : Running Unit := do
  try
    body
  catch
    | .leaveFunction => pure ()
    | jump => throw jump

/-- Survives a mistake, whose status stays. -/
def surviving (body : Running Unit) : Running Unit := do
  try
    body
  catch
    | .fault => pure ()
    | jump => throw jump

/-- Runs a step with parameters that are set back afterwards, unless the shell ends. -/
def withBindings (restore : Running Unit) (body : Running Unit) : Running Unit := do
  try
    body
  catch jump => do
    match jump with
    | .exit | .fault | .killed _ => throw jump
    | _ => do
      restore
      throw jump
  restore

/-! ### Words -/

/-- How deep words may stand within words. -/
def maxDepth : Nat := 100000

section

variable (capture : List Command → Running String)

/-- The commands whose arguments may be assignments. -/
def declaring : List String := ["export", "readonly", "local"]

/-- Expands the words of a command, after those that are expanded already. An assignment that the command makes
is not split. -/
def expandArguments (expanded : List String) : List Word → Running (List String)
  | [] => return expanded
  | w :: rest => do
    let declares := declaring.contains ((withoutCommand expanded).2.headD "")
    match if declares then Reader.assignment? w else none with
    | some (name, value) => do
      let value ← expandAssigned capture maxDepth value
      expandArguments (expanded ++ [name ++ "=" ++ value]) rest
    | none => do
      let fs ← expandWord capture maxDepth w
      expandArguments (expanded ++ fs) rest

/-! ### Redirections -/

/-- **A change of a descriptor:** a redirection with its words expanded. -/
inductive Change
  /-- A file is opened. With `fresh` there must be none so far. -/
  | file (descriptor : Nat) (access : Access) (fresh : Bool) (path : String)
  | same (descriptor : Nat) (source : Option Nat)
  | document (descriptor : Nat) (body : Word)

def Change.descriptor : Change → Nat
  | file d .. => d
  | same d _ => d
  | document d _ => d

def expandRedirection : Redirection → Running Change
  | .input d w => return .file d .read false (← expandFlat capture maxDepth w)
  | .output d force w => do
    let path ← expandFlat capture maxDepth w
    return .file d .overwrite (!force && (← get).has 'C') path
  | .append d w => return .file d .append false (← expandFlat capture maxDepth w)
  | .update d w => return .file d .update false (← expandFlat capture maxDepth w)
  | .duplicate d w => do
    match (← expandFlat capture maxDepth w).toList with
    | ['-'] => return .same d none
    | [c] =>
      if c.isDigit then return .same d (some (c.toNat - '0'.toNat))
    | _ => pure ()
    modify fun s => { s with line := s.readTo }
    fault "Syntax error: Bad fd number"
  | .document d n => return .document d ((← get).documents[n]?.getD [])

/-- What is wrong when a file is opened. -/
def openFault (access : Access) (path : String) (fault : Fault) : String :=
  let isMissing := fault.kind = .notFound ∨ fault.kind = .notADirectory
  if access = .read then
    "cannot open " ++ path ++ ": " ++ if isMissing then "No such file" else causeText fault
  else "cannot create " ++ path ++ ": " ++ if isMissing then "Directory nonexistent" else causeText fault

/-- Makes a change, or says what is wrong. -/
def Change.make (c : Change) : Running (Except String Unit) := do
  let s ← get
  match c with
  | file d access fresh path =>
    if fresh && s.host.files.isFile s.cwd (Shell.path path) then
      return .error (openFault access path (.ofKind .alreadyExists))
    match ← openFile access path with
    | .ok channel => do
      connect d channel
      return .ok ()
    | .error fault => return .error (openFault access path fault)
  | same d none => do
    close d
    return .ok ()
  | same d (some source) =>
    match s.descriptors.lookup source with
    | some channel => do
      connect d channel
      return .ok ()
    | none => return .error (toString source ++ ": Bad file descriptor")
  | document d body => do
    connect d (← addChannel (.ofText (← expandText capture maxDepth body)))
    return .ok ()

/-- Makes changes one after another, and returns whether all could be made. -/
def makeAll : List Change → Running Bool
  | [] => return true
  | c :: rest => do
    let made ← try c.make capture catch
      | .fault => return false
      | jump => throw jump
    match made with
    | .ok _ => makeAll rest
    | .error reason => do
      complain reason
      return false

/-- Sets descriptors back to what they were. -/
def restoreDescriptors : List (Nat × Option Nat) → Running Unit
  | [] => return
  | (d, some channel) :: rest => do
    connect d channel
    restoreDescriptors rest
  | (d, none) :: rest => do
    close d
    restoreDescriptors rest

def descriptorsBefore (s : Shell) (changes : List Change) : List (Nat × Option Nat) :=
  changes.map fun c => (c.descriptor, s.descriptors.lookup c.descriptor)

/-- Runs a step on other descriptors if these can be had, and returns whether they can. -/
def redirecting (rs : List Redirection) (body : Running Unit) : Running Bool := do
  let changes ← rs.mapM (expandRedirection capture)
  let before := descriptorsBefore (← get) changes
  andThen (do
    if ← makeAll capture changes then
      body
      return true
    else return false) (restoreDescriptors before)

/-! ### Assignments -/

/-- **An assignment that was made:** the value, and the parameter as it was before. -/
structure Assigned where
  name : String
  value : String
  old : Option Binding

def assignAll (exported : Bool) : List (String × Word) → Running (List Assigned)
  | [] => return []
  | (name, w) :: rest => do
    let value ← expandAssigned capture maxDepth w
    let old := (← get).bindings.get? name
    assign name value
    if exported then changeBinding name fun b => { b with exported := true }
    return ⟨name, value, old⟩ :: (← assignAll exported rest)

/-! ### Traces -/

/-- A text as a word in which parameters are put in for. -/
def wordOf (t : String) : Word :=
  match (Reader.parts (20 * t.length + 40) .document).run { rest := t.toList } with
  | .ok (w, _) => w
  | .error _ => [.text t true]

/-- Shows a command before it runs, on the given error channel. -/
def trace (channel : Option Nat) (assigned : List Assigned) (args : List String) : Running Unit := do
  let s ← get
  if s.has 'x' then
    set { s with flags := s.flags.filter (· != 'x') }
    let mark ← expandText capture maxDepth (wordOf ((s.get? "PS4").getD ""))
    let current := (← get).descriptors.lookup 2
    restoreDescriptors [(2, channel)]
    printError (mark ++ " ".intercalate (assigned.map (fun a => a.name ++ "=" ++ a.value) ++ args) ++ "\n")
    restoreDescriptors [(2, current)]
    modify fun t => { t with flags := s.flags }

/-! ### Arms -/

def fitsOneOf (text : String) : List Word → Running Bool
  | [] => return false
  | w :: rest => do
    if fits (← expandPattern capture maxDepth w) text.toList then return true else fitsOneOf text rest

def arm (text : String) : List (List Word × List Command) → Running (List Command)
  | [] => return []
  | (patterns, body) :: rest => do
    if ← fitsOneOf capture text patterns then return body else arm text rest

end

/-! ### Commands -/

/-- Runs a command of the shell under its name. What could not be printed is complained about. -/
def speaking (name : String) (body : Running Unit) : Running Unit := do
  let s ← get
  set { s with speaker := some name, lost := false }
  andThen (do
    body
    if (← get).lost then
      complain (name ++ ": I/O error")
      setStatus 1) (modify fun t => { t with speaker := s.speaker, lost := s.lost })

/-- Ends the shell after a failure, if that is asked for. -/
def insist (tested : Bool) : Running Unit := do
  let s ← get
  -- a failure that somebody looks at is none
  if s.has 'e' && !tested && s.status != 0 then throw .exit

/-- The options of a shell at its start: whether its commands are an argument, whether they are its input, and
the other arguments. -/
def shellOptions : (fuel : Nat) → (fromArgument fromInput : Bool) → List String →
    Running (Bool × Bool × List String)
  | 0, a, i, args => return (a, i, args)
  | _ + 1, a, i, [] => return (a, i, [])
  | fuel + 1, a, i, arg :: rest => do
    if arg = "-" ∨ arg = "--" then return (a, i, rest)
    match arg.toList with
    | sign :: cs =>
      if sign == '-' || sign == '+' then
        let a := a || cs.contains 'c'
        let i := i || cs.contains 's'
        if ← Builtin.switchLetters (sign == '-') (cs.filter fun c => c != 'c' && c != 'l') then
          match rest with
          | name :: rest => do
            Builtin.switchNamed (sign == '-') name
            shellOptions fuel a i rest
          | [] => return (a, i, [])
        else shellOptions fuel a i rest
      else return (a, i, arg :: rest)
    | [] => return (a, i, arg :: rest)

/-- The path of a file with commands that is to be read. -/
def sourcePath? (s : Shell) (name : String) : Option String :=
  if name.toList.contains '/' then some name
  else
    let directories := (((s.get? "PATH").getD "").toList.splitOn ':').map String.ofList
    (directories.map fun d => if d = "" then name else d ++ "/" ++ name).find? fun p =>
      s.host.files.isFile s.cwd (Shell.path p)

/-- The commands in a file. A directory has none. -/
def sourceText (p : String) : Running String := do
  let s ← get
  match s.host.files.read s.cwd (Shell.path p) with
  | .ok data => return ofBytes (data.filter (· != 0))
  | .error cause =>
    if p = nullPath ∨ cause.kind = .isADirectory then return "" else fault (openFault .read p cause)

/-- How deep functions may call one another. -/
def maxFunctionDepth : Nat := 1000

/-- The number of a job in the background, after so many others. -/
def jobNumber (s : Shell) : Nat := s.number + 1000 + s.jobs.length

mutual

def runAll : (fuel : Nat) → (tested : Bool) → List Command → Running Unit
  | 0, _, _ => throw .exit
  | _ + 1, _, [] => return
  | fuel + 1, tested, c :: rest => do
    run fuel tested c
    runAll fuel tested rest

def run : (fuel : Nat) → (tested : Bool) → Command → Running Unit
  | 0, _, _ => throw .exit
  | fuel + 1, tested, c => do
    step
    runTraps fuel
    -- commands are read and not run
    if (← get).has 'n' then return
    match c with
    | .simple line assignments words redirections => do
      simple fuel tested line assignments words redirections
      insist tested
    | .pipeline commands => do
      pipeline fuel tested none commands
      insist tested
    | .negation command => do
      run fuel true command
      -- the status is turned around, and a failure of this kind never ends the shell
      modify fun s => { s with status := if s.status = 0 then 1 else 0 }
    | .both first second => do
      run fuel true first
      if (← get).status = 0 then run fuel tested second
    | .either first second => do
      run fuel true first
      if (← get).status ≠ 0 then run fuel tested second
    | .background command => background fuel command
    | .choice condition yes no => do
      runAll fuel true condition
      if (← get).status = 0 then runAll fuel tested yes
      else
        -- without a branch to run the choice succeeds, whatever the condition left
        if no.isEmpty then setStatus 0
        runAll fuel tested no
    | .select line subject arms => do
      modify fun s => { s with line }
      let text ← expandFlat (capture fuel) maxDepth subject
      let body ← arm (capture fuel) text arms
      if body.isEmpty then setStatus 0
      runAll fuel tested body
    | .loop untilTrue condition body => do
      modify fun s => { s with loops := s.loops + 1 }
      andThen (loop fuel tested untilTrue condition body 0) (modify fun s => { s with loops := s.loops - 1 })
    | .each line name items body => do
      modify fun s => { s with line }
      let values ← match items with
        | some words => expandWords (capture fuel) maxDepth words
        | none => pure (← get).args
      if values.isEmpty then setStatus 0
      modify fun s => { s with loops := s.loops + 1 }
      andThen (each fuel tested name values body) (modify fun s => { s with loops := s.loops - 1 })
    | .group body => runAll fuel tested body
    | .subshell line body => do
      modify fun s => { s with line }
      conclude (← apart Shell.within (toEnd fuel (runAll fuel tested body)))
      insist tested
    -- the body is kept as it was read
    | .define _ name body => do
      modify fun s => { s with functions := s.functions.insert name body, status := 0 }
    | .redirected line command redirections => do
      modify fun s => { s with line }
      if !(← redirecting (capture fuel) redirections (run fuel tested command)) then
        setStatus 2
        insist tested
    runTraps fuel

/-- Does what is to be done at the signals that came. -/
def runTraps : (fuel : Nat) → Running Unit
  | 0 => throw .exit
  | fuel + 1 => do
    let s ← get
    if !s.waiting.isEmpty then
      -- taken off before the actions run, so that none of them is done twice
      set { s with waiting := [], statusBefore := some s.status }
      andThen (do
        for signal in s.waiting.eraseDups.mergeSort do
          match (← get).traps.lookup signal with
          | some action => do
            runText fuel false false action
            setStatus s.status
          | none => pure ()) (modify fun t => { t with statusBefore := s.statusBefore })

/-- Runs the commands in a text. The lines of a file are `shown` as they are read, if that is asked for. -/
def runText : (fuel : Nat) → (tested shown : Bool) → String → Running Unit
  | 0, _, _, _ => throw .exit
  | fuel + 1, tested, shown, text => do
    let s ← get
    andThen (runLines fuel tested shown false (.ofText text)) (modify fun t => { t with readTo := s.readTo })

/-- Reads lines of commands and runs each of them before the next one is read. Without any command the status
is that of success. -/
def runLines : (fuel : Nat) → (tested shown ran : Bool) → Input → Running Unit
  | 0, _, _, _, _ => throw .exit
  | fuel + 1, tested, shown, ran, input => do
    let s ← get
    let echoed (rest : List Char) : Running Unit :=
      if shown && s.has 'v' then printError (String.ofList (input.rest.take (input.rest.length - rest.length)))
      else pure ()
    match input.nextLine s.aliases s.documents with
    | .error e => do
      echoed (input.linesAfter (e.line + 1 - input.line))
      modify fun s => { s with line := e.line }
      fault ("Syntax error: " ++ e.reason)
    | .ok (commands?, next) => do
      echoed next.rest
      modify fun s => { s with documents := next.documents, readTo := next.line }
      match commands? with
      | none => if !ran then setStatus 0
      | some commands => do
        runAll fuel tested commands
        runLines fuel tested shown (ran || !commands.isEmpty) next

/-- Runs a step up to the end of the shell, and what is to be done then. -/
def toEnd : (fuel : Nat) → Running Unit → Running Unit
  | 0, _ => throw .exit
  | fuel + 1, body => do
    try
      body
    catch
      | .killed signal => throw (.killed signal)
      | _ => pure ()
    let s ← get
    match s.traps.lookup 0 with
    | none | some "" => return
    | some action => do
      set { s with traps := s.traps.filter (·.1 != 0), statusBefore := some s.status, loops := 0, speaker := none }
      try
        runText fuel false false action
        setStatus s.status
      catch
        | .killed signal => throw (.killed signal)
        | .exit | .fault => pure ()
        | _ => setStatus s.status

/-- Runs commands for what they print. -/
def capture : (fuel : Nat) → List Command → Running String
  | 0, _ => throw .exit
  | fuel + 1, body => do
    if body.isEmpty then return ""
    let channel ← addChannel { endpoint := .memory }
    let ending ← apart Shell.within (do
      connect 1 channel
      toEnd fuel (runAll fuel false body))
    let status := (← get).status
    conclude ending
    modify fun s => { s with status, wordStatus := ending.status }
    let data := ((← get).channels[channel]?.map Channel.data).getD .empty
    let cs := (data.data.toList.filter (· != 0)).reverse.dropWhile (· == 10)
    return ofBytes cs.reverse

/-- Runs a pipeline, each command on the output of the one before. -/
def pipeline : (fuel : Nat) → (tested : Bool) → (input : Option Nat) → List Command → Running Unit
  | 0, _, _, _ => throw .exit
  | _ + 1, _, _, [] => return
  | fuel + 1, tested, input, c :: rest => do
    let output ← if rest.isEmpty then pure none else some <$> addChannel { endpoint := .memory }
    let ending ← apart Shell.within (do
      if let some channel := input then connect 0 channel
      if let some channel := output then connect 1 channel
      toEnd fuel (run fuel tested c))
    if rest.isEmpty then conclude ending
    else
      mention ending
      pipeline fuel tested output rest

/-- Runs a command in the background. It is over before anything else happens. -/
def background : (fuel : Nat) → Command → Running Unit
  | 0, _ => throw .exit
  | fuel + 1, c => do
    let channel ← addChannel { endpoint := .nothing }
    let ending ← apart Shell.within (do
      connect 0 channel
      toEnd fuel (run fuel false c))
    modify fun s => { s with jobs := (jobNumber s, ending.status) :: s.jobs, status := 0 }
    collect

/-- Runs a loop; `last` is the status of its last round. -/
def loop : (fuel : Nat) → (tested untilTrue : Bool) → (condition body : List Command) → (last : Nat) → Running Unit
  | 0, _, _, _, _, _ => throw .exit
  | fuel + 1, tested, untilTrue, condition, body, last => do
    step
    match ← inLoop (runAll fuel true condition) with
    | some true => setStatus last
    | some false => loop fuel tested untilTrue condition body last
    | none =>
      if ((← get).status == 0) == untilTrue then setStatus last
      else
        match ← inLoop (runAll fuel tested body) with
        | some true => pure ()
        | _ => loop fuel tested untilTrue condition body (← get).status

/-- Runs a loop for each of some values. -/
def each : (fuel : Nat) → (tested : Bool) → (name : String) → (values : List String) → (body : List Command) →
    Running Unit
  | 0, _, _, _, _ => throw .exit
  | _ + 1, _, _, [], _ => return
  | fuel + 1, tested, name, value :: rest, body => do
    step
    assign name value
    match ← inLoop (runAll fuel tested body) with
    | some true => pure ()
    | _ => each fuel tested name rest body

/-- Runs a simple command. Its assignments last if it is no command at all or one that belongs to the shell in a
special way; otherwise they are for the command only. -/
def simple : (fuel : Nat) → (tested : Bool) → (line : Nat) → List (String × Word) → List Word → List Redirection →
    Running Unit
  | 0, _, _, _, _, _ => throw .exit
  | fuel + 1, tested, line, assignments, words, redirections => do
    modify fun s => { s with line, wordStatus := 0 }
    let written ← expandArguments (capture fuel) [] words
    let s ← get
    let (bare, args) :=
      if (s.functions.get? "command").isSome then (false, written) else withoutCommand written
    let isSpecial := !bare && Reader.specialNames.contains (args.headD "")
    let changes ← redirections.mapM (expandRedirection (capture fuel))
    let before := descriptorsBefore (← get) changes
    let errors := (← get).descriptors.lookup 2
    andThen (do
      if !(← makeAll (capture fuel) changes) then
        setStatus 2
        if isSpecial then throw .fault
      else
        let lasting := args.isEmpty || isSpecial
        let assigned ← assignAll (capture fuel) (!lasting || (args.headD "" == "exec" && args.length ≠ 1)) assignments
        trace (capture fuel) errors assigned written
        let old := assigned.reverse.map fun a => (a.name, a.old)
        match args with
        | [] => modify fun s => { s with status := s.wordStatus }
        | name :: rest =>
          if lasting then speaking name (builtin fuel tested name rest)
          else
            match if bare then none else s.functions.get? name with
            | some body => call fuel tested old body rest
            | none =>
              withBindings (old.forM fun (name, b) => restoreBinding name b) (do
                if isBuiltin name then surviving (speaking name (builtin fuel tested name rest))
                else program fuel name rest))
      (if args == ["exec"] then pure () else restoreDescriptors before)

/-- Calls a function. The parameters that it has for itself are set back afterwards. -/
def call : (fuel : Nat) → (tested : Bool) → (own : List (String × Option Binding)) → (body : Command) →
    List String → Running Unit
  | 0, _, _, _, _ => throw .exit
  | fuel + 1, tested, own, body, args => do
    let s ← get
    if maxFunctionDepth ≤ s.frames.length then
      fault ("Maximum function recursion depth (" ++ toString maxFunctionDepth ++ ") reached")
    set { s with args, loops := 0, optionIndex := 1, optionOffset := none, frames := own :: s.frames }
    withBindings (do
        let frame := (← get).frames.headD []
        modify fun t => { t with frames := s.frames }
        for (name, b) in frame do
          restoreBinding name b)
      (andThen (inFunction (run fuel tested body))
        (modify fun t => { t with
          args := s.args, loops := s.loops, optionIndex := s.optionIndex, optionOffset := s.optionOffset }))

/-- Runs a command of the shell. -/
def builtin : (fuel : Nat) → (tested : Bool) → (name : String) → List String → Running Unit
  | 0, _, _, _ => throw .exit
  | fuel + 1, tested, name, args => do
    match name with
    | "eval" => runText fuel tested false (" ".intercalate args)
    | "." => do
      let (_, operands) ← Builtin.options [] (args.length + 1) args
      match operands with
      | [] => setStatus 0
      | file :: _ =>
        match sourcePath? (← get) file with
        | none => fault (file ++ ": not found")
        | some path => do
          let text ← sourceText path
          modify fun s => { s with speaker := some path }
          inFunction (runText fuel false true text)
    | "exec" =>
      match args with
      | [] => setStatus 0
      | file :: args => do
        let s ← get
        match processOf s file args with
        | .error cause => do
          refuse file cause
          throw .exit
        | .ok p => do
          set { Shell.forProgram p.called s with number := s.number, parent := s.parent, depth := s.depth }
          become fuel p
          throw .exit
    | "type" => tellMeanings (fun s name m => m.describe name (s.known.contains name)) args (· ++ ": not found\n")
    | "command" =>
      match args with
      | "-v" :: name :: _ => tellMeanings (fun _ name m => m.short name) [name] fun _ => ""
      | "-V" :: name :: _ =>
        tellMeanings (fun s name m => m.describe name (s.known.contains name)) [name] (· ++ ": not found\n")
      | _ => setStatus 0
    | _ =>
      match Builtin.all.lookup name with
      | some action => action args
      | none => setStatus 127

def program : (fuel : Nat) → (name : String) → List String → Running Unit
  | 0, _, _ => throw .exit
  | fuel + 1, name, args => do
    match processOf (← get) name args with
    | .error cause => refuse name cause
    | .ok p => do
      remember name
      conclude (← apart (Shell.forProgram p.called) (become fuel p))

/-- Starts a program for a tool. -/
def start : (fuel : Nat) → List String → Running (Except Fault Ending)
  | 0, _ => throw .exit
  | _ + 1, [] => return .ok (.exited 0)
  | fuel + 1, name :: args => do
    match processOf (← get) name args with
    | .error cause => return .error cause
    | .ok p => return .ok (← apart (Shell.forProgram p.called) (become fuel p))

/-- Runs what a process runs. -/
def become : (fuel : Nat) → Process → Running Unit
  | 0, _ => throw .exit
  | fuel + 1, p => do
    if Process.shells.contains p.program then shell fuel p.called p.args
    else
      match (Tool.all ++ Tool.starting (start fuel)).lookup p.program with
      | none => setStatus 127
      | some action => do
        setStatus (← action p.args)
        if (← get).lost then
          Tool.complain p.program ((if p.program = "cat" then "standard output" else "write error")
            ++ ": Bad file descriptor")
          setStatus (if ["grep", "ls", "sort"].contains p.program then 2 else 1)

/-- Runs a shell with some arguments. -/
def shell : (fuel : Nat) → (called : String) → List String → Running Unit
  | 0, _, _ => throw .exit
  | fuel + 1, called, args => do
    modify Shell.ready
    toEnd fuel (do
      let (fromArgument, fromInput, operands) ← shellOptions (args.length + 1) false false args
      match fromArgument, operands with
      | true, [] => fault "-c requires an argument"
      | true, text :: rest => do
        modify fun s => { s with name := rest.headD called, args := rest.tail }
        runText fuel false false text
      | false, operands =>
        match if fromInput then [] else operands with
        | [] => do
          let text ← readAll 0
          modify fun s => { s with args := operands }
          runText fuel false true text
        | file :: rest => do
          let text ← sourceText file
          modify fun s => { s with name := file, args := rest }
          runText fuel false true text)

end

/-! ### Programs -/

/-- The number of steps after which a script is stopped. -/
def maxSteps : Nat := 20000000

/-- The state in which a process starts. -/
def Shell.atStart (h : Host) (called : String) : Shell :=
  let directory := raw ("/" ++ "/".intercalate h.cwd)
  let known : List (String × Option String) :=
    [("PATH", some standardPath), ("PWD", some directory), ("TMPDIR", some (raw h.temp.spelling)),
      ("HOME", h.home.map raw), ("JAVA_HOME", h.javaHome.map raw)]
  { host := h, budget := maxSteps, name := called, args := [], line := 0
    channels := #[{ endpoint := .nothing }, { endpoint := .memory }, { endpoint := .memory }]
    descriptors := [(0, 0), (1, 1), (2, 2)], cwd := h.cwd, cwdName := directory
    bindings := .ofList (known.filterMap fun (name, value) => value.map fun v => (name, ⟨some v, true, false⟩)) }

def Shell.written (s : Shell) (channel : Nat) : Bytes := ((s.channels[channel]?.map (·.data.data.toList))).getD []

/-- The failure of a program or of an argument with a zero byte in it. -/
def zeroByteGiven : Fault := ⟨.invalidInput, "nul byte found in provided data"⟩

/-- **Starts a program and waits until it is over.** -/
def execute (path : Path) (args : List String) : Action Host Fault Outcome := do
  let h ← get
  if (path.spelling :: args).any fun t => t.toList.contains '\x00' then throw zeroByteGiven
  if !path.spelling.toList.contains '/' then throw (.ofKind .notFound)
  match Process.ofFile (.atStart h "") (raw path.spelling) (args.map raw) with
  | .error fault => throw fault
  | .ok p => do
    let (result, s) := (become maxSteps p).run.run (.atStart h p.called)
    set { h with files := s.host.files }
    let ending := match result with
      | .error (.killed signal) => .killed signal
      | _ => .exited (s.status % 256)
    return ⟨ending, s.written 1, s.written 2⟩

end Script

end Recompile

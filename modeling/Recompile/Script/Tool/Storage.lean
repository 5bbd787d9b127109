import Recompile.Script.Tool.Files
import Recompile.Script.Tool.Text

/-!
# Tools for the contents of files

`dd` copies a part of a file, `truncate` changes how long it is, `install` copies a file with its permissions, and
`stat` tells what a file is. The tools that tell what the system is are here as well.
-/

namespace Recompile

namespace Script

namespace Tool

/-! ### Copying parts -/

/-- The number that a text with factors and units is. -/
def product? (s : String) : Option Nat :=
  let factor? (cs : List Char) : Option Nat :=
    match cs.reverse with
    | 'c' :: front => if front.isEmpty then none else sized? front.reverse
    | 'w' :: front => if front.isEmpty then none else (sized? front.reverse).map (2 * ·)
    | _ => sized? cs
  ((s.toList.splitOn 'x').mapM factor?).map fun ns => ns.foldl (· * ·) 1

/-- What is done to the bytes that are copied. -/
def converted (names : List String) (text : String) : String :=
  let text := if names.contains "ucase" then text.map Char.toUpper else text
  if names.contains "lcase" then text.map Char.toLower else text

/-- The operands of `dd` that have a name and a value. -/
def blockNames : List String :=
  ["if", "of", "bs", "ibs", "obs", "cbs", "count", "skip", "seek", "iseek", "oseek", "conv", "status", "iflag", "oflag"]

/-- Writes a text into a file from a place on. What was behind it goes unless that is to stay. -/
def overwriteAt (old : Bytes) (place : Nat) (stays : Bool) (text : Bytes) : Bytes :=
  let front := old.take place
  let front := front ++ List.replicate (place - front.length) 0
  front ++ text ++ if stays then old.drop (place + text.length) else []

/-- How many blocks of a size some bytes are: whole ones and broken ones. -/
def blockCount (size length : Nat) : String :=
  toString (length / size) ++ "+" ++ (if length % size = 0 then "0" else "1")

/-- Copies a part of a file. -/
def dd : Action := fun args => do
  let given := args.map fun a =>
    let (name, value) := a.toList.span (· != '=')
    (a, String.ofList name, String.ofList (value.drop 1))
  if let some (a, _, _) := given.find? fun (a, name, _) => !blockNames.contains name || !a.contains '=' then
    return ← misuse "dd" ("unrecognized operand " ++ shown a) 1
  let value? (name : String) : Option String := (given.reverse.find? fun e => e.2.1 == name).map (·.2.2)
  let numbers := ["bs", "ibs", "obs", "count", "skip", "seek", "iseek", "oseek"]
  let valueOf (name : String) : Option Nat := (value? name).bind product?
  if let some bad := (numbers.filterMap value?).find? fun v => (product? v).isNone then
    return ← failWith "dd" ("invalid number: " ++ shown bad) 1
  let size := max 1 ((valueOf "bs" <|> valueOf "ibs").getD 512)
  let target := max 1 ((valueOf "bs" <|> valueOf "obs").getD 512)
  let names := ((value? "conv").getD "").splitOn ","
  match ← operandText ((value? "if").getD "-") with
  | .error cause => failWith "dd" ("failed to open " ++ shown ((value? "if").getD "") ++ ": " ++ cause) 1
  | .ok text => do
    let cs := text.toList.drop (size * ((valueOf "skip" <|> valueOf "iseek").getD 0))
    let cs := match valueOf "count" with
      | some n => cs.take (size * n)
      | none => cs
    let out := converted names (String.ofList cs)
    let place := target * ((valueOf "seek" <|> valueOf "oseek").getD 0)
    let status ← match value? "of" with
      | none => do
        print out
        pure 0
      | some p =>
        if p = nullPath then pure 0
        else do
          let s ← get
          let old := (s.host.files.read s.cwd (Shell.path p)).toOption.getD []
          match ← changeFiles fun files cwd =>
            files.write cwd (Shell.path p) (overwriteAt old place (names.contains "notrunc") (toBytes out)) with
          | .ok _ => pure 0
          | .error fault => failWith "dd" ("failed to open " ++ shown p ++ ": " ++ causeText fault) 1
    if status = 0 ∧ value? "status" ≠ some "none" then
      printError (blockCount size cs.length ++ " records in\n" ++ blockCount target cs.length ++ " records out\n")
      if value? "status" ≠ some "noxfer" then
        printError (toString cs.length ++ " bytes copied, 0 s, 0 kB/s\n")
    return status

/-- Changes how long files are. -/
def truncate : Action :=
  withOptions "truncate"
    { flags := "co", valued := "sr", names := [("size", 's'), ("no-create", 'c'), ("reference", 'r')] } 1 fun g => do
    match g.value? 's' with
    | none => misuse "truncate" "you must specify either '--size' or '--reference'" 1
    | some size => do
      if g.operands.isEmpty then return ← misuse "truncate" "missing file operand" 1
      let (sign, digits) := match size.toList with
        | c :: cs => if "+-<>/%".toList.contains c then (some c, cs) else (none, c :: cs)
        | [] => (none, [])
      match sized? digits with
      | none => failWith "truncate" ("Invalid number: " ++ shown size) 1
      | some n =>
        forEach g.operands fun p => do
          let s ← get
          let old := s.host.files.read s.cwd (Shell.path p)
          if g.has 'c' && old.toOption.isNone then return 0
          let data := old.toOption.getD []
          let length := match sign with
            | some '+' => data.length + n
            | some '-' => data.length - n
            | some '<' => min data.length n
            | some '>' => max data.length n
            | some '/' => if n = 0 then data.length else data.length / n * n
            | some _ => if n = 0 then data.length else (data.length + n - 1) / n * n
            | none => n
          match ← changeFiles fun files cwd =>
            files.write cwd (Shell.path p) (data.take length ++ List.replicate (length - data.length) 0) with
          | .ok _ => return 0
          | .error fault =>
            failWith "truncate" ("cannot open " ++ shown p ++ " for writing: " ++ causeText fault) 1

/-! ### Names -/

/-- Removes a single file. -/
def unlink : Action := withOptions "unlink" {} 1 fun g => do
  match g.operands with
  | [] => missingOperand "unlink" 1
  | [p] =>
    match ← changeFiles fun files cwd => files.removeFile cwd (Shell.path p) with
    | .ok _ => return 0
    | .error fault => failWith "unlink" ("cannot unlink " ++ shown p ++ ": " ++ causeText fault) 1
  | _ :: extra :: _ => misuse "unlink" ("extra operand " ++ shown extra) 1

/-- Makes a second name for a file. -/
def link : Action := withOptions "link" {} 1 fun g => do
  match g.operands with
  | [] => missingOperand "link" 1
  | [a] => misuse "link" ("missing operand after " ++ shown a) 1
  | _ :: _ :: extra :: _ => misuse "link" ("extra operand " ++ shown extra) 1
  | [a, b] => do
    let s ← get
    let refuse (cause : String) : Running Nat :=
      failWith "link" ("cannot create link " ++ shown b ++ " to " ++ shown a ++ ": " ++ cause) 1
    match nodeOf s false a, s.host.files.place s.cwd false (Shell.path b) with
    | .error fault, _ | _, .error fault => refuse (causeText fault)
    | .ok .dir, _ => refuse "Operation not permitted"
    | .ok node, .ok spot => do
      if spot.node.isSome then return ← refuse "File exists"
      set { s with host := { s.host with files := s.host.files.put spot.loc node } }
      return 0

/-- Copies files and sets their permissions, or makes directories. -/
def install : Action :=
  withOptions "install"
    { flags := "dDvpcsT", valued := "mogt"
      names := [("directory", 'd'), ("mode", 'm'), ("target-directory", 't'), ("verbose", 'v')] } 1 fun g => do
    let executable := match g.value? 'm' with
      | some mode => (executableMode? mode).getD false
      | none => true
    if g.has 'd' then
      if g.operands.isEmpty then return ← misuse "install" "missing file operand" 1
      forEach g.operands fun p => do
        let s ← get
        let (result, files) := s.host.files.makeDirAll s.cwd (Shell.path p)
        set { s with host := { s.host with files } }
        match result with
        | .ok _ => return 0
        | .error fault => failWith "install" ("cannot create directory " ++ shown p ++ ": " ++ causeText fault) 1
    else
      match ← sourcesAndTarget "install" g with
      | .error status => return status
      | .ok (sources, target) =>
        forEach sources fun p => do
          let s ← get
          if g.has 'D' then
            let (_, files) := s.host.files.makeDirAll s.cwd (Shell.path (frontPart target))
            modify fun s => { s with host := { s.host with files } }
          let s ← get
          let goal := arrival s g p target
          match nodeOf s true p with
          | .error fault => failWith "install" ("cannot stat " ++ shown p ++ ": " ++ causeText fault) 1
          | .ok (.file data _) =>
            match s.host.files.place s.cwd false (Shell.path goal) with
            | .error fault =>
              failWith "install" ("cannot create regular file " ++ shown goal ++ ": " ++ causeText fault) 1
            | .ok spot => do
              set { s with host := { s.host with files := s.host.files.put spot.loc (.file data executable) } }
              if g.has 'v' then print (shown p ++ " -> " ++ shown goal ++ "\n")
              return 0
          | .ok _ => failWith "install" ("omitting directory " ++ shown p) 1

/-! ### Telling -/

/-- What a letter of a format tells about a file. -/
def told (p : String) (node : Node) (c : Char) : String :=
  let size := match node with
    | .file data _ => data.length
    | .dir => 4096
    | .link target => target.spelling.utf8ByteSize
  let permissions := match node with
    | .file _ executable => if executable then ("755", "-rwxr-xr-x") else ("644", "-rw-r--r--")
    | .dir => ("755", "drwxr-xr-x")
    | .link _ => ("777", "lrwxrwxrwx")
  match c with
  | 'n' => p
  | 's' => toString size
  | 'F' => kindName node
  | 'a' => permissions.1
  | 'A' => permissions.2
  | 'U' | 'G' => "root"
  | 'u' | 'g' => "0"
  | 'N' =>
    match node with
    | .link target => shown p ++ " -> " ++ shown (raw target.spelling)
    | _ => shown p
  | '%' => "%"
  | _ => "?"

/-- A format with what it asks for put in. -/
def toldText (escaping : Bool) (p : String) (node : Node) : List Char → List Char
  | [] => []
  | '%' :: c :: rest => (told p node c).toList ++ toldText escaping p node rest
  | '\\' :: c :: rest =>
    if escaping then (if c == 'n' then '\n' else if c == 't' then '\t' else c) :: toldText escaping p node rest
    else '\\' :: c :: toldText escaping p node rest
  | c :: rest => c :: toldText escaping p node rest

/-- Tells what files are. -/
def stat : Action :=
  withOptions "stat"
    { flags := "Lft", valued := "cP", names := [("format", 'c'), ("printf", 'P'), ("dereference", 'L')] } 1 fun g => do
    if g.operands.isEmpty then return ← missingOperand "stat" 1
    forEach g.operands fun p => do
      match nodeOf (← get) (g.has 'L') p with
      | .error fault => failWith "stat" ("cannot statx " ++ shown p ++ ": " ++ causeText fault) 1
      | .ok node => do
        match g.value? 'c', g.value? 'P' with
        | some f, _ => print (String.ofList (toldText false p node f.toList) ++ "\n")
        | none, some f => print (String.ofList (toldText true p node f.toList))
        | none, none =>
          print ("  File: " ++ told p node 'n' ++ "\n  Size: " ++ told p node 's' ++ "\t" ++ told p node 'F' ++ "\n")
        return 0

def user : Action :=
  withOptions "id"
    { flags := "ugGnrza", names := [("user", 'u'), ("group", 'g'), ("groups", 'G'), ("name", 'n'), ("real", 'r')] } 1
    fun g => do
      if let some other := g.operands.find? (· != "root") then
        return ← failWith "id" (shown other ++ ": no such user") 1
      let one := g.has 'u' || g.has 'g' || g.has 'G'
      print (if !one then "uid=0(root) gid=0(root) groups=0(root)\n" else if g.has 'n' then "root\n" else "0\n")
      return 0

def system : Action :=
  withOptions "uname"
    { flags := "asnrvmpio"
      names := [("all", 'a'), ("kernel-name", 's'), ("nodename", 'n'), ("machine", 'm'), ("processor", 'p'),
        ("operating-system", 'o')] } 1 fun g => do
    if let some extra := g.operands.head? then return ← misuse "uname" ("extra operand " ++ shown extra) 1
    let parts := [('s', "Linux"), ('n', "localhost"), ('r', "6.0.0"), ('v', "#1"), ('m', "x86_64"), ('p', "x86_64"),
      ('i', "x86_64"), ('o', "GNU/Linux")]
    let asked := if g.has 'a' then parts.map (·.2) else (parts.filter fun e => g.has e.1).map (·.2)
    print (" ".intercalate (if asked.isEmpty then ["Linux"] else asked) ++ "\n")
    return 0

/-- A tool without operands that shows a text. -/
def fixedText (name text : String) (status : Nat) : Action := withOptions name {} 1 fun g => do
  if let some extra := g.operands.head? then return ← misuse name ("extra operand " ++ shown extra) 1
  print (text ++ "\n")
  return status

/-- Shows a line over and over. What reads it takes no more than a part of it. -/
def yes : Action := fun args => do
  let line := if args.isEmpty then "y\n" else " ".intercalate args ++ "\n"
  print (String.join (List.replicate (65536 / line.length + 1) line))
  return 1

end Tool

end Script

end Recompile

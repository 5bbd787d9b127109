import Recompile.Script.Expansion
import Recompile.Script.Tool.Options

/-!
# Tools for files

The tools that list, make, copy, move and remove files. Each complains about what it cannot do and goes on with
the next operand.
-/

namespace Recompile

namespace Script

namespace Tool

/-! ### Paths -/

/-- A path without separators at its end. -/
def withoutEnd (p : String) : String :=
  let core := (p.toList.reverse.dropWhile (· == '/')).reverse
  if core.isEmpty then (if p = "" then "" else "/") else String.ofList core

/-- The last part of a path. -/
def lastPart (p : String) : String :=
  let core := withoutEnd p
  if core = "/" then "/" else String.ofList (core.toList.reverse.takeWhile (· != '/')).reverse

/-- What is in front of the last part of a path. -/
def frontPart (p : String) : String :=
  let front := (withoutEnd p).toList.reverse.dropWhile (· != '/')
  if front.isEmpty then "." else withoutEnd (String.ofList front.reverse)

/-- A path within a directory. -/
def inside (directory name : String) : String :=
  if directory.toList.getLast? = some '/' then directory ++ name else directory ++ "/" ++ name

/-- A name without a part at its end, unless it is that part. -/
def withoutSuffix (name suffix : String) : String :=
  if suffix != "" && name != suffix && name.endsWith suffix then
    String.ofList (name.toList.take (name.length - suffix.length))
  else name

/-- Shows the last parts of paths. -/
def basename : Action :=
  withOptions "basename"
    { flags := "az", valued := "s", names := [("suffix", 's'), ("multiple", 'a')], anywhere := false } 1
    fun g => do
      match g.operands with
      | [] => missingOperand "basename" 1
      | p :: rest =>
        if g.has 'a' || g.has 's' then
          print (unlines (g.operands.map fun p => withoutSuffix (lastPart p) ((g.value? 's').getD "")))
          return 0
        else
          match rest with
          | _ :: extra :: _ => misuse "basename" ("extra operand " ++ shown extra) 1
          | _ => do
            print (withoutSuffix (lastPart p) (rest.headD "") ++ "\n")
            return 0

/-- Shows what is in front of the last parts of paths. -/
def dirname : Action := withOptions "dirname" { flags := "z" } 1 fun g => do
  if g.operands.isEmpty then return ← missingOperand "dirname" 1
  print (unlines (g.operands.map frontPart))
  return 0

def fullPath (loc : Location) : String := raw ("/" ++ "/".intercalate loc)

/-- The parts of a path with those that lead nowhere taken out; no part has to be there. -/
def plainSteps : (done : List String) → List String → List String
  | done, [] => done.reverse
  | done, step :: rest =>
    if step = "" ∨ step = "." then plainSteps done rest
    else if step = ".." then plainSteps done.tail rest
    else plainSteps (step :: done) rest

/-- The full path that a path stands for: links are followed as far as there is something, and `through` says whether
the last one is as well. -/
def resolved (s : Shell) (through : Bool) : (fuel : Nat) → (p : String) → (after : List String) → String
  | 0, p, _ => p
  | fuel + 1, p, after =>
    match s.host.files.place s.cwd (through || !after.isEmpty) (Shell.path p) with
    | .ok place => fullPath (plainSteps [] (place.loc ++ after))
    | .error _ =>
      if frontPart p = p then p else resolved s through fuel (frontPart p) (lastPart p :: after)

/-- Shows where links lead. -/
def readlink : Action := withOptions "readlink"
    { flags := "fnemqszv"
      names := [("canonicalize", 'f'), ("canonicalize-existing", 'e'), ("canonicalize-missing", 'm'),
        ("no-newline", 'n'),
        ("quiet", 'q'), ("silent", 'q'), ("verbose", 'v'), ("zero", 'z')] } 1 fun g => do
  if g.operands.isEmpty then return ← missingOperand "readlink" 1
  let several := 1 < g.operands.length
  if several && g.has 'n' then complain "readlink" "ignoring --no-newline with multiple arguments"
  let ending := if g.has 'n' && !several then "" else if g.has 'z' then "\x00" else "\n"
  forEach g.operands fun p => do
    let s ← get
    let refuse (cause : String) : Running Nat :=
      if g.has 'v' then failWith "readlink" (p ++ ": " ++ cause) 1 else return 1
    if g.has 'm' then
      print (resolved s true (p.length + 1) p [] ++ ending)
      return 0
    let follow := g.has 'f' || g.has 'e'
    match s.host.files.place s.cwd follow (Shell.path p) with
    | .error fault => refuse (causeText fault)
    | .ok place =>
      if follow then
        if g.has 'e' && place.node.isNone then return ← refuse "No such file or directory"
        print (fullPath place.loc ++ ending)
        return 0
      else
        match place.node with
        | some (.link target) => do
          print (raw target.spelling ++ ending)
          return 0
        | some _ => refuse "Invalid argument"
        | none => refuse "No such file or directory"

/-- Shows the full paths of files. -/
def realpath : Action := withOptions "realpath"
    { flags := "emsqzLP"
      names := [("canonicalize-existing", 'e'), ("canonicalize-missing", 'm'), ("no-symlinks", 's'), ("strip", 's'),
        ("quiet", 'q'), ("zero", 'z')] } 1 fun g => do
  if g.operands.isEmpty then return ← missingOperand "realpath" 1
  forEach g.operands fun p => do
    let s ← get
    let ending := if g.has 'z' then "\x00" else "\n"
    let refuse (cause : String) : Running Nat :=
      if g.has 'q' then return 1 else failWith "realpath" (p ++ ": " ++ cause) 1
    if g.has 's' then
      let steps := (p.toList.splitOn '/').map String.ofList
      print (fullPath (plainSteps [] ((if p.startsWith "/" then [] else s.cwd) ++ steps)) ++ ending)
      return 0
    if g.has 'm' then
      print (resolved s true (p.length + 1) p [] ++ ending)
      return 0
    match s.host.files.place s.cwd true (Shell.path p) with
    | .ok place => do
      if g.has 'e' && place.node.isNone then return ← refuse "No such file or directory"
      print (fullPath place.loc ++ ending)
      return 0
    | .error fault => refuse (causeText fault)

/-! ### Listing -/

/-- What is at a path, with or without following a link at its end. -/
def nodeOf (s : Shell) (follow : Bool) (p : String) : Except Fault Node :=
  match s.host.files.place s.cwd follow (Shell.path p) with
  | .ok ⟨_, some node⟩ => .ok node
  | .ok ⟨_, none⟩ => .error (.ofKind .notFound)
  | .error fault => .error fault

/-- The names in a directory that a listing shows, in its order. -/
def listed (s : Shell) (g : Given) (directory : String) : List String :=
  let names := if g.has 'a' then "." :: ".." :: entryNames s directory else entryNames s directory
  let names := names.mergeSort fun a b => !(b < a)
  let names := if g.has 'a' || g.has 'A' then names else names.filter fun n => n.toList.head? != some '.'
  if g.has 'r' then names.reverse else names

/-- A name with the mark of its kind, if marks are asked for. -/
def marked (s : Shell) (g : Given) (p name : String) : String :=
  match nodeOf s false p with
  | .ok .dir => if g.has 'p' || g.has 'F' then name ++ "/" else name
  | .ok (.link _) => if g.has 'F' then name ++ "@" else name
  | .ok (.file _ executable) => if g.has 'F' && executable then name ++ "*" else name
  | .error _ => name

/-- A directory and those below it, in the order in which they are listed; `fuel` bounds their depth. -/
def directoriesBelow (s : Shell) (g : Given) : (fuel : Nat) → (directory : String) → List String
  | 0, directory => [directory]
  | fuel + 1, directory =>
    directory :: (listed s g directory).flatMap fun n =>
      match nodeOf s false (inside directory n) with
      | .ok .dir => if n = "." ∨ n = ".." then [] else directoriesBelow s g fuel (inside directory n)
      | _ => []

/-- Lists files and directories. A link that is given stands for what it leads to, unless kinds are asked for. -/
def ls : Action :=
  withOptions "ls"
    { flags := "1aAbBcCdDfFgGhHiklLmnNopqQrRsStuUvxXZ", valued := "ITw"
      names := [("all", 'a'), ("almost-all", 'A'), ("directory", 'd'), ("recursive", 'R'), ("reverse", 'r')] } 2
    fun g => do
      let operands := if g.operands.isEmpty then ["."] else g.operands
      let s ← get
      let mut plainFiles : List String := []
      let mut directories : List String := []
      let mut status := 0
      let follow := !(g.has 'd' || g.has 'F' || g.has 'l')
      for p in operands.mergeSort fun a b => !(b < a) do
        let found : Except Fault Node := match nodeOf s follow p with
          | .ok node => .ok node
          | .error _ => nodeOf s false p
        match found with
        | .error fault => do
          complain "ls" ("cannot access " ++ shown p ++ ": " ++ causeText fault)
          status := 2
        | .ok .dir =>
          if g.has 'd' then plainFiles := plainFiles ++ [p] else directories := directories ++ [p]
        | .ok _ => plainFiles := plainFiles ++ [p]
      print (unlines (plainFiles.map fun p => marked s g p p))
      let mut first := plainFiles.isEmpty
      let deep := g.has 'R'
      let depth := s.host.files.nodes.entries.length + 1
      for d in directories.flatMap fun d => if deep then directoriesBelow s g depth d else [d] do
        if deep || 1 < operands.length then
          print ((if first then "" else "\n") ++ d ++ ":\n")
        first := false
        print (unlines ((listed s g d).map fun n => marked s g (inside d n) n))
      return status

/-! ### Making and removing -/

/-- The first part of a path that more parts follow and that is no directory. -/
def obstacle? (s : Shell) (p : String) : Option String :=
  let cs := p.toList
  let fronts := (List.range cs.length).filterMap fun i =>
    if cs[i]? == some '/' && (cs.drop i).any (· != '/') then some (String.ofList (cs.take i)) else none
  fronts.find? fun front =>
    match nodeOf s true front with
    | .ok .dir => false
    | .ok _ => front != ""
    | .error _ => false

def frontPaths (p : String) : List String :=
  let cs := (withoutEnd p).toList
  let cuts := (List.range cs.length).filter fun i => cs[i]? == some '/' && i != 0 && cs[i - 1]? != some '/'
  cuts.map (fun i => String.ofList (cs.take i)) ++ [String.ofList cs]

/-- Makes directories. -/
def mkdir : Action :=
  withOptions "mkdir" { flags := "pv", valued := "m", names := [("parents", 'p'), ("mode", 'm'), ("verbose", 'v')] } 1
    fun g => do
    if g.operands.isEmpty then return ← missingOperand "mkdir" 1
    let tell (p : String) : Running Unit := do
      if g.has 'v' then print ((← calledName "mkdir") ++ ": created directory " ++ shown p ++ "\n")
    forEach g.operands fun p => do
      let complaint (p : String) (fault : Fault) : String :=
        "cannot create directory " ++ shown p ++ ": " ++ causeText fault
      if g.has 'p' then
        let s ← get
        let (result, files) := s.host.files.makeDirAll s.cwd (Shell.path p)
        set { s with host := { s.host with files } }
        ((frontPaths p).filter fun q => !s.host.files.isDir s.cwd (Shell.path q)
          && files.isDir s.cwd (Shell.path q)).forM tell
        match result with
        | .ok _ => return 0
        | .error fault => failWith "mkdir" (complaint ((obstacle? s p).getD p) fault) 1
      else
        match ← changeFiles fun files cwd => files.makeDir cwd (Shell.path p) with
        | .ok _ => do
          tell p
          return 0
        | .error fault => failWith "mkdir" (complaint p fault) 1

/-- Removes a directory with nothing in it. -/
def removeEmpty (p : String) (files : Files) (cwd : Location) : Except Fault Files := do
  let place ← files.place cwd false (Shell.path p)
  match place.node with
  | none => .error (.ofKind .notFound)
  | some .dir =>
    if (files.below place.loc).isEmpty then .ok (files.drop place.loc) else .error (.ofKind .directoryNotEmpty)
  | some _ => .error (.ofKind .notADirectory)

/-- Removes empty directories. -/
def rmdir : Action :=
  withOptions "rmdir"
    { flags := "pvi", names := [("parents", 'p'), ("verbose", 'v'), ("ignore-fail-on-non-empty", 'i')] } 1 fun g => do
  if g.operands.isEmpty then return ← missingOperand "rmdir" 1
  let rec remove (isFirst : Bool) : List String → Running Nat
    | [] => return 0
    | p :: rest => do
      if g.has 'v' then print ((← calledName "rmdir") ++ ": removing directory, " ++ shown p ++ "\n")
      match ← changeFiles (removeEmpty p) with
      | .ok _ => remove false rest
      | .error fault =>
        if g.has 'i' && fault.kind = .directoryNotEmpty then return 0
        failWith "rmdir"
          ("failed to remove " ++ (if isFirst then "" else "directory ") ++ shown p ++ ": " ++ causeText fault) 1
  forEach g.operands fun p => remove true (if g.has 'p' then (frontPaths p).reverse else [p])

/-- Asks a question, and returns whether it is answered by yes. -/
def asksFor (name question : String) : Running Bool := do
  printError ((← calledName name) ++ ": " ++ question ++ "? ")
  let (answer, _) ← readLine 0
  return answer.startsWith "y" || answer.startsWith "Y"

/-- What a file is called in a question. -/
def kindName : Node → String
  | .file data _ => if data.isEmpty then "regular empty file" else "regular file"
  | .dir => "directory"
  | .link _ => "symbolic link"

/-- What is told about files that were removed: those below a directory come before it. -/
def removedLines (s : Shell) : (fuel : Nat) → (p : String) → List String
  | 0, _ => []
  | fuel + 1, p =>
    match nodeOf s false p with
    | .ok .dir =>
      ((entryNames s p).flatMap fun n => removedLines s fuel (inside p n)) ++
        ["removed directory " ++ shown (withoutEnd p)]
    | _ => ["removed " ++ shown p]

/-- Removes files, and directories if that is asked for. -/
def rm : Action :=
  withOptions "rm"
    { flags := "rRfivdI", names := [("recursive", 'r'), ("force", 'f'), ("verbose", 'v'), ("dir", 'd')] } 1 fun g => do
    if g.operands.isEmpty && !g.has 'f' then return ← missingOperand "rm" 1
    let deep := g.has 'r' || g.has 'R'
    let asks := (g.options.filter fun o => o.1 == 'i' || o.1 == 'f').getLast?.any (·.1 == 'i')
    forEach g.operands fun p => do
      let s ← get
      if deep && (lastPart p = "." ∨ lastPart p = "..") then
        return ← failWith "rm" ("refusing to remove '.' or '..' directory: skipping " ++ shown p) 1
      let complaint (cause : String) : Running Nat :=
        failWith "rm" ("cannot remove " ++ shown p ++ ": " ++ cause) 1
      let told := if g.has 'v' then unlines (removedLines s (s.host.files.nodes.entries.length + 1) p) else ""
      match nodeOf s false p with
      | .error fault => if g.has 'f' && fault.kind = .notFound then return 0 else complaint (causeText fault)
      | .ok node =>
        if node.isDir && !deep then
          if g.has 'd' then
            match ← changeFiles (removeEmpty p) with
            | .ok _ => do
              print told
              return 0
            | .error fault => complaint (causeText fault)
          else complaint "Is a directory"
        else
          let agreed ← if asks then asksFor "rm" ("remove " ++ kindName node ++ " " ++ shown p) else pure true
          if !agreed then return 0
          match ← changeFiles fun files cwd => files.removeAny cwd (Shell.path p) with
          | .ok _ => do
            print told
            return 0
          | .error fault => complaint (causeText fault)

/-- Makes files that are missing. -/
def touch : Action :=
  withOptions "touch" { flags := "camh", valued := "drt", names := [("no-create", 'c'), ("date", 'd')] } 1 fun g => do
    if g.operands.isEmpty then
      return ← misuse "touch" "missing file operand" 1
    forEach g.operands fun p => do
      let s ← get
      if (nodeAt? s p).isSome || g.has 'c' then return 0
      match ← changeFiles fun files cwd => files.write cwd (Shell.path p) [] with
      | .ok _ => return 0
      | .error fault => do
        let cause := if fault.kind = .isADirectory then FaultKind.notFound else fault.kind
        failWith "touch" ("cannot touch " ++ shown p ++ ": " ++ causeText (.ofKind cause)) 1

/-- The last run of the letter that stands for free choice in a template, with what is in front of it and after it. -/
def template (name : String) : List Char × Nat × List Char :=
  let (after, front) := name.toList.reverse.span (· != 'X')
  let free := front.takeWhile (· == 'X')
  ((front.drop free.length).reverse, free.length, after.reverse)

/-- Makes an unused file or directory, and shows its path. -/
def mktemp : Action := withOptions "mktemp" { flags := "dqtu", valued := "p" } 1 fun g => do
  let s ← get
  let base := (g.value? 'p').getD ((s.get? "TMPDIR").getD "/tmp")
  let name := g.operands.headD "tmp.XXXXXXXXXX"
  let (front, free, after) := template name
  if 1 < g.operands.length then return ← misuse "mktemp" "too many templates" 1
  if free < 3 then return ← failWith "mktemp" ("too few X's in template " ++ shown name) 1
  let folder := if g.operands.isEmpty || g.has 'p' || g.has 't' then base ++ "/" else ""
  let choice (i : Nat) : List Char :=
    let digits := (toString i).toList
    List.replicate (free - digits.length) 'a' ++ digits
  let candidates := (List.range 1000).map fun i => folder ++ String.ofList (front ++ choice i ++ after)
  match candidates.find? fun p => !isThere s p with
  | none => failWith "mktemp" "no name is left" 1
  | some p => do
    let made ← changeFiles fun files cwd =>
      if g.has 'd' then files.makeDir cwd (Shell.path p) else files.write cwd (Shell.path p) []
    match made with
    | .ok _ => do
      print (p ++ "\n")
      return 0
    | .error fault =>
      failWith "mktemp" ("failed to create " ++ (if g.has 'd' then "directory" else "file")
        ++ " via template " ++ shown (folder ++ name) ++ ": " ++ causeText fault) 1

/-! ### Copying and moving -/

/-- Puts what is at and below a location at another one as well. -/
def copyTree (files : Files) (source target : Location) : Files :=
  (files.nodes.entries.filter fun (loc, _) => Files.within source loc).foldl (fun files (loc, node) =>
    files.put (target ++ loc.drop source.length) node) files

/-- The path that a file gets when it goes to a target, which may be a directory. -/
def arrival (s : Shell) (g : Given) (source target : String) : String :=
  match nodeOf s true target with
  | .ok .dir => if g.has 'T' then target else inside target (lastPart source)
  | _ => target

/-- The sources and the target among operands; the target has to be a directory if there are several sources. -/
def sourcesAndTarget (name : String) (g : Given) : Running (Except Nat (List String × String)) := do
  let s ← get
  let (sources, target) := match g.value? 't' with
    | some t => (g.operands, some t)
    | none => (g.operands.dropLast, g.operands.getLast?)
  match sources, target with
  | _, none => return .error (← misuse name "missing file operand" 1)
  | [], some t =>
    return .error (← misuse name ("missing destination file operand after " ++ shown t) 1)
  | _, some t =>
    if 1 < sources.length || (g.value? 't').isSome then
      match nodeOf s true t with
      | .ok .dir => return .ok (sources, t)
      | .ok _ => return .error (← failWith name ("target " ++ shown t ++ ": Not a directory") 1)
      | .error fault => return .error (← failWith name ("target " ++ shown t ++ ": " ++ causeText fault) 1)
    else return .ok (sources, t)

def copyOne (g : Given) (source target : String) : Running Nat := do
  let s ← get
  let files := s.host.files
  let deep := g.has 'r' || g.has 'R' || g.has 'a'
  let keepLinks := g.has 'a' || g.has 'd' || g.has 'P' || (deep && !g.has 'L')
  let goal := arrival s g source target
  match files.place s.cwd (!keepLinks) (Shell.path source) with
  | .error fault => failWith "cp" ("cannot stat " ++ shown source ++ ": " ++ causeText fault) 1
  | .ok ⟨_, none⟩ => failWith "cp" ("cannot stat " ++ shown source ++ ": No such file or directory") 1
  | .ok ⟨loc, some node⟩ =>
    if node.isDir && !deep then
      return ← failWith "cp" ("-r not specified; omitting directory " ++ shown source) 1
    let tell (source goal : String) : Running Unit := do
      if g.has 'v' then print (shown source ++ " -> " ++ shown goal ++ "\n")
    match files.place s.cwd true (Shell.path (if node.isDir then withoutEnd goal else goal)) with
    | .error fault =>
      tell source goal
      let inDirectory := (nodeOf s true (frontPart goal)).toOption.any Node.isDir
      let fault :=
        if !node.isDir && fault.kind = .notFound && goal.endsWith "/" && inDirectory then
          Fault.ofKind .notADirectory
        else fault
      failWith "cp" ("cannot create " ++ (if node.isDir then "directory " else "regular file ") ++ shown goal
        ++ ": " ++ causeText fault) 1
    | .ok spot => do
      if spot.loc = loc && spot.node.isSome then
        return ← failWith "cp" (shown source ++ " and " ++ shown goal ++ " are the same file") 1
      if g.has 'n' && spot.node.isSome then return 0
      if g.has 'i' && spot.node.any fun n => !n.isDir then
        if !(← asksFor "cp" ("overwrite " ++ shown goal)) then return 1
      match node, spot.node with
      | .dir, some (.file ..) =>
        failWith "cp" ("cannot overwrite non-directory " ++ shown goal ++ " with directory " ++ shown source) 1
      | .dir, _ => do
        if Files.within loc spot.loc then
          return ← failWith "cp" ("cannot copy a directory, " ++ shown source ++ ", into itself, " ++ shown goal) 1
        set { s with host := { s.host with files := copyTree files loc spot.loc } }
        tell (withoutEnd source) (withoutEnd goal)
        (files.below loc).forM fun l => do
          let part := raw (String.join ((l.drop loc.length).map ("/" ++ ·)))
          tell (withoutEnd source ++ part) (withoutEnd goal ++ part)
        return 0
      | _, some .dir =>
        failWith "cp" ("cannot overwrite directory " ++ shown goal ++ " with non-directory") 1
      | .file data executable, existing => do
        if goal.toList.getLast? = some '/' then
          tell source goal
          return ← failWith "cp" ("cannot create regular file " ++ shown goal ++ ": Not a directory") 1
        let executable := match existing with
          | some (.file _ e) => if g.has 'p' || g.has 'a' then executable else e
          | _ => executable
        set { s with host := { s.host with files := files.put spot.loc (.file data executable) } }
        tell source goal
        return 0
      | .link t, _ => do
        set { s with host := { s.host with files := files.put spot.loc (.link t) } }
        tell source goal
        return 0

def cp : Action :=
  withOptions "cp"
    { flags := "rRapfvndPLTiu", valued := "t"
      names := [("recursive", 'r'), ("archive", 'a'), ("force", 'f'), ("target-directory", 't'), ("verbose", 'v'),
        ("no-clobber", 'n'), ("interactive", 'i'), ("no-target-directory", 'T')] } 1 fun g => do
    if g.has 'n' then
      complain "cp" "warning: behavior of -n is non-portable and may change in future; use --update=none instead"
    match ← sourcesAndTarget "cp" g with
    | .error status => return status
    | .ok (sources, target) => forEach sources fun p => copyOne g p target

def moveOne (g : Given) (source target : String) : Running Nat := do
  let s ← get
  let files := s.host.files
  let goal := arrival s g source target
  match files.place s.cwd false (Shell.path (withoutEnd source)) with
  | .error fault => failWith "mv" ("cannot stat " ++ shown source ++ ": " ++ causeText fault) 1
  | .ok ⟨_, none⟩ => failWith "mv" ("cannot stat " ++ shown source ++ ": No such file or directory") 1
  | .ok ⟨loc, some node⟩ =>
    match files.place s.cwd false (Shell.path (withoutEnd goal)) with
    | .error fault =>
      failWith "mv" ("cannot move " ++ shown source ++ " to " ++ shown goal ++ ": " ++ causeText fault) 1
    | .ok spot => do
      let how := (g.options.filter fun o => "nif".toList.contains o.1).getLast?.map (·.1)
      if how == some 'n' && spot.node.isSome then return ← failWith "mv" ("not replacing " ++ shown goal) 1
      if spot.loc = loc then
        return ← failWith "mv" (shown source ++ " and " ++ shown goal ++ " are the same file") 1
      if spot.node.isSome then do
        if how == some 'i' then
          if !(← asksFor "mv" ("overwrite " ++ shown goal)) then return 1
      if node.isDir && Files.within loc spot.loc then
        return ← failWith "mv"
          ("cannot move " ++ shown source ++ " to a subdirectory of itself, " ++ shown goal) 1
      match spot.node with
      | some .dir =>
        if !node.isDir then
          return ← failWith "mv" ("cannot overwrite directory " ++ shown goal ++ " with non-directory") 1
        if !(files.below spot.loc).isEmpty then
          return ← failWith "mv"
            ("cannot move " ++ shown source ++ " to " ++ shown goal ++ ": Directory not empty") 1
      | some _ =>
        if node.isDir then
          return ← failWith "mv"
            ("cannot overwrite non-directory " ++ shown goal ++ " with directory " ++ shown source) 1
      | none =>
        if !node.isDir && goal.toList.getLast? = some '/' then
          return ← failWith "mv"
            ("cannot move " ++ shown source ++ " to " ++ shown goal ++ ": Not a directory") 1
      let moved := copyTree ((files.drop spot.loc)) loc spot.loc
      set { s with host := { s.host with files := moved.drop loc } }
      if g.has 'v' then print ("renamed " ++ shown source ++ " -> " ++ shown goal ++ "\n")
      return 0

def mv : Action :=
  withOptions "mv"
    { flags := "fnvTiu", valued := "t"
      names := [("force", 'f'), ("target-directory", 't'), ("verbose", 'v'), ("no-clobber", 'n'), ("interactive", 'i'),
        ("no-target-directory", 'T')] } 1
    fun g => do
      match ← sourcesAndTarget "mv" g with
      | .error status => return status
      | .ok (sources, target) => forEach sources fun p => moveOne g p target

/-- Makes a link at a path. -/
def linkOne (g : Given) (source target : String) : Running Nat := do
  let s ← get
  let files := s.host.files
  let kind := if g.has 's' then "symbolic link " else "hard link "
  let goal := if g.has 'n' && (nodeOf s false target).toOption.any fun n => !n.isDir then target
    else arrival s g source target
  match files.place s.cwd false (Shell.path (withoutEnd goal)) with
  | .error fault => failWith "ln" ("failed to create " ++ kind ++ shown goal ++ ": " ++ causeText fault) 1
  | .ok spot => do
    if spot.node.isSome && !g.has 'f' then
      return ← failWith "ln" ("failed to create " ++ kind ++ shown goal ++ ": File exists") 1
    let tell : Running Unit := do
      if g.has 'v' then print (shown goal ++ (if g.has 's' then " -> " else " => ") ++ shown source ++ "\n")
    if g.has 's' then
      set { s with host := { s.host with files := files.put spot.loc (.link (Shell.path source)) } }
      tell
      return 0
    match nodeOf s false source with
    | .error fault => failWith "ln" ("failed to access " ++ shown source ++ ": " ++ causeText fault) 1
    | .ok .dir => failWith "ln" (source ++ ": hard link not allowed for directory") 1
    | .ok node => do
      set { s with host := { s.host with files := files.put spot.loc node } }
      tell
      return 0

/-- Makes links. -/
def ln : Action :=
  withOptions "ln"
    { flags := "sfnvTr"
      valued := "t"
      names := [("symbolic", 's'), ("force", 'f'), ("verbose", 'v'), ("no-dereference", 'n')] }
    1 fun g => do
    match g.operands with
    | [p] => linkOne g p "."
    | _ =>
      match ← sourcesAndTarget "ln" g with
      | .error status => return status
      | .ok (sources, target) => forEach sources fun p => linkOne g p target

/-- Whether a mode makes a file executable or not, if it says so. -/
def executableMode? (mode : String) : Option Bool :=
  if mode.all Char.isDigit then
    let bits := (mode.toList.map fun c => c.toNat - '0'.toNat).reverse.take 3
    some (bits.any fun b => b % 2 == 1)
  else
    ((mode.toList.splitOn ',').map fun clause =>
      let change := clause.dropWhile fun c => c != '+' && c != '-' && c != '='
      if change.contains 'x' then some (change.head? != some '-')
      else if change.head? == some '=' then some false else none).foldl (fun found c => c <|> found) none

/-- Whether a text is a change of permissions: for whom, and then what is added, taken away or set. -/
def isModeClause (cs : List Char) : Bool :=
  let isOperator (c : Char) : Bool := c == '+' || c == '-' || c == '='
  let changes := cs.dropWhile "ugoa".toList.contains
  let rec fits (afterOperator : Bool) : List Char → Bool
    | [] => true
    | c :: rest =>
      if isOperator c then fits true rest
      else afterOperator && ("rwxXst".toList.contains c || (rest.head?.all isOperator && "ugo".toList.contains c))
        && fits ("rwxXst".toList.contains c) rest
  changes.head?.any isOperator && fits false changes

def isMode (mode : String) : Bool :=
  if mode != "" && mode.all Char.isDigit then
    mode.all (· < '8') && Arithmetic.natOf 8 mode.toList ≤ 4095
  else (mode.toList.splitOn ',').all isModeClause

def setExecutable (executable : Bool) : Node → Node
  | .file data _ => .file data executable
  | node => node

/-- Changes whether files may be executed. A mode that takes something away looks like an option. -/
def chmod : Action := fun args => do
  let deep := args.any fun a => a == "-R"
  match args.filter fun a => a != "-R" && a != "-v" && a != "-f" && a != "--" with
  | [] => missingOperand "chmod" 1
  | [mode] => misuse "chmod" ("missing operand after " ++ shown mode) 1
  | mode :: operands =>
    if !isMode mode then return ← misuse "chmod" ("invalid mode: " ++ shown mode) 1
    forEach operands fun p => do
      let s ← get
      match s.host.files.place s.cwd true (Shell.path p) with
      | .error fault => failWith "chmod" ("cannot access " ++ shown p ++ ": " ++ causeText fault) 1
      | .ok ⟨_, none⟩ => failWith "chmod" ("cannot access " ++ shown p ++ ": No such file or directory") 1
      | .ok ⟨loc, some _⟩ => do
        match executableMode? mode with
        | none => return 0
        | some executable => do
          let nodes := s.host.files.nodes.entries.filter fun (l, _) =>
            l == loc || (deep && Files.within loc l)
          let files := nodes.foldl (fun (files : Files) (l, node) =>
            files.put l (setExecutable executable node)) s.host.files
          set { s with host := { s.host with files } }
          return 0

/-! ### Comparing -/

/-- The place of the first difference, and what is left of the two texts there. -/
def difference : (place line : Nat) → List Char → List Char → Nat × Nat × Bool × Bool
  | place, line, a :: as, b :: bs =>
    if a == b then difference (place + 1) (if a == '\n' then line + 1 else line) as bs
    else (place, line, true, true)
  | place, line, as, bs => (place, line, !as.isEmpty, !bs.isEmpty)

/-- A byte in octal digits, in a column of three. -/
def octalByte (c : Char) : String :=
  let ds := Nat.toDigits 8 c.toNat
  String.ofList (List.replicate (3 - ds.length) ' ' ++ ds)

/-- A byte as it is shown next to its number. -/
def seenByte (c : Char) : String :=
  let (front, n) := if 128 ≤ c.toNat then ("M-", c.toNat - 128) else ("", c.toNat)
  front ++ if n < 32 then "^" ++ (Char.ofNat (n + 64)).toString else if n = 127 then "^?" else (Char.ofNat n).toString

/-- Fills up a text on its right side. -/
def filledTo (width : Nat) (s : String) : String := s ++ String.ofList (List.replicate (width - s.length) ' ')

/-- All differences of two texts, each with its place. -/
def differences : (place : Nat) → List Char → List Char → List (Nat × Char × Char)
  | place, a :: as, b :: bs =>
    if a == b then differences (place + 1) as bs else (place, a, b) :: differences (place + 1) as bs
  | _, _, _ => []

/-- Compares two texts byte by byte. -/
def compareTexts (g : Given) (a b : String) (x y : List Char) : Running Nat := do
  let (place, line, left, right) := difference 1 1 x y
  if !left && !right then return 0
  if g.has 's' then return 1
  let width := (toString (min x.length y.length)).length
  if g.has 'l' then
    print (unlines ((differences 1 x y).map fun (n, c, d) =>
      let number := String.ofList (List.replicate (width - (toString n).length) ' ') ++ toString n ++ " "
      if g.has 'b' then
        number ++ octalByte c ++ " " ++ filledTo 4 (seenByte c) ++ " " ++ octalByte d ++ " " ++ seenByte d
      else number ++ octalByte c ++ " " ++ octalByte d))
  else if left && right then
    let at? (cs : List Char) : String := ((cs[place - 1]?).map fun c => " " ++ octalByte c ++ " " ++ seenByte c).getD ""
    print (a ++ " " ++ b ++ " differ: " ++ (if g.has 'b' then "byte " else "char ") ++ toString place ++ ", line "
      ++ toString line ++ (if g.has 'b' then " is" ++ at? x ++ at? y else "") ++ "\n")
  if x.length ≠ y.length && (g.has 'l' || !(left && right)) then
    let (short, size, text) := if x.length < y.length then (a, x.length, x) else (b, y.length, y)
    let lines := text.count '\n'
    let after := if g.has 'l' then ""
      else if text.getLast? == some '\n' then ", line " ++ toString lines else ", in line " ++ toString (lines + 1)
    let place := if size = 0 then " which is empty" else " after byte " ++ toString size ++ after
    complain "cmp" ("EOF on " ++ short ++ place)
  return 1

/-- Compares two files byte by byte. -/
def cmp : Action := withOptions "cmp"
    { flags := "slb", valued := "ni"
      names := [("silent", 's'), ("quiet", 's'), ("verbose", 'l'), ("print-bytes", 'b'), ("bytes", 'n'),
        ("ignore-initial", 'i')] } 2 fun g => do
  match g.operands with
  | [] => missingOperand "cmp" 2
  | a :: rest => do
    let b := rest.headD "-"
    let refuse (reason : String) : Running Nat := do
      complain "cmp" reason
      complain "cmp" "Try 'cmp --help' for more information."
      return 2
    if let some extra := rest[3]? then return ← refuse ("extra operand " ++ shown extra)
    let skips := if (rest.drop 1).isEmpty then ((g.value? 'i').getD "0").splitOn ":" else rest.drop 1
    if let some bad := skips.find? fun n => (digits? n).isNone then
      return ← refuse ("invalid --ignore-initial value " ++ shown bad)
    let skip (i : Nat) : Nat := ((skips[i]? <|> (if g.has 'i' then skips.head? else none)).bind digits?).getD 0
    let part (i : Nat) (text : String) : List Char :=
      let cs := text.toList.drop (skip i)
      match (g.value? 'n').bind digits? with
      | some n => cs.take n
      | none => cs
    match ← operandText a with
    | .error cause => if g.has 's' then return 2 else failWith "cmp" (a ++ ": " ++ cause) 2
    | .ok x =>
      match ← operandText b with
      | .error cause => if g.has 's' then return 2 else failWith "cmp" (b ++ ": " ++ cause) 2
      | .ok y => compareTexts g a b (part 0 x) (part 1 y)

end Tool

end Script

end Recompile

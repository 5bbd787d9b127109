import Recompile.Files.Fault
import Recompile.NameTree
import Recompile.Path
import Recompile.Text.Bytes

/-!
# The directory tree

A build reads sources and jars from a directory tree and writes class files, stores and bridges into it. The
tree is a value: `Files` maps every location below the root, the list of names that leads to it, to the
directory, regular file or symbolic link there. A location is the one true name of an entry; the paths by
which programs refer to it are resolved by `Files.place`, which follows links and `..` the way a system call
does and fails for the same reasons.

All operations are functions on this value. Those that change the tree return the new one, and an operation
that fails changes nothing, except that directories made on the way to a deeper one stay.
-/

namespace Recompile

/-- The names that lead from the root of the tree to an entry. -/
abbrev Location := List String

/-- **What is at a location.** -/
inductive Node
  /-- A directory. -/
  | dir
  /-- A regular file with its contents, and whether it may be executed. -/
  | file (data : Bytes) (executable : Bool)
  /-- A symbolic link. -/
  | link (target : Path)

def Node.isDir : Node → Bool
  | dir => true
  | _ => false

def Node.isFile : Node → Bool
  | file .. => true
  | _ => false

/-- **The directory tree.** The root is a directory and is not listed. -/
structure Files where
  nodes : NameTree Node := ∅
deriving Inhabited

namespace Files

instance : EmptyCollection Files := ⟨{}⟩

def node? (f : Files) (loc : Location) : Option Node :=
  if loc = [] then some .dir else f.nodes.get? loc

def put (f : Files) (loc : Location) (node : Node) : Files := ⟨f.nodes.insert loc node⟩

/-- Whether a location is another one or below it. -/
def within (base loc : Location) : Bool := base.isPrefixOf loc

/-- Drops a location and everything below it. -/
def drop (f : Files) (loc : Location) : Files := ⟨f.nodes.drop loc⟩

/-- The locations below a directory, in ascending order. -/
def below (f : Files) (loc : Location) : List Location := f.nodes.below loc

/-! ### Resolving a path -/

/-- The pieces of a path between separators, as they are looked up. A separator at the end asks for a
directory, as a final `.` does. -/
def steps (p : Path) : List String :=
  let pieces := (p.spelling.toList.splitOn '/').map String.ofList
  -- a separator more between two names changes nothing
  let inner := pieces.dropLast.filter (· != "")
  match pieces.getLast? with
  | some "" => inner ++ ["."]
  | some last => inner ++ [last]
  | none => inner

/-- Where a path leads: a location whose directory exists, and what is there. -/
structure Place where
  loc : Location
  node : Option Node

/-- The number of links that are followed in one look-up. -/
def maxLinks : Nat := 40

/-- The number of bytes that a name may have. -/
def maxName : Nat := 255

/-- The number of bytes that a path may have, its terminator included. -/
def maxPath : Nat := 4096

/-- Walks from a directory along some names. A link is followed unless it is the last name and `follow` is
false: `jump` goes on at the directory and with the names to which the link leads. -/
def walkWith (f : Files) (follow : Bool) (jump : Location → List String → Except FaultKind Place)
    (here : Location) : List String → Except FaultKind Place
  | [] => .ok ⟨here, some .dir⟩
  | step :: rest =>
    if step = "." then walkWith f follow jump here rest
    -- the directory above the root is the root
    else if step = ".." then walkWith f follow jump here.dropLast rest
    else if maxName < step.utf8ByteSize then .error .invalidFilename
    else
      let loc := here ++ [step]
      match f.node? loc with
      -- only the last name may be missing
      | none => if rest = [] then .ok ⟨loc, none⟩ else .error .notFound
      | some .dir => walkWith f follow jump loc rest
      | some (.file data executable) =>
        if rest = [] then .ok ⟨loc, some (.file data executable)⟩ else .error .notADirectory
      | some (.link target) =>
        if rest = [] ∧ !follow then .ok ⟨loc, some (.link target)⟩
        -- the names behind the link follow those that it leads along
        else jump (if target.isAbsolute then [] else here) (steps target ++ rest)

/-- Walks from a directory along some names and follows at most `links` links. -/
def walk (f : Files) (follow : Bool) : (links : Nat) → Location → List String → Except FaultKind Place
  | 0 => walkWith f follow fun _ _ => .error .filesystemLoop
  | links + 1 => walkWith f follow (walk f follow links)

/-- **Where a path leads** from a working directory. The last name need not exist; if it is a link, it is
followed when `follow` is set. -/
def place (f : Files) (cwd : Location) (follow : Bool) (p : Path) : Except Fault Place :=
  if p.spelling.toList.contains '\x00' then .error .zeroByte
  else if p.spelling = "" then .error (.ofKind .notFound)
  else if maxPath ≤ p.spelling.utf8ByteSize then .error (.ofKind .invalidFilename)
  else (walk f follow maxLinks (if p.isAbsolute then [] else cwd) (steps p)).mapError .ofKind

/-- The node that a path leads to, with links followed. -/
def lookup (f : Files) (cwd : Location) (p : Path) : Except Fault Node := do
  match (← f.place cwd true p).node with
  | some node => .ok node
  | none => .error (.ofKind .notFound)

/-- Whether a path leads anywhere. -/
def exists? (f : Files) (cwd : Location) (p : Path) : Bool := (f.lookup cwd p).toOption.isSome

/-- Whether a path leads to a regular file. -/
def isFile (f : Files) (cwd : Location) (p : Path) : Bool := (f.lookup cwd p).toOption.any Node.isFile

/-- Whether a path leads to a directory. -/
def isDir (f : Files) (cwd : Location) (p : Path) : Bool := (f.lookup cwd p).toOption.any Node.isDir

/-! ### Reading -/

/-- The contents of a regular file. -/
def read (f : Files) (cwd : Location) (p : Path) : Except Fault Bytes := do
  match ← f.lookup cwd p with
  | .file data _ => .ok data
  | _ => .error (.ofKind .isADirectory)

/-- The contents of a regular file as text. -/
def readText (f : Files) (cwd : Location) (p : Path) : Except Fault String := do
  match Bytes.toString? (← f.read cwd p) with
  | some s => .ok s
  | none => .error .notText

/-- **The entries below a directory** that satisfy a test, at any depth and in the order of their paths. A
link is an entry and is not entered, a link at the start excepted. A directory is entered by its path, which
may be too long for that. A regular file has no entries. -/
def list (f : Files) (cwd : Location) (root : Path) (test : Path → Bool) : Except Fault (List Path) := do
  let start ← f.place cwd true root
  match start.node with
  | none => .error (.ofKind .notFound)
  | some .dir =>
    let path (l : Location) : Path := root / ⟨"/".intercalate (l.drop start.loc.length)⟩
    let entries := f.below start.loc
    -- a directory whose path is too long fails the whole listing, whatever is asked for
    if entries.any fun l => (f.node? l).any Node.isDir && maxPath ≤ (path l).spelling.utf8ByteSize then
      .error (.ofKind .invalidFilename)
    else .ok ((entries.map path).filter test)
  | some _ => .ok []

/-! ### Writing -/

def endsInSeparator (p : Path) : Bool := p.spelling.toList.getLast? == some '/'

def withoutEndSeparators (p : Path) : Path :=
  let core := (p.spelling.toList.reverse.dropWhile (· == '/')).reverse
  if core = [] then p else ⟨String.ofList core⟩

/-- Opens a file for writing from the start: an old file loses its contents, a missing one is made. -/
def write (f : Files) (cwd : Location) (p : Path) (data : Bytes) : Except Fault Files := do
  if endsInSeparator p then
    -- what is wrong with the path in front of the separators is said first
    discard <| f.place cwd false (withoutEndSeparators p)
    .error (.ofKind .isADirectory)
  else
    let target ← f.place cwd true p
    match target.node with
    | none => .ok (f.put target.loc (.file data false))
    -- a file that is overwritten stays executable
    | some (.file _ executable) => .ok (f.put target.loc (.file data executable))
    | some _ => .error (.ofKind .isADirectory)

/-- Renames a finished file over a path, in place of a file or a link that is there. The path has to end in
the name that the file takes: a final `.` or `..` is always in use, and a separator at the end asks for a
directory. -/
def replace (f : Files) (cwd : Location) (p : Path) (data : Bytes) : Except Fault Files := do
  let core := withoutEndSeparators p
  let target ← f.place cwd false core
  match (steps core).getLast? with
  | none | some "." | some ".." => .error (.ofKind .resourceBusy)
  | some _ =>
    if endsInSeparator p then .error (.ofKind .notADirectory)
    else
      match target.node with
      | some .dir => .error (.ofKind .isADirectory)
      -- a link is replaced, not followed; the new file is an ordinary one
      | _ => .ok (f.put target.loc (.file data false))

/-- Makes a directory, and says where it is. -/
def makeDirAt (f : Files) (cwd : Location) (p : Path) : Except Fault (Location × Files) := do
  let target ← f.place cwd false (withoutEndSeparators p)
  match target.node with
  | some _ => .error (.ofKind .alreadyExists)
  | none => .ok (target.loc, f.put target.loc .dir)

def makeDir (f : Files) (cwd : Location) (p : Path) : Except Fault Files := (·.2) <$> f.makeDirAt cwd p

/-- A path, its parent, and so on up to the path without one; `fuel` bounds their number. -/
def ancestors : (fuel : Nat) → Path → List Path
  | 0, p => [p]
  | fuel + 1, p =>
    match p.parent? with
    | some up => p :: ancestors fuel up
    | none => [p]

/-- What a path adds to another one that it starts with, as a relative path. -/
def rest (base p : Path) : Path :=
  ⟨String.ofList ((p.spelling.toList.drop base.spelling.length).dropWhile (· == '/'))⟩

/-- Takes a directory that exists for one that could not be made. -/
def orThere (f : Files) (cwd : Location) (p : Path) : Except Fault (Location × Files) → Except Fault Location × Files
  | .ok (loc, f) => (.ok loc, f)
  | .error fault =>
    match f.place cwd true p with
    | .ok ⟨loc, some .dir⟩ => (.ok loc, f)
    | _ => (.error fault, f)

/-- Makes the first of some directories, each of which is the parent of the one before, together with those
of the others that are missing, and says where the first one is. Once its parent is there, a directory is made
from there. -/
def makeDirs (f : Files) (cwd : Location) : List Path → Except Fault Location × Files
  | [] => (.error ⟨.uncategorized, "failed to create whole tree"⟩, f)
  | p :: up =>
    if p.spelling = "" then (.ok cwd, f)
    else
      match f.makeDirAt cwd p with
      -- only a missing parent sends the search up; with any other cause the directory may be there
      | .error ⟨.notFound, _⟩ =>
        match makeDirs f cwd up with
        | (.error fault, f) => (.error fault, f)
        | (.ok base, f) => f.orThere cwd p (f.makeDirAt base (rest (up.headD "") p))
      | result => f.orThere cwd p result

/-- **Makes a directory and all missing ones above it.** A directory that exists is left as it is. -/
def makeDirAll (f : Files) (cwd : Location) (p : Path) : Except Fault Unit × Files :=
  let (result, f) := f.makeDirs cwd (ancestors p.spelling.length p)
  (result.map fun _ => (), f)

/-- Removes a file or a link. -/
def removeFile (f : Files) (cwd : Location) (p : Path) : Except Fault Files := do
  let target ← f.place cwd false p
  match target.node with
  | none => .error (.ofKind .notFound)
  | some .dir => .error (.ofKind .isADirectory)
  | some _ => .ok (f.drop target.loc)

/-- Removes a directory with everything in it, or a link and not what it leads to. -/
def removeTree (f : Files) (cwd : Location) (p : Path) : Except Fault Files := do
  let target ← f.place cwd false p
  match target.node with
  | none => .error (.ofKind .notFound)
  | some (.file ..) => .error (.ofKind .notADirectory)
  | some _ => .ok (f.drop target.loc)

def removeAny (f : Files) (cwd : Location) (p : Path) : Except Fault Files :=
  match f.removeTree cwd p with
  | .ok f => .ok f
  -- what is no directory is removed as a file
  | .error _ => f.removeFile cwd p

def makeLink (f : Files) (cwd : Location) (p target : Path) : Except Fault Files := do
  let spot ← f.place cwd false (withoutEndSeparators p)
  match spot.node with
  | some _ => .error (.ofKind .alreadyExists)
  | none =>
    if endsInSeparator p || target.spelling = "" then .error (.ofKind .notFound)
    else .ok (f.put spot.loc (.link target))

/-- Marks a regular file as executable. -/
def makeExecutable (f : Files) (cwd : Location) (p : Path) : Except Fault Files := do
  let target ← f.place cwd true p
  match target.node with
  | none => .error (.ofKind .notFound)
  | some (.file data _) => .ok (f.put target.loc (.file data true))
  | some _ => .ok f

end Files

end Recompile

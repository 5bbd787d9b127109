import Recompile.Archive.Zip.Opening
import Recompile.ClassName
import Recompile.Toolchain.Error
import Recompile.Toolchain.Identity

/-!
# The classes of a toolchain

A toolchain is loaded from jars and class directories. `LoadingContext` says for every class which artifact
supplies it: the first one, in the order of the toolchain, that defines the class. All artifacts have to
exist before the first one is opened.
-/

namespace Recompile

/-- **The artifacts of a toolchain and the classes they define.** -/
structure LoadingContext where
  identity : ToolchainIdentity
  /-- For every class the position of the artifact that supplies it. -/
  classes : SortedMap String Nat

namespace LoadingContext

/-! ### The classes of one artifact -/

def isClassFile (h : Host) (p : Path) : Bool := h.isFile p && p.extension? == some "class"

def directoryClasses (h : Host) (artifact : Path) : Except ToolchainError (List String) :=
  match h.list artifact (isClassFile h) with
  | .error fault => .error (.archive artifact fault.text)
  | .ok files =>
    .ok (files.filterMap fun file => (Path.entryName? artifact file).bind ClassName.ofEntry?)

def archiveClasses (h : Host) (artifact : Path) : Except ToolchainError (List String) :=
  match Zip.openAt h artifact with
  | .ok members => .ok (members.filterMap fun m => ClassName.ofEntry? m.name)
  | .error (.file fault) =>
    -- a file that may have gone since it was looked for is a missing one
    .error (if fault.kind = .notFound ∨ fault.kind = .permissionDenied then .missing artifact
      else .archive artifact fault.text)
  | .error (.format reason) => .error (.archive artifact reason)

def artifactClasses (h : Host) (artifact : Path) : Except ToolchainError (List String) :=
  if h.isDir artifact then directoryClasses h artifact else archiveClasses h artifact

/-! ### The classes of all artifacts -/

/-- Enters classes that no earlier artifact supplies. -/
def enter (index : Nat) (classes : SortedMap String Nat) (names : List String) : SortedMap String Nat :=
  names.foldl (fun classes name => if classes.contains name then classes else classes.insert name index) classes

/-- The suppliers of all classes; `index` is the position of the first list. -/
def suppliers (index : Nat) (classes : SortedMap String Nat) : List (List String) → SortedMap String Nat
  | [] => classes
  -- a class stays with the first list that has it
  | names :: rest => suppliers (index + 1) (enter index classes names) rest

/-- The first artifact that does not exist. -/
def missing? (h : Host) (identity : ToolchainIdentity) : Option Path :=
  identity.artifacts.find? fun artifact => !h.exists? artifact

/-- **Reads the classes of a toolchain.** -/
def build (h : Host) (identity : ToolchainIdentity) : Except ToolchainError LoadingContext :=
  match missing? h identity with
  | some artifact => .error (.missing artifact)
  | none => do
    let names ← identity.artifacts.mapM (artifactClasses h)
    .ok ⟨identity, suppliers 0 ∅ names⟩

/-! ### Looking up a class -/

def defines (c : LoadingContext) (name : String) : Bool := c.classes.contains name

/-- The artifact that supplies a class. -/
def locate? (c : LoadingContext) (name : String) : Option Path :=
  (c.classes.get? name).bind fun index => c.identity.artifacts[index]?

def classCount (c : LoadingContext) : Nat := c.classes.size

end LoadingContext

end Recompile

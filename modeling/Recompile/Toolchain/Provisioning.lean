import Recompile.SingleFlight
import Recompile.Toolchain.LoadingContext
import Recompile.Toolchain.Version

/-!
# Provisioning toolchains

A build asks for the same toolchain once per module. A `Registry` keeps the loading context of every identity
it was asked for, so that its artifacts are read once; before a context is handed out the artifacts are
checked to be there still.
-/

namespace Recompile

/-- **The loading contexts that have been built.** -/
structure Registry where
  contexts : SingleFlight ToolchainIdentity LoadingContext := ∅
deriving Inhabited

/-- **A toolchain that is ready to be used.** -/
structure Toolchain where
  version : Version
  library : Path
  compiler : Path
  context : LoadingContext

namespace Toolchain

/-- The version as it was configured. -/
def versionText (t : Toolchain) : String := t.context.identity.version

/-- All jars in the order in which they are searched. -/
def jars (t : Toolchain) : List Path := t.context.identity.artifacts

end Toolchain

namespace Registry

def size (r : Registry) : Nat := r.contexts.size

def contains (r : Registry) (identity : ToolchainIdentity) : Bool := (r.contexts.get? identity).isSome

def clear (r : Registry) : Registry := ⟨r.contexts.clear⟩

/-- The short form of a registry. -/
def describe (r : Registry) : String := "LoadingContextRegistry \x7b contexts: " ++ toString r.size ++ " \x7d"

def getOrBuild (r : Registry) (identity : ToolchainIdentity) :
    StateM Host (Except ToolchainError LoadingContext × Registry) := do
  let (result, contexts) ← r.contexts.getOrInit identity (return LoadingContext.build (← get) identity)
  return (result, ⟨contexts⟩)

/-- **Provisions the context of an identity.** -/
def provision (r : Registry) (identity : ToolchainIdentity) :
    StateM Host (Except ToolchainError LoadingContext × Registry) := do
  match LoadingContext.missing? (← get) identity with
  -- the artifacts are looked for on every call, also for a context that is there
  | some artifact => return (.error (.missing artifact), r)
  | none =>
    if r.contains identity then
      modify fun h => h.logged (.debug "reusing loading context" [("toolchain", identity.display)])
    let (result, r) ← r.getOrBuild identity
    if let .ok context := result then
      modify fun h => h.logged (.debug "loading context ready"
        [("toolchain", identity.display), ("classes", toString context.classCount)])
    return (result, r)

/-- **Provisions the toolchain of a specification.** -/
def instance? (r : Registry) (spec : ToolchainSpec) :
    StateM Host (Except ToolchainError Toolchain × Registry) := do
  match Version.parse? spec.version with
  | none => return (.error (.invalidVersion spec.version), r)
  | some version =>
    -- the identity has the version as it was written, not as it was understood
    let identity := spec.identity
    modify fun h => h.logged (.info "provisioning compiler toolchain"
      [("version", spec.version), ("jars", toString identity.artifacts.length)])
    let (result, r) ← r.provision identity
    return (result.map fun context => ⟨version, spec.library, spec.compiler, context⟩, r)

end Registry

end Recompile

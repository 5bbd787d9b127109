import Recompile.Bridge.Artifact
import Recompile.Bridge.Error
import Recompile.Session

/-!
# Resolving artifacts

A bridge is built from its published sources, against the artifacts that these depend on. A `Resolver` finds
the file of an artifact and the artifacts that it depends on. `Repository` is the resolver of a directory of
artifacts. Such a directory knows nothing of dependencies, so they are declared with it; those that the
environment provides need not be there.
-/

namespace Recompile

/-- **An artifact with its file** and the scope in which it is needed. -/
structure ResolvedArtifact where
  artifact : Artifact
  path : Path
  scope : Scope

/-- **A way to find artifacts.** -/
structure Resolver (σ : Type) where
  /-- The file of an artifact. -/
  resolve : Artifact → Action (Session σ) BridgeError Path
  /-- An artifact and everything it depends on. -/
  closure : Artifact → Action (Session σ) BridgeError (List ResolvedArtifact)

/-- **A directory of artifacts** and the dependencies that are declared for all of them. -/
structure Repository where
  root : Path
  dependencies : List (Artifact × Scope) := []

namespace Repository

/-- The file of an artifact, which has to exist. -/
def resolve (r : Repository) (a : Artifact) : Action Host BridgeError Path := do
  let path := a.path r.root
  if (← get).isFile path then
    Host.report (.debug "resolved artifact" [("coordinate", a.display), ("path", path.spelling)])
    return path
  else throw (.resolution a.display (path.spelling ++ " does not exist"))

/-- The files of declared dependencies. -/
def resolveAll (r : Repository) : List (Artifact × Scope) → Action Host BridgeError (List ResolvedArtifact)
  | [] => return []
  | (a, scope) :: rest => do
    -- what the runtime provides need not be there
    let path ← if scope = .provided then pure (a.path r.root) else r.resolve a
    return ⟨a, path, scope⟩ :: (← resolveAll r rest)

/-- The file of an artifact, then those of the declared dependencies. -/
def closure (r : Repository) (a : Artifact) : Action Host BridgeError (List ResolvedArtifact) := do
  let path ← r.resolve a
  return ⟨a, path, .compile⟩ :: (← r.resolveAll r.dependencies)

def resolver {σ : Type} (r : Repository) : Resolver σ where
  resolve a := Session.onHost (r.resolve a)
  closure a := Session.onHost (r.closure a)

end Repository

end Recompile

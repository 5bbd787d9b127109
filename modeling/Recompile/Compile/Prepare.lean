import Recompile.Bridge.Cache
import Recompile.Compile.Error
import Recompile.CompileOrder
import Recompile.Engine.Compiler

/-!
# Preparing the compilers of a build

Before the first module is compiled the toolchain is provisioned and its bridge is made. Both are kept, the
one in the registry and the other on disk, so that preparing again costs little.
-/

namespace Recompile

/-- **What is shared by the modules of a build.** -/
structure Workshop where
  registry : Registry := {}
  cache : BridgeCache

/-- **Provisions a toolchain and makes its bridge.** -/
def Workshop.prepare {σ : Type} (w : Workshop) (tools : BridgeTools σ) (spec : ToolchainSpec)
    (coordinates : Coordinates) (order : CompileOrder) :
    StateM (Session σ) (Except CompileError Compilers × Workshop) := do
  let s ← get
  let ((toolchain, registry), host) := (w.registry.instance? spec).run s.host
  set { s with host }
  -- what was built so far stays in the workshop, whatever comes of the rest
  let w := { w with registry }
  match toolchain with
  | .error e => return (.error (.ofToolchain e), w)
  | .ok toolchain =>
    let (bridge, cache) ← w.cache.ensure tools toolchain coordinates (w.cache.keyFor toolchain coordinates)
    let w := { w with cache }
    match bridge with
    | .error e => return (.error (.ofBridge e), w)
    | .ok bridge =>
      modify fun s => { s with
        host := s.host.logged
          (.info ("Using incremental compilation using " ++ order.display ++ " compile order")) }
      return (.ok ⟨toolchain, bridge⟩, w)

end Recompile

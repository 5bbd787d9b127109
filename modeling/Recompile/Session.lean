import Recompile.Host

/-!
# A machine with a tool on it

Compilers are not part of this library. A compile or the construction of a bridge works with whatever
compiler it is given, as an action on the machine and on a state of the compiler's own. `Session` is the two
together; what a build itself does leaves the tool alone (`Session.onHost`).
-/

namespace Recompile

/-- **A machine and the state of a tool.** -/
structure Session (σ : Type) where
  host : Host
  tool : σ

namespace Session

variable {σ ε α : Type}

/-- A step on the machine alone. -/
def onHost (step : Action Host ε α) : Action (Session σ) ε α :=
  Action.onPart Session.host (fun host s => { s with host }) step

def onTool (step : σ → σ) : Action (Session σ) ε Unit := modify fun s => { s with tool := step s.tool }

end Session

end Recompile

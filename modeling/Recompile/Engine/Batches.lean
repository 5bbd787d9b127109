import Recompile.CompileOrder
import Recompile.Path

/-!
# The batches of a round

The sources of a round go to the compiler in one batch, or in two if one language comes first. The order
within a batch is that of the round.
-/

namespace Recompile

/-- Whether a source is written in Java. -/
def isJava (p : Path) : Bool := p.extension? == some "java"

/-- **The batches that are compiled one after another.** -/
def batches (sources : List Path) : CompileOrder → List (List Path)
  | .mixed => [sources]
  | .javaThenScala => [sources.filter isJava, sources.filter fun p => !isJava p]
  | .scalaThenJava => [sources.filter fun p => !isJava p, sources.filter isJava]

/-- The classpath entries that are not the output directory. -/
def externalClasspath (classpath : List Path) (output : Path) : List Path :=
  classpath.filter fun p => !(p == output)

end Recompile

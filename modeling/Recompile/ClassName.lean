/-!
# Class names and class files

The class `a.b.C` is defined by the file `a/b/C.class`. The two directions are inverse as far as they can be:
a class name holds no separator, and a file name with a dot in its stem belongs to a class name that another
file has as well.
-/

namespace Recompile

namespace ClassName

/-- The ending of class files. -/
def suffix : List Char := ".class".toList

def replace (old new : Char) (cs : List Char) : List Char := cs.map fun c => if c = old then new else c

def fileChars (name : List Char) : List Char := replace '.' '/' name ++ suffix

/-- The characters of the class that an entry defines. An entry without a stem defines none. -/
def ofEntryChars? (entry : List Char) : Option (List Char) :=
  if suffix.isSuffixOf entry then
    let stem := entry.take (entry.length - suffix.length)
    if stem = [] ∨ stem.getLast? = some '/' then none else some (replace '/' '.' stem)
  else none

/-- The class file of a class, relative to an output directory or as an entry of an archive. -/
def file (name : String) : String := String.ofList (fileChars name.toList)

/-- The class that an entry of an archive defines. -/
def ofEntry? (entry : String) : Option String := (ofEntryChars? entry.toList).map String.ofList

end ClassName

end Recompile

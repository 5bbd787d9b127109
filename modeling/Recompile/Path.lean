import Recompile.SortedMap

/-!
# Paths

A `Path` is written text: it is printed, joined and stored exactly as it was spelled. What it denotes is
its list of components (`Path.components`), in which repeated separators, separators at the end and `.`
segments leave no trace, a `.` at the front of a relative path excepted. All comparisons go by components,
so `a//b`, `a/./b` and `a/b/` are one key of a table, and `a/b` sorts before `a-b`.

The components of a path determine neither its spelling nor the file it leads to; the latter needs the
directory tree and is the business of `Recompile.Files`.
-/

namespace Recompile

/-- A path as it is spelled. -/
structure Path where
  /-- The text of the path. -/
  spelling : String
deriving Inhabited

namespace Path

/-- **One step of a path.** -/
inductive Component
  /-- The separator at the front of an absolute path. -/
  | root
  /-- A `.` at the front of a relative path. -/
  | here
  /-- The step `..` to the directory above. -/
  | up
  /-- The name of an entry. -/
  | name (s : String)
deriving DecidableEq, Repr

namespace Component

/-- The kinds of component in their order. -/
def rank : Component → Nat
  | root => 0
  | here => 1
  | up => 2
  | name _ => 3

def label : Component → String
  | name s => s
  | _ => ""

def text : Component → String
  | root => "/"
  | here => "."
  | up => ".."
  | name s => s

instance : Ord Component := ⟨compareLex (compareOn rank) (compareOn label)⟩

instance : Std.TransOrd Component :=
  inferInstanceAs (Std.TransCmp (compareLex (compareOn rank) (compareOn label)))

theorem eq_of_compare {a b : Component} (h : compare a b = .eq) : a = b := by
  have hb : compare a.rank b.rank = .eq ∧ compare a.label b.label = .eq := Ordering.then_eq_eq.mp h
  have hr : a.rank = b.rank := Std.LawfulEqCmp.eq_of_compare hb.1
  have hl : a.label = b.label := Std.LawfulEqCmp.eq_of_compare hb.2
  cases a <;> cases b <;> simp_all [rank, label]

instance : Std.LawfulEqOrd Component where
  eq_of_compare := eq_of_compare

end Component

/-! ### Components -/

/-- The component that a segment after the first stands for. -/
def Component.ofSegment? (segment : List Char) : Option Component :=
  if segment = [] ∨ segment = ['.'] then none
  else if segment = ['.', '.'] then some .up
  else some (.name (String.ofList segment))

def componentsOf (cs : List Char) : List Component :=
  match cs.splitOn '/' with
  | [] => []
  | first :: rest =>
    let front :=
      if first = [] ∧ rest ≠ [] then [Component.root]
      else if first = ['.'] then [Component.here]
      else (Component.ofSegment? first).toList
    front ++ rest.filterMap Component.ofSegment?

def components (p : Path) : List Component := componentsOf p.spelling.toList

instance : BEq Path := ⟨fun a b => a.components == b.components⟩

instance : Ord Path := ⟨compareOn components⟩

instance : Std.TransOrd Path := inferInstanceAs (Std.TransCmp (compareOn components))

/-- Paths compare as equal exactly when their components are the same. -/
theorem compare_eq_iff {a b : Path} : compare a b = .eq ↔ a.components = b.components := by
  change compare a.components b.components = .eq ↔ _
  simp

/-- Two paths are the same when their components are. -/
theorem beq_iff {a b : Path} : (a == b) = true ↔ a.components = b.components := by
  change (a.components == b.components) = true ↔ _
  exact beq_iff_eq

instance : ToString Path := ⟨spelling⟩

instance : Coe String Path := ⟨Path.mk⟩

/-! ### Joining -/

/-- Whether a path starts at the root of the directory tree. -/
def isAbsolute (p : Path) : Bool := p.spelling.toList.head? == some '/'

/-- A path followed from another one. An absolute path is not affected by where it is followed from. -/
def join (base p : Path) : Path :=
  if p.isAbsolute then p
  else
    let front := base.spelling.toList
    if front = [] ∨ front.getLast? = some '/' then ⟨base.spelling ++ p.spelling⟩
    else ⟨base.spelling ++ "/" ++ p.spelling⟩

instance : Div Path := ⟨join⟩

/-! ### Parts of a path -/

/-- Whether a segment after the first is no component. -/
def isVoid (segment : List Char) : Bool := segment.isEmpty || segment == ['.']

/-- Splits a spelling into the mark at its front, which is the root, a leading `.` or nothing, and the
segments after it. -/
def markAndBody (cs : List Char) : List Char × List (List Char) :=
  match cs with
  | '/' :: rest => (['/'], rest.splitOn '/')
  | ['.'] => (['.'], [])
  | '.' :: '/' :: rest => (['.'], [] :: rest.splitOn '/')
  | cs => ([], cs.splitOn '/')

/-- **The path without its last component,** spelled as it was up to there. There is none for the root and
for the empty path. -/
def parent? (p : Path) : Option Path :=
  let (mark, body) := markAndBody p.spelling.toList
  match body.reverse.dropWhile isVoid with
  | _ :: before =>
    some ⟨String.ofList (mark ++ ['/'].intercalate (before.dropWhile isVoid).reverse)⟩
  | [] => if mark = ['.'] then some ⟨""⟩ else none

/-- The last component, if it is a name. -/
def fileName? (p : Path) : Option String :=
  match p.components.getLast? with
  | some (.name s) => some s
  | _ => none

/-- Cuts a file name at its last dot, unless that is its first character. -/
def cutAtDot (name : String) : String × Option String :=
  match name.toList.reverse.span (· != '.') with
  | (_, []) => (name, none)
  | (_, [_]) => (name, none)
  | (after, _ :: before) => (String.ofList before.reverse, some (String.ofList after.reverse))

/-- The part of the file name after its last dot. -/
def extension? (p : Path) : Option String := p.fileName?.bind fun n => (cutAtDot n).2

def fileStem? (p : Path) : Option String := p.fileName?.map fun n => (cutAtDot n).1

/-- The components of a path after those of a root that it starts with. -/
def componentsBelow? : (root path : List Component) → Option (List Component)
  | [], path => some path
  | _ :: _, [] => none
  | r :: root, c :: path => if r = c then componentsBelow? root path else none

/-- **The name of an archive entry** for a path below a root: the components after the root, joined by `/`.
The root itself has no name. -/
def entryName? (root path : Path) : Option String :=
  match componentsBelow? root.components path.components with
  | none | some [] => none
  | some below => some ("/".intercalate (below.map Component.text))

end Path

end Recompile

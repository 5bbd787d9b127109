import Recompile.Analysis.Lookup

/-!
# Fingerprints of classes on the classpath

The fingerprint of a class of another module is the digest of its API if the analysis of the module is there,
and the digest of its class file otherwise. Entries are searched in their order, and each first by its
analysis and then by its files (`Classpath.search?`). A `Classpath` remembers what it was asked for, also
what it did not find.
-/

namespace Recompile

/-- An entry of the classpath with what was read of it. -/
structure ClasspathEntry where
  path : Path
  analysis : Option Analysis
  files : ClassFiles

def ClasspathEntry.fingerprint? (h : Host) (name : String) (e : ClasspathEntry) : Option Digest :=
  match e.analysis.bind fun a => a.api? name with
  -- a class that an analysis knows is told by its API, the others by their files
  | some api => some api
  | none => e.files.fingerprint? h name

/-- **The entries of a classpath,** and the answers so far. -/
structure Classpath where
  entries : List ClasspathEntry
  resolved : SortedMap String (Option Digest) := ∅

namespace Classpath

/-- The fingerprint of a class by the first entry that has one. -/
def search? (h : Host) (name : String) (entries : List ClasspathEntry) : Option Digest :=
  entries.findSome? (ClasspathEntry.fingerprint? h name)

/-- **The fingerprint of a class,** and the classpath that remembers it. -/
def fingerprint (h : Host) (name : String) (c : Classpath) : Option Digest × Classpath :=
  match c.resolved.get? name with
  | some known => (known, c)
  | none =>
    let found := search? h name c.entries
    (found, { c with resolved := c.resolved.insert name found })

def readEntries {ε : Type} : Lookup → List Path → Action Host ε (List ClasspathEntry × Lookup)
  | l, [] => return ([], l)
  | l, path :: rest => do
    -- the analyses are read in the order of the entries, each of them once
    let (analysis, l) ← l.analysis path
    let files ← ClassFiles.ofEntry path
    let (entries, l) ← readEntries l rest
    return (⟨path, analysis, files⟩ :: entries, l)

/-- The classpath with the given entries, and the look-up after reading them. -/
def ofPaths {ε : Type} (l : Lookup) (paths : List Path) : Action Host ε (Classpath × Lookup) := do
  let (entries, l) ← readEntries l paths
  return ({ entries }, l)

end Classpath

end Recompile

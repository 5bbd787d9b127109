import Recompile.Analysis.Lookup

/-!
# Looking into stores

What the program prints about a store and about entries of the classpath.
-/

namespace Recompile

namespace CommandLine

def unlines (ls : List String) : String := String.join (ls.map fun l => l ++ "\n")

/-- The options of a compiler under a heading, if there are any. -/
def optionLines (heading : String) (options : List String) : List String :=
  if options.isEmpty then [] else [heading ++ " ".intercalate options]

/-- The sources of an analysis with the classes that they define. -/
def sourceLines (a : Analysis) : List String :=
  a.sources.entries.flatMap fun (path, info) =>
    (info.digest.toHex ++ "  " ++ path.spelling) :: info.classes.toList.map fun name => "    " ++ name

/-- **The summary of a store.** -/
def summary (c : Contents) (sources : Bool) : String :=
  unlines <|
    ["output:    " ++ c.setup.output.spelling, "compiler:  " ++ c.setup.compiler,
      "order:     " ++ c.setup.order.display]
    ++ optionLines "scalac:    " c.setup.scalacOptions ++ optionLines "javac:     " c.setup.javacOptions
    ++ ["sources:   " ++ toString c.analysis.sources.size, "classes:   " ++ toString c.analysis.classes.size]
    ++ if sources then sourceLines c.analysis else []

def kindName : EntryKind → String
  | .directory => "directory"
  | .archive => "archive"
  | .missing => "missing"

/-- **What is known of an entry of the classpath,** and whether it defines a class if one is asked for. -/
def describeEntry (l : Lookup) (entry : Path) (className : Option String) : StateM Host (String × Lookup) := do
  let kind := EntryKind.ofPath (← get) entry
  let (analysis, l) ← total (l.analysis entry)
  let known := match analysis with
    | some a => "analysis with " ++ toString a.sources.size ++ " sources"
    | none => "no analysis"
  let line := entry.spelling ++ ": " ++ kindName kind ++ ", " ++ known
  match className with
  | none => return (line, l)
  | some name =>
    let files ← total (ClassFiles.ofEntry entry)
    let verb := if files.defines (← get) name then "defines " else "does not define "
    return (line ++ ", " ++ verb ++ name, l)
where
  /-- A step that cannot fail. -/
  total {α : Type} (step : Action Host Empty α) : StateM Host α := do
    match ← step.run with
    | .ok x => return x
    | .error e => nomatch e

def describeEntries (className : Option String) : List Path → Lookup → StateM Host (List String)
  | [], _ => return []
  | entry :: rest, l => do
    let (line, l) ← describeEntry l entry className
    return line :: (← describeEntries className rest l)

end CommandLine

end Recompile

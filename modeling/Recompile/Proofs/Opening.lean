import Recompile.Engine.Invalidation
import Recompile.Proofs.Action
import Recompile.Proofs.Table

/-!
# Opening a classpath

The engine opens the classpath once and asks it for classes while it compiles. Opening it reads stores and archives and
leaves nothing behind but events in the log (`Classpath.reads_ofPaths`), so what a newly opened classpath answers
is a function of the machine: `Classpath.answer`. A classpath that remembers such answers only (`Classpath.Faithful`)
goes on answering them, and a source of which the record agrees with them is not stale
(`Engine.yields_addStale_of_fresh`).
-/

namespace Recompile

open Recompile.Action

/-! ### Opening the classpath -/

/-- What loading a store finds on a machine. -/
def Store.loaded (path : Path) (h : Host) : Except AnalysisError (Option Contents) :=
  match h.read path with
  | .error fault => if fault.kind = .notFound then .ok none else .error (.file path fault)
  | .ok file =>
    match decode file with
    | .error damage => .error (.corrupt path damage.message)
    | .ok c => .ok (some c)

theorem Store.reads_load (path : Path) (h : Host) : Reads (load path) h (loaded path h) := by
  unfold load
  refine reads_get_bind (fun _ => rfl) ?_
  unfold loaded
  cases h.read path with
  | error fault =>
    -- a store that is not there counts as empty
    dsimp only
    split
    · exact (reads_report _ h).bind (reads_pure _ h)
    · exact reads_throw _ h
  | ok file =>
    dsimp only
    cases decode file with
    | error damage => exact reads_throw _ h
    | ok c => exact (reads_report _ h).bind (reads_pure _ h)

variable {ε : Type}

/-- **The analysis of an output directory** on a machine. There is none if the directory or its store is not there, or if
the store cannot be read. -/
def Lookup.stored (layout : Layout) (h : Host) (entry : Path) : Option Analysis :=
  if h.isDir entry then
    match layout.store? entry with
    | none => none
    | some store =>
      match Store.loaded store h with
      | .ok contents? => contents?.map Contents.analysis
      | .error _ => none
  else none

theorem Lookup.reads_readAnalysis (layout : Layout) (entry : Path) (h : Host) :
    Reads (readAnalysis layout entry : Action Host ε _) h (.ok (stored layout h entry)) := by
  unfold readAnalysis
  refine reads_get_bind (fun _ => rfl) ?_
  unfold stored
  cases h.isDir entry with
  | false => exact reads_pure _ h
  | true =>
    cases layout.store? entry with
    | none => exact reads_pure _ h
    | some store =>
      have hload := (Store.reads_load store h).outcome (δ := ε)
      dsimp only [if_true]
      cases hfound : Store.loaded store h with
      | ok contents => exact (hfound ▸ hload).bind (reads_pure _ h)
      | error e => exact (hfound ▸ hload).bind ((reads_report _ h).bind (reads_pure _ h))

/-- The analysis that a look-up gives for an entry: what it remembers, or else what is stored. -/
def Lookup.given (l : Lookup) (h : Host) (entry : Path) : Option Analysis :=
  (l.loaded.get? entry).getD (stored l.layout h entry)

/-- A look-up after it was asked for an entry. -/
def Lookup.asked (l : Lookup) (h : Host) (entry : Path) : Lookup :=
  match l.loaded.get? entry with
  | some _ => l
  | none => { l with loaded := l.loaded.insert entry (stored l.layout h entry) }

theorem Lookup.reads_analysis (l : Lookup) (entry : Path) (h : Host) :
    Reads (l.analysis entry : Action Host ε _) h (.ok (l.given h entry, l.asked h entry)) := by
  unfold analysis given asked
  cases l.loaded.get? entry with
  | some known => exact reads_pure _ h
  | none => exact (reads_readAnalysis l.layout entry h).bind (reads_pure _ h)

/-- **Asking for an entry** changes what a look-up gives for other spellings of the entry, and nothing else. -/
theorem Lookup.given_asked (l : Lookup) (h : Host) (entry other : Path) :
    (l.asked h entry).given h other = l.given h (if entry == other then entry else other) := by
  have hsame : compare other entry = .eq ↔ (entry == other) = true := by rw [Path.compare_eq_iff_beq, BEq.comm]
  unfold given asked
  -- an entry that was asked before stays as it is, and any other one is added under the spelling that is asked
  cases hknown : l.loaded.get? entry with
  | some known =>
    dsimp only
    split
    next heq => rw [SortedMap.get?_congr _ (hsame.2 heq), hknown, Option.getD_some, Option.getD_some]
    next => rfl
  | none =>
    dsimp only
    rw [SortedMap.get?_insert]
    by_cases heq : (entry == other) = true
    · rw [if_pos (hsame.2 heq), if_pos heq, hknown]
      rfl
    · rw [if_neg fun h => heq (hsame.1 h), if_neg heq]

/-- The class files of the entry at a path. -/
def ClassFiles.found (h : Host) (entry : Path) : ClassFiles :=
  match EntryKind.ofPath h entry with
  | .directory => directory entry
  | .archive =>
    match Zip.openAt? h entry with
    | some ms => archive entry (SortedSet.ofList (ms.map Zip.Member.name))
    | none => nothing
  | .missing => nothing

theorem ClassFiles.reads_ofEntry (entry : Path) (h : Host) :
    Reads (ofEntry entry : Action Host ε _) h (.ok (found h entry)) := by
  unfold ofEntry
  refine reads_get_bind (fun _ => rfl) ?_
  unfold found
  cases EntryKind.ofPath h entry with
  | directory => exact reads_pure _ h
  | missing => exact reads_pure _ h
  | archive =>
    dsimp only
    cases Zip.openAt? h entry with
    | some ms => exact reads_pure _ h
    | none => exact (reads_report _ h).bind (reads_pure _ h)

namespace Classpath

/-- How a path is spelled where it comes first among some paths. A look-up does not tell the spellings of a path apart, so
this is the one by which it reads the analysis. -/
def firstSpelling (paths : List Path) (p : Path) : Path := (paths.find? (· == p)).getD p

theorem firstSpelling_cons (path : Path) (rest : List Path) (p : Path) :
    firstSpelling (path :: rest) p = if path == p then path else firstSpelling rest p := by
  unfold firstSpelling
  rw [List.find?_cons]
  split <;> simp_all

theorem firstSpelling_beq (paths : List Path) (p : Path) : (firstSpelling paths p == p) = true := by
  unfold firstSpelling
  cases hfind : paths.find? (· == p) with
  | none => exact BEq.rfl
  | some q => exact List.find?_some (p := fun q => q == p) hfind

/-- The entry at a path of a classpath. -/
def entryAt (l : Lookup) (h : Host) (paths : List Path) (p : Path) : ClasspathEntry :=
  ⟨p, l.given h (firstSpelling paths p), ClassFiles.found h p⟩

/-- What the first path has to do with those behind it. -/
theorem given_asked_firstSpelling (l : Lookup) (h : Host) (path : Path) (rest : List Path) (p : Path) :
    (l.asked h path).given h (firstSpelling rest p) = l.given h (firstSpelling (path :: rest) p) := by
  rw [Lookup.given_asked, firstSpelling_cons, BEq.congr_right (firstSpelling_beq rest p)]

/-- **Reading the entries of a classpath.** -/
theorem reads_readEntries (l : Lookup) (paths : List Path) (h : Host) :
    Reads (readEntries l paths : Action Host ε _) h (.ok (paths.map (entryAt l h paths), paths.foldl (Lookup.asked · h) l)) := by
  induction paths generalizing l with
  | nil => exact reads_pure _ h
  | cons path rest ih =>
    have hfirst : entryAt l h (path :: rest) path = ⟨path, l.given h path, ClassFiles.found h path⟩ := by
      rw [entryAt, firstSpelling_cons, if_pos BEq.rfl]
    have hrest : rest.map (entryAt (l.asked h path) h rest) = rest.map (entryAt l h (path :: rest)) := by
      refine List.map_congr_left fun p _ => ?_
      rw [entryAt, entryAt, given_asked_firstSpelling]
    have hread := ih (l.asked h path)
    rw [hrest] at hread
    rw [List.map_cons, List.foldl_cons, hfirst]
    exact (Lookup.reads_analysis l path h).bind ((ClassFiles.reads_ofEntry path h).bind (hread.bind (reads_pure _ h)))

/-- Opening a classpath is reading, and succeeds. -/
theorem reads_ofPaths (l : Lookup) (paths : List Path) (h : Host) :
    Reads (ofPaths l paths : Action Host ε _) h
      (.ok ({ entries := paths.map (entryAt l h paths) }, paths.foldl (Lookup.asked · h) l)) :=
  (reads_readEntries l paths h).bind (reads_pure _ h)

theorem exists_reads_ofPaths (l : Lookup) (paths : List Path) (h : Host) :
    ∃ c, Reads (ofPaths l paths : Action Host ε _) h (.ok c) := ⟨_, reads_ofPaths l paths h⟩

/-- **The fingerprint that a classpath gives a class** if it is opened on a machine to look for the class. -/
def answer (l : Lookup) (paths : List Path) (h : Host) (name : String) : Option Digest :=
  match ((ofPaths l paths : Action Host EngineError _).run.run h).run.1 with
  | .ok (c, _) => search? h name c.entries
  | .error _ => none

theorem answer_eq {l l' : Lookup} {paths : List Path} {h : Host} {c : Classpath}
    (hopen : Reads (ofPaths l paths : Action Host EngineError _) h (.ok (c, l'))) (name : String) :
    answer l paths h name = search? h name c.entries := by
  obtain ⟨log, hrun⟩ := hopen h.log
  simp [answer, hrun]

/-- What was logged has no part in the answers. -/
theorem answer_log (l : Lookup) (paths : List Path) (h : Host) (log : Array Event) (name : String) :
    answer l paths { h with log } name = answer l paths h name := by
  obtain ⟨⟨c, l'⟩, hopen⟩ := exists_reads_ofPaths (ε := EngineError) l paths h
  have hopen' : Reads (ofPaths l paths : Action Host EngineError _) { h with log } (.ok (c, l')) := hopen
  rw [answer_eq hopen, answer_eq hopen']
  rfl

/-! ### Asking again -/

/-- Whether a classpath remembers nothing but what its entries answer. -/
def Faithful (c : Classpath) (h : Host) : Prop :=
  ∀ name found, c.resolved.get? name = some found → found = search? h name c.entries

variable {h : Host} {c : Classpath}

theorem faithful_of_unasked (hc : c.resolved = ∅) : c.Faithful h := by
  intro name found hfound
  rw [hc] at hfound
  simp at hfound

/-- A faithful classpath answers what its entries answer, and stays faithful. -/
theorem Faithful.fingerprint (hc : c.Faithful h) (name : String) :
    ∃ c', c.fingerprint h name = (search? h name c.entries, c') ∧ c'.entries = c.entries ∧ c'.Faithful h := by
  unfold Classpath.fingerprint
  cases hknown : c.resolved.get? name with
  | some known => exact ⟨c, by rw [hc name known hknown], rfl, hc⟩
  | none =>
    refine ⟨_, rfl, rfl, fun other found hfound => ?_⟩
    rw [SortedMap.get?_insert] at hfound
    split at hfound
    next hsame =>
      obtain rfl : other = name := Std.LawfulEqCmp.eq_of_compare hsame
      exact (Option.some.inj hfound).symm
    next => exact hc other found hfound

end Classpath

namespace Engine

variable {h : Host} {c : Classpath}

/-- The search in one record finds nothing if the classpath answers what is recorded. -/
theorem staleClass_of_fresh {deps : List (String × Digest)} (hc : c.Faithful h)
    (hfresh : ∀ e ∈ deps, Classpath.search? h e.1 c.entries = some e.2) :
    ∃ c', staleClass h deps c = (none, c') ∧ c'.entries = c.entries ∧ c'.Faithful h := by
  induction deps generalizing c with
  | nil => exact ⟨c, rfl, rfl, hc⟩
  | cons e rest ih =>
    obtain ⟨name, recorded⟩ := e
    obtain ⟨c₁, hfp, hentries, hc₁⟩ := hc.fingerprint name
    have hname : Classpath.search? h name c.entries = some recorded := hfresh _ List.mem_cons_self
    obtain ⟨c₂, hrest, hentries₂, hc₂⟩ := ih hc₁ fun e he => by
      rw [hentries]
      exact hfresh e (List.mem_cons_of_mem _ he)
    refine ⟨c₂, ?_, hentries₂.trans hentries, hc₂⟩
    simp only [staleClass, hfp, hname, if_pos]
    exact hrest

/-- The search for stale sources adds none if the classpath answers what is recorded. -/
theorem yields_addStale_of_fresh (current : SortedMap Path Digest) {records : List (Path × SourceInfo)}
    (invalid : SortedSet Path) (hc : c.Faithful h)
    (hfresh : ∀ e ∈ records, ∀ dep ∈ e.2.binaryDeps.entries, Classpath.search? h dep.1 c.entries = some dep.2) :
    ∃ c', (addStale current records invalid c : Action Host EngineError _).Yields h (invalid, c') h := by
  induction records generalizing c with
  | nil => exact ⟨c, Action.yields_pure.2 ⟨rfl, rfl⟩⟩
  | cons e rest ih =>
    obtain ⟨path, info⟩ := e
    have hrest : ∀ e ∈ rest, ∀ dep ∈ e.2.binaryDeps.entries, Classpath.search? h dep.1 c.entries = some dep.2 :=
      fun e he => hfresh e (List.mem_cons_of_mem _ he)
    simp only [addStale]
    split
    · exact ih hc hrest
    · -- the record is searched without a result, and the classpath has the same entries behind it
      obtain ⟨c₁, hstale, hentries, hc₁⟩ := staleClass_of_fresh hc (hfresh _ List.mem_cons_self)
      obtain ⟨c₂, hrun⟩ := ih hc₁ (by rwa [hentries])
      refine ⟨c₂, Action.yields_bind.2 ⟨h, h, Action.yields_get.2 ⟨rfl, rfl⟩, ?_⟩⟩
      rw [hstale]
      exact hrun

end Engine

end Recompile

import Recompile.Compile.Module
import Recompile.Proofs.Codec
import Recompile.Proofs.Opening
import Recompile.Proofs.Place
import Recompile.Proofs.Trace

/-!
# Runs of a compile

A compile of a module loads the store, makes the output directory, runs the engine and commits the analysis.
`Module.yields_compile` takes a successful compile apart into these steps, and says for each of them what it leaves
behind; `Module.engineRun` is the part of it that the engine takes. The store is what ties one compile to the next: what
was committed is loaded again as it was (`Store.loaded_of_read`).
-/

namespace Recompile

/-! ### Stores -/

theorem Host.yields_writeAtomically {ε : Type} {wrap : Fault → ε} {p : Path} {data : Bytes} {h h' : Host} {u : Unit} :
    (Host.writeAtomically wrap p data).Yields h u h' ↔
      (h.files.makeDirAll h.cwd (stagingDir p)).1 = .ok () ∧
      ∃ files, (h.files.makeDirAll h.cwd (stagingDir p)).2.replace h.cwd p data = .ok files ∧
        h' = { h with files } := by
  unfold writeAtomically
  rw [Action.yields_bind]
  simp only [Host.yields_makeDirAll]
  generalize h.files.makeDirAll h.cwd (stagingDir p) = made
  constructor
  · rintro ⟨_, _, ⟨hdir, rfl⟩, hchange⟩
    obtain ⟨files, hreplace, rfl⟩ := Host.yields_change.1 hchange
    exact ⟨hdir, files, hreplace, rfl⟩
  · rintro ⟨hdir, files, hreplace, rfl⟩
    exact ⟨(), _, ⟨hdir, rfl⟩, Host.yields_change.2 ⟨files, hreplace, rfl⟩⟩

/-- A file that holds the data already, and to which the path leads, is written once more. -/
theorem Host.yields_writeAtomically_again {ε : Type} {wrap : Fault → ε} {p : Path} {data : Bytes} {h : Host}
    {loc : Location} (hname : Files.EndsInName p)
    (hplace : ∀ follow, h.files.place h.cwd follow p = .ok ⟨loc, some (.file data false)⟩) :
    (Host.writeAtomically wrap p data).Yields h () { h with files := h.files.put loc (.file data false) } := by
  have hmake := Files.makeDirAll_of_isDir (Files.isDir_stagingDir (hplace true))
  refine yields_writeAtomically.2 ⟨by rw [hmake], _, ?_, rfl⟩
  rw [hmake]
  exact Files.replace_eq_ok_iff.2 ⟨hname, loc, _, hplace false, by simp, rfl⟩

namespace Store

/-- A store is replaced in a directory that is made for it. -/
theorem yields_commit {path : Path} {c : Contents} {h h' : Host} {u : Unit} :
    (commit path c).Yields h u h' ↔
      (h.files.makeDirAll h.cwd (Host.stagingDir path)).1 = .ok () ∧
      ∃ files, (h.files.makeDirAll h.cwd (Host.stagingDir path)).2.replace h.cwd path (encode c) = .ok files ∧
        h' = { h with files }.logged (.debug "committed analysis" [("store", path.spelling)]) := by
  unfold commit
  rw [Action.yields_bind]
  constructor
  · rintro ⟨_, h₁, hwrite, hreport⟩
    obtain ⟨hdir, files, hreplace, rfl⟩ := Host.yields_writeAtomically.1 hwrite
    exact ⟨hdir, files, hreplace, Host.yields_report.1 hreport⟩
  · rintro ⟨hdir, files, hreplace, hreport⟩
    exact ⟨(), _, Host.yields_writeAtomically.2 ⟨hdir, files, hreplace, rfl⟩, Host.yields_report.2 hreport⟩

/-- What is in the store already can be committed again, and everything stays where it is. -/
theorem yields_commit_again {path : Path} {c : Contents} {h : Host} {loc : Location} (hname : Files.EndsInName path)
    (hplace : ∀ follow, h.files.place h.cwd follow path = .ok ⟨loc, some (.file (encode c) false)⟩) :
    ∃ files, h.files.KeptIn files ∧ (commit path c).Yields h ()
      ({ h with files }.logged (.debug "committed analysis" [("store", path.spelling)])) := by
  obtain ⟨hloc, hnode⟩ := (Files.place_end (hplace true)).resolve_left (by simp)
  refine ⟨h.files.put loc (.file (encode c) false), Files.keptIn_put_same hloc hnode.symm, ?_⟩
  exact Action.yields_bind.2 ⟨(), _, Host.yields_writeAtomically_again hname hplace, Host.yields_report.2 rfl⟩

/-- After a commit the path of the store leads to what was written, or the store is in its way. -/
theorem read_of_commit {path : Path} {c : Contents} {h h' : Host} {u : Unit} (hrun : (commit path c).Yields h u h') :
    h'.read path = .ok (encode c) ∨ h'.read path = .error (.ofKind .notADirectory) := by
  obtain ⟨-, files, hreplace, rfl⟩ := yields_commit.1 hrun
  obtain ⟨-, loc, hplace⟩ := Files.place_of_replace hreplace
  rcases hplace true with hfound | hrefused
  · exact Or.inl (Files.read_eq_ok_iff.2 ⟨loc, false, hfound⟩)
  · refine Or.inr ?_
    change files.read h.cwd path = _
    unfold Files.read Files.lookup
    rw [hrefused]
    rfl

/-- A store that is a file after a commit is the one that was written, and its path leads to it whether a link at the end
is followed or not. -/
theorem exists_place_of_commit {path : Path} {c : Contents} {h h' : Host} {u : Unit}
    (hrun : (commit path c).Yields h u h') (hfile : h'.isFile path = true) :
    Files.EndsInName path ∧ ∃ loc, ∀ follow, h'.files.place h'.cwd follow path =
      .ok ⟨loc, some (.file (encode c) false)⟩ := by
  obtain ⟨-, files, hreplace, rfl⟩ := yields_commit.1 hrun
  obtain ⟨hname, loc, hplace⟩ := Files.place_of_replace hreplace
  obtain ⟨loc', data, executable, hfound⟩ := Files.isFile_iff.1 hfile
  obtain ⟨loc'', node, hlast⟩ := Files.exists_place_false hfound
  refine ⟨hname, loc, fun follow => ?_⟩
  cases follow with
  | true => exact (hplace true).resolve_right fun hrefused => by simpa using hfound.symm.trans hrefused
  | false => exact (hplace false).resolve_right fun hrefused => by simpa using hlast.symm.trans hrefused

/-- What was loaded is what the file says. -/
theorem exists_read_of_loaded {path : Path} {c : Contents} {h : Host} (hload : loaded path h = .ok (some c)) :
    ∃ data, h.read path = .ok data ∧ decode data = .ok c := by
  unfold loaded at hload
  cases hread : h.read path with
  -- a store that is missing has no contents, and one that cannot be read is an error
  | error fault =>
    rw [hread] at hload
    dsimp only at hload
    split at hload <;> simp at hload
  | ok data =>
    rw [hread] at hload
    dsimp only at hload
    split at hload
    · simp at hload
    next hdecode => exact ⟨data, rfl, by rw [hdecode, Option.some.inj (Except.ok.inj hload)]⟩

/-- A store that was committed is loaded as it was committed. -/
theorem loaded_of_read {path : Path} {c : Contents} {h : Host} (hread : h.read path = .ok (encode c))
    (hsmall : (encode c).length < Codec.maxLength) : loaded path h = .ok (some c) := by
  simp [loaded, hread, decode_encode hsmall]

/-- A store that can be loaded can be read, or there is none. -/
theorem read_of_loaded {path : Path} {previous : Option Contents} {h : Host} (hload : loaded path h = .ok previous) :
    (∃ data, h.read path = .ok data) ∨ ∃ fault, h.read path = .error fault ∧ fault.kind = .notFound := by
  unfold loaded at hload
  cases hread : h.read path with
  | ok data => exact Or.inl ⟨data, rfl⟩
  | error fault =>
    rw [hread] at hload
    dsimp only at hload
    split at hload
    next hkind => exact Or.inr ⟨fault, rfl, hkind⟩
    next => simp at hload

end Store

/-! ### The parts of a compile -/

namespace Module

variable {σ : Type} {m : Module} {compiler : SourceCompiler σ} {t : CompileTask}

/-- The machine with the output directory of a task made. -/
def opened (t : CompileTask) (h : Host) : Host := { h with files := (h.files.makeDirAll h.cwd t.output).2 }

/-- Before the engine starts the store is loaded and the output directory made. -/
theorem of_yields_begin {h h' : Host} {previous : Option Contents} (hrun : (m.begin t).Yields h previous h') :
    Store.loaded m.store h = .ok previous ∧ (h.files.makeDirAll h.cwd t.output).1 = .ok () ∧
      ∃ log, h' = { opened t h with log } := by
  unfold begin at hrun
  obtain ⟨found, h₁, hload, hrun⟩ := Action.yields_bind.1 hrun
  obtain ⟨hfound, log, rfl⟩ := (Store.reads_load m.store h).eq_of_yields (Action.yields_mapFailure.1 hload)
  obtain ⟨_, h₂, hmake, hrun⟩ := Action.yields_bind.1 hrun
  obtain ⟨hmade, rfl⟩ := Host.yields_makeDirAll.1 hmake
  obtain ⟨_, h₃, hreport, hrun⟩ := Action.yields_bind.1 hrun
  obtain ⟨rfl, rfl⟩ := Action.yields_pure.1 hrun
  obtain rfl := Host.yields_report.1 hreport
  exact ⟨hfound, hmade, _, rfl⟩

theorem yields_begin {h : Host} {previous : Option Contents} (hload : Store.loaded m.store h = .ok previous)
    (hmade : (h.files.makeDirAll h.cwd t.output).1 = .ok ()) :
    ∃ log, (m.begin t).Yields h previous { opened t h with log } := by
  have hreads := Store.reads_load m.store h
  rw [hload] at hreads
  obtain ⟨log, hloaded⟩ := hreads.yields
  suffices hrun : (m.begin t).Yields h previous ({ opened t h with log }.logged (m.started t previous)) from ⟨_, hrun⟩
  unfold begin opened
  refine Action.yields_bind.2 ⟨_, _, Action.yields_mapFailure.2 hloaded, ?_⟩
  refine Action.yields_bind.2 ⟨(), _, Host.yields_makeDirAll.2 ⟨hmade, rfl⟩, ?_⟩
  exact Action.yields_bind.2 ⟨(), _, Host.yields_report.2 rfl, Action.yields_pure.2 ⟨rfl, rfl⟩⟩

/-- After the engine a compile succeeds if the engine did and the analysis can be committed. -/
theorem yields_conclude {result : Except EngineError EngineOutput} {state : EngineState σ} {s s' : Session σ}
    {outcome : CompileOutcome} :
    (m.conclude (result, state)).Yields s outcome s' ↔ ∃ out, result = .ok out ∧
      outcome = ⟨state.sink.stored, out.recompiled, out.analysis⟩ ∧
      ∃ h, (Store.commit m.store ⟨out.analysis, out.setup⟩).Yields state.session.host () h ∧
        s' = { state.session with host := h.logged (.info "compilation succeeded"
          [("recompiled", toString out.recompiled.length), ("warnings", toString state.sink.warnings)]) } := by
  cases result with
  | error e =>
    simp only [conclude, reduceCtorEq, false_and, exists_false, iff_false]
    intro hrun
    obtain ⟨_, _, -, hrun⟩ := Action.yields_bind.1 hrun
    obtain ⟨_, _, -, hrun⟩ := Action.yields_bind.1 hrun
    exact Action.not_yields_throw hrun
  | ok out =>
    simp only [conclude, Except.ok.injEq, exists_eq_left']
    constructor
    · intro hrun
      -- set the session, commit, report, return
      obtain ⟨_, s₁, hset, hrun⟩ := Action.yields_bind.1 hrun
      obtain rfl := Action.yields_set.1 hset
      obtain ⟨_, s₂, hcommit, hrun⟩ := Action.yields_bind.1 hrun
      obtain ⟨h, hstore, rfl⟩ := Session.yields_onHost.1 hcommit
      obtain ⟨_, s₃, hreport, hrun⟩ := Action.yields_bind.1 hrun
      obtain ⟨_, hlogged, rfl⟩ := Session.yields_onHost.1 hreport
      obtain rfl := Host.yields_report.1 hlogged
      obtain ⟨rfl, rfl⟩ := Action.yields_pure.1 hrun
      exact ⟨rfl, h, Action.yields_mapFailure.1 hstore, rfl⟩
    · rintro ⟨rfl, h, hcommit, rfl⟩
      refine Action.yields_bind.2 ⟨(), _, Action.yields_set.2 rfl, ?_⟩
      refine Action.yields_bind.2 ⟨(), _, Session.yields_onHost.2 ⟨h, Action.yields_mapFailure.2 hcommit, rfl⟩, ?_⟩
      refine Action.yields_bind.2 ⟨(), _, Session.yields_onHost.2 ⟨_, Host.yields_report.2 rfl, rfl⟩, ?_⟩
      exact Action.yields_pure.2 ⟨rfl, rfl⟩

/-- A compile succeeds if the engine does and the analysis can be committed. -/
theorem yields_compile {s s' : Session σ} {outcome : CompileOutcome} :
    (m.compile compiler t).Yields s outcome s' ↔ ∃ previous begun out state,
      (m.begin t).Yields s.host previous begun ∧
      (Engine.compile compiler (m.inputs t previous)).Yields (m.engineState { s with host := begun }) out state ∧
      outcome = ⟨state.sink.stored, out.recompiled, out.analysis⟩ ∧
      ∃ h, (Store.commit m.store ⟨out.analysis, out.setup⟩).Yields state.session.host () h ∧
        s' = { state.session with host := h.logged (.info "compilation succeeded"
          [("recompiled", toString out.recompiled.length), ("warnings", toString state.sink.warnings)]) } := by
  unfold compile
  constructor
  · intro hrun
    obtain ⟨previous, s₁, hfirst, hrun⟩ := Action.yields_bind.1 hrun
    obtain ⟨begun, hbegin, rfl⟩ := Session.yields_onHost.1 hfirst
    obtain ⟨s₂, s₃, hget, hrun⟩ := Action.yields_bind.1 hrun
    obtain ⟨rfl, rfl⟩ := Action.yields_get.1 hget
    -- the engine runs to a result of its own, which the last step reads
    rcases hengine : ((Engine.compile compiler (m.inputs t previous)).run.run
      (m.engineState { s with host := begun })).run with ⟨result, state⟩
    rw [hengine] at hrun
    obtain ⟨out, rfl, houtcome, hcommit⟩ := yields_conclude.1 hrun
    exact ⟨previous, begun, out, state, hbegin, hengine, houtcome, hcommit⟩
  · rintro ⟨previous, begun, out, state, hbegin, hengine, houtcome, hcommit⟩
    refine Action.yields_bind.2 ⟨previous, _, Session.yields_onHost.2 ⟨begun, hbegin, rfl⟩, ?_⟩
    refine Action.yields_bind.2 ⟨_, _, Action.yields_get.2 ⟨rfl, rfl⟩, ?_⟩
    rw [Action.Yields] at hengine
    rw [hengine]
    exact yields_conclude.2 ⟨out, rfl, houtcome, hcommit⟩

/-- **After a successful compile** the path of the store leads to what was written, or the store is in its way. -/
theorem read_of_yields_compile {s s' : Session σ} {outcome : CompileOutcome}
    (hrun : (m.compile compiler t).Yields s outcome s') :
    s'.host.read m.store = .ok (Store.encode ⟨outcome.analysis, m.setup t⟩) ∨
      s'.host.read m.store = .error (.ofKind .notADirectory) := by
  obtain ⟨_, _, out, _, -, hengine, rfl, h, hcommit, rfl⟩ := yields_compile.1 hrun
  obtain ⟨_, _, _, _, trace, -⟩ := Engine.exists_trace hengine
  have hread := Store.read_of_commit hcommit
  rwa [trace.setup] at hread

/-- **The run of the engine in a compile:** the machine on which it starts and what it returns, if it gets that far and
succeeds. -/
def engineRun (m : Module) (compiler : SourceCompiler σ) (t : CompileTask) (s : Session σ) :
    Option (Host × EngineOutput) :=
  match ((m.begin t).run.run s.host).run with
  | (.error _, _) => none
  | (.ok previous, begun) =>
    match ((Engine.compile compiler (m.inputs t previous)).run.run (m.engineState { s with host := begun })).run with
    | (.error _, _) => none
    | (.ok out, _) => some (begun, out)

theorem engineRun_of_yields {s : Session σ} {previous : Option Contents} {begun : Host} {out : EngineOutput}
    {state : EngineState σ} (hbegin : (m.begin t).Yields s.host previous begun)
    (hengine : (Engine.compile compiler (m.inputs t previous)).Yields
      (m.engineState { s with host := begun }) out state) :
    m.engineRun compiler t s = some (begun, out) := by
  rw [Action.Yields] at hbegin hengine
  simp [engineRun, hbegin, hengine]

end Module

end Recompile

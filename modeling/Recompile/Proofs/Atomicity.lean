import Recompile.Proofs.Compile
import Recompile.Proofs.Settled
import Recompile.Proofs.Untouched

/-!
# A compile replaces the store or leaves it

A compile of a module can fail in many places: while it loads the store or makes the output directory, in any round of
the engine, and at last when the new analysis is committed. Wherever it does, the file of the store has the bytes that it
had. If it succeeds the file holds what was returned. `Module.compile_atomic` states both, and what happens before the
compiler is asked for the first time.

Two things have to be known of the surroundings. What the compile does to the machine apart from the store, which is
deleting class files and running the compiler, must not touch the file of the store; that is the purpose of a property of
the machine that the compile spares (`Engine.Spares`). And the output directory must not bring a file into view at the
path of the store when it is made, as it does if the path runs through a directory that was missing
(`Module.compile_touches_store`).
-/

namespace Recompile

/-! ### The file of a store -/

namespace Store

variable {path : Path} {h h' : Host}

/-- The bytes of the file of a store, if there is one. -/
def bytes? (path : Path) (h : Host) : Option Bytes := (h.read path).toOption

theorem bytes?_eq_some_iff {data : Bytes} : bytes? path h = some data ↔ h.read path = .ok data := toOption_eq_some_iff

theorem isDir_stagingDir_of_bytes? {data : Bytes} (hdata : bytes? path h = some data) :
    h.isDir (Host.stagingDir path) = true := by
  obtain ⟨loc, executable, hplace⟩ := Files.read_eq_ok_iff.1 (bytes?_eq_some_iff.1 hdata)
  exact Files.isDir_stagingDir hplace

end Store

/-- What is left of an attempt to replace a file: the directories that were made for it. -/
theorem Host.fails_writeAtomically {ε : Type} {wrap : Fault → ε} {p : Path} {data : Bytes} {h h' : Host} {e : ε}
    (hrun : (Host.writeAtomically wrap p data).Fails h e h') :
    ∃ files made, h.files.makeDirAll h.cwd (stagingDir p) = (made, files) ∧ h' = { h with files } ∧
      (made = .ok () → ∃ fault, files.replace h.cwd p data = .error fault) := by
  unfold writeAtomically at hrun
  rcases hmade : h.files.makeDirAll h.cwd (stagingDir p) with ⟨made, files⟩
  refine ⟨files, made, rfl, ?_⟩
  -- either the directory for the new file could not be made, or the file could not be put in place
  rcases Action.fails_bind.1 hrun with hdirs | ⟨_, h₁, hdirs, hchange⟩
  · obtain ⟨fault, herror, -, rfl⟩ := Host.fails_makeDirAll.1 hdirs
    rw [hmade] at herror ⊢
    dsimp only at herror
    exact ⟨rfl, fun hok => by simp [hok] at herror⟩
  · obtain ⟨-, rfl⟩ := Host.yields_makeDirAll.1 hdirs
    obtain ⟨fault, hreplace, -, rfl⟩ := Host.fails_change.1 hchange
    rw [hmade] at hreplace ⊢
    exact ⟨rfl, fun _ => ⟨fault, hreplace⟩⟩

/-- **A commit that fails leaves the file of the store,** or leaves none where there was none. -/
theorem Store.bytes?_of_fails_commit {path : Path} {c : Contents} {h h' : Host} {e : AnalysisError}
    (hrun : (commit path c).Fails h e h') : bytes? path h' = bytes? path h := by
  unfold commit at hrun
  replace hrun := (Action.fails_bind.1 hrun).resolve_right fun ⟨_, _, _, hreport⟩ => Host.not_fails_report hreport
  obtain ⟨files, made, hmake, rfl, hreplace⟩ := Host.fails_writeAtomically hrun
  -- there was no file, or the directory would have been there and the file could have been replaced
  have hnone : ∀ data, bytes? path { h with files } ≠ some data := by
    intro data hdata
    cases made with
    | error fault =>
      have hdir := isDir_stagingDir_of_bytes? hdata
      have hnot := Files.isDir_of_makeDirAll_error hmake
      exact absurd (hnot.symm.trans hdir) (by simp)
    | ok _ =>
      have hread := bytes?_eq_some_iff.1 hdata
      obtain ⟨loc, executable, hplace⟩ := Files.read_eq_ok_iff.1 hread
      obtain ⟨g, hg⟩ := Files.exists_replace_of_place hplace (encode c)
      obtain ⟨fault, hfault⟩ := hreplace rfl
      simp [hfault] at hg
  have hkept : h.files.KeptIn files := by
    have hadds := Files.makeDirAll_addsDirs h.files h.cwd (Host.stagingDir path)
    rw [hmake] at hadds
    exact hadds.kept
  have hbefore : ∀ data, bytes? path h ≠ some data := by
    intro data hdata
    exact hnone data (bytes?_eq_some_iff.2 (Files.read_of_keptIn hkept (bytes?_eq_some_iff.1 hdata)))
  rw [Option.eq_none_iff_forall_ne_some.2 hnone, Option.eq_none_iff_forall_ne_some.2 hbefore]

/-! ### Sources that cannot be read -/

theorem Engine.sourceDigests_of_unreadable {h : Host} {sources : List Path} {p : Path} {fault : Fault}
    (hp : p ∈ sources) (hread : h.read p = .error fault) : ∃ e, sourceDigests h sources = .error e := by
  cases hdigests : sourceDigests h sources with
  | error e => exact ⟨e, rfl⟩
  | ok digests =>
    obtain ⟨l, hlist, -⟩ := sourceDigests_eq_ok_iff.1 hdigests
    obtain ⟨hkeys, hdata⟩ := of_digestSources hlist
    rw [← hkeys] at hp
    obtain ⟨entry, hentry, rfl⟩ := List.mem_map.1 hp
    obtain ⟨data, hok, -⟩ := hdata entry hentry
    simp [hread] at hok

/-- The engine does nothing at all if a source cannot be read. -/
theorem Engine.fails_compile_of_unreadable {σ : Type} {inputs : EngineInputs} {s : EngineState σ} {e : EngineError}
    (hdigests : sourceDigests s.session.host inputs.options.sources = .error e) (compiler : SourceCompiler σ) :
    (compile compiler inputs).Fails s e s := by
  unfold compile
  refine Action.fails_bind.2 (Or.inr ⟨_, _, yields_machine.2 ⟨rfl, rfl⟩, ?_⟩)
  rw [hdigests]
  exact Action.fails_bind.2 (Or.inl (Action.fails_throw.2 ⟨rfl, rfl⟩))

namespace Module

variable {σ : Type} {m : Module} {compiler : SourceCompiler σ} {t : CompileTask}

/-! ### Compiles that fail -/

/-- A compile that fails before the engine starts was only looking, or has made directories. -/
theorem of_fails_begin {h h' : Host} {e : CompileError} (hrun : (m.begin t).Fails h e h') :
    ∃ log, h' = { h with log } ∨ h' = { opened t h with log } := by
  unfold begin at hrun
  rcases Action.fails_bind.1 hrun with hload | ⟨_, h₁, hload, hrun⟩
  · obtain ⟨_, hfails, -⟩ := Action.fails_mapFailure.1 hload
    obtain ⟨log, hreads⟩ := Store.reads_load m.store h h.log
    exact ⟨log, Or.inl (congrArg Prod.snd (hfails.symm.trans hreads))⟩
  obtain ⟨-, log, rfl⟩ := (Store.reads_load m.store h).eq_of_yields (Action.yields_mapFailure.1 hload)
  rcases Action.fails_bind.1 hrun with hmake | ⟨_, h₂, -, hrun⟩
  · obtain ⟨fault, -, -, rfl⟩ := Host.fails_makeDirAll.1 hmake
    exact ⟨log, Or.inr rfl⟩
  · obtain ⟨_, _, -, hpure⟩ := (Action.fails_bind.1 hrun).resolve_left Host.not_fails_report
    exact absurd hpure Action.not_fails_pure

/-- The failure of the engine is handed on, with events in the log. -/
theorem of_fails_conclude_error {failure : EngineError} {state : EngineState σ} {s s' : Session σ} {e : CompileError}
    (hrun : (m.conclude (.error failure, state)).Fails s e s') :
    ∃ log, s' = { state.session with host := { state.session.host with log } } := by
  simp only [conclude] at hrun
  obtain ⟨_, s₁, hset, hrun⟩ := (Action.fails_bind.1 hrun).resolve_left Action.not_fails_set
  obtain rfl := Action.yields_set.1 hset
  rcases Action.fails_bind.1 hrun with hreport | ⟨_, s₂, hreport, hthrow⟩
  · obtain ⟨h, hfails, -⟩ := Session.fails_onHost.1 hreport
    exact absurd hfails Host.not_fails_reportAll
  · obtain ⟨h, hlogged, rfl⟩ := Session.yields_onHost.1 hreport
    obtain rfl := Host.yields_reportAll.1 hlogged
    obtain ⟨-, rfl⟩ := Action.fails_throw.1 hthrow
    exact ⟨_, rfl⟩

/-- After a success of the engine a compile fails only if the analysis cannot be committed. -/
theorem of_fails_conclude_ok {out : EngineOutput} {state : EngineState σ} {s s' : Session σ} {e : CompileError}
    (hrun : (m.conclude (.ok out, state)).Fails s e s') :
    ∃ e' h, (Store.commit m.store ⟨out.analysis, out.setup⟩).Fails state.session.host e' h ∧
      s' = { state.session with host := h } := by
  simp only [conclude] at hrun
  obtain ⟨_, s₁, hset, hrun⟩ := (Action.fails_bind.1 hrun).resolve_left Action.not_fails_set
  obtain rfl := Action.yields_set.1 hset
  rcases Action.fails_bind.1 hrun with hcommit | ⟨_, s₂, -, hrun⟩
  · -- the commit itself fails
    obtain ⟨h, hfails, rfl⟩ := Session.fails_onHost.1 hcommit
    obtain ⟨e', hfails, -⟩ := Action.fails_mapFailure.1 hfails
    exact ⟨e', h, hfails, rfl⟩
  -- behind the commit there are a message and the result, and neither fails
  rcases Action.fails_bind.1 hrun with hreport | ⟨_, _, -, hpure⟩
  · obtain ⟨h, hfails, -⟩ := Session.fails_onHost.1 hreport
    exact absurd hfails Host.not_fails_report
  · exact absurd hpure Action.not_fails_pure

/-- A compile fails before the engine starts, or after the engine has run. -/
theorem of_fails_compile {s s' : Session σ} {e : CompileError} (hrun : (m.compile compiler t).Fails s e s') :
    (∃ h, (m.begin t).Fails s.host e h ∧ s' = { s with host := h }) ∨
      ∃ previous begun result state, (m.begin t).Yields s.host previous begun ∧
        ((Engine.compile compiler (m.inputs t previous)).run.run (m.engineState { s with host := begun })).run =
          (result, state) ∧
        (m.conclude (result, state)).Fails { s with host := begun } e s' := by
  unfold compile at hrun
  rcases Action.fails_bind.1 hrun with hbegin | ⟨previous, s₁, hbegin, hrun⟩
  · exact Or.inl (Session.fails_onHost.1 hbegin)
  obtain ⟨begun, hbegun, rfl⟩ := Session.yields_onHost.1 hbegin
  obtain ⟨s₂, s₃, hget, hrun⟩ := (Action.fails_bind.1 hrun).resolve_left Action.not_fails_get
  obtain ⟨rfl, rfl⟩ := Action.yields_get.1 hget
  exact Or.inr ⟨previous, begun, _, _, hbegun, rfl, hrun⟩

/-! ### Before the compiler is asked -/

/-- Whatever the compiler is, a compile that cannot be begun ends there. -/
theorem fails_compile_of_begin {s : Session σ} {e : CompileError} {h : Host} (hbegin : (m.begin t).Fails s.host e h)
    (compiler : SourceCompiler σ) : (m.compile compiler t).Fails s e { s with host := h } := by
  unfold compile
  exact Action.fails_bind.2 (Or.inl (Session.fails_onHost.2 ⟨h, hbegin, rfl⟩))

/-- **A compile that lacks what it starts from** makes the output directory at most. It does not ask the compiler, so it
has the same outcome with every compiler and leaves its state alone. -/
theorem fails_compile_early {s : Session σ}
    (hlacks : (∃ e, Store.loaded m.store s.host = .error e) ∨
      ∃ p ∈ t.sources, ∃ fault, (opened t s.host).read p = .error fault) :
    ∃ e h, s.host.files.AddsDirs h.files ∧
      ∀ compiler : SourceCompiler σ, (m.compile compiler t).Fails s e { s with host := h } := by
  have hopened : ∀ log, s.host.files.AddsDirs { opened t s.host with log }.files :=
    fun _ => Files.makeDirAll_addsDirs _ _ _
  rcases Action.yields_or_fails (m.begin t) s.host with ⟨previous, begun, hbegin⟩ | ⟨e, h, hbegin⟩
  · obtain ⟨hload, -, log, rfl⟩ := of_yields_begin hbegin
    rcases hlacks with ⟨e, herror⟩ | ⟨p, hp, fault, hread⟩
    · simp [hload] at herror
    obtain ⟨e, hdigests⟩ := Engine.sourceDigests_of_unreadable (h := { opened t s.host with log }) hp hread
    -- the engine ends where it began, and the failure is handed on
    have hengine : ∀ compiler : SourceCompiler σ, ((Engine.compile compiler (m.inputs t previous)).run.run
        (m.engineState { s with host := { opened t s.host with log } })).run =
          (.error e, m.engineState { s with host := { opened t s.host with log } }) :=
      Engine.fails_compile_of_unreadable hdigests
    have hconclude := Action.yields_or_fails
      (m.conclude (.error e, m.engineState { s with host := { opened t s.host with log } }))
      { s with host := { opened t s.host with log } }
    rcases hconclude with ⟨outcome, s', hyields⟩ | ⟨failure, s', hfails⟩
    · obtain ⟨_, hok, -⟩ := yields_conclude.1 hyields
      simp at hok
    obtain ⟨log', rfl⟩ := of_fails_conclude_error hfails
    refine ⟨failure, { opened t s.host with log := log' }, hopened log', fun compiler => ?_⟩
    unfold compile
    refine Action.fails_bind.2 (Or.inr ⟨_, _, Session.yields_onHost.2 ⟨_, hbegin, rfl⟩, ?_⟩)
    refine Action.fails_bind.2 (Or.inr ⟨_, _, Action.yields_get.2 ⟨rfl, rfl⟩, ?_⟩)
    rw [hengine]
    exact hfails
  · refine ⟨e, h, ?_, fails_compile_of_begin hbegin⟩
    obtain ⟨log, rfl | rfl⟩ := of_fails_begin hbegin
    · exact Files.AddsDirs.refl _
    · exact hopened log

/-! ### The store after a compile -/

/-- **A compile replaces the store or leaves it.** Let the compile spare the file of the store, and let there be the same
file, or none, once the output directory is made. If the compile fails, that is what there is afterwards. If it succeeds,
loading the store yields the analysis that was returned, with the setup of the compile, unless the file is in the way of
its own path. And a compile that cannot load the store, or cannot read a source, neither asks the compiler nor takes
anything out of the tree. -/
theorem compile_atomic {s : Session σ} {F : Path → Prop} {I : Host → Prop}
    (spares : Engine.Spares compiler m.compilers t.output F I)
    (hprevious : ∀ previous, Store.loaded m.store s.host = .ok (some previous) → previous.analysis.FilesIn F)
    (hopened : I (opened t s.host)) (hstore : ∀ h, I h → Store.bytes? m.store h = Store.bytes? m.store s.host) :
    (∀ e s', (m.compile compiler t).Fails s e s' → Store.bytes? m.store s'.host = Store.bytes? m.store s.host) ∧
    (∀ outcome s', (m.compile compiler t).Yields s outcome s' →
      (Store.encode ⟨outcome.analysis, m.setup t⟩).length < Codec.maxLength →
        Store.loaded m.store s'.host = .ok (some ⟨outcome.analysis, m.setup t⟩) ∨
        s'.host.read m.store = .error (.ofKind .notADirectory)) ∧
    ((∃ e, Store.loaded m.store s.host = .error e) ∨
        (∃ p ∈ t.sources, ∃ fault, (opened t s.host).read p = .error fault) →
      ∃ e h, s.host.files.AddsDirs h.files ∧
        ∀ compiler : SourceCompiler σ, (m.compile compiler t).Fails s e { s with host := h }) := by
  refine ⟨fun e s' hrun => ?_, fun outcome s' hrun hsmall => ?_, fails_compile_early⟩
  · rcases of_fails_compile hrun with ⟨h, hbegin, rfl⟩ | ⟨previous, begun, result, state, hbegin, hengine, hconclude⟩
    · obtain ⟨log, rfl | rfl⟩ := of_fails_begin hbegin
      · rfl
      · exact hstore _ (spares.logs _ log hopened)
    obtain ⟨hload, -, log, rfl⟩ := of_yields_begin hbegin
    -- whatever the engine does, it does to the output directory
    have hkept : I state.session.host := by
      have hkeeps : (Engine.compile compiler (m.inputs t previous)).Keeps (fun s => I s.session.host) fun _ => True := by
        refine Engine.compile_keeps spares ?_
        rintro found rfl
        exact hprevious found hload
      exact hkeeps.state (spares.logs _ log hopened) hengine
    have hend := hstore _ hkept
    cases result with
    -- the engine failed: only messages follow
    | error failure =>
      obtain ⟨log', rfl⟩ := of_fails_conclude_error hconclude
      exact hstore _ (spares.logs _ log' hkept)
    -- the engine came through, so the commit failed
    | ok out =>
      obtain ⟨e', h, hcommit, rfl⟩ := of_fails_conclude_ok hconclude
      exact (Store.bytes?_of_fails_commit hcommit).trans hend
  · exact (read_of_yields_compile hrun).imp_left fun hread => Store.loaded_of_read hread hsmall

/-! ### A compile that fails, and two at the edge -/

private def plainToolchain : Toolchain := ⟨⟨2, 13, 12, none⟩, "lib.jar", "comp.jar", ⟨⟨"2.13.12", []⟩, ∅⟩⟩

/-- A compiler that reports an error and does nothing else. -/
private def refusing : SourceCompiler Unit := fun _ _ => return { diagnostics := [⟨.error, "no", .unknown⟩] }

private def plain : Module := { compilers := ⟨plainToolchain, "bridge.jar"⟩, store := "s" }

private def plainTask : CompileTask := ⟨[], ["A"], "o", [], []⟩

/-- A store in which the source `A` has the class `A`. -/
private def plainContents : Contents :=
  ⟨(∅ : Analysis).record "A" { digest := Digest.ofString "" } [("A", ⟨"A", "A.class", Digest.ofString ""⟩)],
    plain.setup plainTask⟩

/-- The source is another one than the one in the store, and the class file is there. -/
private def plainFiles : Files :=
  (((Files.put ∅ ["A"] (.file [1] false)).put ["s"] (.file (Store.encode plainContents) false)).put ["o"] .dir).put
    ["o", "A.class"] (.file [2] false)

private def plainSession : Session Unit := ⟨{ files := plainFiles }, ()⟩

/-- The class file is there, or is deleted. -/
private def Touched (h : Host) : Prop := h.cwd = [] ∧ (h.files = plainFiles ∨ h.files = plainFiles.drop ["o", "A.class"])

private theorem refusing_spares : Engine.Spares refusing plain.compilers plainTask.output (· = "A.class") Touched where
  logs _ _ hI := hI
  compiles _ _ := Action.keeps_pure (by simp)
  deletes := by
    rintro ⟨files, cwd, _, _, _, _⟩ _ files' rfl ⟨rfl, rfl | rfl⟩ hremove
    · have hdropped : plainFiles.removeFile [] (plainTask.output / "A.class") =
        .ok (plainFiles.drop ["o", "A.class"]) := rfl
      exact ⟨rfl, Or.inr (Except.ok.inj (hremove.symm.trans hdropped))⟩
    · have hgone : ((plainFiles.drop ["o", "A.class"]).removeFile [] (plainTask.output / "A.class")).toBool = false := by
        decide +kernel
      dsimp only at hremove
      rw [hremove] at hgone
      simp [Except.toBool] at hgone

private theorem bytes?_of_touched {h : Host} (hI : Touched h) :
    Store.bytes? plain.store h = some (Store.encode plainContents) := by
  obtain ⟨files, cwd, _, _, _, _⟩ := h
  obtain ⟨rfl, rfl | rfl⟩ := hI
  · rfl
  · rfl

/-- The class file of the edited source is deleted, the compiler refuses the source, and the store is what it was. -/
theorem compile_atomic_refused :
    ∃ e s', (plain.compile refusing plainTask).Fails plainSession e s' ∧
      Store.loaded plain.store plainSession.host = .ok (some plainContents) ∧
      s'.host.exists? (plainTask.output / "A.class") = false ∧
      Store.bytes? plain.store s'.host = some (Store.encode plainContents) := by
  have hread := bytes?_of_touched (h := plainSession.host) ⟨rfl, Or.inl rfl⟩
  have hsmall : (Store.encode plainContents).length < Codec.maxLength := by decide +kernel
  have hload := Store.loaded_of_read (Store.bytes?_eq_some_iff.1 hread) hsmall
  -- the one class file on record is in the output directory
  have hfiles : plainContents.analysis.FilesIn (· = "A.class") := by
    intro name k hk
    have hclasses : plainContents.analysis.classes.entries = [("A", ⟨"A", "A.class", Digest.ofString ""⟩)] := rfl
    obtain ⟨name', he, -⟩ := SortedMap.get?_eq_some_iff.1 hk
    rw [hclasses, List.mem_singleton] at he
    rw [(Prod.mk.inj he).2]
  obtain ⟨hfails, -, -⟩ := compile_atomic (s := plainSession) refusing_spares
    (fun previous hprevious => by
      obtain rfl := Option.some.inj (Except.ok.inj (hload.symm.trans hprevious))
      exact hfiles)
    ⟨rfl, Or.inl rfl⟩ fun h hI => (bytes?_of_touched hI).trans hread.symm
  -- the run fails, but not before the class file was deleted
  have hrun : ((plain.compile refusing plainTask).run.run plainSession).run.1.toBool = false ∧
      ((plain.compile refusing plainTask).run.run plainSession).run.2.host.exists? (plainTask.output / "A.class") =
        false := by
    decide +kernel
  obtain ⟨hresult, hgone⟩ := hrun
  obtain ⟨e, s', hrefused⟩ := Action.exists_fails hresult
  rw [show ((plain.compile refusing plainTask).run.run plainSession).run = _ from hrefused] at hgone
  exact ⟨e, s', hrefused, hload, hgone, (hfails e s' hrefused).trans hread⟩

/-- A module of which the path of the store runs through the directory above the output directory, which is missing. -/
private def veiled : Module := { compilers := ⟨plainToolchain, "bridge.jar"⟩, store := "x/../s" }

private def veiledTask : CompileTask := ⟨[], ["A"], "x/o", [], []⟩

private def veiledSession : Session Unit :=
  ⟨{ files := (Files.put ∅ ["A"] (.file [1] false)).put ["s"] (.file [2] false) }, ()⟩

/-- A module of which the store is behind a link that takes its name. -/
private def twisted : Module := { compilers := ⟨plainToolchain, "bridge.jar"⟩, store := "l/../l" }

private def twistedTask : CompileTask := ⟨[], ["A"], "d/../o", [], []⟩

private def twistedSession : Session Unit :=
  ⟨{ files := (Files.put ∅ ["A"] (.file [1] false)).put ["l"] (.link "d") }, ()⟩

/-- A compiler that accepts everything and does nothing. -/
private def content : SourceCompiler Unit := fun _ _ => return {}

/-- **What making the output directory does to a store.** A failing compile makes the directory through which the path of
the store runs, and a file comes into view there that was none before. And a successful compile makes the directory to
which a link leads, and replaces the link, so that the store cannot be loaded. Neither compiler touches anything, and
neither output directory is at the path of the store or below it. -/
theorem compile_touches_store :
    (∃ e s', (veiled.compile refusing veiledTask).Fails veiledSession e s' ∧
      Store.bytes? veiled.store veiledSession.host = none ∧ Store.bytes? veiled.store s'.host = some [2]) ∧
    ∃ outcome s', (twisted.compile content twistedTask).Yields twistedSession outcome s' ∧
      Store.loaded twisted.store s'.host ≠ .ok (some ⟨outcome.analysis, twisted.setup twistedTask⟩) := by
  constructor
  · -- the output directory is made, and with it the way to the file of the store
    have hrun : ((veiled.compile refusing veiledTask).run.run veiledSession).run.1.toBool = false ∧
        Store.bytes? veiled.store veiledSession.host = none ∧
        Store.bytes? veiled.store ((veiled.compile refusing veiledTask).run.run veiledSession).run.2.host = some [2] := by
      decide +kernel
    obtain ⟨hresult, hbefore, hafter⟩ := hrun
    obtain ⟨e, s', hfails⟩ := Action.exists_fails hresult
    refine ⟨e, s', hfails, hbefore, ?_⟩
    rwa [show ((veiled.compile refusing veiledTask).run.run veiledSession).run = _ from hfails] at hafter
  · -- the compiler replaces what the commit has to write over
    have hrun : ((twisted.compile content twistedTask).run.run twistedSession).run.1.toBool = true ∧
        (Store.loaded twisted.store
          ((twisted.compile content twistedTask).run.run twistedSession).run.2.host).toBool = false := by
      decide +kernel
    obtain ⟨hresult, hload⟩ := hrun
    obtain ⟨outcome, s', hyields⟩ := Action.exists_yields hresult
    refine ⟨outcome, s', hyields, fun hloaded => ?_⟩
    rw [show ((twisted.compile content twistedTask).run.run twistedSession).run = _ from hyields] at hload
    dsimp only at hload
    rw [hloaded] at hload
    simp [Except.toBool] at hload

end Module

end Recompile

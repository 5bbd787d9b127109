import Recompile.Proofs.Answers
import Recompile.Proofs.FixedPoint
import Recompile.Proofs.StorePlaces

/-!
# What a module sees of another one

A module that has the output directory of another one on its classpath takes the fingerprints of its classes from the
analysis that the other one has committed. `Module.upstream_visible` follows that way from end to end: from the commit
through the layout, the file of the store and the search of the classpath to the record of the source that refers to the
class, and in a later compile from there back to the question whether the class has changed. Class files have no part in
it.

The way ends where the output directory or the store cannot be reached by the paths that the two modules have for them.
That may happen although both compiles succeed, since committing an analysis replaces a link
(`Module.upstream_hidden_behind_replaced_link`).
-/

namespace Recompile

open Recompile.Action

/-! ### An entry among others -/

variable {l : Lookup} {entry store : Path} {h opening asked : Host}

/-- The analysis of an output directory is that in its store. -/
theorem Lookup.stored_of_loaded {layout : Layout} {c : Contents} (hdir : h.isDir entry = true)
    (hstore : layout.store? entry = some store) (hload : Store.loaded store h = .ok (some c)) :
    stored layout h entry = some c.analysis := by
  simp [stored, hdir, hstore, hload]

namespace Classpath

theorem firstSpelling_append {first : List Path} {p : Path} (hp : p ∈ first) (rest : List Path) :
    firstSpelling (first ++ rest) p = firstSpelling first p := by
  have hthere : (first.find? (· == p)).isSome = true := List.find?_isSome.2 ⟨p, hp, BEq.rfl⟩
  obtain ⟨q, hq⟩ := Option.isSome_iff_exists.1 hthere
  rw [firstSpelling, firstSpelling, List.find?_append, hq]
  rfl

theorem firstSpelling_mem_or_eq (first rest : List Path) (entry : Path) :
    firstSpelling (first ++ entry :: rest) entry ∈ first ∨ firstSpelling (first ++ entry :: rest) entry = entry := by
  have hhere : (entry :: rest).find? (· == entry) = some entry := List.find?_cons_of_pos BEq.rfl
  rw [firstSpelling, List.find?_append, hhere]
  cases hfind : first.find? (· == entry) with
  | some q => exact Or.inl (List.mem_of_find?_eq_some hfind)
  | none => exact Or.inr rfl

/-- **A class that no entry before it supplies has the fingerprint in the analysis of an output directory,** whatever is
in its class file. Other spellings of the directory in front of it have to lead to the same analysis. -/
theorem answerOn_entry {first rest : List Path} {c : Contents} {name : String} {api : Digest} (hnew : l.loaded = ∅)
    (hleads : ∀ p, p ∈ first ∨ p = entry → (p == entry) = true → opening.isDir p = true ∧
      ∃ store, l.layout.store? p = some store ∧ Store.loaded store opening = .ok (some c))
    (hapi : c.analysis.api? name = some api) (hnone : answerOn l first opening asked name = none) :
    answerOn l (first ++ entry :: rest) opening asked name = some api := by
  -- the entries in front are what they are without the others
  have hfirst : first.map (entryAt l opening (first ++ entry :: rest)) = first.map (entryAt l opening first) := by
    refine List.map_congr_left fun p hp => ?_
    rw [entryAt, entryAt, firstSpelling_append hp]
  have hgiven : l.given opening (firstSpelling (first ++ entry :: rest) entry) = some c.analysis := by
    obtain ⟨hdir, store, hstore, hload⟩ := hleads _ (firstSpelling_mem_or_eq first rest entry) (firstSpelling_beq _ entry)
    rw [Lookup.given, hnew, SortedMap.get?_empty, Option.getD_none, Lookup.stored_of_loaded hdir hstore hload]
  have hentry : (entryAt l opening (first ++ entry :: rest) entry).fingerprint? asked name = some api := by
    simp [entryAt, ClasspathEntry.fingerprint?, hgiven, hapi]
  rw [answerOn_eq (reads_ofPaths l first opening), search?] at hnone
  rw [answerOn_eq (reads_ofPaths l (first ++ entry :: rest) opening), search?, List.map_append, hfirst,
    List.findSome?_append, hnone, List.map_cons, List.findSome?_cons, hentry]
  rfl

end Classpath

/-! ### From one module to another -/

namespace Module

open Classpath

variable {ρ σ : Type} {up m : Module} {tUp t : CompileTask} {upCompiler : SourceCompiler ρ} {compiler : SourceCompiler σ}
  {r r' : Session ρ} {s : Session σ} {outcome : CompileOutcome}

/-- **Whether another module finds what was committed for an output directory** when it looks for the directory at a path:
the directory is there, and the path of its store leads to the file that was left on the machine `committed`. -/
structure Offered (layout : Layout) (output : Path) (committed : Host) (entry : Path) (h : Host) : Prop where
  directory : h.isDir entry = true
  store : h.isFile (layout.storeForOutput entry) = true
  unchanged : h.read (layout.storeForOutput entry) = committed.read (layout.storeForOutput output)

/-- What is offered depends on the tree and on the directory from which paths are followed. -/
theorem Offered.congr {layout : Layout} {output entry : Path} {committed h h' : Host} (hcwd : h'.cwd = h.cwd)
    (hfiles : h'.files = h.files) (offered : Offered layout output committed entry h) :
    Offered layout output committed entry h' where
  directory := by
    rw [Host.isDir, hcwd, hfiles]
    exact offered.directory
  store := by
    rw [Host.isFile, hcwd, hfiles]
    exact offered.store
  unchanged := by
    rw [Host.read, hcwd, hfiles]
    exact offered.unchanged

/-- What was committed and is still offered is loaded as it was. -/
theorem Offered.loaded {layout : Layout} {entry : Path} {h : Host} (upstream : (up.compile upCompiler tUp).Yields r outcome r')
    (kept : up.store = layout.storeForOutput tUp.output)
    (small : (Store.encode ⟨outcome.analysis, up.setup tUp⟩).length < Codec.maxLength)
    (offered : Offered layout tUp.output r'.host entry h) :
    Store.loaded (layout.storeForOutput entry) h = .ok (some ⟨outcome.analysis, up.setup tUp⟩) := by
  obtain ⟨loc, data, executable, hplace⟩ := Files.isFile_iff.1 offered.store
  have hfile : h.read (layout.storeForOutput entry) = .ok data := Files.read_eq_ok_iff.2 ⟨loc, executable, hplace⟩
  have hcommitted := read_of_yields_compile upstream
  rw [kept, ← offered.unchanged, hfile] at hcommitted
  -- the store cannot be in its own way, because its path leads to a file
  obtain rfl := Except.ok.inj (hcommitted.resolve_right (by simp))
  exact Store.loaded_of_read hfile small

/-- The external entries on both sides of one that is no output directory of the module. -/
theorem externalClasspath_append {output entry : Path} (another : (entry == output) = false) (first rest : List Path) :
    externalClasspath (first ++ entry :: rest) output =
      externalClasspath first output ++ entry :: externalClasspath rest output := by
  simp [externalClasspath, another]

theorem opened_of_yields_begin {h h' : Host} {previous : Option Contents} (hrun : (m.begin t).Yields h previous h') :
    Store.loaded m.store h = .ok previous ∧ h'.cwd = (opened t h).cwd ∧ h'.files = (opened t h).files := by
  obtain ⟨hload, -, log, rfl⟩ := of_yields_begin hrun
  exact ⟨hload, rfl, rfl⟩

/-- **What a module sees of a class of another one.** A module upstream was compiled with success, and its analysis has
the class. A module downstream has the output directory of the other one on its classpath, and as long as it compiles, it
finds what was committed there, in whatever spelling, and none of the entries in front supplies the class. Then every source with a reference
to the class, if no source downstream owns it, is recorded with the fingerprint of its API upstream. And if a fingerprint
of the class is on record already, for a source that is still there, then the source is due because of the class exactly
if that is another one. -/
theorem upstream_visible {F : Path → Prop} {I : Host → Prop} {front back : List Path} {own kept name : String} {api : Digest}
    (upstream : (up.compile upCompiler tUp).Yields r outcome r')
    (named : tUp.output.fileName? = some own ∧ m.layout.storeName? own = some kept)
    (beside : up.store = m.layout.storeForOutput tUp.output)
    (small : (Store.encode ⟨outcome.analysis, up.setup tUp⟩).length < Codec.maxLength)
    (spares : Engine.Spares compiler m.compilers t.output F I)
    (starts : ∀ previous begun, (m.begin t).Yields s.host previous begun →
      I begun ∧ ∀ c, previous = some c → c.analysis.FilesIn F)
    (offered : ∀ h, I h → ∀ p, p ∈ front ∨ p = tUp.output → (p == tUp.output) = true →
      Offered m.layout tUp.output r'.host p h)
    (listed : t.classpath = front ++ tUp.output :: back) (another : (tUp.output == t.output) = false)
    (defined : outcome.analysis.api? name = some api)
    (unsupplied : ∀ opening asked, I opening → I asked →
      answerOn { layout := m.layout } (externalClasspath front t.output) opening asked name = none) :
    ∀ previous begun, (m.begin t).Yields s.host previous begun →
      (∀ out state,
        (Engine.compile compiler (m.inputs t previous)).Yields (m.engineState { s with host := begun }) out state →
        ∀ round ∈ out.rounds, ∀ p, out.digests.contains p = true →
          (unitFor round.units p).references.contains name = true →
          (classOwners (Engine.without round.sources round.before) round.units).get? name = none →
          ∃ info, round.after.source? p = some info ∧ info.binaryDeps.get? name = some api) ∧
      (∀ o state, (Engine.outset (m.inputs t previous)).Yields (m.engineState { s with host := begun }) o state →
        ∀ c, previous = some c → c.setup.isCompatible (m.setup t) = true →
        ∀ p info recorded, o.digests.contains p = true → c.analysis.source? p = some info →
          info.binaryDeps.get? name = some recorded →
          (p.Among o.due ↔
            (((m.inputs t previous).changes o.digests).invalidated o.digests c.analysis).contains p = true ∨
            (∃ other d found, other ≠ name ∧ info.binaryDeps.get? other = some d ∧
              o.classpath.resolved.get? other = some found ∧ found ≠ some d) ∨
            recorded ≠ api)) := by
  intro previous begun begins
  obtain ⟨holds, files⟩ := starts previous begun begins
  -- at any time of the compile the classpath answers with the API upstream
  have hanswer : ∀ opening asked, I opening → I asked →
      answerOn (m.inputs t previous).lookup (externalClasspath (m.inputs t previous).options.classpath
        (m.inputs t previous).options.output) opening asked name = some api := by
    intro opening asked hopening hasked
    change answerOn { layout := m.layout } (externalClasspath (m.options t).classpath t.output) opening asked name = _
    rw [externalClasspath_options, listed, externalClasspath_append another]
    refine answerOn_entry (c := ⟨outcome.analysis, up.setup tUp⟩) rfl (fun p hp hsame => ?_) defined
      (unsupplied _ _ hopening hasked)
    -- whatever the spelling, the directory has the name for which the layout has a store
    have hfront : p ∈ front ∨ p = tUp.output := hp.imp_left fun hp => (List.mem_filter.1 hp).1
    have hname : p.fileName? = some own := by
      rw [← named.1, Path.fileName?, Path.fileName?, Path.beq_iff.1 hsame]
    have hoffered := offered opening hopening p hfront hsame
    exact ⟨hoffered.directory, _, Layout.store?_of_named hname named.2, hoffered.loaded upstream beside small⟩
  have hspares : Engine.Spares compiler (m.inputs t previous).compilers (m.inputs t previous).options.output F I := spares
  refine ⟨fun out state hengine round hround p hp hrefers hunowned => ?_,
    fun o state houtset c hprevious hsetup p info recorded hp hinfo hrecorded => ?_⟩
  · exact Engine.exists_record_of_answer hspares files holds hanswer hengine hround hp hrefers hunowned
  · have hbase : (m.inputs t previous).baseline = c.analysis := by
      simp only [EngineInputs.baseline, inputs, hprevious]
      rw [if_pos hsetup]
    rw [← hbase] at hinfo ⊢
    have hdue := Engine.among_due_iff hspares files holds hanswer houtset hp hinfo hrecorded
    rw [hdue, ne_eq, Option.some.injEq, ne_comm]

/-! ### Two modules -/

private def tools : Compilers := ⟨⟨⟨2, 13, 12, none⟩, "lib.jar", "comp.jar", ⟨⟨"2.13.12", []⟩, ∅⟩⟩, "bridge.jar"⟩

/-- A compiler that finds in every source a reference to the class `x.X`, and writes nothing. -/
private def user : SourceCompiler Unit := fun _ request =>
  return { units := request.sources.map fun p => ⟨p, [], SortedSet.ofList ["x.X"]⟩ }

/-- A module that defines the class. -/
private def library : Module := { compilers := tools, store := "lib/analysis/compile" }

private def libraryTask : CompileTask := ⟨[], ["X.scala"], "lib/classes", [], []⟩

/-- A module that has the output directory of the other one on its classpath, behind its own. -/
private def application : Module := { compilers := tools, store := "app/analysis/compile" }

private def applicationTask : CompileTask := ⟨["app/classes", "lib/classes"], ["Y.scala"], "app/classes", [], []⟩

/-- The application was compiled when the class had another API. -/
private def lastApplication : Contents where
  analysis := (∅ : Analysis).record "Y.scala"
    { digest := Digest.ofBytes (Bytes.ofString "ref x.X\n"), binaryDeps := SortedMap.ofList [("x.X", Digest.ofString "1")] } []
  setup := application.setup applicationTask

private theorem lastApplication_filesIn : lastApplication.analysis.FilesIn fun _ => False := by
  intro name k hk
  have hnone : lastApplication.analysis.classes.entries = [] := by decide +kernel
  obtain ⟨_, he, -⟩ := SortedMap.get?_eq_some_iff.1 hk
  simp [hnone] at he

private def moduleFiles : Files :=
  ((((Files.put ∅ ["X.scala"] (.file (Bytes.ofString "class x.X 2\n") false)).put ["Y.scala"]
    (.file (Bytes.ofString "ref x.X\n") false)).put ["app"] .dir).put ["app", "analysis"] .dir).put
    ["app", "analysis", "compile"] (.file (Store.encode lastApplication) false)

private def twoModules : Session Unit := ⟨{ files := moduleFiles }, ()⟩

/-- The machine after the library was compiled. -/
private def withLibrary : Session Unit := ((library.compile LineCompiler.compiler libraryTask).run.run twoModules).run.2

private def begunApplication : Host := ((application.begin applicationTask).run.run withLibrary.host).run.2

private def applicationInputs : EngineInputs := application.inputs applicationTask (some lastApplication)

private def applicationState : EngineState Unit := application.engineState { withLibrary with host := begunApplication }

/-- Both modules are compiled with success, and the library is where the application looks for it. -/
private theorem two_modules_run :
    (((library.compile LineCompiler.compiler libraryTask).run.run twoModules).run.1.toBool = true ∧
      ∀ result ∈ ((library.compile LineCompiler.compiler libraryTask).run.run twoModules).run.1.toOption,
        result.analysis.api? "x.X" = some (Digest.ofString "2") ∧
          (Store.encode ⟨result.analysis, library.setup libraryTask⟩).length < Codec.maxLength) ∧
    ((opened applicationTask withLibrary.host).isDir libraryTask.output = true ∧
      (opened applicationTask withLibrary.host).isFile (application.layout.storeForOutput libraryTask.output) = true ∧
      (opened applicationTask withLibrary.host).read (application.layout.storeForOutput libraryTask.output) =
        withLibrary.host.read (application.layout.storeForOutput libraryTask.output)) ∧
    (((application.begin applicationTask).run.run withLibrary.host).run.1.toBool = true ∧
      withLibrary.host.read application.store = .ok (Store.encode lastApplication) ∧
      (Store.encode lastApplication).length < Codec.maxLength) ∧
    (((Engine.outset applicationInputs).run.run applicationState).run.1.toBool = true ∧
      ∀ o ∈ ((Engine.outset applicationInputs).run.run applicationState).run.1.toOption,
        o.digests.contains "Y.scala" = true) ∧
    ((Engine.compile user applicationInputs).run.run applicationState).run.1.toBool = true ∧
      ∀ out ∈ ((Engine.compile user applicationInputs).run.run applicationState).run.1.toOption,
        out.digests.contains "Y.scala" = true ∧ ∃ round ∈ out.rounds,
          (unitFor round.units "Y.scala").references.contains "x.X" = true ∧
          (classOwners (Engine.without round.sources round.before) round.units).get? "x.X" = none := by
  decide +kernel

/-- Whether nothing has happened since the application began to be compiled, apart from what was logged. -/
private def Begun (h : Host) : Prop :=
  h.cwd = (opened applicationTask withLibrary.host).cwd ∧ h.files = (opened applicationTask withLibrary.host).files

private theorem user_spares : Engine.Spares user application.compilers applicationTask.output (fun _ => False) Begun where
  logs _ _ hI := hI
  compiles _ _ := Action.keeps_pure (by simp)
  deletes _ _ _ hfile := hfile.elim

private theorem offered_of_begun (h : Host) (hI : Begun h) (p : Path)
    (hp : p ∈ [(⟨"app/classes"⟩ : Path)] ∨ p = libraryTask.output) (hsame : (p == libraryTask.output) = true) :
    Offered application.layout libraryTask.output withLibrary.host p h := by
  have hother : ((⟨"app/classes"⟩ : Path) == libraryTask.output) = false := by decide +kernel
  obtain hfront | rfl := hp
  · rw [List.mem_singleton.1 hfront, hother] at hsame
    simp at hsame
  · obtain ⟨-, ⟨hdir, hfile, hread⟩, -⟩ := two_modules_run
    exact Offered.congr hI.1 hI.2 ⟨hdir, hfile, hread⟩

private theorem begun_of_yields (previous : Option Contents) (begun : Host)
    (hbegin : (application.begin applicationTask).Yields withLibrary.host previous begun) :
    Begun begun ∧ previous = some lastApplication := by
  obtain ⟨-, -, ⟨-, hread, hsmall⟩, -⟩ := two_modules_run
  obtain ⟨hload, hcwd, hfiles⟩ := opened_of_yields_begin hbegin
  rw [Store.loaded_of_read hread hsmall] at hload
  exact ⟨⟨hcwd, hfiles⟩, (Except.ok.inj hload).symm⟩

/-- **A class of which the API has changed.** The library defines the class with another API than the one that is on
record in the application. So the source of the application is due, and the new API is recorded. -/
theorem upstream_visible_of_changed_api :
    ∃ outcome r' previous begun o state out state',
      (library.compile LineCompiler.compiler libraryTask).Yields twoModules outcome r' ∧
      outcome.analysis.api? "x.X" = some (Digest.ofString "2") ∧
      (application.begin applicationTask).Yields r'.host previous begun ∧
      (Engine.outset (application.inputs applicationTask previous)).Yields
        (application.engineState { r' with host := begun }) o state ∧
      Path.Among "Y.scala" o.due ∧
      (Engine.compile user (application.inputs applicationTask previous)).Yields
        (application.engineState { r' with host := begun }) out state' ∧
      ∃ round ∈ out.rounds, ∃ info, round.after.source? "Y.scala" = some info ∧
        info.binaryDeps.get? "x.X" = some (Digest.ofString "2") := by
  obtain ⟨⟨hcompiles, houtcome⟩, -, ⟨hbegins, -, -⟩, ⟨hoSucceeds, ho⟩, hsucceeds, hout⟩ := two_modules_run
  obtain ⟨outcome, hmem, first⟩ := Action.exists_yields_run hcompiles
  obtain ⟨hdefined, hsmall⟩ := houtcome outcome hmem
  -- the application begins with what it has stored, and goes through
  obtain ⟨previous, -, hbegin⟩ := Action.exists_yields_run hbegins
  obtain ⟨-, rfl⟩ := begun_of_yields previous _ hbegin
  obtain ⟨o, homem, houtset⟩ := Action.exists_yields_run hoSucceeds
  obtain ⟨out, houtmem, hengine⟩ := Action.exists_yields_run hsucceeds
  obtain ⟨hthere, round, hround, hrefers, hunowned⟩ := hout out houtmem
  have hstarts : ∀ previous begun, (application.begin applicationTask).Yields withLibrary.host previous begun →
      Begun begun ∧ ∀ c, previous = some c → c.analysis.FilesIn fun _ => False := by
    intro previous begun hbegin
    obtain ⟨hbegun, rfl⟩ := begun_of_yields previous begun hbegin
    exact ⟨hbegun, fun c hc => Option.some.inj hc ▸ lastApplication_filesIn⟩
  obtain ⟨hrecords, hdue⟩ := @upstream_visible Unit Unit library application libraryTask applicationTask
    LineCompiler.compiler user twoModules withLibrary withLibrary outcome (fun _ => False) Begun ["app/classes"] []
    "classes" "compile" "x.X" (Digest.ofString "2") first (by decide +kernel) rfl hsmall user_spares hstarts
    offered_of_begun rfl (by decide +kernel) hdefined (fun _ _ _ _ => rfl) _ _ hbegin
  refine ⟨outcome, withLibrary, _, _, o, _, out, _, first, hdefined, hbegin, houtset, ?_, hengine, ?_⟩
  · have hinfo : lastApplication.analysis.source? "Y.scala" = some
        { digest := Digest.ofBytes (Bytes.ofString "ref x.X\n"), classes := SortedSet.ofList [],
          binaryDeps := SortedMap.ofList [("x.X", Digest.ofString "1")] } := rfl
    refine (hdue o _ houtset _ rfl (Setup.isCompatible_self _) _ _ (Digest.ofString "1") (ho o homem) hinfo rfl).2 ?_
    exact Or.inr (Or.inr (by decide +kernel))
  · exact ⟨round, hround, hrecords out _ hengine round hround "Y.scala" hthere hrefers hunowned⟩

/-! ### A way that ends -/

/-- A module with an output directory behind a link that leads nowhere yet. Its store is where the link is. -/
private def behindLink : Module := { compilers := tools, store := "p/analysis/d/../compile/../../analysis/compile" }

private def behindLinkTask : CompileTask := ⟨[], ["X.scala"], "p/analysis/d/../compile/../../classes", [], []⟩

/-- A module with that output directory on its classpath. -/
private def reader : Module := { compilers := tools, store := "q/analysis/compile" }

private def readerTask : CompileTask :=
  ⟨["p/analysis/d/../compile/../../classes"], ["Y.scala"], "q/classes", [], []⟩

private def linkedModuleFiles : Files :=
  ((((Files.put ∅ ["X.scala"] (.file (Bytes.ofString "class x.X 1\n") false)).put ["Y.scala"]
    (.file (Bytes.ofString "ref x.X\n") false)).put ["p"] .dir).put ["p", "analysis"] .dir).put
    ["p", "analysis", "compile"] (.link "d")

private def linkedModules : Session Unit := ⟨{ files := linkedModuleFiles }, ()⟩

/-- The machine after the module upstream was compiled. -/
private def afterLinked : Session Unit :=
  ((behindLink.compile LineCompiler.compiler behindLinkTask).run.run linkedModules).run.2

private def begunReader : Host := ((reader.begin readerTask).run.run afterLinked.host).run.2

private theorem linked_modules_run :
    (((behindLink.compile LineCompiler.compiler behindLinkTask).run.run linkedModules).run.1.toBool = true ∧
      ∀ result ∈ ((behindLink.compile LineCompiler.compiler behindLinkTask).run.run linkedModules).run.1.toOption,
        result.analysis.api? "x.X" = some (Digest.ofString "1") ∧
          (Store.encode ⟨result.analysis, behindLink.setup behindLinkTask⟩).length < Codec.maxLength) ∧
    ((reader.compile user readerTask).run.run afterLinked).run.1.toBool = true ∧
    (((reader.begin readerTask).run.run afterLinked.host).run.1.toBool = true ∧
      ∀ previous ∈ ((reader.begin readerTask).run.run afterLinked.host).run.1.toOption, previous.isNone = true) ∧
    ((Engine.compile user (reader.inputs readerTask none)).run.run
      (reader.engineState { afterLinked with host := begunReader })).run.1.toBool = true ∧
      ∀ out ∈ ((Engine.compile user (reader.inputs readerTask none)).run.run
        (reader.engineState { afterLinked with host := begunReader })).run.1.toOption,
        out.digests.contains "Y.scala" = true ∧ ∃ round ∈ out.rounds,
          (unitFor round.units "Y.scala").references.contains "x.X" = true ∧
          (classOwners (Engine.without round.sources round.before) round.units).get? "x.X" = none ∧
          (round.after.source? "Y.scala").any (fun info => (info.binaryDeps.get? "x.X").isNone) = true := by
  decide +kernel

/-- **A class that is not seen.** The module upstream is compiled with success into a directory that the layout names,
and its store is where the layout says. The module downstream is compiled right after it, also with success, and has the
directory as the only entry on its classpath. But the store has taken the place of a link on the way to the directory,
so that there is no directory at that path any more, and the reference to the class is dropped. -/
theorem upstream_hidden_behind_replaced_link :
    ∃ (up m : Module) (tUp t : CompileTask) (r r' s' : Session Unit) (outcome outcome' : CompileOutcome)
      (name own kept : String) (api : Digest),
      (up.compile LineCompiler.compiler tUp).Yields r outcome r' ∧
      (tUp.output.fileName? = some own ∧ m.layout.storeName? own = some kept) ∧
      up.store = m.layout.storeForOutput tUp.output ∧
      (Store.encode ⟨outcome.analysis, up.setup tUp⟩).length < Codec.maxLength ∧
      t.classpath = [tUp.output] ∧ (tUp.output == t.output) = false ∧ outcome.analysis.api? name = some api ∧
      (m.compile user t).Yields r' outcome' s' ∧
      ∃ previous begun out state, (m.begin t).Yields r'.host previous begun ∧
        (Engine.compile user (m.inputs t previous)).Yields (m.engineState { r' with host := begun }) out state ∧
        ∃ round ∈ out.rounds, ∃ p info, out.digests.contains p = true ∧
          (unitFor round.units p).references.contains name = true ∧
          (classOwners (Engine.without round.sources round.before) round.units).get? name = none ∧
          round.after.source? p = some info ∧ info.binaryDeps.get? name = none := by
  obtain ⟨⟨hcompiles, houtcome⟩, hreader, ⟨hbegins, hprevious⟩, hsucceeds, hout⟩ := linked_modules_run
  obtain ⟨outcome, hmem, first⟩ := Action.exists_yields_run hcompiles
  obtain ⟨hdefined, hsmall⟩ := houtcome outcome hmem
  obtain ⟨outcome', -, second⟩ := Action.exists_yields_run hreader
  obtain ⟨previous, hnone, hbegin⟩ := Action.exists_yields_run hbegins
  -- the second module is compiled for the first time
  obtain rfl : previous = none := Option.isNone_iff_eq_none.1 (hprevious previous hnone)
  obtain ⟨out, houtmem, hengine⟩ := Action.exists_yields_run hsucceeds
  obtain ⟨hthere, round, hround, hrefers, hunowned, hrecord⟩ := hout out houtmem
  obtain ⟨info, hinfo, hdropped⟩ := (Option.any_eq_true _ _).1 hrecord
  refine ⟨behindLink, reader, behindLinkTask, readerTask, linkedModules, afterLinked, _, outcome, outcome', "x.X",
    "classes", "compile", Digest.ofString "1", first, by decide +kernel, rfl, hsmall, rfl, by decide +kernel, hdefined,
    second, none, _, out, _, hbegin, hengine, round, hround, "Y.scala", info, hthere, hrefers, hunowned, hinfo, ?_⟩
  exact Option.isNone_iff_eq_none.1 hdropped

end Module

end Recompile

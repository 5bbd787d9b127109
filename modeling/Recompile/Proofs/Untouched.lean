import Recompile.Proofs.Asking
import Recompile.Proofs.Opening
import Recompile.Proofs.Outset

/-!
# What a compile leaves alone

A compile touches the machine in three ways: it logs, it deletes class files below the output directory, and it lets the
compiler do what it likes. A property of the machine that survives these three survives every compile, one that fails in
the middle of a round included (`Engine.compile_keeps`). Which class files are deleted depends on the previous analysis
and on what the compiler reports, so that the property comes with a set of class files to which both keep
(`Engine.Spares`).

The classpath goes through the compile beside the machine, and all that happens to it is that it is asked. So a property
that lasts holds of the classpath in the end if it held when the classpath was opened (`Engine.Spares.compile`).
-/

namespace Recompile

/-- Whether the class files of an analysis are among some paths. -/
def Analysis.FilesIn (a : Analysis) (F : Path → Prop) : Prop := ∀ name k, a.class? name = some k → F k.classFile

namespace Analysis.FilesIn

variable {a : Analysis} {F : Path → Prop}

theorem empty : (∅ : Analysis).FilesIn F := by
  intro name k h
  exact absurd h (by simp)

theorem remove (h : a.FilesIn F) (p : Path) : (a.remove p).FilesIn F := fun name k hk => h name k (class?_of_remove hk)

theorem classFiles (h : a.FilesIn F) (p : Path) : ∀ file ∈ a.classFiles p, F file := by
  intro file hfile
  unfold Analysis.classFiles at hfile
  split at hfile
  next => simp at hfile
  next =>
    obtain ⟨name, -, hname⟩ := List.mem_filterMap.1 hfile
    obtain ⟨k, hk, rfl⟩ := Option.map_eq_some_iff.1 hname
    exact h name k hk

/-- The class files stay among the paths if those of the recorded units are. -/
theorem recordUnits (ha : a.FilesIn F) {h : Host} {digests : SortedMap Path Digest} {batch : List Path}
    {units : List CompiledUnit} {c : Classpath} (hunits : ∀ u ∈ units, ∀ k ∈ u.classes, F k.file) :
    (Recompile.recordUnits h digests batch units a c).1.FilesIn F := by
  intro name k hk
  rcases mem_recordUnits hk with ⟨u, hu, -, hmem⟩ | hold
  · obtain ⟨c, hc, -, rfl⟩ := CompiledUnit.mem_records.1 hmem
    exact hunits u hu c hc
  · exact ha name k hold

end Analysis.FilesIn

/-! ### Steps that log -/

section Logging

variable {σ ε : Type} {I : Host → Prop} {Q : Classpath → Prop}

theorem Host.keeps_report (hlogs : ∀ h log, I h → I { h with log }) (e : Event) :
    (Host.report e : Action Host ε Unit).Keeps I fun _ => True := Action.keeps_modify fun h => hlogs h _

theorem Host.keeps_reportAll (hlogs : ∀ h log, I h → I { h with log }) (es : List Event) :
    (Host.reportAll es : Action Host ε Unit).Keeps I fun _ => True := Action.keeps_modify fun h => hlogs h _

namespace Engine

theorem keeps_addStale (hlogs : ∀ h log, I h → I { h with log }) (hlasts : Classpath.Lasting I Q)
    (current : SortedMap Path Digest) (records : List (Path × SourceInfo)) (invalid : SortedSet Path) {c : Classpath}
    (hc : Q c) : (addStale current records invalid c : Action Host ε _).Keeps I fun r => Q r.2 := by
  induction records generalizing invalid c with
  | nil => exact Action.keeps_pure hc
  | cons e rest ih =>
    unfold Recompile.addStale
    split
    · exact ih _ hc
    · refine Action.keeps_get.bind fun h hI => ?_
      -- the record asks for its classes, whether or not one of them tells that the source is stale
      have hasked := hlasts h c _ hI (asks_staleClass h e.2.binaryDeps.entries c) hc
      rcases hstale : staleClass h e.2.binaryDeps.entries c with ⟨found, c₁⟩
      rw [hstale] at hasked
      cases found with
      | none => exact ih _ hasked
      | some name => exact (Host.keeps_report hlogs _).bind fun _ _ => ih _ hasked

theorem keeps_firstSources (hlogs : ∀ h log, I h → I { h with log }) (hlasts : Classpath.Lasting I Q) (changes : Changes)
    (digests : SortedMap Path Digest) (a : Analysis) {c : Classpath} (hc : Q c) :
    (firstSources changes digests a c).Keeps I fun r => Q r.2 :=
  (keeps_addStale hlogs hlasts _ _ _ hc).bind fun _ hlooked => (Host.keeps_report hlogs _).bind fun _ _ =>
    Action.keeps_pure hlooked

theorem keeps_ofPaths (hlogs : ∀ h log, I h → I { h with log }) (l : Lookup) (paths : List Path) :
    (Classpath.ofPaths l paths : Action Host ε _).Keeps I fun _ => True := by
  refine Action.keeps_of_reads hlogs fun h => ?_
  obtain ⟨r, hr⟩ := Classpath.exists_reads_ofPaths l paths h
  exact ⟨_, hr⟩

/-- What is kept of the machine is kept of the state of the engine. -/
theorem keeps_onHost {α : Type} {P : α → Prop} {x : Action Host ε α} (hx : x.Keeps I P) :
    (Engine.onHost x : Action (EngineState σ) ε α).Keeps (fun s => I s.session.host) P := by
  have hsession : (Session.onHost x : Action (Session σ) ε α).Keeps (fun s => I s.host) P := hx.onPart fun _ _ => rfl
  exact hsession.onPart fun _ _ => rfl

theorem keeps_emit (hlogs : ∀ h log, I h → I { h with log }) (ds : List Diagnostic) :
    (Engine.emit ds : Action (EngineState σ) ε Unit).Keeps (fun s => I s.session.host) fun _ => True := by
  refine Action.keeps_get.bind fun s hs => ?_
  dsimp only
  exact Action.Keeps.bind (Action.keeps_set hs) fun _ _ => keeps_onHost (Host.keeps_reportAll hlogs _)

theorem keeps_nextSources (hlogs : ∀ h log, I h → I { h with log }) (r : Round) (left : Nat) :
    (nextSources r left : Action (EngineState σ) ε _).Keeps (fun s => I s.session.host) fun _ => True := by
  cases left with
  | zero => exact Action.keeps_pure trivial
  | succ left =>
    unfold Engine.nextSources
    dsimp only
    split
    · exact Action.keeps_pure trivial
    · refine (keeps_onHost (Host.keeps_report hlogs _)).bind fun _ _ => ?_
      split
      · exact (keeps_onHost (Host.keeps_report hlogs _)).bind fun _ _ => Action.keeps_pure trivial
      · exact Action.keeps_pure trivial

end Engine

end Logging

namespace Engine

variable {σ ε : Type} {compiler : SourceCompiler σ} {compilers : Compilers} {output : Path} {F : Path → Prop}
  {I : Host → Prop} {Q : Classpath → Prop} {a : Analysis}

/-- **A property of the machine that a compile spares.** It survives logging, the compiler, and the deletion of class files;
those that the compiler reports are among the ones of which that is known. -/
structure Spares (compiler : SourceCompiler σ) (compilers : Compilers) (output : Path) (F : Path → Prop)
    (I : Host → Prop) : Prop where
  logs : ∀ h log, I h → I { h with log }
  compiles : ∀ request, request.output = output → (compiler compilers request).Keeps (fun s => I s.host) fun answer =>
    ∀ u ∈ answer.units, ∀ k ∈ u.classes, F k.file
  deletes : ∀ h file files, F file → I h → h.files.removeFile h.cwd (output / file) = .ok files → I { h with files }

namespace Spares

/-! ### Class files -/

theorem deleteFiles (spares : Spares compiler compilers output F I) {files : List Path} (hfiles : ∀ file ∈ files, F file) :
    (deleteFiles output files).Keeps I fun _ => True := by
  induction files with
  | nil => exact Action.keeps_pure trivial
  | cons file rest ih =>
    have hrest := ih fun g hg => hfiles g (List.mem_cons_of_mem _ hg)
    unfold Engine.deleteFiles
    refine Action.keeps_get.bind fun h hI => ?_
    dsimp only
    split
    next files hremove =>
      have hdeleted := spares.deletes h file files (hfiles file List.mem_cons_self) hI hremove
      exact (Action.keeps_set hdeleted).bind fun _ _ => hrest
    next fault _ =>
      split
      · exact (Action.keeps_throw (P := fun _ => True) _).bind fun _ _ => hrest
      · exact hrest

theorem deleteClassFiles (spares : Spares compiler compilers output F I) (ha : a.FilesIn F) (source : Path) :
    (deleteClassFiles output a source).Keeps I fun _ => True :=
  spares.deleteFiles (ha.classFiles source)

theorem deleteAllClassFiles (spares : Spares compiler compilers output F I) (ha : a.FilesIn F) (sources : List Path) :
    (deleteAllClassFiles output a sources).Keeps I fun _ => True := by
  induction sources with
  | nil => exact Action.keeps_pure trivial
  | cons source rest ih => exact (spares.deleteClassFiles ha source).bind fun _ _ => ih

theorem removeSources (spares : Spares compiler compilers output F I) (sources : List Path) (ha : a.FilesIn F) :
    (removeSources output sources a).Keeps I fun a' => a'.FilesIn F := by
  induction sources generalizing a with
  | nil => exact Action.keeps_pure ha
  | cons source rest ih => exact (spares.deleteClassFiles ha source).bind fun _ _ => ih (ha.remove source)

theorem retire (spares : Spares compiler compilers output F I) (sources : List Path) (ha : a.FilesIn F) (table : ApiTable) :
    (retire output sources a table).Keeps I fun r => r.1.FilesIn F := by
  rw [retire_eq]
  exact (spares.removeSources sources ha).bind fun _ hremoved => Action.keeps_pure hremoved

/-! ### Rounds -/

variable {inputs : EngineInputs}

theorem compileBatch (spares : Spares compiler inputs.compilers inputs.options.output F I) (batch : List Path) :
    (compileBatch compiler inputs batch).Keeps (fun s => I s.session.host) fun units =>
      ∀ u ∈ units, ∀ k ∈ u.classes, F k.file := by
  refine ((spares.compiles _ rfl).onPart fun _ _ => rfl).bind fun answer hanswer => ?_
  refine (keeps_emit spares.logs _).bind fun _ _ => Action.keeps_get.bind fun s _ => ?_
  dsimp only
  split
  · exact (Action.keeps_throw (P := fun _ => True) _).bind fun _ _ => Action.keeps_pure hanswer
  · exact Action.keeps_pure hanswer

theorem compileBatches (spares : Spares compiler inputs.compilers inputs.options.output F I) (bs : List (List Path)) :
    (compileBatches compiler inputs bs).Keeps (fun s => I s.session.host) fun units =>
      ∀ u ∈ units, ∀ k ∈ u.classes, F k.file := by
  induction bs with
  | nil => exact Action.keeps_pure (by simp)
  | cons batch rest ih =>
    unfold Engine.compileBatches
    split
    · exact ih
    · refine (spares.compileBatch batch).bind fun units hunits => ih.bind fun others hothers => ?_
      refine Action.keeps_pure fun u hu => ?_
      exact (List.mem_append.1 hu).elim (hunits u) (hothers u)

theorem compileRound (spares : Spares compiler inputs.compilers inputs.options.output F I) (hlasts : Classpath.Lasting I Q)
    (digests : SortedMap Path Digest) (number : Nat) (sources : List Path) (ha : a.FilesIn F) {c : Classpath} (hc : Q c) :
    (compileRound compiler inputs digests number sources a c).Keeps (fun s => I s.session.host)
      fun r => r.1.after.FilesIn F ∧ Q r.2 := by
  refine (keeps_onHost (Host.keeps_report spares.logs _)).bind fun _ _ => ?_
  refine (keeps_onHost (spares.retire sources ha ∅)).bind fun retired hretired => ?_
  refine (spares.compileBatches _).bind fun units hunits => ?_
  refine (Action.keeps_get.bind fun s hs => Action.keeps_pure (P := I) hs).bind fun h hI => ?_
  exact Action.keeps_pure ⟨hretired.recordUnits hunits, hlasts h c _ hI (asks_recordUnits h digests sources units _ c) hc⟩

theorem compileRounds (spares : Spares compiler inputs.compilers inputs.options.output F I) (hlasts : Classpath.Lasting I Q)
    (digests : SortedMap Path Digest) (left number : Nat) (sources : List Path) (ha : a.FilesIn F) {c : Classpath}
    (hc : Q c) :
    (compileRounds compiler inputs digests left number sources a c).Keeps (fun s => I s.session.host)
      fun r => Q r.2.2 := by
  induction left generalizing number sources a c with
  | zero => exact Action.keeps_pure hc
  | succ left ih =>
    unfold Engine.compileRounds
    split
    · exact Action.keeps_pure hc
    · refine (spares.compileRound hlasts digests number sources ha hc).bind fun r hr => ?_
      refine (keeps_nextSources spares.logs r.1 left).bind fun next _ => ?_
      exact (ih (number + 1) next hr.1 hr.2).bind fun _ hrest => Action.keeps_pure hrest

/-! ### A compile -/

theorem startingAnalysis (spares : Spares compiler inputs.compilers inputs.options.output F I)
    (hprevious : ∀ previous, inputs.previous = some previous → previous.analysis.FilesIn F) :
    (startingAnalysis inputs).Keeps I fun a => a.FilesIn F := by
  unfold Engine.startingAnalysis
  split
  · exact Action.keeps_pure Analysis.FilesIn.empty
  next previous h =>
    have hfiles := hprevious previous h
    split
    · exact Action.keeps_pure hfiles
    · refine (Host.keeps_report spares.logs _).bind fun _ _ => ?_
      split
      · exact (spares.deleteAllClassFiles hfiles _).bind fun _ _ => Action.keeps_pure Analysis.FilesIn.empty
      · exact Action.keeps_pure Analysis.FilesIn.empty

/-- **Before the first round** the classpath has been opened and asked, if at all. -/
theorem outset (spares : Spares compiler inputs.compilers inputs.options.output F I)
    (hprevious : ∀ previous, inputs.previous = some previous → previous.analysis.FilesIn F)
    (hlasts : Classpath.Lasting I Q)
    (hopens : (Classpath.ofPaths inputs.lookup (externalClasspath inputs.options.classpath inputs.options.output) :
      Action Host EngineError _).Keeps I fun r => Q r.1) :
    (outset inputs : Action (EngineState σ) EngineError Outset).Keeps (fun s => I s.session.host) fun o =>
      o.analysis.FilesIn F ∧ Q o.classpath := by
  unfold Engine.outset
  refine (Action.keeps_get.bind fun s hs => Action.keeps_pure (P := I) hs).bind fun h _ => ?_
  dsimp only
  split
  next digests _ =>
    -- each step passes on what the next one needs: that the files of the analysis are spared, and the property
    rw [pure_bind]
    refine (keeps_onHost (spares.startingAnalysis hprevious)).bind fun a ha => ?_
    refine (keeps_onHost hopens).bind fun opened hopened => ?_
    refine (keeps_onHost (keeps_firstSources spares.logs hlasts _ digests a hopened)).bind fun due hdue => ?_
    exact (keeps_onHost (spares.removeSources _ ha)).bind fun rest hrest => Action.keeps_pure ⟨hrest, hdue⟩
  next => exact Action.keeps_throw _

/-- **After a compile** a property that lasts holds of the classpath if it held when the classpath was opened. -/
theorem compile (spares : Spares compiler inputs.compilers inputs.options.output F I)
    (hprevious : ∀ previous, inputs.previous = some previous → previous.analysis.FilesIn F)
    (hlasts : Classpath.Lasting I Q)
    (hopens : (Classpath.ofPaths inputs.lookup (externalClasspath inputs.options.classpath inputs.options.output) :
      Action Host EngineError _).Keeps I fun r => Q r.1) :
    (compile compiler inputs).Keeps (fun s => I s.session.host) fun out => Q out.classpath := by
  rw [compile_eq]
  refine (spares.outset hprevious hlasts hopens).bind fun o ho => ?_
  exact (spares.compileRounds hlasts o.digests _ _ o.due ho.1 ho.2).bind fun _ hrounds => Action.keeps_pure hrounds

end Spares

/-- **A compile keeps what it spares,** whether it succeeds or fails. -/
theorem compile_keeps {inputs : EngineInputs} (spares : Spares compiler inputs.compilers inputs.options.output F I)
    (hprevious : ∀ previous, inputs.previous = some previous → previous.analysis.FilesIn F) :
    (compile compiler inputs).Keeps (fun s => I s.session.host) fun _ => True :=
  spares.compile hprevious Classpath.lasting_true (keeps_ofPaths spares.logs _ _)

end Engine

end Recompile

import Recompile.Proofs.Calls
import Recompile.Proofs.Compile
import Recompile.Proofs.Fallible

/-!
# What a caller is told

The diagnostics of a compile come from many calls of the compiler, and the caller is told of them once, at the end. Until
then they are in the sink, which leaves out the errors beyond its limit (`Diagnostic.capped`). A compile goes on only while
no error was reported, so that in between the sink stores everything and counts nothing (`Heard`). Each step of the engine
keeps that up or ends the compile, and there are only three ways to end it (`Stopped`): a file that cannot be worked with, a
compiler that cannot be run, and an error, which nothing follows.

`Module.compile_reports` says the same of the caller and of the calls of the compiler.
-/

namespace Recompile

open Recompile.Action

/-! ### The errors that are left out -/

namespace Diagnostic

/-- **Some diagnostics without the errors after the first ones,** of which so many are left in. -/
def capped : (limit : Nat) → List Diagnostic → List Diagnostic
  | _, [] => []
  | limit, d :: rest =>
    if d.isError then
      match limit with
      | 0 => capped 0 rest
      | limit + 1 => d :: capped limit rest
    else d :: capped limit rest

/-- Whether no error is among some diagnostics. -/
def Harmless (ds : List Diagnostic) : Prop := ∀ d ∈ ds, d.isError = false

variable {limit : Nat} {d : Diagnostic} {ds ds' : List Diagnostic}

theorem harmless_append : Harmless (ds ++ ds') ↔ Harmless ds ∧ Harmless ds' := List.forall_mem_append

theorem not_harmless : ¬ Harmless ds ↔ ∃ d ∈ ds, d.isError = true := by simp [Harmless]

theorem capped_append (limit : Nat) (ds ds' : List Diagnostic) :
    capped limit (ds ++ ds') = capped limit ds ++ capped (limit - (ds.filter isError).length) ds' := by
  induction ds generalizing limit with
  | nil => rfl
  | cons d rest ih =>
    cases hd : d.isError with
    | false => simp [capped, hd, ih]
    | true =>
      cases limit with
      | zero => simp [capped, hd, ih]
      | succ limit => simp [capped, hd, ih]

theorem capped_of_harmless (h : Harmless ds) : capped limit ds = ds := by
  induction ds with
  | nil => rfl
  | cons d rest ih =>
    obtain ⟨hd, hrest⟩ := List.forall_mem_cons.1 h
    simp [capped, hd, ih hrest]

theorem capped_append_of_harmless (h : Harmless ds) (ds' : List Diagnostic) :
    capped limit (ds ++ ds') = ds ++ capped limit ds' := by
  have hnone : ds.filter isError = [] := List.filter_eq_nil_iff.2 fun d hd => by simp [h d hd]
  rw [capped_append, capped_of_harmless h, hnone]
  rfl

/-- Nothing but errors is left out. -/
theorem capped_sublist (limit : Nat) (ds : List Diagnostic) : (capped limit ds).Sublist ds := by
  induction ds generalizing limit with
  | nil => exact .slnil
  | cons d rest ih =>
    unfold capped
    split
    · cases limit with
      | zero => exact (ih 0).cons d
      | succ limit => exact (ih limit).cons_cons d
    · exact (ih limit).cons_cons d

/-- The errors that are left in are the first ones. -/
theorem filter_isError_capped (limit : Nat) (ds : List Diagnostic) :
    (capped limit ds).filter isError = (ds.filter isError).take limit := by
  induction ds generalizing limit with
  | nil => simp [capped]
  | cons d rest ih =>
    cases hd : d.isError with
    | false => simp [capped, hd, ih]
    | true =>
      cases limit with
      | zero => simp [capped, hd, ih]
      | succ limit => simp [capped, hd, ih]

/-- All that is no error is left in. -/
theorem filter_not_isError_capped (limit : Nat) (ds : List Diagnostic) :
    (capped limit ds).filter (fun d => !d.isError) = ds.filter fun d => !d.isError := by
  induction ds generalizing limit with
  | nil => rfl
  | cons d rest ih =>
    cases hd : d.isError with
    | false => simp [capped, hd, ih]
    | true =>
      cases limit with
      | zero => simp [capped, hd, ih]
      | succ limit => simp [capped, hd, ih]

/-- If there is an error at all, some errors are left in, and not more than the limit. -/
theorem errors_capped (hlimit : 1 ≤ limit) (h : ¬ Harmless ds) :
    1 ≤ ((capped limit ds).filter isError).length ∧ ((capped limit ds).filter isError).length ≤ limit := by
  obtain ⟨d, hd, herror⟩ := not_harmless.1 h
  have hsome : 0 < (ds.filter isError).length := List.length_pos_of_mem (List.mem_filter.2 ⟨hd, herror⟩)
  rw [filter_isError_capped, List.length_take]
  omega

end Diagnostic

open Diagnostic

namespace Sink

/-- Events have no part in what a sink stores. -/
theorem fst_emitAll (s : Sink) (ds : List Diagnostic) : (s.emitAll ds).1 = ds.foldl emit s := by
  unfold emitAll
  generalize ([] : List Event) = events
  induction ds generalizing s events with
  | nil => rfl
  | cons d rest ih => exact ih _ _

/-- **What a sink stores of some diagnostics:** all but the errors beyond its limit, and it counts all errors. -/
theorem foldl_emit (s : Sink) (ds : List Diagnostic) :
    (ds.foldl emit s).stored = s.stored ++ capped (s.maxErrors - s.errors) ds ∧
      (ds.foldl emit s).errors = s.errors + (ds.filter isError).length ∧ (ds.foldl emit s).maxErrors = s.maxErrors := by
  induction ds generalizing s with
  | nil => simp [capped]
  | cons d rest ih =>
    obtain ⟨hstored, herrors, hmax⟩ := ih (s.emit d)
    rw [List.foldl_cons, hstored, herrors, hmax]
    cases hd : d.isError with
    | false => simp [emit, admits, capped, hd]
    | true =>
      -- an error is stored as long as fewer than the limit were reported
      by_cases hroom : s.errors < s.maxErrors
      · obtain ⟨left, hleft⟩ : ∃ left, s.maxErrors - s.errors = left + 1 := ⟨s.maxErrors - s.errors - 1, by omega⟩
        have hnext : s.maxErrors - (s.errors + 1) = left := by omega
        simp [emit, admits, capped, hd, hroom, hleft, hnext]
        omega
      · have hfull : s.maxErrors - s.errors = 0 := by omega
        have hnext : s.maxErrors - (s.errors + 1) = 0 := by omega
        simp [emit, admits, capped, hd, hroom, hfull, hnext]
        omega

theorem emitAll_of_no_errors {s : Sink} (h : s.errors = 0) (ds : List Diagnostic) :
    (s.emitAll ds).1.stored = s.stored ++ capped s.maxErrors ds ∧
      (s.emitAll ds).1.errors = (ds.filter isError).length ∧ (s.emitAll ds).1.maxErrors = s.maxErrors := by
  have hemit := foldl_emit s ds
  rwa [h, Nat.sub_zero, Nat.zero_add, ← fst_emitAll] at hemit

end Sink

/-! ### Failures of the machine -/

theorem Engine.onHost_failsWith {σ ε α : Type} {E : ε → Prop} {x : Action Host ε α} (hx : x.FailsWith E) :
    (onHost x : Action (EngineState σ) ε α).FailsWith E := by
  intro s e t hrun
  obtain ⟨_, hsession, -⟩ := fails_onPart.1 hrun
  obtain ⟨_, hhost, -⟩ := Session.fails_onHost.1 hsession
  exact hx _ _ _ hhost

/-- Handing diagnostics to the sink does not fail. -/
theorem Engine.emit_failsWith {σ ε : Type} {E : ε → Prop} (ds : List Diagnostic) :
    (emit ds : Action (EngineState σ) ε Unit).FailsWith E :=
  FailsWith.get.bind fun _ => (FailsWith.set _).bind fun _ => onHost_failsWith (.reportAll _)

/-- Whether an engine failed because of a file. -/
def EngineError.IsFile (e : EngineError) : Prop := ∃ path fault, e = .file path fault

namespace Engine

variable {σ : Type} {inputs : EngineInputs} {output : Path}

theorem deleteFiles_failsWith (files : List Path) : (deleteFiles output files).FailsWith EngineError.IsFile := by
  induction files with
  | nil => exact .pure _
  | cons file rest ih =>
    unfold deleteFiles
    refine FailsWith.get.bind fun h => ?_
    split
    · exact (FailsWith.set _).bind fun _ => ih
    · split
      · exact (FailsWith.throw ⟨_, _, rfl⟩).bind fun _ => ih
      · exact ih

theorem deleteAllClassFiles_failsWith (a : Analysis) (sources : List Path) :
    (deleteAllClassFiles output a sources).FailsWith EngineError.IsFile := by
  induction sources with
  | nil => exact .pure _
  | cons source rest ih => exact (deleteFiles_failsWith _).bind fun _ => ih

theorem removeSources_failsWith (sources : List Path) (a : Analysis) :
    (removeSources output sources a).FailsWith EngineError.IsFile := by
  induction sources generalizing a with
  | nil => exact .pure _
  | cons source rest ih => exact (deleteFiles_failsWith _).bind fun _ => ih _

theorem retire_failsWith (sources : List Path) (a : Analysis) (table : ApiTable) :
    (retire output sources a table).FailsWith EngineError.IsFile := by
  rw [retire_eq]
  exact (removeSources_failsWith _ _).bind fun _ => .pure _

theorem startingAnalysis_failsWith (inputs : EngineInputs) : (startingAnalysis inputs).FailsWith EngineError.IsFile := by
  unfold startingAnalysis
  split
  · exact .pure _
  · split
    · exact .pure _
    · refine (FailsWith.report _).bind fun _ => ?_
      dsimp only
      split
      · exact (deleteAllClassFiles_failsWith _ _).bind fun _ => .pure _
      · exact .pure _

theorem ofPaths_failsWith (l : Lookup) (paths : List Path) :
    (Classpath.ofPaths l paths : Action Host EngineError _).FailsWith EngineError.IsFile := by
  intro h e h' hrun
  obtain ⟨c, hopen⟩ := Classpath.exists_reads_ofPaths (ε := EngineError) l paths h
  obtain ⟨log, hyields⟩ := hopen.yields
  have hsame := hyields.symm.trans hrun
  simp at hsame

theorem addStale_failsWith {E : EngineError → Prop} (current : SortedMap Path Digest) (records : List (Path × SourceInfo))
    (invalid : SortedSet Path) (c : Classpath) :
    (addStale current records invalid c : Action Host EngineError _).FailsWith E := by
  induction records generalizing invalid c with
  | nil => exact .pure _
  | cons e rest ih =>
    unfold addStale
    split
    · exact ih _ _
    · refine FailsWith.get.bind fun h => ?_
      split
      · exact ih _ _
      · exact (FailsWith.report _).bind fun _ => ih _ _

theorem firstSources_failsWith (changes : Changes) (digests : SortedMap Path Digest) (a : Analysis) (c : Classpath) :
    (firstSources changes digests a c).FailsWith EngineError.IsFile :=
  (addStale_failsWith _ _ _ _).bind fun _ => (FailsWith.report _).bind fun _ => .pure _

/-- Sources have no digests only if one of them cannot be read. -/
theorem isFile_of_sourceDigests {h : Host} {sources : List Path} {e : EngineError} (hfails : sourceDigests h sources = .error e) :
    e.IsFile := by
  -- the table is made of the list, which is the only part that can fail
  suffices hlist : ∀ e, digestSources h sources = .error e → e.IsFile by
    obtain hl | ⟨_, -, hmade⟩ := bind_eq_error_iff.1 hfails
    · exact hlist _ hl
    · cases hmade
  clear hfails
  induction sources with
  | nil => simp [digestSources]
  | cons p rest ih =>
    intro e hfails
    unfold digestSources at hfails
    split at hfails
    next fault _ => exact ⟨p, fault, (Except.error.inj hfails).symm⟩
    next =>
      obtain hrest | ⟨_, -, hmade⟩ := bind_eq_error_iff.1 hfails
      · exact ih _ hrest
      · cases hmade

/-! ### A running compile -/

end Engine

/-- The diagnostics of some calls, one call after the other. -/
def CompilerCall.reported (calls : List CompilerCall) : List Diagnostic := calls.flatMap fun call => call.output.diagnostics

/-- Whether a compiler, where it fails, could not be run or had trouble with a file: errors in the sources are for it to
report. -/
def SourceCompiler.ReportsErrors {σ : Type} (compiler : SourceCompiler σ) : Prop :=
  ∀ compilers request, (compiler compilers request).FailsWith fun e => ∀ errors, e ≠ .failed errors

/-- **A compile in which no error was reported so far:** the sink has stored everything that the calls reported. -/
structure Heard {σ : Type} (limit : Nat) (s : EngineState (σ × List CompilerCall)) : Prop where
  stored : s.sink.stored = CompilerCall.reported s.session.tool.2
  harmless : Harmless (CompilerCall.reported s.session.tool.2)
  errors : s.sink.errors = 0
  limit : s.sink.maxErrors = limit

/-- **How a compile ends that was stopped.** -/
inductive Stopped {σ : Type} (limit : Nat) : EngineError → EngineState (σ × List CompilerCall) → Prop
  /-- A file cannot be worked with. -/
  | file (path : Path) (fault : Fault) (s : EngineState (σ × List CompilerCall)) : Stopped limit (.file path fault) s
  /-- The last call could not be run. -/
  | compiler {s : EngineState (σ × List CompilerCall)} {before : List CompilerCall} {request : CompileRequest} {reason : String}
      (heard : Heard limit s) (calls : s.session.tool.2 = before ++ [⟨request, .error (.compiler reason)⟩]) :
      Stopped limit (.compiler reason) s
  /-- The last call reported an error, and no other one did. -/
  | failed {s : EngineState (σ × List CompilerCall)} {before : List CompilerCall} {call : CompilerCall} (errors : Nat)
      (stored : s.sink.stored = capped limit (CompilerCall.reported s.session.tool.2))
      (calls : s.session.tool.2 = before ++ [call]) (harmless : Harmless (CompilerCall.reported before))
      (error : ¬ Harmless call.output.diagnostics) : Stopped limit (.failed errors) s

theorem CompilerCall.reported_append (calls calls' : List CompilerCall) :
    reported (calls ++ calls') = reported calls ++ reported calls' := List.flatMap_append

theorem EngineError.IsFile.stopped {σ : Type} {limit : Nat} {e : EngineError} (he : e.IsFile)
    (s : EngineState (σ × List CompilerCall)) : Stopped limit e s := by
  obtain ⟨path, fault, rfl⟩ := he
  exact .file path fault s

namespace Heard

open Engine

variable {σ α : Type} {limit : Nat} {s t : EngineState (σ × List CompilerCall)} {inputs : EngineInputs}
  {compiler : SourceCompiler σ}

/-- Nothing but the calls and the sink matters. -/
theorem congr (h : Heard limit s) (htool : t.session.tool = s.session.tool) (hsink : t.sink = s.sink) : Heard limit t where
  stored := by rw [hsink, htool]; exact h.stored
  harmless := by rw [htool]; exact h.harmless
  errors := by rw [hsink]; exact h.errors
  limit := by rw [hsink]; exact h.limit

/-- A step on the machine has nothing to do with diagnostics. -/
theorem onHost (h : Heard limit s) {x : Action Host EngineError α} (hx : x.FailsWith EngineError.IsFile) :
    (Engine.onHost x : Action (EngineState (σ × List CompilerCall)) EngineError α).Ends s (fun _ => Heard limit)
      (Stopped limit) where
  success a t hrun := by
    obtain ⟨_, -, rfl⟩ := yields_onHost.1 hrun
    exact h.congr rfl rfl
  failure e t hrun := (onHost_failsWith hx _ _ _ hrun).stopped t

theorem machine (h : Heard limit s) :
    (Engine.machine : Action (EngineState (σ × List CompilerCall)) EngineError Host).Ends s (fun _ => Heard limit)
      (Stopped limit) where
  success a t hrun := by
    obtain ⟨-, rfl⟩ := yields_machine.1 hrun
    exact h
  failure e t hrun := by
    rcases fails_bind.1 hrun with hget | ⟨_, _, -, hpure⟩
    · exact absurd hget not_fails_get
    · exact absurd hpure not_fails_pure

/-- The compiler leaves a note, and stops the compile if it cannot be run. -/
theorem call (h : Heard limit s) (hcompiler : compiler.ReportsErrors) (request : CompileRequest) :
    (onPart EngineState.session (fun session s => { s with session }) (compiler.noting inputs.compilers request)).Ends s
      (fun output t => t.sink = s.sink ∧ t.session.tool.2 = s.session.tool.2 ++ [⟨request, .ok output⟩]) (Stopped limit) := by
  rcases hanswer : ((compiler inputs.compilers request).run.run s.session.withoutNotes).run with ⟨answer, after⟩
  have hnoted := compiler.run_noting inputs.compilers request s.session hanswer
  refine ⟨fun output t hrun => ?_, fun e t hrun => ?_⟩
  · obtain ⟨session, hyields, rfl⟩ := yields_onPart.1 hrun
    obtain ⟨rfl, rfl⟩ := Prod.mk.inj (hnoted.symm.trans hyields)
    exact ⟨rfl, rfl⟩
  · obtain ⟨session, hfails, rfl⟩ := fails_onPart.1 hrun
    obtain ⟨rfl, rfl⟩ := Prod.mk.inj (hnoted.symm.trans hfails)
    cases e with
    | file path fault => exact .file path fault _
    | failed errors => exact absurd rfl (hcompiler _ _ _ _ _ hanswer errors)
    | compiler reason =>
      -- a call that was not answered reported nothing
      have hsilent : CompilerCall.reported (s.session.tool.2 ++ [⟨request, .error (.compiler reason)⟩]) =
          CompilerCall.reported s.session.tool.2 := by
        rw [CompilerCall.reported_append]
        exact List.append_nil _
      refine .compiler ⟨?_, ?_, h.errors, h.limit⟩ rfl
      · exact h.stored.trans hsilent.symm
      · exact hsilent ▸ h.harmless

/-- Diagnostics go to the sink, and nowhere else. -/
theorem ends_emit (s : EngineState (σ × List CompilerCall)) (ds : List Diagnostic)
    {E : EngineError → EngineState (σ × List CompilerCall) → Prop} :
    (emit ds : Action (EngineState (σ × List CompilerCall)) EngineError Unit).Ends s
      (fun _ t => t.session.tool = s.session.tool ∧ t.sink = (s.sink.emitAll ds).1) E where
  success _ t hrun := by
    unfold emit at hrun
    simp only [yields_bind, yields_get, yields_set, yields_onHost] at hrun
    obtain ⟨_, _, ⟨rfl, rfl⟩, _, _, rfl, _, -, rfl⟩ := hrun
    exact ⟨rfl, rfl⟩
  failure e t hrun := (emit_failsWith (E := fun _ => False) ds s e t hrun).elim

/-- What the sink stores after one more call: everything, except errors of that call beyond the limit. -/
theorem emitted (h : Heard limit s) {call : CompilerCall} (hsink : t.sink = (s.sink.emitAll call.output.diagnostics).1)
    (hcalls : t.session.tool.2 = s.session.tool.2 ++ [call]) :
    CompilerCall.reported t.session.tool.2 = CompilerCall.reported s.session.tool.2 ++ call.output.diagnostics ∧
      t.sink.stored = capped limit (CompilerCall.reported t.session.tool.2) ∧
      t.sink.errors = (call.output.diagnostics.filter isError).length ∧ t.sink.maxErrors = limit := by
  obtain ⟨hstored, herrors, hmax⟩ := Sink.emitAll_of_no_errors h.errors call.output.diagnostics
  have hreported : CompilerCall.reported t.session.tool.2 =
      CompilerCall.reported s.session.tool.2 ++ call.output.diagnostics := by
    rw [hcalls, CompilerCall.reported_append]
    exact congrArg _ (List.append_nil _)
  refine ⟨hreported, ?_, by rw [hsink, herrors], by rw [hsink, hmax, h.limit]⟩
  rw [hsink, hstored, h.stored, h.limit, hreported, capped_append_of_harmless h.harmless]

/-- **A call goes on, or stops the compile.** -/
theorem compileBatch (h : Heard limit s) (hcompiler : compiler.ReportsErrors) (batch : List Path) :
    (Engine.compileBatch compiler.noting inputs batch).Ends s (fun _ => Heard limit) (Stopped limit) := by
  refine (h.call hcompiler _).bind fun output t ht => (ends_emit t output.diagnostics).bind fun _ t' ht' => ?_
  obtain ⟨hsink, hcalls⟩ := ht
  obtain ⟨htool, hsink'⟩ := ht'
  rw [hsink] at hsink'
  rw [← htool] at hcalls
  obtain ⟨hreported, hstored, herrors, hmax⟩ := h.emitted hsink' hcalls
  refine ends_get.bind fun now after hnow => ?_
  obtain ⟨rfl, rfl⟩ := hnow
  by_cases herror : Harmless output.diagnostics
  · -- no error, and the compile goes on
    have hnone : after.sink.errors = 0 := by
      rw [herrors, List.length_eq_zero_iff, List.filter_eq_nil_iff]
      exact fun d hd => by simp [herror d hd]
    have hharmless : Harmless (CompilerCall.reported after.session.tool.2) := by
      rw [hreported]
      exact harmless_append.2 ⟨h.harmless, herror⟩
    rw [if_neg (by simp [Sink.hasErrors, hnone])]
    exact ends_pure ⟨by rw [hstored, capped_of_harmless hharmless], hharmless, hnone, hmax⟩
  · have hsome : 0 < after.sink.errors := by
      obtain ⟨d, hd, hderror⟩ := not_harmless.1 herror
      rw [herrors]
      exact List.length_pos_of_mem (List.mem_filter.2 ⟨hd, hderror⟩)
    rw [if_pos (by simp [Sink.hasErrors, hsome])]
    exact (ends_throw (.failed _ hstored hcalls h.harmless herror)).bind fun _ _ hnever => (hnever : False).elim

theorem compileBatches (h : Heard limit s) (hcompiler : compiler.ReportsErrors) (bs : List (List Path)) :
    (Engine.compileBatches compiler.noting inputs bs).Ends s (fun _ => Heard limit) (Stopped limit) := by
  induction bs generalizing s with
  | nil => exact ends_pure h
  | cons batch rest ih =>
    unfold Engine.compileBatches
    split
    · exact ih h
    · exact (h.compileBatch hcompiler batch).bind fun _ t ht => (ih ht).bind fun _ _ ht' => ends_pure ht'

theorem compileRound (h : Heard limit s) (hcompiler : compiler.ReportsErrors) (digests : SortedMap Path Digest)
    (number : Nat) (due : List Path) (a : Analysis) (c : Classpath) :
    (Engine.compileRound compiler.noting inputs digests number due a c).Ends s (fun _ => Heard limit) (Stopped limit) := by
  refine (h.onHost (.report _)).bind fun _ _ h₁ => (h₁.onHost (retire_failsWith _ _ _)).bind fun retired _ h₂ => ?_
  exact (h₂.compileBatches hcompiler _).bind fun _ _ h₃ => h₃.machine.bind fun _ _ h₄ => ends_pure h₄

theorem nextSources (h : Heard limit s) (r : Round) (left : Nat) :
    (Engine.nextSources r left : Action (EngineState (σ × List CompilerCall)) EngineError _).Ends s (fun _ => Heard limit)
      (Stopped limit) := by
  cases left with
  | zero => exact ends_pure h
  | succ left =>
    unfold Engine.nextSources
    dsimp only
    split
    · exact ends_pure h
    · refine (h.onHost (.report _)).bind fun _ _ h₁ => ?_
      split
      · exact (h₁.onHost (.report _)).bind fun _ _ h₂ => ends_pure h₂
      · exact ends_pure h₁

theorem compileRounds (h : Heard limit s) (hcompiler : compiler.ReportsErrors) (digests : SortedMap Path Digest)
    (left number : Nat) (due : List Path) (a : Analysis) (c : Classpath) :
    (Engine.compileRounds compiler.noting inputs digests left number due a c).Ends s (fun _ => Heard limit)
      (Stopped limit) := by
  induction left generalizing s number due a c with
  | zero => exact ends_pure h
  | succ left ih =>
    unfold Engine.compileRounds
    split
    · exact ends_pure h
    · refine (h.compileRound hcompiler digests number due a c).bind fun r _ h₁ => ?_
      exact (h₁.nextSources r.1 left).bind fun next _ h₂ => (ih h₂ _ _ _ _).bind fun _ _ h₃ => ends_pure h₃

theorem outset (h : Heard limit s) (inputs : EngineInputs) :
    (Engine.outset inputs : Action (EngineState (σ × List CompilerCall)) EngineError _).Ends s (fun _ => Heard limit)
      (Stopped limit) := by
  refine h.machine.bind fun m _ h₁ => ?_
  dsimp only
  split
  next digests _ =>
    rw [pure_bind]
    refine (h₁.onHost (startingAnalysis_failsWith inputs)).bind fun a _ h₂ => ?_
    refine (h₂.onHost (ofPaths_failsWith _ _)).bind fun opened _ h₃ => ?_
    refine (h₃.onHost (firstSources_failsWith _ _ _ _)).bind fun due _ h₄ => ?_
    exact (h₄.onHost (removeSources_failsWith _ _)).bind fun _ _ h₅ => ends_pure h₅
  next e hdigests =>
    exact (ends_throw ((isFile_of_sourceDigests hdigests).stopped _)).bind fun _ _ hnever => (hnever : False).elim

/-- **A compile ends without an error, or is stopped.** -/
theorem compile (h : Heard limit s) (hcompiler : compiler.ReportsErrors) (inputs : EngineInputs) :
    (Engine.compile compiler.noting inputs).Ends s (fun _ => Heard limit) (Stopped limit) := by
  rw [compile_eq]
  refine (h.outset inputs).bind fun o _ h₁ => ?_
  exact (h₁.compileRounds hcompiler o.digests _ _ o.due o.analysis o.classpath).bind fun _ _ h₂ => ends_pure h₂

end Heard

/-! ### A compile of a module -/

/-- **What a caller is told of a compile that failed** because of the sources or of the compiler. -/
inductive Told (limit : Nat) : List Diagnostic → List CompilerCall → Prop
  /-- The last call reported errors, and no other one did. The caller is told everything but the errors beyond the limit. -/
  | errors {before : List CompilerCall} {call : CompilerCall} (harmless : Harmless (CompilerCall.reported before))
      (error : ¬ Harmless call.output.diagnostics) :
      Told limit (capped limit (CompilerCall.reported (before ++ [call]))) (before ++ [call])
  /-- The last call could not be run, and no other one reported an error. The caller is told everything, and why. -/
  | unable {before : List CompilerCall} {request : CompileRequest} {reason : String}
      (harmless : Harmless (CompilerCall.reported before)) :
      Told limit (CompilerCall.reported before ++ [⟨.error, reason, .unknown⟩])
        (before ++ [⟨request, .error (.compiler reason)⟩])

/-- The caller is told of an error, and of not more than the limit. -/
theorem Told.errors_le {limit : Nat} (hlimit : 1 ≤ limit) {ds : List Diagnostic} {calls : List CompilerCall}
    (h : Told limit ds calls) : 1 ≤ (ds.filter isError).length ∧ (ds.filter isError).length ≤ limit := by
  cases h with
  | errors harmless error =>
    refine errors_capped hlimit fun hnone => error ?_
    rw [CompilerCall.reported_append, harmless_append] at hnone
    exact fun d hd => hnone.2 d (List.mem_append_left _ hd)
  | @unable before _ _ harmless =>
    have hnone : (CompilerCall.reported before).filter isError = [] :=
      List.filter_eq_nil_iff.2 fun d hd => by simp [harmless d hd]
    rw [List.filter_append, hnone]
    simpa [isError] using hlimit

/-- Whether a failure of a compile is none that comes with diagnostics. -/
def CompileError.IsSilent (e : CompileError) : Prop := ∀ ds, e ≠ .failed ds

theorem CompileError.isSilent_ofAnalysis (e : AnalysisError) : (ofAnalysis e).IsSilent := by
  intro ds
  cases e <;> simp [ofAnalysis]

namespace Module

variable {σ : Type} {m : Module} {compiler : SourceCompiler σ} {t : CompileTask} {limit : Nat}
  {s : Session (σ × List CompilerCall)} {state : EngineState (σ × List CompilerCall)}

/-- Before the engine starts there are no diagnostics. -/
theorem begin_failsWith (m : Module) (t : CompileTask) : (m.begin t).FailsWith CompileError.IsSilent := by
  refine (FailsWith.mapFailure CompileError.isSilent_ofAnalysis).bind fun _ => ?_
  refine FailsWith.bind (fun h e h' hrun => ?_) fun _ => (FailsWith.report _).bind fun _ => .pure _
  obtain ⟨fault, -, rfl, -⟩ := Host.fails_makeDirAll.1 hrun
  exact fun ds => by simp

/-- A compile that heard no error hands on everything it heard. -/
theorem ends_conclude_ok (h : Heard limit state) (out : EngineOutput) :
    (m.conclude (.ok out, state)).Ends s
      (fun outcome after => outcome.diagnostics = CompilerCall.reported after.tool.2 ∧
        Harmless (CompilerCall.reported after.tool.2))
      (fun e _ => e.IsSilent) where
  success outcome after hrun := by
    obtain ⟨_, hout, rfl, _, -, rfl⟩ := yields_conclude.1 hrun
    exact ⟨h.stored, h.harmless⟩
  failure e after hrun := by
    have hsilent : (m.conclude (.ok out, state)).FailsWith CompileError.IsSilent := by
      refine (FailsWith.set _).bind fun _ => ?_
      refine (Session.onHost_failsWith (.mapFailure CompileError.isSilent_ofAnalysis)).bind fun _ => ?_
      exact (Session.onHost_failsWith (.report _)).bind fun _ => .pure _
    exact hsilent s e after hrun

/-- A compile that was stopped hands on what stopped it. -/
theorem ends_conclude_error (hlimit : 1 ≤ limit) {e : EngineError} (h : Stopped limit e state) :
    (m.conclude (.error e, state)).Ends s (fun _ _ => False) fun e' after => ∀ ds, e' = .failed ds → Told limit ds after.tool.2 where
  success outcome after hrun := by
    obtain ⟨_, hout, -⟩ := yields_conclude.1 hrun
    simp at hout
  failure e' after hrun := by
    obtain ⟨rfl, htool⟩ : e' = (failure state.sink e).1 ∧ after.tool = state.session.tool := by
      simp only [conclude] at hrun
      obtain ⟨_, _, hset, hrun⟩ := (fails_bind.1 hrun).resolve_left not_fails_set
      obtain rfl := yields_set.1 hset
      rcases fails_bind.1 hrun with hreport | ⟨_, _, hreport, hthrow⟩
      · obtain ⟨_, hfails, -⟩ := Session.fails_onHost.1 hreport
        exact absurd hfails Host.not_fails_reportAll
      · obtain ⟨_, -, rfl⟩ := Session.yields_onHost.1 hreport
        obtain ⟨rfl, rfl⟩ := fails_throw.1 hthrow
        exact ⟨rfl, rfl⟩
    rintro ds hds
    rw [htool]
    cases h with
    | file => simp [failure] at hds
    | failed errors stored calls harmless error =>
      obtain rfl : state.sink.stored = ds := CompileError.failed.inj hds
      rw [stored, calls]
      exact .errors harmless error
    | @compiler _ before request reason heard calls =>
      -- the sink takes one more error
      obtain rfl : (state.sink.emitAll [⟨.error, reason, .unknown⟩]).1.stored = ds := CompileError.failed.inj hds
      obtain ⟨hstored, -, -⟩ := Sink.emitAll_of_no_errors heard.errors [⟨.error, reason, .unknown⟩]
      have hsilent : CompilerCall.reported state.session.tool.2 = CompilerCall.reported before := by
        rw [calls, CompilerCall.reported_append]
        exact List.append_nil _
      obtain ⟨room, hroom⟩ : ∃ room, limit = room + 1 := ⟨limit - 1, by omega⟩
      rw [hstored, heard.stored, heard.limit, hsilent, calls, hroom]
      exact .unable (hsilent ▸ heard.harmless)

/-- **A compile of a module** with a compiler that notes its calls. -/
theorem ends_compile (hlimit : 1 ≤ m.maxErrors) (hcompiler : compiler.ReportsErrors) (hnone : s.tool.2 = []) :
    (m.compile compiler.noting t).Ends s
      (fun outcome after => outcome.diagnostics = CompilerCall.reported after.tool.2 ∧
        Harmless (CompilerCall.reported after.tool.2))
      (fun e after => ∀ ds, e = .failed ds → Told m.maxErrors ds after.tool.2) := by
  have hbegin : (Session.onHost (m.begin t) : Action (Session (σ × List CompilerCall)) _ _).Ends s
      (fun _ after => after.tool.2 = []) (fun e _ => e.IsSilent) := by
    refine ⟨fun _ _ hrun => ?_, fun e after hrun => Session.onHost_failsWith (begin_failsWith m t) s e after hrun⟩
    obtain ⟨_, -, rfl⟩ := Session.yields_onHost.1 hrun
    exact hnone
  refine (hbegin.mono (fun _ _ h => h) fun e _ h ds hds => absurd hds (h ds)).bind fun previous begun hbegun => ?_
  refine ends_get.bind fun now after hnow => ?_
  obtain ⟨rfl, rfl⟩ := hnow
  -- the engine starts with an empty sink
  have hstart : Heard m.maxErrors (m.engineState after) := by
    refine ⟨?_, ?_, rfl, rfl⟩
    · exact (congrArg CompilerCall.reported hbegun).symm
    · rw [show (m.engineState after).session.tool.2 = [] from hbegun]
      exact fun d hd => absurd hd List.not_mem_nil
  have hengine := hstart.compile hcompiler (m.inputs t previous)
  rcases hrun : ((Engine.compile compiler.noting (m.inputs t previous)).run.run (m.engineState after)).run with ⟨result, state⟩
  cases result with
  | ok out =>
    refine (ends_conclude_ok (hengine.success out state hrun) out).mono (fun _ _ h => h) fun e _ h ds hds => ?_
    exact absurd hds (h ds)
  | error e => exact (ends_conclude_error hlimit (hengine.failure e state hrun)).mono (fun _ _ h => h.elim) fun _ _ h => h

/-- **Diagnostics reach the caller.** If a compile succeeds, its diagnostics are those that the calls of the compiler
reported, in order, and there is no error among them. If it fails with diagnostics, the caller is told what the calls
reported and what the failure was (`Told`), and of at least one error and not more than the limit. -/
theorem compile_reports (hlimit : 1 ≤ m.maxErrors) (hcompiler : compiler.ReportsErrors) (s : Session σ) :
    (∀ outcome s', (m.compile compiler t).Yields s outcome s' →
      outcome.diagnostics = CompilerCall.reported (m.calls compiler t s) ∧
        Harmless (CompilerCall.reported (m.calls compiler t s))) ∧
    ∀ ds s', (m.compile compiler t).Fails s (.failed ds) s' →
      Told m.maxErrors ds (m.calls compiler t s) ∧
        1 ≤ (ds.filter isError).length ∧ (ds.filter isError).length ≤ m.maxErrors := by
  have hends := ends_compile (s := s.unnoted) (t := t) hlimit hcompiler rfl
  have hcalls : ∀ {result after}, ((m.compile compiler.noting t).run.run s.unnoted).run = (result, after) →
      m.calls compiler t s = after.tool.2 := by
    intro result after hrun
    unfold calls
    rw [hrun]
  refine ⟨fun outcome s' hrun => ?_, fun ds s' hrun => ?_⟩
  · obtain ⟨after, hnoted, -⟩ := (m.shows_compile compiler t).exists_run (t := s.unnoted) hrun
    rw [hcalls hnoted]
    exact hends.success outcome after hnoted
  · obtain ⟨after, hnoted, -⟩ := (m.shows_compile compiler t).exists_run (t := s.unnoted) hrun
    rw [hcalls hnoted]
    have htold := hends.failure _ after hnoted ds rfl
    exact ⟨htold, htold.errors_le hlimit⟩

/-! ### More errors than the limit -/

/-- A compiler that has a warning and two errors to report. -/
private def noisy : SourceCompiler Unit := fun _ _ =>
  return { diagnostics := [⟨.warning, "unused", .unknown⟩, ⟨.error, "no", .unknown⟩, ⟨.error, "not either", .unknown⟩] }

/-- A module that reports one error at most. -/
private def terse : Module where
  compilers := ⟨⟨⟨2, 13, 12, none⟩, "library.jar", "compiler.jar", ⟨⟨"2.13.12", []⟩, ∅⟩⟩, "bridge.jar"⟩
  store := "s"
  maxErrors := 1

private def terseTask : CompileTask := ⟨[], ["A"], "o", [], []⟩

private def terseSession : Session Unit := ⟨{ files := (∅ : Files).put ["A"] (.file [1] false) }, ()⟩

/-- Of two errors and a warning, the caller of a terse module is told the warning and the first error. -/
theorem compile_reports_first_error :
    ∃ ds s', (terse.compile noisy terseTask).Fails terseSession (.failed ds) s' ∧
      (CompileError.failed ds).message = "compilation failed with 1 error(s)" ∧
      Told terse.maxErrors ds (terse.calls noisy terseTask terseSession) ∧
      1 ≤ (ds.filter isError).length ∧ (ds.filter isError).length ≤ terse.maxErrors := by
  have hreports : noisy.ReportsErrors := fun _ _ => .pure _
  have hfails : ((terse.compile noisy terseTask).failure? terseSession).map (fun e => (e.stage, e.message)) =
      some ("compile", "compilation failed with 1 error(s)") := by
    decide +kernel
  obtain ⟨e, hfailure, he⟩ := Option.map_eq_some_iff.1 hfails
  obtain ⟨hstage, hmessage⟩ := Prod.mk.inj he
  obtain ⟨s', hrun⟩ := exists_fails_of_failure? hfailure
  cases e with
  | failed ds =>
    exact ⟨ds, s', hrun, hmessage, (compile_reports (by decide) hreports terseSession).2 ds s' hrun⟩
  | _ => simp [CompileError.stage] at hstage

end Module

end Recompile

import Recompile.Proofs.Asking
import Recompile.Proofs.Settled
import Recompile.Proofs.Untouched

/-!
# Two runs side by side

Two steps are run from a state each. `Action.Alike` says that the two runs have the same outcome and leave related states.
For a compile the relation is that both machines have a property that the compile spares, that the diagnostics so far are
the same, and that the compiler was sent the same requests so far (`Engine.Abreast`). If machines with the property look
alike as far as a compile sees them (`Engine.LookAlike`), and the compiler answers by what it is asked and by the contents
of the sources (`SourceCompiler.Determined`), the rounds of two compiles go alike (`Engine.alike_compileRounds`).

Deleting class files is the one thing that may go well on one of the machines and fail on the other. That it does not fail
is a condition on both runs (`Engine.RoundsClear`).
-/

namespace Recompile

namespace Action

variable {σ τ ε α β : Type}

/-- **Two runs that go alike:** they have the same outcome and leave related states. -/
def Alike (R : σ → σ → Prop) (x : Action σ ε α) (s : σ) (y : Action σ ε α) (t : σ) : Prop :=
  (x.run.run s).run.1 = (y.run.run t).run.1 ∧ R (x.run.run s).run.2 (y.run.run t).run.2

/-- Whether a step on the machine succeeds, whatever was logged before. -/
def Succeeds (x : Action Host ε α) (h : Host) : Prop := ∀ log, ∃ a h', x.Yields { h with log } a h'

variable {R : σ → σ → Prop} {x y : Action σ ε α} {s t : σ}

theorem alike_pure {a : α} (h : R s t) : Alike R (pure a : Action σ ε α) s (pure a) t := ⟨rfl, h⟩

theorem alike_throw {e : ε} (h : R s t) : Alike R (throw e : Action σ ε α) s (throw e) t := ⟨rfl, h⟩

theorem alike_set {s' t' : σ} (h : R s' t') : Alike R (set s' : Action σ ε PUnit) s (set t') t := ⟨rfl, h⟩

/-- Looking at the state is going on with it. -/
theorem Alike.get {f g : σ → Action σ ε β} (h : Alike R (f s) s (g t) t) : Alike R (get >>= f) s (get >>= g) t := h

/-- Runs that succeed with the same result go alike. -/
theorem Alike.of_yields {a : α} {s' t' : σ} (hs : x.Yields s a s') (ht : y.Yields t a t') (h : R s' t') :
    Alike R x s y t := by
  unfold Alike
  rw [show (x.run.run s).run = _ from hs, show (y.run.run t).run = _ from ht]
  exact ⟨rfl, h⟩

theorem Alike.exists_runs (h : Alike R x s y t) :
    ∃ r s' t', (x.run.run s).run = (r, s') ∧ (y.run.run t).run = (r, t') ∧ R s' t' := by
  obtain ⟨hsame, hstates⟩ := h
  rcases hs : (x.run.run s).run with ⟨r, s'⟩
  rcases ht : (y.run.run t).run with ⟨r', t'⟩
  rw [hs, ht] at hsame hstates
  obtain rfl : r = r' := hsame
  exact ⟨r, s', t', rfl, rfl, hstates⟩

/-- Runs that fail alike go alike. -/
theorem Alike.of_fails {e : ε} {s' t' : σ} (hs : x.Fails s e s') (ht : y.Fails t e t') (h : R s' t') :
    Alike R x s y t := by
  unfold Alike
  rw [show (x.run.run s).run = _ from hs, show (y.run.run t).run = _ from ht]
  exact ⟨rfl, h⟩

/-- Runs that go alike yield the same. -/
theorem Alike.eq_of_yields (h : Alike R x s y t) {a b : α} {s' t' : σ} (hs : x.Yields s a s') (ht : y.Yields t b t') :
    b = a := by
  have hsame := h.1
  rw [show (x.run.run s).run = _ from hs, show (y.run.run t).run = _ from ht] at hsame
  exact (Except.ok.inj hsame).symm

/-- **Sequences go alike** if their first parts do, and the rest does after them. -/
theorem Alike.bind {f g : α → Action σ ε β} (hxy : Alike R x s y t)
    (hfg : ∀ a s' t', x.Yields s a s' → y.Yields t a t' → R s' t' → Alike R (f a) s' (g a) t') :
    Alike R (x >>= f) s (y >>= g) t := by
  obtain ⟨hsame, hstates⟩ := hxy
  unfold Alike at hfg ⊢
  rw [ExceptT.run_bind, ExceptT.run_bind, StateT.run_bind, StateT.run_bind]
  rcases hs : (x.run.run s).run with ⟨r, s'⟩
  rcases ht : (y.run.run t).run with ⟨r', t'⟩
  rw [hs, ht] at hsame hstates
  obtain rfl : r = r' := hsame
  cases r with
  | error e => simpa [hs, ht] using hstates
  | ok a => simpa [hs, ht] using hfg a s' t' hs ht hstates

/-- Two runs of a step with one outcome have on both sides what the step keeps. -/
theorem Alike.of_keeps {I : σ → Prop} {P : α → Prop} (hx : x.Keeps I P) (hs : I s) (ht : I t)
    (hsame : (x.run.run s).run.1 = (x.run.run t).run.1) : Alike (fun s t => I s ∧ I t) x s x t :=
  ⟨hsame, (hx s hs).1, (hx t ht).1⟩

end Action

open Recompile.Action

/-- **A compiler that is determined** by the contents of some sources: as long as all of them can be read, its answer to a
request for some of them depends on nothing else. -/
def SourceCompiler.Determined {σ : Type} (compiler : SourceCompiler σ) (sources : List Path) : Prop :=
  ∀ compilers request s t, (∀ p ∈ request.sources, p.Among sources) →
    (∀ p ∈ sources, ∃ data, s.host.read p = .ok data ∧ t.host.read p = .ok data) →
    ((compiler compilers request).run.run s).run.1 = ((compiler compilers request).run.run t).run.1

namespace Engine

/-- What opening the classpath of a compile finds on a machine. -/
def openedOn (inputs : EngineInputs) (h : Host) : Except EngineError (Classpath × Lookup) :=
  ((Classpath.ofPaths inputs.lookup (externalClasspath inputs.options.classpath inputs.options.output) :
    Action Host EngineError _).run.run h).run.1

/-- **Machines that look alike to a compile:** the sources have the same contents, and the entries of the classpath, opened
on the first machine, give every class the same fingerprint on both. -/
structure LookAlike (inputs : EngineInputs) (h h' : Host) : Prop where
  sources : ∀ p ∈ inputs.options.sources, h.read p = h'.read p
  opens : openedOn inputs h = openedOn inputs h'
  answers : ∀ c l, openedOn inputs h = .ok (c, l) → c.SameOn h h'

/-- Whether some sources have the same contents on all machines with a property. -/
def ReadAlike (I : Host → Prop) (sources : List Path) : Prop :=
  ∀ h h', I h → I h' → ∀ p ∈ sources, ∃ data, h.read p = .ok data ∧ h'.read p = .ok data

/-- **Whether no class file deletion of some rounds fails.** -/
def RoundsClear {σ : Type} (compiler : SourceCompiler σ) (inputs : EngineInputs) (digests : SortedMap Path Digest) :
    (left : Nat) → (number : Nat) → List Path → Analysis → Classpath → EngineState σ → Prop
  | 0, _, _, _, _, _ => True
  | left + 1, number, due, a, c, s =>
    due ≠ [] →
      Succeeds (retire inputs.options.output due a ∅) s.session.host ∧
      ∀ r c' s₁ next s₂, (compileRound compiler inputs digests number due a c).Yields s (r, c') s₁ →
        (nextSources r left : Action (EngineState σ) EngineError _).Yields s₁ next s₂ →
        RoundsClear compiler inputs digests left (number + 1) next r.after c' s₂

/-! ### Looking for stale sources -/

section Stale

variable {I : Host → Prop} {h h' : Host} {ε : Type}

theorem alike_addStale (hlogs : ∀ h log, I h → I { h with log }) (hI : I h) (hI' : I h') (current : SortedMap Path Digest)
    (records : List (Path × SourceInfo)) (invalid : SortedSet Path) {c : Classpath}
    (hsame : ∀ h h', I h → I h' → c.SameOn h h') :
    Alike (fun h h' => I h ∧ I h') (addStale current records invalid c : Action Host ε _) h
      (addStale current records invalid c) h' := by
  -- over the records; the class path of the next one has been asked the same questions on both sides
  induction records generalizing invalid c h h' with
  | nil => exact alike_pure ⟨hI, hI'⟩
  | cons e rest ih =>
    obtain ⟨path, info⟩ := e
    unfold addStale
    split
    · exact ih hI hI' invalid hsame
    · refine Alike.get ?_
      have hasked : ∀ m m', I m → I m' → (staleClass h' info.binaryDeps.entries c).2.SameOn m m' :=
        fun m m' hm hm' => (hsame m m' hm hm').asked (asks_staleClass h' _ c)
      rw [staleClass_congr _ (hsame h h' hI hI')]
      rcases hstale : staleClass h' info.binaryDeps.entries c with ⟨_ | name, c₁⟩
      all_goals rw [hstale] at hasked
      · exact ih hI hI' invalid hasked
      · refine Alike.bind (.of_keeps (Host.keeps_report hlogs _) hI hI' rfl) fun _ m m' _ _ hm => ?_
        exact ih hm.1 hm.2 _ hasked

theorem alike_firstSources (hlogs : ∀ h log, I h → I { h with log }) (hI : I h) (hI' : I h') (changes : Changes)
    (digests : SortedMap Path Digest) (a : Analysis) {c : Classpath} (hsame : ∀ h h', I h → I h' → c.SameOn h h') :
    Alike (fun h h' => I h ∧ I h') (firstSources changes digests a c) h (firstSources changes digests a c) h' := by
  refine (alike_addStale hlogs hI hI' digests _ _ hsame).bind fun _ m m' _ _ hm => ?_
  refine (Alike.of_keeps (Host.keeps_report hlogs _) hm.1 hm.2 rfl).bind fun _ n n' _ _ hn => ?_
  exact alike_pure hn

end Stale

/-! ### Rounds -/

variable {σ ε α : Type} {I : Host → Prop}

/-- **How far two compiles are abreast:** both machines have the property, and the diagnostics and the requests so far are
the same. -/
structure Abreast (I : Host → Prop) (s t : EngineState (σ × List (Compilers × CompileRequest))) : Prop where
  first : I s.session.host
  second : I t.session.host
  sink : s.sink = t.sink
  requests : s.session.tool.2 = t.session.tool.2

variable {s t : EngineState (σ × List (Compilers × CompileRequest))}

/-- Steps on the machine leave the diagnostics and the requests alone. -/
theorem alike_onHost {x y : Action Host ε α}
    (hxy : Alike (fun h h' => I h ∧ I h') x s.session.host y t.session.host) (hst : Abreast I s t) :
    Alike (Abreast I) (onHost x) s (onHost y) t := ⟨hxy.1, hxy.2.1, hxy.2.2, hst.sink, hst.requests⟩

theorem alike_report (hlogs : ∀ h log, I h → I { h with log }) (hst : Abreast I s t) (e : Event) :
    Alike (Abreast I) (report e : Action _ ε Unit) s (report e) t :=
  alike_onHost (.of_keeps (Host.keeps_report hlogs e) hst.first hst.second rfl) hst

theorem alike_emit (hlogs : ∀ h log, I h → I { h with log }) (hst : Abreast I s t) (ds : List Diagnostic) :
    Alike (Abreast I) (emit ds : Action _ ε Unit) s (emit ds) t := by
  have hset : Abreast I { s with sink := (t.sink.emitAll ds).1 } { t with sink := (t.sink.emitAll ds).1 } :=
    ⟨hst.first, hst.second, rfl, hst.requests⟩
  refine Alike.get ?_
  dsimp only
  rw [hst.sink]
  refine (alike_set hset).bind fun _ s' t' _ _ hst' => ?_
  exact alike_onHost (.of_keeps (Host.keeps_reportAll hlogs _) hst'.first hst'.second rfl) hst'

theorem alike_nextSources (hlogs : ∀ h log, I h → I { h with log }) (hst : Abreast I s t) (r : Round) (left : Nat) :
    Alike (Abreast I) (nextSources r left : Action _ ε (List Path)) s (nextSources r left) t := by
  cases left with
  | zero => exact alike_pure hst
  | succ left =>
    unfold nextSources
    dsimp only
    split
    · exact alike_pure hst
    · refine (alike_report hlogs hst _).bind fun _ s₁ t₁ _ _ hst₁ => ?_
      split
      · refine (alike_report hlogs hst₁ _).bind fun _ s₂ t₂ _ _ hst₂ => ?_
        exact alike_pure hst₂
      · exact alike_pure hst₁

variable {compiler : SourceCompiler σ} {inputs : EngineInputs} {F : Path → Prop}

/-- Noting the requests spares what the compiler spares. -/
theorem Spares.recording {compilers : Compilers} {output : Path} (spares : Spares compiler compilers output F I) :
    Spares compiler.recording compilers output F I where
  logs := spares.logs
  compiles request hrequest s hs := spares.compiles request hrequest ⟨s.host, s.tool.1⟩ hs
  deletes := spares.deletes

theorem alike_compileBatch (spares : Spares compiler inputs.compilers inputs.options.output F I)
    (hdetermined : compiler.Determined inputs.options.sources) (hread : ReadAlike I inputs.options.sources) {batch : List Path}
    (hbatch : ∀ p ∈ batch, p.Among inputs.options.sources) (hst : Abreast I s t) :
    Alike (Abreast I) (compileBatch compiler.recording inputs batch) s (compileBatch compiler.recording inputs batch) t := by
  have hanswer := hdetermined inputs.compilers (inputs.options.request batch)
    ⟨s.session.host, s.session.tool.1⟩ ⟨t.session.host, t.session.tool.1⟩ hbatch
    (hread _ _ hst.first hst.second)
  have hkeeps := spares.recording.compiles (inputs.options.request batch) rfl
  -- the compiler notes the request and answers it
  have hcompiled : Alike (Abreast I)
      (onPart EngineState.session (fun session s => { s with session })
        (compiler.recording inputs.compilers (inputs.options.request batch))) s
      (onPart EngineState.session (fun session s => { s with session })
        (compiler.recording inputs.compilers (inputs.options.request batch))) t := by
    refine ⟨hanswer, (hkeeps s.session hst.first).1, (hkeeps t.session hst.second).1, hst.sink, ?_⟩
    change s.session.tool.2 ++ _ = t.session.tool.2 ++ _
    rw [hst.requests]
  refine hcompiled.bind fun answer s₁ t₁ _ _ hst₁ => ?_
  refine (alike_emit spares.logs hst₁ answer.diagnostics).bind fun _ s₂ t₂ _ _ hst₂ => Alike.get ?_
  dsimp only
  rw [hst₂.sink]
  split
  · exact (alike_throw hst₂).bind fun _ s₃ t₃ _ _ hst₃ => alike_pure hst₃
  · exact alike_pure hst₂

theorem alike_compileBatches (spares : Spares compiler inputs.compilers inputs.options.output F I)
    (hdetermined : compiler.Determined inputs.options.sources) (hread : ReadAlike I inputs.options.sources) {bs : List (List Path)}
    (hbs : ∀ batch ∈ bs, ∀ p ∈ batch, p.Among inputs.options.sources) (hst : Abreast I s t) :
    Alike (Abreast I) (compileBatches compiler.recording inputs bs) s (compileBatches compiler.recording inputs bs) t := by
  induction bs generalizing s t with
  | nil => exact alike_pure hst
  | cons batch rest ih =>
    rw [List.forall_mem_cons] at hbs
    unfold compileBatches
    split
    · exact ih hbs.2 hst
    · refine (alike_compileBatch spares hdetermined hread hbs.1 hst).bind fun units s₁ t₁ _ _ hst₁ => ?_
      exact (ih hbs.2 hst₁).bind fun others s₂ t₂ _ _ hst₂ => alike_pure hst₂

variable {digests : SortedMap Path Digest} {a : Analysis} {c : Classpath}

/-- A round goes alike if the deletions of it go well. -/
theorem alike_compileRound (spares : Spares compiler inputs.compilers inputs.options.output F I)
    (hdetermined : compiler.Determined inputs.options.sources) (hread : ReadAlike I inputs.options.sources) (number : Nat) {due : List Path}
    (hdue : ∀ p ∈ due, p.Among inputs.options.sources) (ha : a.FilesIn F) (hsame : ∀ h h', I h → I h' → c.SameOn h h')
    (hst : Abreast I s t) (hs : Succeeds (retire inputs.options.output due a ∅) s.session.host)
    (ht : Succeeds (retire inputs.options.output due a ∅) t.session.host) :
    Alike (Abreast I) (compileRound compiler.recording inputs digests number due a c) s
      (compileRound compiler.recording inputs digests number due a c) t := by
  unfold compileRound
  refine (alike_report spares.logs hst _).bind fun _ s₁ t₁ hs₁ ht₁ hst₁ => ?_
  -- both machines are cleared of the class files, for the same analysis
  have hretire : Alike (fun h h' => I h ∧ I h') (retire inputs.options.output due a ∅) s₁.session.host
      (retire inputs.options.output due a ∅) t₁.session.host := by
    obtain ⟨_, hreport, rfl⟩ := yields_onHost.1 hs₁
    obtain ⟨_, hreport', rfl⟩ := yields_onHost.1 ht₁
    obtain rfl := Host.yields_report.1 hreport
    obtain rfl := Host.yields_report.1 hreport'
    obtain ⟨r, h, hyields⟩ := hs _
    obtain ⟨r', h', hyields'⟩ := ht _
    obtain rfl := (yields_retire hyields).1
    obtain rfl := (yields_retire hyields').1
    have hkeeps := spares.retire due ha ∅
    exact .of_yields hyields hyields' ⟨hkeeps.state hst₁.first hyields, hkeeps.state hst₁.second hyields'⟩
  refine (alike_onHost hretire hst₁).bind fun retired s₂ t₂ _ _ hst₂ => ?_
  refine (alike_compileBatches spares hdetermined hread (fun batch hbatch p hp => ?_) hst₂).bind
    fun units s₃ t₃ _ _ hst₃ => ?_
  · exact hdue p (mem_of_mem_batches hbatch hp)
  · simp only [machine, bind_assoc, pure_bind]
    refine Alike.get ?_
    rw [recordUnits_congr _ _ _ _ (hsame _ _ hst₃.first hst₃.second)]
    exact alike_pure hst₃

/-- **Rounds go alike** on machines that look alike. -/
theorem alike_compileRounds (spares : Spares compiler inputs.compilers inputs.options.output F I)
    (hdetermined : compiler.Determined inputs.options.sources) (hread : ReadAlike I inputs.options.sources)
    (hmodule : ∀ p : Path, digests.contains p = true → p.Among inputs.options.sources) (left number : Nat)
    {due : List Path} (hdue : ∀ p : Path, p.Among due → digests.contains p = true)
    (hrest : ∀ p : Path, ¬ p.Among due → a.Settled digests c p) (ha : a.FilesIn F)
    (hsame : ∀ h h', I h → I h' → c.SameOn h h') (hst : Abreast I s t)
    (hs : RoundsClear compiler.recording inputs digests left number due a c s)
    (ht : RoundsClear compiler.recording inputs digests left number due a c t) :
    Alike (Abreast I) (compileRounds compiler.recording inputs digests left number due a c) s
      (compileRounds compiler.recording inputs digests left number due a c) t := by
  induction left generalizing number due a c s t with
  | zero => exact alike_pure hst
  | succ left ih =>
    unfold compileRounds
    split
    · exact alike_pure hst
    next hsome =>
      have hsome : due ≠ [] := by simpa using hsome
      obtain ⟨hclear, hlater⟩ := hs hsome
      obtain ⟨hclear', hlater'⟩ := ht hsome
      have hwithin : ∀ p ∈ due, p.Among inputs.options.sources := fun p hp => hmodule p (hdue p (Path.among_of_mem hp))
      refine (alike_compileRound spares hdetermined hread number hwithin ha hsame hst hclear hclear').bind
        fun round s₁ t₁ hs₁ ht₁ hst₁ => ?_
      obtain ⟨r, c₁⟩ := round
      refine (alike_nextSources spares.logs hst₁ r left).bind fun next s₂ t₂ hs₂ ht₂ hst₂ => ?_
      -- what is known of the analysis and of the classpath is known after the round
      have hfollows := yields_compileRound hs₁
      have hsettled := hfollows.settled hdue hrest
      obtain ⟨hafter, hasked⟩ :=
        (spares.recording.compileRound (Classpath.lasting_sameOn I) digests number due ha hsame).value hst.first hs₁
      have hnext : ∀ p : Path, p.Among next → digests.contains p = true := by
        intro p hp
        rw [yields_nextSources hs₂] at hp
        obtain ⟨info, hinfo⟩ := r.exists_source?_of_next hp
        exact (hsettled p).contains hinfo
      refine (ih (number + 1) hnext (fun p _ => hsettled p) hafter hasked hst₂ ?_ ?_).bind
        fun _ s₃ t₃ _ _ hst₃ => alike_pure hst₃
      · exact hlater r c₁ s₁ next s₂ hs₁ hs₂
      · exact hlater' r c₁ t₁ next t₂ ht₁ ht₂

end Engine

end Recompile

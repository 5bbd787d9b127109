import Recompile.Proofs.Changes
import Recompile.Proofs.Outset

/-!
# The trace of a successful compile

Before the first round a compile finds out which sources have to be compiled, and it drops those that are gone. With
the rounds of `Recompile.Proofs.Rounds` this makes up its `Engine.Trace`, which leads from the previous analysis to the
returned one and mentions the machine only where the digests of the sources come from.

`Engine.exists_trace` says that every successful compile has a trace. What the compiler was asked for is not part of it;
`Engine.exists_batches` and `Engine.exists_batch_of_mem` lead from a round to the requests behind its units.
-/

namespace Recompile

/-! ### The first round -/

/-- **What the search for stale sources does.** It adds sources of the module of which a recorded fingerprint is not
what the classpath answers, and leaves out none. -/
structure AddsStale (current : SortedMap Path Digest) (records : List (Path × SourceInfo))
    (invalid : SortedSet Path) (c : Classpath) (invalid' : SortedSet Path) (c' : Classpath) : Prop where
  grows : c.Grows c'
  keeps : ∀ p, invalid.contains p = true → invalid'.contains p = true
  /-- A source that is left out has the fingerprints that the classpath answers. -/
  fresh : ∀ e ∈ records, current.contains e.1 = true → invalid'.contains e.1 = true ∨
    ∀ name d, e.2.binaryDeps.get? name = some d → c'.resolved.get? name = some (some d)
  /-- A source that is added has another one. -/
  reason : ∀ p, invalid'.contains p = true → invalid.contains p = true ∨
    current.contains p = true ∧ ∃ e ∈ records, (e.1 == p) = true ∧ ∃ name d found,
      e.2.binaryDeps.get? name = some d ∧ c'.resolved.get? name = some found ∧ found ≠ some d

namespace AddsStale

variable {current : SortedMap Path Digest} {path : Path} {info : SourceInfo} {rest : List (Path × SourceInfo)}
  {invalid invalid' : SortedSet Path} {c c₁ c' : Classpath}

theorem nil : AddsStale current [] invalid c invalid c :=
  ⟨Classpath.Grows.refl _, fun _ hp => hp, by simp, fun _ hp => Or.inl hp⟩

/-- What is said about the other records holds of all. -/
theorem reason_cons (step : AddsStale current rest invalid c invalid' c') (first : Path × SourceInfo) {p : Path}
    (hp : invalid'.contains p = true) :
    invalid.contains p = true ∨ current.contains p = true ∧ ∃ e ∈ first :: rest, (e.1 == p) = true ∧
      ∃ name d found, e.2.binaryDeps.get? name = some d ∧ c'.resolved.get? name = some found ∧ found ≠ some d := by
  refine (step.reason p hp).imp_right ?_
  rintro ⟨hcur, e, he, hep⟩
  exact ⟨hcur, e, List.mem_cons_of_mem _ he, hep⟩

/-- A source that is due anyway, or is not there, is passed over. -/
theorem skip (step : AddsStale current rest invalid c invalid' c')
    (hskip : invalid.contains path = true ∨ (!current.contains path) = true) :
    AddsStale current ((path, info) :: rest) invalid c invalid' c' := by
  refine ⟨step.grows, step.keeps, fun e he hcur => ?_, fun p hp => step.reason_cons (path, info) hp⟩
  rcases List.mem_cons.1 he with rfl | he
  · exact Or.inl (step.keeps _ (hskip.resolve_right (by simp [hcur])))
  · exact step.fresh e he hcur

/-- A source with the fingerprints that the classpath answers is left out. -/
theorem keep (step : AddsStale current rest invalid c₁ invalid' c') (hgrows : c.Grows c₁)
    (hspec : ∀ e ∈ info.binaryDeps.entries, c₁.resolved.get? e.1 = some (some e.2)) :
    AddsStale current ((path, info) :: rest) invalid c invalid' c' := by
  refine ⟨hgrows.trans step.grows, step.keeps, fun e he hcur => ?_, fun p hp => step.reason_cons (path, info) hp⟩
  rcases List.mem_cons.1 he with rfl | he
  · refine Or.inr fun name d hd => ?_
    obtain ⟨name', hmem, hcmp⟩ := SortedMap.get?_eq_some_iff.1 hd
    obtain rfl : name = name' := Std.LawfulEqCmp.eq_of_compare hcmp
    exact step.grows _ _ (hspec _ hmem)
  · exact step.fresh e he hcur

/-- A source with another fingerprint is added. -/
theorem add (step : AddsStale current rest (invalid.add path) c₁ invalid' c') (hcur : current.contains path = true)
    (hgrows : c.Grows c₁) {name : String} {d : Digest} {now : Option Digest}
    (hmem : (name, d) ∈ info.binaryDeps.entries) (hnow : c₁.resolved.get? name = some now) (hne : now ≠ some d) :
    AddsStale current ((path, info) :: rest) invalid c invalid' c' := by
  have hadd : ∀ p, (invalid.add path).contains p = true ↔ (path == p) = true ∨ invalid.contains p = true := by
    intro p
    rw [SortedSet.contains_add, Bool.or_eq_true, beq_iff_eq, Path.compare_eq_iff_beq, BEq.comm]
  refine ⟨hgrows.trans step.grows, fun p hp => step.keeps p ((hadd p).2 (Or.inr hp)), fun e he hcur => ?_,
    fun p hp => ?_⟩
  · rcases List.mem_cons.1 he with rfl | he
    · exact Or.inl (step.keeps _ ((hadd path).2 (Or.inl BEq.rfl)))
    · exact step.fresh e he hcur
  · rcases step.reason_cons (path, info) hp with hp | hwhy
    · rcases (hadd p).1 hp with hself | hp
      · -- the source itself: the look-up of the class is still known in the end
        have hcur' : current.contains p = true := by
          rwa [← SortedMap.contains_congr current (Path.compare_eq_iff_beq.2 hself)]
        exact Or.inr ⟨hcur', _, List.mem_cons_self, hself, name, d, now,
          SortedMap.get?_of_mem hmem, step.grows _ _ hnow, hne⟩
      · exact Or.inl hp
    · exact Or.inr hwhy

end AddsStale

namespace Engine

variable {σ ε : Type}

/-- The search in one record finds a class with another fingerprint, or there is none. -/
theorem staleClass_spec (h : Host) (deps : List (String × Digest)) (c : Classpath) :
    c.Grows (staleClass h deps c).2 ∧
      match (staleClass h deps c).1 with
      | none => ∀ e ∈ deps, (staleClass h deps c).2.resolved.get? e.1 = some (some e.2)
      | some name => ∃ d found, (name, d) ∈ deps ∧
          (staleClass h deps c).2.resolved.get? name = some found ∧ found ≠ some d := by
  induction deps generalizing c with
  | nil => exact ⟨Classpath.Grows.refl c, by simp [staleClass]⟩
  | cons e rest ih =>
    obtain ⟨name, recorded⟩ := e
    have hknown := Classpath.fingerprint_resolved h name c
    have hgrows := Classpath.grows_fingerprint h name c
    rcases hfp : c.fingerprint h name with ⟨now, c₁⟩
    rw [hfp] at hknown hgrows
    by_cases hsame : now = some recorded
    · -- the fingerprint is the recorded one, and the search goes on
      have hrun : staleClass h ((name, recorded) :: rest) c = staleClass h rest c₁ := by
        simp [staleClass, hfp, hsame]
      rw [hrun]
      obtain ⟨hrest, hspec⟩ := ih c₁
      refine ⟨hgrows.trans hrest, ?_⟩
      cases hstale : (staleClass h rest c₁).1 with
      | none =>
        rw [hstale] at hspec
        intro e he
        rcases List.mem_cons.1 he with rfl | he
        · exact hrest _ _ (hsame ▸ hknown)
        · exact hspec e he
      | some other =>
        rw [hstale] at hspec
        obtain ⟨d, found, hmem, hfound⟩ := hspec
        exact ⟨d, found, List.mem_cons_of_mem _ hmem, hfound⟩
    · -- another fingerprint ends the search
      have hrun : staleClass h ((name, recorded) :: rest) c = (some name, c₁) := by
        simp [staleClass, hfp, hsame]
      rw [hrun]
      exact ⟨hgrows, recorded, now, List.mem_cons_self, hknown, hsame⟩

/-- Adding the stale sources goes through the records one by one. -/
theorem yields_addStale {current : SortedMap Path Digest} {records : List (Path × SourceInfo)}
    {invalid invalid' : SortedSet Path} {c c' : Classpath} {h h' : Host}
    (hrun : (addStale current records invalid c : Action Host ε _).Yields h (invalid', c') h') :
    AddsStale current records invalid c invalid' c' := by
  induction records generalizing invalid c h with
  | nil =>
    obtain ⟨rfl, rfl⟩ := Prod.mk.inj (Action.yields_pure.1 hrun).1
    exact .nil
  | cons e rest ih =>
    obtain ⟨path, info⟩ := e
    simp only [addStale] at hrun
    -- a source is passed over, found fresh, or added: one lemma each
    by_cases hskip : invalid.contains path = true ∨ (!current.contains path) = true
    · rw [if_pos hskip] at hrun
      exact (ih hrun).skip hskip
    · rw [if_neg hskip] at hrun
      obtain ⟨-, hcur⟩ := not_or.1 hskip
      have hcur : current.contains path = true := by simpa using hcur
      obtain ⟨m, _, -, hrun⟩ := Action.yields_bind.1 hrun
      obtain ⟨hgrows, hspec⟩ := staleClass_spec m info.binaryDeps.entries c
      rcases hstale : staleClass m info.binaryDeps.entries c with ⟨found, c₁⟩
      rw [hstale] at hrun hgrows hspec
      cases found with
      | none => exact (ih hrun).keep hgrows hspec
      | some name =>
        obtain ⟨d, now, hmem, hnow, hne⟩ := hspec
        obtain ⟨-, _, -, hrun⟩ := Action.yields_bind.1 hrun
        exact (ih hrun).add hcur hgrows hmem hnow hne

end Engine

/-! ### Sources that are compiled anyway -/

namespace Changes

variable {a : Analysis} {p : Path}

/-- The sources that refer to one of some sources that are gone, and are there, are added one after another. -/
theorem contains_foldl_addAll (current : SortedMap Path Digest) (gones : List Path) (s : SortedSet Path) :
    (gones.foldl (fun invalid gone =>
      invalid.addAll ((a.dependentsOf gone).filter fun p => current.contains p)) s).contains p = true ↔
    s.contains p = true ∨ current.contains p = true ∧ ∃ gone ∈ gones, p.Among (a.dependentsOf gone) := by
  induction gones generalizing s with
  | nil => simp
  | cons gone rest ih =>
    rw [List.foldl_cons, ih, SortedSet.contains_addAll]
    -- filtering by the present sources does not depend on the spelling
    have hgone : (∃ q ∈ (a.dependentsOf gone).filter fun p => current.contains p, compare p q = .eq) ↔
        current.contains p = true ∧ p.Among (a.dependentsOf gone) := by
      constructor
      · rintro ⟨q, hq, hpq⟩
        obtain ⟨hq, hcur⟩ := List.mem_filter.1 hq
        rw [← SortedMap.contains_congr current hpq] at hcur
        exact ⟨hcur, q, hq, BEq.symm (Path.compare_eq_iff_beq.1 hpq)⟩
      · rintro ⟨hcur, q, hq, hqp⟩
        have hpq : compare p q = .eq := Path.compare_eq_iff_beq.2 (BEq.symm hqp)
        exact ⟨q, List.mem_filter.2 ⟨hq, by rwa [← SortedMap.contains_congr current hpq]⟩, hpq⟩
    rw [hgone]
    simp only [List.mem_cons, exists_eq_or_imp]
    tauto

/-- **The sources that have to be compiled anyway** are the new and the modified ones, and those that are there and
refer to one that is gone. -/
theorem contains_invalidated {changes : Changes} {current : SortedMap Path Digest} :
    (changes.invalidated current a).contains p = true ↔
      p.Among changes.added ∨ p.Among changes.modified ∨
        current.contains p = true ∧ ∃ gone ∈ changes.deleted, p.Among (a.dependentsOf gone) := by
  unfold invalidated
  rw [contains_foldl_addAll, ← Path.among_toList, Path.among_ofList]
  unfold dirty Path.Among
  simp only [List.mem_append]
  constructor
  · rintro (⟨q, hq | hq, hqp⟩ | h)
    · exact Or.inl ⟨q, hq, hqp⟩
    · exact Or.inr (Or.inl ⟨q, hq, hqp⟩)
    · exact Or.inr (Or.inr h)
  · rintro (⟨q, hq, hqp⟩ | ⟨q, hq, hqp⟩ | h)
    · exact Or.inl ⟨q, Or.inl hq, hqp⟩
    · exact Or.inl ⟨q, Or.inr hq, hqp⟩
    · exact Or.inr h

end Changes

/-! ### A whole compile -/

namespace Engine

variable {σ : Type}

/-- **The trace of a compile.** On a machine `h` the compile finds the digests of its sources, opens the classpath,
adds the stale sources to those that have to be compiled anyway, drops the sources that are gone and goes through the
rounds. -/
structure Trace (inputs : EngineInputs) (h : Host) (opened : Classpath) (due : SortedSet Path)
    (looked : Classpath) (out : EngineOutput) : Prop where
  digests : sourceDigests h inputs.options.sources = .ok out.digests
  setup : out.setup = inputs.setup
  recompiled : out.recompiled = Engine.recompiled out.rounds
  unasked : opened.resolved = ∅
  stale : AddsStale out.digests inputs.baseline.sources.entries
    ((inputs.changes out.digests).invalidated out.digests inputs.baseline) opened due looked
  rounds : Rounds out.digests (roundLimit + 1) due.toList
    (without (inputs.changes out.digests).deleted inputs.baseline) looked out.rounds out.analysis out.classpath

section CompileRounds

variable {compiler : SourceCompiler σ} {inputs : EngineInputs} {digests : SortedMap Path Digest} {left number : Nat}
  {due : List Path} {a a' : Analysis} {c c' : Classpath} {rs : List Round} {s s' : EngineState σ}

theorem of_yields_compileRounds_zero
    (hrun : (compileRounds compiler inputs digests 0 number due a c).Yields s (a', rs, c') s') :
    a' = a ∧ rs = [] ∧ c' = c ∧ s' = s := by
  obtain ⟨⟨⟩, rfl⟩ := Action.yields_pure.1 hrun
  exact ⟨rfl, rfl, rfl, rfl⟩

/-- As long as a round is left, nothing is due, or there is a round and those after it. -/
theorem of_yields_compileRounds_succ
    (hrun : (compileRounds compiler inputs digests (left + 1) number due a c).Yields s (a', rs, c') s') :
    (due = [] ∧ a' = a ∧ rs = [] ∧ c' = c ∧ s' = s) ∨
      due ≠ [] ∧ ∃ r rs' c₁ s₁ next s₂, rs = r :: rs' ∧
        (compileRound compiler inputs digests number due a c).Yields s (r, c₁) s₁ ∧
        (nextSources r left : Action (EngineState σ) EngineError (List Path)).Yields s₁ next s₂ ∧
        (compileRounds compiler inputs digests left (number + 1) next r.after c₁).Yields s₂ (a', rs', c') s' := by
  simp only [compileRounds] at hrun
  by_cases hdue : due = []
  · rw [if_pos (by simp [hdue])] at hrun
    obtain ⟨⟨⟩, rfl⟩ := Action.yields_pure.1 hrun
    exact Or.inl ⟨hdue, rfl, rfl, rfl, rfl⟩
  · rw [if_neg (by simpa using hdue)] at hrun
    simp only [Action.yields_bind, Action.yields_pure] at hrun
    obtain ⟨⟨r, c₁⟩, s₁, hround, next, s₂, hnext, ⟨a₂, rs', c₂⟩, s₃, hrest, hout, rfl⟩ := hrun
    simp only [Prod.mk.injEq] at hout
    obtain ⟨rfl, rfl, rfl⟩ := hout
    exact Or.inr ⟨hdue, r, rs', c₁, s₁, next, s₂, rfl, hround, hnext, hrest⟩

theorem yields_compileRounds
    (hrun : (compileRounds compiler inputs digests left number due a c).Yields s (a', rs, c') s') :
    Rounds digests left due a c rs a' c' := by
  induction left generalizing number due a c rs s with
  | zero =>
    obtain ⟨rfl, rfl, rfl, -⟩ := of_yields_compileRounds_zero hrun
    exact .done (Or.inl rfl)
  | succ left ih =>
    rcases of_yields_compileRounds_succ hrun with
      ⟨hdue, rfl, rfl, rfl, -⟩ | ⟨hdue, r, rs, c₁, s₁, next, s₂, rfl, hround, hnext, hrest⟩
    · exact .done (Or.inr hdue)
    · rw [yields_nextSources hnext] at hrest
      exact .round hdue (yields_compileRound hround) (ih hrest)

end CompileRounds

/-- A classpath that was just opened has answered nothing. -/
theorem yields_ofPaths {ε : Type} {l l' : Lookup} {paths : List Path} {c : Classpath} {h h' : Host}
    (hrun : (Classpath.ofPaths l paths : Action Host ε _).Yields h (c, l') h') : c.resolved = ∅ := by
  unfold Classpath.ofPaths at hrun
  simp only [Action.yields_bind, Action.yields_pure] at hrun
  obtain ⟨_, _, -, hc, -⟩ := hrun
  rw [(Prod.mk.inj hc).1]

theorem yields_firstSources {changes : Changes} {digests : SortedMap Path Digest} {a : Analysis}
    {c c' : Classpath} {due : List Path} {h h' : Host}
    (hrun : (firstSources changes digests a c).Yields h (due, c') h') :
    ∃ invalid, due = invalid.toList ∧
      AddsStale digests a.sources.entries (changes.invalidated digests a) c invalid c' := by
  unfold firstSources at hrun
  simp only [Action.yields_bind, Action.yields_pure] at hrun
  obtain ⟨⟨invalid, c₁⟩, h₁, hstale, -, h₂, -, hdue, -⟩ := hrun
  obtain ⟨rfl, rfl⟩ := Prod.mk.inj hdue
  exact ⟨invalid, rfl, yields_addStale hstale⟩

/-- **Every successful compile has a trace,** and ends with the rounds in it. -/
theorem exists_trace {compiler : SourceCompiler σ} {inputs : EngineInputs} {s s' : EngineState σ}
    {out : EngineOutput} (hrun : (compile compiler inputs).Yields s out s') :
    ∃ opened due looked s₁, Trace inputs s.session.host opened due looked out ∧
      (compileRounds compiler inputs out.digests (roundLimit + 1) 1 due.toList
        (without (inputs.changes out.digests).deleted inputs.baseline) looked).Yields s₁
        (out.analysis, out.rounds, out.classpath) s' := by
  obtain ⟨o, s₁, houtset, hrounds, hdigests, hsetup, hrecompiled⟩ := of_yields_compile hrun
  obtain ⟨opened, l, h₁, h₂, h₃, h₄, hfound, -, hopen, hfirst, hremove, -⟩ := of_yields_outset houtset
  obtain ⟨invalid, hdue, hstale⟩ := yields_firstSources hfirst
  rw [← hdigests] at hfound hstale hremove hrounds
  rw [hdue, yields_removeSources hremove] at hrounds
  exact ⟨opened, invalid, o.classpath, s₁,
    ⟨hfound, hsetup, hrecompiled, yields_ofPaths hopen, hstale, yields_compileRounds hrounds⟩, hrounds⟩

end Engine

/-! ### What the compiler was asked for -/

theorem Path.isJava_congr {p q : Path} (h : (p == q) = true) : isJava p = isJava q := by
  have hname : p.fileName? = q.fileName? := by
    unfold fileName?
    rw [beq_iff.1 h]
  unfold isJava extension?
  rw [hname]

theorem mem_flatten_batches {sources : List Path} {order : CompileOrder} {p : Path} :
    p ∈ (batches sources order).flatten ↔ p ∈ sources := by
  cases order with
  | mixed => simp [batches]
  | javaThenScala | scalaThenJava => cases h : isJava p <;> simp [batches, h]

/-- The batches of a round are its sources in another order. -/
theorem OneEach.of_batches {sources : List Path} {order : CompileOrder} {units : List CompiledUnit}
    (h : OneEach (batches sources order).flatten units) : OneEach sources units where
  distinct := h.distinct
  every p hp := h.every p (mem_flatten_batches.2 hp)
  only u hu := by
    obtain ⟨p, hp, hpu⟩ := h.only u hu
    exact ⟨p, mem_flatten_batches.1 hp, hpu⟩

namespace Engine

variable {σ : Type}

/-- Different sources stay different in batches. -/
theorem distinct_flatten_batches {sources : List Path} (h : sources.Pairwise fun p q => (p == q) = false)
    (order : CompileOrder) : (batches sources order).flatten.Pairwise fun p q => (p == q) = false := by
  -- the language of a source does not depend on the spelling of its path
  have hapart : ∀ p q : Path, isJava p ≠ isJava q → (p == q) = false := by
    intro p q hne
    by_contra hsame
    exact hne (Path.isJava_congr (by simpa using hsame))
  cases order with
  | mixed => simpa [batches] using h
  | javaThenScala | scalaThenJava =>
    simp only [batches, List.flatten_cons, List.flatten_nil, List.append_nil]
    refine List.pairwise_append.2 ⟨h.sublist List.filter_sublist, h.sublist List.filter_sublist, ?_⟩
    intro p hp q hq
    refine hapart p q ?_
    have hp := (List.mem_filter.1 hp).2
    have hq := (List.mem_filter.1 hq).2
    simp_all

/-- A batch goes to the compiler, and then its diagnostics go to the sink. -/
theorem of_yields_compileBatch {compiler : SourceCompiler σ} {inputs : EngineInputs} {batch : List Path}
    {units : List CompiledUnit} {s s' : EngineState σ}
    (hrun : (compileBatch compiler inputs batch).Yields s units s') :
    ∃ output session, (compiler inputs.compilers (inputs.options.request batch)).Yields s.session output session ∧
      units = output.units ∧
      (emit output.diagnostics : Action (EngineState σ) EngineError Unit).Yields { s with session } () s' := by
  unfold compileBatch at hrun
  simp only [Action.yields_bind, Action.yields_onPart, Action.yields_get] at hrun
  obtain ⟨output, _, ⟨session, hcompiler, rfl⟩, _, _, hemit, _, _, ⟨rfl, rfl⟩, hend⟩ := hrun
  -- a batch with errors ends the compile
  split at hend
  · simp at hend
  · obtain ⟨rfl, rfl⟩ := Action.yields_pure.1 hend
    exact ⟨output, session, hcompiler, rfl, hemit⟩

/-- Batches are compiled one by one, those that are not empty. -/
theorem of_yields_compileBatches_cons {compiler : SourceCompiler σ} {inputs : EngineInputs} {batch : List Path}
    {rest : List (List Path)} {units : List CompiledUnit} {s s' : EngineState σ}
    (hrun : (compileBatches compiler inputs (batch :: rest)).Yields s units s') :
    (batch = [] ∧ (compileBatches compiler inputs rest).Yields s units s') ∨
      ∃ first s₁ others, units = first ++ others ∧ (compileBatch compiler inputs batch).Yields s first s₁ ∧
        (compileBatches compiler inputs rest).Yields s₁ others s' := by
  simp only [compileBatches] at hrun
  split at hrun
  next hempty => exact Or.inl ⟨List.isEmpty_iff.1 hempty, hrun⟩
  next =>
    simp only [Action.yields_bind, Action.yields_pure] at hrun
    obtain ⟨first, s₁, hfirst, others, s₂, hothers, rfl, rfl⟩ := hrun
    exact Or.inr ⟨first, s₁, others, rfl, hfirst, hothers⟩

/-- A unit that comes out of some batches was reported for one of them. -/
theorem exists_batch_of_mem {compiler : SourceCompiler σ} {inputs : EngineInputs} {bs : List (List Path)}
    {units : List CompiledUnit} {s s' : EngineState σ}
    (hrun : (compileBatches compiler inputs bs).Yields s units s') {u : CompiledUnit} (hu : u ∈ units) :
    ∃ batch ∈ bs, ∃ before output after,
      (compiler inputs.compilers (inputs.options.request batch)).Yields before output after ∧ u ∈ output.units := by
  induction bs generalizing units s with
  | nil =>
    obtain ⟨rfl, -⟩ := Action.yields_pure.1 hrun
    simp at hu
  | cons batch rest ih =>
    rcases of_yields_compileBatches_cons hrun with ⟨-, hrest⟩ | ⟨first, s₁, others, rfl, hfirst, hothers⟩
    · obtain ⟨b, hb, hanswer⟩ := ih hrest hu
      exact ⟨b, List.mem_cons_of_mem _ hb, hanswer⟩
    · rcases List.mem_append.1 hu with hu | hu
      · obtain ⟨output, session, hcompiler, rfl, -⟩ := of_yields_compileBatch hfirst
        exact ⟨batch, List.mem_cons_self, _, output, session, hcompiler, hu⟩
      · obtain ⟨b, hb, hanswer⟩ := ih hothers hu
        exact ⟨b, List.mem_cons_of_mem _ hb, hanswer⟩

/-- The units of a round come from compiling its batches. -/
theorem yields_batches_of_mem_rounds {compiler : SourceCompiler σ} {inputs : EngineInputs}
    {digests : SortedMap Path Digest} {left number : Nat} {due : List Path} {a a' : Analysis} {c c' : Classpath}
    {rs : List Round} {s s' : EngineState σ}
    (hrun : (compileRounds compiler inputs digests left number due a c).Yields s (a', rs, c') s') {r : Round}
    (hr : r ∈ rs) :
    ∃ before after,
      (compileBatches compiler inputs (batches r.sources inputs.options.order)).Yields before r.units after := by
  induction left generalizing number due a c rs s with
  | zero =>
    obtain ⟨-, rfl, -⟩ := of_yields_compileRounds_zero hrun
    simp at hr
  | succ left ih =>
    rcases of_yields_compileRounds_succ hrun with
      ⟨-, -, rfl, -⟩ | ⟨-, r₁, rs, c₁, s₁, next, s₂, rfl, hround, -, hrest⟩
    · simp at hr
    · -- the units of the first round come from its own batches, the others from what follows
      rcases List.mem_cons.1 hr with rfl | hr
      · obtain ⟨follows, _, _, -, hunits⟩ := of_yields_compileRound hround
        rw [follows.sources]
        exact ⟨_, _, hunits⟩
      · exact ih hrest hr

theorem mem_of_mem_batches {sources batch : List Path} {order : CompileOrder}
    (hbatch : batch ∈ batches sources order) {p : Path} (hp : p ∈ batch) : p ∈ sources := by
  cases order with
  | mixed =>
    obtain rfl := List.mem_singleton.1 hbatch
    exact hp
  | javaThenScala | scalaThenJava =>
    rcases List.mem_cons.1 hbatch with rfl | hbatch
    · exact (List.mem_filter.1 hp).1
    · obtain rfl := List.mem_singleton.1 hbatch
      exact (List.mem_filter.1 hp).1

theorem exists_batches {compiler : SourceCompiler σ} {inputs : EngineInputs} {s s' : EngineState σ}
    {out : EngineOutput} (hrun : (compile compiler inputs).Yields s out s') {r : Round} (hr : r ∈ out.rounds) :
    ∃ before after,
      (compileBatches compiler inputs (batches r.sources inputs.options.order)).Yields before r.units after := by
  obtain ⟨_, _, _, _, -, hrounds⟩ := exists_trace hrun
  exact yields_batches_of_mem_rounds hrounds hr

end Engine

end Recompile

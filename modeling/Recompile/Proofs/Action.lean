import Mathlib.Tactic.Common
import Recompile.Session

/-!
# Runs of actions

An `Action` is a state transformer that may fail. A statement about a program made of actions is a statement about
its runs: `Action.Yields x s a s'` says that the step `x`, started in the state `s`, succeeds with `a` and leaves the
state `s'`. The lemmas of this module take a successful run apart into the runs of its parts and put it together
again, one lemma for each way in which the library builds actions, so that no proof about a program has to look at the
monads underneath.

`Action.Reads x h r` is for steps that leave nothing behind but events in the log: on the machine `h` the step `x` has
the outcome `r`.
-/

namespace Recompile

namespace Action

variable {σ τ ε δ α β : Type}

/-- **A successful run:** from `s` the step yields `a` and leaves `s'`. -/
def Yields (x : Action σ ε α) (s : σ) (a : α) (s' : σ) : Prop := (x.run.run s).run = (.ok a, s')

/-- A run whose result is no failure is a successful one. -/
theorem exists_yields {x : Action σ ε α} {s : σ} (h : (x.run.run s).run.1.toBool = true) :
    ∃ a s', Yields x s a s' := by
  rcases hrun : (x.run.run s).run with ⟨r, s'⟩
  rw [hrun] at h
  cases r with
  | error e => simp [Except.toBool] at h
  | ok a => exact ⟨a, s', hrun⟩

/-- A run whose result is no failure yields its result and leaves its state. -/
theorem exists_yields_run {x : Action σ ε α} {s : σ} (h : (x.run.run s).run.1.toBool = true) :
    ∃ a ∈ (x.run.run s).run.1.toOption, Yields x s a (x.run.run s).run.2 := by
  obtain ⟨a, s', hrun⟩ := exists_yields h
  have hleft : (x.run.run s).run.2 = s' := congrArg Prod.snd hrun
  refine ⟨a, ?_, hleft ▸ hrun⟩
  rw [show (x.run.run s).run = _ from hrun]
  rfl

/-! ### The parts of a successful run -/

/-- A sequence succeeds when its parts do, one after the other. -/
@[simp] theorem yields_bind {x : Action σ ε α} {f : α → Action σ ε β} {s s' : σ} {b : β} :
    Yields (x >>= f) s b s' ↔ ∃ a s₁, Yields x s a s₁ ∧ Yields (f a) s₁ b s' := by
  -- how the two runs are chained is said once; each side then follows from what the first one gives
  have hrun : ((x >>= f).run.run s).run =
      match (x.run.run s).run with
      | (.ok a, s₁) => ((f a).run.run s₁).run
      | (.error e, s₁) => (.error e, s₁) := by
    rw [ExceptT.run_bind, StateT.run_bind]
    rcases hx : (x.run.run s).run with ⟨r, s₁⟩
    cases r <;> simp_all
  unfold Yields
  rw [hrun]
  rcases (x.run.run s).run with ⟨r, s₁⟩
  cases r with
  | error e => simp
  | ok a => simp

/-- Behind a successful run a sequence goes on like its rest. -/
theorem run_bind_of_yields {x : Action σ ε α} {f : α → Action σ ε β} {s s₁ : σ} {a : α} (hx : Yields x s a s₁) :
    ((x >>= f).run.run s).run = ((f a).run.run s₁).run := by
  unfold Yields at hx
  rw [ExceptT.run_bind, StateT.run_bind]
  simp_all

@[simp] theorem yields_pure {a b : α} {s s' : σ} :
    Yields (pure a : Action σ ε α) s b s' ↔ b = a ∧ s' = s := by
  change ((Except.ok a, s) : Except ε α × σ) = (Except.ok b, s') ↔ _
  simp [eq_comm]

@[simp] theorem yields_map {x : Action σ ε α} {f : α → β} {s s' : σ} {b : β} :
    Yields (f <$> x) s b s' ↔ ∃ a, Yields x s a s' ∧ b = f a := by
  rw [map_eq_pure_bind, yields_bind]
  simp only [yields_pure]
  constructor
  · rintro ⟨a, s₁, h, rfl, rfl⟩
    exact ⟨a, h, rfl⟩
  · rintro ⟨a, h, rfl⟩
    exact ⟨a, s', h, rfl, rfl⟩

@[simp] theorem yields_get {s t s' : σ} : Yields (get : Action σ ε σ) s t s' ↔ t = s ∧ s' = s := by
  change ((Except.ok s, s) : Except ε σ × σ) = (Except.ok t, s') ↔ _
  simp [eq_comm]

@[simp] theorem yields_set {s t s' : σ} {u : PUnit} :
    Yields (set t : Action σ ε PUnit) s u s' ↔ s' = t := by
  change ((Except.ok PUnit.unit, t) : Except ε PUnit × σ) = (Except.ok u, s') ↔ _
  simp [eq_comm]

@[simp] theorem yields_modify {f : σ → σ} {s s' : σ} {u : PUnit} :
    Yields (modify f : Action σ ε PUnit) s u s' ↔ s' = f s := by
  change ((Except.ok PUnit.unit, f s) : Except ε PUnit × σ) = (Except.ok u, s') ↔ _
  simp [eq_comm]

@[simp] theorem not_yields_throw {e : ε} {s s' : σ} {a : α} :
    ¬ Yields (throw e : Action σ ε α) s a s' := by
  change ¬ ((Except.error e, s) : Except ε α × σ) = (Except.ok a, s')
  simp

@[simp] theorem yields_onPart {get : τ → σ} {set : σ → τ → τ} {x : Action σ ε α} {t t' : τ} {a : α} :
    Yields (onPart get set x) t a t' ↔ ∃ s', Yields x (get t) a s' ∧ t' = set s' t := by
  change (((x.run.run (get t)).run.1, set (x.run.run (get t)).run.2 t) : Except ε α × τ) = (Except.ok a, t') ↔ _
  unfold Yields
  rcases (x.run.run (get t)).run with ⟨r, s₁⟩
  simp [eq_comm, and_assoc]

@[simp] theorem yields_mapFailure {f : ε → δ} {x : Action σ ε α} {s s' : σ} {a : α} :
    Yields (mapFailure f x) s a s' ↔ Yields x s a s' := by
  change (((x.run.run s).run.1.mapError f, (x.run.run s).run.2) : Except δ α × σ) = (Except.ok a, s') ↔ _
  unfold Yields
  rcases (x.run.run s).run with ⟨r, s₁⟩
  cases r <;> simp [Except.mapError]

/-- A result that was computed is handed on. -/
@[simp] theorem yields_liftM {x : Except ε α} {s s' : σ} {a : α} :
    Yields (liftM x : Action σ ε α) s a s' ↔ x = .ok a ∧ s' = s := by
  cases x with
  | ok b =>
    change ((Except.ok b, s) : Except ε α × σ) = (Except.ok a, s') ↔ _
    simp [eq_comm]
  | error e =>
    change ((Except.error e, s) : Except ε α × σ) = (Except.ok a, s') ↔ _
    simp

/-- Handing on an outcome always succeeds. -/
@[simp] theorem yields_outcome {x : Action σ ε α} {s s' : σ} {r : Except ε α} :
    Yields (outcome x : Action σ δ (Except ε α)) s r s' ↔ (x.run.run s).run = (r, s') := by
  change ((Except.ok (x.run.run s).run.1, (x.run.run s).run.2) : Except δ _ × σ) = (Except.ok r, s') ↔ _
  rcases (x.run.run s).run with ⟨r₁, s₁⟩
  simp

/-! ### Steps that cannot fail -/

section Returns

variable {x : StateM σ α} {s s' : σ}

theorem returns_bind {f : α → StateM σ β} {b : β} :
    ((x >>= f).run s).run = (b, s') ↔ ∃ a s₁, (x.run s).run = (a, s₁) ∧ ((f a).run s₁).run = (b, s') := by
  rw [StateT.run_bind]
  rcases hx : (x.run s).run with ⟨a, s₁⟩
  simp [hx]

theorem returns_pure {a b : α} : ((pure a : StateM σ α).run s).run = (b, s') ↔ b = a ∧ s' = s := by
  change (a, s) = (b, s') ↔ _
  simp [eq_comm]

theorem returns_get {t : σ} : ((get : StateM σ σ).run s).run = (t, s') ↔ t = s ∧ s' = s := by
  change (s, s) = (t, s') ↔ _
  simp [eq_comm]

theorem returns_modify {f : σ → σ} {u : PUnit} : ((modify f : StateM σ PUnit).run s).run = (u, s') ↔ s' = f s := by
  change (PUnit.unit, f s) = (u, s') ↔ _
  simp [eq_comm]

end Returns

end Action

namespace Session

variable {σ ε α : Type}

@[simp] theorem yields_onHost {x : Action Host ε α} {s s' : Session σ} {a : α} :
    Action.Yields (onHost x) s a s' ↔ ∃ h, x.Yields s.host a h ∧ s' = { s with host := h } :=
  Action.yields_onPart

end Session

namespace Host

variable {ε α : Type}

/-- What was logged says nothing about files. -/
theorem isFile_logged (h : Host) (e : Event) (p : Path) : (h.logged e).isFile p = h.isFile p := by
  simp only [isFile, logged]

@[simp] theorem yields_report {e : Event} {h h' : Host} {u : Unit} :
    Action.Yields (report e : Action Host ε Unit) h u h' ↔ h' = h.logged e := Action.yields_modify

@[simp] theorem yields_reportAll {es : List Event} {h h' : Host} {u : Unit} :
    Action.Yields (reportAll es : Action Host ε Unit) h u h' ↔ h' = { h with log := h.log ++ es.toArray } :=
  Action.yields_modify

@[simp] theorem yields_change {wrap : Fault → ε} {operation : Files → Location → Except Fault Files}
    {h h' : Host} {u : Unit} :
    (change wrap operation).Yields h u h' ↔
      ∃ files, operation h.files h.cwd = .ok files ∧ h' = { h with files } := by
  unfold change
  simp only [Action.yields_bind, Action.yields_get]
  constructor
  · rintro ⟨_, _, ⟨rfl, rfl⟩, hrun⟩
    split at hrun
    next files hop => exact ⟨files, hop, Action.yields_set.1 hrun⟩
    next => exact absurd hrun Action.not_yields_throw
  · rintro ⟨files, hop, rfl⟩
    refine ⟨h, h, ⟨rfl, rfl⟩, ?_⟩
    rw [hop]
    exact Action.yields_set.2 rfl

@[simp] theorem yields_ask {wrap : Fault → ε} {question : Host → Except Fault α} {h h' : Host} {a : α} :
    (ask wrap question).Yields h a h' ↔ question h = .ok a ∧ h' = h := by
  unfold ask
  simp only [Action.yields_bind, Action.yields_get]
  constructor
  · rintro ⟨_, _, ⟨rfl, rfl⟩, hrun⟩
    split at hrun
    next x hx =>
      obtain ⟨rfl, rfl⟩ := Action.yields_pure.1 hrun
      exact ⟨hx, rfl⟩
    next => exact absurd hrun Action.not_yields_throw
  · rintro ⟨hx, rfl⟩
    refine ⟨_, _, ⟨rfl, rfl⟩, ?_⟩
    rw [hx]
    exact Action.yields_pure.2 ⟨rfl, rfl⟩

@[simp] theorem yields_makeDirAll {wrap : Fault → ε} {p : Path} {h h' : Host} {u : Unit} :
    (makeDirAll wrap p).Yields h u h' ↔
      (h.files.makeDirAll h.cwd p).1 = .ok () ∧ h' = { h with files := (h.files.makeDirAll h.cwd p).2 } := by
  unfold makeDirAll
  simp only [Action.yields_bind, Action.yields_get, Action.yields_set]
  constructor
  · rintro ⟨_, _, ⟨rfl, rfl⟩, ⟨⟩, _, rfl, hrun⟩
    split at hrun
    next hok => exact ⟨hok, (Action.yields_pure.1 hrun).2⟩
    next => exact absurd hrun Action.not_yields_throw
  · rintro ⟨hok, rfl⟩
    refine ⟨h, h, ⟨rfl, rfl⟩, (), _, rfl, ?_⟩
    rw [hok]
    exact Action.yields_pure.2 ⟨rfl, rfl⟩

end Host

namespace Action

/-! ### Failed runs -/

section Fails

variable {σ τ ε δ α β : Type} {s s' : σ}

/-- **A failed run:** from `s` the step fails with `e` and leaves `s'`. -/
def Fails (x : Action σ ε α) (s : σ) (e : ε) (s' : σ) : Prop := (x.run.run s).run = (.error e, s')

/-- A run either succeeds or fails. -/
theorem yields_or_fails (x : Action σ ε α) (s : σ) : (∃ a s', x.Yields s a s') ∨ ∃ e s', x.Fails s e s' := by
  unfold Yields Fails
  rcases (x.run.run s).run with ⟨r, s'⟩
  cases r with
  | ok a => exact Or.inl ⟨a, s', rfl⟩
  | error e => exact Or.inr ⟨e, s', rfl⟩

theorem exists_fails {x : Action σ ε α} (h : (x.run.run s).run.1.toBool = false) : ∃ e s', Fails x s e s' := by
  rcases hrun : (x.run.run s).run with ⟨r, s'⟩
  rw [hrun] at h
  cases r with
  | error e => exact ⟨e, s', hrun⟩
  | ok a => simp [Except.toBool] at h

/-- The failure of a run, if it is a failed one. -/
def failure? (x : Action σ ε α) (s : σ) : Option ε :=
  match (x.run.run s).run.1 with
  | .ok _ => none
  | .error e => some e

theorem exists_fails_of_failure? {x : Action σ ε α} {e : ε} (h : x.failure? s = some e) : ∃ s', Fails x s e s' := by
  rcases hrun : (x.run.run s).run with ⟨r, s'⟩
  unfold failure? at h
  rw [hrun] at h
  cases r with
  | ok a => simp at h
  | error e' => exact ⟨s', by rw [← Option.some.inj h]; exact hrun⟩

/-- A sequence fails when its first part does, or when that succeeds and the rest fails. -/
theorem fails_bind {x : Action σ ε α} {f : α → Action σ ε β} {e : ε} :
    Fails (x >>= f) s e s' ↔ Fails x s e s' ∨ ∃ a s₁, Yields x s a s₁ ∧ Fails (f a) s₁ e s' := by
  unfold Fails Yields
  rw [ExceptT.run_bind, StateT.run_bind]
  rcases hx : (x.run.run s).run with ⟨r, s₁⟩
  cases r <;> simp [hx]

@[simp] theorem not_fails_pure {a : α} {e : ε} : ¬ Fails (pure a : Action σ ε α) s e s' := by
  change ¬ ((Except.ok a, s) : Except ε α × σ) = (Except.error e, s')
  simp

@[simp] theorem fails_throw {e e' : ε} : Fails (throw e : Action σ ε α) s e' s' ↔ e' = e ∧ s' = s := by
  change ((Except.error e, s) : Except ε α × σ) = (Except.error e', s') ↔ _
  simp [eq_comm]

@[simp] theorem not_fails_get {e : ε} : ¬ Fails (get : Action σ ε σ) s e s' := by
  change ¬ ((Except.ok s, s) : Except ε σ × σ) = (Except.error e, s')
  simp

@[simp] theorem not_fails_set {t : σ} {e : ε} : ¬ Fails (set t : Action σ ε PUnit) s e s' := by
  change ¬ ((Except.ok PUnit.unit, t) : Except ε PUnit × σ) = (Except.error e, s')
  simp

@[simp] theorem not_fails_modify {f : σ → σ} {e : ε} : ¬ Fails (modify f : Action σ ε PUnit) s e s' := by
  change ¬ ((Except.ok PUnit.unit, f s) : Except ε PUnit × σ) = (Except.error e, s')
  simp

@[simp] theorem fails_onPart {get : τ → σ} {set : σ → τ → τ} {x : Action σ ε α} {t t' : τ} {e : ε} :
    Fails (onPart get set x) t e t' ↔ ∃ s', Fails x (get t) e s' ∧ t' = set s' t := by
  change (((x.run.run (get t)).run.1, set (x.run.run (get t)).run.2 t) : Except ε α × τ) = (Except.error e, t') ↔ _
  unfold Fails
  rcases (x.run.run (get t)).run with ⟨r, s₁⟩
  simp [eq_comm, and_assoc]

@[simp] theorem fails_mapFailure {f : ε → δ} {x : Action σ ε α} {e : δ} :
    Fails (mapFailure f x) s e s' ↔ ∃ e', Fails x s e' s' ∧ e = f e' := by
  change (((x.run.run s).run.1.mapError f, (x.run.run s).run.2) : Except δ α × σ) = (Except.error e, s') ↔ _
  unfold Fails
  rcases (x.run.run s).run with ⟨r, s₁⟩
  cases r with
  | ok a => simp [Except.mapError]
  | error e' => simp [Except.mapError, eq_comm, and_comm]

@[simp] theorem fails_liftM {x : Except ε α} {e : ε} :
    Fails (liftM x : Action σ ε α) s e s' ↔ x = .error e ∧ s' = s := by
  cases x with
  | ok b =>
    change ((Except.ok b, s) : Except ε α × σ) = (Except.error e, s') ↔ _
    simp
  | error e' =>
    change ((Except.error e', s) : Except ε α × σ) = (Except.error e, s') ↔ _
    simp [eq_comm]

@[simp] theorem not_fails_outcome {x : Action σ ε α} {e : δ} :
    ¬ Fails (outcome x : Action σ δ (Except ε α)) s e s' := by
  change ¬ ((Except.ok (x.run.run s).run.1, (x.run.run s).run.2) : Except δ _ × σ) = (Except.error e, s')
  simp

end Fails

end Action

namespace Session

variable {σ ε α : Type}

@[simp] theorem fails_onHost {x : Action Host ε α} {s s' : Session σ} {e : ε} :
    Action.Fails (onHost x) s e s' ↔ ∃ h, x.Fails s.host e h ∧ s' = { s with host := h } :=
  Action.fails_onPart

end Session

namespace Host

variable {ε α : Type}

@[simp] theorem not_fails_report {event : Event} {h h' : Host} {e : ε} :
    ¬ Action.Fails (report event : Action Host ε Unit) h e h' := Action.not_fails_modify

@[simp] theorem not_fails_reportAll {es : List Event} {h h' : Host} {e : ε} :
    ¬ Action.Fails (reportAll es : Action Host ε Unit) h e h' := Action.not_fails_modify

/-- A change of the tree that fails leaves the machine as it was. -/
theorem fails_change {wrap : Fault → ε} {operation : Files → Location → Except Fault Files} {h h' : Host} {e : ε} :
    (change wrap operation).Fails h e h' ↔
      ∃ fault, operation h.files h.cwd = .error fault ∧ e = wrap fault ∧ h' = h := by
  unfold change
  rw [Action.fails_bind]
  simp only [Action.not_fails_get, false_or, Action.yields_get]
  constructor
  · rintro ⟨_, _, ⟨rfl, rfl⟩, hrun⟩
    split at hrun
    next => exact absurd hrun Action.not_fails_set
    next fault hop => exact ⟨fault, hop, Action.fails_throw.1 hrun⟩
  · rintro ⟨fault, hop, rfl, rfl⟩
    refine ⟨_, _, ⟨rfl, rfl⟩, ?_⟩
    rw [hop]
    exact Action.fails_throw.2 ⟨rfl, rfl⟩

/-- A question that has no answer leaves the machine as it was. -/
theorem fails_ask {wrap : Fault → ε} {question : Host → Except Fault α} {h h' : Host} {e : ε} :
    (ask wrap question).Fails h e h' ↔ ∃ fault, question h = .error fault ∧ e = wrap fault ∧ h' = h := by
  unfold ask
  simp only [Action.fails_bind, Action.not_fails_get, false_or, Action.yields_get]
  constructor
  · rintro ⟨_, _, ⟨rfl, rfl⟩, hrun⟩
    split at hrun
    next => exact absurd hrun Action.not_fails_pure
    next fault hx =>
      obtain ⟨rfl, rfl⟩ := Action.fails_throw.1 hrun
      exact ⟨fault, hx, rfl, rfl⟩
  · rintro ⟨fault, hx, rfl, rfl⟩
    refine ⟨_, _, ⟨rfl, rfl⟩, ?_⟩
    rw [hx]
    exact Action.fails_throw.2 ⟨rfl, rfl⟩

theorem fails_makeDirAll {wrap : Fault → ε} {p : Path} {h h' : Host} {e : ε} :
    (makeDirAll wrap p).Fails h e h' ↔ ∃ fault, (h.files.makeDirAll h.cwd p).1 = .error fault ∧ e = wrap fault ∧
      h' = { h with files := (h.files.makeDirAll h.cwd p).2 } := by
  unfold makeDirAll
  simp only [Action.fails_bind, Action.not_fails_get, false_or, Action.yields_get, Action.not_fails_set, Action.yields_set]
  constructor
  · rintro ⟨_, _, ⟨rfl, rfl⟩, ⟨⟩, _, rfl, hrun⟩
    split at hrun
    next => exact absurd hrun Action.not_fails_pure
    next fault hmake => exact ⟨fault, hmake, Action.fails_throw.1 hrun⟩
  · rintro ⟨fault, hmake, rfl, rfl⟩
    refine ⟨_, _, ⟨rfl, rfl⟩, (), _, rfl, ?_⟩
    rw [hmake]
    exact Action.fails_throw.2 ⟨rfl, rfl⟩

end Host

namespace Action

/-! ### Steps that only read -/

variable {ε δ α β : Type}

/-- **A step that only reads:** it has the outcome `r` on the machine `h`, whatever was logged before, and changes
nothing but the log. -/
def Reads (x : Action Host ε α) (h : Host) (r : Except ε α) : Prop :=
  ∀ log, ∃ log', (x.run.run { h with log }).run = (r, { h with log := log' })

variable {h : Host}

theorem Reads.yields {x : Action Host ε α} {a : α} (hx : Reads x h (.ok a)) :
    ∃ log, x.Yields h a { h with log } := hx h.log

/-- What a step that only reads yields is its outcome. -/
theorem Reads.eq_of_yields {x : Action Host ε α} {r : Except ε α} {a : α} {h' : Host} (hx : Reads x h r)
    (hrun : x.Yields h a h') : r = .ok a ∧ ∃ log, h' = { h with log } := by
  obtain ⟨log, hread⟩ := hx h.log
  obtain ⟨hr, hh⟩ := Prod.mk.inj (hread.symm.trans hrun)
  exact ⟨hr, log, hh.symm⟩

theorem reads_pure (a : α) (h : Host) : Reads (pure a : Action Host ε α) h (.ok a) := fun log => ⟨log, rfl⟩

theorem reads_throw (e : ε) (h : Host) : Reads (throw e : Action Host ε α) h (.error e) := fun log => ⟨log, rfl⟩

theorem reads_report (e : Event) (h : Host) : Reads (Host.report e : Action Host ε Unit) h (.ok ()) :=
  fun log => ⟨log.push e, rfl⟩

theorem Reads.bind {x : Action Host ε α} {f : α → Action Host ε β} {a : α} {r : Except ε β}
    (hx : Reads x h (.ok a)) (hf : Reads (f a) h r) : Reads (x >>= f) h r := by
  intro log
  obtain ⟨log₁, hrun⟩ := hx log
  obtain ⟨log₂, hrest⟩ := hf log₁
  refine ⟨log₂, ?_⟩
  rw [ExceptT.run_bind, StateT.run_bind]
  simp_all

/-- Looking at the machine is reading if the log is not looked at. -/
theorem reads_get_bind {k : Host → Action Host ε β} {r : Except ε β} (hlog : ∀ log, k { h with log } = k h)
    (hk : Reads (k h) h r) : Reads (get >>= k) h r := by
  intro log
  obtain ⟨log', hrun⟩ := hk log
  exact ⟨log', by rw [← hrun, ← hlog log]; rfl⟩

theorem Reads.outcome {x : Action Host ε α} {r : Except ε α} (hx : Reads x h r) :
    Reads (Action.outcome x : Action Host δ (Except ε α)) h (.ok r) := by
  intro log
  obtain ⟨log', hrun⟩ := hx log
  exact ⟨log', Action.yields_outcome.2 hrun⟩

/-! ### What a step keeps -/

variable {σ τ : Type} {I : σ → Prop} {P : α → Prop} {Q : β → Prop}

/-- **A step keeps a property** of the state, whether it succeeds or fails, and what it yields has one of its own. -/
def Keeps (x : Action σ ε α) (I : σ → Prop) (P : α → Prop) : Prop :=
  ∀ s, I s → I (x.run.run s).run.2 ∧ ∀ a, (x.run.run s).run.1 = .ok a → P a

theorem Keeps.state {x : Action σ ε α} (hx : x.Keeps I P) {s t : σ} {r : Except ε α} (hs : I s)
    (hrun : (x.run.run s).run = (r, t)) : I t := by
  have h := (hx s hs).1
  rwa [hrun] at h

theorem Keeps.value {x : Action σ ε α} (hx : x.Keeps I P) {s t : σ} {a : α} (hs : I s) (hrun : x.Yields s a t) : P a :=
  (hx s hs).2 a (congrArg Prod.fst hrun)

theorem keeps_pure {a : α} (ha : P a) : Keeps (pure a : Action σ ε α) I P := by
  intro s hs
  refine ⟨hs, fun b hb => ?_⟩
  obtain rfl : a = b := Except.ok.inj hb
  exact ha

theorem keeps_throw (e : ε) : Keeps (throw e : Action σ ε α) I P := by
  intro s hs
  refine ⟨hs, fun a ha => ?_⟩
  cases ha

theorem Keeps.bind {x : Action σ ε α} {f : α → Action σ ε β} (hx : x.Keeps I P) (hf : ∀ a, P a → (f a).Keeps I Q) :
    (x >>= f).Keeps I Q := by
  intro s hs
  have hfirst := hx s hs
  rw [ExceptT.run_bind, StateT.run_bind]
  rcases hrun : (x.run.run s).run with ⟨r, s₁⟩
  rw [hrun] at hfirst
  cases r with
  | error e => simpa [hrun] using hfirst.1
  | ok a =>
    have hrest := hf a (hfirst.2 a rfl) s₁ hfirst.1
    simpa [hrun] using hrest

theorem keeps_get : Keeps (get : Action σ ε σ) I I := by
  intro s hs
  refine ⟨hs, fun a ha => ?_⟩
  obtain rfl : s = a := Except.ok.inj ha
  exact hs

theorem keeps_set {s : σ} (hs : I s) : Keeps (set s : Action σ ε PUnit) I fun _ => True :=
  fun _ _ => ⟨hs, fun _ _ => trivial⟩

theorem keeps_modify {f : σ → σ} (hf : ∀ s, I s → I (f s)) : Keeps (modify f : Action σ ε PUnit) I fun _ => True :=
  fun s hs => ⟨hf s hs, fun _ _ => trivial⟩

theorem Keeps.onPart {get : τ → σ} {set : σ → τ → τ} (hset : ∀ s t, get (set s t) = s) {x : Action σ ε α}
    (hx : x.Keeps I P) : (onPart get set x).Keeps (fun t => I (get t)) P := by
  intro t ht
  have hpart := hx (get t) ht
  change I (get (set (x.run.run (get t)).run.2 t)) ∧ _
  rw [hset]
  exact hpart

theorem keeps_ask {I : Host → Prop} (wrap : Fault → ε) (question : Host → Except Fault α) :
    (Host.ask wrap question).Keeps I fun _ => True := by
  unfold Host.ask
  refine keeps_get.bind fun h _ => ?_
  split
  · exact keeps_pure trivial
  · exact keeps_throw _

/-- A step on the machine keeps what it keeps of the machine. -/
theorem Keeps.onHost {I : Host → Prop} {x : Action Host ε α} (hx : x.Keeps I P) :
    (Session.onHost x : Action (Session σ) ε α).Keeps (fun s => I s.host) P := hx.onPart fun _ _ => rfl

/-- A step on the machine leaves the tool alone. -/
theorem keeps_tool {x : Action Host ε α} {T : τ → Prop} :
    (Session.onHost x : Action (Session τ) ε α).Keeps (fun s => T s.tool) fun _ => True :=
  fun _ hs => ⟨hs, fun _ _ => trivial⟩

/-- A step that only reads keeps what does not depend on the log. -/
theorem keeps_of_reads {I : Host → Prop} (hlog : ∀ h log, I h → I { h with log }) {x : Action Host ε α}
    (hx : ∀ h, ∃ r, x.Reads h r) : x.Keeps I fun _ => True := by
  intro h hI
  obtain ⟨r, hread⟩ := hx h
  obtain ⟨log, hrun⟩ := hread h.log
  refine ⟨?_, fun _ _ => trivial⟩
  rw [show (x.run.run h).run = _ from hrun]
  exact hlog h log hI

/-! ### What a step ends in -/

/-- **What a step ends in:** if it succeeds its result and the state are such as `Q` says, and if it fails its failure and
the state are such as `E` says. -/
structure Ends (x : Action σ ε α) (s : σ) (Q : α → σ → Prop) (E : ε → σ → Prop) : Prop where
  success : ∀ a t, x.Yields s a t → Q a t
  failure : ∀ e t, x.Fails s e t → E e t

section Ends

variable {x : Action σ ε α} {s : σ} {Q Q₁ : α → σ → Prop} {Q₀ : σ → Prop} {R : β → σ → Prop} {E E₁ : ε → σ → Prop}

theorem Ends.bind {f : α → Action σ ε β} (hx : x.Ends s Q E) (hf : ∀ a t, Q a t → (f a).Ends t R E) :
    (x >>= f).Ends s R E where
  success b t hrun := by
    obtain ⟨a, s₁, hfirst, hrest⟩ := yields_bind.1 hrun
    exact (hf a s₁ (hx.success a s₁ hfirst)).success b t hrest
  failure e t hrun := by
    rcases fails_bind.1 hrun with hfirst | ⟨a, s₁, hfirst, hrest⟩
    · exact hx.failure e t hfirst
    · exact (hf a s₁ (hx.success a s₁ hfirst)).failure e t hrest

theorem Ends.mono (hx : x.Ends s Q E) (hQ : ∀ a t, Q a t → Q₁ a t) (hE : ∀ e t, E e t → E₁ e t) : x.Ends s Q₁ E₁ where
  success a t hrun := hQ a t (hx.success a t hrun)
  failure e t hrun := hE e t (hx.failure e t hrun)

theorem Ends.and (hx : x.Ends s Q E) (hx' : x.Ends s Q₁ E₁) :
    x.Ends s (fun a t => Q a t ∧ Q₁ a t) fun e t => E e t ∧ E₁ e t where
  success a t hrun := ⟨hx.success a t hrun, hx'.success a t hrun⟩
  failure e t hrun := ⟨hx.failure e t hrun, hx'.failure e t hrun⟩

theorem ends_pure {a : α} (h : Q a s) : (pure a : Action σ ε α).Ends s Q E where
  success b t hrun := by
    obtain ⟨rfl, rfl⟩ := yields_pure.1 hrun
    exact h
  failure e t hrun := absurd hrun not_fails_pure

theorem Ends.discard (hx : x.Ends s (fun _ => Q₀) E) : (Functor.discard x).Ends s (fun _ => Q₀) E :=
  hx.bind fun _ _ h => ends_pure h

/-- What a step keeps holds wherever it ends. -/
theorem Keeps.ends (hx : x.Keeps I P) (hs : I s) : x.Ends s (fun a t => I t ∧ P a) fun _ t => I t where
  success _ _ hrun := ⟨hx.state hs hrun, hx.value hs hrun⟩
  failure _ _ hrun := hx.state hs hrun

theorem ends_get : (get : Action σ ε σ).Ends s (fun a t => a = s ∧ t = s) E where
  success _ _ hrun := yields_get.1 hrun
  failure _ _ hrun := absurd hrun not_fails_get

theorem ends_throw {e : ε} (h : E e s) : (throw e : Action σ ε α).Ends s Q E where
  success _ _ hrun := absurd hrun not_yields_throw
  failure e' t hrun := by
    obtain ⟨rfl, rfl⟩ := fails_throw.1 hrun
    exact h

end Ends

end Action

/-! ### What a step fails with -/

/-- **Whether a step has no other failures than some,** from wherever it starts. -/
def Action.FailsWith {σ ε α : Type} (x : Action σ ε α) (E : ε → Prop) : Prop := ∀ s e t, x.Fails s e t → E e

namespace Action.FailsWith

variable {σ ε δ α β : Type} {x : Action σ ε α} {E : ε → Prop}

theorem pure (a : α) : (Pure.pure a : Action σ ε α).FailsWith E := fun _ _ _ hrun => absurd hrun not_fails_pure

theorem throw {e : ε} (he : E e) : (MonadExcept.throw e : Action σ ε α).FailsWith E := by
  intro s e' t hrun
  obtain ⟨rfl, -⟩ := fails_throw.1 hrun
  exact he

theorem bind (hx : x.FailsWith E) {f : α → Action σ ε β} (hf : ∀ a, (f a).FailsWith E) : (x >>= f).FailsWith E := by
  intro s e t hrun
  rcases fails_bind.1 hrun with hfirst | ⟨a, s₁, -, hrest⟩
  · exact hx s e t hfirst
  · exact hf a s₁ e t hrest

theorem get : (MonadState.get : Action σ ε σ).FailsWith E := fun _ _ _ hrun => absurd hrun not_fails_get

theorem set (s : σ) : (MonadStateOf.set s : Action σ ε PUnit).FailsWith E := fun _ _ _ hrun => absurd hrun not_fails_set

theorem report (e : Event) {E : ε → Prop} : (Host.report e : Action Host ε Unit).FailsWith E :=
  fun _ _ _ hrun => absurd hrun Host.not_fails_report

theorem reportAll (es : List Event) {E : ε → Prop} : (Host.reportAll es : Action Host ε Unit).FailsWith E :=
  fun _ _ _ hrun => absurd hrun Host.not_fails_reportAll

theorem mapFailure {f : ε → δ} {D : δ → Prop} (hD : ∀ e, D (f e)) : (Action.mapFailure f x).FailsWith D := by
  intro s e t hrun
  obtain ⟨e', -, rfl⟩ := fails_mapFailure.1 hrun
  exact hD e'

end Action.FailsWith

theorem Session.onHost_failsWith {σ ε α : Type} {E : ε → Prop} {x : Action Host ε α} (hx : x.FailsWith E) :
    (onHost x : Action (Session σ) ε α).FailsWith E := by
  intro s e t hrun
  obtain ⟨_, hhost, -⟩ := Session.fails_onHost.1 hrun
  exact hx _ _ _ hhost

end Recompile

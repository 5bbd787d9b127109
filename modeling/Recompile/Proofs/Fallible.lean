import Mathlib.Data.List.Basic

/-!
# Computations that can fail

A sequence of computations succeeds if each one does on what the one before it gave (`bind_eq_ok_iff`), and a computation
over a list if it does on every element (`mapM_eq_ok_iff`, `forM_eq_ok_iff`). With these a computation that is known to have
succeeded can be taken apart into its steps.
-/

namespace Recompile

variable {δ ε α β : Type}

theorem bind_eq_ok_iff {x : Except ε α} {f : α → Except ε β} {b : β} :
    x >>= f = .ok b ↔ ∃ a, x = .ok a ∧ f a = .ok b := by
  cases x <;> simp [bind, Except.bind]

theorem bind_eq_error_iff {x : Except ε α} {f : α → Except ε β} {e : ε} :
    x >>= f = .error e ↔ x = .error e ∨ ∃ a, x = .ok a ∧ f a = .error e := by
  cases x <;> simp [bind, Except.bind]

theorem map_eq_ok_iff {x : Except ε α} {f : α → β} {b : β} : f <$> x = .ok b ↔ ∃ a, x = .ok a ∧ f a = b := by
  cases x <;> simp [Functor.map, Except.map]

theorem pure_eq_ok_iff {a b : α} : (pure a : Except ε α) = .ok b ↔ a = b := by
  simp [pure, Except.pure]

theorem mapError_eq_ok_iff {x : Except ε α} {f : ε → δ} {a : α} : x.mapError f = .ok a ↔ x = .ok a := by
  cases x <;> simp [Except.mapError]

theorem toOption_eq_some_iff {x : Except ε α} {a : α} : x.toOption = some a ↔ x = .ok a := by
  cases x <;> simp [Except.toOption]

/-- A check that is passed, and what is checked after it. -/
theorem guard_eq_ok_iff {p : Prop} [Decidable p] {e : ε} {rest : Except ε α} {x : α} :
    (if p then (do throw e; rest) else rest) = .ok x ↔ ¬ p ∧ rest = .ok x := by
  by_cases hp : p
  · rw [if_pos hp, bind_eq_ok_iff]
    simp [hp, throw, throwThe, MonadExceptOf.throw]
  · rw [if_neg hp]
    simp [hp]

/-- A list of computations succeeds if all of them do. -/
theorem mapM_eq_ok_iff {f : α → Except ε β} {l : List α} {ys : List β} :
    l.mapM f = .ok ys ↔ l.map f = ys.map .ok := by
  induction l generalizing ys with
  | nil => rw [List.mapM_nil, pure_eq_ok_iff]; simp [eq_comm]
  | cons a rest ih =>
    simp only [List.mapM_cons, bind_eq_ok_iff, pure_eq_ok_iff, ih]
    rw [List.map_cons]
    constructor
    · rintro ⟨y, hy, others, hothers, rfl⟩
      rw [List.map_cons, hy, hothers]
    · intro h
      obtain ⟨y, others, rfl, hy, hothers⟩ := List.map_eq_cons_iff.1 h.symm
      exact ⟨y, hy.symm, others, hothers.symm, rfl⟩

theorem forM_eq_ok_iff {f : α → Except ε Unit} {l : List α} : l.forM f = .ok () ↔ ∀ x ∈ l, f x = .ok () := by
  induction l with
  | nil => simp [pure, Except.pure]
  | cons x rest ih =>
    change (f x >>= fun _ => rest.forM f) = _ ↔ _
    rw [bind_eq_ok_iff, ih, List.forall_mem_cons]
    exact ⟨fun ⟨_, hx, hrest⟩ => ⟨hx, hrest⟩, fun ⟨hx, hrest⟩ => ⟨_, hx, hrest⟩⟩

end Recompile

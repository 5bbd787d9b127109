/-!
# Values computed once per key

A `SingleFlight` table holds the values that have been computed so far, one per key. Asking for a key either
returns the value that is there or runs an initialiser and keeps what it yields. A failure is not kept: the
next caller tries again. Toolchains are indexed and bridges are built through such tables, so that however
often a compile asks for one, the work is done once.

A key gets a slot as soon as somebody asks for it, before it has a value; a slot that a failure left empty is
no entry of the table (`SingleFlight.get?`, `SingleFlight.size`).
-/

namespace Recompile

/-- **A table of values that are computed on demand.** -/
structure SingleFlight (κ ν : Type) where
  /-- The slots; one without a value belongs to a key whose initialiser failed. -/
  slots : List (κ × Option ν)

namespace SingleFlight

variable {κ ν : Type}

/-- The table without slots. -/
def empty : SingleFlight κ ν := ⟨[]⟩

instance : EmptyCollection (SingleFlight κ ν) := ⟨empty⟩

instance : Inhabited (SingleFlight κ ν) := ⟨empty⟩

variable [BEq κ]

/-- The value of a key, if it has been computed. -/
def get? (t : SingleFlight κ ν) (k : κ) : Option ν := (t.slots.lookup k).join

/-- The number of values. -/
def size (t : SingleFlight κ ν) : Nat := (t.slots.filter fun slot => slot.2.isSome).length

/-- Whether no value has been computed. -/
def isEmpty (t : SingleFlight κ ν) : Bool := t.size == 0

/-- Drops the slot of a key. -/
def forget (t : SingleFlight κ ν) (k : κ) : SingleFlight κ ν := ⟨t.slots.filter fun slot => !(k == slot.1)⟩

/-- Drops every slot. -/
def clear (_ : SingleFlight κ ν) : SingleFlight κ ν := ∅

/-- Puts a slot in place of the one of the same key. -/
def store (t : SingleFlight κ ν) (k : κ) (x : Option ν) : SingleFlight κ ν :=
  ⟨(k, x) :: (t.forget k).slots⟩

section Lookups

variable [LawfulBEq κ]

theorem lookup_filter (slots : List (κ × Option ν)) (k other : κ) :
    (slots.filter fun slot => !(k == slot.1)).lookup other = if k == other then none else slots.lookup other := by
  induction slots with
  | nil => simp
  | cons slot rest ih =>
    obtain ⟨key, value⟩ := slot
    -- the slot in front goes with its key, or it stays and hides those behind it
    by_cases hkey : k = key
    · subst hkey
      by_cases hother : k = other
      · subst hother
        simp
      · have hne : (other == k) = false := beq_false_of_ne fun h => hother h.symm
        simpa [List.lookup_cons, hother, hne] using ih
    · by_cases hother : other = key
      · subst hother
        simp [hkey]
      · have hne : (other == key) = false := beq_false_of_ne hother
        simpa [List.lookup_cons, hkey, hne] using ih

/-- A key that was dropped has no value, and the others keep theirs. -/
theorem get?_forget (t : SingleFlight κ ν) (k other : κ) :
    (t.forget k).get? other = if k == other then none else t.get? other := by
  unfold get? forget
  rw [lookup_filter]
  split <;> rfl

/-- A slot that was put in place holds what it was given, and the others keep their values. -/
theorem get?_store (t : SingleFlight κ ν) (k : κ) (x : Option ν) (other : κ) :
    (t.store k x).get? other = if k == other then x else t.get? other := by
  have hforget := get?_forget t k other
  unfold get? store at *
  by_cases hother : k = other
  · subst hother
    simp
  · have hne : (other == k) = false := beq_false_of_ne fun h => hother h.symm
    simpa [List.lookup_cons, hother, hne] using hforget

end Lookups

/-- **The value of a key, computed if need be.** The initialiser runs only when the key has no value. -/
def getOrInit {m : Type → Type} [Monad m] {ε : Type} (t : SingleFlight κ ν) (k : κ)
    (init : m (Except ε ν)) : m (Except ε ν × SingleFlight κ ν) :=
  match t.get? k with
  | some x => pure (.ok x, t)
  | none => do
    match ← init with
    | .ok x => pure (.ok x, t.store k (some x))
    | .error e => pure (.error e, t.store k none)

/-- **A key that has a value costs nothing,** and one that has none costs one run of the initialiser, of which a value is
kept. -/
theorem of_getOrInit {σ ε : Type} {t t' : SingleFlight κ ν} {k : κ} {init : StateM σ (Except ε ν)} {s s' : σ}
    {r : Except ε ν} (h : ((t.getOrInit k init).run s).run = ((r, t'), s')) :
    (∃ x, t.get? k = some x ∧ r = .ok x ∧ t' = t ∧ s' = s) ∨
      t.get? k = none ∧ (init.run s).run = (r, s') ∧ t' = t.store k r.toOption := by
  unfold getOrInit at h
  cases hvalue : t.get? k with
  | some x =>
    rw [hvalue] at h
    obtain ⟨hresult, rfl⟩ := Prod.mk.inj h
    obtain ⟨rfl, rfl⟩ := Prod.mk.inj hresult
    exact Or.inl ⟨x, rfl, rfl, rfl, rfl⟩
  | none =>
    -- the initialiser runs, and of its result only a value goes into the slot
    refine Or.inr ⟨rfl, ?_⟩
    rw [hvalue] at h
    dsimp only at h
    rw [StateT.run_bind] at h
    rcases hrun : (init.run s).run with ⟨r₁, s₁⟩
    cases r₁ with
    | ok x => simp_all [Except.toOption, eq_comm]
    | error e => simp_all [Except.toOption, eq_comm]

end SingleFlight

end Recompile

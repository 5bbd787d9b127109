import Recompile.SingleFlight
import Mathlib.Data.Finmap

/-!
# A table of values as a plain map

A `SingleFlight` table gives a key a slot before the key has a value, and a failed initialiser leaves the slot empty. Nobody
can tell: for every sequence of calls the replies, the runs of the initialisers and the number of values after each call are
those of a plain map from keys to values (`SingleFlight.answers_as_plain_map`). The plain map has no slots. Asked for a key,
it gives the value that is there, or runs the initialiser once and inserts what it yields, unless that is a failure.

The table and the map are related by `SingleFlight.Represents`, which every call preserves (`Represents.serve`). What
remains is about the map alone, where it is plain: a key is not touched by the calls of another one, and a failure is no
call at all.
-/

namespace Recompile

namespace SingleFlight

variable {κ ν ε : Type}

/-! ### Calls and answers -/

/-- **A call of a table.** The initialiser of a key is given by the outcome that it has if it is run. -/
inductive Call (κ ν ε : Type)
  | getOrInit (k : κ) (outcome : Except ε ν)
  | get (k : κ)
  | forget (k : κ)
  | clear

/-- What a call returns. -/
inductive Reply (ν ε : Type)
  | value (r : Except ε ν)
  | found (x : Option ν)
  | done

/-- What can be observed of a call: its reply, how often its initialiser ran, and how many values the table has then. -/
structure Answer (ν ε : Type) where
  reply : Reply ν ε
  runs : Nat
  size : Nat
  isEmpty : Bool

namespace Answer

/-- The part of an answer that is about the key of the call. -/
def own (a : Answer ν ε) : Reply ν ε × Nat := (a.reply, a.runs)

end Answer

/-- An initialiser with an outcome, which counts its runs. -/
def counted (outcome : Except ε ν) : StateM Nat (Except ε ν) := modifyGet fun runs => (outcome, runs + 1)

variable [DecidableEq κ]

/-- **The value of a key in a plain map, computed if need be:** what is returned, the runs of the initialiser, and the map
after it. -/
def plainGetOrInit (m : Finmap fun _ : κ => ν) (k : κ) (outcome : Except ε ν) :
    (Reply ν ε × Nat) × Finmap fun _ : κ => ν :=
  match m.lookup k, outcome with
  | some x, _ => ((.value (.ok x), 0), m)
  | none, .ok x => ((.value (.ok x), 1), m.insert k x)
  | none, .error e => ((.value (.error e), 1), m)

namespace Call

/-- A call of a table: the reply, the runs of the initialiser, and the table after it. -/
def serve (t : SingleFlight κ ν) : Call κ ν ε → (Reply ν ε × Nat) × SingleFlight κ ν
  | .getOrInit k outcome =>
    let ((r, t'), runs) := ((t.getOrInit k (counted outcome)).run 0).run
    ((.value r, runs), t')
  | .get k => ((.found (t.get? k), 0), t)
  | .forget k => ((.done, 0), t.forget k)
  | .clear => ((.done, 0), t.clear)

/-- The same call of a plain map. -/
def plain (m : Finmap fun _ : κ => ν) : Call κ ν ε → (Reply ν ε × Nat) × Finmap fun _ : κ => ν
  | .getOrInit k outcome => plainGetOrInit m k outcome
  | .get k => ((.found (m.lookup k), 0), m)
  | .forget k => ((.done, 0), m.erase k)
  | .clear => ((.done, 0), ∅)

/-- Whether a call is about a key: it names it or is about all of them. -/
def concerns (k : κ) : Call κ ν ε → Bool
  | .getOrInit other _ => other = k
  | .get other => other = k
  | .forget other => other = k
  | .clear => true

end Call

/-- The answers of a table to some calls, one after the other. -/
def answers (t : SingleFlight κ ν) : List (Call κ ν ε) → List (Answer ν ε)
  | [] => []
  | call :: rest =>
    let step := call.serve t
    ⟨step.1.1, step.1.2, step.2.size, step.2.isEmpty⟩ :: answers step.2 rest

/-- The answers of a plain map to the same calls. -/
def plainAnswers (m : Finmap fun _ : κ => ν) : List (Call κ ν ε) → List (Answer ν ε)
  | [] => []
  | call :: rest =>
    let step := call.plain m
    ⟨step.1.1, step.1.2, step.2.keys.card, step.2.keys = ∅⟩ :: plainAnswers step.2 rest

/-- What is observed of the calls about a key, out of all calls and their answers. -/
def about (k : κ) (calls : List (Call κ ν ε)) (answers : List (Answer ν ε)) : List (Reply ν ε × Nat) :=
  ((calls.zip answers).filter fun pair => pair.1.concerns k).map fun pair => pair.2.own

/-! ### The table holds what the map holds -/

/-- **A table that holds what a plain map holds.** No key has two slots; a slot may be empty, which the map does not see. -/
structure Represents (t : SingleFlight κ ν) (m : Finmap fun _ : κ => ν) : Prop where
  distinct : (t.slots.map Prod.fst).Nodup
  get? : ∀ k, t.get? k = m.lookup k

variable {t : SingleFlight κ ν} {m : Finmap fun _ : κ => ν}

theorem distinct_forget (h : (t.slots.map Prod.fst).Nodup) (k : κ) : ((t.forget k).slots.map Prod.fst).Nodup :=
  h.sublist (List.filter_sublist.map Prod.fst)

theorem distinct_store (h : (t.slots.map Prod.fst).Nodup) (k : κ) (x : Option ν) :
    ((t.store k x).slots.map Prod.fst).Nodup := by
  refine List.nodup_cons.2 ⟨?_, distinct_forget h k⟩
  intro hk
  obtain ⟨slot, hslot, hkey⟩ := List.mem_map.1 hk
  have hother := (List.mem_filter.1 hslot).2
  rw [hkey] at hother
  simp at hother

theorem get?_eq_some_iff (h : (t.slots.map Prod.fst).Nodup) {k : κ} {x : ν} :
    t.get? k = some x ↔ (k, some x) ∈ t.slots := by
  unfold SingleFlight.get?
  induction hslots : t.slots generalizing t with
  | nil => simp
  | cons slot rest ih =>
    obtain ⟨key, value⟩ := slot
    rw [hslots] at h
    have hkey : key ∉ rest.map Prod.fst := (List.nodup_cons.1 h).1
    by_cases heq : k = key
    · -- the first slot of a key is its only one
      subst heq
      have hrest : (k, some x) ∉ rest := fun hmem => hkey (List.mem_map_of_mem hmem)
      simp [hrest, eq_comm]
    · rw [List.lookup_cons, beq_false_of_ne heq, List.mem_cons]
      have hne : (k, some x) ≠ (key, value) := fun hpair => heq (Prod.mk.inj hpair).1
      simpa [hne] using ih (t := ⟨rest⟩) (List.nodup_cons.1 h).2 rfl

theorem plainGetOrInit_of_lookup {k : κ} {x : ν} (hk : m.lookup k = some x) (outcome : Except ε ν) :
    plainGetOrInit m k outcome = ((.value (.ok x), 0), m) := by
  unfold plainGetOrInit
  rw [hk]

theorem plainGetOrInit_ok {k : κ} (hk : m.lookup k = none) (x : ν) :
    plainGetOrInit m k (.ok x : Except ε ν) = ((.value (.ok x), 1), m.insert k x) := by
  unfold plainGetOrInit
  rw [hk]

theorem plainGetOrInit_error {k : κ} (hk : m.lookup k = none) (e : ε) :
    plainGetOrInit m k (.error e) = ((.value (.error e), 1), m) := by
  unfold plainGetOrInit
  rw [hk]

theorem run_counted (outcome : Except ε ν) (runs : Nat) : ((counted outcome).run runs).run = (outcome, runs + 1) := rfl

namespace Represents

theorem empty : Represents (∅ : SingleFlight κ ν) ∅ := ⟨List.nodup_nil, fun _ => rfl⟩

theorem size_eq (h : Represents t m) : t.size = m.keys.card := by
  -- the slots with a value have different keys, which are those of the map
  have hdistinct : ((t.slots.filter fun slot => slot.2.isSome).map Prod.fst).Nodup :=
    h.distinct.sublist (List.filter_sublist.map Prod.fst)
  have hkeys : ((t.slots.filter fun slot => slot.2.isSome).map Prod.fst).toFinset = m.keys := by
    ext k
    rw [List.mem_toFinset, Finmap.mem_keys, ← Finmap.lookup_isSome, ← h.get?, Option.isSome_iff_exists]
    constructor
    · intro hk
      obtain ⟨⟨key, value⟩, hslot, rfl⟩ := List.mem_map.1 hk
      obtain ⟨hmem, hvalue⟩ := List.mem_filter.1 hslot
      obtain ⟨x, rfl⟩ := Option.isSome_iff_exists.1 hvalue
      exact ⟨x, (get?_eq_some_iff h.distinct).2 hmem⟩
    · rintro ⟨x, hx⟩
      have hmem := (get?_eq_some_iff h.distinct).1 hx
      exact List.mem_map.2 ⟨(k, some x), List.mem_filter.2 ⟨hmem, rfl⟩, rfl⟩
  rw [← hkeys, List.toFinset_card_of_nodup hdistinct, List.length_map]
  rfl

theorem isEmpty_eq (h : Represents t m) : t.isEmpty = decide (m.keys = ∅) := by
  have hsize : t.isEmpty = decide (m.keys.card = 0) := by
    rw [← h.size_eq]
    rfl
  rw [hsize, decide_eq_decide]
  exact Finset.card_eq_zero

theorem forget (h : Represents t m) (k : κ) : Represents (t.forget k) (m.erase k) := by
  refine ⟨distinct_forget h.distinct k, fun other => ?_⟩
  rw [get?_forget, h.get?]
  by_cases hother : k = other
  · subst hother
    simp
  · rw [Finmap.lookup_erase_ne (Ne.symm hother)]
    simp [hother]

theorem store_ok (h : Represents t m) (k : κ) (x : ν) : Represents (t.store k (some x)) (m.insert k x) := by
  refine ⟨distinct_store h.distinct k _, fun other => ?_⟩
  rw [get?_store, h.get?]
  by_cases hother : k = other
  · subst hother
    simp
  · rw [Finmap.lookup_insert_of_ne m (Ne.symm hother)]
    simp [hother]

/-- An empty slot is no entry of the map. -/
theorem store_error (h : Represents t m) {k : κ} (hk : m.lookup k = none) : Represents (t.store k none) m := by
  refine ⟨distinct_store h.distinct k _, fun other => ?_⟩
  rw [get?_store, h.get?]
  by_cases hother : k = other
  · subst hother
    simp [hk]
  · simp [hother]

/-- **One call.** The table and the map give the same, and what they are left with corresponds again. -/
theorem serve (h : Represents t m) (call : Call κ ν ε) :
    (call.serve t).1 = (call.plain m).1 ∧ Represents (call.serve t).2 (call.plain m).2 := by
  cases call with
  | getOrInit k outcome =>
    rcases hrun : ((t.getOrInit k (counted outcome)).run 0).run with ⟨⟨r, t'⟩, runs⟩
    have hserve : Call.serve t (.getOrInit k outcome) = ((.value r, runs), t') := by rw [Call.serve, hrun]
    rw [hserve, Call.plain]
    rcases of_getOrInit hrun with ⟨x, hvalue, rfl, rfl, rfl⟩ | ⟨hvalue, hinit, rfl⟩
    · rw [h.get?] at hvalue
      rw [plainGetOrInit_of_lookup hvalue]
      exact ⟨rfl, h⟩
    · rw [h.get?] at hvalue
      rw [run_counted] at hinit
      obtain ⟨rfl, rfl⟩ := Prod.mk.inj hinit
      cases outcome with
      | ok x =>
        rw [plainGetOrInit_ok hvalue]
        exact ⟨rfl, h.store_ok k x⟩
      | error e =>
        -- the table has a new slot, and the map is as before
        rw [plainGetOrInit_error hvalue]
        exact ⟨rfl, h.store_error hvalue⟩
  | get k => exact ⟨by rw [Call.serve, Call.plain, h.get?], h⟩
  | forget k => exact ⟨rfl, h.forget k⟩
  | clear => exact ⟨rfl, empty⟩

/-- **Any number of calls.** -/
theorem answers (h : Represents t m) (calls : List (Call κ ν ε)) : t.answers calls = plainAnswers m calls := by
  induction calls generalizing t m with
  | nil => rfl
  | cons call rest ih =>
    obtain ⟨hown, hafter⟩ := h.serve call
    simp only [SingleFlight.answers, plainAnswers]
    rw [hown, hafter.size_eq, hafter.isEmpty_eq, ih hafter]

end Represents

/-! ### The plain map -/

/-- A call about other keys leaves the value of a key as it is. -/
theorem lookup_plain_of_not_concerns {call : Call κ ν ε} {k : κ} (hother : call.concerns k = false) :
    (call.plain m).2.lookup k = m.lookup k := by
  cases call with
  | getOrInit other outcome =>
    have hne : k ≠ other := by simpa [Call.concerns, eq_comm] using hother
    rw [Call.plain]
    cases hvalue : m.lookup other with
    | some x => rw [plainGetOrInit_of_lookup hvalue]
    | none =>
      cases outcome with
      | ok x =>
        rw [plainGetOrInit_ok hvalue]
        exact Finmap.lookup_insert_of_ne m hne
      | error e => rw [plainGetOrInit_error hvalue]
  | get other => rfl
  | forget other =>
    have hne : k ≠ other := by simpa [Call.concerns, eq_comm] using hother
    exact Finmap.lookup_erase_ne hne
  | clear => simp [Call.concerns] at hother

/-- A call about a key depends on the value of the key alone. -/
theorem plain_of_concerns {call : Call κ ν ε} {k : κ} (hown : call.concerns k = true) {m' : Finmap fun _ : κ => ν}
    (hk : m.lookup k = m'.lookup k) :
    (call.plain m).1 = (call.plain m').1 ∧ (call.plain m).2.lookup k = (call.plain m').2.lookup k := by
  cases call with
  | getOrInit other outcome =>
    -- the call looks at one key only, and both tables have the same there
    obtain rfl : other = k := by simpa [Call.concerns] using hown
    rw [Call.plain, Call.plain]
    cases hvalue : m.lookup other with
    | some x =>
      rw [plainGetOrInit_of_lookup hvalue, plainGetOrInit_of_lookup (hk ▸ hvalue)]
      exact ⟨rfl, hk⟩
    | none =>
      cases outcome with
      | ok x =>
        rw [plainGetOrInit_ok hvalue, plainGetOrInit_ok (hk ▸ hvalue)]
        exact ⟨rfl, by rw [Finmap.lookup_insert, Finmap.lookup_insert]⟩
      | error e =>
        rw [plainGetOrInit_error hvalue, plainGetOrInit_error (hk ▸ hvalue)]
        exact ⟨rfl, hk⟩
  | get other =>
    obtain rfl : other = k := by simpa [Call.concerns] using hown
    exact ⟨by rw [Call.plain, Call.plain, hk], hk⟩
  | forget other =>
    obtain rfl : other = k := by simpa [Call.concerns] using hown
    exact ⟨rfl, by rw [Call.plain, Call.plain, Finmap.lookup_erase, Finmap.lookup_erase]⟩
  | clear => exact ⟨rfl, rfl⟩

/-- What is observed of the calls about a key is what would be observed if there were no others. -/
theorem about_plainAnswers (k : κ) (calls : List (Call κ ν ε)) {m' : Finmap fun _ : κ => ν} (hk : m.lookup k = m'.lookup k) :
    about k calls (plainAnswers m calls) =
      (plainAnswers m' (calls.filter fun call => call.concerns k)).map Answer.own := by
  induction calls generalizing m m' with
  | nil => rfl
  | cons call rest ih =>
    cases hcall : call.concerns k with
    | false =>
      -- the value of the key is carried past the call
      have hrest := ih ((lookup_plain_of_not_concerns hcall).trans hk)
      simpa [about, plainAnswers, hcall] using hrest
    | true =>
      obtain ⟨hown, hafter⟩ := plain_of_concerns hcall hk
      have hrest := ih hafter
      simpa [about, plainAnswers, hcall, Answer.own, hown] using hrest

/-- A call with a failing initialiser leaves the map as it is, whether the initialiser runs or not. -/
theorem snd_plainGetOrInit_error (k : κ) (e : ε) : (plainGetOrInit m k (.error e)).2 = m := by
  cases hvalue : m.lookup k with
  | some x => rw [plainGetOrInit_of_lookup hvalue]
  | none => rw [plainGetOrInit_error hvalue]

theorem plainAnswers_eraseIdx (before after : List (Call κ ν ε)) (k : κ) (e : ε) :
    (plainAnswers m (before ++ .getOrInit k (.error e) :: after)).eraseIdx before.length =
      plainAnswers m (before ++ after) := by
  induction before generalizing m with
  | nil =>
    simp only [List.nil_append, List.length_nil, plainAnswers, Call.plain, List.eraseIdx_cons_zero]
    rw [snd_plainGetOrInit_error]
  | cons call rest ih =>
    simp only [List.cons_append, List.length_cons, plainAnswers, List.eraseIdx_cons_succ]
    rw [ih]

/-! ### The table -/

/-- **A table of values is a plain map.** However its calls follow one another, the replies of a new table, the runs of the
initialisers, and the number of values after each call are those of a plain map. What is observed of the calls about a key
is what would be observed without the others, and a call with a failing initialiser can be left out: all the other answers
stay as they are. -/
theorem answers_as_plain_map :
    (∀ calls : List (Call κ ν ε), answers ∅ calls = plainAnswers ∅ calls) ∧
      (∀ (k : κ) (calls : List (Call κ ν ε)),
        about k calls (answers ∅ calls) = (answers ∅ (calls.filter fun call => call.concerns k)).map Answer.own) ∧
      ∀ (before after : List (Call κ ν ε)) (k : κ) (e : ε),
        (answers ∅ (before ++ .getOrInit k (.error e) :: after)).eraseIdx before.length = answers ∅ (before ++ after) := by
  have hplain : ∀ calls : List (Call κ ν ε), answers ∅ calls = plainAnswers ∅ calls := Represents.empty.answers
  refine ⟨hplain, fun k calls => ?_, fun before after k e => ?_⟩
  · rw [hplain, hplain]
    exact about_plainAnswers k calls rfl
  · rw [hplain, hplain]
    exact plainAnswers_eraseIdx before after k e

-- after the failure the slot of the key is empty: the initialiser runs again, and the other key keeps its value
example : (answers ∅ [.getOrInit 1 (.ok 5), .getOrInit 2 (.error "no"), .get 2, .getOrInit 2 (.ok 7), .getOrInit 1 (.ok 0)]).map
    (fun a : Answer Nat String => (a.runs, a.size)) = [(1, 1), (1, 1), (0, 1), (1, 2), (0, 2)] := by decide

end SingleFlight

end Recompile

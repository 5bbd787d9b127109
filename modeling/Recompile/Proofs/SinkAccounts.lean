import Recompile.Proofs.Reporting

/-!
# The accounts of a sink

A sink is drained while diagnostics still come in. Its limit counts the errors of its whole life and not those that are
stored, so what is taken out makes no room for further ones. Put one behind the other, what was taken out and what is stored
are at every moment what was reported, without the errors beyond the limit (`Sink.accounts_of_calls`).
-/

namespace Recompile

open Diagnostic

namespace Sink

/-- **A call of a sink.** -/
inductive Call
  | emit (d : Diagnostic)
  | emitAll (ds : List Diagnostic)
  | takeAll
  /-- Asks for the stored diagnostics and leaves them there. -/
  | diagnostics

namespace Call

/-- The sink after a call. -/
def after : Call → Sink → Sink
  | .emit d, s => s.emit d
  | .emitAll ds, s => (s.emitAll ds).1
  | .takeAll, s => s.takeAll.2
  | .diagnostics, s => s

/-- What a call takes out of a sink. -/
def taken : Call → Sink → List Diagnostic
  | .takeAll, s => s.takeAll.1
  | _, _ => []

/-- What a call reports to a sink. -/
def reported : Call → List Diagnostic
  | .emit d => [d]
  | .emitAll ds => ds
  | .takeAll => []
  | .diagnostics => []

end Call

/-- A sink after some calls. -/
def after (s : Sink) (calls : List Call) : Sink := calls.foldl (fun s call => call.after s) s

/-- What some calls take out of a sink, one call after the other. -/
def taken : Sink → List Call → List Diagnostic
  | _, [] => []
  | s, call :: rest => call.taken s ++ taken (call.after s) rest

/-- What some calls report to a sink. -/
def reported (calls : List Call) : List Diagnostic := calls.flatMap Call.reported

/-- **The accounts of a sink** of which something was taken out, after some diagnostics were reported to it. -/
structure Accounts (limit : Nat) (reported taken : List Diagnostic) (s : Sink) : Prop where
  kept : taken ++ s.stored = capped limit reported
  errors : s.errors = (reported.filter isError).length
  warnings : s.warnings = (reported.filter isWarning).length
  limit : s.maxErrors = limit

variable {limit : Nat} {reports out : List Diagnostic} {s : Sink}

theorem warnings_foldl_emit (s : Sink) (ds : List Diagnostic) :
    (ds.foldl emit s).warnings = s.warnings + (ds.filter isWarning).length := by
  induction ds generalizing s with
  | nil => rfl
  | cons d rest ih =>
    rw [List.foldl_cons, ih (s.emit d), List.filter_cons]
    cases hd : d.isWarning with
    | false => simp [emit, hd]
    | true =>
      simp only [emit, hd, if_true, List.length_cons]
      omega

namespace Accounts

theorem initial (limit : Nat) : Accounts limit [] [] { maxErrors := limit } := ⟨rfl, rfl, rfl, rfl⟩

theorem foldl_emit (h : Accounts limit reports out s) (ds : List Diagnostic) :
    Accounts limit (reports ++ ds) out (ds.foldl Sink.emit s) := by
  obtain ⟨hstored, herrors, hmax⟩ := Sink.foldl_emit s ds
  constructor
  · -- the room that is left is what the errors so far have left, wherever their diagnostics are now
    rw [hstored, ← List.append_assoc, h.kept, h.limit, h.errors, capped_append]
  · rw [herrors, h.errors, List.filter_append, List.length_append]
  · rw [warnings_foldl_emit, h.warnings, List.filter_append, List.length_append]
  · rw [hmax, h.limit]

/-- **One call.** -/
theorem after (h : Accounts limit reports out s) (call : Call) :
    Accounts limit (reports ++ call.reported) (out ++ call.taken s) (call.after s) := by
  cases call with
  | emit d =>
    rw [show out ++ Call.taken (.emit d) s = out from List.append_nil out]
    exact h.foldl_emit [d]
  | emitAll ds =>
    rw [show out ++ Call.taken (.emitAll ds) s = out from List.append_nil out]
    rw [show Call.after (.emitAll ds) s = ds.foldl Sink.emit s from fst_emitAll s ds]
    exact h.foldl_emit ds
  | takeAll =>
    -- what was stored is outside now, and the counts stay
    rw [show reports ++ Call.reported .takeAll = reports from List.append_nil reports]
    refine ⟨?_, h.errors, h.warnings, h.limit⟩
    rw [← h.kept]
    exact List.append_nil (out ++ s.stored)
  | diagnostics =>
    rw [show reports ++ Call.reported .diagnostics = reports from List.append_nil reports]
    rw [show out ++ Call.taken .diagnostics s = out from List.append_nil out]
    exact h

/-- **Any number of calls.** -/
theorem calls (h : Accounts limit reports out s) (calls : List Call) :
    Accounts limit (reports ++ reported calls) (out ++ s.taken calls) (s.after calls) := by
  induction calls generalizing reports out s with
  | nil =>
    rw [show reports ++ reported [] = reports from List.append_nil reports]
    rw [show out ++ s.taken [] = out from List.append_nil out]
    exact h
  | cons call rest ih =>
    have hrest := ih (h.after call)
    rw [List.append_assoc, List.append_assoc] at hrest
    exact hrest

theorem hasErrors_iff (h : Accounts limit reports out s) : s.hasErrors = true ↔ ∃ d ∈ reports, d.isError = true := by
  have hpos : s.hasErrors = true ↔ 0 < s.errors := by simp [hasErrors]
  rw [hpos, h.errors, List.length_pos_iff_exists_mem]
  simp only [List.mem_filter]

end Accounts

/-- **What becomes of what is reported to a sink.** After any calls, what they took out and what is still stored are together
the diagnostics that they reported, in order, without the errors after the first ones, as many as the limit. The counts are
those of all that was reported, and the sink has errors if one was reported. -/
theorem accounts_of_calls (limit : Nat) (calls : List Call) :
    taken { maxErrors := limit } calls ++ (after { maxErrors := limit } calls).stored = capped limit (reported calls) ∧
      (after { maxErrors := limit } calls).errors = ((reported calls).filter isError).length ∧
      (after { maxErrors := limit } calls).warnings = ((reported calls).filter isWarning).length ∧
      ((after { maxErrors := limit } calls).hasErrors = true ↔ ∃ d ∈ reported calls, d.isError = true) := by
  have haccounts := (Accounts.initial limit).calls calls
  rw [List.nil_append, List.nil_append] at haccounts
  exact ⟨haccounts.kept, haccounts.errors, haccounts.warnings, haccounts.hasErrors_iff⟩

-- taking an error out makes no room for a second one
example : (after { maxErrors := 1 } [.emit ⟨.error, "no", .unknown⟩, .takeAll, .emit ⟨.error, "not either", .unknown⟩]).stored =
    [] := rfl

end Sink

end Recompile

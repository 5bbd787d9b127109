import Recompile.Proofs.Asking
import Recompile.Proofs.Trace
import Recompile.Proofs.Untouched

/-!
# Answers from different times

The engine opens the classpath once. The analyses that it reads then are good for the whole compile, but a class file is
looked at when its class is asked for, and the answer is remembered until the compile is over. Meanwhile the machine goes
on changing. So what a classpath remembers are answers from different times, all of them given by the same entries.

`Classpath.AnsweredFrom` says so for the machines that have some property in common. It holds of the classpath of a compile
at every time if the compile spares the property, since a compile does nothing to its classpath but ask it
(`Engine.Spares.outset_answered`, `Engine.Spares.compile_answered`). A class to which the entries give one fingerprint on
all of these machines has that fingerprint whenever it was asked for (`Classpath.AnsweredFrom.eq_of_known`).
-/

namespace Recompile

open Recompile.Action

namespace Classpath

/-- **The fingerprint that a classpath gives a class** on one machine if it was opened on another one. -/
def answerOn (l : Lookup) (paths : List Path) (opening asked : Host) (name : String) : Option Digest :=
  match ((ofPaths l paths : Action Host EngineError _).run.run opening).run.1 with
  | .ok (c, _) => search? asked name c.entries
  | .error _ => none

variable {I : Host → Prop} {l l' : Lookup} {paths : List Path} {opening h : Host} {c c' : Classpath}

theorem answerOn_eq (hopen : Reads (ofPaths l paths : Action Host EngineError _) opening (.ok (c, l'))) (asked : Host)
    (name : String) : answerOn l paths opening asked name = search? asked name c.entries := by
  obtain ⟨log, hrun⟩ := hopen opening.log
  simp [answerOn, hrun]

/-- **A classpath that has been opened and asked on machines with a property.** Its entries are those of one of them, and
whatever it remembers is what they answer on one of them. -/
structure AnsweredFrom (I : Host → Prop) (l : Lookup) (paths : List Path) (c : Classpath) : Prop where
  opened : ∃ h, I h ∧ ∀ asked name, search? asked name c.entries = answerOn l paths h asked name
  answers : ∀ name found, c.resolved.get? name = some found → ∃ h, I h ∧ found = search? h name c.entries

namespace AnsweredFrom

theorem of_opened (hI : I opening) (hopen : Reads (ofPaths l paths : Action Host EngineError _) opening (.ok (c, l')))
    (hc : c.resolved = ∅) : c.AnsweredFrom I l paths where
  opened := ⟨opening, hI, fun asked name => (answerOn_eq hopen asked name).symm⟩
  answers name found hfound := by
    rw [hc] at hfound
    simp at hfound

theorem fingerprint (hc : c.AnsweredFrom I l paths) (hI : I h) (name : String) :
    (c.fingerprint h name).2.AnsweredFrom I l paths where
  opened := by
    rw [entries_fingerprint]
    exact hc.opened
  answers other found hfound := by
    rw [entries_fingerprint]
    unfold Classpath.fingerprint at hfound
    split at hfound
    · exact hc.answers other found hfound
    · -- the class was not asked for before, and is now
      rw [SortedMap.get?_insert] at hfound
      split at hfound
      next hsame =>
        obtain rfl : other = name := Std.LawfulEqCmp.eq_of_compare hsame
        exact ⟨h, hI, (Option.some.inj hfound).symm⟩
      next => exact hc.answers other found hfound

theorem asked (hc : c.AnsweredFrom I l paths) (hI : I h) (asks : Asks h c c') : c'.AnsweredFrom I l paths := by
  induction asks with
  | refl => exact hc
  | ask name _ ih => exact ih (hc.fingerprint hI name)

/-- **A class with one fingerprint has it at every time.** -/
theorem eq_of_known (hc : c.AnsweredFrom I l paths) {name : String} {answer found : Option Digest}
    (hanswer : ∀ opening asked, I opening → I asked → answerOn l paths opening asked name = answer)
    (hfound : c.resolved.get? name = some found) : found = answer := by
  obtain ⟨opening, hopening, hentries⟩ := hc.opened
  obtain ⟨asked, hasked, rfl⟩ := hc.answers name found hfound
  rw [hentries]
  exact hanswer opening asked hopening hasked

end AnsweredFrom

theorem lasting_answeredFrom (I : Host → Prop) (l : Lookup) (paths : List Path) : Lasting I (AnsweredFrom I l paths) :=
  fun _ _ _ hI asks hc => hc.asked hI asks

/-- A newly opened classpath has not been asked. -/
theorem keeps_ofPaths_answered (hlogs : ∀ h log, I h → I { h with log }) (l : Lookup) (paths : List Path) :
    (ofPaths l paths : Action Host EngineError _).Keeps I fun r => r.1.AnsweredFrom I l paths := by
  intro h hI
  obtain ⟨⟨c, l'⟩, hopen⟩ := exists_reads_ofPaths (ε := EngineError) l paths h
  obtain ⟨log, hrun⟩ := hopen.yields
  rw [show ((ofPaths l paths : Action Host EngineError _).run.run h).run = _ from hrun]
  refine ⟨hlogs h log hI, fun r hr => ?_⟩
  obtain rfl := Except.ok.inj hr
  exact .of_opened hI hopen (Engine.yields_ofPaths hrun)

end Classpath

/-! ### The classpath of a compile -/

namespace Engine

open Classpath

variable {σ : Type} {compiler : SourceCompiler σ} {inputs : EngineInputs} {F : Path → Prop} {I : Host → Prop}
  {l : Lookup} {paths : List Path} {c : Classpath} {a : Analysis}

namespace Spares

/-- **Before the first round** the classpath remembers answers of its entries, if any. -/
theorem outset_answered (spares : Spares compiler inputs.compilers inputs.options.output F I)
    (hprevious : ∀ previous, inputs.previous = some previous → previous.analysis.FilesIn F) :
    (Engine.outset inputs : Action (EngineState σ) EngineError Outset).Keeps (fun s => I s.session.host) fun o =>
      o.analysis.FilesIn F ∧
        o.classpath.AnsweredFrom I inputs.lookup (externalClasspath inputs.options.classpath inputs.options.output) :=
  spares.outset hprevious (lasting_answeredFrom I _ _) (keeps_ofPaths_answered spares.logs _ _)

/-- **After a successful compile** the classpath remembers answers of its entries on machines that the compile passed. -/
theorem compile_answered (spares : Spares compiler inputs.compilers inputs.options.output F I)
    (hprevious : ∀ previous, inputs.previous = some previous → previous.analysis.FilesIn F) :
    (Engine.compile compiler inputs).Keeps (fun s => I s.session.host) fun out =>
      out.classpath.AnsweredFrom I inputs.lookup (externalClasspath inputs.options.classpath inputs.options.output) :=
  spares.compile hprevious (lasting_answeredFrom I _ _) (keeps_ofPaths_answered spares.logs _ _)

end Spares

/-! ### A class with one fingerprint -/

section OneAnswer

variable {s s' : EngineState σ} {name : String} {answer : Option Digest}

/-- **A class with one fingerprint is recorded with it,** wherever a compiled source refers to it and no source of the
module owns it. -/
theorem exists_record_of_answer (spares : Spares compiler inputs.compilers inputs.options.output F I)
    (hprevious : ∀ previous, inputs.previous = some previous → previous.analysis.FilesIn F) (hI : I s.session.host)
    (hanswer : ∀ opening asked, I opening → I asked →
      answerOn inputs.lookup (externalClasspath inputs.options.classpath inputs.options.output) opening asked name = answer)
    {out : EngineOutput} (hrun : (compile compiler inputs).Yields s out s') {round : Round} (hround : round ∈ out.rounds)
    {p : Path} (hp : out.digests.contains p = true) (hrefers : (unitFor round.units p).references.contains name = true)
    (hunowned : (classOwners (without round.sources round.before) round.units).get? name = none) :
    ∃ info, round.after.source? p = some info ∧ info.binaryDeps.get? name = answer := by
  have hknown := (spares.compile_answered hprevious).value hI hrun
  obtain ⟨_, _, _, _, trace, -⟩ := exists_trace hrun
  obtain ⟨before, after, hrounds⟩ := List.append_of_mem hround
  have hall := trace.rounds
  rw [hrounds] at hall
  obtain ⟨_, a₁, _, c₂, -, -, follows, rest⟩ := hall.split
  obtain ⟨digest, hdigest⟩ := SortedMap.contains_iff.1 hp
  -- the source has a unit, since no other refers to anything
  have hunit : ∃ u ∈ round.units, (u.source == p) = true := by
    by_contra hnone
    push Not at hnone
    have hfind : round.units.reverse.find? (fun u => u.source == p) = none :=
      List.find?_eq_none.2 fun u hu => by simpa using hnone u (List.mem_reverse.1 hu)
    simp [unitFor, hfind] at hrefers
  obtain ⟨info, hinfo, recorded⟩ := follows.exists_source?_of_recorded hdigest (Or.inr hunit)
  rw [follows.before] at hunowned
  obtain ⟨found, hfound, hbinary⟩ := (recorded.grow rest.grows).looked name hrefers hunowned
  refine ⟨info, hinfo, hbinary.trans ?_⟩
  exact hknown.eq_of_known hanswer hfound

/-- **A recorded fingerprint makes its source due if and only if it is no longer the one that the class has.** -/
theorem among_due_iff (spares : Spares compiler inputs.compilers inputs.options.output F I)
    (hprevious : ∀ previous, inputs.previous = some previous → previous.analysis.FilesIn F) (hI : I s.session.host)
    (hanswer : ∀ opening asked, I opening → I asked →
      answerOn inputs.lookup (externalClasspath inputs.options.classpath inputs.options.output) opening asked name = answer)
    {o : Outset} (hrun : (outset inputs).Yields s o s') {p : Path} (hp : o.digests.contains p = true) {info : SourceInfo}
    (hinfo : inputs.baseline.source? p = some info) {recorded : Digest} (hrecorded : info.binaryDeps.get? name = some recorded) :
    p.Among o.due ↔ ((inputs.changes o.digests).invalidated o.digests inputs.baseline).contains p = true ∨
      (∃ other d found, other ≠ name ∧ info.binaryDeps.get? other = some d ∧
        o.classpath.resolved.get? other = some found ∧ found ≠ some d) ∨
      answer ≠ some recorded := by
  have hknown := ((spares.outset_answered hprevious).value hI hrun).2
  obtain ⟨_, _, _, _, _, _, -, -, -, hfirst, -, -⟩ := of_yields_outset hrun
  obtain ⟨invalid, hdue, stale⟩ := yields_firstSources hfirst
  rw [hdue, Path.among_toList]
  -- the entry of the source among the records
  obtain ⟨q, hq, hpq⟩ := SortedMap.get?_eq_some_iff.1 hinfo
  have hfresh := stale.fresh (q, info) hq (by rwa [← SortedMap.contains_congr o.digests hpq])
  rw [← SortedMap.contains_congr invalid hpq] at hfresh
  constructor
  · intro hinvalid
    refine (stale.reason p hinvalid).imp_right ?_
    rintro ⟨-, e, he, hep, other, d, found, hd, hfound, hne⟩
    have hsame : inputs.baseline.source? p = some e.2 :=
      (Analysis.source?_congr _ (BEq.symm hep)).trans (SortedMap.get?_of_mem he)
    obtain rfl := Option.some.inj (hinfo.symm.trans hsame)
    by_cases hname : other = name
    · subst hname
      rw [hknown.eq_of_known hanswer hfound, Option.some.inj (hd.symm.trans hrecorded)] at hne
      exact Or.inr hne
    · exact Or.inl ⟨other, d, found, hname, hd, hfound, hne⟩
  · rintro (hinvalidated | ⟨other, d, found, -, hd, hfound, hne⟩ | hne)
    · exact stale.keeps p hinvalidated
    · refine hfresh.resolve_right fun hsame => hne ?_
      exact Option.some.inj (hfound.symm.trans (hsame other d hd))
    · refine hfresh.resolve_right fun hsame => hne ?_
      exact (hknown.eq_of_known hanswer (hsame name recorded hrecorded)).symm

end OneAnswer

end Engine

end Recompile

import Recompile.Proofs.Answers
import Recompile.Proofs.Bystanders

/-!
# Why a source is compiled

A compile under the setup of the one before compiles a source only if there is a reason, and the reasons can be read off the
analyses. `EngineInputs.Outdated` are those of the first round: the source is not recorded, or its content, a source that it
refers to or a class of another module has changed. They are exact, since the search for changed classes asks one classpath
on one machine, so that what the classpath remembers is what it answers (`Engine.outset_remembers`).

Later rounds have one reason: a source refers to one that was compiled in the round before and of which a listed class has
another API now, or is gone (`Round.Changes`). In the round after the limit it may take several steps to get there, and those
the search for transitive dependents takes (`Analysis.transGen_of_transitiveDependents`). So there is one round if the first
one changes nothing (`Engine.compile_justified`).
-/

namespace Recompile

open Recompile.Action

/-! ### The first round -/

/-- **Whether a source has to be compiled first,** on a machine where the sources have some digests: it is not recorded, or
it is and its digest is another one, or it refers to a recorded source that is gone, or the classpath does not give a class
of another module the fingerprint that is recorded. -/
def EngineInputs.Outdated (inputs : EngineInputs) (a : Analysis) (digests : SortedMap Path Digest) (h : Host) (p : Path) :
    Prop :=
  a.source? p = none ∨ ∃ info, a.source? p = some info ∧
    (digests.get? p ≠ some info.digest ∨
      (∃ gone, a.source? gone ≠ none ∧ digests.get? gone = none ∧ info.sourceDeps.contains gone = true) ∨
      ∃ name d, info.binaryDeps.get? name = some d ∧
        Classpath.answer inputs.lookup (externalClasspath inputs.options.classpath inputs.options.output) h name ≠ some d)

/-- A source of the module that is not to be compiled anyway is recorded with its digest and refers to none that is gone. -/
theorem Changes.contains_invalidated_detect {digests : SortedMap Path Digest} {a : Analysis} {p : Path} :
    ((Changes.detect digests a).invalidated digests a).contains p = true ↔ digests.contains p = true ∧
      (a.source? p = none ∨ ∃ info, a.source? p = some info ∧
        (digests.get? p ≠ some info.digest ∨
          ∃ gone, a.source? gone ≠ none ∧ digests.get? gone = none ∧ info.sourceDeps.contains gone = true)) := by
  rw [contains_invalidated, among_added, among_modified]
  constructor
  · rintro (⟨hthere, hnone⟩ | ⟨d, info, hd, hinfo, hne⟩ | ⟨hthere, gone, hgone, hp⟩)
    · exact ⟨hthere, Or.inl hnone⟩
    · refine ⟨SortedMap.contains_iff.2 ⟨d, hd⟩, Or.inr ⟨info, hinfo, Or.inl fun hsame => hne ?_⟩⟩
      exact (Option.some.inj (hd.symm.trans hsame)).symm
    · obtain ⟨info, hinfo, hedge⟩ := Analysis.among_dependentsOf.1 hp
      obtain ⟨⟨old, hold⟩, hnone⟩ := among_deleted.1 (Path.among_of_mem hgone)
      exact ⟨hthere, Or.inr ⟨info, hinfo, Or.inr ⟨gone, by simp [hold], hnone, hedge⟩⟩⟩
  · rintro ⟨hthere, hnone | ⟨info, hinfo, hdigest | ⟨gone, hrecorded, hnone, hedge⟩⟩⟩
    · exact Or.inl ⟨hthere, hnone⟩
    · obtain ⟨d, hd⟩ := SortedMap.contains_iff.1 hthere
      exact Or.inr (Or.inl ⟨d, info, hd, hinfo, fun hsame => hdigest (by rw [hd, hsame])⟩)
    · obtain ⟨q, hq, hqgone⟩ := among_deleted.2 ⟨Option.ne_none_iff_exists'.1 hrecorded, hnone⟩
      refine Or.inr (Or.inr ⟨hthere, q, hq, Analysis.among_dependentsOf.2 ⟨info, hinfo, ?_⟩⟩)
      rwa [info.contains_congr hqgone]

namespace Engine

variable {σ : Type} {compiler : SourceCompiler σ} {inputs : EngineInputs} {s s' : EngineState σ} {out : EngineOutput}
  {previous : Contents}

/-- **What the classpath remembers before the first round is what it answers on the machine,** if the compile starts from
the analysis of the one before: nothing but the log has changed. -/
theorem outset_remembers (hprevious : inputs.previous = some previous)
    (hsetup : previous.setup.isCompatible inputs.setup = true) {o : Outset} (hrun : (outset inputs).Yields s o s')
    {name : String} {found : Option Digest} (hfound : o.classpath.resolved.get? name = some found) :
    found = Classpath.answer inputs.lookup (externalClasspath inputs.options.classpath inputs.options.output)
      s.session.host name := by
  obtain ⟨opened, l, h₁, h₂, h₃, h₄, -, hstart, hopen, hfirst, -, -⟩ := of_yields_outset hrun
  have hstarted : h₁ = s.session.host := by
    unfold startingAnalysis at hstart
    rw [hprevious] at hstart
    simp only [hsetup, if_true] at hstart
    exact (yields_pure.1 hstart).2
  rw [← hstarted]
  -- the machines are the same up to the log
  have hlogs : ∀ h log, (∃ log, h = { h₁ with log }) → ∃ log', { h with log } = { h₁ with log := log' } := by
    rintro _ log ⟨_, rfl⟩
    exact ⟨log, rfl⟩
  have hbefore : ∃ log, h₁ = { h₁ with log } := ⟨h₁.log, rfl⟩
  have hopened := (Classpath.keeps_ofPaths_answered hlogs _ _).value hbefore hopen
  have hafter := (Classpath.keeps_ofPaths_answered hlogs _ _).state hbefore hopen
  have hlooked := (keeps_firstSources hlogs (Classpath.lasting_answeredFrom _ _ _) _ _ _ hopened).value hafter hfirst
  refine hlooked.eq_of_known ?_ hfound
  rintro _ _ ⟨log, rfl⟩ ⟨log', rfl⟩
  obtain ⟨⟨c, l'⟩, hreads⟩ := Classpath.exists_reads_ofPaths (ε := EngineError) inputs.lookup
    (externalClasspath inputs.options.classpath inputs.options.output) h₁
  have hopen : Reads (Classpath.ofPaths inputs.lookup
      (externalClasspath inputs.options.classpath inputs.options.output) : Action Host EngineError _) { h₁ with log }
      (.ok (c, l')) := hreads
  rw [Classpath.answer_eq hreads, Classpath.answerOn_eq hopen]
  rfl

/-- **The sources that are due first are those that are outdated.** -/
theorem among_due_iff_outdated (hprevious : inputs.previous = some previous)
    (hsetup : previous.setup.isCompatible inputs.setup = true) {o : Outset} (hrun : (outset inputs).Yields s o s') {p : Path} :
    p.Among o.due ↔ p.Among inputs.options.sources ∧ inputs.Outdated previous.analysis o.digests s.session.host p := by
  have hremembers : ∀ name found, o.classpath.resolved.get? name = some found → found = Classpath.answer inputs.lookup
      (externalClasspath inputs.options.classpath inputs.options.output) s.session.host name :=
    fun _ _ hfound => outset_remembers hprevious hsetup hrun hfound
  have hbaseline := EngineInputs.baseline_of_isCompatible hprevious hsetup
  -- what the changes make due is decided before the class path is asked, the rest by its answers
  obtain ⟨_, _, _, _, _, _, hdigests, -, -, hfirst, -, -⟩ := of_yields_outset hrun
  obtain ⟨invalid, hdue, stale⟩ := yields_firstSources hfirst
  have hanyway := @Changes.contains_invalidated_detect o.digests inputs.baseline p
  rw [hbaseline] at stale hanyway
  rw [hdue, Path.among_toList, ← contains_sourceDigests hdigests]
  constructor
  · intro hinvalid
    rcases stale.reason p hinvalid with hearly | ⟨hthere, e, he, hep, name, d, found, hd, hfound, hne⟩
    · rw [EngineInputs.changes, hbaseline] at hearly
      obtain ⟨hthere, hwhy⟩ := hanyway.1 hearly
      refine ⟨hthere, hwhy.imp_right ?_⟩
      rintro ⟨info, hinfo, hwhy⟩
      exact ⟨info, hinfo, hwhy.imp_right Or.inl⟩
    · -- the classpath remembers another fingerprint
      have hinfo : previous.analysis.source? p = some e.2 :=
        (Analysis.source?_congr _ (BEq.symm hep)).trans (SortedMap.get?_of_mem he)
      refine ⟨hthere, Or.inr ⟨e.2, hinfo, Or.inr (Or.inr ⟨name, d, hd, ?_⟩)⟩⟩
      rwa [← hremembers name found hfound]
  · rintro ⟨hthere, hwhy⟩
    -- what the changes make due stays due
    have hearly : ∀ hwhy', invalid.contains p = true := fun hwhy' =>
      stale.keeps p (by rw [EngineInputs.changes, hbaseline]; exact hanyway.2 ⟨hthere, hwhy'⟩)
    rcases hwhy with hnone | ⟨info, hinfo, hdigest | hgone | ⟨name, d, hd, hne⟩⟩
    · exact hearly (Or.inl hnone)
    · exact hearly (Or.inr ⟨info, hinfo, Or.inl hdigest⟩)
    · exact hearly (Or.inr ⟨info, hinfo, Or.inr hgone⟩)
    · -- a source that is left out has the fingerprints that the classpath remembers
      obtain ⟨q, hq, hpq⟩ := SortedMap.get?_eq_some_iff.1 hinfo
      rw [SortedMap.contains_congr invalid hpq]
      refine (stale.fresh (q, info) hq (by rwa [← SortedMap.contains_congr o.digests hpq])).resolve_right fun hfresh => hne ?_
      exact (hremembers name _ (hfresh name d hd)).symm

end Engine

/-! ### Later rounds -/

/-- **Whether a round changes a source:** it compiles the source, and a class that the source listed before with an API has
another one now, or is gone. -/
def Round.Changes (r : Round) (q : Path) : Prop :=
  r.Compiles q ∧ ∃ info name api, r.before.source? q = some info ∧ info.classes.contains name = true ∧
    r.before.api? name = some api ∧ r.after.api? name ≠ some api

namespace Round.Follows

variable {digests : SortedMap Path Digest} {due : List Path} {a : Analysis} {c c' : Classpath} {r : Round} {p : Path}

/-- The sources that a round notes as changed are changed. -/
theorem changes_of_among (h : r.Follows digests due a c c') (hp : p.Among r.changed) : r.Changes p := by
  rw [h.changed, Engine.among_changedSources] at hp
  obtain ⟨name, q, api, hnote, hqp, hapi⟩ := hp
  have hnew : (∅ : Engine.ApiTable).get? name ≠ some (q, api) := by simp
  obtain ⟨hbefore, info, hinfo, hlists⟩ := (Engine.of_get?_notes hnote).resolve_left hnew
  refine ⟨?_, info, name, api, ?_, hlists, by rwa [h.before], hapi⟩
  · rw [Round.Compiles, h.sources]
    exact ⟨q, (Engine.mem_of_get?_notes hnote).resolve_left hnew, hqp⟩
  · rw [h.before, ← a.source?_congr hqp]
    exact hinfo

/-- As long as a round is left behind the next one, a source of the next round refers to a changed one. -/
theorem exists_changes_of_next (h : r.Follows digests due a c c') {left : Nat} (hp : p.Among (r.next (left + 2))) :
    ∃ q, r.after.RefersTo p q ∧ r.Changes q := by
  simp only [Round.next] at hp
  split at hp
  · exact absurd hp (Path.not_among_nil p)
  · rw [if_neg (Nat.succ_ne_zero left)] at hp
    obtain ⟨info, hinfo, hrefers⟩ := Analysis.among_dependentsOfAny.1 hp
    obtain ⟨q, hq, hedge⟩ := SourceInfo.refersTo_iff.1 hrefers
    exact ⟨q, ⟨info, hinfo, hedge⟩, h.changes_of_among (Path.among_of_mem hq)⟩

/-- A source of the last round leads to a changed one. -/
theorem exists_changes_of_next_one (h : r.Follows digests due a c c') (hp : p.Among (r.next 1)) :
    ∃ q, Relation.TransGen r.after.RefersTo p q ∧ r.Changes q := by
  simp only [Round.next] at hp
  split at hp
  · exact absurd hp (Path.not_among_nil p)
  · obtain ⟨q, hq, hsteps⟩ := Analysis.transGen_of_transitiveDependents hp
    exact ⟨q, hsteps, h.changes_of_among (Path.among_of_mem hq)⟩

/-- A round that changes nothing asks for no other one. -/
theorem next_eq_nil (h : r.Follows digests due a c c') (hnone : ∀ q, ¬ r.Changes q) (left : Nat) : r.next left = [] := by
  have hchanged : r.changed = [] :=
    List.eq_nil_iff_forall_not_mem.2 fun q hq => hnone q (h.changes_of_among (Path.among_of_mem hq))
  cases left with
  | zero => rfl
  | succ left => simp [Round.next, hchanged]

end Round.Follows

theorem Rounds.compiles_head_iff {digests : SortedMap Path Digest} {left : Nat} {due : List Path} {a a' : Analysis}
    {c c' : Classpath} {rs : List Round} (h : Rounds digests (left + 1) due a c rs a' c') {p : Path} :
    (∃ r ∈ rs.head?, r.Compiles p) ↔ p.Among due := by
  cases h with
  | done h =>
    obtain rfl := h.resolve_left (Nat.succ_ne_zero left)
    simp
  | round _ first _ => simp [Round.Compiles, first.sources]

/-- A round and the one after it: the second one has the sources that the first one asks for, and starts from its
analysis. -/
theorem Rounds.consecutive {digests : SortedMap Path Digest} {limit : Nat} {due : List Path} {a a' : Analysis}
    {c c' : Classpath} {pre post : List Round} {r next : Round}
    (h : Rounds digests limit due a c (pre ++ r :: next :: post) a' c') :
    ∃ left a₁ c₁ c₂, limit = pre.length + left + 2 ∧ r.Follows digests r.sources a₁ c₁ c₂ ∧
      next.sources = r.next (left + 1) ∧ next.before = r.after := by
  obtain ⟨left, a₁, c₁, c₂, hlimit, -, follows, rest⟩ := h.split
  cases rest with
  | round _ second _ => exact ⟨_, a₁, c₁, c₂, by omega, follows, second.sources, second.before⟩

/-! ### A compile -/

/-- **Whether a compile has a reason for all that it compiles,** when it starts from some analysis on some machine. -/
structure Engine.Justified (inputs : EngineInputs) (a : Analysis) (h : Host) (out : EngineOutput) : Prop where
  digests : sourceDigests h inputs.options.sources = .ok out.digests
  length_le : out.rounds.length ≤ roundLimit + 1
  /-- Exactly the outdated sources are compiled first. -/
  first : ∀ p, (∃ r ∈ out.rounds.head?, r.Compiles p) ↔
    p.Among inputs.options.sources ∧ inputs.Outdated a out.digests h p
  /-- A round starts from the analysis that the round before it leaves. -/
  before : ∀ pre r next post, out.rounds = pre ++ r :: next :: post → next.before = r.after
  /-- A source of a later round up to the limit refers to one that the round before it changes. -/
  later : ∀ pre r next post, out.rounds = pre ++ r :: next :: post → pre.length + 2 ≤ roundLimit →
    ∀ p, next.Compiles p → ∃ q, r.after.RefersTo p q ∧ r.Changes q
  /-- A source of the round after the limit leads to one that the last round before it changes. -/
  last : ∀ pre r next post, out.rounds = pre ++ r :: next :: post → pre.length + 1 = roundLimit →
    ∀ p, next.Compiles p → ∃ q, Relation.TransGen r.after.RefersTo p q ∧ r.Changes q
  /-- If the first round changes nothing it is the only one, and nothing else is compiled. -/
  only : ∀ r rest, out.rounds = r :: rest → (∀ q, ¬ r.Changes q) →
    rest = [] ∧ ∀ p, p.Among out.recompiled ↔ r.Compiles p

namespace Engine

variable {σ : Type} {compiler : SourceCompiler σ} {inputs : EngineInputs} {s s' : EngineState σ} {out : EngineOutput}
  {previous : Contents}

/-- **Every recompile is justified.** A successful compile under the setup of the one before asks the compiler for the
sources of its rounds, batch by batch, and has a reason for each of them, whatever the compiler answers. -/
theorem compile_justified (hprevious : inputs.previous = some previous)
    (hsetup : previous.setup.isCompatible inputs.setup = true) (hrun : (compile compiler inputs).Yields s out s') :
    (calls compiler inputs s).map CompilerCall.request = out.rounds.flatMap (fun r => r.requests inputs.options) ∧
      Justified inputs previous.analysis s.session.host out := by
  refine ⟨(answered_of_yields hrun).requests, ?_⟩
  obtain ⟨o, s₁, houtset, hrun, hdigests, -, hrecompiled⟩ := of_yields_compile hrun
  obtain ⟨a, _, sources, rounds, digests, c⟩ := out
  obtain rfl : digests = o.digests := hdigests
  obtain rfl : sources = recompiled rounds := hrecompiled
  have hrounds := yields_compileRounds hrun
  -- the round before leaves so many, and asks for the sources of the next one
  have hpair : ∀ pre r next post, rounds = pre ++ r :: next :: post → ∃ left a₁ c₁ c₂, roundLimit = pre.length + left + 1 ∧
      r.Follows o.digests r.sources a₁ c₁ c₂ ∧ next.sources = r.next (left + 1) ∧ next.before = r.after := by
    rintro pre r next post rfl
    obtain ⟨left, a₁, c₁, c₂, hlimit, hrest⟩ := hrounds.consecutive
    exact ⟨left, a₁, c₁, c₂, by omega, hrest⟩
  refine ⟨?_, hrounds.length_le, fun p => ?_, ?_, ?_, ?_, ?_⟩
  · obtain ⟨_, _, _, _, _, _, hdigests, -⟩ := of_yields_outset houtset
    exact hdigests
  · exact hrounds.compiles_head_iff.trans (among_due_iff_outdated hprevious hsetup houtset)
  · intro pre r next post hsplit
    obtain ⟨_, _, _, _, -, -, -, hbefore⟩ := hpair pre r next post hsplit
    exact hbefore
  · intro pre r next post hsplit hlength p hp
    obtain ⟨left, _, _, _, hlimit, follows, hsources, -⟩ := hpair pre r next post hsplit
    rw [Round.Compiles, hsources] at hp
    obtain ⟨left, rfl⟩ : ∃ m, left = m + 1 := ⟨left - 1, by omega⟩
    exact follows.exists_changes_of_next hp
  · intro pre r next post hsplit hlength p hp
    obtain ⟨left, _, _, _, hlimit, follows, hsources, -⟩ := hpair pre r next post hsplit
    rw [Round.Compiles, hsources] at hp
    obtain rfl : left = 0 := by omega
    exact follows.exists_changes_of_next_one hp
  · intro r rest hsplit hnone
    change rounds = r :: rest at hsplit
    subst hsplit
    cases rest with
    | nil =>
      refine ⟨rfl, fun p => among_recompiled.trans ?_⟩
      simp [Round.Compiles]
    | cons next post =>
      -- a second round would have sources, and the first one asks for none
      obtain ⟨left, _, _, _, -, -, follows, rest⟩ := Rounds.split (show Rounds o.digests (roundLimit + 1) o.due o.analysis o.classpath
        ([] ++ r :: next :: post) a c from hrounds)
      rw [follows.next_eq_nil hnone] at rest
      cases rest with
      | round hdue _ _ => exact absurd rfl hdue

/-- After an edit of `A` that changes its class, `A` is compiled because of the edit and `B` because of the change. -/
theorem compile_justified_of_edit :
    ∃ previous out s', Edited.inputs.previous = some previous ∧
      (compile Edited.compiler Edited.inputs).Yields Edited.state out s' ∧
      out.rounds.map (fun r => r.sources.map Path.spelling) = [["A"], ["B"]] ∧
      (calls Edited.compiler Edited.inputs Edited.state).map CompilerCall.request =
        out.rounds.flatMap (fun r => r.requests Edited.inputs.options) ∧
      Justified Edited.inputs previous.analysis Edited.state.session.host out := by
  obtain ⟨out, s', hrun, hrounds, -⟩ := Edited.exists_yields_compile
  exact ⟨_, out, s', rfl, hrun, hrounds, compile_justified rfl (by decide +kernel) hrun⟩

end Engine

end Recompile

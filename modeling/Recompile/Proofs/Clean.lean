import Recompile.Proofs.Translation

/-!
# When an incremental compile equals a clean one

A clean compile starts from nothing, an incremental one from the analysis of the project as it was. For a compiler that
translates source by source the clean one describes the project (`Translation.Describes`), and this module says exactly
when the incremental one does.

An incremental compile leaves alone the sources that are as they were, depend on nothing that is gone, and depend on no
source of which a class changed its API (`Translation.Kept`). Their records are those of the old project. The new project
may ask for other ones all the same: a class may have moved to another source with its API unchanged, or a class that was
looked for in vain, or on the classpath, may be defined now. If neither happens the change is *traced*
(`Translation.Traced`), and

* `Engine.describes_iff_traced`: an incremental compile that starts from a right analysis ends with a right one exactly if
  the change is traced;
* `Engine.incremental_eq_clean_iff`: in a history of compiles every incremental one equals the clean one exactly if all
  changes in it are traced.

All else is right after every incremental compile: the table of classes, the records of the sources that were compiled,
and the absence of those that are gone. It takes two rounds at most, since the API of a class does not depend on other
sources.
-/

namespace Recompile

namespace Translation

open Engine

variable (T : Translation) (F : String → Option Digest) (P P' : Project)

/-- A source all of whose classes have the same API after a change, wherever they are defined. -/
def Intact (q : Path) : Prop :=
  ∀ name c, T.Defines P name q c → ∃ p d, T.Defines P' name p d ∧ d.api = c.api

/-- **A source that an incremental compile leaves alone:** it is as it was, and what it depended on is there and intact. -/
def Kept (p : Path) : Prop :=
  (∃ b, P.get? p = some b ∧ P'.get? p = some b) ∧
    ∀ q, T.Depends P p q → (∃ b, P'.get? q = some b) ∧ T.Intact P P' q

/-- **A change that the recorded edges account for.** A source that is left alone depends on the same sources after the
change, and refers to the same classes of other modules. -/
def Traced : Prop :=
  ∀ p, T.Kept P P' p →
    (∀ q, T.Depends P p q ↔ T.Depends P' p q) ∧ ∀ name d, T.External F P p name d ↔ T.External F P' p name d

/-- Whether the digests of a project tell the versions of a source apart. -/
def ToldApart : Prop :=
  ∀ p b b', P.get? p = some b → P'.get? p = some b' → Digest.ofBytes b = Digest.ofBytes b' → b = b'

/-- A source that has to be compiled whatever happens to the others: it is new or modified, or depends on one that is
gone. -/
def Due (p : Path) : Prop :=
  (∃ b, P'.get? p = some b) ∧
    (P.get? p ≠ P'.get? p ∨ ∃ q, T.Depends P p q ∧ P'.get? q = none)

variable {T F P P'}

/-! ### The first round -/

/-- A source that is there and not due is as it was, and what it depended on is there. -/
theorem of_not_due {p : Path} {b : Bytes} (hb : P'.get? p = some b) (h : ¬ T.Due P P' p) :
    P.get? p = some b ∧ ∀ q, T.Depends P p q → ∃ b', P'.get? q = some b' := by
  have hsame : P.get? p = P'.get? p := by
    by_contra hne
    exact h ⟨⟨b, hb⟩, Or.inl hne⟩
  refine ⟨hsame.trans hb, fun q hdep => ?_⟩
  cases hq : P'.get? q with
  | some b' => exact ⟨b', rfl⟩
  | none => exact absurd ⟨⟨b, hb⟩, Or.inr ⟨q, hdep, hq⟩⟩ h

/-- A class that is defined by a source that is not due is defined as it was. -/
theorem defines_of_not_due {p : Path} (h : ¬ T.Due P P' p) {name : String} {c : CompiledClass}
    (hdef : T.Defines P' name p c) : T.Defines P name p c := by
  obtain ⟨b, hb, hc⟩ := hdef
  exact ⟨b, (of_not_due hb h).1, hc⟩

theorem defines_of_not_due' {p : Path} (h : ¬ T.Due P P' p) (hp : ∃ b, P'.get? p = some b) {name : String}
    {c : CompiledClass} (hdef : T.Defines P name p c) : T.Defines P' name p c := by
  obtain ⟨b', hb'⟩ := hp
  obtain ⟨b, hb, hc⟩ := hdef
  have hsame := (of_not_due hb' h).1
  rw [hb] at hsame
  exact ⟨b, hb'.trans hsame.symm, hc⟩

theorem contains_iff_of_digests {digests : SortedMap Path Digest}
    (hdigests : ∀ p, digests.get? p = (P'.get? p).map Digest.ofBytes) (p : Path) :
    digests.contains p = true ↔ ∃ b, P'.get? p = some b := by
  rw [SortedMap.contains_iff, hdigests]
  simp

section FirstRound

variable {digests : SortedMap Path Digest} {a : Analysis} (ha : T.Describes F P a)
  (hdigests : ∀ p, digests.get? p = (P'.get? p).map Digest.ofBytes)

include ha hdigests

theorem due_of_invalidated {p : Path} (hp : ((Changes.detect digests a).invalidated digests a).contains p = true) :
    T.Due P P' p := by
  rcases Changes.contains_invalidated.1 hp with hadded | hmodified | ⟨hcur, gone, hgone, hdep⟩
  · obtain ⟨hcur, hnone⟩ := Changes.among_added.1 hadded
    obtain ⟨b', hb'⟩ := (contains_iff_of_digests hdigests p).1 hcur
    -- a new source was not recorded, so the old project did not have it
    refine ⟨⟨b', hb'⟩, Or.inl fun hsame => ?_⟩
    obtain ⟨info, hinfo, -⟩ := ha.sources p b' (hsame.trans hb')
    simp [hnone] at hinfo
  · obtain ⟨d, info, hd, hinfo, hne⟩ := Changes.among_modified.1 hmodified
    -- a modified one has another digest
    obtain ⟨b, hb, hrec⟩ := ha.record hinfo
    rw [hdigests, Option.map_eq_some_iff] at hd
    obtain ⟨b', hb', rfl⟩ := hd
    refine ⟨⟨b', hb'⟩, Or.inl fun hsame => hne ?_⟩
    rw [hb, hb'] at hsame
    rw [hrec.digest, Option.some.inj hsame]
  · obtain ⟨info, hinfo, hedge⟩ := Analysis.among_dependentsOf.1 hdep
    obtain ⟨b, hb, hrec⟩ := ha.record hinfo
    -- a recorded edge is one of the old project
    have hnone := (Changes.among_deleted.1 (Path.among_of_mem hgone)).2
    rw [hdigests, Option.map_eq_none_iff] at hnone
    exact ⟨(contains_iff_of_digests hdigests p).1 hcur, Or.inr ⟨gone, (hrec.sourceDeps gone).1 hedge, hnone⟩⟩

theorem invalidated_of_due (happart : ToldApart P P') {p : Path} (hp : T.Due P P' p) :
    ((Changes.detect digests a).invalidated digests a).contains p = true := by
  obtain ⟨⟨b', hb'⟩, hwhy⟩ := hp
  refine Changes.contains_invalidated.2 ?_
  have hd : digests.get? p = some (Digest.ofBytes b') := by rw [hdigests, hb']; rfl
  rcases hwhy with hne | ⟨q, hdep, hgone⟩
  · cases hb : P.get? p with
    -- without a record the source is new, with one it has another digest
    | none => exact Or.inl (Changes.among_added.2 ⟨(contains_iff_of_digests hdigests p).2 ⟨b', hb'⟩, ha.rest p hb⟩)
    | some b =>
      obtain ⟨info, hinfo, hrec⟩ := ha.sources p b hb
      refine Or.inr (Or.inl (Changes.among_modified.2 ⟨_, info, hd, hinfo, fun hsame => hne ?_⟩))
      rw [hb, hb', happart p b b' hb hb' (hrec.digest.symm.trans hsame)]
  · -- the edge to the source that is gone is recorded
    obtain ⟨b, hb⟩ : ∃ b, P.get? p = some b := by
      obtain ⟨_, ⟨b, hb, -⟩, -⟩ := hdep
      exact ⟨b, hb⟩
    obtain ⟨info, hinfo, hrec⟩ := ha.sources p b hb
    obtain ⟨b₁, hb₁⟩ := hdep.target
    obtain ⟨info₁, hinfo₁, -⟩ := ha.sources q b₁ hb₁
    obtain ⟨gone, hmem, hq⟩ : q.Among (Changes.detect digests a).deleted :=
      Changes.among_deleted.2 ⟨⟨info₁, hinfo₁⟩, by rw [hdigests, hgone]; rfl⟩
    refine Or.inr (Or.inr ⟨(contains_iff_of_digests hdigests p).2 ⟨b', hb'⟩, gone, hmem, ?_⟩)
    refine Analysis.among_dependentsOf.2 ⟨info, hinfo, ?_⟩
    rw [info.contains_congr hq]
    exact (hrec.sourceDeps q).2 hdep

/-- The sources of the first round are those that are due: no fingerprint is stale. -/
theorem contains_due_iff (happart : ToldApart P P') {c c' : Classpath} {invalid : SortedSet Path}
    (hstale : AddsStale digests a.sources.entries ((Changes.detect digests a).invalidated digests a) c invalid c')
    (hanswers : ∀ name found, c'.resolved.get? name = some found → found = F name) {p : Path} :
    invalid.contains p = true ↔ T.Due P P' p := by
  refine ⟨fun hp => ?_, fun hp => hstale.keeps p (invalidated_of_due ha hdigests happart hp)⟩
  rcases hstale.reason p hp with hp | ⟨-, e, he, -, name, d, found, hd, hfound, hne⟩
  · exact due_of_invalidated ha hdigests hp
  · -- the classpath answers what is recorded
    obtain ⟨b, -, hrec⟩ := ha.record (SortedMap.get?_of_mem he)
    obtain ⟨-, -, hF⟩ := (hrec.binaryDeps name d).1 hd
    exact absurd ((hanswers name found hfound).trans hF) hne

end FirstRound

/-! ### Rounds over a table that is right -/

theorem next_of_unchanged {r : Round} (h : r.changed = []) (left : Nat) : r.next left = [] := by
  cases left <;> simp [Round.next, h]

/-- A round between two right tables changes no API. -/
theorem changed_eq_nil (hT : T.Disjoint P) {digests : SortedMap Path Digest} {due : List Path} {a : Analysis}
    {c c' : Classpath} {r : Round} (follows : r.Follows digests due a c c') (hbefore : T.TableOf P a)
    (hafter : T.TableOf P r.after) : r.changed = [] := by
  refine List.eq_nil_iff_forall_not_mem.2 fun p hp => ?_
  rw [follows.changed] at hp
  obtain ⟨name, q, api, hnote, -, hne⟩ := among_changedSources.1 (Path.among_of_mem hp)
  rcases of_get?_notes hnote with hnote | ⟨hapi, -⟩
  · simp at hnote
  · obtain ⟨k, hk, rfl⟩ := Option.map_eq_some_iff.1 hapi
    obtain ⟨d, hdef, -, hkd⟩ := hbefore.sound name k hk
    obtain ⟨l, hl, -, -, hld⟩ := hafter.owner hT hdef
    exact hne (Option.map_eq_some_iff.2 ⟨l, hl, hld.trans hkd.symm⟩)

/-- The next round takes up the sources with an edge to a changed one, as long as it is not the last one. -/
theorem among_next_iff {r : Round} {left : Nat} {p : Path} :
    p.Among (r.next (left + 2)) ↔ ∃ info, r.after.source? p = some info ∧ info.refersTo r.changed = true := by
  cases hchanged : r.changed with
  | nil => simp [next_of_unchanged hchanged, SourceInfo.refersTo]
  | cons q l =>
    rw [← hchanged, ← Analysis.among_dependentsOfAny]
    simp [Round.next, hchanged]

/-- A source that a round does not compile keeps its record. -/
theorem source?_of_not_among {digests : SortedMap Path Digest} {due : List Path} {a : Analysis} {c c' : Classpath}
    {r : Round} (follows : r.Follows digests due a c c') (hunits : T.UnitsOf P due r.units) {p : Path}
    (hp : ¬ p.Among due) : r.after.source? p = a.source? p := by
  refine follows.source?_of_not_compiled (fun u hu => ?_) ?_
  · rw [Round.Compiles, follows.sources]
    exact hunits.only u hu
  · rwa [Round.Compiles, follows.sources]

/-- **Once the table of classes is right, one more round settles everything that is due.** -/
theorem rounds_of_table (hT : T.Disjoint P) {digests : SortedMap Path Digest}
    (hdigests : ∀ p, digests.get? p = (P.get? p).map Digest.ofBytes) {left : Nat} {due : List Path}
    {a a' : Analysis} {c c' : Classpath} {rs : List Round} (h : Rounds digests (left + 1) due a c rs a' c')
    (ha : a.Listed) (htable : T.TableOf P a) (hdue : ∀ p ∈ due, ∃ b, P.get? p = some b)
    (hunits : ∀ r ∈ rs, T.UnitsOf P r.sources r.units)
    (hanswers : ∀ name found, c'.resolved.get? name = some found → found = F name) :
    T.TableOf P a' ∧
      (∀ p b, P.get? p = some b → p.Among due → ∃ info, a'.source? p = some info ∧ T.RecordOf F P p b info) ∧
      ∀ p, ¬ p.Among due → a'.source? p = a.source? p := by
  cases h with
  | done h =>
    obtain rfl := h.resolve_left (Nat.succ_ne_zero left)
    exact ⟨htable, fun p b _ hp => absurd hp (Path.not_among_nil p), fun _ _ => rfl⟩
  | @round _ _ _ _ _ c₁ _ r rs _ follows rest =>
    have hr := hunits r List.mem_cons_self
    rw [follows.sources] at hr
    have hafter := tableOf_after follows ha hdigests hdue hr (htable.outside hT due)
    have hrecords : ∀ p b, P.get? p = some b → p.Among due →
        ∃ info, r.after.source? p = some info ∧ T.RecordOf F P p b info :=
      fun _ _ => recordOf_after follows ha hdigests hdue hr hT hafter
        fun name found hfound => hanswers name found (rest.grows name found hfound)
    -- no API has changed, so this was the last round
    rw [next_of_unchanged (changed_eq_nil hT follows htable hafter)] at rest
    cases rest with
    | done => exact ⟨hafter, hrecords, fun p hp => source?_of_not_among follows hr hp⟩
    | round hsome => exact absurd rfl hsome

/-! ### Where an incremental compile starts -/

variable (T P P') in
/-- **What an incremental compile does first:** it takes out of the old analysis the sources that are gone, and compiles
those that are due. -/
structure Begins (a : Analysis) (gone due : List Path) : Prop where
  gone : ∀ p, p.Among gone ↔ (∃ info, a.source? p = some info) ∧ P'.get? p = none
  due : ∀ p, p.Among due ↔ T.Due P P' p

variable (T F P P') in
/-- **What an incremental compile makes of a change.** -/
structure Remakes (a a' : Analysis) : Prop where
  /-- The table of classes is that of the new project. -/
  table : T.TableOf P' a'
  /-- Sources that are gone are not recorded. -/
  gone : ∀ p, P'.get? p = none → a'.source? p = none
  /-- Sources that are left alone have their old records. -/
  kept : ∀ p, T.Kept P P' p → a'.source? p = a.source? p
  /-- All others have the records that they ought to have. -/
  rest : ∀ p b, P'.get? p = some b → ¬ T.Kept P P' p → ∃ info, a'.source? p = some info ∧ T.RecordOf F P' p b info

/-- An engine that starts from a right analysis begins so. -/
theorem begins_of_trace (happart : ToldApart P P') {inputs : EngineInputs} {h : Host} {opened looked : Classpath}
    {due : SortedSet Path} {out : EngineOutput} (trace : Trace inputs h opened due looked out)
    (ha : T.Describes F P inputs.baseline)
    (hdigests : ∀ p, out.digests.get? p = (P'.get? p).map Digest.ofBytes)
    (hanswers : ∀ name found, out.classpath.resolved.get? name = some found → found = F name) :
    T.Begins P P' inputs.baseline (inputs.changes out.digests).deleted due.toList where
  gone := fun p => by rw [EngineInputs.changes, Changes.among_deleted, hdigests, Option.map_eq_none_iff]
  due := fun p => by
    rw [Path.among_toList]
    exact contains_due_iff ha hdigests happart trace.stale
      fun name found hfound => hanswers name found (trace.rounds.grows name found hfound)

namespace Begins

variable {a : Analysis} {gone due : List Path} (start : T.Begins P P' a gone due)

include start

theorem present : ∀ p ∈ due, ∃ b, P'.get? p = some b := fun p hp => ((start.due p).1 (Path.among_of_mem hp)).1

theorem not_gone {p : Path} (hp : ∃ b, P'.get? p = some b) : ¬ p.Among gone := by
  intro hmem
  obtain ⟨b, hb⟩ := hp
  simp [((start.gone p).1 hmem).2] at hb

theorem source?_of_present {p : Path} (hp : ∃ b, P'.get? p = some b) : (without gone a).source? p = a.source? p :=
  source?_without_of_not_among (start.not_gone hp) a

theorem source?_of_absent {p : Path} (hp : P'.get? p = none) : (without gone a).source? p = none := by
  by_cases hmem : p.Among gone
  · exact source?_without_of_among hmem a
  · rw [source?_without_of_not_among hmem]
    by_contra hsome
    exact hmem ((start.gone p).2 ⟨Option.ne_none_iff_exists'.1 hsome, hp⟩)

/-- What is left of the table is right as far as it concerns sources that are not due. -/
theorem tableOutside (hT : T.Disjoint P) (ha : T.Describes F P a) : T.TableOutside P' due (without gone a) where
  sound := by
    intro name k hk hnot
    obtain ⟨hk, hstay⟩ := (class?_without ha.listed gone).1 hk
    obtain ⟨d, hdef, hfile, hapi⟩ := ha.classes.sound name k hk
    -- a class that is left belongs to a source that is there, and that defines it still
    refine ⟨d, defines_of_not_due' (fun hd => hnot ((start.due _).2 hd)) ?_ hdef, hfile, hapi⟩
    obtain ⟨info, hinfo, -⟩ := ha.listed name k hk
    rw [← Option.ne_none_iff_exists']
    exact fun hp => hstay ((start.gone _).2 ⟨⟨info, hinfo⟩, hp⟩)
  complete := by
    intro name p d hdef hnot
    obtain ⟨k, hk, howner, -⟩ :=
      ha.classes.owner hT (defines_of_not_due (fun hd => hnot ((start.due p).2 hd)) hdef)
    obtain ⟨b, hb, -⟩ := hdef
    exact ⟨k, (class?_without ha.listed gone).2 ⟨hk, fun hmem => start.not_gone ⟨b, hb⟩ (hmem.congr howner)⟩, howner⟩

/-- A source that is due is not left alone. -/
theorem not_kept {p : Path} (hp : p.Among due) : ¬ T.Kept P P' p := by
  rintro ⟨⟨b, hb, hb'⟩, hdeps⟩
  rcases ((start.due p).1 hp).2 with hne | ⟨q, hdep, hq⟩
  · exact hne (hb.trans hb'.symm)
  · obtain ⟨⟨b', hb'⟩, -⟩ := hdeps q hdep
    simp [hq] at hb'

/-- If nothing is due, every source is left alone. -/
theorem remakes_of_nil (hT : T.Disjoint P) (ha : T.Describes F P a) (hnil : due = []) :
    T.Remakes F P P' a (without gone a) := by
  subst hnil
  have hnot : ∀ p, ¬ T.Due P P' p := fun p hp => Path.not_among_nil p ((start.due p).2 hp)
  have houtside := start.tableOutside hT ha
  refine ⟨⟨fun name k hk => houtside.sound name k hk (Path.not_among_nil _), fun name p d hdef => ?_⟩,
    fun p => start.source?_of_absent, fun p hkept => ?_, fun p b hb hnk => absurd ?_ hnk⟩
  · obtain ⟨k, hk, -⟩ := houtside.complete name p d hdef (Path.not_among_nil p)
    exact ⟨k, hk⟩
  · obtain ⟨b, -, hb⟩ := hkept.1
    exact start.source?_of_present ⟨b, hb⟩
  · obtain ⟨hold, hdeps⟩ := of_not_due hb (hnot p)
    exact ⟨⟨b, hold, hb⟩, fun q hq => ⟨hdeps q hq, fun name c hdef =>
      ⟨q, c, defines_of_not_due' (hnot q) (hdeps q hq) hdef, rfl⟩⟩⟩

/-! ### The sources that change with the first round -/

section FirstRound

variable {digests : SortedMap Path Digest} {c c' : Classpath} {r : Round} (hT : T.Disjoint P)
  (ha : T.Describes F P a) (follows : r.Follows digests due (without gone a) c c') (hafter : T.TableOf P' r.after)

include hT ha follows hafter

/-- A source of which a class changed its API is not intact. -/
theorem not_intact_of_changed (hT' : T.Disjoint P') {q : Path} (hq' : ∃ b, P'.get? q = some b)
    (hchanged : q.Among r.changed) : ¬ T.Intact P P' q := by
  intro hintact
  rw [follows.changed] at hchanged
  obtain ⟨name, p, api, hnote, hpq, hne⟩ := among_changedSources.1 hchanged
  rcases of_get?_notes hnote with hnote | ⟨hapi, info, hinfo, hlists⟩
  · simp at hnote
  -- the source lists the class, so it defines it, with the API that was noted
  rw [Analysis.source?_congr _ hpq, start.source?_of_present hq'] at hinfo
  obtain ⟨b, hb, hrec⟩ := ha.record hinfo
  obtain ⟨d, hd⟩ := (hrec.classes name).1 hlists
  obtain ⟨k, hk, rfl⟩ := Option.map_eq_some_iff.1 hapi
  obtain ⟨l, hl, -, -, hld⟩ := ha.classes.owner hT ⟨b, hb, hd⟩
  obtain rfl := Option.some.inj (hl.symm.trans (class?_of_without hk))
  obtain ⟨p', d', hdef', hd'⟩ := hintact name d ⟨b, hb, hd⟩
  obtain ⟨k', hk', -, -, hkd'⟩ := hafter.owner hT' hdef'
  have hsame : k'.api = l.api :=
    calc k'.api = d'.api := hkd'
      _ = d.api := hd'
      _ = l.api := hld.symm
  exact hne (Option.map_eq_some_iff.2 ⟨k', hk', hsame⟩)

/-- A source that is there and not intact was compiled, and has changed. -/
theorem changed_of_not_intact {q : Path} (hq' : ∃ b, P'.get? q = some b) (hnot : ¬ T.Intact P P' q) :
    q.Among r.changed := by
  simp only [Intact, not_forall] at hnot
  obtain ⟨name, d, hdef, hno⟩ := hnot
  obtain ⟨k, hk, howner, -, hkd⟩ := ha.classes.owner hT hdef
  have hk₀ : (without gone a).class? name = some k :=
    (class?_without ha.listed gone).2 ⟨hk, fun h => start.not_gone hq' (h.congr howner)⟩
  -- a source that is not due defines the class as before
  have hcompiled : q.Among due := by
    rw [start.due]
    by_contra hkept
    exact hno ⟨q, d, defines_of_not_due' hkept hq' hdef, rfl⟩
  refine (follows.changed_of_api_ne (without_listed ha.listed gone) hk₀ ?_ ?_).congr howner
  · rw [Round.Compiles, follows.sources]
    exact hcompiled.congr (BEq.symm howner)
  · intro hapi
    obtain ⟨l, hl, hlk⟩ := Option.map_eq_some_iff.1 hapi
    obtain ⟨d', hdef', -, hld'⟩ := hafter.sound name l hl
    have hsame : d'.api = d.api :=
      calc d'.api = l.api := hld'.symm
        _ = k.api := hlk
        _ = d.api := hkd
    exact hno ⟨l.source, d', hdef', hsame⟩

/-- **The second round takes up the other sources that are not left alone.** -/
theorem among_next_iff_not_kept (hT' : T.Disjoint P') (hunits : T.UnitsOf P' due r.units) {left : Nat} {p : Path}
    {b : Bytes} (hb : P'.get? p = some b) (hdue : ¬ p.Among due) :
    p.Among (r.next (left + 2)) ↔ ¬ T.Kept P P' p := by
  have hsame : r.after.source? p = a.source? p :=
    (source?_of_not_among follows hunits hdue).trans (start.source?_of_present ⟨b, hb⟩)
  obtain ⟨hbP, hdeps⟩ := of_not_due hb fun hd => hdue ((start.due p).2 hd)
  obtain ⟨info, hinfo, hrec⟩ := ha.sources p b hbP
  rw [among_next_iff, hsame]
  constructor
  · rintro ⟨info', hinfo', hrefers⟩ hkept
    obtain rfl := Option.some.inj (hinfo.symm.trans hinfo')
    obtain ⟨q, hq, hedge⟩ := SourceInfo.refersTo_iff.1 hrefers
    obtain ⟨hthere, hintact⟩ := hkept.2 q ((hrec.sourceDeps q).1 hedge)
    exact start.not_intact_of_changed hT ha follows hafter hT' hthere (Path.among_of_mem hq) hintact
  · intro hnot
    -- what it depends on is there, and if it is all intact then the source is left alone
    by_contra hno
    refine hnot ⟨⟨b, hbP, hb⟩, fun q hdep => ⟨hdeps q hdep, ?_⟩⟩
    by_contra hbroken
    have hq := start.changed_of_not_intact hT ha follows hafter (hdeps q hdep) hbroken
    exact hno ⟨info, hinfo, SourceInfo.refersTo_of_among hq ((hrec.sourceDeps q).2 hdep)⟩

end FirstRound

/-! ### A whole compile -/

/-- The rounds of an incremental compile remake the analysis. -/
theorem remakes_of_rounds (hT : T.Disjoint P) (hT' : T.Disjoint P') (ha : T.Describes F P a)
    {digests : SortedMap Path Digest} (hdigests : ∀ p, digests.get? p = (P'.get? p).map Digest.ofBytes)
    {left : Nat} {a' : Analysis} {c c' : Classpath} {rs : List Round}
    (h : Rounds digests (left + 3) due (without gone a) c rs a' c')
    (hunits : ∀ r ∈ rs, T.UnitsOf P' r.sources r.units)
    (hanswers : ∀ name found, c'.resolved.get? name = some found → found = F name) :
    T.Remakes F P P' a a' := by
  have hlisted := without_listed ha.listed gone
  cases h with
  | done h => exact start.remakes_of_nil hT ha (h.resolve_left (Nat.succ_ne_zero _))
  | @round _ _ _ _ _ c₁ _ r rs _ follows rest =>
    have hr := hunits r List.mem_cons_self
    rw [follows.sources] at hr
    have hafter := tableOf_after follows hlisted hdigests start.present hr (start.tableOutside hT ha)
    have halone : ∀ p, ¬ p.Among due → r.after.source? p = (without gone a).source? p :=
      fun p => source?_of_not_among follows hr
    have habsent : ∀ p, P'.get? p = none → r.after.source? p = none := by
      intro p hp
      refine (halone p fun hmem => ?_).trans (start.source?_of_absent hp)
      obtain ⟨b, hb⟩ := ((start.due p).1 hmem).1
      simp [hp] at hb
    -- what the first round asks for is recorded, so it is there
    have hnext : ∀ p, p.Among (r.next (left + 2)) → ∃ b, P'.get? p = some b := by
      intro p hp
      obtain ⟨info, hinfo, -⟩ := among_next_iff.1 hp
      rw [← Option.ne_none_iff_exists']
      exact fun hnone => by simp [habsent p hnone] at hinfo
    obtain ⟨htable, hsettled, hrest⟩ := rounds_of_table hT' hdigests rest (follows.listed hlisted) hafter
      (fun p hp => hnext p (Path.among_of_mem hp)) (fun r' hr' => hunits r' (List.mem_cons_of_mem _ hr')) hanswers
    have hagain : ∀ p b, P'.get? p = some b → ¬ p.Among due → (p.Among (r.next (left + 2)) ↔ ¬ T.Kept P P' p) :=
      fun _ _ => start.among_next_iff_not_kept hT ha follows hafter hT' hr
    refine ⟨htable, fun p hp => ?_, fun p hkept => ?_, fun p b hb hnk => ?_⟩
    · refine (hrest p fun hmem => ?_).trans (habsent p hp)
      obtain ⟨b, hb⟩ := hnext p hmem
      simp [hp] at hb
    · obtain ⟨b, -, hb⟩ := hkept.1
      have hdue : ¬ p.Among due := fun hmem => start.not_kept hmem hkept
      rw [hrest p fun hmem => (hagain p b hb hdue).1 hmem hkept, halone p hdue, start.source?_of_present ⟨b, hb⟩]
    · by_cases hmem : p.Among (r.next (left + 2))
      · exact hsettled p b hb hmem
      · have hdue : p.Among due := by
          by_contra hdue
          exact hmem ((hagain p b hb hdue).2 hnk)
        rw [hrest p hmem]
        exact recordOf_after follows hlisted hdigests start.present hr hT' hafter
          (fun name found hfound => hanswers name found (rest.grows name found hfound)) hb hdue

end Begins

/-- **An incremental compile ends with a right analysis exactly if the change is traced.** -/
theorem describes_iff_traced (hT : T.Disjoint P) (hT' : T.Disjoint P') (happart : ToldApart P P')
    {inputs : EngineInputs} {h : Host} {opened looked : Classpath} {due : SortedSet Path} {out : EngineOutput}
    (trace : Trace inputs h opened due looked out) (ha : T.Describes F P inputs.baseline)
    (hdigests : ∀ p, out.digests.get? p = (P'.get? p).map Digest.ofBytes)
    (hunits : ∀ r ∈ out.rounds, T.UnitsOf P' r.sources r.units)
    (hanswers : ∀ name found, out.classpath.resolved.get? name = some found → found = F name) :
    T.Describes F P' out.analysis ↔ T.Traced F P P' := by
  have remade : T.Remakes F P P' inputs.baseline out.analysis :=
    (begins_of_trace happart trace ha hdigests hanswers).remakes_of_rounds hT hT' ha hdigests trace.rounds hunits
      hanswers
  constructor
  · intro hout p hkept
    obtain ⟨b, hb, hb'⟩ := hkept.1
    obtain ⟨info, hinfo, hrec⟩ := ha.sources p b hb
    obtain ⟨info', hinfo', hrec'⟩ := hout.sources p b hb'
    rw [remade.kept p hkept, hinfo] at hinfo'
    obtain rfl := Option.some.inj hinfo'
    exact ⟨fun q => (hrec.sourceDeps q).symm.trans (hrec'.sourceDeps q),
      fun name d => (hrec.binaryDeps name d).symm.trans (hrec'.binaryDeps name d)⟩
  · intro htraced
    -- the old record of a source that is left alone is right for the new project
    refine ⟨trace.rounds.listed (without_listed ha.listed _), remade.table, fun p b hb' => ?_, remade.gone⟩
    by_cases hkept : T.Kept P P' p
    · obtain ⟨b₀, hb, hb₀⟩ := hkept.1
      obtain rfl := Option.some.inj (hb'.symm.trans hb₀)
      obtain ⟨info, hinfo, hrec⟩ := ha.sources p b hb
      obtain ⟨hdeps, hexternal⟩ := htraced p hkept
      refine ⟨info, (remade.kept p hkept).trans hinfo, hrec.digest, hrec.classes, fun q => ?_, fun name d => ?_⟩
      · rw [hrec.sourceDeps, hdeps]
      · rw [hrec.binaryDeps, hexternal]
    · exact remade.rest p b hb' hkept

end Translation

end Recompile

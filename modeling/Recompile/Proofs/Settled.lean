import Recompile.Proofs.Fallible
import Recompile.Proofs.Opening
import Recompile.Proofs.Trace

/-!
# What a successful compile leaves behind

Whatever the compiler reports, a successful compile accounts for every source of the module. `Analysis.Settled` says so
for one source: if it is there it is recorded with its digest, and every fingerprint in its record is one that the
classpath answered; if it is not there it is not recorded. Sources that the first round leaves alone are settled from the
start, by what makes the engine leave them alone. A round settles the sources that it compiles, whether it has a unit
for them or not, and leaves the others as they are. Hence all sources are settled in the end
(`Engine.settled_of_trace`).

The converse concerns the next compile: it has nothing to do if all sources are settled and the classpath still answers
what it answered (`Engine.yields_compile_of_settled`).
-/

namespace Recompile

/-- **Whether an analysis accounts for a source:** one that is there is recorded with its digest and with fingerprints
that the classpath has answered, and one that is not there is not recorded. -/
def Analysis.Settled (a : Analysis) (digests : SortedMap Path Digest) (c : Classpath) (p : Path) : Prop :=
  match digests.get? p with
  | none => a.source? p = none
  | some d => ∃ info, a.source? p = some info ∧ info.digest = d ∧
      ∀ name fp, info.binaryDeps.get? name = some fp → c.resolved.get? name = some (some fp)

namespace Analysis.Settled

variable {a : Analysis} {digests : SortedMap Path Digest} {c c' : Classpath} {p : Path}

theorem grow (h : a.Settled digests c p) (hc : c.Grows c') : a.Settled digests c' p := by
  unfold Analysis.Settled at h ⊢
  split
  next hp => rwa [hp] at h
  next d hp =>
    simp only [hp] at h
    obtain ⟨info, hinfo, hd, hdeps⟩ := h
    exact ⟨info, hinfo, hd, fun name fp hfp => hc _ _ (hdeps name fp hfp)⟩

/-- A settled source that is recorded is a source of the module. -/
theorem contains (h : a.Settled digests c p) {info : SourceInfo} (hinfo : a.source? p = some info) :
    digests.contains p = true := by
  cases hd : digests.get? p with
  | none => simp [Analysis.Settled, hd, hinfo] at h
  | some d => exact SortedMap.contains_iff.2 ⟨d, hd⟩

/-- A source of which the record is the same is as settled as it was. -/
theorem of_source?_eq {a' : Analysis} (h : a.Settled digests c p) (hsame : a'.source? p = a.source? p) :
    a'.Settled digests c p := by
  unfold Analysis.Settled at h ⊢
  rwa [hsame]

end Analysis.Settled

/-! ### One round -/

namespace Round.Follows

variable {digests : SortedMap Path Digest} {due : List Path} {a : Analysis} {c c' : Classpath} {r : Round}

open Engine in
/-- **A round settles what it compiles** and leaves the rest settled, whatever units it has. -/
theorem settled (h : r.Follows digests due a c c') (hdue : ∀ p, p.Among due → digests.contains p = true)
    (ha : ∀ p, ¬ p.Among due → a.Settled digests c p) (p : Path) : r.after.Settled digests c' p := by
  -- a source with which the round has nothing to do keeps its record
  have hkeeps : (digests.get? p = none ∨ ∀ u ∈ r.units, (u.source == p) = false) → ¬ p.Among due →
      r.after.Settled digests c' p :=
    fun hother hnot => ((ha p hnot).grow h.grows).of_source?_eq (h.source?_of_untouched hnot hother)
  cases hd : digests.get? p with
  | none =>
    refine hkeeps (Or.inl hd) fun hp => ?_
    simpa [SortedMap.contains_iff, hd] using hdue p hp
  | some d =>
    by_cases hp : p.Among due ∨ ∃ u ∈ r.units, (u.source == p) = true
    · obtain ⟨info, hinfo, hrecorded⟩ := h.exists_source?_of_recorded hd hp
      unfold Analysis.Settled
      simp only [hd]
      exact ⟨info, hinfo, hrecorded.digest, fun name fp hfp => hrecorded.answered hfp⟩
    · obtain ⟨hnot, hunits⟩ := not_or.1 hp
      exact hkeeps (Or.inr fun u hu => by simpa using fun hup => hunits ⟨u, hu, hup⟩) hnot

end Round.Follows

/-- The sources that a round asks for are recorded after it. -/
theorem Round.exists_source?_of_next {r : Round} {left : Nat} {p : Path} (hp : p.Among (r.next left)) :
    ∃ info, r.after.source? p = some info := by
  cases left with
  | zero => exact absurd hp (Path.not_among_nil p)
  | succ left =>
    simp only [next] at hp
    split at hp
    · exact absurd hp (Path.not_among_nil p)
    split at hp
    · exact Analysis.exists_source?_of_transitiveDependents hp
    · obtain ⟨info, hinfo, -⟩ := Analysis.among_dependentsOfAny.1 hp
      exact ⟨info, hinfo⟩

namespace Rounds

variable {digests : SortedMap Path Digest} {left : Nat} {due : List Path} {a a' : Analysis} {c c' : Classpath}
  {rs : List Round}

/-- **Rounds settle every source** if those that are not due at the start are settled. -/
theorem settled (h : Rounds digests left due a c rs a' c') (hleft : left = 0 → due = [])
    (hdue : ∀ p, p.Among due → digests.contains p = true)
    (ha : ∀ p, ¬ p.Among due → a.Settled digests c p) (p : Path) : a'.Settled digests c' p := by
  induction h with
  | done h =>
    obtain rfl := h.elim hleft id
    exact ha p (Path.not_among_nil p)
  | @round left _ _ _ _ _ _ r _ _ first _ ih =>
    have hafter := first.settled hdue ha
    refine ih (fun hzero => by rw [hzero]; rfl) (fun q hq => ?_) fun q _ => hafter q
    -- what is recorded after the round is there
    obtain ⟨info, hinfo⟩ := r.exists_source?_of_next hq
    exact (hafter q).contains hinfo

/-- Rounds compile sources of the module only, if those that are due at the start are. -/
theorem contains_of_compiles (h : Rounds digests left due a c rs a' c')
    (hdue : ∀ p, p.Among due → digests.contains p = true)
    (ha : ∀ p, ¬ p.Among due → a.Settled digests c p) {r : Round} (hr : r ∈ rs) {p : Path} (hp : r.Compiles p) :
    digests.contains p = true := by
  induction h with
  | done => simp at hr
  | @round left _ _ _ _ _ _ q _ _ first _ ih =>
    rcases List.mem_cons.1 hr with rfl | hr
    · rw [Round.Compiles, first.sources] at hp
      exact hdue p hp
    · have hafter := first.settled hdue ha
      refine ih (fun p hp => ?_) (fun p _ => hafter p) hr
      obtain ⟨info, hinfo⟩ := q.exists_source?_of_next hp
      exact (hafter p).contains hinfo

end Rounds

/-! ### A whole compile -/

namespace Engine

variable {inputs : EngineInputs} {h : Host} {opened looked : Classpath} {due : SortedSet Path} {out : EngineOutput}

theorem Trace.contains_of_among_due (trace : Trace inputs h opened due looked out) {p : Path}
    (hp : p.Among due.toList) : out.digests.contains p = true := by
  rcases trace.stale.reason p (Path.among_toList.1 hp) with hp | ⟨hp, -⟩
  · rcases Changes.contains_invalidated.1 hp with hadded | hmodified | ⟨hp, -⟩
    · exact (Changes.among_added.1 hadded).1
    · obtain ⟨d, _, hd, -⟩ := Changes.among_modified.1 hmodified
      exact SortedMap.contains_iff.2 ⟨d, hd⟩
    · exact hp
  · exact hp

/-- The sources that the first round leaves alone are settled. -/
theorem Trace.settled_of_not_due (trace : Trace inputs h opened due looked out) {p : Path}
    (hp : ¬ p.Among due.toList) :
    (without (inputs.changes out.digests).deleted inputs.baseline).Settled out.digests looked p := by
  have hnot : ¬ ((inputs.changes out.digests).invalidated out.digests inputs.baseline).contains p = true :=
    fun hinvalid => hp (Path.among_toList.2 (trace.stale.keeps p hinvalid))
  rw [Changes.contains_invalidated] at hnot
  obtain ⟨hadded, hrest⟩ := not_or.1 hnot
  obtain ⟨hmodified, -⟩ := not_or.1 hrest
  unfold Analysis.Settled
  cases hd : out.digests.get? p with
  | none =>
    -- it is not recorded, or it is one of those that are gone
    by_cases hgone : p.Among (inputs.changes out.digests).deleted
    · exact source?_without_of_among hgone inputs.baseline
    · refine (source?_without_of_not_among hgone inputs.baseline).trans ?_
      by_contra hsome
      exact hgone (Changes.among_deleted.2 ⟨Option.ne_none_iff_exists'.1 hsome, hd⟩)
  | some d =>
    have hthere : out.digests.contains p = true := SortedMap.contains_iff.2 ⟨d, hd⟩
    have hgone : ¬ p.Among (inputs.changes out.digests).deleted := by
      intro hgone
      simpa [hd] using (Changes.among_deleted.1 hgone).2
    obtain ⟨info, hinfo⟩ : ∃ info, inputs.baseline.source? p = some info := by
      by_contra hnone
      refine hadded (Changes.among_added.2 ⟨hthere, ?_⟩)
      by_contra hsome
      exact hnone (Option.ne_none_iff_exists'.1 hsome)
    refine ⟨info, (source?_without_of_not_among hgone inputs.baseline).trans hinfo, ?_, ?_⟩
    · by_contra hne
      exact hmodified (Changes.among_modified.2 ⟨d, info, hd, hinfo, hne⟩)
    · obtain ⟨q, hq, hpq⟩ := SortedMap.get?_eq_some_iff.1 hinfo
      rw [SortedMap.contains_congr out.digests hpq] at hthere
      refine (trace.stale.fresh _ hq hthere).resolve_left fun hdue => ?_
      exact hp (Path.among_toList.2 (by rwa [SortedMap.contains_congr due hpq]))

/-- A compile compiles sources of the module only. -/
theorem Trace.contains_of_compiles (trace : Trace inputs h opened due looked out) {r : Round} (hr : r ∈ out.rounds)
    {p : Path} (hp : r.Compiles p) : out.digests.contains p = true :=
  trace.rounds.contains_of_compiles (fun _ => trace.contains_of_among_due) (fun _ => trace.settled_of_not_due) hr hp

/-- **After a successful compile every source is settled.** -/
theorem settled_of_trace (trace : Trace inputs h opened due looked out) (p : Path) :
    out.analysis.Settled out.digests out.classpath p :=
  trace.rounds.settled (fun hzero => absurd hzero (by decide)) (fun _ => trace.contains_of_among_due)
    (fun _ => trace.settled_of_not_due) p

/-! ### What is digested -/

/-- What was digested is what was read. -/
theorem of_digestSources {h : Host} {sources : List Path} {l : List (Path × Digest)}
    (hl : digestSources h sources = .ok l) :
    l.map (·.1) = sources ∧ ∀ e ∈ l, ∃ b, h.read e.1 = .ok b ∧ e.2 = Digest.ofBytes b := by
  induction sources generalizing l with
  | nil =>
    obtain rfl : [] = l := Except.ok.inj hl
    simp
  | cons p rest ih =>
    unfold digestSources at hl
    cases hp : h.read p with
    | error fault => simp [hp] at hl
    | ok b =>
      simp only [hp, bind_eq_ok_iff, pure_eq_ok_iff] at hl
      obtain ⟨l', hrest, rfl⟩ := hl
      obtain ⟨hkeys, hall⟩ := ih hrest
      refine ⟨by simp [hkeys], fun e he => ?_⟩
      rcases List.mem_cons.1 he with rfl | he
      · exact ⟨b, hp, rfl⟩
      · exact hall e he

/-- The table of the digests is made of the list of them, in the order of the sources. -/
theorem sourceDigests_eq_ok_iff {h : Host} {sources : List Path} {digests : SortedMap Path Digest} :
    sourceDigests h sources = .ok digests ↔ ∃ l, digestSources h sources = .ok l ∧ SortedMap.insertAll ∅ l = digests := by
  simp only [sourceDigests, bind_eq_ok_iff, pure_eq_ok_iff]

theorem contains_sourceDigests {h : Host} {sources : List Path} {digests : SortedMap Path Digest}
    (hdigests : sourceDigests h sources = .ok digests) (p : Path) :
    digests.contains p = true ↔ p.Among sources := by
  obtain ⟨l, hl, rfl⟩ := sourceDigests_eq_ok_iff.1 hdigests
  obtain ⟨rfl, -⟩ := of_digestSources hl
  rw [SortedMap.contains, SortedMap.get?_insertAll, SortedMap.get?_empty, Option.or_none, SortedMap.isSome_find?]
  constructor
  · rintro ⟨e, he, hpe⟩
    exact ⟨e.1, List.mem_map_of_mem (List.mem_reverse.1 he), BEq.symm (Path.compare_eq_iff_beq.1 hpe)⟩
  · rintro ⟨q, hq, hqp⟩
    obtain ⟨e, he, rfl⟩ := List.mem_map.1 hq
    exact ⟨e, List.mem_reverse.2 he, Path.compare_eq_iff_beq.2 (BEq.symm hqp)⟩

/-- The digest of a source is that of what was read of it, in one of its spellings. -/
theorem exists_read_of_sourceDigests {h : Host} {sources : List Path} {digests : SortedMap Path Digest}
    (hdigests : sourceDigests h sources = .ok digests) {p : Path} {d : Digest} (hd : digests.get? p = some d) :
    ∃ q ∈ sources, (q == p) = true ∧ ∃ data, h.read q = .ok data ∧ d = Digest.ofBytes data := by
  obtain ⟨l, hl, rfl⟩ := sourceDigests_eq_ok_iff.1 hdigests
  obtain ⟨rfl, hdata⟩ := of_digestSources hl
  rw [SortedMap.get?_insertAll, SortedMap.get?_empty, Option.or_none] at hd
  obtain ⟨e, he, hcmp, rfl⟩ := SortedMap.exists_of_find? hd
  rw [List.mem_reverse] at he
  exact ⟨e.1, List.mem_map_of_mem he, BEq.symm (Path.compare_eq_iff_beq.1 hcmp), hdata e he⟩

/-! ### The next compile -/

/-- Sources that read the same have the same digests. -/
theorem sourceDigests_congr {h h' : Host} {sources : List Path} (hsame : ∀ p ∈ sources, h'.read p = h.read p) :
    sourceDigests h' sources = sourceDigests h sources := by
  suffices hlist : digestSources h' sources = digestSources h sources by rw [sourceDigests, sourceDigests, hlist]
  induction sources with
  | nil => rfl
  | cons p rest ih =>
    rw [digestSources, digestSources, hsame p List.mem_cons_self, ih fun q hq => hsame q (List.mem_cons_of_mem _ hq)]

/-- If all sources are settled nothing has changed. -/
theorem detect_of_settled {a : Analysis} {digests : SortedMap Path Digest} {c : Classpath}
    (ha : ∀ p, a.Settled digests c p) :
    (Changes.detect digests a).added = [] ∧ (Changes.detect digests a).modified = [] ∧
      (Changes.detect digests a).deleted = [] := by
  -- a settled source is neither new, nor modified, nor gone
  refine ⟨Path.eq_nil_iff_not_among.2 fun p hp => ?_, Path.eq_nil_iff_not_among.2 fun p hp => ?_,
    Path.eq_nil_iff_not_among.2 fun p hp => ?_⟩
  · obtain ⟨hthere, hnone⟩ := Changes.among_added.1 hp
    obtain ⟨d, hd⟩ := SortedMap.contains_iff.1 hthere
    have hp := ha p
    simp [Analysis.Settled, hd, hnone] at hp
  · obtain ⟨d, info, hd, hinfo, hne⟩ := Changes.among_modified.1 hp
    have hp := ha p
    simp only [Analysis.Settled, hd, hinfo, Option.some.injEq, exists_eq_left'] at hp
    exact hne hp.1
  · obtain ⟨⟨info, hinfo⟩, hnone⟩ := Changes.among_deleted.1 hp
    have hp := ha p
    simp [Analysis.Settled, hnone, hinfo] at hp

/-- Settled sources have recorded the fingerprints that were found. -/
theorem resolved_of_settled {a : Analysis} {digests : SortedMap Path Digest} {c : Classpath}
    (ha : ∀ p, a.Settled digests c p) {e : Path × SourceInfo} (he : e ∈ a.sources.entries) {dep : String × Digest}
    (hdep : dep ∈ e.2.binaryDeps.entries) : c.resolved.get? dep.1 = some (some dep.2) := by
  have hsource : a.source? e.1 = some e.2 := SortedMap.get?_of_mem he
  have hsettled := ha e.1
  unfold Analysis.Settled at hsettled
  split at hsettled
  next => simp [hsource] at hsettled
  next =>
    obtain ⟨info, hinfo, -, hdeps⟩ := hsettled
    obtain rfl := Option.some.inj (hsource.symm.trans hinfo)
    exact hdeps dep.1 dep.2 (SortedMap.get?_of_mem hdep)

/-- If all sources are settled and the classpath still answers what it answered, there is nothing to compile. -/
theorem yields_firstSources_of_settled {a : Analysis} {digests : SortedMap Path Digest} {c opened c' : Classpath}
    {h h' : Host} (ha : ∀ p, a.Settled digests c p)
    (hstale : (addStale digests a.sources.entries (SortedSet.ofList []) opened : Action Host EngineError _).Yields h
      (SortedSet.ofList [], c') h') :
    ∃ log, (firstSources (Changes.detect digests a) digests a opened).Yields h ([], c') { h' with log } := by
  obtain ⟨hadded, hmodified, hdeleted⟩ := detect_of_settled ha
  unfold firstSources Changes.invalidated Changes.dirty
  rw [hadded, hmodified, hdeleted]
  exact ⟨_, Action.yields_bind.2 ⟨_, _, hstale, Action.yields_bind.2 ⟨(), _, Host.yields_report.2 rfl,
    Action.yields_pure.2 ⟨rfl, rfl⟩⟩⟩⟩

variable {σ : Type}

/-- **A compile has nothing to do** if it starts from an analysis in which every source is settled and the classpath
still answers what it answered. It does not ask the compiler and touches nothing but the log. -/
theorem yields_compile_of_settled {inputs : EngineInputs} {s : EngineState σ} {a : Analysis}
    {digests : SortedMap Path Digest} {c : Classpath} (hprevious : inputs.previous = some ⟨a, inputs.setup⟩)
    (hdigests : sourceDigests s.session.host inputs.options.sources = .ok digests)
    (ha : ∀ p, a.Settled digests c p)
    (hanswers : ∀ name fp, c.resolved.get? name = some (some fp) →
      Classpath.answer inputs.lookup (externalClasspath inputs.options.classpath inputs.options.output)
        s.session.host name = some fp) :
    ∃ log c', ∀ compiler : SourceCompiler σ, (compile compiler inputs).Yields s
      ⟨a, inputs.setup, [], [], digests, c'⟩
      { s with session := { s.session with host := { s.session.host with log } } } := by
  obtain ⟨⟨opened, l⟩, hopen⟩ := Classpath.exists_reads_ofPaths (ε := EngineError) inputs.lookup
    (externalClasspath inputs.options.classpath inputs.options.output) s.session.host
  obtain ⟨log, hopened⟩ := hopen.yields
  have hfresh : ∀ e ∈ a.sources.entries, ∀ dep ∈ e.2.binaryDeps.entries,
      Classpath.search? { s.session.host with log } dep.1 opened.entries = some dep.2 := by
    intro e he dep hdep
    rw [← hanswers _ _ (resolved_of_settled ha he hdep), Classpath.answer_eq hopen]
    rfl
  obtain ⟨c', hstale⟩ := yields_addStale_of_fresh digests (SortedSet.ofList [])
    (Classpath.faithful_of_unasked (yields_ofPaths hopened)) hfresh
  have hstart : (startingAnalysis inputs).Yields s.session.host a s.session.host := by
    simp [startingAnalysis, hprevious, Setup.isCompatible_self]
  have hremove : ∀ h : Host,
      (removeSources inputs.options.output (Changes.detect digests a).deleted a).Yields h a h := by
    intro h
    rw [(detect_of_settled ha).2.2]
    exact Action.yields_pure.2 ⟨rfl, rfl⟩
  obtain ⟨log', hfirst⟩ := yields_firstSources_of_settled ha hstale
  refine ⟨log', c', fun compiler => ?_⟩
  -- the steps of the compile one after another, and no round
  unfold compile
  refine Action.yields_bind.2 ⟨_, _, yields_machine.2 ⟨rfl, rfl⟩, ?_⟩
  rw [hdigests]
  refine Action.yields_bind.2 ⟨_, _, Action.yields_pure.2 ⟨rfl, rfl⟩, ?_⟩
  refine Action.yields_bind.2 ⟨_, _, yields_onHost.2 ⟨_, hstart, rfl⟩, ?_⟩
  refine Action.yields_bind.2 ⟨_, _, yields_onHost.2 ⟨_, hopened, rfl⟩, ?_⟩
  refine Action.yields_bind.2 ⟨_, _, yields_onHost.2 ⟨_, hfirst, rfl⟩, ?_⟩
  refine Action.yields_bind.2 ⟨_, _, yields_onHost.2 ⟨_, hremove _, rfl⟩, ?_⟩
  refine Action.yields_bind.2 ⟨(a, [], c'), _, ?_, Action.yields_pure.2 ⟨rfl, rfl⟩⟩
  exact Action.yields_pure.2 ⟨rfl, rfl⟩

end Engine

end Recompile

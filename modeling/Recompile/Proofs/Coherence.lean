import Recompile.Proofs.Compile
import Recompile.Proofs.Settled

/-!
# Analyses that hang together

The two tables of an analysis refer to one another, and the records of sources refer to other sources. An analysis is
`Analysis.Coherent` if all of these references lead somewhere: a class to the source that lists it, and an edge to a
recorded source other than its own. What a module stores is coherent, whatever units the compiler leaves out and whatever
classes it claims for several sources (`Attempts.analyses_coherent`).

Within a compile it is not. When sources are taken out, the edges of the others to them lead nowhere for a while, and so
do the edges to sources that are gone. The invariant that carries the rounds is therefore not about the records that are
there but about the sources of the module: the edges of every source that is not due stay within them
(`SourceInfo.Stays`). For the first round this is what makes the engine compile the dependents of sources that are gone. A
round keeps it, since what it records leads to the owners of classes, and those are sources of the module too
(`Round.Follows.stays`). In the end every source of the module is recorded, and the edges lead to records.

Between compiles the analysis goes through the store. A run of compiles (`Attempts`) follows what the store reads as: a
success leaves what it has written, a failure what was there.
-/

namespace Recompile

/-- **Every reference within an analysis leads somewhere.** -/
structure Analysis.Coherent (a : Analysis) : Prop where
  /-- A class is listed by the recorded source that owns it. -/
  listed : a.Listed
  /-- An edge leads to a recorded source, and to another one. -/
  edges : ∀ p info, a.source? p = some info → ∀ dep, info.sourceDeps.contains dep = true →
    (dep == p) = false ∧ ∃ info', a.source? dep = some info'

theorem Analysis.coherent_empty : (∅ : Analysis).Coherent where
  listed := listed_empty
  edges p info h := absurd h (by simp)

/-- **The edges of a record stay within the module:** they lead to sources of the module other than the source that the
record is of. -/
def SourceInfo.Stays (info : SourceInfo) (digests : SortedMap Path Digest) (p : Path) : Prop :=
  ∀ dep, info.sourceDeps.contains dep = true → (dep == p) = false ∧ digests.contains dep = true

/-! ### One round -/

/-- If the units are for sources of the module and every recorded source is one, all owners are sources of the module. -/
theorem contains_of_classOwners {digests : SortedMap Path Digest} {a : Analysis} (ha : a.Listed)
    (hsources : ∀ p info, a.source? p = some info → digests.contains p = true) {units : List CompiledUnit}
    (hunits : ∀ u ∈ units, digests.contains u.source = true) {name : String} {owner : Path}
    (h : (classOwners a units).get? name = some owner) : digests.contains owner = true := by
  rw [get?_classOwners, Option.map_eq_some_iff] at h
  obtain ⟨k, hk, rfl⟩ := h
  rcases Option.or_eq_some_iff.1 hk with hunit | ⟨-, hold⟩
  · obtain ⟨u, hu, c, -, -, rfl⟩ := CompiledUnit.exists_class_of_recordIn hunit
    exact hunits u hu
  · obtain ⟨info, hinfo, -⟩ := ha name k hold
    exact hsources _ info hinfo

section Rounds

variable {digests : SortedMap Path Digest} {due : List Path} {a a' : Analysis} {c c' : Classpath}

open Engine in
/-- **A round makes all edges stay within the module** if those of the sources that it leaves alone do. -/
theorem Round.Follows.stays {r : Round} (h : r.Follows digests due a c c') (ha : a.Listed)
    (hunits : ∀ u ∈ r.units, digests.contains u.source = true)
    (hdue : ∀ p, p.Among due → digests.contains p = true) (hsettled : ∀ p, ¬ p.Among due → a.Settled digests c p)
    (hedges : ∀ p info, ¬ p.Among due → a.source? p = some info → info.Stays digests p)
    (p : Path) (info : SourceInfo) (hinfo : r.after.source? p = some info) : info.Stays digests p := by
  -- a source with which the round has nothing to do keeps its record
  have hkeeps : (digests.get? p = none ∨ ∀ u ∈ r.units, (u.source == p) = false) → ¬ p.Among due →
      info.Stays digests p :=
    fun hother hnot => hedges p info hnot (by rwa [← h.source?_of_untouched hnot hother])
  cases hd : digests.get? p with
  | none =>
    refine hkeeps (Or.inl hd) fun hp => ?_
    simpa [SortedMap.contains_iff, hd] using hdue p hp
  | some d =>
    by_cases hp : p.Among due ∨ ∃ u ∈ r.units, (u.source == p) = true
    · obtain ⟨info', hinfo', hrec⟩ := h.exists_source?_of_recorded hd hp
      obtain rfl := Option.some.inj (hinfo.symm.trans hinfo')
      have hleft : ∀ q info, (without due a).source? q = some info → digests.contains q = true := by
        intro q info hq
        by_cases hqdue : q.Among due
        · simp [source?_without_of_among hqdue] at hq
        · rw [source?_without_of_not_among hqdue] at hq
          exact (hsettled q hqdue).contains hq
      intro dep hdep
      obtain ⟨name, -, owner, howner, hother, hsame⟩ := (hrec.sourceDeps dep).1 hdep
      refine ⟨?_, ?_⟩
      · rwa [BEq.congr_left hsame, ← BEq.congr_right (unitFor_source r.units p)]
      · rw [SortedMap.contains_congr digests (Path.compare_eq_iff_beq.2 hsame)]
        exact contains_of_classOwners (without_listed ha due) hleft hunits howner
    · obtain ⟨hnot, hno⟩ := not_or.1 hp
      exact hkeeps (Or.inr fun u hu => by simpa using fun hup => hno ⟨u, hu, hup⟩) hnot

/-- **Rounds make all edges stay within the module** if those of the sources that are not due at the start do. -/
theorem Rounds.stays {left : Nat} {rs : List Round} (h : Rounds digests left due a c rs a' c')
    (hleft : left = 0 → due = []) (ha : a.Listed)
    (hunits : ∀ r ∈ rs, ∀ u ∈ r.units, digests.contains u.source = true)
    (hdue : ∀ p, p.Among due → digests.contains p = true) (hsettled : ∀ p, ¬ p.Among due → a.Settled digests c p)
    (hedges : ∀ p info, ¬ p.Among due → a.source? p = some info → info.Stays digests p)
    (p : Path) (info : SourceInfo) (hinfo : a'.source? p = some info) : info.Stays digests p := by
  induction h with
  | done h =>
    obtain rfl := h.elim hleft id
    exact hedges p info (Path.not_among_nil p) hinfo
  | @round left _ _ _ _ _ _ r _ _ first _ ih =>
    -- after the round all sources are settled, so the edges of those that come next stay as well
    have hafter := first.settled hdue hsettled
    have hstays := first.stays ha (hunits r List.mem_cons_self) hdue hsettled hedges
    refine ih (fun hzero => by rw [hzero]; rfl) (first.listed ha) (fun q hq => hunits q (List.mem_cons_of_mem _ hq))
      (fun q hq => ?_) (fun q _ => hafter q) (fun q info _ => hstays q info) hinfo
    obtain ⟨info, hinfo⟩ := r.exists_source?_of_next hq
    exact (hafter q).contains hinfo

end Rounds

/-! ### One compile -/

namespace Engine

variable {inputs : EngineInputs} {h : Host} {opened looked : Classpath} {due : SortedSet Path} {out : EngineOutput}

/-- The edges of the sources that the first round leaves alone stay within the module. An edge to a source that is gone
makes its source due. -/
theorem Trace.stays_of_not_due (trace : Trace inputs h opened due looked out) (hbase : inputs.baseline.Coherent)
    {p : Path} {info : SourceInfo} (hp : ¬ p.Among due.toList)
    (hinfo : (without (inputs.changes out.digests).deleted inputs.baseline).source? p = some info) :
    info.Stays out.digests p := by
  have hthere : out.digests.contains p = true := (trace.settled_of_not_due hp).contains hinfo
  have hrecorded : inputs.baseline.source? p = some info := by
    by_cases hgone : p.Among (inputs.changes out.digests).deleted
    · simp [source?_without_of_among hgone] at hinfo
    · rwa [source?_without_of_not_among hgone] at hinfo
  intro dep hdep
  obtain ⟨hother, hdepInfo⟩ := hbase.edges p info hrecorded dep hdep
  refine ⟨hother, ?_⟩
  by_contra hnot
  -- otherwise the target is gone, and then its dependents are invalidated
  have hgone : dep.Among (inputs.changes out.digests).deleted :=
    Changes.among_deleted.2 ⟨hdepInfo, SortedMap.contains_eq_false.1 (by simpa using hnot)⟩
  obtain ⟨gone, hmem, hsame⟩ := hgone
  refine hp (Path.among_toList.2 (trace.stale.keeps p (Changes.contains_invalidated.2 (Or.inr (Or.inr ?_)))))
  refine ⟨hthere, gone, hmem, ?_⟩
  exact Analysis.among_dependentsOf.2 ⟨info, hrecorded, by rwa [info.contains_congr hsame]⟩

/-- **A compile returns a coherent analysis** if it starts from one and the units are for sources of the module. -/
theorem Trace.coherent (trace : Trace inputs h opened due looked out) (hbase : inputs.baseline.Coherent)
    (hunits : ∀ r ∈ out.rounds, ∀ u ∈ r.units, u.source.Among inputs.options.sources) : out.analysis.Coherent where
  listed := trace.rounds.listed (without_listed hbase.listed _)
  edges := by
    intro p info hinfo dep hdep
    have hmodule : ∀ r ∈ out.rounds, ∀ u ∈ r.units, out.digests.contains u.source = true :=
      fun r hr u hu => (contains_sourceDigests trace.digests u.source).2 (hunits r hr u hu)
    have hstays : info.Stays out.digests p :=
      trace.rounds.stays (fun hzero => absurd hzero (by decide)) (without_listed hbase.listed _) hmodule
        (fun _ => trace.contains_of_among_due) (fun _ => trace.settled_of_not_due)
        (fun _ _ => trace.stays_of_not_due hbase) p info hinfo
    obtain ⟨hother, hthere⟩ := hstays dep hdep
    -- the target is a source of the module, and all of those are recorded
    obtain ⟨d, hd⟩ := SortedMap.contains_iff.1 hthere
    have hsettled := settled_of_trace trace dep
    simp only [Analysis.Settled, hd] at hsettled
    obtain ⟨info', hinfo', -⟩ := hsettled
    exact ⟨hother, info', hinfo'⟩

/-- After a successful compile the recorded sources are those that it was given. -/
theorem Trace.exists_source?_iff (trace : Trace inputs h opened due looked out) (p : Path) :
    (∃ info, out.analysis.source? p = some info) ↔ p.Among inputs.options.sources := by
  rw [← contains_sourceDigests trace.digests]
  have hsettled := settled_of_trace trace p
  constructor
  · rintro ⟨info, hinfo⟩
    exact hsettled.contains hinfo
  · intro hthere
    obtain ⟨d, hd⟩ := SortedMap.contains_iff.1 hthere
    simp only [Analysis.Settled, hd] at hsettled
    obtain ⟨info, hinfo, -⟩ := hsettled
    exact ⟨info, hinfo⟩

end Engine

/-! ### Runs of compiles -/

/-- A compile that starts from a store starts from a coherent analysis if the store holds one. -/
theorem EngineInputs.coherent_baseline {inputs : EngineInputs}
    (hprevious : ∀ previous, inputs.previous = some previous → previous.analysis.Coherent) :
    inputs.baseline.Coherent := by
  unfold baseline
  split
  · exact Analysis.coherent_empty
  next previous h =>
    split
    · exact hprevious previous h
    · exact Analysis.coherent_empty

/-- **An attempt to compile a module:** what is compiled, by which compiler, and the machine on which that starts. -/
structure Attempt (σ : Type) where
  module : Module
  compiler : SourceCompiler σ
  task : CompileTask
  session : Session σ

namespace Attempt

variable {σ : Type}

/-- How the attempt ends. -/
def result (c : Attempt σ) : Except CompileError CompileOutcome × Session σ :=
  ((c.module.compile c.compiler c.task).run.run c.session).run

/-- Whether the compiler only reports on sources of the task. It may leave out some, and it may report a class for several
sources. -/
def Accounted (c : Attempt σ) : Prop :=
  ∀ run ∈ c.module.engineRun c.compiler c.task c.session, ∀ r ∈ run.2.rounds, ∀ u ∈ r.units,
    u.source.Among c.task.sources

/-- **An attempt that succeeds** on a store that holds a coherent analysis, or none, yields a coherent analysis of its
sources. -/
theorem coherent_of_success {c : Attempt σ} (haccounted : c.Accounted) {outcome : CompileOutcome} {s : Session σ}
    (hends : c.result = (.ok outcome, s))
    (hstore : ∀ data, c.session.host.read c.module.store = .ok data → ∀ previous, Store.decode data = .ok previous →
      previous.analysis.Coherent) :
    outcome.analysis.Coherent ∧ ∀ p, (∃ info, outcome.analysis.source? p = some info) ↔ p.Among c.task.sources := by
  obtain ⟨previous, begun, out, state, hbegin, hengine, rfl, -⟩ := Module.yields_compile.1 hends
  obtain ⟨_, _, _, _, trace, -⟩ := Engine.exists_trace hengine
  have hbase : (c.module.inputs c.task previous).baseline.Coherent := by
    refine EngineInputs.coherent_baseline fun given hgiven => ?_
    obtain rfl : previous = some given := hgiven
    obtain ⟨hload, -⟩ := Module.of_yields_begin hbegin
    obtain ⟨data, hread, hdecode⟩ := Store.exists_read_of_loaded hload
    exact hstore data hread given hdecode
  exact ⟨trace.coherent hbase (haccounted _ (Module.engineRun_of_yields hbegin hengine)), trace.exists_source?_iff⟩

end Attempt

/-- **A run of attempts on one store,** and what the store reads as after it. There is no store at first. The sources, the
setup, the compiler and everything else on the machine may be other ones in every attempt; the store is what the last
success has left. -/
inductive Attempts {σ : Type} (store : Path) : List (Attempt σ) → Except Fault Bytes → Prop
  /-- Nothing was compiled yet. -/
  | start {fault : Fault} (missing : fault.kind = .notFound) : Attempts store [] (.error fault)
  /-- An attempt that succeeds. What it stores is not too long to be read. -/
  | success {cs : List (Attempt σ)} {data : Except Fault Bytes} {c : Attempt σ} {outcome : CompileOutcome} {s : Session σ}
      (earlier : Attempts store cs data) (same : c.module.store = store) (finds : c.session.host.read store = data)
      (ends : c.result = (.ok outcome, s))
      (small : (Store.encode ⟨outcome.analysis, c.module.setup c.task⟩).length < Codec.maxLength) :
      Attempts store (cs ++ [c]) (s.host.read store)
  /-- An attempt that fails leaves the store as it was. -/
  | failure {cs : List (Attempt σ)} {data : Except Fault Bytes} {c : Attempt σ} {error : CompileError} {s : Session σ}
      (earlier : Attempts store cs data) (same : c.module.store = store) (finds : c.session.host.read store = data)
      (ends : c.result = (.error error, s)) : Attempts store (cs ++ [c]) data

namespace Attempts

variable {σ : Type} {store : Path} {cs : List (Attempt σ)} {data : Except Fault Bytes}

/-- What the store holds after a run is coherent. -/
theorem coherent_of_decode (h : Attempts store cs data) (haccounted : ∀ c ∈ cs, c.Accounted) {bytes : Bytes}
    (hdata : data = .ok bytes) {contents : Contents} (hdecode : Store.decode bytes = .ok contents) :
    contents.analysis.Coherent := by
  induction h generalizing bytes contents with
  | start => simp at hdata
  | failure _ _ _ _ ih => exact ih (fun c hc => haccounted c (List.mem_append_left _ hc)) hdata hdecode
  | @success cs data c outcome s _ same finds ends small ih =>
    subst same
    -- the file holds what was committed, and the analysis before it was coherent
    rcases Module.read_of_yields_compile ends with hread | hread
    · obtain rfl := Except.ok.inj (hread.symm.trans hdata)
      obtain rfl := Except.ok.inj ((Store.decode_encode small).symm.trans hdecode)
      refine (Attempt.coherent_of_success (haccounted c (by simp)) ends fun bytes hbytes previous hprevious => ?_).1
      exact ih (fun c hc => haccounted c (List.mem_append_left _ hc)) (finds.symm.trans hbytes) hprevious
    · simp [hread] at hdata

/-- An attempt that succeeds after a run yields a coherent analysis of its sources. -/
theorem coherent_of_success (earlier : Attempts store cs data) (haccounted : ∀ c ∈ cs, c.Accounted) {c : Attempt σ}
    (hc : c.Accounted) (same : c.module.store = store) (finds : c.session.host.read store = data)
    {outcome : CompileOutcome} {s : Session σ} (ends : c.result = (.ok outcome, s)) :
    outcome.analysis.Coherent ∧ ∀ p, (∃ info, outcome.analysis.source? p = some info) ↔ p.Among c.task.sources := by
  subst same
  refine Attempt.coherent_of_success hc ends fun bytes hbytes previous hprevious => ?_
  exact earlier.coherent_of_decode haccounted (finds.symm.trans hbytes) hprevious

/-- **What a module stores hangs together.** In a run of attempts on one store, with successes and failures in any order,
let the compilers only report on sources of their tasks. Then every success stores an analysis of which the sources are
those that the compile was given, and in which every reference leads somewhere: classes are listed by the recorded source
that owns them, and edges lead to other recorded sources. -/
theorem analyses_coherent (h : Attempts store cs data) (haccounted : ∀ c ∈ cs, c.Accounted) :
    ∀ c ∈ cs, ∀ outcome s, c.result = (.ok outcome, s) →
      outcome.analysis.Coherent ∧
        ∀ p, (∃ info, outcome.analysis.source? p = some info) ↔ p.Among c.task.sources := by
  induction h with
  | start => simp
  | success earlier same finds _ _ ih | failure earlier same finds _ ih =>
    have hearlier := fun e he => haccounted e (List.mem_append_left _ he)
    intro c hc outcome s ends
    rcases List.mem_append.1 hc with hc | hc
    · exact ih hearlier c hc outcome s ends
    · obtain rfl := List.mem_singleton.1 hc
      exact earlier.coherent_of_success hearlier (haccounted c (by simp)) same finds ends

end Attempts

/-! ### A run with a failure and a source that goes -/

namespace Attempt

variable {σ : Type}

theorem exists_success {c : Attempt σ} (h : c.result.1.toBool = true) :
    ∃ outcome, c.result = (.ok outcome, c.result.2) := by
  obtain ⟨outcome, s, hrun⟩ := Action.exists_yields (x := c.module.compile c.compiler c.task) (s := c.session) h
  have hrun : c.result = (.ok outcome, s) := hrun
  exact ⟨outcome, by rw [hrun]⟩

theorem exists_failure {c : Attempt σ} (h : c.result.1.toBool = false) :
    ∃ error, c.result = (.error error, c.result.2) := by
  rcases hresult : c.result with ⟨r, s⟩
  cases r with
  | error e => exact ⟨e, rfl⟩
  | ok outcome => simp [hresult, Except.toBool] at h

end Attempt

private def smallToolchain : Toolchain := ⟨⟨2, 13, 12, none⟩, "lib.jar", "comp.jar", ⟨⟨"2.13.12", []⟩, ∅⟩⟩

/-- A compiler that finds a class in `A`, to which all sources refer. -/
private def sharing : SourceCompiler Unit := fun _ request =>
  return { units := request.sources.map fun p =>
    ⟨p, if p == "A" then [⟨"a", "a", ⟨1, 1⟩⟩] else [], SortedSet.ofList ["a"]⟩ }

private def attempt (sources : List Path) (scalacOptions : List String) (host : Host) : Attempt Unit where
  module := { compilers := ⟨smallToolchain, "bridge.jar"⟩, store := "analysis" }
  compiler := sharing
  task := ⟨[], sources, "classes", scalacOptions, []⟩
  session := ⟨host, ()⟩

/-- First `B` depends on `A`. -/
private def compiled : Attempt Unit :=
  attempt ["A", "B"] [] { files := ((∅ : Files).put ["A"] (.file [1] false)).put ["B"] (.file [2] false) }

/-- Then a source is missing. -/
private def refused : Attempt Unit := attempt ["A", "C"] [] compiled.result.2.host

/-- In the end `A` is gone, and the setup is another one. -/
private def reduced : Attempt Unit := attempt ["B"] ["-deprecation"] refused.result.2.host

/-- The edge from `B` to `A` goes with `A`. -/
theorem Attempts.coherent_without_source :
    ∃ data, Attempts "analysis" [compiled, refused, reduced] data ∧
      (∃ outcome s, compiled.result = (.ok outcome, s) ∧
        (outcome.analysis.source? "B").any (fun info => info.sourceDeps.contains "A") = true) ∧
      ∃ outcome s, reduced.result = (.ok outcome, s) ∧ outcome.analysis.Coherent ∧
        ∀ p, (∃ info, outcome.analysis.source? p = some info) ↔ p.Among reduced.task.sources := by
  have hfacts : compiled.result.1.toBool = true ∧ refused.result.1.toBool = false ∧ reduced.result.1.toBool = true ∧
      compiled.session.host.read "analysis" = .error (.ofKind .notFound) ∧
      refused.session.host.read "analysis" = compiled.result.2.host.read "analysis" ∧
      reduced.session.host.read "analysis" = compiled.result.2.host.read "analysis" ∧
      (∀ c ∈ [compiled, reduced], ∀ outcome ∈ c.result.1.toOption,
        (Store.encode ⟨outcome.analysis, c.module.setup c.task⟩).length < Codec.maxLength) ∧
      (∀ c ∈ [compiled, refused, reduced], ∀ run ∈ c.module.engineRun c.compiler c.task c.session,
        ∀ r ∈ run.2.rounds, ∀ u ∈ r.units, u.source.Among c.task.sources) ∧
      ∀ outcome ∈ compiled.result.1.toOption,
        (outcome.analysis.source? "B").any (fun info => info.sourceDeps.contains "A") = true := by
    decide +kernel
  obtain ⟨hcompiled, hrefused, hreduced, hnone, hkept, hkept', hsmall, haccounted, hedge⟩ := hfacts
  obtain ⟨first, hfirst⟩ := Attempt.exists_success hcompiled
  obtain ⟨error, hfails⟩ := Attempt.exists_failure hrefused
  obtain ⟨last, hlast⟩ := Attempt.exists_success hreduced
  have hsmall₁ := hsmall compiled (by simp) first (by rw [hfirst]; rfl)
  have hsmall₂ := hsmall reduced (by simp) last (by rw [hlast]; rfl)
  -- the attempt that fails leaves the store to the third one
  have hstart : Attempts (σ := Unit) "analysis" [] (.error (.ofKind .notFound)) := .start rfl
  have hrun : Attempts "analysis" [compiled, refused, reduced] (reduced.result.2.host.read "analysis") :=
    ((hstart.success rfl hnone hfirst hsmall₁).failure rfl hkept hfails).success rfl hkept' hlast hsmall₂
  refine ⟨_, hrun, ⟨first, _, hfirst, hedge first (by rw [hfirst]; rfl)⟩, last, _, hlast, ?_⟩
  exact Attempts.analyses_coherent hrun haccounted reduced (by simp) last _ hlast

end Recompile

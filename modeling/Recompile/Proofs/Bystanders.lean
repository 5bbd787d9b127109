import Recompile.Proofs.Calls
import Recompile.Proofs.ClassFiles

/-!
# Sources that a compile leaves alone

A compile takes records out of shared tables and puts others in, round after round. A recorded source that is there and that
no round compiles is a bystander: its record is never touched, and it is in no request. Its classes stay what they are as
well, unless the compiler reports a class of the same name. A removal takes only classes that the removed source owns
(`Analysis.class?_remove_of_ne`), so that what a round takes out is never a bystander's, and what it puts in has the names
that the units report (`Analysis.class?_record_of_other`).

The sources that are compiled end up recorded with the digest of what was read of them.
-/

namespace Recompile

open Recompile.Action

/-- Whether a class of some name is among those that a unit reports. -/
def CompiledUnit.Reports (u : CompiledUnit) (name : String) : Prop := ∃ c ∈ u.classes, c.name = name

/-! ### One step -/

section Units

variable {h : Host} {digests : SortedMap Path Digest} {owners : SortedMap String Path} {units : List CompiledUnit}
  {a : Analysis} {c : Classpath} {name : String} {k : ClassInfo}

/-- The class of a source that has no unit stays when units are recorded that report no class of its name. -/
theorem class?_recordEach_of_other (hk : a.class? name = some k) (hother : ∀ u ∈ units, (k.source == u.source) = false)
    (hnew : ∀ u ∈ units, ¬ u.Reports name) : (recordEach h digests owners units a c).1.class? name = some k := by
  induction units generalizing a c with
  | nil => exact hk
  | cons u rest ih =>
    obtain ⟨hfirst, hothers⟩ := List.forall_mem_cons.1 hother
    obtain ⟨hnone, hnews⟩ := List.forall_mem_cons.1 hnew
    unfold recordEach
    split
    next => exact ih hk hothers hnews
    next =>
      refine ih (Analysis.class?_record_of_other hk hfirst fun e he hname => hnone ?_) hothers hnews
      obtain ⟨c, hc, rfl⟩ := List.mem_map.1 he
      exact ⟨c, hc, hname⟩

/-- The class of a source that was not to be compiled stays when those without a unit are recorded. -/
theorem class?_recordWithoutUnit_of_other {compiled : SortedSet Path} {batch : List Path} (hk : a.class? name = some k)
    (hother : ∀ q ∈ batch, (k.source == q) = false) :
    (recordWithoutUnit digests compiled batch a).class? name = some k := by
  induction batch generalizing a with
  | nil => exact hk
  | cons q rest ih =>
    obtain ⟨hfirst, hothers⟩ := List.forall_mem_cons.1 hother
    rw [recordWithoutUnit_cons]
    refine ih ?_ hothers
    split
    · exact hk
    · split
      · exact hk
      · exact Analysis.class?_record_of_other hk hfirst (by simp)

theorem class?_recordUnits_of_other {batch : List Path} (hk : a.class? name = some k)
    (hbatch : ∀ q ∈ batch, (k.source == q) = false) (hother : ∀ u ∈ units, (k.source == u.source) = false)
    (hnew : ∀ u ∈ units, ¬ u.Reports name) : (recordUnits h digests batch units a c).1.class? name = some k :=
  class?_recordWithoutUnit_of_other (class?_recordEach_of_other hk hother hnew) hbatch

end Units

/-- The class of a source stays when others are taken out. -/
theorem Engine.class?_without_of_other {sources : List Path} {a : Analysis} {name : String} {k : ClassInfo}
    (hk : a.class? name = some k) (hother : ¬ k.source.Among sources) : (without sources a).class? name = some k := by
  rw [Path.not_among] at hother
  induction sources generalizing a with
  | nil => exact hk
  | cons q rest ih =>
    obtain ⟨hfirst, hothers⟩ := List.forall_mem_cons.1 hother
    exact ih (Analysis.class?_remove_of_ne hk (BEq.comm.trans hfirst)) hothers

/-! ### One round, and all rounds -/

/-- **A round leaves the classes of a source alone** that it does not compile, as long as its units are for its sources and
report no class of the same name. -/
theorem Round.Follows.class?_of_not_compiled {digests : SortedMap Path Digest} {due : List Path} {a : Analysis}
    {c c' : Classpath} {r : Round} (h : r.Follows digests due a c c') (hunits : r.Accounted) {name : String} {k : ClassInfo}
    (hk : a.class? name = some k) (hp : ¬ r.Compiles k.source) (hnew : ∀ u ∈ r.units, ¬ u.Reports name) :
    r.after.class? name = some k := by
  obtain ⟨m, hrecorded⟩ := h.recorded
  have hdue : ¬ k.source.Among due := by rwa [Round.Compiles, h.sources] at hp
  have hother : ∀ u ∈ r.units, (k.source == u.source) = false := by
    intro u hu
    by_contra hsame
    exact hp ((hunits u hu).congr (BEq.symm (by simpa using hsame)))
  have hbatch : ∀ q ∈ due, (k.source == q) = false := fun q hq => BEq.comm.trans (Path.not_among.1 hdue q hq)
  have hkept : (recordUnits m digests due r.units (Engine.without due a) c).1.class? name = some k :=
    class?_recordUnits_of_other (Engine.class?_without_of_other hk hdue) hbatch hother hnew
  rwa [hrecorded] at hkept

/-- **The classes of a source stay through rounds that do not compile it** and report no class of the same name. -/
theorem Rounds.class?_of_not_compiled {digests : SortedMap Path Digest} {left : Nat} {due : List Path} {a a' : Analysis}
    {c c' : Classpath} {rs : List Round} (h : Rounds digests left due a c rs a' c') (hunits : ∀ r ∈ rs, r.Accounted)
    {name : String} {k : ClassInfo} (hk : a.class? name = some k) (hp : ∀ r ∈ rs, ¬ r.Compiles k.source)
    (hnew : ∀ r ∈ rs, ∀ u ∈ r.units, ¬ u.Reports name) : a'.class? name = some k := by
  induction h with
  | done => exact hk
  | round _ first _ ih =>
    obtain ⟨hunit, hunits⟩ := List.forall_mem_cons.1 hunits
    obtain ⟨hround, hp⟩ := List.forall_mem_cons.1 hp
    obtain ⟨hnone, hnew⟩ := List.forall_mem_cons.1 hnew
    exact ih hunits (first.class?_of_not_compiled hunit hk hround hnone) hp hnew

/-! ### A compile -/

namespace Engine

section Compile

variable {σ : Type} {compiler : SourceCompiler σ} {inputs : EngineInputs} {s s' : EngineState σ} {out : EngineOutput}

/-- The sources that a compile lists are those that its rounds compile. -/
theorem Trace.among_recompiled {h : Host} {opened looked : Classpath} {due : SortedSet Path}
    (trace : Trace inputs h opened due looked out) {p : Path} : p.Among out.recompiled ↔ ∃ r ∈ out.rounds, r.Compiles p := by
  rw [trace.recompiled, Recompile.Engine.among_recompiled]
  constructor
  · rintro ⟨q, hq, hqp⟩
    obtain ⟨r, hr, hq⟩ := List.mem_flatMap.1 hq
    exact ⟨r, hr, q, hq, hqp⟩
  · rintro ⟨r, hr, q, hq, hqp⟩
    exact ⟨q, List.mem_flatMap.2 ⟨r, hr, hq⟩, hqp⟩

theorem exists_call_of_mem_units (hrun : (compile compiler inputs).Yields s out s') {r : Round} (hr : r ∈ out.rounds)
    {u : CompiledUnit} (hu : u ∈ r.units) : ∃ call ∈ calls compiler inputs s, u ∈ call.output.units := by
  have hall : u ∈ out.rounds.flatMap Round.units := List.mem_flatMap.2 ⟨r, hr, hu⟩
  rw [← (answered_of_yields hrun).units] at hall
  exact List.mem_flatMap.1 hall

theorem exists_compiles_of_mem_calls (hrun : (compile compiler inputs).Yields s out s') {call : CompilerCall}
    (hcall : call ∈ calls compiler inputs s) {p : Path} (hp : p.Among call.request.sources) :
    ∃ r ∈ out.rounds, r.Compiles p := by
  have hrequest : call.request ∈ (calls compiler inputs s).map CompilerCall.request := List.mem_map_of_mem hcall
  rw [(answered_of_yields hrun).requests] at hrequest
  obtain ⟨r, hr, hrequest⟩ := List.mem_flatMap.1 hrequest
  exact ⟨r, hr, Round.compiles_iff_requested.2 ⟨_, hrequest, hp⟩⟩

/-- **Bystanders are left alone, and what is compiled is recorded.** Let a compile start from the analysis of the one before.
A recorded source that is there and is not listed as compiled keeps its record, was in no request, and keeps its classes
unless the compiler reported a class of the same name. A source that is listed is recorded with the digest of what was read
of it. -/
theorem compile_leaves_bystanders (hcompiler : compiler.AnswersRequests) {previous : Contents}
    (hprevious : inputs.previous = some previous) (hsetup : previous.setup.isCompatible inputs.setup = true)
    (hrun : (compile compiler inputs).Yields s out s') :
    (∀ p info, previous.analysis.source? p = some info → p.Among inputs.options.sources → ¬ p.Among out.recompiled →
      out.analysis.source? p = some info ∧
      (∀ call ∈ calls compiler inputs s, ¬ p.Among call.request.sources) ∧
      ∀ name k, previous.analysis.class? name = some k → (k.source == p) = true →
        out.analysis.class? name = some k ∨ ∃ call ∈ calls compiler inputs s, ∃ u ∈ call.output.units, u.Reports name) ∧
    ∀ p, p.Among out.recompiled →
      ∃ info, out.analysis.source? p = some info ∧
        ∃ q ∈ inputs.options.sources, (q == p) = true ∧
          ∃ data, s.session.host.read q = .ok data ∧ info.digest = Digest.ofBytes data := by
  obtain ⟨opened, due, looked, _, trace, -⟩ := exists_trace hrun
  have hbaseline := EngineInputs.baseline_of_isCompatible hprevious hsetup
  have haccounted : ∀ r ∈ out.rounds, r.Accounted := fun r hr => accounted_of_mem_rounds hcompiler hrun hr
  refine ⟨fun p info hinfo hthere hp => ?_, fun p hp => ?_⟩
  · have hnever : ∀ r ∈ out.rounds, ¬ r.Compiles p := fun r hr hcompiles => hp (trace.among_recompiled.2 ⟨r, hr, hcompiles⟩)
    -- a source that is there is not dropped before the first round
    have hkept : ¬ p.Among (inputs.changes out.digests).deleted := by
      intro hgone
      have hnone := (Changes.among_deleted.1 hgone).2
      obtain ⟨d, hd⟩ := SortedMap.contains_iff.1 ((contains_sourceDigests trace.digests p).2 hthere)
      rw [hnone] at hd
      exact absurd hd (by simp)
    refine ⟨?_, fun call hcall hasked => ?_, fun name k hk howner => ?_⟩
    · rw [trace.rounds.source?_of_not_compiled haccounted hnever, source?_without_of_not_among hkept, hbaseline]
      exact hinfo
    · obtain ⟨r, hr, hcompiles⟩ := exists_compiles_of_mem_calls hrun hcall hasked
      exact hnever r hr hcompiles
    · refine or_iff_not_imp_right.2 fun hunreported => ?_
      have hstart : (without (inputs.changes out.digests).deleted inputs.baseline).class? name = some k :=
        class?_without_of_other (by rwa [hbaseline]) fun hgone => hkept (hgone.congr howner)
      refine trace.rounds.class?_of_not_compiled haccounted hstart (fun r hr hcompiles => ?_) fun r hr u hu hreports => ?_
      · exact hnever r hr (Path.Among.congr hcompiles howner)
      · obtain ⟨call, hcall, hu⟩ := exists_call_of_mem_units hrun hr hu
        exact hunreported ⟨call, hcall, u, hu, hreports⟩
  · obtain ⟨r, hr, hcompiles⟩ := trace.among_recompiled.1 hp
    obtain ⟨d, hd⟩ := SortedMap.contains_iff.1 (trace.contains_of_compiles hr hcompiles)
    have hsettled := settled_of_trace trace p
    unfold Analysis.Settled at hsettled
    simp only [hd] at hsettled
    obtain ⟨info, hinfo, hdigest, -⟩ := hsettled
    obtain ⟨q, hq, hqp, data, hdata, hof⟩ := exists_read_of_sourceDigests trace.digests hd
    exact ⟨info, hinfo, q, hq, hqp, data, hdata, hdigest.trans hof⟩

end Compile

/-! ### An edit with a bystander -/

namespace Edited

/-- A compiler that finds a class of its own name in every source, with a reference to the class of `A`. -/
def compiler : SourceCompiler Unit := fun _ request =>
  return { units := request.sources.map fun p => ⟨p, [⟨p.spelling, ⟨p.spelling ++ ".class"⟩, ⟨1, 1⟩⟩],
    SortedSet.ofList ["A"]⟩ }

/-- Three sources, of which `A` was edited after the last compile, `B` depends on `A`, and `C` depends on neither. -/
def inputs : EngineInputs where
  compilers := ⟨⟨⟨2, 13, 12, none⟩, "library.jar", "compiler.jar", ⟨⟨"2.13.12", []⟩, ∅⟩⟩, "bridge.jar"⟩
  options := ⟨["out"], ["A", "B", "C"], "out", [], [], .mixed⟩
  setup := ⟨"out", "2.13.12", [], [], .mixed⟩
  previous := some
    { analysis := (((∅ : Analysis).record "A" { digest := ⟨0, 0⟩ } [("A", ⟨"A", "A.class", ⟨0, 0⟩⟩)]).record "B"
        { digest := Digest.ofBytes [2], sourceDeps := SortedSet.ofList ["A"] } [("B", ⟨"B", "B.class", ⟨1, 1⟩⟩)]).record "C"
        { digest := Digest.ofBytes [3] } [("C", ⟨"C", "C.class", ⟨1, 1⟩⟩)]
      setup := ⟨"out", "2.13.12", [], [], .mixed⟩ }
  lookup := {}

/-- The machine with the three sources. -/
def state : EngineState Unit :=
  ⟨⟨{ files := (((∅ : Files).put ["A"] (.file [1] false)).put ["B"] (.file [2] false)).put ["C"] (.file [3] false) }, ()⟩,
    { maxErrors := 100 }⟩

theorem answersRequests_compiler : compiler.AnswersRequests := by
  intro compilers request before output after hrun u hu
  rw [(yields_pure.1 hrun).1] at hu
  obtain ⟨p, hp, rfl⟩ := List.mem_map.1 hu
  exact Path.among_of_mem hp

/-- The edit changes the class of `A`, so `B` is compiled in a round of its own. -/
theorem exists_yields_compile : ∃ out s', (compile compiler inputs).Yields state out s' ∧
    out.rounds.map (fun r => r.sources.map Path.spelling) = [["A"], ["B"]] ∧
    out.recompiled.map Path.spelling = ["A", "B"] := by
  have hlists : ((compile compiler inputs).run.run state).run.1.toOption.map (fun out =>
      (out.rounds.map fun r => r.sources.map Path.spelling, out.recompiled.map Path.spelling)) =
        some ([["A"], ["B"]], ["A", "B"]) := by
    decide +kernel
  obtain ⟨out, s', hrun⟩ := exists_yields (x := compile compiler inputs) (s := state) (by decide +kernel)
  rw [hrun] at hlists
  exact ⟨out, s', hrun, Prod.mk.inj (Option.some.inj hlists)⟩

end Edited

/-- `A` and `B` are compiled after the edit, and `C` is a bystander. -/
theorem compile_leaves_bystander_of_edit :
    ∃ previous out s', Edited.inputs.previous = some previous ∧
      (compile Edited.compiler Edited.inputs).Yields Edited.state out s' ∧
      out.recompiled.map Path.spelling = ["A", "B"] ∧ previous.analysis.source? "C" ≠ none ∧
      (∀ p info, previous.analysis.source? p = some info → p.Among Edited.inputs.options.sources →
        ¬ p.Among out.recompiled →
        out.analysis.source? p = some info ∧
        (∀ call ∈ calls Edited.compiler Edited.inputs Edited.state, ¬ p.Among call.request.sources) ∧
        ∀ name k, previous.analysis.class? name = some k → (k.source == p) = true →
          out.analysis.class? name = some k ∨ ∃ call ∈ calls Edited.compiler Edited.inputs Edited.state,
            ∃ u ∈ call.output.units, u.Reports name) ∧
      ∀ p, p.Among out.recompiled →
        ∃ info, out.analysis.source? p = some info ∧
          ∃ q ∈ Edited.inputs.options.sources, (q == p) = true ∧
            ∃ data, Edited.state.session.host.read q = .ok data ∧ info.digest = Digest.ofBytes data := by
  obtain ⟨out, s', hrun, -, hrecompiled⟩ := Edited.exists_yields_compile
  refine ⟨_, out, s', rfl, hrun, hrecompiled, by decide +kernel, ?_⟩
  exact compile_leaves_bystanders Edited.answersRequests_compiler rfl (by decide +kernel) hrun

end Engine

end Recompile

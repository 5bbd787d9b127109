import Recompile.Proofs.Bridges
import Recompile.Proofs.Table

/-!
# The classpath of a bootstrap compile

The sources of a bridge are compiled against what they depend on and the jars of the toolchain. A jar may come up in both,
or more than once in one of them, or in spellings that differ; the compiler takes a class from the first jar that has it, so
it matters what is left out. `FirstOccurrences` says which list is left of another one when paths are dropped that occurred
before, and `BridgeCache.IsClasspath` what the classpath is in terms of the artifacts and the jars.

The list is made before the compiler is called, and a call on a cache may make none or two of them. What passes between a
build and its tools is written down by the tools themselves (`BridgeTools.overheard`), and `BridgeCache.CompilesFound` is what
holds of these notes after every step: a compile is asked for right after its artifacts were found.
-/

namespace Recompile

open Recompile.Action

/-! ### First occurrences -/

/-- **The first occurrences of the paths of a list:** no path is there twice, and each of them is there as it is spelled where
it comes first, in the order in which they come first. -/
structure FirstOccurrences (offered kept : List Path) : Prop where
  different : kept.Pairwise fun p q => (p == q) = false
  same : ∀ p, kept.any (· == p) = offered.any (· == p)
  spelled : ∀ p ∈ kept, offered.find? (· == p) = some p
  ordered : kept.Pairwise fun p q => offered.findIdx (· == p) < offered.findIdx (· == q)

namespace BridgeCache

/-- A path is kept if it is in the list and was not seen before. -/
theorem any_distinct (seen offered : List Path) (p : Path) :
    (distinct seen offered).any (· == p) = (offered.any (· == p) && !seen.any (· == p)) := by
  fun_induction distinct seen offered with
  | case1 seen => rfl
  | case2 seen q rest hseen ih =>
    rw [ih, List.any_cons]
    cases hsame : q == p with
    | false => rw [Bool.false_or]
    | true =>
      -- it was offered, but it was seen before
      have hp : seen.any (· == p) = true := by simpa only [BEq.congr_right hsame] using hseen
      simp [hp]
  | case3 seen q rest hfresh ih =>
    rw [List.any_cons, List.any_cons, ih, List.any_cons]
    cases hsame : q == p with
    | false => rw [Bool.false_or, Bool.false_or, Bool.false_or]
    | true =>
      have hp : seen.any (· == p) = false := by simpa only [BEq.congr_right hsame, Bool.not_eq_true] using hfresh
      simp [hp]

theorem any_of_mem {p : Path} {l : List Path} (hp : p ∈ l) : l.any (· == p) = true :=
  List.any_eq_true.2 ⟨p, hp, BEq.rfl⟩

/-- What is kept was not seen before. -/
theorem fresh_of_mem_distinct {seen offered : List Path} {p : Path} (hp : p ∈ distinct seen offered) :
    seen.any (· == p) = false := by
  have hkept := any_of_mem hp
  rw [any_distinct] at hkept
  simpa using (Bool.and_eq_true_iff.1 hkept).2

/-- What is kept behind a path is another path. -/
theorem ne_of_mem_distinct {seen rest : List Path} {p q : Path} (hq : q ∈ distinct (p :: seen) rest) : (p == q) = false := by
  have hfresh := fresh_of_mem_distinct hq
  rw [List.any_cons] at hfresh
  exact (Bool.or_eq_false_iff.1 hfresh).1

/-- What is kept, where a path at the front was seen before, is another path. -/
theorem ne_of_seen {seen rest : List Path} {p q : Path} (hp : seen.any (· == p) = true) (hq : q ∈ distinct seen rest) :
    (p == q) = false := by
  by_contra hsame
  have hq' := fresh_of_mem_distinct hq
  simp only [← BEq.congr_right (by simpa using hsame : (p == q) = true), hp] at hq'
  contradiction

theorem pairwise_distinct (seen offered : List Path) :
    (distinct seen offered).Pairwise fun p q => (p == q) = false := by
  fun_induction distinct seen offered with
  | case1 seen => exact List.Pairwise.nil
  | case2 seen p rest hseen ih => exact ih
  | case3 seen p rest hfresh ih => exact List.Pairwise.cons (fun _ hq => ne_of_mem_distinct hq) ih

theorem find?_of_mem_distinct {seen offered : List Path} {p : Path} (hp : p ∈ distinct seen offered) :
    offered.find? (· == p) = some p := by
  fun_induction distinct seen offered with
  | case1 seen => contradiction
  | case2 seen q rest hseen ih =>
    rw [List.find?_cons_of_neg (by simp [ne_of_seen hseen hp])]
    exact ih hp
  | case3 seen q rest hfresh ih =>
    rcases List.mem_cons.1 hp with rfl | hlater
    · exact List.find?_cons_of_pos BEq.rfl
    · rw [List.find?_cons_of_neg (by simp [ne_of_mem_distinct hlater])]
      exact ih hlater

theorem findIdx_distinct (seen offered : List Path) :
    (distinct seen offered).Pairwise fun p q => offered.findIdx (· == p) < offered.findIdx (· == q) := by
  fun_induction distinct seen offered with
  | case1 seen => exact List.Pairwise.nil
  | case2 seen p rest hseen ih =>
    refine ih.imp_of_mem fun {q r} hq hr h => ?_
    rw [List.findIdx_cons, List.findIdx_cons, ne_of_seen hseen hq, ne_of_seen hseen hr]
    exact Nat.succ_lt_succ h
  | case3 seen p rest hfresh ih =>
    refine List.Pairwise.cons (fun q hq => ?_) (ih.imp_of_mem fun {q r} hq hr h => ?_)
    · rw [List.findIdx_cons, List.findIdx_cons, BEq.rfl, ne_of_mem_distinct hq]
      exact Nat.succ_pos _
    · rw [List.findIdx_cons, List.findIdx_cons, ne_of_mem_distinct hq, ne_of_mem_distinct hr]
      exact Nat.succ_lt_succ h

/-- **Dropping the paths that occurred before leaves the first occurrences.** -/
theorem firstOccurrences_distinct (offered : List Path) : FirstOccurrences offered (distinct [] offered) where
  different := pairwise_distinct [] offered
  same p := by rw [any_distinct, List.any_nil, Bool.not_false, Bool.and_true]
  spelled _ hp := find?_of_mem_distinct hp
  ordered := findIdx_distinct [] offered

/-! ### Which paths are on the classpath -/

/-- What is offered for a classpath: the files of the artifacts that nobody provides, then the jars of the toolchain. -/
def offered (resolved : List ResolvedArtifact) (toolchain : Toolchain) : List Path :=
  (resolved.filter fun a => a.scope != .provided).map ResolvedArtifact.path ++ toolchain.jars

/-- **A classpath for artifacts and a toolchain.** It has the paths of the artifacts that nobody provides and the jars of the
toolchain, each of them once and where it is offered first. The path of artifacts that are all provided is not there, unless
it is a jar of the toolchain. -/
structure IsClasspath (resolved : List ResolvedArtifact) (toolchain : Toolchain) (paths : List Path) : Prop
    extends FirstOccurrences (offered resolved toolchain) paths where
  members : ∀ p, paths.any (· == p) = true ↔
    (∃ a ∈ resolved, a.scope ≠ .provided ∧ (a.path == p) = true) ∨ toolchain.jars.any (· == p) = true
  provided : ∀ p, (∀ a ∈ resolved, (a.path == p) = true → a.scope = .provided) → toolchain.jars.any (· == p) = false →
    paths.any (· == p) = false

theorem any_offered {resolved : List ResolvedArtifact} {toolchain : Toolchain} {p : Path} :
    (offered resolved toolchain).any (· == p) = true ↔
      (∃ a ∈ resolved, a.scope ≠ .provided ∧ (a.path == p) = true) ∨ toolchain.jars.any (· == p) = true := by
  simp only [offered, List.any_append, List.any_map, Bool.or_eq_true, List.any_eq_true, List.mem_filter, bne_iff_ne,
    Function.comp_apply, and_assoc]

/-- **The classpath that is made is one.** -/
theorem isClasspath_classpath (resolved : List ResolvedArtifact) (toolchain : Toolchain) :
    IsClasspath resolved toolchain (classpath resolved toolchain) := by
  have hfirst : FirstOccurrences (offered resolved toolchain) (classpath resolved toolchain) :=
    firstOccurrences_distinct (offered resolved toolchain)
  have hmembers : ∀ p, (classpath resolved toolchain).any (· == p) = true ↔
      (∃ a ∈ resolved, a.scope ≠ .provided ∧ (a.path == p) = true) ∨ toolchain.jars.any (· == p) = true :=
    fun p => by rw [hfirst.same, any_offered]
  refine { hfirst with members := hmembers, provided := fun p hprovided hjars => ?_ }
  by_contra hthere
  rcases (hmembers p).1 (by simpa using hthere) with ⟨a, ha, hscope, hpath⟩ | hjar
  · exact hscope (hprovided a ha hpath)
  · simp [hjars] at hjar

end BridgeCache

/-! ### What passes between a build and its tools -/

/-- **What is overheard of a build:** artifacts that were found, and a compile that is asked for. -/
inductive Exchange
  | found (a : Artifact) (resolved : List ResolvedArtifact)
  | handed (r : BootstrapRequest)

section Overhearing

variable {σ α : Type}

/-- A step of a tool that is overheard by nobody. -/
def aside (x : Action (Session σ) BridgeError α) : Action (Session (σ × List Exchange)) BridgeError α :=
  Action.onPart (fun s => ⟨s.host, s.tool.1⟩) (fun t s => ⟨t.host, (t.tool, s.tool.2)⟩) x

/-- Adds to what was overheard. -/
def overhear (e : Exchange) : Action (Session (σ × List Exchange)) BridgeError Unit :=
  Session.onTool fun tool => (tool.1, tool.2 ++ [e])

/-- The tools, where it is overheard what artifacts they find and what they are to compile. -/
def BridgeTools.overheard (tools : BridgeTools σ) : BridgeTools (σ × List Exchange) where
  resolver :=
    { resolve := fun a => aside (tools.resolver.resolve a)
      closure := fun a => do
        let resolved ← aside (tools.resolver.closure a)
        overhear (.found a resolved)
        return resolved }
  compiler := fun r => do
    overhear (.handed r)
    aside (tools.compiler r)

theorem ends_aside (x : Action (Session σ) BridgeError α) (s : Session (σ × List Exchange)) :
    (aside x).Ends s (fun _ t => t.tool.2 = s.tool.2) fun _ t => t.tool.2 = s.tool.2 where
  success a t hrun := by
    obtain ⟨_, -, rfl⟩ := yields_onPart.1 hrun
    rfl
  failure e t hrun := by
    obtain ⟨_, -, rfl⟩ := fails_onPart.1 hrun
    rfl

theorem ends_overhear (e : Exchange) (s : Session (σ × List Exchange)) :
    (overhear e).Ends s (fun _ t => t.tool.2 = s.tool.2 ++ [e]) fun _ _ => False where
  success a t hrun := by
    obtain rfl := yields_modify.1 hrun
    rfl
  failure e t hrun := not_fails_modify hrun

end Overhearing

namespace BridgeCache

/-- **Compiles of what was found.** Each of them is asked for right after artifacts were found for the sources of the bridge,
for the toolchain and with the classpath that is made of the two. -/
def CompilesFound (toolchain : Toolchain) (key : BridgeKey) (exchanges : List Exchange) : Prop :=
  ∀ (i : Nat) r, exchanges[i]? = some (.handed r) → ∃ j resolved, i = j + 1 ∧
    exchanges[j]? = some (.found (sourcesOf key) resolved) ∧ r.toolchain = toolchain ∧ r.classpath = classpath resolved toolchain

namespace CompilesFound

variable {toolchain : Toolchain} {key : BridgeKey} {exchanges exchanges' : List Exchange}

theorem nil : CompilesFound toolchain key [] := fun i r h => by simp at h

theorem found (a : Artifact) (resolved : List ResolvedArtifact) : CompilesFound toolchain key [.found a resolved] := by
  intro i r hi
  cases i <;> simp at hi

theorem handed {resolved : List ResolvedArtifact} {r : BootstrapRequest} (htoolchain : r.toolchain = toolchain)
    (hclasspath : r.classpath = classpath resolved toolchain) :
    CompilesFound toolchain key [.found (sourcesOf key) resolved, .handed r] := by
  intro i r' hi
  match i, hi with
  | 0, hi => simp at hi
  | 1, hi =>
    obtain rfl : r = r' := by simpa using hi
    exact ⟨0, resolved, rfl, rfl, htoolchain, hclasspath⟩

/-- What is asked for after what was found stays behind it, whatever came before. -/
theorem append (h : CompilesFound toolchain key exchanges) (h' : CompilesFound toolchain key exchanges') :
    CompilesFound toolchain key (exchanges ++ exchanges') := by
  intro i r hi
  rcases Nat.lt_or_ge i exchanges.length with hlt | hge
  · rw [List.getElem?_append_left hlt] at hi
    obtain ⟨j, resolved, rfl, hj, hr⟩ := h i r hi
    exact ⟨j, resolved, rfl, by rwa [List.getElem?_append_left (by omega)], hr⟩
  · rw [List.getElem?_append_right hge] at hi
    obtain ⟨j, resolved, hij, hj, hr⟩ := h' _ r hi
    refine ⟨exchanges.length + j, resolved, by omega, ?_, hr⟩
    rwa [List.getElem?_append_right (by omega), Nat.add_sub_cancel_left]

end CompilesFound

/-- **Notes that go on** from earlier ones, with compiles of what was found in between. -/
def GoesOn (toolchain : Toolchain) (key : BridgeKey) (before after : List Exchange) : Prop :=
  ∃ exchanges, CompilesFound toolchain key exchanges ∧ after = before ++ exchanges

section Runs

variable {toolchain : Toolchain} {key : BridgeKey} {before after later : List Exchange}

theorem GoesOn.refl (before : List Exchange) : GoesOn toolchain key before before := ⟨[], .nil, (List.append_nil _).symm⟩

theorem GoesOn.trans (h : GoesOn toolchain key before after) (h' : GoesOn toolchain key after later) :
    GoesOn toolchain key before later := by
  obtain ⟨exchanges, hfound, rfl⟩ := h
  obtain ⟨exchanges', hfound', rfl⟩ := h'
  exact ⟨exchanges ++ exchanges', hfound.append hfound', List.append_assoc _ _ _⟩

variable {σ : Type} {tools : BridgeTools σ} {coordinates : Coordinates}

/-- **What is overheard of a build.** One that succeeds has found artifacts and asked for the compile of them; one that fails
has asked for no compile but of what it found. -/
theorem overheard_build (dest : Path) (s : Session (σ × List Exchange)) :
    (build tools.overheard toolchain coordinates key dest).Ends s
      (fun _ t => ∃ resolved r, t.tool.2 = s.tool.2 ++ [.found (sourcesOf key) resolved, .handed r] ∧
        r.toolchain = toolchain ∧ r.classpath = classpath resolved toolchain)
      fun _ t => GoesOn toolchain key s.tool.2 t.tool.2 := by
  refine ends_build (P := fun (u : σ × List Exchange) => u.2 = s.tool.2)
    (R := fun resolved (u : σ × List Exchange) => u.2 = s.tool.2 ++ [Exchange.found (sourcesOf key) resolved])
    (Q := fun (u : σ × List Exchange) => ∃ resolved r, u.2 = s.tool.2 ++ [.found (sourcesOf key) resolved, .handed r] ∧
      r.toolchain = toolchain ∧ r.classpath = classpath resolved toolchain)
    (E := fun (u : σ × List Exchange) => GoesOn toolchain key s.tool.2 u.2)
    ?_ (fun t ht => ?_) (fun resolved _ h => ⟨_, .found _ resolved, h⟩)
    (fun _ ⟨_, _, h, htoolchain, hclasspath⟩ => ⟨_, .handed htoolchain hclasspath, h⟩)
    fun resolved r t ht htoolchain hclasspath => ?_
  · -- nothing is noted before the closure is found
    have hresolve := ends_aside (tools.resolver.resolve (sourcesOf key)) s
    exact hresolve.mono (fun _ _ h => h) fun _ _ h => h ▸ .refl _
  · have hclosure := ends_aside (tools.resolver.closure (sourcesOf key)) t
    refine Ends.bind (hclosure.mono (fun _ _ h => h.trans ht) fun _ _ h => h.trans ht ▸ .refl _) fun resolved t₁ h₁ => ?_
    refine Ends.bind ((ends_overhear _ t₁).mono (fun _ _ h => h) fun _ _ h => h.elim) fun _ t₂ h₂ => ends_pure ?_
    rw [h₂, h₁]
  · refine Ends.bind ((ends_overhear _ t).mono (fun _ _ h => h) fun _ _ h => h.elim) fun _ t₁ h₁ => ?_
    have hasked : t₁.tool.2 = s.tool.2 ++ [.found (sourcesOf key) resolved, .handed r] := by
      rw [h₁, ht, List.append_assoc, List.singleton_append]
    have hcompile := ends_aside (tools.compiler r) t₁
    exact hcompile.mono (fun _ _ h => ⟨resolved, r, h.trans hasked, htoolchain, hclasspath⟩)
      fun _ _ h => ⟨_, .handed htoolchain hclasspath, h.trans hasked⟩

/-- **A call asks for no compile but of what was found,** whatever the table has and however often it builds. -/
theorem overheard_ensure {c c' : BridgeCache} {s s' : Session (σ × List Exchange)} {r : Except BridgeError Path}
    (hcall : ((c.ensure tools.overheard toolchain coordinates key).run s).run = ((r, c'), s')) :
    GoesOn toolchain key s.tool.2 s'.tool.2 := by
  refine keeps_ensure (J := fun (t : Session (σ × List Exchange)) => GoesOn toolchain key s.tool.2 t.tool.2)
    (fun _ _ h => h) (fun t ht => ?_) (.refl _) hcall
  refine (overheard_build (c.jar key) t).mono (fun _ t' h => ht.trans ?_) fun _ t' h => ht.trans h
  obtain ⟨resolved, r, ht', htoolchain, hclasspath⟩ := h
  exact ⟨_, .handed htoolchain hclasspath, ht'⟩

end Runs

/-- **The classpath of a bootstrap compile.** Of all artifacts and every toolchain a classpath is made that has the path of each
artifact that nobody provides and each jar of the toolchain, once, and in the order in which they are offered first. A build
that succeeds has handed this classpath to the compiler, made of the artifacts that were found for the sources of the bridge;
and no call on a cache, whatever its outcome, hands any other classpath to the compiler. -/
theorem hands_classpath {σ : Type} (tools : BridgeTools σ) (toolchain : Toolchain) (coordinates : Coordinates) (key : BridgeKey) :
    (∀ resolved, IsClasspath resolved toolchain (classpath resolved toolchain)) ∧
    (∀ dest s s', (build tools.overheard toolchain coordinates key dest).Yields s () s' →
      ∃ resolved r, s'.tool.2 = s.tool.2 ++ [.found (sourcesOf key) resolved, .handed r] ∧
        r.toolchain = toolchain ∧ IsClasspath resolved toolchain r.classpath) ∧
    ∀ (c : BridgeCache) s, ∃ exchanges,
      ((c.ensure tools.overheard toolchain coordinates key).run s).run.2.tool.2 = s.tool.2 ++ exchanges ∧
      ∀ (i : Nat) r, exchanges[i]? = some (.handed r) → ∃ j resolved, i = j + 1 ∧
        exchanges[j]? = some (.found (sourcesOf key) resolved) ∧
        r.toolchain = toolchain ∧ IsClasspath resolved toolchain r.classpath := by
  refine ⟨fun resolved => isClasspath_classpath resolved toolchain, fun dest s s' hrun => ?_, fun c s => ?_⟩
  · obtain ⟨resolved, r, hnotes, htoolchain, hclasspath⟩ := (overheard_build dest s).success () s' hrun
    exact ⟨resolved, r, hnotes, htoolchain, hclasspath ▸ isClasspath_classpath resolved toolchain⟩
  · rcases hcall : ((c.ensure tools.overheard toolchain coordinates key).run s).run with ⟨⟨r, c'⟩, s'⟩
    obtain ⟨exchanges, hfound, hnotes⟩ := overheard_ensure hcall
    refine ⟨exchanges, hnotes, fun i r hi => ?_⟩
    obtain ⟨j, resolved, hij, hj, htoolchain, hclasspath⟩ := hfound i r hi
    exact ⟨j, resolved, hij, hj, htoolchain, hclasspath ▸ isClasspath_classpath resolved toolchain⟩

/-- Artifacts that share a file, also with a toolchain, or are there for nothing. -/
private def repeated : List ResolvedArtifact :=
  [⟨⟨"g", "x", "1", none⟩, "/l//x.jar", .compile⟩, ⟨⟨"g", "p", "1", none⟩, "/p.jar", .provided⟩,
    ⟨⟨"g", "l", "2", none⟩, "l", .provided⟩, ⟨⟨"g", "x", "1", none⟩, "/l/./x.jar", .runtime⟩,
    ⟨⟨"g", "k", "2", none⟩, "k", .test⟩]

/-- A toolchain with two jars. -/
private def twoJars : Toolchain := ⟨⟨2, 13, 0, none⟩, "l", "k", ⟨⟨"2", ["k/", "l"]⟩, ∅⟩⟩

/-- The sources are in the archive `/s`, and the compiler writes nothing. -/
private def repeatingTools : BridgeTools Unit := ⟨⟨fun _ => pure "/s", fun _ => pure repeated⟩, fun _ => pure ()⟩

private def archiveSession : Session (Unit × List Exchange) :=
  ⟨{ files := Files.put ∅ ["s"] (.file (Zip.encode []) false), temp := "/" }, ((), [])⟩

private def emptyCache : BridgeCache := ⟨"/c", ⟨"1", "4"⟩, "3", ∅⟩

/-- The classpath of a compile as it is spelled. -/
private def handedPaths? : Exchange → Option (List String)
  | .found _ _ => none
  | .handed r => some (r.classpath.map Path.spelling)

private def bridgeKey : BridgeKey := ⟨"g", "b", "1", "2", "3", "4"⟩

/-- A build hands over one path for each file, in the spelling that came first, and so does a call that builds. A file that is
provided is among them if it is a jar of the toolchain. -/
theorem hands_classpath_of_repeated :
    (∃ resolved r s', (build repeatingTools.overheard twoJars {} bridgeKey "/j").Yields archiveSession () s' ∧
      s'.tool.2 = [.found (sourcesOf bridgeKey) resolved, .handed r] ∧
      r.classpath.map Path.spelling = ["/l//x.jar", "k", "l"] ∧ IsClasspath resolved twoJars r.classpath) ∧
    ∃ resolved r s', ((emptyCache.ensure repeatingTools.overheard twoJars {} bridgeKey).run archiveSession).run.2 = s' ∧
      s'.tool.2[0]? = some (.found (sourcesOf bridgeKey) resolved) ∧ s'.tool.2[1]? = some (.handed r) ∧
      r.classpath.map Path.spelling = ["/l//x.jar", "k", "l"] ∧ IsClasspath resolved twoJars r.classpath := by
  -- the runs are evaluated once: they succeed, and these are the class paths that were handed over
  have hfacts :
      ((build repeatingTools.overheard twoJars {} bridgeKey "/j").run.run archiveSession).run.1.toBool = true ∧
      ((build repeatingTools.overheard twoJars {} bridgeKey "/j").run.run archiveSession).run.2.tool.2.map handedPaths? =
        [none, some ["/l//x.jar", "k", "l"]] ∧
      ((emptyCache.ensure repeatingTools.overheard twoJars {} bridgeKey).run archiveSession).run.2.tool.2.map handedPaths? =
        [none, some ["/l//x.jar", "k", "l"]] := by
    decide +kernel
  obtain ⟨hsucceeds, hbuilt, hcalled⟩ := hfacts
  obtain ⟨-, hbuild, hensure⟩ := hands_classpath repeatingTools twoJars {} bridgeKey
  refine ⟨?_, ?_⟩
  · obtain ⟨_, s', hrun⟩ := exists_yields hsucceeds
    obtain ⟨resolved, r, hnotes, -, hclasspath⟩ := hbuild "/j" archiveSession s' hrun
    refine ⟨resolved, r, s', hrun, hnotes, ?_, hclasspath⟩
    have hpaths : s'.tool.2.map handedPaths? = [none, some ["/l//x.jar", "k", "l"]] := by rw [← hbuilt, hrun]
    simpa [hnotes, archiveSession, handedPaths?] using hpaths
  · obtain ⟨exchanges, hnotes, hfound⟩ := hensure emptyCache archiveSession
    have hnotes' : ((emptyCache.ensure repeatingTools.overheard twoJars {} bridgeKey).run archiveSession).run.2.tool.2 =
      exchanges := hnotes
    rw [hnotes'] at hcalled
    have hlast : exchanges[1]?.map handedPaths? = some (some ["/l//x.jar", "k", "l"]) := by
      rw [← List.getElem?_map, hcalled]
      rfl
    obtain ⟨e, he, hpaths⟩ := Option.map_eq_some_iff.1 hlast
    cases e with
    | found a resolved => simp [handedPaths?] at hpaths
    | handed r =>
      obtain ⟨j, resolved, hj, hresolved, -, hclasspath⟩ := hfound 1 r he
      -- the closure was found right before
      obtain rfl : j = 0 := by omega
      exact ⟨resolved, r, _, rfl, hnotes' ▸ hresolved, hnotes' ▸ he, Option.some.inj hpaths, hclasspath⟩

end BridgeCache

end Recompile

import Recompile.Proofs.Linkless
import Recompile.Proofs.OutputDirectory
import Recompile.Proofs.Packaging
import Recompile.Proofs.Scratch

/-!
# Attempts to build a bridge

A bridge that is missing is built from its sources: they are resolved, what they depend on is resolved too, and what comes
of the compile is packaged. An attempt may fail at any of these steps, and the three parts of this module say what it has
done by then, each of them for every outcome: what it has asked of its tools (`BridgeCache.requests_build`), what has become
of the scratch directories (`BridgeCache.tidy_build`), and what has become of the jar (`BridgeCache.LeavesJar.build`).

What an attempt leaves alone has to be said for the last part. The tools may do what they like to the rest of the machine,
but not to the jar (`BridgeCache.LeavesJar`). That comes down to the tools alone where there are no links and the jar is not
in a scratch directory (`BridgeCache.leavesJar_of_linkless`).
-/

namespace Recompile

/-! ### What a build asks of its tools -/

/-- **A request to the tools of a build.** -/
inductive BridgeRequest
  | resolve (a : Artifact)
  | closure (a : Artifact)
  | compile (r : BootstrapRequest)

section Noting

variable {σ α : Type}

/-- A step of a tool that is noted first. -/
def noting (q : BridgeRequest) (x : Action (Session σ) BridgeError α) :
    Action (Session (σ × List BridgeRequest)) BridgeError α := do
  modify fun s => { s with tool := (s.tool.1, s.tool.2 ++ [q]) }
  Action.onPart (fun s => ⟨s.host, s.tool.1⟩) (fun t s => ⟨t.host, (t.tool, s.tool.2)⟩) x

/-- The tools, with a note of everything that they are asked for. -/
def BridgeTools.recording (tools : BridgeTools σ) : BridgeTools (σ × List BridgeRequest) where
  resolver :=
    { resolve := fun a => noting (.resolve a) (tools.resolver.resolve a)
      closure := fun a => noting (.closure a) (tools.resolver.closure a) }
  compiler := fun r => noting (.compile r) (tools.compiler r)

variable {q : BridgeRequest} {x : Action (Session σ) BridgeError α}

theorem ends_noting (s : Session (σ × List BridgeRequest)) :
    (noting q x).Ends s (fun _ t => t.tool.2 = s.tool.2 ++ [q]) fun _ t => t.tool.2 = s.tool.2 ++ [q] where
  success a t hrun := by
    obtain ⟨_, s₁, hnote, hpart⟩ := Action.yields_bind.1 hrun
    obtain rfl := Action.yields_modify.1 hnote
    obtain ⟨_, -, rfl⟩ := Action.yields_onPart.1 hpart
    rfl
  failure e t hrun := by
    obtain ⟨_, s₁, hnote, hpart⟩ := (Action.fails_bind.1 hrun).resolve_left Action.not_fails_modify
    obtain rfl := Action.yields_modify.1 hnote
    obtain ⟨_, -, rfl⟩ := Action.fails_onPart.1 hpart
    rfl

/-- A note changes nothing about the machine. -/
theorem Action.Keeps.noting {J : Host → Prop} {P : α → Prop} (hx : x.Keeps (fun s => J s.host) P) :
    (noting q x).Keeps (fun s => J s.host) P := by
  unfold Recompile.noting
  refine Action.Keeps.bind (P := fun _ => True) (Action.keeps_modify fun _ h => h) fun _ _ => ?_
  exact hx.onPart fun _ _ => rfl

end Noting

namespace BridgeCache

open Recompile.Action

variable {σ : Type} {tools : BridgeTools σ} {toolchain : Toolchain} {coordinates : Coordinates} {key : BridgeKey}

/-! ### The requests of an attempt -/

/-- **One attempt to build a bridge:** its sources are resolved, then what they depend on, and what comes of that is
compiled, up to a failure. -/
def OneAttempt (key : BridgeKey) (calls : List BridgeRequest) : Prop :=
  calls = [.resolve (sourcesOf key)] ∨ calls = [.resolve (sourcesOf key), .closure (sourcesOf key)] ∨
    ∃ r, calls = [.resolve (sourcesOf key), .closure (sourcesOf key), .compile r]

section Tools

variable {τ : Type} {tools' : BridgeTools τ} {s : Session τ} {Q E : τ → Prop}

/-- **What compiling and packaging does to the tools** is what the compile does to them, which is asked for with the classpath
that was given; unpacking, looking for sources and packaging leave them alone. -/
theorem ends_compileAndPackage {compiler : BootstrapCompiler τ} {mainClass version : String} {classpath : List Path}
    {archive dest sources classes : Path} (hbefore : E s.tool) (hafter : ∀ u, Q u → E u)
    (hcompile : ∀ r t, r.toolchain = toolchain → r.classpath = classpath → t.tool = s.tool →
      (compiler r).Ends t (fun _ t => Q t.tool) fun _ t => E t.tool) :
    (compileAndPackage compiler toolchain mainClass version classpath archive dest sources classes).Ends s
      (fun _ t => Q t.tool) fun _ t => E t.tool := by
  -- only the compiler changes the state of the tool
  have honHost : ∀ {α : Type} (x : Action Host BridgeError α) (t : Session τ),
      (Session.onHost x).Ends t (fun _ t' => t'.tool = t.tool) fun _ t' => t'.tool = t.tool := by
    intro α x t
    have hends := (keeps_tool (x := x) (T := (· = t.tool))).ends (s := t) rfl
    exact hends.mono (fun _ _ h => h.1) fun _ _ h => h
  unfold compileAndPackage
  refine Ends.bind ((honHost _ s).discard.mono (fun _ _ h => h) fun _ _ h => h ▸ hbefore) fun _ s₁ h₁ => ?_
  refine Ends.bind ((honHost _ s₁).mono (fun _ _ h => h) fun _ _ h => by rwa [h, h₁]) fun found s₂ h₂ => ?_
  refine Ends.bind (hcompile _ s₂ rfl rfl (h₂.trans h₁)) fun _ s₃ h₃ => ?_
  exact (honHost _ s₃).mono (fun _ _ h => h ▸ h₃) fun _ _ h => hafter _ (h ▸ h₃)

/-- **What a build does to the tools:** it asks for the sources, then for what they depend on, and then for a compile with the
classpath that this makes. -/
theorem ends_build {P : τ → Prop} {R : List ResolvedArtifact → τ → Prop} {dest : Path}
    (hresolve : (tools'.resolver.resolve (sourcesOf key)).Ends s (fun _ t => P t.tool) fun _ t => E t.tool)
    (hclosure : ∀ t, P t.tool →
      (tools'.resolver.closure (sourcesOf key)).Ends t (fun resolved t => R resolved t.tool) fun _ t => E t.tool)
    (hbefore : ∀ resolved u, R resolved u → E u) (hafter : ∀ u, Q u → E u)
    (hcompile : ∀ resolved r t, R resolved t.tool → r.toolchain = toolchain → r.classpath = classpath resolved toolchain →
      (tools'.compiler r).Ends t (fun _ t => Q t.tool) fun _ t => E t.tool) :
    (build tools' toolchain coordinates key dest).Ends s (fun _ t => Q t.tool) fun _ t => E t.tool := by
  unfold build
  refine Ends.bind hresolve fun archive s₁ h₁ => ?_
  refine Ends.bind (hclosure s₁ h₁) fun resolved s₂ h₂ => ?_
  -- making and removing the scratch directories asks nobody
  refine ends_withScratch (fun _ => hbefore resolved _ h₂) fun files _ => ?_
  refine ends_withScratch (fun _ => hbefore resolved _ h₂) fun files' _ => ?_
  refine ends_compileAndPackage (hbefore resolved _ h₂) hafter fun r t htoolchain hclasspath ht => ?_
  exact hcompile resolved r t (ht ▸ h₂) htoolchain hclasspath

end Tools

/-- **A build makes one attempt,** however it ends. -/
theorem requests_build (dest : Path) (s : Session (σ × List BridgeRequest)) :
    (build tools.recording toolchain coordinates key dest).Ends s
      (fun _ t => ∃ calls, OneAttempt key calls ∧ t.tool.2 = s.tool.2 ++ calls)
      fun _ t => ∃ calls, OneAttempt key calls ∧ t.tool.2 = s.tool.2 ++ calls := by
  have hresolve := ends_noting (q := .resolve (sourcesOf key)) (x := tools.resolver.resolve (sourcesOf key)) s
  have hclosure := fun t => ends_noting (q := .closure (sourcesOf key)) (x := tools.resolver.closure (sourcesOf key)) t
  -- what has been asked, after the sources, after their closure and in the end
  refine ends_build (P := fun (u : σ × List BridgeRequest) => u.2 = s.tool.2 ++ [.resolve (sourcesOf key)])
    (R := fun _ (u : σ × List BridgeRequest) => u.2 = s.tool.2 ++ [.resolve (sourcesOf key), .closure (sourcesOf key)])
    (Q := fun (u : σ × List BridgeRequest) => ∃ calls, OneAttempt key calls ∧ u.2 = s.tool.2 ++ calls)
    (E := fun (u : σ × List BridgeRequest) => ∃ calls, OneAttempt key calls ∧ u.2 = s.tool.2 ++ calls)
    ?_ (fun t ht => ?_) (fun _ _ h => ?_) (fun _ h => h) fun _ r t ht _ _ => ?_
  · exact hresolve.mono (fun _ _ h => h) fun _ _ h => ⟨_, Or.inl rfl, h⟩
  · -- what is asked next comes behind what was asked first
    have hboth : ∀ u : Session (σ × List BridgeRequest), u.tool.2 = t.tool.2 ++ [.closure (sourcesOf key)] →
        u.tool.2 = s.tool.2 ++ [.resolve (sourcesOf key), .closure (sourcesOf key)] := fun u hu => by
      rw [hu, ht, List.append_assoc, List.singleton_append]
    exact (hclosure t).mono (fun _ u h => hboth u h) fun _ u h => ⟨_, Or.inr (Or.inl rfl), hboth u h⟩
  · exact ⟨_, Or.inr (Or.inl rfl), h⟩
  · have hall : ∀ u : Session (σ × List BridgeRequest), u.tool.2 = t.tool.2 ++ [.compile r] →
        ∃ calls, OneAttempt key calls ∧ u.tool.2 = s.tool.2 ++ calls :=
      fun u hu => ⟨_, Or.inr (Or.inr ⟨r, rfl⟩), by rw [hu, ht, List.append_assoc]; rfl⟩
    exact (ends_noting (q := .compile r) (x := tools.compiler r) t).mono (fun _ u h => hall u h) fun _ u h => hall u h

/-! ### The scratch directories of an attempt -/

/-- **Tools that keep out of the scratch directories' way:** the resolver makes none of them, and none of the tools moves
the machine to another place. The compiler may do anything in the scratch directories. -/
structure KeepsTidy (tools : BridgeTools σ) (temp : Path) (cwd : Location) : Prop where
  resolves : ∀ a, (tools.resolver.resolve a).Keeps (fun s => Tidy temp cwd s.host) fun _ => True
  closes : ∀ a, (tools.resolver.closure a).Keeps (fun s => Tidy temp cwd s.host) fun _ => True
  compiles : ∀ r, (tools.compiler r).Keeps (fun s => At temp cwd s.host) fun _ => True

theorem KeepsTidy.recording {temp : Path} {cwd : Location} (h : KeepsTidy tools temp cwd) :
    KeepsTidy tools.recording temp cwd where
  resolves a := (h.resolves a).noting
  closes a := (h.closes a).noting
  compiles r := (h.compiles r).noting

theorem keeps_at_compileAndPackage {temp : Path} {cwd : Location} (h : KeepsTidy tools temp cwd)
    (mainClass version : String) (classpath : List Path) (archive dest sources classes : Path) :
    (compileAndPackage tools.compiler toolchain mainClass version classpath archive dest sources classes).Keeps
      (fun s => At temp cwd s.host) fun _ => True := by
  have hfiles : ∀ h files, At temp cwd h → At temp cwd { h with files } := fun _ _ hat => ⟨hat.temp_eq, hat.cwd_eq⟩
  have hunzip : (Session.onHost (Jar.unzip archive sources) : Action (Session σ) BridgeError Nat).Keeps
      (fun s => At temp cwd s.host) fun _ => True := 
    (Jar.keeps_unzip (fun _ _ _ h _ _ hat => hfiles h _ hat) (fun _ _ h files _ _ hat _ => hfiles h files hat) archive).onHost
  unfold compileAndPackage
  refine Keeps.bind (P := fun _ => True) (hunzip.bind fun _ _ => keeps_pure trivial) fun _ _ => ?_
  refine Keeps.bind (P := fun _ => True) (keeps_ask _ _).onHost fun found _ => ?_
  exact (h.compiles _).bind fun _ _ => (Jar.keeps_package hfiles _ _ _).onHost

/-- **No scratch directory is left by a build,** however it ends. -/
theorem tidy_build {temp : Path} {cwd : Location} (h : KeepsTidy tools temp cwd) (dest : Path) {s : Session σ}
    (hs : Tidy temp cwd s.host) : (build tools toolchain coordinates key dest).Ends s
      (fun _ t => Tidy temp cwd t.host) fun _ t => Tidy temp cwd t.host := by
  unfold build
  refine Ends.bind ((h.resolves _).ends hs) fun archive s₁ h₁ => ?_
  refine Ends.bind ((h.closes _).ends h₁.1) fun resolved s₂ h₂ => ?_
  exact tidy_withScratch (fun sources classes => keeps_at_compileAndPackage h _ _ _ _ _ _ _) h₂.1

/-! ### The jar of an attempt -/

/-- The bytes of the file at a path, if there is one. -/
def bytesAt? (p : Path) (h : Host) : Option Bytes := (h.read p).toOption

theorem bytesAt?_eq_some_iff {p : Path} {h : Host} {data : Bytes} : bytesAt? p h = some data ↔ h.read p = .ok data :=
  toOption_eq_some_iff

theorem bytesAt?_eq_none_iff {p : Path} {h : Host} : bytesAt? p h = none ↔ h.isFile p = false := by
  rw [Option.eq_none_iff_forall_ne_some, ← Bool.not_eq_true]
  constructor
  · intro hnone hfile
    obtain ⟨loc, data, executable, hplace⟩ := Files.isFile_iff.1 hfile
    exact hnone data (bytesAt?_eq_some_iff.2 (Files.read_eq_ok_iff.2 ⟨loc, executable, hplace⟩))
  · intro hfile data hdata
    obtain ⟨loc, executable, hplace⟩ := Files.read_eq_ok_iff.1 (bytesAt?_eq_some_iff.1 hdata)
    exact hfile (Files.isFile_iff.2 ⟨loc, data, executable, hplace⟩)

/-- **A jar that nothing but packaging touches.** There is a property `I` of the machine that goes on holding. As long as it
does, whatever a build does apart from packaging leaves the bytes at the path of the jar as they are, or leaves none: the
tools do, directories that are made do, and so does what happens in the scratch directories. And there is no link at the
path. -/
structure LeavesJar (tools : BridgeTools σ) (temp jar : Path) (I : Host → Prop) : Prop where
  temp_eq : ∀ h, I h → h.temp = temp
  logs : ∀ h log, I h → I { h with log }
  resolves : ∀ a v, (tools.resolver.resolve a).Keeps (fun s => I s.host ∧ bytesAt? jar s.host = v) fun _ => True
  closes : ∀ a v, (tools.resolver.closure a).Keeps (fun s => I s.host ∧ bytesAt? jar s.host = v) fun _ => True
  compiles : ∀ r v, (tools.compiler r).Keeps (fun s => I s.host ∧ bytesAt? jar s.host = v) fun _ => True
  makes : ∀ h files, I h → h.files.AddsDirs files → I { h with files } ∧ bytesAt? jar { h with files } = bytesAt? jar h
  unpacks : ∀ archive v, (Jar.unzip archive (temp / sourcesName)).Keeps (fun h => I h ∧ bytesAt? jar h = v) fun _ => True
  clears : ∀ h name, name = sourcesName ∨ name = classesName → I h →
    I { h with files := withScratch.remove h (temp / name) } ∧
      bytesAt? jar { h with files := withScratch.remove h (temp / name) } = bytesAt? jar h
  replaces : ∀ h files data, I h → h.files.replace h.cwd jar data = .ok files → I { h with files }
  unlinked : ∀ h loc target, I h → h.files.place h.cwd false jar ≠ .ok ⟨loc, some (.link target)⟩

/-- **A jar that was packaged by an attempt:** what the tools compiled was packaged at once, where no jar was, and the bytes
that were written are the bytes of the jar. -/
def Packaged (tools : BridgeTools σ) (key : BridgeKey) (jar : Path) (h : Host) : Prop :=
  ∃ request t₁ t₂ packaged data, (tools.compiler request).Yields t₁ () t₂ ∧ t₂.host.isFile jar = false ∧
    (Jar.package request.output (.forBridge key.version) jar).Yields t₂.host () packaged ∧
    packaged.read jar = .ok data ∧ h.read jar = .ok data

theorem Packaged.congr {jar : Path} {h h' : Host} (hp : Packaged tools key jar h) (hsame : bytesAt? jar h' = bytesAt? jar h) :
    Packaged tools key jar h' := by
  obtain ⟨request, t₁, t₂, packaged, data, hcompiled, hnone, hpackaged, hdata, hread⟩ := hp
  refine ⟨request, t₁, t₂, packaged, data, hcompiled, hnone, hpackaged, hdata, ?_⟩
  rw [← bytesAt?_eq_some_iff] at hread ⊢
  exact hsame.trans hread

theorem Packaged.isFile {jar : Path} {h : Host} (hp : Packaged tools key jar h) : h.isFile jar = true := by
  obtain ⟨_, _, _, _, data, -, -, -, -, hread⟩ := hp
  rw [← Bool.not_eq_false, ← bytesAt?_eq_none_iff, bytesAt?_eq_some_iff.2 hread]
  simp

variable {temp jar : Path} {I : Host → Prop}

theorem LeavesJar.recording (leaves : LeavesJar tools temp jar I) : LeavesJar tools.recording temp jar I :=
  { leaves with
    resolves := fun a v => (leaves.resolves a v).noting (J := fun h => I h ∧ bytesAt? jar h = v)
    closes := fun a v => (leaves.closes a v).noting (J := fun h => I h ∧ bytesAt? jar h = v)
    compiles := fun r v => (leaves.compiles r v).noting (J := fun h => I h ∧ bytesAt? jar h = v) }

/-- Packaging where no jar was leaves one, or leaves none. -/
theorem LeavesJar.package (leaves : LeavesJar tools temp jar I) (classes : Path) (manifest : Manifest) {h : Host}
    (hI : I h) : (Jar.package classes manifest jar).Ends h
      (fun _ h' => I h' ∧ ∃ data, h'.read jar = .ok data) fun _ h' => I h' ∧ bytesAt? jar h' = bytesAt? jar h where
  success _ h' hrun := by
    obtain ⟨paths, contents, files, -, -, -, hreplace, rfl⟩ := Jar.yields_package.1 hrun
    have hprepared := (leaves.makes h _ hI (Jar.prepared_addsDirs jar h)).1
    have hlink := fun loc target => leaves.unlinked _ loc target hprepared
    have hafter := fun data => leaves.replaces { h with files := Jar.prepared jar h } files data hprepared
    dsimp only at hlink hafter
    exact ⟨hafter _ hreplace, _, Files.read_of_replace hlink hreplace⟩
  failure _ h' hrun := by
    rcases Jar.of_fails_package hrun with rfl | rfl
    · exact ⟨hI, rfl⟩
    · exact leaves.makes h _ hI (Jar.prepared_addsDirs jar h)

/-- What is compiled where no jar is becomes one, or there is none. -/
theorem LeavesJar.compileAndPackage (leaves : LeavesJar tools temp jar I) (mainClass : String) (classpath : List Path)
    (archive classes : Path) (s : Session σ) (hs : I s.host ∧ bytesAt? jar s.host = none) :
    (BridgeCache.compileAndPackage tools.compiler toolchain mainClass key.version classpath archive jar
      (temp / sourcesName) classes).Ends s
      (fun _ t => I t.host ∧ Packaged tools key jar t.host) fun _ t => I t.host ∧ bytesAt? jar t.host = none := by
  unfold BridgeCache.compileAndPackage
  refine Ends.bind (((leaves.unpacks archive none).onHost.ends hs).mono (fun _ _ h => h.1) fun _ _ h => h).discard
    fun _ s₁ h₁ => ?_
  have hask := (keeps_ask (I := fun h => I h ∧ bytesAt? jar h = none) (BridgeError.file (temp / sourcesName)) fun h =>
    h.list (temp / sourcesName) (isSource h)).onHost.ends h₁
  refine Ends.bind (hask.mono (fun _ _ h => h.1) fun _ _ h => h) fun sources s₂ h₂ => ?_
  -- the compile of which the result is packaged
  have hcompile := leaves.compiles ⟨toolchain, mainClass, sources, classpath, classes, []⟩ none
  refine Ends.bind (Q := fun _ t => (I t.host ∧ bytesAt? jar t.host = none) ∧
    (tools.compiler ⟨toolchain, mainClass, sources, classpath, classes, []⟩).Yields s₂ () t) ?_ fun _ s₃ h₃ => ?_
  · exact ⟨fun _ t hrun => ⟨hcompile.state h₂ hrun, hrun⟩, fun _ t hrun => hcompile.state h₂ hrun⟩
  obtain ⟨⟨hI, hnone⟩, hcompiled⟩ := h₃
  have hpackage := leaves.package classes (.forBridge key.version) hI
  refine ⟨fun _ t hrun => ?_, fun _ t hrun => ?_⟩
  · obtain ⟨packaged, hpackaged, rfl⟩ := Session.yields_onHost.1 hrun
    obtain ⟨hafter, data, hdata⟩ := hpackage.success _ _ hpackaged
    exact ⟨hafter, _, s₂, s₃, packaged, data, hcompiled, bytesAt?_eq_none_iff.1 hnone, hpackaged, hdata, hdata⟩
  · obtain ⟨_, hfails, rfl⟩ := Session.fails_onHost.1 hrun
    obtain ⟨hafter, hsame⟩ := hpackage.failure _ _ hfails
    exact ⟨hafter, hsame.trans hnone⟩

/-- Making a scratch directory leaves that there is no jar. -/
theorem LeavesJar.made (leaves : LeavesJar tools temp jar I) {h : Host} {files : Files} {p : Path}
    (hI : I h ∧ bytesAt? jar h = none) (hmake : h.files.makeDir h.cwd p = .ok files) :
    I { h with files } ∧ bytesAt? jar { h with files } = none := by
  obtain ⟨hafter, hsame⟩ := leaves.makes h files hI.1 (Files.makeDir_addsDirs hmake)
  exact ⟨hafter, hsame.trans hI.2⟩

theorem LeavesJar.unscratched (leaves : LeavesJar tools temp jar I) {name : Path}
    (hname : name = sourcesName ∨ name = classesName) (s : Session σ) (hI : I s.host) :
    I (BridgeCache.unscratched (temp / name) s).host ∧
      bytesAt? jar (BridgeCache.unscratched (temp / name) s).host = bytesAt? jar s.host :=
  leaves.clears s.host name hname hI

/-- **A build that succeeds leaves the jar that it packaged, and one that fails leaves none,** where there was none. -/
theorem LeavesJar.build (leaves : LeavesJar tools temp jar I) {s : Session σ} (hI : I s.host)
    (hnone : bytesAt? jar s.host = none) : (BridgeCache.build tools toolchain coordinates key jar).Ends s
      (fun _ t => I t.host ∧ Packaged tools key jar t.host) fun _ t => I t.host ∧ bytesAt? jar t.host = none := by
  unfold BridgeCache.build
  refine Ends.bind (((leaves.resolves _ none).ends ⟨hI, hnone⟩).mono (fun _ _ h => h.1) fun _ _ h => h) fun archive s₁ h₁ => ?_
  refine Ends.bind (((leaves.closes _ none).ends h₁).mono (fun _ _ h => h.1) fun _ _ h => h) fun resolved s₂ h₂ => ?_
  obtain rfl := leaves.temp_eq _ h₂.1
  refine ends_withScratch (fun _ => h₂) fun files hfirst => ?_
  have h₃ := leaves.made h₂ hfirst
  have hsources := fun t => leaves.unscratched (Or.inl rfl) t
  have hclasses := fun t => leaves.unscratched (Or.inr rfl) t
  refine ends_withScratch (fun _ => ?_) fun files' hsecond => ?_
  · obtain ⟨hafter, hsame⟩ := hsources ⟨{ s₂.host with files }, s₂.tool⟩ h₃.1
    exact ⟨hafter, hsame.trans h₃.2⟩
  dsimp only at hsecond ⊢
  have h₄ := leaves.made h₃ hsecond
  dsimp only at h₄
  -- removing the directories leaves a jar that was packaged, or that there is none
  refine (leaves.compileAndPackage _ _ archive _ ⟨{ s₂.host with files := files' }, s₂.tool⟩ h₄).mono (fun _ t ht => ?_)
    fun _ t ht => ?_
  · obtain ⟨hI₁, hsame₁⟩ := hclasses t ht.1
    obtain ⟨hI₂, hsame₂⟩ := hsources _ hI₁
    exact ⟨hI₂, ht.2.congr (hsame₂.trans hsame₁)⟩
  · obtain ⟨hI₁, hsame₁⟩ := hclasses t ht.1
    obtain ⟨hI₂, hsame₂⟩ := hsources _ hI₁
    exact ⟨hI₂, (hsame₂.trans hsame₁).trans ht.2⟩

/-! ### Machines without links -/

/-- **A machine without links** on which a jar is in directories if it is there at all. -/
structure Linkless (temp : Path) (cwd : Location) (jar : Path) (h : Host) : Prop extends At temp cwd h where
  links : h.files.Linkless
  inDirs : ∀ data executable,
    h.files.node? (Files.placeOf cwd jar) = some (.file data executable) →
      h.files.DirsBetween (Files.start cwd jar) (Files.placeOf cwd jar)

section Plain

variable {cwd : Location} {h : Host} {files : Files} (hup : ".." ∉ Files.steps jar)

include hup

/-- **A change that leaves the jar and what is above it** leaves the bytes of the jar. -/
theorem Linkless.change (hI : Linkless temp cwd jar h) (hlinks : files.Linkless)
    (habove : ∀ loc node, loc <+: Files.placeOf cwd jar →
      h.files.node? loc = some node → files.node? loc = some node)
    (hjar : ∀ data executable,
      files.node? (Files.placeOf cwd jar) = some (.file data executable) →
        h.files.node? (Files.placeOf cwd jar) = some (.file data executable)) :
    Linkless temp cwd jar { h with files } ∧ bytesAt? jar { h with files } = bytesAt? jar h := by
  have hafter : Linkless temp cwd jar { h with files } :=
    { temp_eq := hI.temp_eq
      cwd_eq := hI.cwd_eq
      links := hlinks
      inDirs := fun data executable hnode other hfirst hsecond hne hend =>
        habove other _ hsecond (hI.inDirs data executable (hjar data executable hnode) other hfirst hsecond hne hend) }
  -- a jar that is found before or after is at its place in both trees
  have hfound : ∀ {k k' : Host}, Linkless temp cwd jar k → Linkless temp cwd jar k' →
      (∀ data executable,
        k.files.node? (Files.placeOf cwd jar) = some (.file data executable) →
          k'.files.node? (Files.placeOf cwd jar) = some (.file data executable)) →
      ∀ data, k.read jar = .ok data → k'.read jar = .ok data := by
    intro k k' hk hk' hsame data hread
    obtain ⟨loc, executable, hplace⟩ := Files.read_eq_ok_iff.1 hread
    rw [hk.cwd_eq] at hplace
    obtain rfl := hk.links.place_loc hplace
    obtain ⟨hpath, hwalk⟩ := Files.place_eq_ok_iff.1 hplace
    have hnode := hsame data executable (((Files.place_end hplace).resolve_left (by simp)).2.symm)
    have hthere := hk.links.walk_of_way hup hwalk (hk'.inDirs data executable hnode) hnode
    have hagain := Files.place_eq_ok_iff.2 ⟨hpath, hthere⟩
    rw [← hk'.cwd_eq] at hagain
    exact Files.read_eq_ok_iff.2 ⟨_, executable, hagain⟩
  refine ⟨hafter, Option.ext fun data => ?_⟩
  rw [bytesAt?_eq_some_iff, bytesAt?_eq_some_iff]
  exact ⟨hfound hafter hI hjar data, hfound hI hafter (fun d x hnode => habove _ _ (List.prefix_refl _) hnode) data⟩

/-- Directories that are made leave the jar. -/
theorem Linkless.addsDirs (hI : Linkless temp cwd jar h) (hadds : h.files.AddsDirs files) :
    Linkless temp cwd jar { h with files } ∧ bytesAt? jar { h with files } = bytesAt? jar h := by
  refine hI.change hup (fun loc target hlink => ?_) (fun loc node _ hnode => hadds.kept loc node hnode)
    fun data executable hfile => (hadds.only _ _ hfile).resolve_right (by simp)
  exact hI.links loc target ((hadds.only _ _ hlink).resolve_right (by simp))

/-- What happens below a location leaves a jar that is not below it. -/
theorem Linkless.below (hI : Linkless temp cwd jar h) {base : Location}
    (hapart : ¬ base <+: Files.placeOf cwd jar) (hlinks : files.Linkless)
    (hsame : ∀ loc, ¬ base <+: loc → files.node? loc = h.files.node? loc) :
    Linkless temp cwd jar { h with files } ∧ bytesAt? jar { h with files } = bytesAt? jar h := by
  refine hI.change hup hlinks (fun loc node habove hnode => ?_) fun data executable hfile => ?_
  · rwa [hsame loc fun hback => hapart (hback.trans habove)]
  · rwa [← hsame _ hapart]

/-- A file that is written below a directory leaves a jar that is not below it. -/
theorem Linkless.write (hI : Linkless temp cwd jar h) {dest relative : Path} {name : String} {data : Bytes}
    (hdest : dest.spelling ≠ "") (hapart : ¬ Files.placeOf cwd dest <+: Files.placeOf cwd jar)
    (hrelative : Zip.Member.enclosed? name = some relative)
    (hwrite : h.files.write h.cwd (dest / relative) data = .ok files) :
    Linkless temp cwd jar { h with files } ∧ bytesAt? jar { h with files } = bytesAt? jar h := by
  obtain ⟨r, executable, hr, hold, rfl⟩ := Files.exists_put_of_write hwrite
  rw [hI.cwd_eq] at hr
  obtain ⟨habsolute, hbelow⟩ := Files.prefix_spelled_of_enclosed hrelative
  -- without links the names lead where they read, and the relative ones never back out
  have hloc : Files.placeOf cwd dest <+: r.loc := by
    rw [hI.links.place_loc hr, Files.placeOf_join hdest habsolute]
    exact hbelow _
  have hput : ∀ loc, (h.files.put r.loc (.file data executable)).node? loc =
      if loc = r.loc then some (.file data executable) else h.files.node? loc := by
    have hdir : r.node ≠ some .dir := fun hdir => by simpa using hold _ hdir
    exact Files.node?_put h.files ((Files.place_end hr).resolve_left hdir).1 _
  refine hI.below hup hapart (fun loc target hlink => ?_) fun loc hout => ?_
  · rw [hput] at hlink
    split at hlink
    · simp at hlink
    · exact hI.links loc target hlink
  · rw [hput, if_neg]
    rintro rfl
    exact hout hloc

/-- A directory that is removed leaves a jar that is not below it. -/
theorem Linkless.remove (hI : Linkless temp cwd jar h) {dir : Path}
    (hapart : ¬ Files.placeOf cwd dir <+: Files.placeOf cwd jar) :
    Linkless temp cwd jar { h with files := withScratch.remove h dir } ∧
      bytesAt? jar { h with files := withScratch.remove h dir } = bytesAt? jar h := by
  have hplaced : withScratch.remove h dir = h.files ∨ withScratch.remove h dir = h.files.drop (Files.placeOf cwd dir) := by
    unfold withScratch.remove
    split
    next hremove =>
      obtain ⟨loc, node, hplace, -, rfl⟩ := Files.removeTree_eq_ok_iff.1 hremove
      rw [hI.cwd_eq] at hplace
      exact Or.inr (congrArg h.files.drop (hI.links.place_loc hplace))
    next => exact Or.inl rfl
  rcases hplaced with hsame | hsame
  · rw [hsame]
    exact ⟨hI, rfl⟩
  rw [hsame]
  -- the root is above the jar, so it is not what was removed
  have hroot : Files.placeOf cwd dir ≠ [] := fun hroot => hapart (by simp [hroot])
  refine hI.below hup hapart (fun loc target hlink => ?_) fun loc hout => ?_
  · exact hI.links loc target (Files.keptIn_drop _ _ loc _ hlink)
  · rw [Files.node?_drop _ hroot, if_neg hout]

/-- A jar that takes its place is in directories. -/
theorem Linkless.replace (hI : Linkless temp cwd jar h) {data : Bytes} (hreplace : h.files.replace h.cwd jar data = .ok files) :
    Linkless temp cwd jar { h with files } := by
  obtain ⟨-, loc, node, hplace, hdir, rfl⟩ := Files.replace_eq_ok_iff.1 hreplace
  have hput : ∀ other, (h.files.put loc (.file data false)).node? other =
      if other = loc then some (.file data false) else h.files.node? other :=
    Files.node?_put h.files ((Files.place_end hplace).resolve_left hdir).1 _
  rw [hI.cwd_eq] at hplace
  obtain rfl := hI.links.place_loc hplace
  -- the jar itself is now a file, but what was above it had to be a directory to write it
  have hdirs := (hI.links.walk_dirs hup (Files.place_eq_ok_iff.1 hplace).2).2
  refine { temp_eq := hI.temp_eq, cwd_eq := hI.cwd_eq, links := fun other target hlink => ?_, inDirs := ?_ }
  · rw [hput] at hlink
    split at hlink
    · simp at hlink
    · exact hI.links other target hlink
  · intro _ _ _ other hfirst hsecond hne hend
    rw [hput, if_neg hend]
    exact hdirs other hfirst hsecond hne hend

/-- **Where there are no links, an attempt leaves the jar alone** if its tools do, and if the jar is in none of the scratch
directories. -/
theorem leavesJar_of_linkless
    (hapart : ∀ name, name = sourcesName ∨ name = classesName →
      ¬ Files.placeOf cwd (temp / name) <+: Files.placeOf cwd jar)
    (hresolves : ∀ a v, (tools.resolver.resolve a).Keeps
      (fun s => Linkless temp cwd jar s.host ∧ bytesAt? jar s.host = v) fun _ => True)
    (hcloses : ∀ a v, (tools.resolver.closure a).Keeps
      (fun s => Linkless temp cwd jar s.host ∧ bytesAt? jar s.host = v) fun _ => True)
    (hcompiles : ∀ r v, (tools.compiler r).Keeps
      (fun s => Linkless temp cwd jar s.host ∧ bytesAt? jar s.host = v) fun _ => True) :
    LeavesJar tools temp jar (Linkless temp cwd jar) where
  temp_eq _ hI := hI.temp_eq
  logs _ _ hI := ⟨⟨hI.temp_eq, hI.cwd_eq⟩, hI.links, hI.inDirs⟩
  resolves := hresolves
  closes := hcloses
  compiles := hcompiles
  makes _ _ hI hadds := hI.addsDirs hup hadds
  unpacks archive v := by
    -- making directories adds no links, and files go below the directory of the sources, away from the jar
    refine Jar.keeps_unzip (fun _ _ _ k _ _ hk => ?_) (fun name relative k files data hrelative hk hwrite => ?_) archive
    · obtain ⟨hI, rfl⟩ := hk
      exact hI.addsDirs hup (Files.makeDirAll_addsDirs _ _ _)
    · obtain ⟨hI, rfl⟩ := hk
      exact hI.write hup (isEntry_sourcesName.join_ne_empty temp) (hapart _ (Or.inl rfl)) hrelative hwrite
  clears _ _ hname hI := hI.remove hup (hapart _ hname)
  replaces _ _ _ hI hreplace := hI.replace hup hreplace
  unlinked _ _ target hI hplace := by
    have hnode := ((Files.place_end hplace).resolve_left (by simp)).2
    exact hI.links _ target hnode.symm

end Plain

end BridgeCache

end Recompile

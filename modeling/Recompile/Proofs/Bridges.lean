import Recompile.Proofs.BridgeAttempt

/-!
# Bridges are built once, when they are missing

A cache of bridges remembers two things: the disk has the jars, and the table of the cache has the jars that this cache
has built. The two can disagree, since a jar may be deleted behind the back of the cache, or appear, and a build may fail.
`BridgeCache.Served` are the caches that a build can come to by any calls, on machines that have nothing to do with each
other, and `BridgeCache.Served.ensure_spec` says what the next call does there: it looks only, if the jar is there, and
otherwise makes one attempt to build it.

What one attempt does is known from `Recompile.Proofs.BridgeAttempt`. Here it is put behind the table, which never has
anything but the path of the jar of a key (`BridgeCache.Served.faithful`), so that it does not matter which of the two
memories is asked. One thing must not happen between them: no link may stand at the path of the jar, since the jar takes
the place of the link and may be in the way of its own path then (`BridgeCache.ensure_attempts_twice`).
-/

namespace Recompile

namespace BridgeCache

open Recompile.Action

variable {σ : Type} {tools : BridgeTools σ} {toolchain : Toolchain} {coordinates : Coordinates} {key : BridgeKey}

/-! ### Calls on one cache -/

/-- **What a call does.** It finds the jar; or it asks the table for the jar, which fails or yields a file; or it asks the
table for the second time, after what was there was dropped. -/
theorem of_ensure {c c' : BridgeCache} {s s' : Session σ} {r : Except BridgeError Path}
    (hcall : ((c.ensure tools toolchain coordinates key).run s).run = ((r, c'), s')) :
    ∃ e, (s.host.isFile (c.jar key) = true ∧ r = .ok (c.jar key) ∧ c' = c ∧ s' = { s with host := s.host.logged e }) ∨
      s.host.isFile (c.jar key) = false ∧ ∃ r₁ built t,
        ((c.built.getOrInit key (install tools toolchain coordinates key (c.jar key)).run).run
          { s with host := s.host.logged e }).run = ((r₁, built), t) ∧
        (r = r₁ ∧ c' = { c with built } ∧ s' = t ∧ (∀ p, r₁ = .ok p → t.host.isFile p = true) ∨
          (∃ p, r₁ = .ok p ∧ t.host.isFile p = false) ∧ ∃ built',
            (((built.forget key).getOrInit key (reinstall tools toolchain coordinates key (c.jar key)).run).run t).run =
              ((r, built'), s') ∧ c' = { c with built := built' }) := by
  unfold ensure at hcall
  obtain ⟨_, s₁, hlog, hlook⟩ := returns_bind.1 hcall
  obtain rfl := returns_modify.1 hlog
  refine ⟨.info ("Compiler bridge file: " ++ (c.jar key).spelling), ?_⟩
  obtain ⟨_, _, hget, hrest⟩ := returns_bind.1 hlook
  obtain ⟨rfl, rfl⟩ := returns_get.1 hget
  dsimp only at hrest
  rw [Host.isFile_logged] at hrest
  split at hrest
  -- the jar is looked for on the disk before the table is asked
  next hfile =>
    obtain ⟨hr, rfl⟩ := returns_pure.1 hrest
    obtain ⟨rfl, rfl⟩ := Prod.mk.inj hr
    exact Or.inl ⟨hfile, rfl, rfl, rfl⟩
  next hfile =>
    refine Or.inr ⟨by simpa using hfile, ?_⟩
    obtain ⟨⟨r₁, built⟩, t, hfirst, hend⟩ := returns_bind.1 hrest
    refine ⟨r₁, built, t, hfirst, ?_⟩
    cases r₁ with
    | error failure =>
      obtain ⟨hr, rfl⟩ := returns_pure.1 hend
      obtain ⟨rfl, rfl⟩ := Prod.mk.inj hr
      exact Or.inl ⟨rfl, rfl, rfl, by simp⟩
    | ok jar =>
      -- what the table says is checked against the disk
      obtain ⟨_, _, hget', hagain⟩ := returns_bind.1 hend
      obtain ⟨rfl, rfl⟩ := returns_get.1 hget'
      split at hagain
      next hthere =>
        obtain ⟨hr, rfl⟩ := returns_pure.1 hagain
        obtain ⟨rfl, rfl⟩ := Prod.mk.inj hr
        exact Or.inl ⟨rfl, rfl, rfl, by simpa using hthere⟩
      next hgone =>
        obtain ⟨⟨r₂, built'⟩, t', hsecond, hpure⟩ := returns_bind.1 hagain
        obtain ⟨hr, rfl⟩ := returns_pure.1 hpure
        obtain ⟨rfl, rfl⟩ := Prod.mk.inj hr
        exact Or.inr ⟨⟨jar, rfl, by simpa using hgone⟩, built', hsecond, rfl⟩

/-- A call changes the table of its cache only, so that the jars stay where they are. -/
theorem jar_of_ensure {c c' : BridgeCache} {s s' : Session σ} {r : Except BridgeError Path}
    (hcall : ((c.ensure tools toolchain coordinates key).run s).run = ((r, c'), s')) (other : BridgeKey) :
    c'.jar other = c.jar other := by
  obtain ⟨_, ⟨-, -, rfl, -⟩ | ⟨-, _, _, _, -, ⟨-, rfl, -⟩ | ⟨-, _, -, rfl⟩⟩⟩ := of_ensure hcall <;> rfl

/-- Building a jar for the first time is building it, with a message before and a message behind. -/
theorem ends_install {dest : Path} {s : Session σ} {Q : Session σ → Prop} {E : BridgeError → Session σ → Prop}
    (hlogs : ∀ t log, Q t → Q { t with host := { t.host with log } })
    (hbuild : ∀ log, (build tools toolchain coordinates key dest).Ends { s with host := { s.host with log } } (fun _ => Q) E) :
    (install tools toolchain coordinates key dest).Ends s (fun p t => p = dest ∧ Q t) E := by
  -- the notes around the build change the log only
  have hreport : ∀ (e : Event) (t : Session σ), (Session.onHost (Host.report e) : Action (Session σ) BridgeError Unit).Ends t
      (fun _ t' => t' = { t with host := { t.host with log := t.host.log.push e } }) fun _ _ => False := by
    refine fun e t => ⟨fun _ t' hrun => ?_, fun _ t' hrun => ?_⟩
    · obtain ⟨h, hlog, rfl⟩ := Session.yields_onHost.1 hrun
      obtain rfl := Host.yields_report.1 hlog
      rfl
    · obtain ⟨h, hlog, -⟩ := Session.fails_onHost.1 hrun
      exact Host.not_fails_report hlog
  unfold install
  refine Ends.bind ((hreport _ s).mono (fun _ _ h => h) fun _ _ h => h.elim) fun _ s₁ h₁ => ?_
  subst h₁
  refine Ends.bind (hbuild _) fun _ s₂ h₂ => ?_
  refine Ends.bind ((hreport _ s₂).mono (fun _ _ h => h) fun _ _ h => h.elim) fun _ s₃ h₃ => ?_
  subst h₃
  exact ends_pure ⟨rfl, hlogs s₂ _ h₂⟩

theorem ends_reinstall {dest : Path} {s : Session σ} {Q : Session σ → Prop} {E : BridgeError → Session σ → Prop}
    (hbuild : (build tools toolchain coordinates key dest).Ends s (fun _ => Q) E) :
    (reinstall tools toolchain coordinates key dest).Ends s (fun p t => p = dest ∧ Q t) E :=
  hbuild.bind fun _ _ h => ends_pure ⟨rfl, h⟩

/-- Installing a jar yields its path, if anything. -/
theorem path_of_install {dest p : Path} {s s' : Session σ}
    (hrun : ((install tools toolchain coordinates key dest).run.run s).run = (.ok p, s')) : p = dest :=
  ((ends_install (Q := fun _ => True) (E := fun _ _ => True) (fun _ _ _ => trivial) fun _ =>
    ⟨fun _ _ _ => trivial, fun _ _ _ => trivial⟩).success p s' hrun).1

theorem path_of_reinstall {dest p : Path} {s s' : Session σ}
    (hrun : ((reinstall tools toolchain coordinates key dest).run.run s).run = (.ok p, s')) : p = dest :=
  ((ends_reinstall (Q := fun _ => True) (E := fun _ _ => True)
    ⟨fun _ _ _ => trivial, fun _ _ _ => trivial⟩).success p s' hrun).1

/-! ### The table of a cache -/

/-- **A cache of which the table has nothing but the jars of keys.** -/
def Faithful (c : BridgeCache) : Prop := ∀ key p, c.built.get? key = some p → p = c.jar key

/-- What is asked of a faithful table leaves a faithful one. -/
theorem Faithful.getOrInit {c : BridgeCache} (hc : c.Faithful) {init : StateM (Session σ) (Except BridgeError Path)}
    (hinit : ∀ s p s', (init.run s).run = (.ok p, s') → p = c.jar key) {s s' : Session σ} {r : Except BridgeError Path}
    {built : SingleFlight BridgeKey Path} (hrun : ((c.built.getOrInit key init).run s).run = ((r, built), s')) :
    { c with built }.Faithful := by
  rcases SingleFlight.of_getOrInit hrun with ⟨_, -, -, rfl, -⟩ | ⟨-, hvalue, rfl⟩
  · exact hc
  · intro other p hp
    rw [SingleFlight.get?_store] at hp
    split at hp
    next hsame =>
      obtain rfl : key = other := by simpa using hsame
      cases r with
      | ok q =>
        -- only a path that was built is kept
        obtain rfl := Option.some.inj hp
        exact hinit s q s' hvalue
      | error e => simp [Except.toOption] at hp
    next => exact hc other p hp

/-- A key that is dropped leaves a faithful table. -/
theorem Faithful.forget {c : BridgeCache} (hc : c.Faithful) (key : BridgeKey) :
    { c with built := c.built.forget key }.Faithful := by
  intro other p hp
  rw [SingleFlight.get?_forget] at hp
  split at hp
  · simp at hp
  · exact hc other p hp

/-- **The caches that a build can come to:** a new one, and a cache after a call, on whatever machine, with whatever tools and
with whatever outcome. -/
inductive Served : BridgeCache → Prop
  | new {c : BridgeCache} (hnew : ∀ key, c.built.get? key = none) : Served c
  | call {c c' : BridgeCache} {σ : Type} {tools : BridgeTools σ} {toolchain : Toolchain} {coordinates : Coordinates}
      {key : BridgeKey} {s s' : Session σ} {r : Except BridgeError Path} (hc : Served c)
      (hcall : ((c.ensure tools toolchain coordinates key).run s).run = ((r, c'), s')) : Served c'

/-- **Whatever calls were made on a cache,** its table has nothing but the jars of keys. -/
theorem Served.faithful {c : BridgeCache} (hc : Served c) : c.Faithful := by
  induction hc with
  | new hnew => exact fun key p hp => by simp [hnew key] at hp
  | @call c c' σ tools toolchain coordinates key s s' r _ hcall ih =>
    obtain ⟨_, ⟨-, -, rfl, -⟩ | ⟨-, r₁, built, t, hfirst, hend⟩⟩ := of_ensure hcall
    · exact ih
    · have hbuilt := ih.getOrInit (fun _ _ _ hrun => path_of_install hrun) hfirst
      rcases hend with ⟨-, rfl, -, -⟩ | ⟨-, built', hsecond, rfl⟩
      · exact hbuilt
      · exact (hbuilt.forget key).getOrInit (fun _ _ _ hrun => path_of_reinstall hrun) hsecond

/-- **A call that succeeds yields the jar of its key,** on whatever machine. -/
theorem Served.path_of_ensure {c c' : BridgeCache} (hc : Served c) {s s' : Session σ} {p : Path}
    (hcall : ((c.ensure tools toolchain coordinates key).run s).run = ((.ok p, c'), s')) : p = c.jar key := by
  obtain ⟨_, ⟨-, hfound, -⟩ | ⟨-, r₁, built, t, hfirst, hend⟩⟩ := of_ensure hcall
  · exact Except.ok.inj hfound
  · rcases hend with ⟨rfl, -⟩ | ⟨-, built', hsecond, -⟩
    · rcases SingleFlight.of_getOrInit hfirst with ⟨x, hvalue, hx, -⟩ | ⟨-, hinstall, -⟩
      · rw [Except.ok.inj hx]
        exact hc.faithful key x hvalue
      · exact path_of_install hinstall
    · rcases SingleFlight.of_getOrInit hsecond with ⟨_, hkept, -⟩ | ⟨-, hreinstall, -⟩
      · simp [SingleFlight.get?_forget] at hkept
      · exact path_of_reinstall hreinstall

/-! ### The next call -/

/-- **A call that finds no jar makes one attempt,** whatever the table has, if what the attempt leaves behind is a jar. A
failure is not kept in the table. -/
theorem Faithful.ensure_of_absent {c c' : BridgeCache} (hc : c.Faithful) {s s' : Session σ} {r : Except BridgeError Path}
    (habsent : s.host.isFile (c.jar key) = false) {Q : Session σ → Prop} {E : BridgeError → Session σ → Prop}
    (hlogs : ∀ t log, Q t → Q { t with host := { t.host with log } })
    (hbuild : ∀ log, (build tools toolchain coordinates key (c.jar key)).Ends { s with host := { s.host with log } }
      (fun _ => Q) E)
    (hfound : ∀ t, Q t → t.host.isFile (c.jar key) = true)
    (hcall : ((c.ensure tools toolchain coordinates key).run s).run = ((r, c'), s')) :
    (∀ p, r = .ok p → p = c.jar key ∧ Q s') ∧ ∀ e, r = .error e → E e s' ∧ c'.built.get? key = none := by
  obtain ⟨event, ⟨hfile, -⟩ | ⟨-, r₁, built, t, hfirst, hend⟩⟩ := of_ensure hcall
  · simp [habsent] at hfile
  have hlogged : (s.host.logged event).isFile (c.jar key) = false := (Host.isFile_logged s.host event _).trans habsent
  rcases SingleFlight.of_getOrInit hfirst with ⟨p, hvalue, rfl, rfl, rfl⟩ | ⟨-, hinstall, rfl⟩
  · -- the table has the jar, which has been deleted: the jar is dropped there and built again
    have hp := hc key p hvalue
    rcases hend with ⟨-, -, -, hthere⟩ | ⟨-, built', hsecond, rfl⟩
    · exact absurd (hthere p rfl) (by simp [hp, hlogged])
    rcases SingleFlight.of_getOrInit hsecond with ⟨_, hkept, -⟩ | ⟨-, hreinstall, rfl⟩
    · simp [SingleFlight.get?_forget] at hkept
    have hends := ends_reinstall (hbuild (s.host.log.push event))
    refine ⟨?_, ?_⟩
    · rintro p rfl
      exact hends.success p s' hreinstall
    · rintro e rfl
      exact ⟨hends.failure e s' hreinstall, by simp [SingleFlight.get?_store, Except.toOption]⟩
  · -- the jar is built for the first time, as far as the table knows
    have hends := ends_install (s := { s with host := s.host.logged event }) hlogs fun log => hbuild log
    rcases hend with ⟨rfl, rfl, rfl, -⟩ | ⟨⟨p, rfl, hgone⟩, -⟩
    · refine ⟨?_, ?_⟩
      · rintro p rfl
        exact hends.success p _ hinstall
      · rintro e rfl
        exact ⟨hends.failure e _ hinstall, by simp [SingleFlight.get?_store, Except.toOption]⟩
    · obtain ⟨hp, hQ⟩ := hends.success p t hinstall
      simp [hp, hfound t hQ] at hgone

/-- **A call keeps what a build keeps,** if it has nothing to do with the log: the table runs a build or none. -/
theorem keeps_ensure {J : Session σ → Prop} (hlogs : ∀ t log, J t → J { t with host := { t.host with log } })
    {c c' : BridgeCache} (hbuild : ∀ t, J t → (build tools toolchain coordinates key (c.jar key)).Ends t (fun _ => J) fun _ => J)
    {s s' : Session σ} {r : Except BridgeError Path} (hs : J s)
    (hcall : ((c.ensure tools toolchain coordinates key).run s).run = ((r, c'), s')) : J s' := by
  -- the table runs its initialiser or leaves the session alone
  have htable : ∀ {t t' : Session σ} {table table' : SingleFlight BridgeKey Path} {init : Action (Session σ) BridgeError Path}
      {r : Except BridgeError Path}, init.Ends t (fun p t => p = c.jar key ∧ J t) (fun _ => J) → J t →
      ((table.getOrInit key init.run).run t).run = ((r, table'), t') → J t' := by
    intro t t' table table' init r hinit ht hrun
    rcases SingleFlight.of_getOrInit hrun with ⟨_, -, -, -, rfl⟩ | ⟨-, hvalue, -⟩
    · exact ht
    · cases r with
      | ok p => exact (hinit.success p t' hvalue).2
      | error e => exact hinit.failure e t' hvalue
  obtain ⟨event, ⟨-, -, -, rfl⟩ | ⟨-, r₁, built, t, hfirst, hend⟩⟩ := of_ensure hcall
  · exact hlogs s _ hs
  have hlogged : J { s with host := s.host.logged event } := hlogs s _ hs
  have ht : J t := htable (ends_install (s := { s with host := s.host.logged event }) hlogs fun log => hbuild _ (hlogs s log hs))
    hlogged hfirst
  -- a jar that is gone again is built once more
  rcases hend with ⟨-, -, rfl, -⟩ | ⟨-, built', hsecond, -⟩
  · exact ht
  · exact htable (ends_reinstall (hbuild t ht)) ht hsecond

/-- **No call leaves a scratch directory.** -/
theorem tidy_ensure {c c' : BridgeCache} {temp : Path} {cwd : Location} (htools : KeepsTidy tools temp cwd) {s s' : Session σ}
    {r : Except BridgeError Path} (hs : Tidy temp cwd s.host)
    (hcall : ((c.ensure tools toolchain coordinates key).run s).run = ((r, c'), s')) : Tidy temp cwd s'.host :=
  keeps_ensure (J := fun s => Tidy temp cwd s.host) (fun _ _ ht => ⟨⟨ht.temp_eq, ht.cwd_eq⟩, ht.sources, ht.classes⟩)
    (fun _ ht => tidy_build htools _ ht) hs hcall

/-- **The next call on a cache,** after any calls on it, whatever has happened to the jars in between. If the jar of the key
is there, the call returns its path and does nothing but log. If it is not there, and nothing but packaging touches it, the
call makes one attempt to build it. On success it returns the path of the jar, which is a file that this attempt has
packaged; on failure there is no jar and no value for the key, so that the same holds of the call after it. And no scratch
directory is left in any case. -/
theorem Served.ensure_spec {c c' : BridgeCache} (hc : Served c) {s s' : Session (σ × List BridgeRequest)}
    {r : Except BridgeError Path}
    (hcall : ((c.ensure tools.recording toolchain coordinates key).run s).run = ((r, c'), s')) :
    (s.host.isFile (c.jar key) = true → r = .ok (c.jar key) ∧ ∃ log, s' = { s with host := { s.host with log } }) ∧
    (s.host.isFile (c.jar key) = false → ∀ temp I, LeavesJar tools temp (c.jar key) I → I s.host →
      (∃ calls, OneAttempt key calls ∧ s'.tool.2 = s.tool.2 ++ calls) ∧
      (∀ p, r = .ok p → p = c.jar key ∧ s'.host.isFile p = true ∧ Packaged tools.recording key p s'.host) ∧
      ∀ e, r = .error e → s'.host.isFile (c.jar key) = false ∧ c'.built.get? key = none) ∧
    ∀ temp cwd, KeepsTidy tools temp cwd → Tidy temp cwd s.host → Tidy temp cwd s'.host := by
  refine ⟨fun hfile => ?_, fun habsent temp I leaves hI => ?_, fun temp cwd htools hs => tidy_ensure htools.recording hs hcall⟩
  · obtain ⟨event, ⟨-, hr, -, rfl⟩ | ⟨hnone, -⟩⟩ := of_ensure hcall
    · exact ⟨hr, _, rfl⟩
    · simp [hfile] at hnone
  have hnone := bytesAt?_eq_none_iff.2 habsent
  -- what was asked and what became of the jar are two readings of one build
  have hbuild : ∀ log, (build tools.recording toolchain coordinates key (c.jar key)).Ends
      { s with host := { s.host with log } }
      (fun _ t => (∃ calls, OneAttempt key calls ∧ t.tool.2 = s.tool.2 ++ calls) ∧ I t.host ∧
        Packaged tools.recording key (c.jar key) t.host)
      fun _ t => (∃ calls, OneAttempt key calls ∧ t.tool.2 = s.tool.2 ++ calls) ∧ I t.host ∧
        bytesAt? (c.jar key) t.host = none :=
    fun log => (requests_build (c.jar key) _).and (leaves.recording.build (leaves.logs _ log hI) hnone)
  have hends := hc.faithful.ensure_of_absent habsent (fun t log ⟨hcalls, hI, hp⟩ => ⟨hcalls, leaves.logs _ log hI, hp.congr rfl⟩)
    hbuild (fun t ht => ht.2.2.isFile) hcall
  refine ⟨?_, fun p hp => ?_, fun e he => ?_⟩
  · cases r with
    | ok p => exact (hends.1 p rfl).2.1
    | error e => exact (hends.2 e rfl).1.1
  · obtain ⟨hjar, -, -, hpackaged⟩ := hends.1 p hp
    rw [hjar]
    exact ⟨rfl, hpackaged.isFile, hpackaged⟩
  · obtain ⟨⟨-, -, hgone⟩, hforgotten⟩ := hends.2 e he
    exact ⟨bytesAt?_eq_none_iff.1 hgone, hforgotten⟩

/-! ### A first call and a second one -/

private def smallKey : BridgeKey := ⟨"g", "b", "1", "2", "3", "4"⟩

private def smallToolchain : Toolchain := ⟨⟨2, 13, 0, none⟩, "l", "k", ⟨⟨"2", []⟩, ∅⟩⟩

/-- A new cache in a directory. -/
private def newCache (dir : Path) : BridgeCache := ⟨dir, ⟨"1", "4"⟩, "3", ∅⟩

/-- The sources of every bridge are in one archive, and the compiler writes nothing. -/
private def idleTools : BridgeTools Unit := ⟨⟨fun _ => pure "/s", fun _ => pure []⟩, fun _ => pure ()⟩

/-- The empty archive of the sources. -/
private def sourcesOnly : Files := Files.put ∅ ["s"] (.file (Zip.encode []) false)

private def smallSession (files : Files) : Session (Unit × List BridgeRequest) := ⟨{ files, temp := "/" }, ((), [])⟩

private theorem newCache_served (dir : Path) : Served (newCache dir) := .new fun _ => rfl

private theorem node?_sourcesOnly (loc : Location) : sourcesOnly.node? loc =
    if loc = ["s"] then some (.file (Zip.encode []) false) else if loc = [] then some .dir else none := by
  rw [sourcesOnly, Files.node?_put ∅ (by simp)]
  split
  · rfl
  · unfold Files.node?
    split
    · rfl
    · cases loc with
      | nil => contradiction
      | cons n rest => rfl

private theorem linkless_sourcesOnly :
    Linkless "/" [] ((newCache "/c").jar smallKey) (smallSession sourcesOnly).host where
  temp_eq := rfl
  cwd_eq := rfl
  links loc target hlink := by
    change sourcesOnly.node? loc = _ at hlink
    rw [node?_sourcesOnly] at hlink
    split at hlink
    · simp at hlink
    · split at hlink <;> simp at hlink
  inDirs data executable hfile := by
    have hplace : Files.placeOf [] ((newCache "/c").jar smallKey) = ["c", "g-b-1-bin_2__3-1_4.jar"] := by decide +kernel
    change sourcesOnly.node? _ = _ at hfile
    rw [hplace, node?_sourcesOnly] at hfile
    simp at hfile

private theorem leavesJar_idleTools : LeavesJar idleTools "/" ((newCache "/c").jar smallKey)
    (Linkless "/" [] ((newCache "/c").jar smallKey)) := by
  refine leavesJar_of_linkless (by decide +kernel) ?_ (fun _ _ => Action.keeps_pure trivial)
    (fun _ _ => Action.keeps_pure trivial) fun _ _ => Action.keeps_pure trivial
  rintro name (rfl | rfl) <;> decide +kernel

private theorem keepsTidy_idleTools (temp : Path) (cwd : Location) : KeepsTidy idleTools temp cwd where
  resolves _ := Action.keeps_pure trivial
  closes _ := Action.keeps_pure trivial
  compiles _ := Action.keeps_pure trivial

/-- The first call of a new cache builds the bridge, and the second call finds it. -/
theorem ensure_spec_twice : ∃ c c' s s' r,
    (((newCache "/c").ensure idleTools.recording smallToolchain {} smallKey).run (smallSession sourcesOnly)).run =
        ((.ok ((newCache "/c").jar smallKey), c), s) ∧
      (∃ calls, OneAttempt smallKey calls ∧ s.tool.2 = calls) ∧
      Packaged idleTools.recording smallKey ((newCache "/c").jar smallKey) s.host ∧ Tidy "/" [] s.host ∧
      ((c.ensure idleTools.recording smallToolchain {} smallKey).run s).run = ((r, c'), s') ∧
      r = .ok (c.jar smallKey) ∧ s'.tool = s.tool ∧ s'.host.files = s.host.files := by
  have hfacts : (smallSession sourcesOnly).host.isFile ((newCache "/c").jar smallKey) = false ∧
      ((smallSession sourcesOnly).host.isDir ("/" / sourcesName : Path) = false ∧
        (smallSession sourcesOnly).host.isDir ("/" / classesName : Path) = false) ∧
      (((newCache "/c").ensure idleTools.recording smallToolchain {} smallKey).run (smallSession sourcesOnly)).run.1.1.toBool
        = true := by
    decide +kernel
  obtain ⟨habsent, ⟨hsources, hclasses⟩, hsucceeds⟩ := hfacts
  rcases hrun : (((newCache "/c").ensure idleTools.recording smallToolchain {} smallKey).run
    (smallSession sourcesOnly)).run with ⟨⟨first, c⟩, s⟩
  obtain ⟨-, hbuilt, htidy⟩ := (newCache_served "/c").ensure_spec hrun
  obtain ⟨hcalls, hjar, -⟩ := hbuilt habsent "/" _ leavesJar_idleTools linkless_sourcesOnly
  have hleft := htidy "/" [] (keepsTidy_idleTools "/" []) ⟨⟨rfl, rfl⟩, hsources, hclasses⟩
  rw [hrun] at hsucceeds
  cases first with
  | error e => simp [Except.toBool] at hsucceeds
  | ok p =>
    obtain ⟨hp, hthere, hpackaged⟩ := hjar p rfl
    subst hp
    have hdir := jar_of_ensure hrun smallKey
    rcases hagain : ((c.ensure idleTools.recording smallToolchain {} smallKey).run s).run with ⟨⟨second, c'⟩, s'⟩
    -- the second call starts where the first one ended, and finds the jar on the disk
    obtain ⟨hfound, -⟩ := ((newCache_served "/c").call hrun).ensure_spec hagain
    obtain ⟨hsecond, log, rfl⟩ := hfound (hdir.symm ▸ hthere)
    exact ⟨c, c', s, _, second, rfl, hcalls, hpackaged, hleft, hagain, hsecond, rfl, rfl⟩

/-! ### A link in the place of a jar -/

/-- A link where the jar is to be, through which the path of the jar leads. -/
private def linkedFiles : Files :=
  (((sourcesOnly.put ["c"] .dir).put ["c", "e"] .dir).put ["c", "g-b-1-bin_2__3-1_4.jar"] (.link "e"))

/-- **A jar that is in the way of its own path.** The cache is in a directory of which the path runs through a link, and the
jar takes the place of that link. So there is no jar to be seen after the first attempt, the call makes another one, and
fails. -/
theorem ensure_attempts_twice :
    Served (newCache "/c/g-b-1-bin_2__3-1_4.jar/..") ∧
      (smallSession linkedFiles).host.isFile ((newCache "/c/g-b-1-bin_2__3-1_4.jar/..").jar smallKey) = false ∧
      ∃ r c' s', (((newCache "/c/g-b-1-bin_2__3-1_4.jar/..").ensure idleTools.recording smallToolchain {} smallKey).run
          (smallSession linkedFiles)).run = ((r, c'), s') ∧
        r.toBool = false ∧ ¬ ∃ calls, OneAttempt smallKey calls ∧ s'.tool.2 = (smallSession linkedFiles).tool.2 ++ calls := by
  have hfacts : (smallSession linkedFiles).host.isFile ((newCache "/c/g-b-1-bin_2__3-1_4.jar/..").jar smallKey) = false ∧
      (((newCache "/c/g-b-1-bin_2__3-1_4.jar/..").ensure idleTools.recording smallToolchain {} smallKey).run
        (smallSession linkedFiles)).run.1.1.toBool = false ∧
      (((newCache "/c/g-b-1-bin_2__3-1_4.jar/..").ensure idleTools.recording smallToolchain {} smallKey).run
        (smallSession linkedFiles)).run.2.tool.2.length = 6 := by
    decide +kernel
  obtain ⟨habsent, hfails, hlength⟩ := hfacts
  rcases hrun : (((newCache "/c/g-b-1-bin_2__3-1_4.jar/..").ensure idleTools.recording smallToolchain {} smallKey).run
    (smallSession linkedFiles)).run with ⟨⟨r, c'⟩, s'⟩
  rw [hrun] at hfails hlength
  refine ⟨newCache_served _, habsent, r, c', s', rfl, hfails, ?_⟩
  rintro ⟨calls, hone, hcalls⟩
  -- one attempt asks three things at most, and six were asked
  rw [hcalls] at hlength
  rcases hone with rfl | rfl | ⟨request, rfl⟩ <;> simp [smallSession] at hlength

end BridgeCache

end Recompile

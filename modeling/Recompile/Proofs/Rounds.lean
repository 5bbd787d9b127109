import Recompile.Engine.Incremental
import Recompile.Proofs.Action
import Recompile.Proofs.Dependents
import Recompile.Proofs.Recording

/-!
# The rounds of a successful compile

A compile works on a machine: it deletes files, runs the compiler and logs. What it does to the analysis does not depend
on any of that, apart from what the compiler reports and what is found on the classpath. This module takes a
successful run of the engine down to that part.

* `Round.Follows`: what one round does to the analysis and to the memory of the classpath, given its sources.
* `Rounds`: a sequence of rounds in which each one has the sources that the one before it asks for.

The invariants of rounds are proved for one round and carried over to `Rounds` by induction: `Rounds.listed`, and
`Rounds.source?_of_not_compiled`, which says that a source keeps its record through all rounds that do not compile
it.
-/

namespace Recompile

namespace Engine

/-! ### Taking sources out -/

/-- The analysis without some sources. -/
def without (sources : List Path) (a : Analysis) : Analysis := sources.foldl Analysis.remove a

/-- The classes of some sources, as they are noted while the sources are taken out one after the other. -/
def notes : List Path → Analysis → ApiTable → ApiTable
  | [], _, table => table
  | source :: rest, a, table => notes rest (a.remove source) (noteApis a source table)

/-- The first of some files is deleted, or it is not there, and the others follow. -/
theorem of_yields_deleteFiles_cons {output file : Path} {rest : List Path} {u : Unit} {h h' : Host}
    (hrun : (deleteFiles output (file :: rest)).Yields h u h') :
    (∃ files, h.files.removeFile h.cwd (output / file) = .ok files ∧
        (deleteFiles output rest).Yields { h with files } u h') ∨
      ∃ fault, h.files.removeFile h.cwd (output / file) = .error fault ∧ fault.kind = .notFound ∧
        (deleteFiles output rest).Yields h u h' := by
  unfold deleteFiles at hrun
  obtain ⟨_, _, hget, hdelete⟩ := Action.yields_bind.1 hrun
  obtain ⟨rfl, rfl⟩ := Action.yields_get.1 hget
  dsimp only at hdelete
  split at hdelete
  next files hremove =>
    obtain ⟨_, _, hset, hrest⟩ := Action.yields_bind.1 hdelete
    obtain rfl := Action.yields_set.1 hset
    exact Or.inl ⟨files, hremove, hrest⟩
  next fault hremove =>
    split at hdelete
    · -- any other fault ends the compile
      obtain ⟨_, _, hthrow, -⟩ := Action.yields_bind.1 hdelete
      exact absurd hthrow Action.not_yields_throw
    next hkind => exact Or.inr ⟨fault, hremove, by simpa using hkind, hdelete⟩

/-- The sources of a round are taken out as those that are gone are, with a note of the classes they had. -/
theorem retire_eq (output : Path) (sources : List Path) (a : Analysis) (table : ApiTable) :
    retire output sources a table = do return (← removeSources output sources a, notes sources a table) := by
  induction sources generalizing a table with
  | nil => rfl
  | cons source rest ih => simp only [retire, removeSources, notes, bind_assoc, ih]

theorem yields_removeSources {output : Path} {sources : List Path} {a a' : Analysis} {h h' : Host}
    (hrun : (removeSources output sources a).Yields h a' h') : a' = without sources a := by
  induction sources generalizing a h with
  | nil => exact (Action.yields_pure.1 hrun).1
  | cons source rest ih =>
    obtain ⟨-, h₁, -, hrest⟩ := Action.yields_bind.1 hrun
    exact ih hrest

theorem yields_retire {output : Path} {sources : List Path} {a : Analysis} {table : ApiTable} {h h' : Host}
    {r : Analysis × ApiTable} (hrun : (retire output sources a table).Yields h r h') :
    r = (without sources a, notes sources a table) ∧ (removeSources output sources a).Yields h (without sources a) h' := by
  rw [retire_eq] at hrun
  obtain ⟨a', h₁, hremove, hend⟩ := Action.yields_bind.1 hrun
  obtain ⟨rfl, rfl⟩ := Action.yields_pure.1 hend
  obtain rfl := yields_removeSources hremove
  exact ⟨rfl, hremove⟩

theorem without_listed {a : Analysis} (ha : a.Listed) (sources : List Path) : (without sources a).Listed := by
  induction sources generalizing a with
  | nil => exact ha
  | cons source rest ih => exact ih (ha.remove source)

/-- What is not recorded does not come back when sources are taken out. -/
theorem source?_without_of_none {sources : List Path} {a : Analysis} {p : Path} (hp : a.source? p = none) :
    (without sources a).source? p = none := by
  induction sources generalizing a with
  | nil => exact hp
  | cons q rest ih =>
    refine ih (a := a.remove q) ?_
    rw [Analysis.source?_remove, hp, ite_self]

theorem source?_without_of_among {sources : List Path} {p : Path} (hp : p.Among sources) (a : Analysis) :
    (without sources a).source? p = none := by
  induction sources generalizing a with
  | nil => exact absurd hp (Path.not_among_nil p)
  | cons q rest ih =>
    obtain ⟨r, hr, hrp⟩ := hp
    rcases List.mem_cons.1 hr with rfl | hr
    · refine source?_without_of_none (a := a.remove r) ?_
      rw [Analysis.source?_remove, if_pos (BEq.symm hrp)]
    · exact ih ⟨r, hr, hrp⟩ _

theorem source?_without_of_not_among {sources : List Path} {p : Path} (hp : ¬ p.Among sources) (a : Analysis) :
    (without sources a).source? p = a.source? p := by
  induction sources generalizing a with
  | nil => rfl
  | cons q rest ih =>
    rw [Path.not_among] at hp
    have hrest : ¬ p.Among rest := Path.not_among.2 fun r hr => hp r (List.mem_cons_of_mem _ hr)
    refine (ih hrest _).trans ?_
    exact Analysis.source?_remove_of_ne a (BEq.comm.trans (hp q List.mem_cons_self))

/-- What is left after some sources were taken out was there before. -/
theorem class?_of_without {sources : List Path} {a : Analysis} {name : String} {c : ClassInfo}
    (h : (without sources a).class? name = some c) : a.class? name = some c := by
  induction sources generalizing a with
  | nil => exact h
  | cons q rest ih => exact Analysis.class?_of_remove (ih h)

/-- If every class is listed, exactly the classes that the sources own go with them. -/
theorem class?_without {a : Analysis} (ha : a.Listed) (sources : List Path) {name : String} {c : ClassInfo} :
    (without sources a).class? name = some c ↔ a.class? name = some c ∧ ¬ c.source.Among sources := by
  induction sources generalizing a with
  | nil => simp [without]
  | cons q rest ih =>
    refine (ih (ha.remove q)).trans ?_
    rw [ha.class?_remove, Option.filter_eq_some_iff, Path.not_among, Path.not_among]
    simp only [List.forall_mem_cons, Bool.not_eq_true', and_assoc, BEq.comm]

/-! ### What is noted -/

theorem get?_noteApis (a : Analysis) (source : Path) (table : ApiTable) (name : String) :
    (noteApis a source table).get? name =
      if (a.source? source).any (fun info => info.classes.contains name) = true then
        ((a.api? name).map fun api => (source, api)).or (table.get? name)
      else table.get? name := by
  unfold noteApis
  cases a.source? source with
  | none => simp
  | some info =>
    simp only [Option.any_some, SortedSet.contains_iff_toList]
    generalize info.classes.toList = names
    induction names generalizing table with
    | nil => simp
    | cons n rest ih =>
      rw [List.foldl_cons, ih]
      -- the name itself, or one that is noted behind it
      cases hn : a.api? n with
      | none =>
        by_cases hname : name = n
        · subst hname
          simp [hn]
        · simp [hname]
      | some api =>
        by_cases hname : name = n
        · subst hname
          simp [hn]
        · simp [SortedMap.get?_insert, hname]

theorem get?_notes_of_none {sources : List Path} {a : Analysis} {name : String} (hname : a.class? name = none)
    (table : ApiTable) : (notes sources a table).get? name = table.get? name := by
  induction sources generalizing a table with
  | nil => rfl
  | cons q rest ih =>
    have hremove : (a.remove q).class? name = none := by
      rw [Analysis.class?_remove, hname]
      rfl
    refine (ih hremove _).trans ?_
    rw [get?_noteApis, Analysis.api?, hname]
    simp

/-- **The class of a source that is taken out is noted with its owner.** An earlier source may list the class as
well, and its note is replaced; once the owner is taken out the class is gone. -/
theorem get?_notes_of_owner {sources : List Path} {a : Analysis} (ha : a.Listed) {name : String} {c : ClassInfo}
    (hc : a.class? name = some c) (hmem : c.source.Among sources) (table : ApiTable) :
    ∃ q, (q == c.source) = true ∧ (notes sources a table).get? name = some (q, c.api) := by
  induction sources generalizing a table with
  | nil => exact absurd hmem (Path.not_among_nil _)
  | cons q rest ih =>
    cases hq : c.source == q with
    | true =>
      refine ⟨q, BEq.symm hq, ?_⟩
      -- the class is noted now, and gone when the other sources are taken out
      have hgone : (a.remove q).class? name = none := by
        rw [ha.class?_remove, hc, Option.filter_some, hq]
        rfl
      refine (get?_notes_of_none hgone _).trans ?_
      obtain ⟨info, hinfo, hlists⟩ := ha name c hc
      rw [a.source?_congr hq] at hinfo
      rw [get?_noteApis, hinfo]
      simp [hlists, Analysis.api?, hc]
    | false =>
      -- the source comes later, and the class is there until then
      obtain ⟨r, hr, hrc⟩ := hmem
      have hrest : c.source.Among rest := by
        rcases List.mem_cons.1 hr with rfl | hr
        · rw [BEq.comm, hq] at hrc
          simp at hrc
        · exact ⟨r, hr, hrc⟩
      exact ih (ha.remove q) (Analysis.class?_remove_of_ne hc hq) hrest _

/-- **What is noted was recorded:** the class has the noted API, and the source for which it is noted lists it. -/
theorem of_get?_notes {sources : List Path} {a : Analysis} {table : ApiTable} {name : String} {q : Path}
    {api : Digest} (h : (notes sources a table).get? name = some (q, api)) :
    table.get? name = some (q, api) ∨
      a.api? name = some api ∧ ∃ info, a.source? q = some info ∧ info.classes.contains name = true := by
  induction sources generalizing a table with
  | nil => exact Or.inl h
  | cons p rest ih =>
    -- noted for this source, noted before, or noted for a later one
    rcases ih h with hnoted | ⟨hapi, info, hinfo, hlists⟩
    · rw [get?_noteApis] at hnoted
      split at hnoted
      next hany =>
        obtain ⟨info, hinfo, hlists⟩ := (Option.any_eq_true _ _).1 hany
        rcases Option.or_eq_some_iff.1 hnoted with hnote | ⟨-, hold⟩
        · obtain ⟨api', hapi, hpair⟩ := Option.map_eq_some_iff.1 hnote
          obtain ⟨rfl, rfl⟩ := Prod.mk.inj hpair
          exact Or.inr ⟨hapi, info, hinfo, hlists⟩
        · exact Or.inl hold
      next => exact Or.inl hnoted
    · refine Or.inr ⟨?_, info, ?_, hlists⟩
      · unfold Analysis.api? at hapi ⊢
        rw [Option.map_eq_some_iff] at hapi ⊢
        obtain ⟨c, hc, hcapi⟩ := hapi
        exact ⟨c, Analysis.class?_of_remove hc, hcapi⟩
      · rw [Analysis.source?_remove] at hinfo
        split at hinfo
        · simp at hinfo
        · exact hinfo

/-- What is noted is noted for one of the sources that are taken out. -/
theorem mem_of_get?_notes {sources : List Path} {a : Analysis} {table : ApiTable} {name : String} {q : Path}
    {api : Digest} (h : (notes sources a table).get? name = some (q, api)) :
    table.get? name = some (q, api) ∨ q ∈ sources := by
  induction sources generalizing a table with
  | nil => exact Or.inl h
  | cons p rest ih =>
    -- a note of a later source, or one that was there when its turn came
    rcases ih h with hnoted | hq
    · rw [get?_noteApis] at hnoted
      split at hnoted
      · rcases Option.or_eq_some_iff.1 hnoted with hnote | ⟨-, hold⟩
        · obtain ⟨_, -, hpair⟩ := Option.map_eq_some_iff.1 hnote
          obtain ⟨rfl, -⟩ := Prod.mk.inj hpair
          exact Or.inr List.mem_cons_self
        · exact Or.inl hold
      · exact Or.inl hnoted
    · exact Or.inr (List.mem_cons_of_mem _ hq)

/-- A source with a noted class that is not what it was has changed. -/
theorem among_changedSources {a : Analysis} {table : ApiTable} {p : Path} :
    p.Among (changedSources a table) ↔
      ∃ name q api, table.get? name = some (q, api) ∧ (q == p) = true ∧ a.api? name ≠ some api := by
  unfold changedSources
  rw [Path.among_ofList]
  constructor
  · rintro ⟨q, hq, hqp⟩
    obtain ⟨⟨name, q', api⟩, he, rfl⟩ := List.mem_map.1 hq
    obtain ⟨he, hapi⟩ := List.mem_filter.1 he
    exact ⟨name, q', api, SortedMap.get?_of_mem he, hqp, by simpa using hapi⟩
  · rintro ⟨name, q, api, hname, hqp, hapi⟩
    obtain ⟨name', he, hcmp⟩ := SortedMap.get?_eq_some_iff.1 hname
    obtain rfl : name = name' := Std.LawfulEqCmp.eq_of_compare hcmp
    refine ⟨q, List.mem_map.2 ⟨(name, q, api), List.mem_filter.2 ⟨he, ?_⟩, rfl⟩, hqp⟩
    simpa using hapi

end Engine

/-! ### One round -/

open Engine

/-- Whether a round compiles a source. -/
def Round.Compiles (r : Round) (p : Path) : Prop := p.Among r.sources

instance (r : Round) (p : Path) : Decidable (r.Compiles p) := inferInstanceAs (Decidable (p.Among r.sources))

/-- Whether the units of a round are for sources that it compiles. -/
def Round.Accounted (r : Round) : Prop := ∀ u ∈ r.units, r.Compiles u.source

/-- **One unit for each of some sources,** in any order. -/
structure OneEach (sources : List Path) (units : List CompiledUnit) : Prop where
  distinct : units.Pairwise fun u v => (u.source == v.source) = false
  /-- Every source has a unit. -/
  every : ∀ p ∈ sources, ∃ u ∈ units, (u.source == p) = true
  /-- Every unit is for one of the sources. -/
  only : ∀ u ∈ units, u.source.Among sources

theorem OneEach.append {l m : List Path} {us vs : List CompiledUnit} (h : OneEach l us) (h' : OneEach m vs)
    (hapart : ∀ p ∈ l, ∀ q ∈ m, (p == q) = false) : OneEach (l ++ m) (us ++ vs) where
  distinct := by
    refine List.pairwise_append.2 ⟨h.distinct, h'.distinct, fun u hu v hv => ?_⟩
    obtain ⟨p, hp, hpu⟩ := h.only u hu
    obtain ⟨q, hq, hqv⟩ := h'.only v hv
    rw [← BEq.congr_left hpu, ← BEq.congr_right hqv]
    exact hapart p hp q hq
  every p hp := by
    rcases List.mem_append.1 hp with hp | hp
    · obtain ⟨u, hu, hup⟩ := h.every p hp
      exact ⟨u, List.mem_append_left _ hu, hup⟩
    · obtain ⟨u, hu, hup⟩ := h'.every p hp
      exact ⟨u, List.mem_append_right _ hu, hup⟩
  only u hu := by
    rcases List.mem_append.1 hu with hu | hu
    · obtain ⟨p, hp, hpu⟩ := h.only u hu
      exact ⟨p, List.mem_append_left _ hp, hpu⟩
    · obtain ⟨p, hp, hpu⟩ := h'.only u hu
      exact ⟨p, List.mem_append_right _ hp, hpu⟩

/-- The unit that counts for a source is the one that there is. -/
theorem OneEach.exists_unitFor {sources : List Path} {units : List CompiledUnit} (h : OneEach sources units) {p : Path}
    (hp : p.Among sources) : ∃ u ∈ units, (u.source == p) = true ∧ u = unitFor units p := by
  obtain ⟨q, hq, hqp⟩ := hp
  obtain ⟨u, hu, huq⟩ := h.every q hq
  unfold unitFor
  cases hfind : units.reverse.find? fun u => u.source == p with
  | none =>
    have hno := List.find?_eq_none.1 hfind u (List.mem_reverse.2 hu)
    simp [BEq.trans huq hqp] at hno
  | some v =>
    exact ⟨v, List.mem_reverse.1 (List.mem_of_find?_eq_some hfind), by simpa using List.find?_some hfind, rfl⟩

/-- **What a round does to the analysis.** Its sources are taken out and what the compiler reported is recorded, with
the fingerprints that the classpath gives at some point; the sources with a class that is not what it was have
changed. -/
structure Round.Follows (digests : SortedMap Path Digest) (due : List Path) (a : Analysis) (c : Classpath)
    (r : Round) (c' : Classpath) : Prop where
  sources : r.sources = due
  before : r.before = a
  recorded : ∃ h : Host, recordUnits h digests due r.units (without due a) c = (r.after, c')
  changed : r.changed = changedSources r.after (notes due a ∅)

/-- The sources of the round after this one, of which so many are left. -/
def Round.next (r : Round) : (left : Nat) → List Path
  | 0 => []
  | left + 1 =>
    if r.changed.isEmpty then []
    else if left = 0 then (r.after.transitiveDependents r.changed).toList
    else r.after.dependentsOfAny r.changed

namespace Engine

variable {σ ε α : Type}

@[simp] theorem yields_onHost {x : Action Host ε α} {s s' : EngineState σ} {a : α} :
    Action.Yields (onHost x) s a s' ↔
      ∃ h, x.Yields s.session.host a h ∧ s' = { s with session := { s.session with host := h } } := by
  unfold onHost
  rw [Action.yields_onPart]
  simp only [Session.yields_onHost]
  constructor
  · rintro ⟨_, ⟨h, hrun, rfl⟩, rfl⟩
    exact ⟨h, hrun, rfl⟩
  · rintro ⟨h, hrun, rfl⟩
    exact ⟨_, ⟨h, hrun, rfl⟩, rfl⟩

@[simp] theorem yields_machine {s s' : EngineState σ} {h : Host} :
    Action.Yields (machine : Action (EngineState σ) ε Host) s h s' ↔ h = s.session.host ∧ s' = s := by
  unfold machine
  rw [Action.yields_bind]
  simp only [Action.yields_get, Action.yields_pure]
  constructor
  · rintro ⟨_, _, ⟨rfl, rfl⟩, rfl, rfl⟩
    exact ⟨rfl, rfl⟩
  · rintro ⟨rfl, rfl⟩
    exact ⟨_, _, ⟨rfl, rfl⟩, rfl, rfl⟩

section CompileRound

variable {compiler : SourceCompiler σ} {inputs : EngineInputs} {digests : SortedMap Path Digest} {number : Nat}
  {sources : List Path} {a : Analysis} {c c' : Classpath} {s s' : EngineState σ} {r : Round}

/-- A round logs, takes out its sources, compiles them batch by batch and records what came of it. -/
theorem of_yields_compileRound (hrun : (compileRound compiler inputs digests number sources a c).Yields s (r, c') s') :
    r.Follows digests sources a c c' ∧ ∃ e h,
      (removeSources inputs.options.output sources a).Yields (s.session.host.logged e) (without sources a) h ∧
      (compileBatches compiler inputs (batches sources inputs.options.order)).Yields
        { s with session := { s.session with host := h } } r.units s' := by
  unfold compileRound report at hrun
  simp only [Action.yields_bind, yields_onHost, yields_machine, Action.yields_pure] at hrun
  obtain ⟨_, _, ⟨_, hreport, rfl⟩, ⟨a₁, table⟩, _, ⟨h, hretire, rfl⟩, units, s₃, hunits, _, _, ⟨rfl, rfl⟩, hr, rfl⟩ := hrun
  obtain rfl := Host.yields_report.1 hreport
  obtain ⟨hretired, hremove⟩ := yields_retire hretire
  obtain ⟨rfl, rfl⟩ := Prod.mk.inj hretired
  obtain ⟨rfl, rfl⟩ := Prod.mk.inj hr
  exact ⟨⟨rfl, rfl, ⟨_, rfl⟩, rfl⟩, _, h, hremove, hunits⟩

theorem yields_compileRound (hrun : (compileRound compiler inputs digests number sources a c).Yields s (r, c') s') :
    r.Follows digests sources a c c' := (of_yields_compileRound hrun).1

end CompileRound

theorem yields_nextSources {r : Round} {left : Nat} {s s' : EngineState σ} {sources : List Path}
    (hrun : (nextSources r left : Action (EngineState σ) ε (List Path)).Yields s sources s') :
    sources = r.next left := by
  cases left with
  | zero => exact (Action.yields_pure.1 hrun).1
  | succ left =>
    simp only [nextSources] at hrun
    simp only [Round.next]
    by_cases hnone : r.changed.isEmpty = true
    · rw [if_pos hnone] at hrun ⊢
      exact (Action.yields_pure.1 hrun).1
    · rw [if_neg hnone] at hrun ⊢
      -- with one round left it is the last resort
      by_cases hleft : left = 0
      · simp only [Action.yields_bind, hleft, if_true, Action.yields_pure] at hrun ⊢
        obtain ⟨-, -, -, -, -, -, hsources, -⟩ := hrun
        exact hsources
      · simp only [Action.yields_bind, hleft, if_false, Action.yields_pure] at hrun ⊢
        obtain ⟨-, -, -, hsources, -⟩ := hrun
        exact hsources

end Engine

/-! ### All rounds -/

/-- **A sequence of rounds.** It starts from an analysis, a classpath and the sources that are due, of which `left`
rounds take care at most; every round has the sources that the one before it asks for. -/
inductive Rounds (digests : SortedMap Path Digest) :
    (left : Nat) → (due : List Path) → Analysis → Classpath → List Round → Analysis → Classpath → Prop
  /-- Nothing is due, or there is no round left. -/
  | done {left : Nat} {due : List Path} {a : Analysis} {c : Classpath} (h : left = 0 ∨ due = []) :
      Rounds digests left due a c [] a c
  /-- A round, and those after it. -/
  | round {left : Nat} {due : List Path} {a a' : Analysis} {c c₁ c' : Classpath} {r : Round} {rs : List Round}
      (some : due ≠ []) (first : r.Follows digests due a c c₁)
      (rest : Rounds digests left (r.next left) r.after c₁ rs a' c') :
      Rounds digests (left + 1) due a c (r :: rs) a' c'

namespace Round.Follows

variable {digests : SortedMap Path Digest} {due : List Path} {a : Analysis} {c c' : Classpath} {r : Round}

theorem grows (h : r.Follows digests due a c c') : c.Grows c' := by
  obtain ⟨m, hrec⟩ := h.recorded
  have hgrows := grows_recordUnits m digests due r.units (without due a) c
  rwa [hrec] at hgrows

/-- A round keeps every class listed. -/
theorem listed (h : r.Follows digests due a c c') (ha : a.Listed) : r.after.Listed := by
  obtain ⟨m, hrec⟩ := h.recorded
  have hlisted : (recordUnits m digests due r.units (without due a) c).1.Listed :=
    recordUnits_listed (without_listed ha due)
  rwa [hrec] at hlisted

/-- A source that was to be compiled, or for which there is a unit, has the record of the unit that counts for it. -/
theorem exists_source?_of_recorded (h : r.Follows digests due a c c') {p : Path} {digest : Digest}
    (hp : digests.get? p = some digest) (hmem : p.Among due ∨ ∃ u ∈ r.units, (u.source == p) = true) :
    ∃ info, r.after.source? p = some info ∧
      (unitFor r.units p).Recorded digest (classOwners (without due a) r.units) c' info := by
  obtain ⟨m, hrec⟩ := h.recorded
  have hsource := recordUnits_source m (without due a) c hp hmem
  rwa [hrec] at hsource

/-- A source that was not to be compiled, and that has no unit or is not part of the module, keeps its record. -/
theorem source?_of_untouched (h : r.Follows digests due a c c') {p : Path} (hdue : ¬ p.Among due)
    (hother : digests.get? p = none ∨ ∀ u ∈ r.units, (u.source == p) = false) :
    r.after.source? p = a.source? p := by
  obtain ⟨m, hrec⟩ := h.recorded
  have hkeeps : (recordUnits m digests due r.units (without due a) c).1.source? p = (without due a).source? p :=
    recordUnits_source_of_not_mem (hother.imp_right fun hother => ⟨Path.not_among.1 hdue, hother⟩)
  rw [hrec] at hkeeps
  exact hkeeps.trans (source?_without_of_not_among hdue a)

/-- A source that a round does not compile keeps its record, as long as the units are for sources that were to be
compiled. -/
theorem source?_of_not_compiled (h : r.Follows digests due a c c') (hunits : r.Accounted) {p : Path}
    (hp : ¬ r.Compiles p) : r.after.source? p = a.source? p := by
  refine h.source?_of_untouched (by rwa [Round.Compiles, h.sources] at hp) (Or.inr fun u hu => ?_)
  by_contra hup
  exact hp ((hunits u hu).congr (by simpa using hup))

/-- **The table of classes after a round** that has one unit for each of its sources is made of the units and of what the
round left alone. -/
theorem class?_after (h : r.Follows digests due a c c') (ha : a.Listed) (hunits : OneEach due r.units)
    (hmodule : ∀ p ∈ due, digests.contains p = true) (name : String) :
    r.after.class? name = (CompiledUnit.recordIn r.units name).or ((without due a).class? name) := by
  obtain ⟨m, hrec⟩ := h.recorded
  have hafter : (recordUnits m digests due r.units (without due a) c).1 = r.after := by rw [hrec]
  rw [← hafter]
  refine recordUnits_class hunits.distinct (fun u hu => ?_) hunits.every (fun u hu n k hk => ?_) name
  · obtain ⟨q, hq, hqu⟩ := hunits.only u hu
    rw [← SortedMap.contains_congr digests (Path.compare_eq_iff_beq.2 hqu)]
    exact hmodule q hq
  · have hk := ((class?_without ha due).1 hk).2
    by_contra hself
    exact hk ((hunits.only u hu).congr (BEq.symm (by simpa using hself)))

/-- **A source with a class that is not what it was has changed.** -/
theorem changed_of_api_ne (h : r.Follows digests due a c c') (ha : a.Listed) {name : String} {k : ClassInfo}
    (hk : a.class? name = some k) (hdue : r.Compiles k.source) (hapi : r.after.api? name ≠ some k.api) :
    k.source.Among r.changed := by
  rw [Round.Compiles, h.sources] at hdue
  obtain ⟨q, hq, hnote⟩ := get?_notes_of_owner ha hk hdue ∅
  rw [h.changed, among_changedSources]
  exact ⟨name, q, k.api, hnote, hq, hapi⟩

end Round.Follows

namespace Rounds

variable {digests : SortedMap Path Digest} {left : Nat} {due : List Path} {a a' : Analysis} {c c' : Classpath}
  {rs : List Round}

/-- There are at most as many rounds as were left. -/
theorem length_le (h : Rounds digests left due a c rs a' c') : rs.length ≤ left := by
  induction h with
  | done => exact Nat.zero_le _
  | round _ _ _ ih => exact Nat.succ_le_succ ih

theorem listed (h : Rounds digests left due a c rs a' c') (ha : a.Listed) : a'.Listed := by
  induction h with
  | done => exact ha
  | round _ first _ ih => exact ih (first.listed ha)

theorem grows (h : Rounds digests left due a c rs a' c') : c.Grows c' := by
  induction h with
  | done => exact Classpath.Grows.refl _
  | round _ first _ ih => exact first.grows.trans ih

/-- The sources of a round are different paths. -/
theorem distinct (h : Rounds digests left due a c rs a' c')
    (hdue : due.Pairwise fun p q => (p == q) = false) :
    ∀ r ∈ rs, r.sources.Pairwise fun p q => (p == q) = false := by
  induction h with
  | done => simp
  | @round left _ _ _ _ _ _ r _ _ first _ ih =>
    intro r' hr'
    rcases List.mem_cons.1 hr' with rfl | hr'
    · rwa [first.sources]
    · refine ih ?_ r' hr'
      cases left with
      | zero => exact .nil
      | succ left =>
        -- the next sources are the keys of a set
        simp only [Round.next]
        split
        · exact .nil
        · split
          · exact Path.keys_distinct _
          · exact Path.keys_distinct _

/-- **A source keeps its record through rounds that do not compile it.** -/
theorem source?_of_not_compiled (h : Rounds digests left due a c rs a' c') (hunits : ∀ r ∈ rs, r.Accounted)
    {p : Path} (hp : ∀ r ∈ rs, ¬ r.Compiles p) : a'.source? p = a.source? p := by
  induction h with
  | done => rfl
  | round _ first _ ih =>
    rw [ih (fun r hr => hunits r (List.mem_cons_of_mem _ hr)) (fun r hr => hp r (List.mem_cons_of_mem _ hr))]
    exact first.source?_of_not_compiled (hunits _ List.mem_cons_self) (hp _ List.mem_cons_self)

/-- The rounds after some first ones are a sequence of rounds of their own. -/
theorem split {pre : List Round} {r : Round} {post : List Round}
    (h : Rounds digests left due a c (pre ++ r :: post) a' c') :
    ∃ left₁ a₁ c₁ c₂, left = pre.length + left₁ + 1 ∧ (a.Listed → a₁.Listed) ∧ r.Follows digests r.sources a₁ c₁ c₂ ∧
      Rounds digests left₁ (r.next left₁) r.after c₂ post a' c' := by
  induction pre generalizing left due a c with
  | nil =>
    cases h with
    | round _ first rest => exact ⟨_, a, c, _, by simp, id, first.sources ▸ first, rest⟩
  | cons q pre ih =>
    cases h with
    | round _ first rest =>
      obtain ⟨left₁, a₁, c₁, c₂, hleft, hlisted, hrest⟩ := ih rest
      refine ⟨left₁, a₁, c₁, c₂, by rw [hleft, List.length_cons]; omega, fun ha => hlisted (first.listed ha), hrest⟩

end Rounds

end Recompile

import Mathlib.Data.Finset.Card
import Recompile.Proofs.Fallible
import Recompile.Proofs.Table
import Recompile.Toolchain.LoadingContext

/-!
# Which artifact supplies a class

The classes of all artifacts of a toolchain go into one table. It is filled artifact by artifact, and a class that is in the
table already is left there, so that the table has for every class the position of the first artifact that defines it
(`LoadingContext.get?_suppliers`). This is the invariant that entering one class keeps (`LoadingContext.get?_enter`), and
it does not matter how often a class is in an artifact, in how many artifacts it is, or how often an artifact is listed.

So a look-up in the table is a search through the artifacts (`LoadingContext.locates_first`): it finds the first one that has
the class among its own, which is looked for without the table.
-/

namespace Recompile

namespace SortedMap

variable {κ ν : Type} [Ord κ] [Std.LawfulEqOrd κ]

/-- A table has as many entries as it has keys. -/
theorem size_eq_card [DecidableEq κ] (m : SortedMap κ ν) : m.size = m.keys.toFinset.card := by
  have hdistinct : m.keys.Nodup := by
    refine List.pairwise_map.2 (m.sorted.imp fun {e f} hlt heq => ?_)
    rw [heq] at hlt
    simp at hlt
  rw [List.toFinset_card_of_nodup hdistinct, keys, List.length_map, size]

theorem mem_keys [Std.TransOrd κ] {m : SortedMap κ ν} {k : κ} : k ∈ m.keys ↔ m.contains k = true := by
  rw [contains_iff_keys]
  simp

end SortedMap

namespace LoadingContext

variable {h : Host} {identity : ToolchainIdentity}

/-! ### The table -/

/-- A class that is entered gets a position, unless it has one. -/
theorem get?_insert_unknown (index : Nat) (classes : SortedMap String Nat) (name n : String) :
    (if classes.contains name then classes else classes.insert name index).get? n =
      (classes.get? n).or (if n = name then some index else none) := by
  by_cases hname : n = name
  · subst hname
    rw [if_pos rfl]
    split
    next hknown =>
      obtain ⟨x, hx⟩ := SortedMap.contains_iff.1 hknown
      rw [hx, Option.some_or]
    next hknown =>
      have hnone : classes.get? n = none := SortedMap.contains_eq_false.1 (by simpa using hknown)
      rw [SortedMap.get?_insert_self, hnone, Option.none_or]
  · rw [if_neg hname, Option.or_none]
    split
    next => rfl
    next => rw [SortedMap.get?_insert, if_neg (by simpa using hname)]

/-- **The classes of an artifact get its position,** but for those that have one. -/
theorem get?_enter (index : Nat) (classes : SortedMap String Nat) (names : List String) (n : String) :
    (enter index classes names).get? n = (classes.get? n).or (if n ∈ names then some index else none) := by
  induction names generalizing classes with
  | nil => simp [enter]
  | cons name rest ih =>
    have hstep : enter index classes (name :: rest) =
        enter index (if classes.contains name then classes else classes.insert name index) rest := rfl
    rw [hstep, ih, get?_insert_unknown, Option.or_assoc]
    by_cases hname : n = name <;> simp [hname]

/-- **The position of a class is that of the first list that it is in.** -/
theorem get?_suppliers (index : Nat) (classes : SortedMap String Nat) (lists : List (List String)) (n : String) :
    (suppliers index classes lists).get? n =
      (classes.get? n).or ((lists.findIdx? fun names => n ∈ names).map (index + ·)) := by
  induction lists generalizing index classes with
  | nil => simp [suppliers]
  | cons names rest ih =>
    rw [suppliers, ih, get?_enter, Option.or_assoc, List.findIdx?_cons]
    by_cases hn : n ∈ names
    · simp [hn]
    · simp [hn, Function.comp_def, Nat.add_comm, Nat.add_left_comm]

theorem contains_suppliers (index : Nat) (classes : SortedMap String Nat) (lists : List (List String)) (n : String) :
    (suppliers index classes lists).contains n = true ↔ (∃ names ∈ lists, n ∈ names) ∨ classes.contains n = true := by
  rw [SortedMap.contains, get?_suppliers, Option.isSome_or, Option.isSome_map, List.findIdx?_isSome, Bool.or_eq_true, or_comm]
  simp [SortedMap.contains]

/-! ### The artifacts -/

/-- **The classes of an artifact,** read without regard to the others; none if it cannot be read. -/
def ownClasses (h : Host) (artifact : Path) : List String := (artifactClasses h artifact).toOption.getD []

/-- What can be read is there. -/
theorem exists?_of_artifactClasses {artifact : Path} {names : List String} (hread : artifactClasses h artifact = .ok names) :
    h.exists? artifact = true := by
  unfold Host.exists? Files.exists?
  unfold artifactClasses at hread
  split at hread
  next hdir =>
    -- a directory is there, and an archive that was opened is there too
    unfold Host.isDir Files.isDir at hdir
    cases hnode : h.files.lookup h.cwd artifact with
    | ok node => rfl
    | error fault => simp [hnode, Except.toOption] at hdir
  next =>
    unfold archiveClasses Zip.openAt at hread
    cases hnode : h.files.lookup h.cwd artifact with
    | ok node => rfl
    | error fault =>
      simp only [hnode] at hread
      cases hread

/-- **What is made of a toolchain:** the table of the classes that its artifacts have, if all of them can be read. -/
theorem build_eq_ok_iff {c : LoadingContext} : build h identity = .ok c ↔
    ∃ lists, identity.artifacts.map (artifactClasses h) = lists.map .ok ∧ c = ⟨identity, suppliers 0 ∅ lists⟩ := by
  constructor
  · intro hbuild
    unfold build at hbuild
    split at hbuild
    next => cases hbuild
    next =>
      obtain ⟨lists, hlists, hmade⟩ := bind_eq_ok_iff.1 hbuild
      exact ⟨lists, mapM_eq_ok_iff.1 hlists, (Except.ok.inj hmade).symm⟩
  · rintro ⟨lists, hlists, rfl⟩
    have hthere : missing? h identity = none := by
      refine List.find?_eq_none.2 fun artifact hmem => ?_
      have hread := List.mem_map_of_mem hmem (f := artifactClasses h)
      rw [hlists] at hread
      obtain ⟨names, -, hnames⟩ := List.mem_map.1 hread
      simp [exists?_of_artifactClasses hnames.symm]
    rw [build, hthere]
    dsimp only
    rw [mapM_eq_ok_iff.2 hlists]
    rfl

/-! ### The first artifact -/

/-- **Where a class is located.** The table is of no account: what is found is the first artifact that has the class. -/
theorem locate?_suppliers (identity : ToolchainIdentity) (own : Path → List String) (n : String) :
    (⟨identity, suppliers 0 ∅ (identity.artifacts.map own)⟩ : LoadingContext).locate? n =
      identity.artifacts.find? fun a => n ∈ own a := by
  rw [locate?, get?_suppliers, SortedMap.get?_empty, Option.none_or, List.findIdx?_map, List.find?_eq_bind_findIdx?_getElem?]
  simp [Function.comp_def]

theorem classCount_suppliers (identity : ToolchainIdentity) (own : Path → List String) :
    (⟨identity, suppliers 0 ∅ (identity.artifacts.map own)⟩ : LoadingContext).classCount =
      (identity.artifacts.flatMap own).toFinset.card := by
  rw [classCount, SortedMap.size_eq_card]
  refine congrArg Finset.card (Finset.ext fun n => ?_)
  rw [List.mem_toFinset, SortedMap.mem_keys, contains_suppliers, List.mem_toFinset, List.mem_flatMap]
  simp

/-- **Every class is located at the first artifact that has it.** Exactly if the classes of all artifacts can be read, the
table can be made. With it a class is located at the first artifact, in the order of the toolchain, that has the class among
its own, and nowhere exactly if none has it; the class is defined if it is located; and the number of classes is that of the
different names in all artifacts. -/
theorem locates_first (h : Host) (identity : ToolchainIdentity) :
    (∀ a ∈ identity.artifacts, ∃ names, artifactClasses h a = .ok names) ↔
      ∃ c, build h identity = .ok c ∧
        (∀ n, c.locate? n = identity.artifacts.find? fun a => n ∈ ownClasses h a) ∧
        (∀ n, c.locate? n = none ↔ ∀ a ∈ identity.artifacts, n ∉ ownClasses h a) ∧
        (∀ n, c.defines n = (c.locate? n).isSome) ∧
        c.classCount = (identity.artifacts.flatMap (ownClasses h)).toFinset.card := by
  constructor
  · intro hall
    -- every artifact can be read, and what it gives is its own classes
    have hlists : identity.artifacts.map (artifactClasses h) = (identity.artifacts.map (ownClasses h)).map .ok := by
      rw [List.map_map]
      refine List.map_congr_left fun a ha => ?_
      obtain ⟨names, hnames⟩ := hall a ha
      rw [Function.comp_apply, ownClasses, hnames]
      rfl
    refine ⟨_, build_eq_ok_iff.2 ⟨_, hlists, rfl⟩, locate?_suppliers identity _, fun n => ?_, fun n => ?_,
      classCount_suppliers identity _⟩
    · rw [locate?_suppliers, List.find?_eq_none]
      simp
    · rw [locate?_suppliers, Bool.eq_iff_iff, defines, contains_suppliers, List.find?_isSome]
      simp
  · rintro ⟨c, hbuild, -⟩ a ha
    obtain ⟨lists, hlists, -⟩ := build_eq_ok_iff.1 hbuild
    have hread := List.mem_map_of_mem ha (f := artifactClasses h)
    rw [hlists] at hread
    obtain ⟨names, -, hnames⟩ := List.mem_map.1 hread
    exact ⟨names, hnames.symm⟩

/-! ### A class in two artifacts -/

/-- Two directories with a class in common, of which the second has one more. -/
private def twoDirs : Host where
  files := ((((Files.put ∅ ["p"] .dir).put ["p", "S.class"] (.file [] false)).put ["q"] .dir).put ["q", "S.class"]
    (.file [] false)).put ["q", "O.class"] (.file [] false)

/-- The class that both have is located at the one that is listed first. -/
theorem locates_first_of_shared_class : ∃ c, build twoDirs ⟨"1", ["/p", "/q", "/q"]⟩ = .ok c ∧
    c.locate? "S" = some "/p" ∧ c.locate? "O" = some "/q" ∧ c.locate? "T" = none ∧ c.classCount = 2 := by
  have hp : (artifactClasses twoDirs "/p").toOption = some ["S"] := by decide +kernel
  have hq : (artifactClasses twoDirs "/q").toOption = some ["O", "S"] := by decide +kernel
  have hall : ∀ a ∈ (["/p", "/q", "/q"] : List Path), ∃ names, artifactClasses twoDirs a = .ok names := by
    simp [toOption_eq_some_iff.1 hp, toOption_eq_some_iff.1 hq]
  obtain ⟨c, hbuild, hlocate, -, -, hcount⟩ := (locates_first twoDirs ⟨"1", ["/p", "/q", "/q"]⟩).1 hall
  have hown : ownClasses twoDirs "/p" = ["S"] ∧ ownClasses twoDirs "/q" = ["O", "S"] := by
    rw [ownClasses, ownClasses, hp, hq]
    exact ⟨rfl, rfl⟩
  refine ⟨c, hbuild, ?_, ?_, ?_, ?_⟩
  · simp [hlocate, hown]
  · simp [hlocate, hown]
  · simp [hlocate, hown]
  · rw [hcount]
    simp only [List.flatMap_cons, List.flatMap_nil, hown]
    decide

end LoadingContext

end Recompile

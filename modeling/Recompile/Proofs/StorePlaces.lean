import Recompile.Config.Loading
import Recompile.Proofs.Fallible
import Recompile.Proofs.Parents
import Recompile.Proofs.Table

/-!
# Where stores are put

The stores of all output directories in one directory lie side by side in the directory `analysis` next to them. Two rules
name them: the layout names the stores of the directories that it knows, and every other store is named as its directory.
Nothing keeps the names that one rule gives from those that the other one gives, and that is the only way in which two output
directories can come to share a store (`Layout.storeForOutput_beq_iff`): one of them is called by the name of the store that
the layout has for the other one. The default layout has such a pair in every directory (`Layout.shared_stores`).

All this is for names of one step. A name with a separator in it leads further down or starts at the root, so that stores of
different directories meet, and a name that is no component at all puts the store where the directory of the stores is. The
check of a configuration refuses the former, and of the latter the empty name, but neither `.` nor `..`. So an accepted
configuration keeps its stores inside the directory `analysis` exactly if no store has one of these two names
(`Config.store_beside_iff`).
-/

namespace Recompile

open Recompile.Path

namespace Layout

variable {l : Layout} {output a b parent : Path} {name m n : String}

/-- The name of the store that a compile writes for an output directory of the given name. -/
def nameFor (l : Layout) (name : String) : String := (l.storeName? name).getD name

theorem storeForOutput_eq (hname : output.fileName? = some name) (hparent : output.parent? = some parent) :
    l.storeForOutput output = parent / directory / (⟨l.nameFor name⟩ : Path) := by
  unfold storeForOutput store? nameFor
  rw [hname, hparent]
  cases hstore : l.storeName? name with
  | none => simp [hstore]
  | some store => simp [hstore]

/-- An output directory that a layout names has a store for other modules, and it is the one that a compile writes. -/
theorem store?_of_named {store : String} (hname : output.fileName? = some name) (hstore : l.storeName? name = some store) :
    l.store? output = some (l.storeForOutput output) := by
  obtain ⟨parent, hparent, -⟩ := fileName?_eq_some_iff.1 hname
  have hthere : l.store? output = some (parent / directory / (⟨store⟩ : Path)) := by simp [store?, hname, hstore, hparent]
  rw [hthere, storeForOutput, hthere]

/-- **A store with a name of one step** is that step below the directory of the stores. -/
theorem components_store (parent : Path) {c : Component} (hsep : '/' ∉ name.toList)
    (hc : Component.ofSegment? name.toList = some c) :
    (parent / directory / (⟨name⟩ : Path)).components = (parent / directory).components ++ [c] :=
  components_join_segment _ hsep hc

theorem components_directory (parent : Path) : (parent / directory).components = parent.components ++ [.name "analysis"] :=
  components_join_name parent (by decide) (by decide) (by decide) (by decide)

/-! ### Stores of different directories -/

/-- Whether no name is given to two stores. -/
def DistinctStores (l : Layout) : Prop := (l.stores.entries.map Prod.snd).Nodup

instance (l : Layout) : Decidable l.DistinctStores := inferInstanceAs (Decidable (List.Nodup _))

/-- Whether every store has a name of one step. -/
def SingleNames (l : Layout) : Prop := ∀ e ∈ l.stores.entries, e.2 ≠ "" ∧ e.2 ≠ "." ∧ '/' ∉ e.2.toList

instance (l : Layout) : Decidable l.SingleNames := inferInstanceAs (Decidable (∀ e ∈ l.stores.entries, _))

/-- What a layout gives one store for is one output directory. -/
theorem DistinctStores.eq (hdistinct : l.DistinctStores) {store : String} (hm : l.storeName? m = some store)
    (hn : l.storeName? n = some store) : m = n := by
  obtain ⟨k, hk, hkm⟩ := SortedMap.get?_eq_some_iff.1 hm
  obtain ⟨k', hk', hkn⟩ := SortedMap.get?_eq_some_iff.1 hn
  have hsame : (k, store) = (k', store) := List.inj_on_of_nodup_map hdistinct hk hk' rfl
  rw [Std.LawfulEqCmp.eq_of_compare hkm, Std.LawfulEqCmp.eq_of_compare hkn, (Prod.mk.inj hsame).1]

/-- The name of a store is one step, whichever rule it comes from. -/
theorem SingleNames.nameFor (hsingle : l.SingleNames) (hname : output.fileName? = some name) :
    '/' ∉ (l.nameFor name).toList ∧ ∃ c, Component.ofSegment? (l.nameFor name).toList = some c := by
  cases hstore : l.storeName? name with
  | some store =>
    obtain ⟨k, hk, -⟩ := SortedMap.get?_eq_some_iff.1 hstore
    obtain ⟨hsome, hhere, hsep⟩ := hsingle (k, store) hk
    have hvoid : isVoid store.toList = false := by
      have hdot : store.toList ≠ ['.'] := fun h => hhere (String.toList_injective h)
      simp [isVoid, hsome, hdot]
    obtain ⟨c, hc, -⟩ := exists_ofSegment?_of_not_isVoid hvoid
    rw [Layout.nameFor, hstore]
    exact ⟨hsep, c, hc⟩
  | none =>
    -- without an entry the store has the name of the directory, which is a component of its path
    obtain ⟨parent, -, hcomponents⟩ := fileName?_eq_some_iff.1 hname
    have hmem : .name name ∈ output.components := by rw [hcomponents]; simp
    obtain ⟨hsep, hc⟩ := of_mem_components hmem
    rw [Layout.nameFor, hstore]
    exact ⟨hsep, _, hc⟩

/-- Two directories have stores of one name if the layout takes it for one of them from the other one, which it does not
know. -/
theorem nameFor_eq_iff (hdistinct : l.DistinctStores) (hne : m ≠ n) :
    l.nameFor m = l.nameFor n ↔
      (l.storeName? m = some n ∧ l.storeName? n = none) ∨ (l.storeName? n = some m ∧ l.storeName? m = none) := by
  unfold nameFor
  cases hm : l.storeName? m with
  | none =>
    cases hn : l.storeName? n with
    | none => simpa using hne
    | some t => simp [eq_comm]
  | some s =>
    cases hn : l.storeName? n with
    | none => simp
    | some t =>
      -- two directories with entries have different stores
      have hst : s ≠ t := by
        rintro rfl
        exact hne (hdistinct.eq hm hn)
      simpa using hst

/-- **When two output directories share a store.** Let the layout give no name twice, and only names of one step. Then two
different output directories have the same store if and only if they are in the same directory, and one of them, which
the layout does not know, is called by the name of the store that the layout has for the other one. -/
theorem storeForOutput_beq_iff (hdistinct : l.DistinctStores) (hsingle : l.SingleNames) (ha : a.fileName? = some m)
    (hb : b.fileName? = some n) (hne : (a == b) = false) :
    (l.storeForOutput a == l.storeForOutput b) = true ↔
      (∃ p q, a.parent? = some p ∧ b.parent? = some q ∧ (p == q) = true) ∧
        ((l.storeName? m = some n ∧ l.storeName? n = none) ∨ (l.storeName? n = some m ∧ l.storeName? m = none)) := by
  obtain ⟨p, hp, hap⟩ := fileName?_eq_some_iff.1 ha
  obtain ⟨q, hq, hbq⟩ := fileName?_eq_some_iff.1 hb
  obtain ⟨hsepM, c, hc⟩ := hsingle.nameFor ha
  obtain ⟨hsepN, d, hd⟩ := hsingle.nameFor hb
  -- the two stores have the same components if the directories and the names have
  have hstores : (l.storeForOutput a == l.storeForOutput b) = true ↔ (p == q) = true ∧ l.nameFor m = l.nameFor n := by
    rw [beq_iff, beq_iff, storeForOutput_eq ha hp, storeForOutput_eq hb hq, components_store p hsepM hc,
      components_store q hsepN hd, components_directory, components_directory]
    constructor
    · intro h
      obtain ⟨hparents, hlast⟩ := List.append_inj' h rfl
      obtain rfl : c = d := by simpa using hlast
      exact ⟨(List.append_inj' hparents rfl).1, (text_of_ofSegment? hc).symm.trans (text_of_ofSegment? hd)⟩
    · rintro ⟨hparents, hnames⟩
      rw [hnames, hd] at hc
      rw [hparents, Option.some.inj hc]
  have hparents : (∃ p q, a.parent? = some p ∧ b.parent? = some q ∧ (p == q) = true) ↔ (p == q) = true := by
    simp [hp, hq]
  rw [hstores, hparents]
  refine and_congr_right fun hsame => nameFor_eq_iff hdistinct ?_
  -- different directories at one place have different names
  rintro rfl
  have hequal : (a == b) = true := by rw [beq_iff, hap, hbq, beq_iff.1 hsame]
  rw [hequal] at hne
  simp at hne

/-- The default layout keeps the stores of the directories that it knows apart, and gives one of them to a directory that it
does not know. -/
theorem storeForOutput_beq_of_standard :
    standard.DistinctStores ∧ standard.SingleNames ∧ (⟨"t/classes"⟩ : Path).fileName? = some "classes" ∧
      (⟨"t/test-classes"⟩ : Path).fileName? = some "test-classes" ∧ (⟨"t/compile"⟩ : Path).fileName? = some "compile" ∧
      ((⟨"t/classes"⟩ : Path) == ⟨"t/test-classes"⟩) = false ∧ ((⟨"t/classes"⟩ : Path) == ⟨"t/compile"⟩) = false ∧
      (standard.storeForOutput "t/classes" == standard.storeForOutput "t/test-classes") = false ∧
      (standard.storeForOutput "t/classes" == standard.storeForOutput "t/compile") = true := by
  have hdistinct : standard.DistinctStores := by decide
  have hsingle : standard.SingleNames := by decide
  have hclasses : (⟨"t/classes"⟩ : Path).fileName? = some "classes" := by decide
  have htests : (⟨"t/test-classes"⟩ : Path).fileName? = some "test-classes" := by decide
  have hcompile : (⟨"t/compile"⟩ : Path).fileName? = some "compile" := by decide
  refine ⟨hdistinct, hsingle, hclasses, htests, hcompile, by decide, by decide, Bool.eq_false_iff.2 fun hsame => ?_, ?_⟩
  · have hshared := (storeForOutput_beq_iff hdistinct hsingle hclasses htests (by decide)).1 hsame
    exact absurd hshared.2 (by decide)
  · rw [storeForOutput_beq_iff hdistinct hsingle hclasses hcompile (by decide)]
    exact ⟨⟨⟨"t"⟩, ⟨"t"⟩, rfl, rfl, by decide⟩, Or.inl (by decide)⟩

/-- Whether two different output directories, each of them a name in a directory, share a store of a layout that gives no
name twice. -/
def Shares (l : Layout) (a b : Path) : Prop :=
  l.DistinctStores ∧ (a == b) = false ∧ (a.parent?.isSome = true ∧ a.fileName?.isSome = true) ∧
    (b.parent?.isSome = true ∧ b.fileName?.isSome = true) ∧ (l.storeForOutput a == l.storeForOutput b) = true

instance (l : Layout) (a b : Path) : Decidable (l.Shares a b) := inferInstanceAs (Decidable (_ ∧ _))

/-- **Shared stores.** A directory that is called by the name of a store shares it with the directory next to it that the
store is for. And names that are not one step lead from different directories to one store: a name from the root, one of
two steps, and one of none. -/
theorem shared_stores :
    standard.Shares "t/classes" "t/compile" ∧
      Shares ⟨SortedMap.ofList [("out", "/store")]⟩ "p/out" "q/out" ∧
      Shares ⟨SortedMap.ofList [("x", "analysis/k"), ("y", "k")]⟩ "p/x" "p/analysis/y" ∧
      Shares ⟨SortedMap.ofList [("d", ".")]⟩ "p/analysis/d" "p/analysis" := by
  decide +kernel

end Layout

/-! ### Stores of accepted configurations -/

namespace Config

variable {c : Config} {output : Path}

/-- **What the check of a configuration asks for.** -/
theorem check_eq_ok_iff :
    c.check = .ok () ↔ ¬ isBlankText c.toolchain.version = true ∧ ¬ c.toolchain.library.spelling = "" ∧
      ¬ c.toolchain.compiler.spelling = "" ∧ ¬ isBlankText c.engine.version = true ∧ ¬ c.maxErrors = 0 ∧
      ∀ e ∈ c.layout.stores.entries, checkStore e.1 e.2 = .ok () := by
  unfold check
  dsimp only
  rw [guard_eq_ok_iff, guard_eq_ok_iff, guard_eq_ok_iff, guard_eq_ok_iff, guard_eq_ok_iff, forM_eq_ok_iff]

theorem checkStore_eq_ok_iff {dir store : String} :
    checkStore dir store = .ok () ↔ dir ≠ "" ∧ store ≠ "" ∧ '/' ∉ store.toList ∧ '\\' ∉ store.toList := by
  unfold checkStore
  by_cases hempty : dir = "" ∨ store = ""
  · rw [if_pos hempty]
    rcases hempty with rfl | rfl <;> simp
  · rw [if_neg hempty]
    obtain ⟨hdir, hstore⟩ := not_or.1 hempty
    by_cases hsep : (store.toList.any fun c => c == '/' || c == '\\') = true
    · rw [if_pos hsep]
      obtain ⟨c, hmem, hc⟩ := List.any_eq_true.1 hsep
      have hor : c = '/' ∨ c = '\\' := by simpa using hc
      rcases hor with rfl | rfl <;> simp [hmem]
    · rw [if_neg hsep]
      have hnone : ∀ c ∈ store.toList, ¬ (c = '/' ∨ c = '\\') := by simpa using hsep
      exact ⟨fun _ => ⟨hdir, hstore, fun h => hnone _ h (Or.inl rfl), fun h => hnone _ h (Or.inr rfl)⟩, fun _ => rfl⟩

/-- A configuration that is read has passed its check. -/
theorem check_of_ofText {text : String} (accepted : ofText text = .ok c) : c.check = .ok () := by
  unfold ofText at accepted
  split at accepted
  · cases accepted
  · split at accepted
    · cases accepted
    next read _ =>
      obtain ⟨_, hcheck, haccepted⟩ := bind_eq_ok_iff.1 accepted
      obtain rfl : read = c := Except.ok.inj haccepted
      exact hcheck

end Config

/-- **Whether a store is a file in the directory of the stores** beside the output directories of a directory. -/
def Layout.Inside (parent store : Path) : Prop :=
  ∃ dir name, store.parent? = some dir ∧ (dir == parent / directory) = true ∧ store.fileName? = some name

theorem Layout.inside_iff {parent store : Path} :
    Inside parent store ↔ ∃ name, store.components = (parent / directory).components ++ [.name name] := by
  constructor
  · rintro ⟨dir, name, hdir, hsame, hname⟩
    obtain ⟨dir', hdir', hcomponents⟩ := fileName?_eq_some_iff.1 hname
    obtain rfl : dir' = dir := Option.some.inj (hdir'.symm.trans hdir)
    exact ⟨name, by rw [hcomponents, beq_iff.1 hsame]⟩
  · rintro ⟨name, hcomponents⟩
    obtain ⟨dir, hdir, hsame⟩ := components_parent?_eq_some_iff.2 ⟨_, by simp, hcomponents⟩
    refine ⟨dir, name, hdir, beq_iff.2 hsame, fileName?_eq_some_iff.2 ⟨dir, hdir, ?_⟩⟩
    rw [hsame, hcomponents]

namespace Config

variable {c : Config} {output : Path}

/-- **Where an accepted configuration puts a store.** For an output directory that the layout names, the path of the store is
that of the directory `analysis` beside it, followed by the name of the store. That is a file in this directory, with the
name of the store as its name, exactly if the name is neither `.` nor `..`, which the check lets pass: the former is no step
at all, and the latter leads out of the directory. -/
theorem store_beside_iff {text dir name : String} (accepted : ofText text = .ok c) (hdir : output.fileName? = some dir)
    (hname : c.layout.storeName? dir = some name) :
    ∃ parent store, output.parent? = some parent ∧ c.layout.store? output = some store ∧
      c.layout.storeForOutput output = store ∧
      store.components = (parent / Layout.directory).components ++ (Component.ofSegment? name.toList).toList ∧
      (Layout.Inside parent store ↔ name ≠ "." ∧ name ≠ "..") := by
  obtain ⟨parent, hparent, -⟩ := fileName?_eq_some_iff.1 hdir
  obtain ⟨key, hentry, -⟩ := SortedMap.get?_eq_some_iff.1 hname
  obtain ⟨-, -, -, -, -, hstores⟩ := check_eq_ok_iff.1 (check_of_ofText accepted)
  obtain ⟨-, hsome, hsep, -⟩ := checkStore_eq_ok_iff.1 (hstores _ hentry)
  have hstore : c.layout.storeForOutput output = parent / Layout.directory / (⟨name⟩ : Path) := by
    rw [Layout.storeForOutput_eq hdir hparent, Layout.nameFor, hname, Option.getD_some]
  refine ⟨parent, _, hparent, Layout.store?_of_named hdir hname, rfl, ?_⟩
  rw [hstore, Layout.inside_iff]
  by_cases hhere : name = "."
  · -- nothing is behind the directory of the stores
    subst hhere
    have hroot : (parent / Layout.directory).spelling ≠ "" := by
      intro hnil
      have hcomponents := Layout.components_directory parent
      rw [components, hnil] at hcomponents
      have hnone : componentsOf [] = [] := by decide
      simp [hnone] at hcomponents
    have hsame : (parent / Layout.directory / (⟨"."⟩ : Path)).components = (parent / Layout.directory).components := by
      rw [components_join_relative hroot (by decide)]
      exact List.append_nil _
    have hvoid : Component.ofSegment? ".".toList = none := by decide
    rw [hsame, hvoid]
    simp
  · by_cases hup : name = ".."
    · subst hup
      have hc : Component.ofSegment? "..".toList = some .up := by decide
      rw [Layout.components_store parent hsep hc, hc]
      simp
    · have hc := ofSegment?_name hsome hhere hup
      rw [Layout.components_store parent hsep hc, hc]
      simp [hhere, hup]

/-- A document that gives the store of `classes` a name. -/
private def document (name : String) : String :=
  "[toolchain]\nversion = \"2.13.12\"\nlibrary_jar = \"l.jar\"\ncompiler_jar = \"c.jar\"\n[engine]\nversion = \"1.9.3\"\n" ++
    "[analysis.layout]\nclasses = \"" ++ name ++ "\"\n"

private theorem exists_ofText_document {name : String} (h : name ∈ ["main", ".", ".."]) :
    ∃ c, ofText (document name) = .ok c ∧ c.layout.storeName? "classes" = some name ∧
      c.layout.store? "target/classes" = some ⟨"target/analysis/" ++ name⟩ := by
  -- the three documents are read in one evaluation
  have hall : ∀ name ∈ ["main", ".", ".."], ∃ c ∈ (ofText (document name)).toOption,
      c.layout.storeName? "classes" = some name ∧
        (c.layout.store? "target/classes").map Path.spelling = some ("target/analysis/" ++ name) := by
    decide +kernel
  obtain ⟨c, hmem, hname, hstore⟩ := hall name h
  obtain ⟨⟨spelling⟩, hsome, rfl⟩ := Option.map_eq_some_iff.1 hstore
  refine ⟨c, ?_, hname, hsome⟩
  exact toOption_eq_some_iff.1 (by simpa using hmem)

/-- A store with a name of its own. -/
theorem store_beside_main :
    ∃ c parent store, ofText (document "main") = .ok c ∧ (⟨"target/classes"⟩ : Path).fileName? = some "classes" ∧
      c.layout.storeName? "classes" = some "main" ∧ c.layout.store? "target/classes" = some store ∧
      Layout.Inside parent store := by
  have hmain : "main" ∈ ["main", ".", ".."] := by decide
  obtain ⟨c, accepted, hname, -⟩ := exists_ofText_document hmain
  have hdir : (⟨"target/classes"⟩ : Path).fileName? = some "classes" := by decide
  obtain ⟨parent, store, -, hstore, -, -, hinside⟩ := store_beside_iff accepted hdir hname
  exact ⟨c, parent, store, accepted, hdir, hname, hstore, hinside.2 (by decide)⟩

/-- Whether a configuration is accepted that gives the store of `target/classes` a name with which it is no file in
`target/analysis`. -/
private def StoreOutside (name : String) : Prop :=
  ∃ c store, ofText (document name) = .ok c ∧ (⟨"target/classes"⟩ : Path).fileName? = some "classes" ∧
    (⟨"target/classes"⟩ : Path).parent? = some "target" ∧ c.layout.storeName? "classes" = some name ∧
    c.layout.store? "target/classes" = some store ∧ ¬ Layout.Inside "target" store

private theorem storeOutside_of_components {name : String} (hname : name ∈ [".", ".."])
    (hlast : ∀ file, (⟨"target/analysis/" ++ name⟩ : Path).components ≠
      [.name "target", .name "analysis", .name file]) : StoreOutside name := by
  obtain ⟨c, accepted, hnamed, hstore⟩ := exists_ofText_document (List.mem_cons_of_mem "main" hname)
  refine ⟨c, _, accepted, by decide, rfl, hnamed, hstore, ?_⟩
  have hdirectory : ((⟨"target"⟩ : Path) / Layout.directory).components = [.name "target", .name "analysis"] := by decide
  rw [Layout.inside_iff, hdirectory]
  rintro ⟨file, hcomponents⟩
  exact hlast file hcomponents

/-- **Accepted names that lead out of the directory.** With the name `.` the store is in the place of the directory
`analysis`, and with `..` it is in that of the directory around it. -/
theorem accepted_store_outside : StoreOutside "." ∧ StoreOutside ".." := by
  constructor
  · have hhere : (⟨"target/analysis/" ++ "."⟩ : Path).components = [.name "target", .name "analysis"] := by decide
    exact storeOutside_of_components (by decide) fun file => by
      rw [hhere]
      simp
  · have hup : (⟨"target/analysis/" ++ ".."⟩ : Path).components = [.name "target", .name "analysis", .up] := by decide
    exact storeOutside_of_components (by decide) fun file => by
      rw [hup]
      simp

end Config

end Recompile

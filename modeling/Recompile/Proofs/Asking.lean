import Recompile.Engine.Invalidation
import Recompile.Engine.Recording

/-!
# What a compile asks a classpath

A compile has one way to use a classpath that it has opened: it asks for the fingerprint of a class, again and again, and
hands on the classpath that remembers the answer. `Classpath.Asks` says that a classpath comes from another one by such
questions, all of them on one machine. Looking for stale sources and recording units do nothing else to it
(`Engine.asks_staleClass`, `asks_recordUnits`), so that what holds of the memory of a classpath is proved for one question
(`Classpath.Lasting`).

The answers are all that a compile sees of the machine behind a classpath. On two machines where the entries give the same
fingerprints it finds the same stale class and records the same analysis (`Engine.staleClass_congr`, `recordUnits_congr`).
-/

namespace Recompile

namespace Classpath

/-- **A classpath after some questions,** asked on one machine. -/
inductive Asks (h : Host) : Classpath → Classpath → Prop
  | refl (c : Classpath) : Asks h c c
  | ask {c c' : Classpath} (name : String) (rest : Asks h (c.fingerprint h name).2 c') : Asks h c c'

theorem Asks.trans {h : Host} {c c₁ c₂ : Classpath} (first : Asks h c c₁) (second : Asks h c₁ c₂) : Asks h c c₂ := by
  induction first with
  | refl => exact second
  | ask name _ ih => exact .ask name (ih second)

/-- Questions change no entry. -/
theorem entries_fingerprint (h : Host) (name : String) (c : Classpath) :
    (c.fingerprint h name).2.entries = c.entries := by
  unfold fingerprint
  split <;> rfl

theorem Asks.entries {h : Host} {c c' : Classpath} (asks : Asks h c c') : c'.entries = c.entries := by
  induction asks with
  | refl => rfl
  | ask name _ ih => rw [ih, entries_fingerprint]

/-- **A property of classpaths that lasts,** whatever is asked on machines with another property. -/
def Lasting (I : Host → Prop) (Q : Classpath → Prop) : Prop := ∀ h c c', I h → Asks h c c' → Q c → Q c'

theorem lasting_true {I : Host → Prop} : Lasting I fun _ => True := fun _ _ _ _ _ _ => trivial

/-- Whether the entries of a classpath give every class the same fingerprint on two machines. -/
def SameOn (c : Classpath) (h h' : Host) : Prop := ∀ name, search? h name c.entries = search? h' name c.entries

theorem SameOn.fingerprint {c : Classpath} {h h' : Host} (same : c.SameOn h h') (name : String) :
    c.fingerprint h name = c.fingerprint h' name := by
  unfold Classpath.fingerprint
  rw [same name]

theorem SameOn.asked {c c' : Classpath} {h h' m : Host} (same : c.SameOn h h') (asks : Asks m c c') : c'.SameOn h h' := by
  unfold SameOn
  rw [asks.entries]
  exact same

theorem lasting_sameOn (I : Host → Prop) : Lasting I fun c => ∀ h h', I h → I h' → c.SameOn h h' :=
  fun _ _ _ _ asks same h h' hI hI' => (same h h' hI hI').asked asks

end Classpath

open Classpath

variable {h h' : Host}

/-! ### Looking for a stale class -/

namespace Engine

theorem asks_staleClass (h : Host) (deps : List (String × Digest)) (c : Classpath) :
    Asks h c (staleClass h deps c).2 := by
  induction deps generalizing c with
  | nil => exact .refl c
  | cons dep rest ih =>
    unfold staleClass
    dsimp only
    split
    · exact .ask dep.1 (ih _)
    · exact .ask dep.1 (.refl _)

theorem staleClass_congr (deps : List (String × Digest)) {c : Classpath} (same : c.SameOn h h') :
    staleClass h deps c = staleClass h' deps c := by
  induction deps generalizing c with
  | nil => rfl
  | cons dep rest ih =>
    have hrest := ih (same.asked (.ask (h := h') dep.1 (.refl _)))
    unfold staleClass
    rw [same.fingerprint dep.1]
    dsimp only
    rw [hrest]

end Engine

/-! ### Recording units -/

theorem asks_addReferences (h : Host) (owners : SortedMap String Path) (source : Path) (names : List String)
    (info : SourceInfo) (c : Classpath) : Asks h c (addReferences h owners source names info c).2 := by
  induction names generalizing info c with
  | nil => exact .refl c
  | cons name rest ih =>
    unfold addReferences
    split
    · split
      · exact ih _ _
      · exact ih _ _
    · -- only a class without an owner is asked for
      refine .ask name ?_
      split
      next c₁ heq => rw [heq]; exact ih _ _
      next c₁ heq => rw [heq]; exact ih _ _

theorem addReferences_congr (owners : SortedMap String Path) (source : Path) (names : List String) (info : SourceInfo)
    {c : Classpath} (same : c.SameOn h h') :
    addReferences h owners source names info c = addReferences h' owners source names info c := by
  induction names generalizing info c with
  | nil => rfl
  | cons name rest ih =>
    unfold addReferences
    -- the answer is the same now, and what is asked later finds the same fingerprints again
    rw [same.fingerprint name]
    have hafter : (c.fingerprint h' name).2.SameOn h h' := same.asked (.ask (h := h') name (.refl _))
    rcases hfound : c.fingerprint h' name with ⟨found, c₁⟩
    rw [hfound] at hafter
    split
    · rw [ih _ same, ih _ same]
    · cases found with
      | none => exact ih info hafter
      | some d => exact ih _ hafter

theorem asks_recordEach (h : Host) (digests : SortedMap Path Digest) (owners : SortedMap String Path)
    (units : List CompiledUnit) (a : Analysis) (c : Classpath) : Asks h c (recordEach h digests owners units a c).2 := by
  induction units generalizing a c with
  | nil => exact .refl c
  | cons u rest ih =>
    unfold recordEach
    split
    · exact ih a c
    · exact (asks_addReferences h owners u.source _ _ c).trans (ih _ _)

theorem recordEach_congr (digests : SortedMap Path Digest) (owners : SortedMap String Path) (units : List CompiledUnit)
    (a : Analysis) {c : Classpath} (same : c.SameOn h h') :
    recordEach h digests owners units a c = recordEach h' digests owners units a c := by
  induction units generalizing a c with
  | nil => rfl
  | cons u rest ih =>
    unfold recordEach
    split
    · exact ih a same
    next digest _ =>
      rw [addReferences_congr owners u.source _ _ same]
      exact ih _ (same.asked (asks_addReferences h' owners u.source _ _ c))

theorem asks_recordUnits (h : Host) (digests : SortedMap Path Digest) (batch : List Path) (units : List CompiledUnit)
    (a : Analysis) (c : Classpath) : Asks h c (recordUnits h digests batch units a c).2 :=
  asks_recordEach h digests _ units a c

/-- **The same fingerprints make the same analysis.** -/
theorem recordUnits_congr (digests : SortedMap Path Digest) (batch : List Path) (units : List CompiledUnit) (a : Analysis)
    {c : Classpath} (same : c.SameOn h h') :
    recordUnits h digests batch units a c = recordUnits h' digests batch units a c := by
  unfold recordUnits
  rw [recordEach_congr digests _ units a same]

end Recompile

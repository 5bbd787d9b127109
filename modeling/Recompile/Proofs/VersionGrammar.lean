import Mathlib.Data.List.Basic
import Mathlib.Data.List.TakeDrop
import Mathlib.Data.List.TakeWhile
import Mathlib.Tactic.Common
import Recompile.Text.Line
import Recompile.Toolchain.Version

/-!
# Written forms of versions

A version is written as one to three numbers with dots between them, perhaps with a dash and a modifier behind them
(`Version.Written`), and with blank space around all that. There is more than one text for a version: numbers may have a plus
sign and zeros in front, and a last number that is zero may be missing. What the reader makes of a text is exactly the version
it is a written form of (`Version.reads_written_forms`).

The reader cuts a text three times, and each cut has one place: the blanks end where the version begins
(`Text.trimChars_eq_iff`), the modifier begins behind the first dash, since no number has a dash in it
(`Version.splitModifier_eq_iff`), and a dot ends a number (`Version.numbers?_eq_some_iff`).

The normal form of a version has all three numbers, without signs or zeros in front of them. It begins with a digit, and it
ends in a digit or with the modifier. A modifier that was read does not end in a blank, so that nothing is cut off when the
normal form is read again.
-/

namespace Recompile

/-! ### Blanks around a text -/

namespace Text

/-- **What is left of a text without the blanks around it.** Only blanks are taken away, and no end of what is left is
blank. -/
structure Stripped (cs body : List Char) : Prop where
  around : ∃ before after, cs = before ++ body ++ after ∧ (∀ c ∈ before, isBlank c = true) ∧ ∀ c ∈ after, isBlank c = true
  first : ∀ c ∈ body.head?, isBlank c = false
  last : ∀ c ∈ body.getLast?, isBlank c = false

theorem head?_dropWhile_isBlank (cs : List Char) : ∀ c ∈ (cs.dropWhile isBlank).head?, isBlank c = false := by
  intro c hc
  have hnot := List.head?_dropWhile_not isBlank cs
  rw [Option.mem_def.1 hc] at hnot
  simpa using hnot

/-- Blanks in front of a text are dropped up to where it begins. -/
theorem dropWhile_isBlank_append {before rest : List Char} (hbefore : ∀ c ∈ before, isBlank c = true)
    (hrest : ∀ c ∈ rest.head?, isBlank c = false) : (before ++ rest).dropWhile isBlank = rest := by
  rw [List.dropWhile_append_of_pos hbefore]
  cases rest with
  | nil => rfl
  | cons c rest => rw [List.dropWhile_cons_of_neg (by simpa using hrest c rfl)]

/-- **A trimmed text is what is left without the blanks around it.** -/
theorem trimChars_eq_iff {cs body : List Char} : trimChars cs = body ↔ Stripped cs body := by
  constructor
  · rintro rfl
    have hfront : cs = cs.takeWhile isBlank ++ cs.dropWhile isBlank := List.takeWhile_append_dropWhile.symm
    generalize hrest : cs.dropWhile isBlank = rest at hfront
    have hback : rest = trimChars cs ++ (rest.reverse.takeWhile isBlank).reverse := by
      rw [trimChars, hrest, ← List.reverse_append, List.takeWhile_append_dropWhile, List.reverse_reverse]
    refine ⟨⟨_, _, hfront.trans (by rw [List.append_assoc, ← hback]), fun c hc => ?_, fun c hc => ?_⟩, fun c hc => ?_,
      fun c hc => ?_⟩
    · exact List.mem_takeWhile_imp hc
    · exact List.mem_takeWhile_imp (List.mem_reverse.1 hc)
    · -- what the trimmed text begins with is what the text begins with behind its blanks
      have hhead : c ∈ rest.head? := by
        rw [hback, List.head?_append, Option.mem_def.1 hc]
        rfl
      exact head?_dropWhile_isBlank cs c (hrest ▸ hhead)
    · rw [trimChars, List.getLast?_reverse] at hc
      exact head?_dropWhile_isBlank _ c hc
  · rintro ⟨⟨before, after, rfl, hbefore, hafter⟩, hfirst, hlast⟩
    have hafter' : ∀ c ∈ after.reverse, isBlank c = true := fun c hc => hafter c (List.mem_reverse.1 hc)
    by_cases hbody : body = []
    · -- there is nothing but blanks
      have hall : ∀ c ∈ before ++ after, isBlank c = true := fun c hc =>
        (List.mem_append.1 hc).elim (hbefore c) (hafter c)
      rw [trimChars, hbody, List.append_nil, List.dropWhile_eq_nil_iff.2 hall]
      rfl
    · have hhead : ∀ c ∈ (body ++ after).head?, isBlank c = false := by
        rwa [List.head?_append_of_ne_nil body hbody]
      rw [trimChars, List.append_assoc, dropWhile_isBlank_append hbefore hhead, List.reverse_append,
        dropWhile_isBlank_append hafter' (by rwa [List.head?_reverse]), List.reverse_reverse]

end Text

namespace Version

/-! ### Numbers -/

/-- **A number as it may be written:** one digit or more, perhaps with a plus sign in front, with a value of 32 bits. -/
def Numeral (cs : List Char) (n : UInt32) : Prop :=
  ∃ sign ds, cs = sign ++ ds ∧ (sign = [] ∨ sign = ['+']) ∧ ds ≠ [] ∧ (∀ c ∈ ds, c.isDigit = true) ∧
    Nat.ofDigitChars 10 ds 0 < UInt32.size ∧ n = UInt32.ofNat (Nat.ofDigitChars 10 ds 0)

/-- What the reader makes of digits is their value, in core's reading. -/
theorem digits?_eq_some_iff {value n : Nat} {ds : List Char} :
    digits? value ds = some n ↔ (∀ c ∈ ds, c.isDigit = true) ∧ n = Nat.ofDigitChars 10 ds value := by
  induction ds generalizing value with
  | nil => exact ⟨fun h => ⟨by simp, (Option.some.inj h).symm⟩, fun h => congrArg some h.2.symm⟩
  | cons c rest ih =>
    rw [digits?, digit?, List.forall_mem_cons, Nat.ofDigitChars_cons, Nat.mul_comm 10 value, and_assoc]
    by_cases hc : c.isDigit = true
    · rw [if_pos hc, Option.bind_some, ih, and_iff_right hc]
    · rw [if_neg hc, Option.bind_none]
      exact iff_of_false (by simp) fun h => hc h.1

/-- The value of digits without a sign. -/
def unsigned? (ds : List Char) : Option UInt32 :=
  if ds = [] then none
  else (digits? 0 ds).bind fun n => if n < 0x100000000 then some (UInt32.ofNat n) else none

theorem unsigned?_eq_some_iff {ds : List Char} {n : UInt32} :
    unsigned? ds = some n ↔ ds ≠ [] ∧ (∀ c ∈ ds, c.isDigit = true) ∧ Nat.ofDigitChars 10 ds 0 < UInt32.size ∧
      n = UInt32.ofNat (Nat.ofDigitChars 10 ds 0) := by
  rw [unsigned?, Option.ite_none_left_eq_some, Option.bind_eq_some_iff]
  refine and_congr_right fun _ => ?_
  constructor
  · rintro ⟨value, hvalue, hn⟩
    obtain ⟨hdigits, rfl⟩ := digits?_eq_some_iff.1 hvalue
    split at hn
    next hlt => exact ⟨hdigits, hlt, (Option.some.inj hn).symm⟩
    next => cases hn
  · rintro ⟨hdigits, hlt, rfl⟩
    exact ⟨_, digits?_eq_some_iff.2 ⟨hdigits, rfl⟩, if_pos hlt⟩

theorem number?_plus (ds : List Char) : number? ('+' :: ds) = unsigned? ds := rfl

theorem number?_of_head? {cs : List Char} (h : cs.head? ≠ some '+') : number? cs = unsigned? cs := by
  cases cs with
  | nil => rfl
  | cons c rest =>
    have hc : c ≠ '+' := by simpa using h
    simp [number?, unsigned?, hc]

/-- **The reader takes the numbers that may be written,** for what they are. -/
theorem number?_eq_some_iff {cs : List Char} {n : UInt32} : number? cs = some n ↔ Numeral cs n := by
  constructor
  · intro h
    by_cases hplus : cs.head? = some '+'
    · obtain ⟨ds, rfl⟩ := List.head?_eq_some_iff.1 hplus
      rw [number?_plus] at h
      exact ⟨['+'], ds, rfl, Or.inr rfl, unsigned?_eq_some_iff.1 h⟩
    · rw [number?_of_head? hplus] at h
      exact ⟨[], cs, rfl, Or.inl rfl, unsigned?_eq_some_iff.1 h⟩
  · rintro ⟨sign, ds, rfl, rfl | rfl, hds⟩
    · -- a digit is in front, which is no sign
      have hdigit : ds.head? ≠ some '+' := fun hplus => absurd (hds.2.1 '+' (List.mem_of_head? hplus)) (by decide)
      rw [List.nil_append, number?_of_head? hdigit]
      exact unsigned?_eq_some_iff.2 hds
    · rw [List.singleton_append, number?_plus]
      exact unsigned?_eq_some_iff.2 hds

/-- The characters of a number are digits and plus signs. -/
theorem Numeral.mem {cs : List Char} {n : UInt32} (h : Numeral cs n) {c : Char} (hc : c ∈ cs) :
    c.isDigit = true ∨ c = '+' := by
  obtain ⟨sign, ds, rfl, hsign, -, hdigits, -⟩ := h
  rcases List.mem_append.1 hc with hc | hc
  · rcases hsign with rfl | rfl
    · cases hc
    · exact Or.inr (List.mem_singleton.1 hc)
  · exact Or.inl (hdigits c hc)

theorem isBlank_of_isDigit {c : Char} (h : c.isDigit = true) : Text.isBlank c = false := by
  have hrange : 48 ≤ c.toNat ∧ c.toNat ≤ 57 := by simpa [Char.isDigit, UInt32.le_iff_toNat_le] using h
  simp only [Text.isBlank, Text.blankRanges, List.any_cons, List.any_nil, Bool.or_false, Bool.or_eq_false_iff,
    Bool.and_eq_false_iff, decide_eq_false_iff_not]
  omega

theorem Numeral.not_mem {cs : List Char} {n : UInt32} (h : Numeral cs n) {c : Char} (hc : c.isDigit = false ∧ c ≠ '+') :
    c ∉ cs := by
  intro hmem
  rcases h.mem hmem with hdigit | hplus
  · simp [hc.1] at hdigit
  · exact hc.2 hplus

/-- **Every number of 32 bits is read back from its digits.** -/
theorem numeral_toString (n : UInt32) : Numeral (toString n.toNat).toList n := by
  have hdigits : (toString n.toNat).toList = Nat.toDigits 10 n.toNat := by
    change (Nat.repr n.toNat).toList = _
    rw [Nat.repr_eq_ofList_toDigits, String.toList_ofList]
  rw [hdigits]
  refine ⟨[], Nat.toDigits 10 n.toNat, rfl, Or.inl rfl, Nat.toDigits_ne_nil, fun c hc => ?_, ?_⟩
  · exact Nat.isDigit_of_mem_toDigits (by decide) (by decide) hc
  · rw [Nat.ofDigitChars_ten_toDigits]
    exact ⟨n.toNat_lt_size, by simp⟩

/-! ### Releases -/

/-- **The numbers of a version as they may be written:** three of them with dots between them, of which the last ones may be
missing and are zero then. -/
inductive Release : List Char → UInt32 → UInt32 → UInt32 → Prop
  | major {a : List Char} {x : UInt32} (ha : Numeral a x) : Release a x 0 0
  | minor {a b : List Char} {x y : UInt32} (ha : Numeral a x) (hb : Numeral b y) : Release (a ++ '.' :: b) x y 0
  | patch {a b c : List Char} {x y z : UInt32} (ha : Numeral a x) (hb : Numeral b y) (hc : Numeral c z) :
    Release (a ++ '.' :: (b ++ '.' :: c)) x y z

variable {cs : List Char} {x y z : UInt32}

theorem Numeral.splitOn {n : UInt32} (h : Numeral cs n) : cs.splitOn '.' = [cs] :=
  List.splitOn_eq_singleton (h.not_mem (by decide))

theorem Numeral.splitOn_append {n : UInt32} (h : Numeral cs n) (rest : List Char) :
    (cs ++ '.' :: rest).splitOn '.' = cs :: rest.splitOn '.' := by
  rw [List.splitOn_append_cons_self, h.splitOn]
  rfl

/-- **The reader takes the numbers of a version as they may be written.** -/
theorem numbers?_eq_some_iff : numbers? cs = some (x, y, z) ↔ Release cs x y z := by
  constructor
  · intro h
    -- the pieces give back the text, so the shape of the list is the shape of the text
    have hwhole : ['.'].intercalate (cs.splitOn '.') = cs := List.intercalate_splitOn '.'
    unfold numbers? at h
    split at h
    next a hsplit =>
      rw [hsplit] at hwhole
      obtain ⟨_, ha, h⟩ := Option.bind_eq_some_iff.1 h
      obtain ⟨⟩ := h
      obtain rfl : a = cs := by simpa using hwhole
      exact .major (number?_eq_some_iff.1 ha)
    next a b hsplit =>
      rw [hsplit] at hwhole
      obtain ⟨_, ha, h⟩ := Option.bind_eq_some_iff.1 h
      obtain ⟨_, hb, h⟩ := Option.bind_eq_some_iff.1 h
      obtain ⟨⟩ := h
      obtain rfl : a ++ '.' :: b = cs := by simpa using hwhole
      exact .minor (number?_eq_some_iff.1 ha) (number?_eq_some_iff.1 hb)
    next a b c hsplit =>
      rw [hsplit] at hwhole
      obtain ⟨_, ha, h⟩ := Option.bind_eq_some_iff.1 h
      obtain ⟨_, hb, h⟩ := Option.bind_eq_some_iff.1 h
      obtain ⟨_, hc, h⟩ := Option.bind_eq_some_iff.1 h
      obtain ⟨⟩ := h
      obtain rfl : a ++ '.' :: (b ++ '.' :: c) = cs := by simpa using hwhole
      exact .patch (number?_eq_some_iff.1 ha) (number?_eq_some_iff.1 hb) (number?_eq_some_iff.1 hc)
    next => cases h
  · intro h
    cases h with
    | major ha =>
      rw [numbers?, ha.splitOn]
      simp [number?_eq_some_iff.2 ha]
    | minor ha hb =>
      rw [numbers?, ha.splitOn_append, hb.splitOn]
      simp [number?_eq_some_iff.2 ha, number?_eq_some_iff.2 hb]
    | patch ha hb hc =>
      rw [numbers?, ha.splitOn_append, hb.splitOn_append, hc.splitOn]
      simp [number?_eq_some_iff.2 ha, number?_eq_some_iff.2 hb, number?_eq_some_iff.2 hc]

theorem Release.dash_not_mem (h : Release cs x y z) : '-' ∉ cs := by
  have hnumeral : ∀ {a : List Char} {n : UInt32}, Numeral a n → '-' ∉ a := fun ha => ha.not_mem (by decide)
  cases h with
  | major ha => exact hnumeral ha
  | minor ha hb => simp [hnumeral ha, hnumeral hb]
  | patch ha hb hc => simp [hnumeral ha, hnumeral hb, hnumeral hc]

theorem Release.not_blank (h : Release cs x y z) : ∀ c ∈ cs, Text.isBlank c = false := by
  have hdot : Text.isBlank '.' = false := by decide
  have hnumeral : ∀ {a : List Char} {n : UInt32}, Numeral a n → ∀ c ∈ a, Text.isBlank c = false := by
    intro a n ha c hc
    rcases ha.mem hc with hdigit | rfl
    · exact isBlank_of_isDigit hdigit
    · decide
  cases h with
  | major ha => exact hnumeral ha
  | minor ha hb =>
    rw [List.forall_mem_append, List.forall_mem_cons]
    exact ⟨hnumeral ha, hdot, hnumeral hb⟩
  | patch ha hb hc =>
    rw [List.forall_mem_append, List.forall_mem_cons, List.forall_mem_append, List.forall_mem_cons]
    exact ⟨hnumeral ha, hdot, hnumeral hb, hdot, hnumeral hc⟩

/-! ### Versions -/

/-- **The written forms of a version,** without blanks around them: the numbers, and behind a dash the modifier if there is
one, which is not empty. -/
inductive Written : List Char → Version → Prop
  | plain {cs : List Char} {x y z : UInt32} (hnumbers : Release cs x y z) : Written cs ⟨x, y, z, none⟩
  | modified {cs : List Char} {x y z : UInt32} {m : String} (hnumbers : Release cs x y z) (hm : m ≠ "") :
    Written (cs ++ '-' :: m.toList) ⟨x, y, z, some m⟩

/-- A modifier ends the text that it is written in. -/
theorem getLast?_append_dash {m : String} (hm : m ≠ "") : (cs ++ '-' :: m.toList).getLast? = m.toList.getLast? := by
  rw [List.getLast?_append_of_ne_nil _ (List.cons_ne_nil _ _), List.getLast?_cons_of_ne_nil (by simpa using hm)]

theorem not_dash (hcs : '-' ∉ cs) : ∀ c ∈ cs, (c != '-') = true := by
  intro c hc
  rw [bne_iff_ne]
  rintro rfl
  exact hcs hc

/-- What stands behind the first dash is the modifier. -/
theorem splitModifier_append (hcs : '-' ∉ cs) (rest : List Char) : splitModifier (cs ++ '-' :: rest) = (cs, some rest) := by
  rw [splitModifier, List.span_eq_takeWhile_dropWhile, List.takeWhile_append_of_pos (not_dash hcs),
    List.dropWhile_append_of_pos (not_dash hcs), List.takeWhile_cons_of_neg (by simp), List.dropWhile_cons_of_neg (by simp),
    List.append_nil]

theorem splitModifier_of_not_mem (hcs : '-' ∉ cs) : splitModifier cs = (cs, none) := by
  rw [splitModifier, List.span_eq_takeWhile_dropWhile, List.takeWhile_eq_self_iff.2 (not_dash hcs),
    List.dropWhile_eq_nil_iff.2 (not_dash hcs)]

/-- **The reader takes the written forms of a version.** -/
theorem ofChars?_eq_some_iff {v : Version} : ofChars? cs = some v ↔ Written cs v := by
  constructor
  · intro h
    -- the text is cut at its first dash, since no number has one
    by_cases hdash : '-' ∈ cs
    · obtain ⟨front, rest, rfl, hfront⟩ := List.eq_append_cons_of_mem hdash
      rw [ofChars?, splitModifier_append hfront] at h
      dsimp only at h
      rw [Option.ite_none_left_eq_some] at h
      obtain ⟨hrest, hnumbers⟩ := h
      obtain ⟨⟨x, y, z⟩, hread, rfl⟩ := Option.map_eq_some_iff.1 hnumbers
      have hm : String.ofList rest ≠ "" := by simpa using hrest
      have hwritten := Written.modified (numbers?_eq_some_iff.1 hread) hm
      rwa [String.toList_ofList] at hwritten
    · rw [ofChars?, splitModifier_of_not_mem hdash] at h
      obtain ⟨⟨x, y, z⟩, hread, rfl⟩ := Option.map_eq_some_iff.1 h
      exact .plain (numbers?_eq_some_iff.1 hread)
  · intro h
    cases h with
    | plain hnumbers =>
      rw [ofChars?, splitModifier_of_not_mem hnumbers.dash_not_mem]
      exact Option.map_eq_some_iff.2 ⟨_, numbers?_eq_some_iff.2 hnumbers, rfl⟩
    | modified hnumbers hm =>
      rw [ofChars?, splitModifier_append hnumbers.dash_not_mem]
      dsimp only
      rw [if_neg (by simpa using hm), numbers?_eq_some_iff.2 hnumbers]
      simp

/-- **What the reader makes of a text** is the version that it is a written form of, but for the blanks around it. -/
theorem parse?_eq_some_iff {s : String} {v : Version} :
    parse? s = some v ↔ ∃ body, Text.Stripped s.toList body ∧ Written body v := by
  rw [parse?, ofChars?_eq_some_iff]
  constructor
  · exact fun h => ⟨_, Text.trimChars_eq_iff.1 rfl, h⟩
  · rintro ⟨body, hbody, h⟩
    rwa [Text.trimChars_eq_iff.2 hbody]

/-! ### The normal form -/

/-- The three numbers of a version, with a dot between any two of them. -/
def numbers (v : Version) : List Char :=
  (toString v.major.toNat).toList ++ '.' :: ((toString v.minor.toNat).toList ++ '.' :: (toString v.patch.toNat).toList)

/-- **A version that can be written.** The modifier, if there is one, is not empty and does not end in a blank. -/
def Writable (v : Version) : Prop := ∀ m, v.modifier = some m → m ≠ "" ∧ ∀ c ∈ m.toList.getLast?, Text.isBlank c = false

variable {v : Version}

theorem release_numbers (v : Version) : Release v.numbers v.major v.minor v.patch :=
  .patch (numeral_toString _) (numeral_toString _) (numeral_toString _)

theorem toList_display (v : Version) : v.display.toList = v.numbers ++ v.modifier.elim [] fun m => '-' :: m.toList := by
  unfold display numbers
  cases v.modifier <;> simp

/-- The normal form of a version is a written form of it. -/
theorem Writable.written_display (hv : v.Writable) : Written v.display.toList v := by
  rw [toList_display]
  obtain ⟨x, y, z, m⟩ := v
  cases m with
  | none =>
    rw [Option.elim_none, List.append_nil]
    exact .plain (release_numbers _)
  | some m => exact .modified (release_numbers _) (hv m rfl).1

/-- The normal form has no blanks around it. -/
theorem Writable.stripped_display (hv : v.Writable) : Text.Stripped v.display.toList v.display.toList := by
  have hnumbers := (release_numbers v).not_blank
  have hsome : v.numbers ≠ [] := by simp [numbers]
  refine ⟨⟨[], [], by simp⟩, ?_, ?_⟩
  · intro c hc
    rw [toList_display, List.head?_append_of_ne_nil _ hsome] at hc
    exact hnumbers c (List.mem_of_head? hc)
  · intro c hc
    rw [toList_display] at hc
    cases hm : v.modifier with
    | none =>
      rw [hm, Option.elim_none, List.append_nil] at hc
      exact hnumbers c (List.mem_of_getLast? hc)
    | some m =>
      obtain ⟨hne, hlast⟩ := hv m hm
      rw [hm, Option.elim_some, getLast?_append_dash hne] at hc
      exact hlast c hc

/-- **The normal form of a version reads back,** if it can be written at all. -/
theorem Writable.parse?_display (hv : v.Writable) : parse? v.display = some v :=
  parse?_eq_some_iff.2 ⟨_, hv.stripped_display, hv.written_display⟩

theorem writable_of_parse? {s : String} (h : parse? s = some v) : v.Writable := by
  obtain ⟨body, hbody, hwritten⟩ := parse?_eq_some_iff.1 h
  intro m hm
  cases hwritten with
  | plain => cases hm
  | modified _ hne =>
    obtain rfl := Option.some.inj hm
    refine ⟨hne, fun c hc => hbody.last c ?_⟩
    rwa [getLast?_append_dash hne]

/-- **What is read is what is written.** The reader makes a version of a text exactly if the text is a written form of that
version, with blank space around it perhaps; and the normal form of a version that was read is read as the same version. -/
theorem reads_written_forms :
    (∀ s v, parse? s = some v ↔ ∃ body, Text.Stripped s.toList body ∧ Written body v) ∧
      ∀ s v, parse? s = some v → parse? v.display = some v :=
  ⟨fun _ _ => parse?_eq_some_iff, fun _ _ h => (writable_of_parse? h).parse?_display⟩

/-- A version with a sign, a zero in front and a dash in the modifier. -/
theorem reads_signed_form : ∃ v, parse? "\t +2.013-RC 1-b\n" = some v ∧ v.minor = 13 ∧ v.modifier = some "RC 1-b" ∧
    v.display = "2.13.0-RC 1-b" ∧ parse? "2.13.0-RC 1-b" = some v := by
  have hread : parse? "\t +2.013-RC 1-b\n" = some ⟨2, 13, 0, some "RC 1-b"⟩ := by decide +kernel
  have hdisplay : (⟨2, 13, 0, some "RC 1-b"⟩ : Version).display = "2.13.0-RC 1-b" := by decide +kernel
  have hagain := reads_written_forms.2 _ _ hread
  rw [hdisplay] at hagain
  exact ⟨_, hread, rfl, rfl, hdisplay, hagain⟩

/-- A number of more than 32 bits is none. -/
example : parse? "4294967295" = some ⟨4294967295, 0, 0, none⟩ ∧ parse? "4294967296" = none := by decide +kernel

end Version

end Recompile

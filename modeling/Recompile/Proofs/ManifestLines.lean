import Recompile.Jar.Manifest
import Recompile.Proofs.Codec
import Mathlib.Data.List.DropRight

/-!
# Manifests that read back

The writer of a manifest puts a name, `: ` and a value on a line and ends the line with a carriage return and a line feed; a
line with nothing on it ends the manifest. The reader goes by lines and drops all carriage returns at the end of a line, and
it takes the first `: ` on it for the separator. So a manifest reads back as what it is exactly if no name and no value
breaks a line, no name has a separator in it, and no value ends in a carriage return (`Manifest.reads_back`). An empty name
or value does no harm, as the separator keeps its line from being empty, and neither does a colon at the end of a name.

What was read is always of this kind, whatever the text was (`Manifest.legible_of_mem_parse`).
-/

namespace Recompile

/-! ### Lines -/

namespace Text

theorem splitOn_append_of_not_mem {line : List Char} (hline : '\n' ∉ line) (rest : List Char) :
    (line ++ '\n' :: rest).splitOn '\n' = line :: rest.splitOn '\n' := by
  rw [List.splitOn_append_cons_self, List.splitOn_eq_singleton hline]
  rfl

/-- The first line of a text is what is in front of the first line feed. -/
theorem lineChars_append {line : List Char} (hline : '\n' ∉ line) (rest : List Char) :
    lineChars (line ++ '\n' :: rest) = dropReturn line :: lineChars rest := by
  have hpieces := List.splitOn_ne_nil '\n' rest
  unfold lineChars
  rw [splitOn_append_of_not_mem hline]
  dsimp only
  rw [List.dropLast_cons_of_ne_nil hpieces, List.map_cons, List.getLast?_cons_of_ne_nil hpieces]
  split <;> rfl

theorem dropReturn_append_return (line : List Char) : dropReturn (line ++ ['\r']) = line := by
  simp [dropReturn]

theorem subset_of_dropReturn (line : List Char) : dropReturn line ⊆ line := by
  unfold dropReturn
  split
  · exact List.dropLast_subset line
  · exact List.Subset.refl line

theorem not_mem_of_mem_lineChars {cs line : List Char} (h : line ∈ lineChars cs) : '\n' ∉ line := by
  -- a piece has no separator, and dropping a return adds none
  have hended : ∀ l ∈ (cs.splitOn '\n').dropLast.map dropReturn, '\n' ∉ l := by
    intro l hl
    obtain ⟨piece, hpiece, rfl⟩ := List.mem_map.1 hl
    have hmem := List.dropLast_subset _ hpiece
    exact fun hfeed => not_mem_of_mem_splitOn hmem (subset_of_dropReturn piece hfeed)
  unfold lineChars at h
  dsimp only at h
  split at h
  next => exact hended line h
  next => exact hended line h
  next last hlast =>
    rcases List.mem_append.1 h with hmem | hmem
    · exact hended line hmem
    · obtain rfl := List.mem_singleton.1 hmem
      exact not_mem_of_mem_splitOn (List.mem_of_getLast? hlast)

end Text

namespace Manifest

/-! ### Attributes -/

/-- The line of an attribute without its end. -/
def line (a : String × String) : List Char := a.1.toList ++ ':' :: ' ' :: a.2.toList

/-- **An attribute that can be read back from its line.** -/
structure Legible (a : String × String) : Prop where
  name_line : '\n' ∉ a.1.toList
  name_separator : ¬ [':', ' '] <:+: a.1.toList
  value_line : '\n' ∉ a.2.toList
  value_end : a.2.toList.getLast? ≠ some '\r'

/-- At a character with which no separator begins, a line is not split. -/
theorem splitLine_cons {c : Char} {rest : List Char} (h : ¬ [':', ' '] <+: c :: rest) :
    splitLine (c :: rest) = (splitLine rest).map fun (name, value) => (c :: name, value) := by
  rw [splitLine]
  rintro value rfl rfl
  exact h ⟨value, rfl⟩

/-- **A line is split at its first separator:** the name has none in it. -/
theorem splitLine_eq_some_iff {cs name value : List Char} :
    splitLine cs = some (name, value) ↔ cs = name ++ ':' :: ' ' :: value ∧ ¬ [':', ' '] <:+: name := by
  constructor
  · intro h
    induction cs generalizing name with
    | nil => simp [splitLine] at h
    | cons c rest ih =>
      by_cases hhere : [':', ' '] <+: c :: rest
      · -- the line begins with a separator, so that the name is empty
        obtain ⟨value', hvalue⟩ := hhere
        rw [← hvalue] at h ⊢
        obtain ⟨rfl, rfl⟩ := Prod.mk.inj (Option.some.inj h)
        exact ⟨rfl, fun hinfix => absurd hinfix.length_le (by simp)⟩
      · rw [splitLine_cons hhere] at h
        obtain ⟨⟨name', _⟩, hrest, hpair⟩ := Option.map_eq_some_iff.1 h
        obtain ⟨rfl, rfl⟩ := Prod.mk.inj hpair
        obtain ⟨rfl, hname⟩ := ih hrest
        refine ⟨rfl, fun hinfix => ?_⟩
        rcases List.infix_cons_iff.1 hinfix with hfront | hlater
        · exact hhere (hfront.trans (List.prefix_append _ _))
        · exact hname hlater
  · rintro ⟨rfl, hname⟩
    induction name with
    | nil => rfl
    | cons c name ih =>
      -- the colon of the separator behind the name ends no separator
      have hhere : ¬ [':', ' '] <+: c :: (name ++ ':' :: ' ' :: value) := by
        intro hfront
        cases name with
        | nil => simp at hfront
        | cons d name =>
          obtain ⟨rfl, hd⟩ := List.cons_prefix_cons.1 hfront
          obtain ⟨rfl, -⟩ := List.cons_prefix_cons.1 hd
          exact hname ⟨[], name, rfl⟩
      have hrest : ¬ [':', ' '] <:+: name := fun h => hname (List.infix_cons h)
      rw [List.cons_append, splitLine_cons hhere, ih hrest]
      rfl

/-! ### Reading what was written -/

theorem line_ne_nil (a : String × String) : line a ≠ [] := by simp [line]

theorem Legible.not_mem_line {a : String × String} (h : Legible a) : '\n' ∉ line a := by
  simp [line, h.name_line, h.value_line]

theorem Legible.splitLine {a : String × String} (h : Legible a) :
    splitLine (line a) = some (a.1.toList, a.2.toList) :=
  splitLine_eq_some_iff.2 ⟨rfl, h.name_separator⟩

/-- The carriage returns that end the line of an attribute are not its own. -/
theorem Legible.dropReturns {a : String × String} (h : Legible a) : dropReturns (line a) = line a := by
  change (line a).rdropWhile (· == '\r') = line a
  rw [List.rdropWhile_eq_self_iff]
  intro hne hlast
  rw [beq_iff_eq] at hlast
  have hend : (line a).getLast? = some '\r' := by rw [List.getLast?_eq_some_getLast hne, hlast]
  rw [line, List.getLast?_append_cons] at hend
  cases hvalue : a.2.toList with
  | nil => simp [hvalue] at hend
  | cons c rest =>
    apply h.value_end
    rw [← hend, hvalue]
    rfl

/-- The characters of a manifest. -/
theorem toList_text (m : Manifest) :
    m.text.toList = (m.attributes.flatMap fun a => line a ++ ['\r', '\n']) ++ ['\r', '\n'] := by
  have hreturn : "\r\n".toList = ['\r', '\n'] := by decide
  have hseparator : ": ".toList = [':', ' '] := by decide
  rw [text, String.toList_append, String.toList_join, hreturn, List.flatMap_map]
  simp [line, hreturn, hseparator]

/-- **The lines of a written manifest** are those of its attributes and the empty one at the end. -/
theorem lineChars_text {attributes : List (String × String)} (h : ∀ a ∈ attributes, Legible a) :
    Text.lineChars ((attributes.flatMap fun a => line a ++ ['\r', '\n']) ++ ['\r', '\n']) =
      attributes.map line ++ [[]] := by
  induction attributes with
  | nil => decide
  | cons a rest ih =>
    have hline : '\n' ∉ line a ++ ['\r'] := by
      simp [(h a List.mem_cons_self).not_mem_line]
    -- the carriage return of the line is dropped with the line feed
    have hfirst := Text.lineChars_append hline ((rest.flatMap fun a => line a ++ ['\r', '\n']) ++ ['\r', '\n'])
    rw [Text.dropReturn_append_return, ih fun b hb => h b (List.mem_cons_of_mem a hb)] at hfirst
    rw [List.map_cons, List.cons_append, ← hfirst]
    simp

theorem parse_text {m : Manifest} (h : ∀ a ∈ m.attributes, Legible a) : parse m.text = m := by
  have hdrop : (m.attributes.map line).map dropReturns = m.attributes.map line := by
    rw [List.map_map]
    exact List.map_congr_left fun a ha => (h a ha).dropReturns
  have hempty : dropReturns [] = [] := rfl
  have hkept : ∀ l ∈ m.attributes.map line, (!l.isEmpty) = true := by
    intro l hl
    obtain ⟨a, -, rfl⟩ := List.mem_map.1 hl
    simp [line_ne_nil]
  have hsplit : (m.attributes.map line).filterMap splitLine = m.attributes.map fun a => (a.1.toList, a.2.toList) := by
    rw [List.filterMap_map, ← List.filterMap_eq_map]
    exact List.filterMap_congr fun a ha => (h a ha).splitLine
  rw [parse, parseLines, toList_text, lineChars_text h]
  rw [List.map_append, hdrop, List.map_singleton, hempty, List.takeWhile_append_of_pos hkept]
  -- nothing is taken of the empty line
  rw [show [([] : List Char)].takeWhile (fun line => !line.isEmpty) = [] from rfl, List.append_nil, hsplit, List.map_map]
  have hsame : m.attributes.map (fun a => (String.ofList a.1.toList, String.ofList a.2.toList)) = m.attributes := by simp
  exact congrArg Manifest.mk hsame

/-! ### What is read -/

/-- **Every attribute that is read is legible,** whatever the text is. -/
theorem legible_of_mem_parse {text : String} {a : String × String} (h : a ∈ (parse text).attributes) : Legible a := by
  obtain ⟨⟨name, value⟩, hpair, rfl⟩ := List.mem_map.1 h
  obtain ⟨cs, hcs, hsplit⟩ := List.mem_filterMap.1 hpair
  obtain ⟨rfl, hname⟩ := splitLine_eq_some_iff.1 hsplit
  obtain ⟨l, hl, hdrop⟩ := List.mem_map.1 ((List.takeWhile_sublist _).subset hcs)
  change l.rdropWhile (· == '\r') = _ at hdrop
  have hfeed : '\n' ∉ name ++ ':' :: ' ' :: value := by
    rw [← hdrop]
    exact fun hmem => Text.not_mem_of_mem_lineChars hl ((List.rdropWhile_prefix _ l).subset hmem)
  have hend : value.getLast? ≠ some '\r' := by
    intro hreturn
    -- the value is the end of the line, and the line has no carriage return at its end
    have hline : (l.rdropWhile (· == '\r')).getLast? = some '\r' := by
      rw [hdrop, List.getLast?_append_cons, List.getLast?_cons, List.getLast?_cons, hreturn]
      rfl
    have hne : l.rdropWhile (· == '\r') ≠ [] := by
      rw [hdrop]
      simp
    have hlast := List.rdropWhile_last_not (· == '\r') l hne
    rw [List.getLast?_eq_some_getLast hne, Option.some.injEq] at hline
    exact hlast (beq_iff_eq.2 hline)
  rw [List.mem_append, not_or] at hfeed
  refine ⟨?_, ?_, ?_, ?_⟩
  · simpa using hfeed.1
  · simpa using hname
  · simpa using fun hmem => hfeed.2 (List.mem_cons_of_mem _ (List.mem_cons_of_mem _ hmem))
  · simpa using hend

/-! ### Round trips -/

/-- **The manifests that read back.** A manifest is read back from its bytes exactly if all its attributes are legible, and
what is read from any text is read back. -/
theorem reads_back :
    (∀ m : Manifest, (Bytes.toString? m.bytes).map parse = some m ↔ ∀ a ∈ m.attributes, Legible a) ∧
      ∀ t : String, (Bytes.toString? (parse t).bytes).map parse = some (parse t) := by
  have hback : ∀ m : Manifest, (Bytes.toString? m.bytes).map parse = some m ↔ ∀ a ∈ m.attributes, Legible a := by
    intro m
    rw [bytes, Codec.toString?_ofString, Option.map_some, Option.some.injEq]
    constructor
    · intro hsame a ha
      rw [← hsame] at ha
      exact legible_of_mem_parse ha
    · exact parse_text
  exact ⟨hback, fun t => (hback (parse t)).2 fun _ => legible_of_mem_parse⟩

-- empty names and values read back, and so does a name that ends in a colon
example : parse (text ⟨[("", ""), ("a:", " b")]⟩) = ⟨[("", ""), ("a:", " b")]⟩ := by decide

-- all carriage returns go from the end of a value, and a name ends at its first separator
example : parse (text ⟨[("a", "b\r"), ("c: d", "e")]⟩) = ⟨[("a", "b"), ("c", "d: e")]⟩ := by decide

end Manifest

end Recompile

/-
**Arrays of tables, as a program writes them.**

A program that writes an array of tables line by line: the header of an element, `key = value` with Go's `%q` or `%d`,
and a blank line.

* `fieldLine`, `elementLines` — the lines, each with the statement that it is.
* `Spelled` — the names are bare keys, each once, and the values are texts or positive numbers.
* `decode_elements` — the elements come back; `decode_elements_eq_none` — or the text is refused.
-/

import Ttgo.Lib.TomlArray
import Ttgo.Lib.TomlNumber

namespace Ttgo.Lib.Toml

/-! ### Lines -/

theorem feedLine_arrayHeader {name : Text} (nonempty : name ≠ []) (bare : name.all isBare = true) :
    feedLine .line ("[[".toList ++ name ++ "]]".toList) = some (.line, [.arrayTable [name]]) := by
  cases name with
  | nil => exact absurd rfl nonempty
  | cons c rest =>
    rw [List.all_eq_true] at bare
    have letter : isBare c := bare c List.mem_cons_self
    have opened : transduce Mode.feed .line "[[".toList = some (.key .arrayTable [] .expected, []) := rfl
    have first : Mode.feed (.key .arrayTable [] .expected) c = some (.key .arrayTable [] (.bare [c]), []) := by
      simp [Mode.feed, feedKey, keyed, letter, isBlank_of_isBare letter]
    have later := feed_bareKey .arrayTable [] [c] rest fun d member => bare d (List.mem_cons_of_mem _ member)
    have closed : transduce Mode.feed (.key .arrayTable [] (.bare (c :: rest))) ("]]".toList ++ ['\n']) =
        some (.line, [.arrayTable [c :: rest]]) := rfl
    rw [feedLine, List.append_assoc, List.append_assoc]
    refine transduce_join opened (transduce_cons_eq_some.mpr ⟨_, [], _, first, ?_, rfl⟩)
    exact transduce_join later closed

def Value.write (wide : Char → Bool) : Value → Text
  | .string text => quote wide text
  | .scalar token => token
  | .nested raw => raw

def fieldLine (wide : Char → Bool) (field : Text × Value) : Text × List Statement :=
  (field.1 ++ " = ".toList ++ field.2.write wide, [.assign [field.1] field.2])

/-- The lines of an element, with the statements that they are. -/
def elementLines (wide : Char → Bool) (part : Text × List (Text × Value)) : List (Text × List Statement) :=
  ("[[".toList ++ part.1 ++ "]]".toList, [.arrayTable [part.1]]) :: part.2.map (fieldLine wide) ++ [([], [])]

/-- The values that a program writes with `%q` and with `%d`. -/
inductive Formatted : Value → Prop
  | text (text : Text) : Formatted (.string text)
  | number {n : Int} (positive : 0 < n) : Formatted (.scalar (itoa n))

/-- The characters of a value are written with escapes that TOML has. -/
def Value.readable : Value → Bool
  | .string text => text.all isReadable
  | .scalar _ => true
  | .nested _ => true

/-- A field has a bare key and a formatted value. -/
structure SpelledField (field : Text × Value) : Prop where
  nonempty : field.1 ≠ []
  bare : field.1.all isBare = true
  value : Formatted field.2

theorem SpelledField.text {key : Text} (spelling : key ≠ [] ∧ key.all isBare = true) (text : Text) :
    SpelledField (key, .string text) :=
  ⟨spelling.1, spelling.2, .text text⟩

/-- The names of an element are bare keys, each once. -/
structure Spelled (part : Text × List (Text × Value)) : Prop where
  nonempty : part.1 ≠ []
  bare : part.1.all isBare = true
  fields : ∀ field ∈ part.2, SpelledField field
  distinct : (part.2.map Prod.fst).Nodup

variable {wide : Char → Bool} {field : Text × Value} {part : Text × List (Text × Value)} {sections : Sections}
  {line : Text × List Statement}

theorem newline_notMem_of_bare {name : Text} (bare : name.all isBare = true) : '\n' ∉ name :=
  fun member => absurd (List.all_eq_true.mp bare _ member) (by decide)

theorem newline_notMem_fieldLine (spelled : SpelledField field) : '\n' ∉ (fieldLine wide field).1 := by
  obtain ⟨key, value⟩ := field
  obtain ⟨-, bare, formatted⟩ := spelled
  cases formatted with
  | text text => exact newline_notMem_quotedLine bare wide text
  | number positive =>
    intro member
    rcases List.mem_append.mp member with front | digits
    · rcases List.mem_append.mp front with letter | sign
      · exact newline_notMem_of_bare bare letter
      · exact absurd sign (by decide)
    · exact newline_notMem_itoa _ digits

/-- **A line of a field** is one statement if its characters are readable, and is rejected if not. -/
theorem feedLine_fieldLine (spelled : SpelledField field) : feedLine .line (fieldLine wide field).1 =
    if field.2.readable then some (.line, (fieldLine wide field).2) else none := by
  obtain ⟨key, value⟩ := field
  obtain ⟨nonempty, bare, formatted⟩ := spelled
  cases formatted with
  | text text => exact feedLine_quotedLine nonempty bare wide text
  | number positive => exact assigns_itoa nonempty (List.all_eq_true.mp bare) positive

/-! ### Elements of lines -/

theorem mem_elementLines (member : line ∈ elementLines wide part) :
    line = ("[[".toList ++ part.1 ++ "]]".toList, [.arrayTable [part.1]]) ∨
      (∃ field ∈ part.2, line = fieldLine wide field) ∨ line = ([], []) := by
  rcases List.mem_append.mp member with front | last
  · rcases List.mem_cons.mp front with header | inside
    · exact .inl header
    · obtain ⟨field, listed, same⟩ := List.mem_map.mp inside
      exact .inr (.inl ⟨field, listed, same.symm⟩)
  · exact .inr (.inr (List.mem_singleton.mp last))

theorem flatMap_elementLines (wide : Char → Bool) (part : Text × List (Text × Value)) :
    (elementLines wide part).flatMap Prod.snd = elementStatements part.1 part.2 := by
  have fields : (part.2.map (fieldLine wide)).flatMap Prod.snd =
      part.2.map fun field => .assign [field.1] field.2 := by
    rw [List.flatMap_map]
    exact List.flatMap_pure_eq_map _ _
  rw [elementLines, List.flatMap_append, List.flatMap_cons, fields]
  exact List.append_nil _

theorem newline_notMem_elementLines (spelled : Spelled part) : ∀ line ∈ elementLines wide part, '\n' ∉ line.1 := by
  intro line member
  rcases mem_elementLines member with rfl | ⟨field, listed, rfl⟩ | rfl
  · intro inside
    rcases List.mem_append.mp inside with front | sign
    · rcases List.mem_append.mp front with sign | letter
      · exact absurd sign (by decide)
      · exact newline_notMem_of_bare spelled.bare letter
    · exact absurd sign (by decide)
  · exact newline_notMem_fieldLine (spelled.fields field listed)
  · exact List.not_mem_nil

theorem feedLine_elementLines (spelled : Spelled part) (member : line ∈ elementLines wide part) :
    feedLine .line line.1 = some (.line, line.2) ∨
      feedLine .line line.1 = none ∧ ∃ field ∈ part.2, field.2.readable = false := by
  rcases mem_elementLines member with rfl | ⟨field, listed, rfl⟩ | rfl
  · exact .inl (feedLine_arrayHeader spelled.nonempty spelled.bare)
  · rw [feedLine_fieldLine (spelled.fields field listed)]
    cases reads : field.2.readable with
    | true => exact .inl rfl
    | false => exact .inr ⟨rfl, field, listed, reads⟩
  · exact .inl rfl

/-! ### Texts -/

section Text

variable (spelled : ∀ part ∈ sections, Spelled part)
include spelled

theorem newline_notMem_sections : ∀ line ∈ sections.flatMap (elementLines wide), '\n' ∉ line.1 := by
  intro line member
  obtain ⟨part, listed, inside⟩ := List.mem_flatMap.mp member
  exact newline_notMem_elementLines (spelled part listed) line inside

theorem whole_sections (reads : ∀ part ∈ sections, ∀ field ∈ part.2, field.2.readable = true) :
    ∀ line ∈ sections.flatMap (elementLines wide), feedLine .line line.1 = some (.line, line.2) := by
  intro line member
  obtain ⟨part, listed, inside⟩ := List.mem_flatMap.mp member
  rcases feedLine_elementLines (spelled part listed) inside with whole | ⟨-, field, member, unreadable⟩
  · exact whole
  · rw [reads part listed field member] at unreadable
    cases unreadable

theorem decode_elements (reads : ∀ part ∈ sections, ∀ field ∈ part.2, field.2.readable = true) :
    ∃ kinds, decode (((sections.flatMap (elementLines wide)).map Prod.fst).flatMap (· ++ ['\n'])) =
        some ⟨kinds, sectionFields (fun _ => 0) sections⟩ ∧
      Counts (fun name => (elementsNamed name sections).length) kinds := by
  refine decode_sections (newline_notMem_sections spelled) (whole_sections spelled reads) ?_ fun part member =>
    (spelled part member).distinct
  simp only [List.flatMap_assoc, flatMap_elementLines]

theorem decode_elements_eq_none (unreadable : ∃ part ∈ sections, ∃ field ∈ part.2, field.2.readable = false) :
    decode (((sections.flatMap (elementLines wide)).map Prod.fst).flatMap (· ++ ['\n'])) = none := by
  refine decode_terminated_eq_none (List.forall_mem_map.mpr (newline_notMem_sections spelled))
    (List.forall_mem_map.mpr fun line member => ?_) ?_
  · obtain ⟨part, listed, inside⟩ := List.mem_flatMap.mp member
    rcases feedLine_elementLines (spelled part listed) inside with whole | ⟨rejected, -⟩
    · exact .inr ⟨_, whole⟩
    · exact .inl rejected
  · obtain ⟨part, listed, field, member, marked⟩ := unreadable
    have inside : fieldLine wide field ∈ elementLines wide part :=
      List.mem_append_left _ (List.mem_cons_of_mem _ (List.mem_map_of_mem member))
    refine ⟨_, List.mem_map_of_mem (List.mem_flatMap.mpr ⟨part, listed, inside⟩), ?_⟩
    rw [feedLine_fieldLine ((spelled part listed).fields field member), marked]
    rfl

end Text

end Ttgo.Lib.Toml

/-
**Arrays of tables, written out.**

A document that is nothing but the elements of some arrays of tables: each begins with its header, and assigns its
keys one after the other.

* `elementStatements`, `elementFields` — the statements and the values of one element; `sectionFields` — of all,
  `elementsNamed` — the elements of one array; `arrayFields` — of a document of one array.
* `Counts counts kinds` — the tables after so many elements; `Holds name count kinds` — of one array.
* `feed_element`, `feed_sections` — the elements are read one after the other, and get the next numbers.
* `elementValues` — the values of one element, by their keys; `elementValues_sections` — those that were written.
* `transduce_lines` — a document whose lines are whole statements; `transduce_lines_eq_none` — or are rejected.
* `decode_sections` — the document of such a text.
-/

import Ttgo.Lib.TomlQuote

namespace Ttgo.Lib.Toml

/-! ### Elements -/

def elementStatements (name : Text) (fields : List (Text × Value)) : List Statement :=
  .arrayTable [name] :: fields.map fun field => .assign [field.1] field.2

/-- The values of an element, with their paths. -/
def elementFields (name : Text) (index : Nat) (fields : List (Text × Value)) : List (Path × Value) :=
  fields.map fun field => ([(name, index), (field.1, 0)], field.2)

/-- The elements of a document, each with the name of its array. -/
abbrev Sections := List (Text × List (Text × Value))

/-- The values of the elements, where those of each array are counted on from a number. -/
def sectionFields : (Text → Nat) → Sections → List (Path × Value)
  | _, [] => []
  | counts, (name, fields) :: rest =>
    elementFields name (counts name + 1) fields ++
      sectionFields (Function.update counts name (counts name + 1)) rest

def elementsNamed (name : Text) (sections : Sections) : List (List (Text × Value)) :=
  sections.filterMap fun part => if part.1 = name then some part.2 else none

/-- The tables are arrays with so many elements, and the values in them. -/
structure Counts (counts : Text → Nat) (kinds : GoMap Path Kind) : Prop where
  counted : ∀ name, kinds.lookup [(name, 0)] = if counts name = 0 then none else some (.tables (counts name))
  inside : ∀ path kind, kinds.lookup path = some kind → (∀ name, path ≠ [(name, 0)]) →
    kind = .value ∧ ∃ name index key, 0 < index ∧ index ≤ counts name ∧ path = [(name, index), (key, 0)]

variable {counts : Text → Nat} {name : Text} {kinds : GoMap Path Kind} {fields : List (Text × Value)}
  {sections : Sections}

theorem counts_empty : Counts (fun _ => 0) ∅ := by
  refine ⟨fun _ => rfl, fun path kind reads => ?_⟩
  rw [AList.lookup_empty] at reads
  cases reads

theorem Counts.fresh (holds : Counts counts kinds) (name key : Text) :
    kinds.lookup [(name, counts name + 1), (key, 0)] = none := by
  cases reads : kinds.lookup [(name, counts name + 1), (key, 0)] with
  | none => rfl
  | some kind =>
    obtain ⟨-, other, index, key', -, within, same⟩ := holds.inside _ kind reads (by simp)
    simp only [List.cons.injEq, Prod.mk.injEq] at same
    obtain ⟨⟨rfl, rfl⟩, -⟩ := same
    omega

theorem Tables.define_of_descend {door : Option Kind → Option (Nat × Option Kind)}
    {becomes : Option Kind → Option Kind} {start path : Path} {front : List Text} {name : Text}
    {kinds opened : GoMap Path Kind} {kind : Kind}
    (descended : Tables.descend door kinds start front = some (opened, path))
    (allowed : becomes (opened.lookup (path ++ [(name, 0)])) = some kind) :
    Tables.define door becomes kinds start (front ++ [name]) =
      some ⟨opened.insert (path ++ [(name, 0)]) kind, path, name, kind⟩ := by
  rw [Tables.define, List.getLast?_concat, List.dropLast_concat, descended]
  simp only [Option.bind_eq_bind, Option.bind_some, allowed]
  rfl

theorem feed_header (holds : Counts counts kinds) (name : Text) (current : Path) :
    Tables.feed ⟨kinds, current⟩ (.arrayTable [name]) =
      some (⟨kinds.insert [(name, 0)] (.tables (counts name + 1)), [(name, counts name + 1)]⟩, []) := by
  have allowed : Tables.becomesTables (kinds.lookup [(name, 0)]) = some (.tables (counts name + 1)) := by
    rw [holds.counted]
    split
    · next none => rw [none]; rfl
    · rfl
  have done : Tables.define Tables.headerDoor Tables.becomesTables kinds [] [name] =
      some ⟨kinds.insert [(name, 0)] (.tables (counts name + 1)), [], name, .tables (counts name + 1)⟩ :=
    Tables.define_of_descend
      (show Tables.descend Tables.headerDoor kinds [] [] = some (kinds, []) from rfl) allowed
  rw [Tables.feed, done]
  rfl

theorem Counts.header (holds : Counts counts kinds) (name : Text) :
    Counts (Function.update counts name (counts name + 1))
      (kinds.insert [(name, 0)] (.tables (counts name + 1))) := by
  constructor
  · intro other
    by_cases same : other = name
    · subst same
      rw [AList.lookup_insert, Function.update_self, if_neg (Nat.succ_ne_zero _)]
    · rw [AList.lookup_insert_ne (by simp [same]), Function.update_of_ne same, holds.counted]
  · intro path kind reads deeper
    rw [AList.lookup_insert_ne (deeper name)] at reads
    obtain ⟨value, other, index, key, positive, within, rfl⟩ := holds.inside path kind reads deeper
    refine ⟨value, other, index, key, positive, ?_, rfl⟩
    by_cases same : other = name
    · subst same
      rw [Function.update_self]
      omega
    · rwa [Function.update_of_ne same]

theorem feed_field {index : Nat} {key : Text} (value : Value)
    (fresh : kinds.lookup [(name, index), (key, 0)] = none) :
    Tables.feed ⟨kinds, [(name, index)]⟩ (.assign [key] value) =
      some (⟨kinds.insert [(name, index), (key, 0)] .value, [(name, index)]⟩,
        [([(name, index), (key, 0)], value)]) := by
  have done : Tables.define Tables.dottedDoor Tables.becomesValue kinds [(name, index)] [key] =
      some ⟨kinds.insert [(name, index), (key, 0)] .value, [(name, index)], key, .value⟩ :=
    Tables.define_of_descend (show Tables.descend Tables.dottedDoor kinds [(name, index)] [] =
      some (kinds, [(name, index)]) from rfl) (by rw [List.singleton_append, fresh]; rfl)
  rw [Tables.feed, done]
  rfl

theorem Counts.field (holds : Counts counts kinds) (positive : 0 < counts name) (key : Text) :
    Counts counts (kinds.insert [(name, counts name), (key, 0)] .value) := by
  refine ⟨fun other => ?_, fun path kind reads deeper => ?_⟩
  · rw [AList.lookup_insert_ne (by simp), holds.counted]
  · rw [GoMap.lookup_insert_ite] at reads
    split at reads
    · next same =>
      cases reads
      exact ⟨rfl, name, counts name, key, positive, le_refl _, same⟩
    · exact holds.inside path kind reads deeper

theorem feed_fields (holds : Counts counts kinds) (positive : 0 < counts name)
    (distinct : (fields.map Prod.fst).Nodup)
    (fresh : ∀ field ∈ fields, kinds.lookup [(name, counts name), (field.1, 0)] = none) :
    ∃ kinds', transduce Tables.feed ⟨kinds, [(name, counts name)]⟩
        (fields.map fun field => .assign [field.1] field.2) =
          some (⟨kinds', [(name, counts name)]⟩, elementFields name (counts name) fields) ∧
      Counts counts kinds' := by
  induction fields generalizing kinds with
  | nil => exact ⟨kinds, rfl, holds⟩
  | cons field fields ih =>
    obtain ⟨new, distinct⟩ := List.nodup_cons.mp distinct
    have first := feed_field field.2 (fresh field List.mem_cons_self)
    obtain ⟨kinds', later, holds'⟩ := ih (holds.field positive field.1) distinct fun other member => by
      rw [AList.lookup_insert_ne, fresh other (List.mem_cons_of_mem _ member)]
      intro same
      simp only [List.cons.injEq, Prod.mk.injEq, and_true, true_and] at same
      exact new (same ▸ List.mem_map_of_mem member)
    exact ⟨kinds', transduce_cons_eq_some.mpr ⟨_, _, _, first, later, rfl⟩, holds'⟩

theorem feed_element (holds : Counts counts kinds) (distinct : (fields.map Prod.fst).Nodup)
    (name : Text) (current : Path) :
    ∃ kinds', transduce Tables.feed ⟨kinds, current⟩ (elementStatements name fields) =
        some (⟨kinds', [(name, counts name + 1)]⟩, elementFields name (counts name + 1) fields) ∧
      Counts (Function.update counts name (counts name + 1)) kinds' := by
  have number : Function.update counts name (counts name + 1) name = counts name + 1 := Function.update_self ..
  have positive : 0 < Function.update counts name (counts name + 1) name := by
    rw [number]
    exact Nat.succ_pos _
  have fed := feed_fields (holds.header name) positive distinct fun field _ => by
    rw [AList.lookup_insert_ne (by simp), number, holds.fresh]
  rw [number] at fed
  obtain ⟨kinds', later, holds'⟩ := fed
  exact ⟨kinds', transduce_cons_eq_some.mpr ⟨_, [], _, feed_header holds name current, later, rfl⟩, holds'⟩

theorem counts_cons (counts : Text → Nat) (name : Text) (fields : List (Text × Value)) (rest : Sections) :
    (fun other => Function.update counts name (counts name + 1) other + (elementsNamed other rest).length) =
      fun other => counts other + (elementsNamed other ((name, fields) :: rest)).length := by
  funext other
  by_cases same : name = other
  · subst same
    simp only [elementsNamed, Function.update_self, List.filterMap_cons, if_true, List.length_cons]
    omega
  · simp only [elementsNamed, Function.update_of_ne (Ne.symm same), List.filterMap_cons, if_neg same]

theorem feed_sections (holds : Counts counts kinds)
    (distinct : ∀ part ∈ sections, (part.2.map Prod.fst).Nodup) (current : Path) :
    ∃ kinds' current',
      transduce Tables.feed ⟨kinds, current⟩ (sections.flatMap fun part => elementStatements part.1 part.2) =
        some (⟨kinds', current'⟩, sectionFields counts sections) ∧
      Counts (fun name => counts name + (elementsNamed name sections).length) kinds' := by
  induction sections generalizing counts kinds current with
  | nil => exact ⟨kinds, current, rfl, holds⟩
  | cons part rest ih =>
    obtain ⟨name, fields⟩ := part
    obtain ⟨between, first, holds'⟩ := feed_element holds (distinct _ List.mem_cons_self) name current
    obtain ⟨kinds', current', later, holds''⟩ :=
      ih holds' (fun other member => distinct other (List.mem_cons_of_mem _ member)) [(name, counts name + 1)]
    rw [counts_cons counts name fields] at holds''
    exact ⟨kinds', current', transduce_join first later, holds''⟩

/-! ### The values of an element -/

def elementValue (element : Text × Nat) : Path × Value → Option (Path × Value)
  | ([], _) => none
  | (first :: rest, value) => if first = element then some (rest, value) else none

def elementValues (element : Text × Nat) (values : List (Path × Value)) : List (Path × Value) :=
  values.filterMap (elementValue element)

theorem elementValues_append (element : Text × Nat) (front back : List (Path × Value)) :
    elementValues element (front ++ back) = elementValues element front ++ elementValues element back :=
  List.filterMap_append

theorem elementValues_fields (element : Text × Nat) (name : Text) (index : Nat) (fields : List (Text × Value)) :
    elementValues element (elementFields name index fields) =
      if (name, index) = element then fields.map fun field => ([(field.1, 0)], field.2) else [] := by
  by_cases same : (name, index) = element
  · rw [if_pos same, elementValues, elementFields, List.filterMap_map, ← List.filterMap_eq_map]
    refine List.filterMap_congr fun field _ => ?_
    simp [elementValue, same]
  · rw [if_neg same, elementValues, List.filterMap_eq_nil_iff]
    intro pair member
    obtain ⟨field, -, rfl⟩ := List.mem_map.mp member
    exact if_neg same

theorem elementValues_earlier {index : Nat} (earlier : index ≤ counts name) :
    elementValues (name, index) (sectionFields counts sections) = [] := by
  induction sections generalizing counts with
  | nil => rfl
  | cons part rest ih =>
    obtain ⟨other, fields⟩ := part
    have still : index ≤ Function.update counts other (counts other + 1) name := by
      by_cases same : name = other
      · subst same
        rw [Function.update_self]
        omega
      · rwa [Function.update_of_ne same]
    have unlike : (other, counts other + 1) ≠ (name, index) := by
      intro same
      obtain ⟨rfl, rfl⟩ := Prod.mk.inj same
      omega
    rw [sectionFields, elementValues_append, elementValues_fields, if_neg unlike, ih still]
    rfl

theorem elementValues_sections (counts : Text → Nat) (name : Text) (index : Nat) (sections : Sections) :
    elementValues (name, counts name + index + 1) (sectionFields counts sections) =
      (((elementsNamed name sections)[index]?).getD []).map fun field => ([(field.1, 0)], field.2) := by
  induction sections generalizing counts index with
  | nil => rfl
  | cons part rest ih =>
    obtain ⟨other, fields⟩ := part
    rw [sectionFields, elementValues_append, elementValues_fields]
    by_cases same : other = name
    · subst same
      have named : elementsNamed other ((other, fields) :: rest) = fields :: elementsNamed other rest := by
        simp [elementsNamed]
      rw [named]
      cases index with
      | zero =>
        rw [if_pos rfl, elementValues_earlier (by rw [Function.update_self]), List.append_nil]
        rfl
      | succ index =>
        have later := ih (Function.update counts other (counts other + 1)) index
        rw [Function.update_self, show counts other + 1 + index + 1 = counts other + (index + 1) + 1 by omega]
          at later
        rw [if_neg (by simp), later, List.nil_append, List.getElem?_cons_succ]
    · have named : elementsNamed name ((other, fields) :: rest) = elementsNamed name rest := by
        simp [elementsNamed, same]
      have later := ih (Function.update counts other (counts other + 1)) index
      rw [Function.update_of_ne (Ne.symm same)] at later
      rw [if_neg (by simp [same]), named, later, List.nil_append]

/-! ### One array -/

/-- The values of elements that are counted on from a number. -/
def arrayFields (name : Text) : Nat → List (List (Text × Value)) → List (Path × Value)
  | _, [] => []
  | count, fields :: rest => elementFields name (count + 1) fields ++ arrayFields name (count + 1) rest

/-- The tables are the array with so many elements, and the values in them. -/
structure Holds (name : Text) (count : Nat) (kinds : GoMap Path Kind) : Prop where
  counted : kinds.lookup [(name, 0)] = if count = 0 then none else some (.tables count)
  inside : ∀ path kind, kinds.lookup path = some kind → path ≠ [(name, 0)] →
    kind = .value ∧ ∃ index key, index ≤ count ∧ path = [(name, index), (key, 0)]

theorem sectionFields_array (name : Text) (count : Nat) (elements : List (List (Text × Value))) :
    sectionFields (Function.update (fun _ => 0) name count) (elements.map (name, ·)) =
      arrayFields name count elements := by
  induction elements generalizing count with
  | nil => rfl
  | cons fields elements ih =>
    rw [List.map_cons, sectionFields, arrayFields, Function.update_self, Function.update_idem, ih]

theorem elementsNamed_array (name : Text) (elements : List (List (Text × Value))) :
    elementsNamed name (elements.map (name, ·)) = elements := by
  simp [elementsNamed]

theorem Holds.of_counts (holds : Counts counts kinds) (alone : ∀ other, other ≠ name → counts other = 0) :
    Holds name (counts name) kinds := by
  refine ⟨holds.counted name, fun path kind reads unlike => ?_⟩
  by_cases root : ∃ other, path = [(other, 0)]
  · obtain ⟨other, rfl⟩ := root
    have absent := holds.counted other
    rw [if_pos (alone other fun same => unlike (same ▸ rfl)), reads] at absent
    cases absent
  · obtain ⟨value, other, index, key, positive, within, rfl⟩ :=
      holds.inside path kind reads fun other same => root ⟨other, same⟩
    obtain rfl : other = name := by
      by_contra strange
      have none := alone other strange
      omega
    exact ⟨value, index, key, within, rfl⟩

theorem feed_array {elements : List (List (Text × Value))}
    (distinct : ∀ fields ∈ elements, (fields.map Prod.fst).Nodup) (name : Text) (current : Path) :
    ∃ kinds current', transduce Tables.feed ⟨∅, current⟩ (elements.flatMap (elementStatements name)) =
        some (⟨kinds, current'⟩, arrayFields name 0 elements) ∧ Holds name elements.length kinds := by
  have distinct' : ∀ part ∈ elements.map (name, ·), (part.2.map Prod.fst).Nodup := by
    intro part member
    obtain ⟨fields, inside, rfl⟩ := List.mem_map.mp member
    exact distinct fields inside
  obtain ⟨kinds, current', fed, holds⟩ := feed_sections counts_empty distinct' current
  have start : Function.update (fun _ => 0) name 0 = fun _ : Text => 0 := Function.update_eq_self name _
  rw [List.flatMap_map, ← start, sectionFields_array] at fed
  have single : Holds name _ kinds := Holds.of_counts holds fun other strange => by
    simp [elementsNamed, Ne.symm strange]
  rw [elementsNamed_array, Nat.zero_add] at single
  exact ⟨kinds, current', fed, single⟩

theorem elementValues_array (name : Text) (index : Nat) (elements : List (List (Text × Value))) :
    elementValues (name, index + 1) (arrayFields name 0 elements) =
      ((elements[index]?).getD []).map fun field => ([(field.1, 0)], field.2) := by
  have values := elementValues_sections (Function.update (fun _ => 0) name 0) name index (elements.map (name, ·))
  rwa [Function.update_self, Nat.zero_add, sectionFields_array, elementsNamed_array] at values

/-! ### Lines that are whole statements -/

theorem Reader.feed_eq_some {reader next : Reader} {line : Text} {out : List (Path × Value)} :
    reader.feed line = some (next, out) ↔
      ∃ statements, feedLine reader.mode line = some (next.mode, statements) ∧
        transduce Tables.feed reader.tables statements = some (next.tables, out) := by
  constructor
  · intro fed
    obtain ⟨⟨mode, statements⟩, read, fed⟩ := Option.bind_eq_some_iff.mp fed
    obtain ⟨⟨tables, values⟩, built, fed⟩ := Option.bind_eq_some_iff.mp fed
    cases fed
    exact ⟨statements, read, built⟩
  · rintro ⟨statements, read, built⟩
    simp [Reader.feed, read, built]

theorem decodeLines_eq_some {lines : List Text} {doc : Document} : decodeLines lines = some doc ↔
    ∃ reader, transduce Reader.feed .initial lines = some (reader, doc.values) ∧
      reader.mode = .line ∧ reader.tables.kinds = doc.kinds := by
  constructor
  · intro decoded
    obtain ⟨⟨reader, values⟩, moved, ended⟩ := Option.bind_eq_some_iff.mp decoded
    obtain ⟨lined, same⟩ := Option.ite_none_right_eq_some.mp ended
    cases same
    exact ⟨reader, moved, lined, rfl⟩
  · rintro ⟨reader, moved, lined, same⟩
    simp [decodeLines, moved, lined, same]

theorem transduce_lines {lines : List (Text × List Statement)} {tables next : Tables}
    {values : List (Path × Value)}
    (whole : ∀ line ∈ lines, feedLine .line line.1 = some (.line, line.2))
    (fed : transduce Tables.feed tables (lines.flatMap Prod.snd) = some (next, values)) :
    transduce Reader.feed ⟨.line, tables⟩ (lines.map Prod.fst) = some (⟨.line, next⟩, values) := by
  induction lines generalizing tables values with
  | nil =>
    cases fed
    rfl
  | cons line lines ih =>
    obtain ⟨between, first, rest, begun, later, rfl⟩ := transduce_append.mp fed
    have read : Reader.feed ⟨.line, tables⟩ line.1 = some (⟨.line, between⟩, first) :=
      Reader.feed_eq_some.mpr ⟨_, whole line List.mem_cons_self, begun⟩
    have more := ih (fun other member => whole other (List.mem_cons_of_mem _ member)) later
    exact transduce_cons_eq_some.mpr ⟨_, first, rest, read, more, rfl⟩

theorem transduce_lines_eq_none {lines : List Text} {tables : Tables}
    (whole : ∀ line ∈ lines, feedLine .line line = none ∨ ∃ out, feedLine .line line = some (.line, out))
    (rejected : ∃ line ∈ lines, feedLine .line line = none) :
    transduce Reader.feed ⟨.line, tables⟩ lines = none := by
  rw [Option.eq_none_iff_forall_ne_some]
  rintro ⟨final, values⟩ moved
  induction lines generalizing tables values with
  | nil =>
    obtain ⟨line, inside, -⟩ := rejected
    cases inside
  | cons line lines ih =>
    obtain ⟨between, first, rest, fed, later, -⟩ := transduce_cons_eq_some.mp moved
    obtain ⟨statements, read, -⟩ := Reader.feed_eq_some.mp fed
    obtain ⟨out, read'⟩ := (whole line List.mem_cons_self).resolve_left (by simp [read])
    obtain ⟨other, inside, refused⟩ := rejected
    have behind : other ∈ lines := by
      rcases List.mem_cons.mp inside with rfl | behind
      · rw [refused] at read'
        cases read'
      · exact behind
    have lined : between.mode = .line := (Prod.mk.inj (Option.some.inj (read.symm.trans read'))).1
    exact ih (fun line member => whole line (List.mem_cons_of_mem _ member)) ⟨other, behind, refused⟩ rest
      (by rw [← lined]; exact later)

theorem splitLines_terminated {lines : List Text} (clean : ∀ line ∈ lines, '\n' ∉ line) :
    splitLines (lines.flatMap (· ++ ['\n'])) = lines ++ [[]] := by
  have joined : ∀ lines : List Text, lines.flatMap (· ++ ['\n']) = joinLines (lines ++ [[]]) := by
    intro lines
    induction lines with
    | nil => rfl
    | cons line lines ih =>
      rw [List.flatMap_cons, ih]
      cases lines with
      | nil => simp [joinLines, List.intercalate]
      | cons next lines => simp [joinLines, List.intercalate]
  rw [joined]
  refine splitLines_joinLines (by simp) fun line member => ?_
  rcases List.mem_append.mp member with written | last
  · exact clean line written
  · rw [List.mem_singleton.mp last]
    exact List.not_mem_nil

theorem decode_terminated {lines : List (Text × List Statement)} {next : Tables} {values : List (Path × Value)}
    (clean : ∀ line ∈ lines, '\n' ∉ line.1)
    (whole : ∀ line ∈ lines, feedLine .line line.1 = some (.line, line.2))
    (fed : transduce Tables.feed ⟨∅, []⟩ (lines.flatMap Prod.snd) = some (next, values)) :
    decode ((lines.map Prod.fst).flatMap (· ++ ['\n'])) = some ⟨next.kinds, values⟩ := by
  have clean' : ∀ line ∈ lines.map Prod.fst, '\n' ∉ line := List.forall_mem_map.mpr clean
  rw [decode, splitLines_terminated clean']
  refine decodeLines_eq_some.mpr ⟨⟨.line, next⟩, ?_, rfl, rfl⟩
  have last : transduce Reader.feed ⟨.line, next⟩ [[]] = some (⟨.line, next⟩, []) := rfl
  have all := transduce_join (transduce_lines whole fed) last
  rwa [List.append_nil] at all

theorem decode_sections {lines : List (Text × List Statement)} (clean : ∀ line ∈ lines, '\n' ∉ line.1)
    (whole : ∀ line ∈ lines, feedLine .line line.1 = some (.line, line.2))
    (said : lines.flatMap Prod.snd = sections.flatMap fun part => elementStatements part.1 part.2)
    (distinct : ∀ part ∈ sections, (part.2.map Prod.fst).Nodup) :
    ∃ kinds, decode ((lines.map Prod.fst).flatMap (· ++ ['\n'])) =
        some ⟨kinds, sectionFields (fun _ => 0) sections⟩ ∧
      Counts (fun name => (elementsNamed name sections).length) kinds := by
  obtain ⟨kinds, current, fed, holds⟩ := feed_sections counts_empty distinct []
  simp only [Nat.zero_add] at holds
  exact ⟨kinds, decode_terminated clean whole (said ▸ fed), holds⟩

theorem decode_terminated_eq_none {lines : List Text} (clean : ∀ line ∈ lines, '\n' ∉ line)
    (whole : ∀ line ∈ lines, feedLine .line line = none ∨ ∃ out, feedLine .line line = some (.line, out))
    (rejected : ∃ line ∈ lines, feedLine .line line = none) :
    decode (lines.flatMap (· ++ ['\n'])) = none := by
  have stopped : transduce Reader.feed .initial (lines ++ [[]]) = none :=
    transduce_eq_none_append (transduce_lines_eq_none whole rejected) _
  rw [decode, splitLines_terminated clean, decodeLines, stopped]
  rfl

end Ttgo.Lib.Toml

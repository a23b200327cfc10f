/-
**Is `PatchVPNConfig` a frame-preserving edit?**

An edit of `vpn.toml` should keep every other line and assign every edited key above the first
section. The replacing loop does; the insertion of missing keys overwrites the section header where
the line above it is not blank.

* `patchLines_eq` — the replacing loop maps the lines and marks the patches.
* `Framed`, `Assigned` — what an edit should be.
* `Overwrites` — a key is missing, and the line above the first section has text.
* `patchVPNConfig_iff` — the edit is framed and assigned exactly if nothing is overwritten.
-/

import Ttgo.Admin.ConfigWriter

namespace Ttgo.Admin

open Ttgo.Lib

/-! ### The replacing loop, as a map -/

section Loop

variable {patches : List Patch} {line : Text} {lines : List Text}

/-- The line that the loop leaves. -/
def replaced (patches : List Patch) (line : Text) : Text :=
  match patches.find? fun p => lineKey line = some p.field.key with
  | some p => p.line
  | none => line

def hasLine (lines : List Text) (p : Patch) : Bool :=
  lines.any fun line => lineKey line = some p.field.key

/-- The patch after the loop. -/
def marked (lines : List Text) (p : Patch) : Patch :=
  { p with applied := p.applied || hasLine lines p }

def Distinct (patches : List Patch) : Prop := (patches.map Patch.field).Nodup

theorem applyPatch_eq {key : Text} (distinct : Distinct patches) :
    applyPatch key patches = (patches.find? fun p => p.field.key = key).map fun p =>
      (assignment key p.value,
        patches.map fun q => { q with applied := q.applied || q.field.key = key }) := by
  induction patches with
  | nil => rfl
  | cons p rest ih =>
    rw [Distinct, List.map_cons, List.nodup_cons] at distinct
    by_cases same : p.field.key = key
    · have others : ∀ q ∈ rest, q.field.key ≠ key := fun q member keyed =>
        distinct.1 (key_injective (keyed.trans same.symm) ▸ List.mem_map_of_mem member)
      have untouched : (rest.map fun q => { q with applied := q.applied || q.field.key = key }) =
          rest := by
        refine (List.map_congr_left fun q member => ?_).trans (List.map_id rest)
        simp [others q member]
      rw [applyPatch, if_pos same, List.find?_cons_of_pos (by simpa using same)]
      simp [same, untouched]
    · rw [applyPatch, if_neg same, ih distinct.2, List.find?_cons_of_neg (by simpa using same)]
      simp [same, Function.comp_def]

theorem patchLine_eq_map (distinct : Distinct patches) :
    patchLine patches line = (replaced patches line, patches.map (marked [line])) := by
  have unmarked : ∀ list : List Patch, (∀ q ∈ list, lineKey line ≠ some q.field.key) →
      list.map (marked [line]) = list := by
    intro list absent
    refine (List.map_congr_left fun q member => ?_).trans (List.map_id list)
    simp [marked, hasLine, absent q member]
  rw [patchLine_eq, replaced]
  cases keyed : lineKey line with
  | none =>
    have absent : (patches.find? fun p => decide (none = some p.field.key)) = none :=
      List.find?_eq_none.mpr (by simp)
    rw [unmarked patches fun q _ => by simp [keyed], absent]
    rfl
  | some key =>
    rw [Option.bind_some, applyPatch_eq distinct]
    have spelled : (fun p : Patch => decide (some key = some p.field.key)) =
        fun p => decide (p.field.key = key) := by
      funext p
      simp [eq_comm]
    rw [spelled]
    cases found : patches.find? fun p => decide (p.field.key = key) with
    | none =>
      rw [List.find?_eq_none] at found
      rw [unmarked patches fun q member same => found q member (by simpa [keyed, eq_comm] using same)]
      rfl
    | some p =>
      have same : p.field.key = key := by simpa using List.find?_some found
      simp [Patch.line, same, marked, hasLine, keyed, eq_comm]

theorem replaced_marked (earlier : List Text) :
    replaced (patches.map (marked earlier)) line = replaced patches line := by
  rw [replaced, replaced, List.find?_map]
  show (match (patches.find? fun p => lineKey line = some p.field.key).map (marked earlier) with
    | some p => p.line
    | none => line) = _
  cases patches.find? fun p => lineKey line = some p.field.key <;> rfl

theorem distinct_marked (earlier : List Text) (distinct : Distinct patches) :
    Distinct (patches.map (marked earlier)) := by
  rw [Distinct, List.map_map]
  exact distinct

theorem patchLines_eq (distinct : Distinct patches) :
    patchLines patches lines = (lines.map (replaced patches), patches.map (marked lines)) := by
  induction lines generalizing patches with
  | nil =>
    have untouched : marked [] = id := by
      funext p
      simp [marked, hasLine]
    rw [untouched, List.map_id]
    rfl
  | cons line lines ih =>
    have twice : marked lines ∘ marked [line] = marked (line :: lines) := by
      funext p
      simp [marked, hasLine, Bool.or_assoc]
    simp only [patchLines, patchLine_eq_map distinct]
    have same : replaced (patches.map (marked [line])) = replaced patches :=
      funext fun _ => replaced_marked [line]
    rw [ih (distinct_marked [line] distinct), List.map_map, twice, same, List.map_cons]

theorem mem_extras {text : Text} (fresh : ∀ p ∈ patches, p.applied = false) :
    text ∈ extras (patches.map (marked lines)) ↔
      ∃ p ∈ patches, hasLine lines p = false ∧ p.line = text := by
  simp only [extras, List.mem_map, List.mem_filter, Bool.not_eq_true']
  constructor
  · rintro ⟨q, ⟨⟨p, member, rfl⟩, unapplied⟩, rfl⟩
    exact ⟨p, member, by simpa [marked, fresh p member] using unapplied, rfl⟩
  · rintro ⟨p, member, missing, rfl⟩
    exact ⟨marked lines p, ⟨⟨p, member, rfl⟩, by simp [marked, fresh p member, missing]⟩, rfl⟩

theorem mem_replaced (distinct : Distinct patches) {p : Patch} (member : p ∈ patches)
    (found : hasLine lines p = true) : p.line ∈ lines.map (replaced patches) := by
  obtain ⟨line, inside, keyed⟩ := List.any_eq_true.mp found
  have keyed : lineKey line = some p.field.key := of_decide_eq_true keyed
  refine List.mem_map.mpr ⟨line, inside, ?_⟩
  rw [replaced]
  cases first : patches.find? fun q => lineKey line = some q.field.key with
  | none => exact absurd keyed (by simpa using List.find?_eq_none.mp first p member)
  | some q =>
    have same : q.field = p.field := by
      have keyed' : lineKey line = some q.field.key := by simpa using List.find?_some first
      exact key_injective (Option.some.inj (keyed'.symm.trans keyed))
    have equal : q = p :=
      List.inj_on_of_nodup_map distinct (List.mem_of_find?_eq_some first) member same
    rw [equal]

theorem replaced_cases (patches : List Patch) (line : Text) :
    replaced patches line = line ∨
      ∃ p ∈ patches, lineKey line = some p.field.key ∧ replaced patches line = p.line := by
  rw [replaced]
  cases first : patches.find? fun q => lineKey line = some q.field.key with
  | none => exact .inl rfl
  | some p =>
    exact .inr ⟨p, List.mem_of_find?_eq_some first, by simpa using List.find?_some first, rfl⟩

end Loop

/-! ### Frame-preserving edits -/

/-- The line assigns an edited key. -/
def edited (patches : List Patch) (line : Text) : Bool :=
  patches.any fun p => lineKey line = some p.field.key

/-- The lines with text on them that assign no edited key. -/
def keptLines (patches : List Patch) (lines : List Text) : List Text :=
  lines.filter fun line => !isBlank line && !edited patches line

/-- **Every other line is kept**, in its place. -/
def Framed (patches : List Patch) (old new : List Text) : Prop :=
  keptLines patches new = keptLines patches old

/-- **Every edited key is assigned** its value above the first section. -/
def Assigned (patches : List Patch) (new : List Text) : Prop :=
  ∀ p ∈ patches, ∃ i < firstSectionIdx new, new[i]? = some p.line

/-- A key is missing above the first section, there is a section, and the line above it has text. -/
def Overwrites (patches : List Patch) (lines : List Text) : Prop :=
  (∃ p ∈ patches, ∀ line ∈ lines.take (firstSectionIdx lines), lineKey line ≠ some p.field.key) ∧
    firstSectionIdx lines < lines.length ∧
    endsInText (lines.take (firstSectionIdx lines)) = true

instance (patches : List Patch) (lines : List Text) : Decidable (Overwrites patches lines) :=
  inferInstanceAs (Decidable (_ ∧ _ ∧ _))

section Frame

variable {patches : List Patch} {lines : List Text}

theorem keptLines_append (first second : List Text) :
    keptLines patches (first ++ second) = keptLines patches first ++ keptLines patches second :=
  List.filter_append first second

theorem edited_line {p : Patch} (member : p ∈ patches) : edited patches p.line = true :=
  List.any_eq_true.mpr ⟨p, member, decide_eq_true (lineKey_assignment p.field p.value)⟩

theorem keptLines_separator (after : List Text) : keptLines patches (separator after) = [] := by
  unfold separator
  split <;> rfl

theorem keptLines_extras (fresh : ∀ p ∈ patches, p.applied = false) :
    keptLines patches (extras (patches.map (marked lines))) = [] := by
  refine List.filter_eq_nil_iff.mpr fun text member => ?_
  obtain ⟨p, inside, -, rfl⟩ := (mem_extras fresh).mp member
  simp [edited_line inside]

theorem keptLines_replaced : keptLines patches (lines.map (replaced patches)) =
    keptLines patches lines := by
  induction lines with
  | nil => rfl
  | cons line lines ih =>
    rw [List.map_cons, keptLines, List.filter_cons, keptLines, List.filter_cons]
    have rest : List.filter _ (lines.map (replaced patches)) = List.filter _ lines := ih
    rw [rest]
    rcases replaced_cases patches line with same | ⟨p, member, keyed, same⟩
    · rw [same]
    · have before : edited patches line = true :=
        List.any_eq_true.mpr ⟨p, member, decide_eq_true keyed⟩
      simp only [same, edited_line member, before, Bool.not_true, Bool.and_false, Bool.false_eq_true,
        if_false]

theorem isBlank_replaced (patches : List Patch) (line : Text) :
    isBlank (replaced patches line) = isBlank line := by
  rcases replaced_cases patches line with same | ⟨p, -, keyed, same⟩
  · rw [same]
  · rw [same, not_isBlank_of_lineKey keyed]
    exact not_isBlank_of_lineKey (lineKey_assignment p.field p.value)

theorem endsInText_replaced : endsInText (lines.map (replaced patches)) = endsInText lines := by
  rw [endsInText, endsInText, List.getLast?_map, Option.any_map]
  simp only [isBlank_replaced]

theorem not_isSectionHeader_take {line : Text}
    (member : line ∈ lines.take (firstSectionIdx lines)) : isSectionHeader line = false := by
  obtain ⟨i, inside, rfl⟩ := List.mem_take_iff_getElem.mp member
  exact List.not_of_lt_findIdx (lt_of_lt_of_le inside (min_le_left _ _))

theorem above_first_section {above below : List Text}
    (none : ∀ line ∈ above, isSectionHeader line = false) {line : Text} (member : line ∈ above) :
    ∃ i < firstSectionIdx (above ++ below), (above ++ below)[i]? = some line := by
  obtain ⟨i, found⟩ := List.mem_iff_getElem?.mp member
  obtain ⟨inside, -⟩ := List.getElem?_eq_some_iff.mp found
  refine ⟨i, ?_, by rw [List.getElem?_append_left inside, found]⟩
  refine inside.trans_le ?_
  rw [firstSectionIdx, List.findIdx_append, List.findIdx_eq_length_of_false none]
  simp

theorem not_isSectionHeader_replaced {line : Text}
    (member : line ∈ (lines.take (firstSectionIdx lines)).map (replaced patches)) :
    isSectionHeader line = false := by
  obtain ⟨old, inside, rfl⟩ := List.mem_map.mp member
  rcases replaced_cases patches old with same | ⟨p, -, -, same⟩
  · rw [same]
    exact not_isSectionHeader_take inside
  · rw [same]
    exact not_isSectionHeader_assignment p.field p.value

theorem editLines_eq (slack : Nat → Nat) (distinct : Distinct patches) :
    editLines slack patches lines =
      let idx := firstSectionIdx lines
      let above := (lines.take idx).map (replaced patches)
      let new := extras (patches.map (marked (lines.take idx)))
      if new = [] then above ++ lines.drop idx
      else if endsInText (lines.take idx) then
        above ++ [[]] ++ new ++ separator ((lines.drop idx).set 0 []) ++ (lines.drop idx).set 0 []
      else above ++ new ++ separator (lines.drop idx) ++ lines.drop idx := by
  have short : firstSectionIdx lines ≤ lines.length := List.findIdx_le_length
  have length : ((lines.take (firstSectionIdx lines)).map (replaced patches)).length =
      firstSectionIdx lines := by
    rw [List.length_map, List.length_take, min_eq_left short]
  simp only [editLines, patchLines_eq distinct]
  split
  · rfl
  · rw [insertExtras_eq (by rw [List.length_append, length]; exact Nat.le_add_right _ _),
      List.take_left' length, List.drop_left' length, endsInText_replaced]

/-- **Every edited key is assigned** above the first section, whatever becomes of the other lines. -/
theorem assigned_editLines (slack : Nat → Nat) (lines : List Text) (distinct : Distinct patches)
    (fresh : ∀ p ∈ patches, p.applied = false) :
    Assigned patches (editLines slack patches lines) := by
  intro p member
  -- a patch has its line from the loop, or is among the new ones
  let above := (lines.take (firstSectionIdx lines)).map (replaced patches)
  let new := extras (patches.map (marked (lines.take (firstSectionIdx lines))))
  have placed : p.line ∈ above ∨ p.line ∈ new := by
    cases found : hasLine (lines.take (firstSectionIdx lines)) p with
    | true => exact .inl (mem_replaced distinct member found)
    | false => exact .inr ((mem_extras fresh).mpr ⟨p, member, found, rfl⟩)
  have noneAbove : ∀ line ∈ above, isSectionHeader line = false := fun line inside =>
    not_isSectionHeader_replaced inside
  have noneNew : ∀ line ∈ new, isSectionHeader line = false := by
    intro line inside
    obtain ⟨q, -, -, rfl⟩ := (mem_extras fresh).mp inside
    exact not_isSectionHeader_assignment q.field q.value
  rw [editLines_eq slack distinct]
  simp only
  split
  · next nothing =>
    have inAbove : p.line ∈ above := placed.resolve_right (by rw [show new = [] from nothing]; simp)
    exact above_first_section noneAbove inAbove
  split
  · rw [List.append_assoc (above ++ [[]] ++ new)]
    refine above_first_section (fun line inside => ?_) ?_
    · rcases List.mem_append.mp inside with inside | inside
      · rcases List.mem_append.mp inside with inside | inside
        · exact noneAbove line inside
        · rw [List.mem_singleton.mp inside]
          rfl
      · exact noneNew line inside
    · rcases placed with inside | inside
      · exact List.mem_append_left _ (List.mem_append_left _ inside)
      · exact List.mem_append_right _ inside
  · rw [List.append_assoc (above ++ new)]
    refine above_first_section (fun line inside => ?_) (List.mem_append.mpr placed)
    rcases List.mem_append.mp inside with inside | inside
    · exact noneAbove line inside
    · exact noneNew line inside

theorem extras_ne_nil_iff (fresh : ∀ p ∈ patches, p.applied = false) :
    extras (patches.map (marked lines)) ≠ [] ↔
      ∃ p ∈ patches, ∀ line ∈ lines, lineKey line ≠ some p.field.key := by
  constructor
  · intro some
    obtain ⟨text, member⟩ := List.exists_mem_of_ne_nil _ some
    obtain ⟨p, inside, missing, -⟩ := (mem_extras fresh).mp member
    exact ⟨p, inside, by simpa [hasLine] using missing⟩
  · rintro ⟨p, inside, missing⟩
    exact List.ne_nil_of_mem
      ((mem_extras fresh).mpr ⟨p, inside, by simpa [hasLine] using missing, rfl⟩)

theorem keptLines_below {header : Text} {rest : List Text}
    (below : lines.drop (firstSectionIdx lines) = header :: rest) :
    keptLines patches (lines.drop (firstSectionIdx lines)) = header :: keptLines patches rest := by
  have inside : firstSectionIdx lines < lines.length := by
    by_contra outside
    rw [List.drop_eq_nil_of_le (not_lt.mp outside)] at below
    cases below
  have isHeader : isSectionHeader header = true := by
    have first : lines[firstSectionIdx lines] = header := by
      rw [List.drop_eq_getElem_cons inside, List.cons.injEq] at below
      exact below.1
    rw [← first]
    exact List.findIdx_getElem
  have unedited : edited patches header = false := by
    rw [edited, List.any_eq_false]
    intro p _
    simpa using lineKey_section isHeader p.field
  rw [below, keptLines, List.filter_cons_of_pos]
  · rfl
  · rw [not_isBlank_section isHeader, unedited]
    rfl

/-- **The other lines are kept** exactly if no section header is overwritten. -/
theorem framed_editLines_iff (slack : Nat → Nat) (distinct : Distinct patches)
    (fresh : ∀ p ∈ patches, p.applied = false) :
    Framed patches lines (editLines slack patches lines) ↔ ¬ Overwrites patches lines := by
  have whole : keptLines patches lines =
      keptLines patches (lines.take (firstSectionIdx lines)) ++
        keptLines patches (lines.drop (firstSectionIdx lines)) := by
    rw [← keptLines_append, List.take_append_drop]
  rw [Framed, editLines_eq slack distinct, whole]
  simp only
  by_cases missing : extras (patches.map (marked (lines.take (firstSectionIdx lines)))) = []
  · rw [if_pos missing, keptLines_append, keptLines_replaced]
    refine iff_of_true rfl fun overwrites => ?_
    exact (extras_ne_nil_iff fresh).mpr overwrites.1 missing
  rw [if_neg missing]
  by_cases text : endsInText (lines.take (firstSectionIdx lines)) = true
  · rw [if_pos text]
    simp only [keptLines_append, keptLines_replaced, keptLines_extras fresh, keptLines_separator,
      List.append_nil]
    have blank : keptLines patches [[]] = [] := rfl
    rw [blank, List.append_nil]
    cases below : lines.drop (firstSectionIdx lines) with
    | nil =>
      refine iff_of_true rfl fun overwrites => ?_
      exact absurd overwrites.2.1 (not_lt.mpr (List.drop_eq_nil_iff.mp below))
    | cons header rest =>
      have lost : keptLines patches ((header :: rest).set 0 []) = keptLines patches rest := by
        rw [List.set_cons_zero]
        rfl
      rw [lost, ← below, keptLines_below below]
      refine iff_of_false (fun same => ?_) (not_not.mpr ⟨(extras_ne_nil_iff fresh).mp missing, ?_, text⟩)
      · have lengths := congrArg List.length same
        simp at lengths
      · by_contra outside
        rw [List.drop_eq_nil_of_le (not_lt.mp outside)] at below
        cases below
  · rw [if_neg text]
    simp only [keptLines_append, keptLines_replaced, keptLines_extras fresh, keptLines_separator,
      List.append_nil]
    exact iff_of_true trivial fun overwrites => text overwrites.2.2

end Frame

/-! ### The file -/

section File

variable {wide : Char → Bool} {slack : Nat → Nat} {edit : EditableConfig} {patches : List Patch}

theorem field_add {α : Type} (field : Field) (format : α → Text) (value : Option α) :
    ((add field format value).map Patch.field).Sublist [field] := by
  cases value with
  | none => exact List.nil_sublist _
  | some value => exact List.Sublist.refl _

theorem distinct_patches (wide : Char → Bool) (edit : EditableConfig) :
    Distinct (edit.patches wide) := by
  refine List.Nodup.sublist ?_ (show [Field.listenAddress, .allowPrivateNet, .ipv6Available,
    .cacheTTLSecs, .tlsHandshakeTimeoutSecs, .connectionEstablishTimeoutSecs,
    .tcpConnectionsTimeoutSecs, .udpConnectionsTimeoutSecs].Nodup by decide)
  simp only [EditableConfig.patches, List.map_append]
  exact (((((((field_add ..).append (field_add ..)).append (field_add ..)).append
    (field_add ..)).append (field_add ..)).append (field_add ..)).append (field_add ..)).append
    (field_add ..)

theorem mem_add {α : Type} {field : Field} {format : α → Text} {value : Option α} {p : Patch}
    (member : p ∈ add field format value) : ∃ given, p = { field, value := format given } := by
  cases value with
  | none => cases member
  | some value => exact ⟨value, List.mem_singleton.mp member⟩

theorem newline_notMem_formatBool (value : Bool) : '\n' ∉ formatBool value := by
  cases value <;> decide

theorem fresh_patches {p : Patch} (member : p ∈ edit.patches wide) :
    p.applied = false ∧ '\n' ∉ p.value := by
  simp only [EditableConfig.patches, List.mem_append] at member
  rcases member with ((((((member | member) | member) | member) | member) | member) | member) |
    member <;> obtain ⟨given, rfl⟩ := mem_add member
  · exact ⟨rfl, newline_notMem_quote wide given⟩
  · exact ⟨rfl, newline_notMem_formatBool given⟩
  · exact ⟨rfl, newline_notMem_formatBool given⟩
  all_goals exact ⟨rfl, newline_notMem_itoa given⟩

theorem newline_notMem_assignment {p : Patch} (single : '\n' ∉ p.value) : '\n' ∉ p.line := by
  simp only [Patch.line, assignment, List.mem_append, not_or]
  exact ⟨⟨newline_notMem_key p.field, by decide⟩, single⟩

theorem newline_notMem_editLines (slack : Nat → Nat) {lines : List Text} (distinct : Distinct patches)
    (fresh : ∀ p ∈ patches, p.applied = false ∧ '\n' ∉ p.value)
    (single : ∀ line ∈ lines, '\n' ∉ line) :
    ∀ line ∈ editLines slack patches lines, '\n' ∉ line := by
  have above : ∀ line ∈ (lines.take (firstSectionIdx lines)).map (replaced patches), '\n' ∉ line := by
    intro line member
    obtain ⟨old, inside, rfl⟩ := List.mem_map.mp member
    rcases replaced_cases patches old with same | ⟨p, inside', -, same⟩
    · rw [same]
      exact single old (List.mem_of_mem_take inside)
    · rw [same]
      exact newline_notMem_assignment (fresh p inside').2
  have new : ∀ line ∈ extras (patches.map (marked (lines.take (firstSectionIdx lines)))),
      '\n' ∉ line := by
    intro line member
    obtain ⟨p, inside, -, rfl⟩ := (mem_extras fun p inside => (fresh p inside).1).mp member
    exact newline_notMem_assignment (fresh p inside).2
  have below : ∀ line ∈ lines.drop (firstSectionIdx lines), '\n' ∉ line := fun line member =>
    single line (List.mem_of_mem_drop member)
  have blank : ∀ after : List Text, ∀ line ∈ separator after, '\n' ∉ line := by
    intro after line member
    unfold separator at member
    split at member
    · rw [List.mem_singleton.mp member]
      exact List.not_mem_nil
    · cases member
  have cleared : ∀ line ∈ (lines.drop (firstSectionIdx lines)).set 0 [], '\n' ∉ line := by
    intro line member
    rcases List.mem_or_eq_of_mem_set member with old | rfl
    · exact below line old
    · exact List.not_mem_nil
  intro line member
  rw [editLines_eq slack distinct] at member
  simp only at member
  split at member
  · rcases List.mem_append.mp member with inside | inside
    · exact above line inside
    · exact below line inside
  split at member
  · simp only [List.mem_append, List.mem_singleton] at member
    rcases member with (((inside | rfl) | inside) | inside) | inside
    · exact above line inside
    · exact List.not_mem_nil
    · exact new line inside
    · exact blank _ line inside
    · exact cleared line inside
  · simp only [List.mem_append] at member
    rcases member with ((inside | inside) | inside) | inside
    · exact above line inside
    · exact new line inside
    · exact blank _ line inside
    · exact below line inside

theorem patchVPNConfig_saved {files files' : Files} {faults : Faults} {path : String} {text : Text}
    (edits : edit.patches wide ≠ []) (stored : files.lookup path = some text)
    (saved : patchVPNConfig wide slack files faults path edit = (none, files')) :
    files'.lookup path =
      some (joinLines (editLines slack (edit.patches wide) (splitLines text))) := by
  unfold patchVPNConfig at saved
  rw [stored] at saved
  cases reads : faults.read with
  | true => simp [reads] at saved
  | false =>
    simp only [reads, if_neg edits] at saved
    cases writes : faults.write with
    | some written => simp [writes] at saved
    | none =>
      simp only [writes] at saved
      split at saved
      · simp at saved
      · cases saved
        exact AList.lookup_insert _

/-- **`PatchVPNConfig` as an edit**: after a success, the other lines are kept and the edited keys are
assigned above the first section, if and only if no section header is overwritten. -/
theorem patchVPNConfig_iff {files files' : Files} {faults : Faults} {path : String} {text : Text}
    (edits : edit.patches wide ≠ []) (stored : files.lookup path = some text)
    (saved : patchVPNConfig wide slack files faults path edit = (none, files')) :
    ∃ text', files'.lookup path = some text' ∧
      ((Framed (edit.patches wide) (splitLines text) (splitLines text') ∧
          Assigned (edit.patches wide) (splitLines text')) ↔
        ¬ Overwrites (edit.patches wide) (splitLines text)) := by
  have distinct := distinct_patches wide edit
  have fresh : ∀ p ∈ edit.patches wide, p.applied = false ∧ '\n' ∉ p.value :=
    fun p => fresh_patches
  have unapplied : ∀ p ∈ edit.patches wide, p.applied = false := fun p member => (fresh p member).1
  have assigned := assigned_editLines slack (splitLines text) distinct unapplied
  have nonempty : editLines slack (edit.patches wide) (splitLines text) ≠ [] := by
    obtain ⟨p, member⟩ := List.exists_mem_of_ne_nil _ edits
    obtain ⟨i, -, found⟩ := assigned p member
    exact List.ne_nil_of_mem (List.mem_of_getElem? found)
  have old : ∀ line ∈ splitLines text, '\n' ∉ line := fun _ => newline_notMem_line
  have single := newline_notMem_editLines slack distinct fresh old
  refine ⟨_, patchVPNConfig_saved edits stored saved, ?_⟩
  rw [splitLines_joinLines nonempty single, ← framed_editLines_iff slack distinct unapplied]
  exact and_iff_left assigned

/-- A configuration with a section, below a line with text or a blank one. -/
def vpnToml (above : String) : Files :=
  (∅ : Files).insert "vpn.toml" ("ipv6_available = true\n" ++ above ++ "[auth]\nttl = 1").toList

def setCacheTTL : EditableConfig := { cacheTTLSecs := some 60 }

/-- **A section header is lost.** -/
theorem patchVPNConfig_loses_section :
    ∃ files', patchVPNConfig (fun _ => true) (fun _ => 0) (vpnToml "") {} "vpn.toml" setCacheTTL =
        (none, files') ∧
      files'.lookup "vpn.toml" =
        some "ipv6_available = true\n\ncache_ttl_secs = 60\n\nttl = 1".toList ∧
      ¬ Framed (setCacheTTL.patches fun _ => true)
        (splitLines "ipv6_available = true\n[auth]\nttl = 1".toList)
        (splitLines "ipv6_available = true\n\ncache_ttl_secs = 60\n\nttl = 1".toList) :=
  ⟨_, rfl, by decide, by unfold Framed; decide⟩

/-- With a blank line above the section, the edit keeps it. -/
theorem patchVPNConfig_keeps_section :
    ∃ files' text', patchVPNConfig (fun _ => true) (fun _ => 0) (vpnToml "\n") {} "vpn.toml"
        setCacheTTL = (none, files') ∧ files'.lookup "vpn.toml" = some text' ∧
      Framed (setCacheTTL.patches fun _ => true)
        (splitLines "ipv6_available = true\n\n[auth]\nttl = 1".toList) (splitLines text') ∧
      Assigned (setCacheTTL.patches fun _ => true) (splitLines text') := by
  have stored : (vpnToml "\n").lookup "vpn.toml" =
      some "ipv6_available = true\n\n[auth]\nttl = 1".toList := by decide
  obtain ⟨text', found, exact⟩ := patchVPNConfig_iff (by decide) stored
    (show patchVPNConfig (fun _ => true) (fun _ => 0) (vpnToml "\n") {} "vpn.toml" setCacheTTL =
      (none, _) from rfl)
  exact ⟨_, text', rfl, found, exact.mpr (by decide)⟩

end File

end Ttgo.Admin

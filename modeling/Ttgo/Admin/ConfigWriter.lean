/-
**`PatchVPNConfig`: editing `vpn.toml` line by line.**

`internal/admin/configwriter.go` rewrites the assignments of the edited keys above the first section
and inserts the missing ones before it, with a blank line on either side. The insertion cuts the lines
in two with `lines[:i]` and `lines[i:]` and appends the blank line to the first part, whose capacity
reaches over the second.

* `EditableConfig`, `patches` — the edit, and the assignments it makes.
* `patchLines` — the replacing loop; `insertExtras` — the insertion, over Go slices;
  `editLines` — both; `patchVPNConfig` — the function, with its file operations.
* `insertExtras_eq` — the insertion as lists: where the first part ends in text, its blank line has
  taken the place of the first line of the second.
* `lineKey` — the key of a line; `patchLine_eq` — the loop goes by it.
-/

import Ttgo.Lib.GoMap
import Ttgo.Lib.GoSlice
import Ttgo.Lib.GoStrings

namespace Ttgo.Admin

open Ttgo.Lib

/-! ### The edit -/

/-- The keys of `vpn.toml` that may be edited. -/
inductive Field
  | listenAddress
  | allowPrivateNet
  | ipv6Available
  | cacheTTLSecs
  | tlsHandshakeTimeoutSecs
  | connectionEstablishTimeoutSecs
  | tcpConnectionsTimeoutSecs
  | udpConnectionsTimeoutSecs
deriving DecidableEq, Repr

/-- The key in the file. -/
def Field.key : Field → Text
  | .listenAddress => "listen_address".toList
  | .allowPrivateNet => "allow_private_network_connections".toList
  | .ipv6Available => "ipv6_available".toList
  | .cacheTTLSecs => "cache_ttl_secs".toList
  | .tlsHandshakeTimeoutSecs => "tls_handshake_timeout_secs".toList
  | .connectionEstablishTimeoutSecs => "connection_establishment_timeout_secs".toList
  | .tcpConnectionsTimeoutSecs => "tcp_connections_timeout_secs".toList
  | .udpConnectionsTimeoutSecs => "udp_connections_timeout_secs".toList

/-- `EditableConfig`; `none` leaves the key alone. -/
structure EditableConfig where
  listenAddress : Option Text := none
  allowPrivateNet : Option Bool := none
  ipv6Available : Option Bool := none
  cacheTTLSecs : Option Int := none
  tlsHandshakeTimeoutSecs : Option Int := none
  connectionEstablishTimeoutSecs : Option Int := none
  tcpConnectionsTimeoutSecs : Option Int := none
  udpConnectionsTimeoutSecs : Option Int := none
deriving DecidableEq, Repr

structure Patch where
  field : Field
  value : Text
  applied : Bool := false
deriving DecidableEq, Repr

/-- `%t`. -/
def formatBool (value : Bool) : Text := if value then "true".toList else "false".toList

/-- `add`, for a field that is set. -/
def add {α : Type} (field : Field) (format : α → Text) (value : Option α) : List Patch :=
  (value.map fun given => { field, value := format given }).toList

/-- The patches of an edit, in the order of the source. -/
def EditableConfig.patches (wide : Char → Bool) (edit : EditableConfig) : List Patch :=
  add .listenAddress (quote wide) edit.listenAddress ++
    add .allowPrivateNet formatBool edit.allowPrivateNet ++
    add .ipv6Available formatBool edit.ipv6Available ++
    add .cacheTTLSecs itoa edit.cacheTTLSecs ++
    add .tlsHandshakeTimeoutSecs itoa edit.tlsHandshakeTimeoutSecs ++
    add .connectionEstablishTimeoutSecs itoa edit.connectionEstablishTimeoutSecs ++
    add .tcpConnectionsTimeoutSecs itoa edit.tcpConnectionsTimeoutSecs ++
    add .udpConnectionsTimeoutSecs itoa edit.udpConnectionsTimeoutSecs

def assignment (key value : Text) : Text := key ++ " = ".toList ++ value

def Patch.line (p : Patch) : Text := assignment p.field.key p.value

/-! ### The lines -/

/-- `strings.HasPrefix(strings.TrimSpace(line), "[")`. -/
def isSectionHeader (line : Text) : Bool := (trimSpace line).head? = some '['

/-- `strings.TrimSpace(line) == ""`. -/
def isBlank (line : Text) : Bool := trimSpace line = []

/-- The index of the first section, or the number of lines. -/
def firstSectionIdx (lines : List Text) : Nat := lines.findIdx isSectionHeader

/-- The inner loop: the first patch of the key gives the line and is marked as applied. -/
def applyPatch (key : Text) : List Patch → Option (Text × List Patch)
  | [] => none
  | p :: rest =>
    if p.field.key = key then some (assignment key p.value, { p with applied := true } :: rest)
    else (applyPatch key rest).map fun applied => (applied.1, p :: applied.2)

/-- One line of the replacing loop. -/
def patchLine (patches : List Patch) (line : Text) : Text × List Patch :=
  let trimmed := trimLeft line
  if trimmed = [] ∨ trimmed.head? = some '#' then (line, patches)
  else if '=' ∉ trimmed then (line, patches)
  else (applyPatch (trimSpace (trimmed.takeWhile (· ≠ '='))) patches).getD (line, patches)

/-- The replacing loop. -/
def patchLines : List Patch → List Text → List Text × List Patch
  | patches, [] => ([], patches)
  | patches, line :: lines =>
    let patched := patchLine patches line
    let rest := patchLines patched.2 lines
    (patched.1 :: rest.1, rest.2)

/-- The assignments of the patches that no line took. -/
def extras (patches : List Patch) : List Text :=
  (patches.filter fun p => !p.applied).map Patch.line

/-- `newLines`: the two parts with the new lines between them, and a blank line where the second part
starts with text. -/
def assemble (slack : Nat → Nat) (heap : Heap Text) (before after : Slice) (cap : Nat)
    (new : List Text) : List Text :=
  let made := Slice.makeSlice heap cap
  let withBefore := made.2.pushAll slack made.1 (before.read made.1)
  let withNew := withBefore.2.pushAll slack withBefore.1 new
  let separated :=
    if ((after.read withNew.1).head?).any fun first => !isBlank first then
      withNew.2.push slack withNew.1 []
    else withNew
  let whole := separated.2.pushAll slack separated.1 (after.read separated.1)
  whole.2.read whole.1

def endsInText (lines : List Text) : Bool := lines.getLast?.any fun last => !isBlank last

/-- The insertion. `strings.Split` makes a slice without spare capacity, and `slack` is what a
reallocation adds. -/
def insertExtras (slack : Nat → Nat) (content : List Text) (idx : Nat) (new : List Text) :
    List Text :=
  let lines : Slice := ⟨0, 0, content.length, content.length⟩
  let before := lines.upTo idx
  let after := lines.onward idx
  let cap := content.length + new.length + 1
  if endsInText (before.read [content]) then
    let spaced := before.push slack [content] []
    assemble slack spaced.1 spaced.2 after cap new
  else assemble slack [content] before after cap new

def editLines (slack : Nat → Nat) (patches : List Patch) (lines : List Text) : List Text :=
  let idx := firstSectionIdx lines
  let patched := patchLines patches (lines.take idx)
  let replaced := patched.1 ++ lines.drop idx
  let new := extras patched.2
  if new = [] then replaced else insertExtras slack replaced idx new

/-! ### The files -/

abbrev Files := GoMap String Text

/-- The file operations that fail, and how much of the text a failed write leaves behind. -/
structure Faults where
  read : Bool := false
  write : Option Nat := none
  rename : Bool := false
deriving DecidableEq, Repr

inductive FileError
  | read
  | write
  | rename
deriving DecidableEq, Repr

def tmpOf (path : String) : String := path ++ ".tmp"

/-- `PatchVPNConfig`: its error, if any, and the files after it. -/
def patchVPNConfig (wide : Char → Bool) (slack : Nat → Nat) (files : Files) (faults : Faults)
    (path : String) (edit : EditableConfig) : Option FileError × Files :=
  match files.lookup path, faults.read with
  | some data, false =>
    let patches := edit.patches wide
    if patches = [] then (none, files)
    else
      let text := joinLines (editLines slack patches (splitLines data))
      match faults.write with
      | some written => (some .write, files.insert (tmpOf path) (text.take written))
      | none =>
        if faults.rename then (some .rename, files.insert (tmpOf path) text)
        else (none, ((files.insert (tmpOf path) text).erase (tmpOf path)).insert path text)
  | _, _ => (some .read, files)

/-! ### What the insertion does -/

/-- The blank line before a part that starts with text. -/
def separator (lines : List Text) : List Text :=
  if lines.head?.any fun first => !isBlank first then [[]] else []

section Insert

variable {slack : Nat → Nat} {heap : Heap Text} {before after : Slice} {cap idx : Nat}
  {content new : List Text}

theorem assemble_eq (oldBefore : before.array < heap.length) (oldAfter : after.array < heap.length) :
    assemble slack heap before after cap new =
      before.read heap ++ new ++ separator (after.read heap) ++ after.read heap := by
  have made := Slice.beside_makeSlice oldAfter cap
  have reads : before.read (Slice.makeSlice heap cap).1 = before.read heap :=
    (Slice.beside_makeSlice oldBefore cap).shown
  have built := (made.pushAll slack (before.read heap)).pushAll slack new
  rw [List.nil_append] at built
  simp only [assemble, reads, built.shown, separator]
  split
  · have spaced := built.push slack []
    rw [spaced.shown]
    exact (spaced.pushAll slack (after.read heap)).built
  · rw [built.shown, List.append_nil]
    exact (built.pushAll slack (after.read heap)).built

/-- **The insertion, as lists.** Where the first part ends in text, its blank line has taken the place
of the first line of the second part. -/
theorem insertExtras_eq (le : idx ≤ content.length) :
    insertExtras slack content idx new =
      if endsInText (content.take idx) then
        content.take idx ++ [[]] ++ new ++ separator ((content.drop idx).set 0 []) ++
          (content.drop idx).set 0 []
      else content.take idx ++ new ++ separator (content.drop idx) ++ content.drop idx := by
  have valid : (Slice.mk 0 0 content.length content.length).Valid [content] :=
    ⟨Nat.one_pos, le_of_eq (Nat.zero_add _), le_refl _⟩
  have whole : (Slice.mk 0 0 content.length content.length).read [content] = content := by
    simp [Slice.read]
  have readBefore : ((Slice.mk 0 0 content.length content.length).upTo idx).read [content] =
      content.take idx := by
    rw [Slice.read_upTo le, whole]
  have readAfter : ((Slice.mk 0 0 content.length content.length).onward idx).read [content] =
      content.drop idx := by
    rw [Slice.read_onward, whole]
  simp only [insertExtras, readBefore]
  split
  · have longer := Slice.length_push slack [content]
      ((Slice.mk 0 0 content.length content.length).upTo idx) []
    have validBefore := Slice.valid_push (Slice.valid_upTo valid le) slack []
    rw [assemble_eq validBefore.array (Nat.one_pos.trans_le longer),
      Slice.read_push (Slice.valid_upTo valid le), readBefore]
    -- in place if there is a second part, and then over its first line
    by_cases cut : idx < content.length
    · rw [Slice.read_push_onward valid cut, whole]
    · have full : idx = content.length := le.antisymm (not_lt.mp cut)
      rw [Slice.read_push_full Nat.one_pos (le_of_eq full.symm), readAfter, full, List.drop_length]
      rfl
  · rw [assemble_eq Nat.one_pos Nat.one_pos, readBefore, readAfter]

end Insert

/-! ### Keys of lines -/

/-- The key of a line: the text before the first `=`, trimmed. -/
def lineKey (line : Text) : Option Text :=
  if '=' ∈ line then some (trimSpace (line.takeWhile (· ≠ '='))) else none

theorem key_injective : Function.Injective Field.key := by
  intro first second same
  cases first <;> cases second <;> first | rfl | exact absurd same (by decide)

theorem key_head (field : Field) : ∃ c rest, field.key = c :: rest ∧ isSpace c = false ∧ c ≠ '#' ∧
    c ≠ '[' := by
  cases field <;> exact ⟨_, _, rfl, by decide, by decide, by decide⟩

theorem newline_notMem_key (field : Field) : '\n' ∉ field.key := by
  cases field <;> decide

theorem lineKey_head {line key : Text} {c : Char} (keyed : lineKey line = some key)
    (first : (line.dropWhile isSpace).head? = some c) (other : c ≠ '=') : key.head? = some c := by
  obtain ⟨-, spelled⟩ := Option.ite_none_right_eq_some.mp keyed
  obtain rfl := Option.some.inj spelled
  have notSpace : ∀ x, isSpace x = true → decide (x ≠ '=') = true := by
    intro x space
    rw [decide_eq_true_eq]
    rintro rfl
    exact absurd space (by decide)
  rw [head?_trimSpace, ← takeWhile_dropWhile notSpace]
  cases left : line.dropWhile isSpace with
  | nil => simp [left] at first
  | cons d rest =>
    obtain rfl : d = c := by simpa [left] using first
    rw [List.takeWhile_cons_of_pos (by simpa using other), List.head?_cons]

theorem lineKey_ne_key {line : Text} {c : Char} (first : (line.dropWhile isSpace).head? = some c)
    (special : c = '#' ∨ c = '[') (field : Field) : lineKey line ≠ some field.key := by
  intro keyed
  have notEquals : c ≠ '=' := by rcases special with rfl | rfl <;> decide
  obtain ⟨d, rest, spelled, -, notHash, notBracket⟩ := key_head field
  have same := lineKey_head keyed first notEquals
  rw [spelled, List.head?_cons, Option.some.injEq] at same
  rcases special with rfl | rfl
  · exact notHash same
  · exact notBracket same

theorem lineKey_section {line : Text} (header : isSectionHeader line = true) (field : Field) :
    lineKey line ≠ some field.key := by
  rw [isSectionHeader, decide_eq_true_eq, head?_trimSpace] at header
  exact lineKey_ne_key header (.inr rfl) field

theorem not_isBlank_section {line : Text} (header : isSectionHeader line = true) :
    isBlank line = false := by
  rw [isSectionHeader, decide_eq_true_eq] at header
  rw [isBlank, decide_eq_false_iff_not]
  intro blank
  simp [blank] at header

theorem not_isBlank_of_lineKey {line key : Text} (keyed : lineKey line = some key) :
    isBlank line = false := by
  obtain ⟨equals, -⟩ := Option.ite_none_right_eq_some.mp keyed
  rw [isBlank, decide_eq_false_iff_not, trimSpace_eq_nil_iff]
  intro all
  exact absurd (all '=' equals) (by decide)

theorem lineKey_assignment (field : Field) (value : Text) :
    lineKey (assignment field.key value) = some field.key := by
  have equals : '=' ∈ assignment field.key value := by simp [assignment]
  rw [lineKey, if_pos equals]
  cases field <;> rfl

theorem not_isSectionHeader_assignment (field : Field) (value : Text) :
    isSectionHeader (assignment field.key value) = false := by
  rw [isSectionHeader, decide_eq_false_iff_not, head?_trimSpace]
  cases field <;> exact fun same => nomatch same

theorem applyPatch_none {key : Text} {patches : List Patch}
    (absent : ∀ p ∈ patches, p.field.key ≠ key) : applyPatch key patches = none := by
  induction patches with
  | nil => rfl
  | cons p rest ih =>
    rw [applyPatch, if_neg (absent p List.mem_cons_self),
      ih fun q member => absent q (List.mem_cons_of_mem p member), Option.map_none]

theorem patchLine_eq (patches : List Patch) (line : Text) :
    patchLine patches line =
      ((lineKey line).bind fun key => applyPatch key patches).getD (line, patches) := by
  have mem : '=' ∈ trimLeft line ↔ '=' ∈ line := mem_trimLeft (by decide)
  simp only [patchLine]
  by_cases skipped : trimLeft line = [] ∨ (trimLeft line).head? = some '#'
  · rw [if_pos skipped]
    rcases skipped with isEmpty | comment
    · have none : '=' ∉ line := by rw [← mem, isEmpty]; exact List.not_mem_nil
      rw [lineKey, if_neg none]
      rfl
    · have first : (line.dropWhile isSpace).head? = some '#' := by
        rw [← dropWhile_dropWhile fun _ => isSpace_of_blank]
        cases left : trimLeft line with
        | nil => simp [left] at comment
        | cons c rest =>
          obtain rfl : c = '#' := by simpa [left] using comment
          show (List.dropWhile isSpace (trimLeft line)).head? = some '#'
          rw [left, List.dropWhile_cons_of_neg (by decide), List.head?_cons]
      cases keyed : lineKey line with
      | none => rfl
      | some key =>
        have absent : ∀ p ∈ patches, p.field.key ≠ key := fun p _ same =>
          lineKey_ne_key first (.inl rfl) p.field (keyed.trans (congrArg some same.symm))
        rw [Option.bind_some, applyPatch_none absent]
        rfl
  · rw [if_neg skipped]
    by_cases equals : '=' ∈ line
    · have key : trimSpace ((trimLeft line).takeWhile (· ≠ '=')) =
          trimSpace (line.takeWhile (· ≠ '=')) := by
        have notEquals : ∀ x, decide (x = ' ' ∨ x = '\t') = true → decide (x ≠ '=') = true := by
          intro x blank
          rcases of_decide_eq_true blank with rfl | rfl <;> decide
        rw [trimLeft, takeWhile_dropWhile notEquals]
        exact trimSpace_trimLeft _
      rw [if_neg (not_not.mpr (mem.mpr equals)), key, lineKey, if_pos equals, Option.bind_some]
    · rw [if_pos (mt mem.mp equals), lineKey, if_neg equals]
      rfl

end Ttgo.Admin

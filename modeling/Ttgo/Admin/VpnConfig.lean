/-
**`patchVPNStoreType`: pointing `vpn.toml` at another store.**

`internal/admin/vpnconfig.go` rewrites every line that starts with one of its keys, wherever it stands,
and inserts the missing assignments after the last line that starts with `auth_failure_status_code`, or
at the end of the file if there is none.

* `patchStoreLines` — the new lines; `patchVPNStoreType` — the function, with its file operations.
* `patchStoreLines_eq` — the rewritten lines, cut at the insertion point of the old ones.
-/

import Ttgo.Endpoint.Config
import Ttgo.Admin.ConfigWriter

namespace Ttgo.Admin

open Ttgo.Lib Ttgo.Endpoint

/-! ### The patch -/

/-- What `patchVPNStoreType` is to write; without a credentials file that key is left alone. -/
structure StoreSettings where
  storeType : Text
  storeDSN : Text
  credFile : Text
deriving DecidableEq, Repr

def StoreSettings.text (settings : StoreSettings) (key : Text) : Text :=
  if key = storeTypeKey then settings.storeType
  else if key = storeDSNKey then settings.storeDSN
  else settings.credFile

/-- `strings.HasPrefix(strings.TrimSpace(line), key)`. -/
def startsWith (key line : Text) : Bool := key.isPrefixOf (trimSpace line)

/-- The key that the `switch` rewrites a line for. -/
def replacedKey (credFile line : Text) : Option Text :=
  if startsWith storeTypeKey line then some storeTypeKey
  else if startsWith storeDSNKey line then some storeDSNKey
  else if startsWith credentialsFileKey line ∧ credFile ≠ [] then some credentialsFileKey
  else none

/-- The new line for a key. -/
def settingLine (wide : Char → Bool) (settings : StoreSettings) (key : Text) : Text :=
  assignLine wide key (settings.text key)

/-- The line after the loop. -/
def rewriteLine (wide : Char → Bool) (settings : StoreSettings) (line : Text) : Text :=
  match replacedKey settings.credFile line with
  | some key => settingLine wide settings key
  | none => line

/-- The index of the last line that starts with `auth_failure_status_code`. -/
def insertAfter (lines : List Text) : Option Nat :=
  lines.zipIdx.foldl
    (fun last entry =>
      if startsWith "auth_failure_status_code".toList entry.1 then some entry.2 else last) none

def missingKeys (credFile : Text) (lines : List Text) : List Text :=
  storeKeys.filter fun key => some key ∉ lines.map (replacedKey credFile)

def insertionPoint (lines : List Text) : Nat :=
  match insertAfter lines with
  | some index => index + 1
  | none => lines.length

def patchStoreLines (wide : Char → Bool) (settings : StoreSettings) (lines : List Text) : List Text :=
  let replaced := lines.map (rewriteLine wide settings)
  let extras := (missingKeys settings.credFile lines).map (settingLine wide settings)
  if extras = [] then replaced
  else replaced.take (insertionPoint replaced) ++ extras ++ replaced.drop (insertionPoint replaced)

/-- `patchVPNStoreType`: its error, if any, and the files after it. -/
def patchVPNStoreType (wide : Char → Bool) (files : Files) (faults : Faults) (path : String)
    (settings : StoreSettings) : Option FileError × Files :=
  match files.lookup path, faults.read with
  | some data, false =>
    let text := joinLines (patchStoreLines wide settings (splitLines data))
    match faults.write with
    | some written => (some .write, files.insert path (text.take written))
    | none => (none, files.insert path text)
  | _, _ => (some .read, files)

/-! ### Where the lines go -/

variable {wide : Char → Bool} {settings : StoreSettings} {credFile key line : Text} {lines : List Text}

theorem replacedKey_eq_some (replaced : replacedKey credFile line = some key) :
    key ∈ [storeTypeKey, storeDSNKey, credentialsFileKey] ∧ startsWith key line := by
  unfold replacedKey at replaced
  split_ifs at replaced with byType byDSN byFile
  · cases replaced
    exact ⟨by decide, byType⟩
  · cases replaced
    exact ⟨by decide, byDSN⟩
  · cases replaced
    exact ⟨by decide, byFile.1⟩

theorem head?_of_startsWith (nonempty : key ≠ []) (starts : startsWith key line) :
    (trimSpace line).head? = key.head? := by
  obtain ⟨rest, whole⟩ := List.isPrefixOf_iff_prefix.mp starts
  rw [← whole, List.head?_append_of_ne_nil _ nonempty]

theorem head?_of_mem_keys (member : key ∈ [storeTypeKey, storeDSNKey, credentialsFileKey]) :
    ∃ c rest, key = c :: rest ∧ isSpace c = false ∧ c ≠ 'a' := by
  rw [List.mem_cons, List.mem_cons, List.mem_singleton] at member
  rcases member with rfl | rfl | rfl
  all_goals exact ⟨_, _, rfl, by decide, by decide⟩

theorem startsWith_rewriteLine (line : Text) :
    startsWith "auth_failure_status_code".toList
        (rewriteLine wide settings line) =
      startsWith "auth_failure_status_code".toList line := by
  have never : ∀ {text : Text} {c : Char}, (trimSpace text).head? = some c → c ≠ 'a' →
      startsWith "auth_failure_status_code".toList text = false := by
    intro text c first other
    rw [← Bool.not_eq_true]
    intro starts
    have head := head?_of_startsWith (by decide) starts
    rw [first] at head
    exact other (Option.some.inj head)
  rw [rewriteLine]
  cases replaced : replacedKey settings.credFile line with
  | none => rfl
  | some key =>
    obtain ⟨member, starts⟩ := replacedKey_eq_some replaced
    obtain ⟨c, rest, rfl, solid, other⟩ := head?_of_mem_keys member
    have old := head?_of_startsWith (by simp) starts
    have new : (trimSpace (settingLine wide settings (c :: rest))).head? = some c := by
      rw [head?_trimSpace]
      show ((c :: (rest ++ " = ".toList ++ _)).dropWhile isSpace).head? = some c
      rw [List.dropWhile_cons_of_neg (by simp [solid])]
      rfl
    exact (never new other).trans (never old other).symm

theorem insertionPoint_map {f : Text → Text}
    (alike : ∀ line, startsWith "auth_failure_status_code".toList (f line) =
      startsWith "auth_failure_status_code".toList line) :
    insertionPoint (lines.map f) = insertionPoint lines := by
  have same : insertAfter (lines.map f) = insertAfter lines := by
    rw [insertAfter, insertAfter, List.zipIdx_map, List.foldl_map]
    simp only [Prod.map, alike, id]
  rw [insertionPoint, insertionPoint, same, List.length_map]

theorem patchStoreLines_eq (lines : List Text) :
    patchStoreLines wide settings lines =
      (lines.take (insertionPoint lines)).map (rewriteLine wide settings) ++
        (missingKeys settings.credFile lines).map (settingLine wide settings) ++
        (lines.drop (insertionPoint lines)).map (rewriteLine wide settings) := by
  rw [patchStoreLines]
  split
  · next none => rw [none, List.append_nil, ← List.map_append, List.take_append_drop]
  · rw [insertionPoint_map startsWith_rewriteLine, List.map_take, List.map_drop]

theorem mem_missingKeys : key ∈ missingKeys credFile lines ↔
    key ∈ storeKeys ∧ ∀ old ∈ lines, replacedKey credFile old ≠ some key := by
  simp only [missingKeys, List.mem_filter, List.mem_map, decide_eq_true_eq, not_exists, not_and, ne_eq]

theorem replacedKey_nil (replaced : replacedKey [] line = some key) : key ∈ storeKeys := by
  unfold replacedKey at replaced
  split_ifs at replaced with byType byDSN byFile
  · cases replaced
    decide
  · cases replaced
    decide
  · exact absurd rfl byFile.2

theorem newline_notMem_settingLine
    (member : key ∈ [storeTypeKey, storeDSNKey, credentialsFileKey]) :
    '\n' ∉ settingLine wide settings key := by
  have inKey : '\n' ∉ key := by
    rw [List.mem_cons, List.mem_cons, List.mem_singleton] at member
    rcases member with rfl | rfl | rfl <;> decide
  simp only [settingLine, assignLine, List.mem_append, not_or]
  exact ⟨⟨inKey, by decide⟩, newline_notMem_quote wide _⟩

theorem newline_notMem_patched (single : ∀ line ∈ lines, '\n' ∉ line) :
    ∀ line ∈ patchStoreLines wide settings lines, '\n' ∉ line := by
  have rewritten : ∀ old ∈ lines, '\n' ∉ rewriteLine wide settings old := by
    intro old member
    rw [rewriteLine]
    cases replaced : replacedKey settings.credFile old with
    | none => exact single old member
    | some key => exact newline_notMem_settingLine (replacedKey_eq_some replaced).1
  intro line member
  rw [patchStoreLines_eq, List.mem_append, List.mem_append, List.mem_map, List.mem_map,
    List.mem_map] at member
  rcases member with (⟨old, inFront, rfl⟩ | ⟨key, missed, rfl⟩) | ⟨old, inBack, rfl⟩
  · exact rewritten old (List.mem_of_mem_take inFront)
  · refine newline_notMem_settingLine ?_
    exact List.mem_append_left [credentialsFileKey] (mem_missingKeys.mp missed).1
  · exact rewritten old (List.mem_of_mem_drop inBack)

theorem patchStoreLines_ne_nil (nonempty : lines ≠ []) : patchStoreLines wide settings lines ≠ [] := by
  intro none
  rw [patchStoreLines_eq, List.append_eq_nil_iff, List.append_eq_nil_iff, List.map_eq_nil_iff,
    List.map_eq_nil_iff, List.map_eq_nil_iff] at none
  have whole := List.take_append_drop (insertionPoint lines) lines
  rw [none.1.1, none.2] at whole
  exact nonempty whole.symm

end Ttgo.Admin

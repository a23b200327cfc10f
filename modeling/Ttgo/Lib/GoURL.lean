/-
**Go's `net/url`, on the bytes of a string.**

* `unescape` — what `QueryUnescape` and `PathUnescape` have in common; `unescape_eq_self_iff` — a text that is its own
  meaning in a query.
* `escape` — bytes written as `%` and two digits; `unescape_escape` — they come back; `unescape_hexEscape` — escaping
  the bytes that are not ASCII changes no meaning.
* `get` — `ParseQuery` and `Values.Get`; `length_parsePair` — a value is shorter than the part it was read from;
  `get_hexEscape` — what `http.Redirect` does to a query changes no value.
* `get_one_iff`, `get_two_iff` — when a query that is put together without escapes gives its values back.
* `cleanPath` — the path for which `http.ServeMux` looks; `cleanPath_rooted` — a path that is left as it is.
-/

import Mathlib.Algebra.BigOperators.Group.List.Basic
import Mathlib.Algebra.Order.BigOperators.Group.List
import Mathlib.Algebra.Order.Group.Nat
import Mathlib.Algebra.GroupWithZero.Nat
import Mathlib.Data.List.Perm.Subperm
import Ttgo.Lib.GoStrings

namespace Ttgo.Lib.GoURL

/-- A string of Go. -/
abbrev Bytes := List UInt8

def byte (c : Char) : UInt8 := UInt8.ofNat c.toNat

def ascii (text : String) : Bytes := text.toList.map byte

/-! ### Splitting -/

/-- `strings.Cut` at a byte. -/
def cut (separator : UInt8) (text : Bytes) : Bytes × Bytes :=
  (text.takeWhile (· ≠ separator), (text.dropWhile (· ≠ separator)).tail)

variable {text front back : Bytes} {separator : UInt8}

theorem cut_append (clean : separator ∉ front) (back : Bytes) :
    cut separator (front ++ separator :: back) = (front, back) := by
  have differs : ∀ b ∈ front, decide (b ≠ separator) = true := fun b member =>
    decide_eq_true fun same => clean (same ▸ member)
  rw [cut, List.takeWhile_append_of_pos differs, List.dropWhile_append_of_pos differs, List.takeWhile_cons_of_neg
    (by simp), List.dropWhile_cons_of_neg (by simp), List.append_nil, List.tail_cons]

theorem cut_append_left (clean : separator ∉ front) (text : Bytes) :
    cut separator (front ++ text) = (front ++ (cut separator text).1, (cut separator text).2) := by
  have differs : ∀ b ∈ front, decide (b ≠ separator) = true := fun b member =>
    decide_eq_true fun same => clean (same ▸ member)
  rw [cut, cut, List.takeWhile_append_of_pos differs, List.dropWhile_append_of_pos differs]

theorem cut_of_notMem (clean : separator ∉ text) : cut separator text = (text, []) := by
  have differs : ∀ b ∈ text, decide (b ≠ separator) = true := fun b member =>
    decide_eq_true fun same => clean (same ▸ member)
  rw [cut, List.takeWhile_eq_self_iff.mpr differs, List.dropWhile_eq_nil_iff.mpr differs, List.tail_nil]

theorem notMem_fst_cut (separator : UInt8) (text : Bytes) : separator ∉ (cut separator text).1 := by
  intro member
  have differs := List.mem_takeWhile_imp member
  simp at differs

theorem fst_cut (clean : separator ∉ text) : (cut separator text).1 = text := by rw [cut_of_notMem clean]

theorem notMem_of_length_cut (long : text.length ≤ (cut separator text).1.length) : separator ∉ text := by
  have whole : text.takeWhile (· ≠ separator) = text := (List.takeWhile_sublist _).eq_of_length_le long
  intro member
  exact of_decide_eq_true (List.takeWhile_eq_self_iff.mp whole separator member) rfl

theorem cut_cases (separator : UInt8) (text : Bytes) :
    separator ∉ text ∨ ∃ front back, separator ∉ front ∧ text = front ++ separator :: back := by
  by_cases member : separator ∈ text
  · obtain ⟨front, back, rfl, clean⟩ := List.eq_append_cons_of_mem member
    exact .inr ⟨front, back, clean, rfl⟩
  · exact .inl member

theorem length_splitOn (separator : UInt8) (text : Bytes) :
    ((text.splitOn separator).map List.length).sum + text.count separator = text.length := by
  induction text with
  | nil => rfl
  | cons b text ih =>
    rw [List.splitOn_cons_eq_if_modifyHead, List.count_cons, List.length_cons, ← ih]
    by_cases same : b = separator
    · simp only [same, beq_self_eq_true, if_true, List.map_cons, List.length_nil, List.sum_cons]
      omega
    · simp only [beq_eq_false_iff_ne.mpr same, Bool.false_eq_true, if_false]
      cases split : text.splitOn separator with
      | nil => exact absurd split (List.splitOnP_ne_nil _ _)
      | cons part parts =>
        simp only [List.modifyHead_cons, List.map_cons, List.length_cons, List.sum_cons]
        omega

theorem sum_length_parts {parts : List Bytes} (distinct : parts.Nodup) (inside : parts ⊆ text.splitOn separator) :
    (parts.map List.length).sum + text.count separator ≤ text.length := by
  obtain ⟨arranged, perm, sublist⟩ := List.subperm_of_subset distinct inside
  have less : (arranged.map List.length).sum ≤ ((text.splitOn separator).map List.length).sum :=
    (sublist.map List.length).sum_le_sum fun _ _ => Nat.zero_le _
  rw [(perm.map List.length).sum_eq] at less
  have whole := length_splitOn separator text
  omega

theorem splitOn_two (clean : separator ∉ front) (clean' : separator ∉ back) :
    (front ++ separator :: back).splitOn separator = [front, back] := by
  have others : ∀ b ∈ front, (b == separator) = false := fun b member =>
    beq_eq_false_iff_ne.mpr fun same => clean (same ▸ member)
  have first := List.splitOnP_append_cons_of_forall_mem others separator (beq_self_eq_true separator) back
  exact first.trans (congrArg (front :: ·) (List.splitOn_eq_singleton clean'))

theorem length_part {part : Bytes} (member : part ∈ text.splitOn separator) :
    part.length + text.count separator ≤ text.length := by
  have inside : [part] ⊆ text.splitOn separator := by simpa using member
  simpa using sum_length_parts (by simp) inside

theorem length_two_parts {part part' : Bytes} (member : part ∈ text.splitOn separator)
    (member' : part' ∈ text.splitOn separator) (apart : part ≠ part') :
    part.length + part'.length + text.count separator ≤ text.length := by
  have inside : [part, part'] ⊆ text.splitOn separator := by simp [member, member']
  simpa using sum_length_parts (by simp [apart]) inside

theorem splitOn_flatMap {write : UInt8 → Bytes} (own : write separator = [separator])
    (clean : ∀ b, b ≠ separator → separator ∉ write b) (text : Bytes) :
    (text.flatMap write).splitOn separator = (text.splitOn separator).map (·.flatMap write) := by
  have around (front : Bytes) (free : separator ∉ front) (text : Bytes) :
      (front ++ text).splitOn separator = (text.splitOn separator).modifyHead (front ++ ·) := by
    induction front with
    | nil =>
      rw [List.nil_append]
      cases text.splitOn separator <;> rfl
    | cons b front ih =>
      obtain ⟨differs, free⟩ := not_or.mp (mt List.mem_cons.mpr free)
      rw [List.cons_append, List.splitOn_cons_eq_if_modifyHead, ih free, if_neg (by simpa using Ne.symm differs)]
      cases text.splitOn separator <;> rfl
  induction text with
  | nil => rfl
  | cons b text ih =>
    rw [List.flatMap_cons, List.splitOn_cons_eq_if_modifyHead]
    by_cases same : b = separator
    · rw [same, own, List.singleton_append, List.splitOn_cons_eq_if_modifyHead, ih]
      simp
    · rw [around _ (clean b same), ih, if_neg (by simpa using same)]
      cases text.splitOn separator <;> rfl

theorem cut_flatMap {write : UInt8 → Bytes} (own : write separator = [separator])
    (clean : ∀ b, b ≠ separator → separator ∉ write b) (text : Bytes) :
    cut separator (text.flatMap write) =
      ((cut separator text).1.flatMap write, (cut separator text).2.flatMap write) := by
  have free {front : Bytes} (absent : separator ∉ front) : separator ∉ front.flatMap write := by
    intro member
    obtain ⟨b, inside, written⟩ := List.mem_flatMap.mp member
    exact clean b (fun same => absent (same ▸ inside)) written
  rcases cut_cases separator text with absent | ⟨front, back, absent, rfl⟩
  · rw [cut_of_notMem absent, cut_of_notMem (free absent)]
    rfl
  · rw [cut_append absent, List.flatMap_append, List.flatMap_cons, own, List.singleton_append,
      cut_append (free absent)]

/-! ### Escapes -/

def percent : UInt8 := byte '%'

def plus : UInt8 := byte '+'

/-- `unhex`, where `ishex` holds. -/
def unhex (b : UInt8) : Option UInt8 :=
  if byte '0' ≤ b ∧ b ≤ byte '9' then some (b - byte '0')
  else if byte 'a' ≤ b ∧ b ≤ byte 'f' then some (b - byte 'a' + 10)
  else if byte 'A' ≤ b ∧ b ≤ byte 'F' then some (b - byte 'A' + 10)
  else none

/-- A byte that is no escape; in a query, `+` is a blank. -/
def read (query : Bool) (b : UInt8) : UInt8 := if query && b = plus then byte ' ' else b

def unescape (query : Bool) : Bytes → Option Bytes
  | [] => some []
  | b :: text =>
    if b = percent then
      match text with
      | first :: second :: rest =>
        match unhex first, unhex second with
        | some high, some low => (unescape query rest).map ((high * 16 + low) :: ·)
        | _, _ => none
      | _ => none
    else (unescape query text).map (read query b :: ·)

variable {query : Bool} {b first second high low : UInt8} {out : Bytes}

theorem unescape_cons (plain : b ≠ percent) (text : Bytes) :
    unescape query (b :: text) = (unescape query text).map (read query b :: ·) := by
  rw [unescape.eq_def]
  exact if_neg plain

theorem unescape_percent (one : unhex first = some high) (two : unhex second = some low) (text : Bytes) :
    unescape query (percent :: first :: second :: text) = (unescape query text).map ((high * 16 + low) :: ·) := by
  rw [unescape.eq_def]
  simp only [if_true, one, two]

theorem unescape_bad (bad : ∀ first second rest, text = first :: second :: rest →
      unhex first = none ∨ unhex second = none) :
    unescape query (percent :: text) = none := by
  rw [unescape.eq_def]
  simp only [if_true]
  split
  · next first second rest =>
    rcases bad first second rest rfl with none | none
    · simp only [none]
    · cases unhex first <;> simp only [none]
  · rfl

theorem unescape_induction {motive : Bytes → Prop} (nil : motive [])
    (plain : ∀ b text, b ≠ percent → motive text → motive (b :: text))
    (escaped : ∀ first second high low text, unhex first = some high → unhex second = some low → motive text →
      motive (percent :: first :: second :: text))
    (bad : ∀ text, (∀ first second rest, text = first :: second :: rest → unhex first = none ∨ unhex second = none) →
      motive (percent :: text)) (text : Bytes) : motive text := by
  induction text using unescape.induct with
  | case1 => exact nil
  | case2 first second rest high low two one ih => exact escaped first second high low rest one two ih
  | case3 first second rest digits =>
    refine bad _ fun first' second' rest' same => ?_
    cases same
    cases one : unhex first with
    | none => exact .inl rfl
    | some high =>
      cases two : unhex second with
      | none => exact .inr rfl
      | some low => exact (digits high low one two).elim
  | case4 text short => exact bad text fun first second rest same => (short first second rest same).elim
  | case5 b text differs ih => exact plain b text differs ih

theorem unescape_plain (plain : percent ∉ text) : unescape query text = some (text.map (read query)) := by
  induction text with
  | nil => rfl
  | cons b text ih =>
    obtain ⟨differs, plain⟩ := not_or.mp (mt List.mem_cons.mpr plain)
    rw [unescape_cons (Ne.symm differs), ih plain]
    rfl

theorem unescape_append_plain (plain : percent ∉ front) (text : Bytes) :
    unescape false (front ++ text) = (unescape false text).map (front ++ ·) := by
  induction front with
  | nil => exact Option.map_id'.symm
  | cons b front ih =>
    obtain ⟨differs, plain⟩ := not_or.mp (mt List.mem_cons.mpr plain)
    rw [List.cons_append, unescape_cons (Ne.symm differs), ih plain, Option.map_map]
    rfl

theorem unescape_own (plain : percent ∉ text) : unescape false text = some text := by
  have whole := unescape_append_plain plain []
  rwa [List.append_nil, show unescape false [] = some [] from rfl, Option.map_some, List.append_nil] at whole

/-- **What is unescaped** gets no longer, and keeps its length only if it has no escape. -/
theorem length_unescape (reads : unescape query text = some out) :
    out.length ≤ text.length ∧ (text.length ≤ out.length → percent ∉ text) := by
  induction text using unescape_induction generalizing out with
  | nil =>
    cases reads
    exact ⟨Nat.le_refl _, fun _ => List.not_mem_nil⟩
  | plain b text differs ih =>
    rw [unescape_cons differs] at reads
    obtain ⟨rest, later, rfl⟩ := Option.map_eq_some_iff.mp reads
    obtain ⟨less, plain⟩ := ih later
    refine ⟨Nat.succ_le_succ less, fun long member => ?_⟩
    rcases List.mem_cons.mp member with same | inside
    · exact differs same.symm
    · exact plain (Nat.le_of_succ_le_succ long) inside
  | escaped first second high low text one two ih =>
    rw [unescape_percent one two] at reads
    obtain ⟨rest, later, rfl⟩ := Option.map_eq_some_iff.mp reads
    have less := (ih later).1
    simp only [List.length_cons]
    exact ⟨by omega, fun long => by omega⟩
  | bad text digits =>
    rw [unescape_bad digits] at reads
    cases reads

/-- **A text that is its own meaning in a query** has no escape and no `+`. -/
theorem unescape_eq_self_iff : unescape true text = some text ↔ percent ∉ text ∧ plus ∉ text := by
  have read_iff (b : UInt8) : read true b = b ↔ b ≠ plus := by
    unfold read
    by_cases same : b = plus
    · subst same
      decide
    · simp [same]
  have map_iff : text.map (read true) = text ↔ plus ∉ text := by
    conv_lhs => rhs; rw [← List.map_id text]
    rw [List.map_inj_left]
    exact ⟨fun all member => (read_iff plus).mp (all plus member) rfl,
      fun absent b member => (read_iff b).mpr fun same => absent (same ▸ member)⟩
  constructor
  · intro own
    have plain := (length_unescape own).2 (Nat.le_refl _)
    rw [unescape_plain plain, Option.some_inj] at own
    exact ⟨plain, map_iff.mp own⟩
  · rintro ⟨plain, absent⟩
    rw [unescape_plain plain, map_iff.mpr absent]

def hexDigit (upper : Bool) (n : UInt8) : UInt8 :=
  if n < 10 then byte '0' + n else if upper then byte 'A' + (n - 10) else byte 'a' + (n - 10)

/-- `%` and two digits. -/
def escapeByte (upper : Bool) (b : UInt8) : Bytes := [percent, hexDigit upper (b / 16), hexDigit upper (b % 16)]

/-- The bytes, those that are not kept as `%` and two digits. -/
def escape (upper : Bool) (keep : UInt8 → Bool) (text : Bytes) : Bytes :=
  text.flatMap fun b => if keep b then [b] else escapeByte upper b

variable {upper : Bool} {keep : UInt8 → Bool}

theorem unhex_hexDigit (upper : Bool) {n : UInt8} (small : n.toNat < 16) : unhex (hexDigit upper n) = some n := by
  have all : ∀ n : Fin 16, unhex (hexDigit upper (UInt8.ofNat n)) = some (UInt8.ofNat n) := by
    cases upper <;> decide
  have here := all ⟨n.toNat, small⟩
  rwa [UInt8.ofNat_toNat] at here

theorem unhex_digits (upper : Bool) (b : UInt8) :
    unhex (hexDigit upper (b / 16)) = some (b / 16) ∧ unhex (hexDigit upper (b % 16)) = some (b % 16) := by
  refine ⟨unhex_hexDigit upper ?_, unhex_hexDigit upper ?_⟩
  · rw [UInt8.toNat_div]
    exact Nat.div_lt_of_lt_mul b.toNat_lt
  · rw [UInt8.toNat_mod]
    exact Nat.mod_lt _ (by decide)

theorem unescape_escapeByte (upper : Bool) (b : UInt8) (text : Bytes) :
    unescape query (escapeByte upper b ++ text) = (unescape query text).map (b :: ·) := by
  have bound := b.toNat_lt
  obtain ⟨one, two⟩ := unhex_digits upper b
  have whole : b / 16 * 16 + b % 16 = b := by
    rw [← UInt8.toNat_inj]
    simp only [UInt8.toNat_add, UInt8.toNat_mul, UInt8.toNat_div, UInt8.toNat_mod, UInt8.reduceToNat]
    omega
  rw [escapeByte, List.cons_append, List.cons_append, List.cons_append, List.nil_append, unescape_percent one two,
    whole]

theorem mem_escape (member : b ∈ escape upper keep text) :
    (b ∈ text ∧ keep b = true) ∨ b = percent ∨ ∃ digit, unhex b = some digit := by
  obtain ⟨c, inside, written⟩ := List.mem_flatMap.mp member
  split at written
  · next kept =>
    obtain rfl := List.mem_singleton.mp written
    exact .inl ⟨inside, kept⟩
  · obtain ⟨one, two⟩ := unhex_digits upper c
    simp only [escapeByte, List.mem_cons, List.not_mem_nil, or_false] at written
    rcases written with rfl | rfl | rfl
    · exact .inr (.inl rfl)
    · exact .inr (.inr ⟨_, one⟩)
    · exact .inr (.inr ⟨_, two⟩)

theorem unescape_escape (upper : Bool) (literal : keep percent = false) (text rest : Bytes) :
    unescape false (escape upper keep text ++ rest) = (unescape false rest).map (text ++ ·) := by
  induction text with
  | nil => exact Option.map_id'.symm
  | cons b text ih =>
    have step : unescape false (escape upper keep (b :: text) ++ rest) =
        (unescape false (escape upper keep text ++ rest)).map (b :: ·) := by
      rw [escape, List.flatMap_cons, List.append_assoc]
      split
      · next kept =>
        have differs : b ≠ percent := fun same => by rw [same, literal] at kept; cases kept
        exact unescape_cons differs _
      · exact unescape_escapeByte upper b _
    rw [step, ih, Option.map_map]
    rfl

/-- `hexEscapeNonASCII` of `net/http`. -/
def hexEscapeNonASCII (text : Bytes) : Bytes := escape false (· < 128) text

theorem range_of_unhex (digit : unhex b = some high) : byte '0' ≤ b ∧ b ≤ byte 'f' := by
  unfold unhex at digit
  split at digit
  · next range => exact ⟨range.1, UInt8.le_trans range.2 (by decide)⟩
  · split at digit
    · next range => exact ⟨UInt8.le_trans (by decide) range.1, range.2⟩
    · split at digit
      · next range => exact ⟨UInt8.le_trans (by decide) range.1, UInt8.le_trans range.2 (by decide)⟩
      · cases digit

theorem lt_of_unhex (digit : unhex b = some high) : b < 128 :=
  UInt8.lt_of_le_of_lt (range_of_unhex digit).2 (by decide)

theorem hexEscape_cons (small : b < 128) (text : Bytes) :
    hexEscapeNonASCII (b :: text) = b :: hexEscapeNonASCII text := by
  rw [hexEscapeNonASCII, escape, List.flatMap_cons, if_pos (decide_eq_true small)]
  rfl

theorem hexEscape_cons_large (large : ¬b < 128) (text : Bytes) :
    hexEscapeNonASCII (b :: text) = escapeByte false b ++ hexEscapeNonASCII text := by
  rw [hexEscapeNonASCII, escape, List.flatMap_cons, if_neg (by simpa using large)]
  rfl

theorem hexEscape_eq_cons {rest : Bytes} (starts : hexEscapeNonASCII text = b :: rest) (digit : unhex b ≠ none) :
    ∃ rest', text = b :: rest' ∧ rest = hexEscapeNonASCII rest' := by
  cases text with
  | nil => cases starts
  | cons first text =>
    by_cases small : first < 128
    · rw [hexEscape_cons small] at starts
      obtain ⟨rfl, rfl⟩ := List.cons.inj starts
      exact ⟨text, rfl, rfl⟩
    · rw [hexEscape_cons_large small] at starts
      obtain ⟨rfl, -⟩ := List.cons.inj starts
      exact absurd rfl digit

theorem unescape_hexEscape (query : Bool) (text : Bytes) :
    unescape query (hexEscapeNonASCII text) = unescape query text := by
  induction text using unescape_induction with
  | nil => rfl
  | plain b text differs ih =>
    rw [unescape_cons differs]
    by_cases small : b < 128
    · rw [hexEscape_cons small, unescape_cons differs, ih]
    · have own : read query b = b := by
        refine if_neg fun blank => small ?_
        rw [of_decide_eq_true (Bool.and_eq_true_iff.mp blank).2]
        decide
      rw [hexEscape_cons_large small, unescape_escapeByte, ih, own]
  | escaped first second high low text one two ih =>
    rw [hexEscape_cons (by decide), hexEscape_cons (lt_of_unhex one), hexEscape_cons (lt_of_unhex two),
      unescape_percent one two, unescape_percent one two, ih]
  | bad text digits =>
    rw [hexEscape_cons (by decide), unescape_bad digits, unescape_bad]
    intro first second rest starts
    by_contra both
    obtain ⟨one, two⟩ := not_or.mp both
    obtain ⟨_, rfl, later⟩ := hexEscape_eq_cons starts one
    obtain ⟨_, rfl, -⟩ := hexEscape_eq_cons later.symm two
    exact both (digits first second _ rfl)

/-- A byte that stands for itself: ASCII, and not written in an escape. -/
def IsMark (c : UInt8) : Prop := c < 128 ∧ c ≠ percent ∧ unhex c = none

instance (c : UInt8) : Decidable (IsMark c) := inferInstanceAs (Decidable (_ ∧ _))

section Mark

variable {mark : UInt8}

theorem IsMark.own (is : IsMark mark) : (if decide (mark < 128) then [mark] else escapeByte false mark) = [mark] :=
  if_pos (decide_eq_true is.1)

theorem IsMark.mem_hexEscape (is : IsMark mark) (text : Bytes) : mark ∈ hexEscapeNonASCII text ↔ mark ∈ text := by
  constructor
  · intro member
    rcases mem_escape member with ⟨inside, -⟩ | same | ⟨digit, reads⟩
    · exact inside
    · exact absurd same is.2.1
    · cases reads.symm.trans is.2.2
  · intro member
    refine List.mem_flatMap.mpr ⟨mark, member, ?_⟩
    rw [is.own]
    exact List.mem_cons_self

theorem IsMark.notMem (is : IsMark mark) (b : UInt8) (differs : b ≠ mark) :
    mark ∉ if decide (b < 128) then [b] else escapeByte false b := by
  have alone := is.mem_hexEscape [b]
  rw [hexEscapeNonASCII, escape, List.flatMap_singleton] at alone
  rw [alone]
  exact fun member => differs (List.mem_singleton.mp member).symm

theorem IsMark.cut_hexEscape (is : IsMark mark) (text : Bytes) :
    cut mark (hexEscapeNonASCII text) =
      (hexEscapeNonASCII (cut mark text).1, hexEscapeNonASCII (cut mark text).2) :=
  cut_flatMap is.own is.notMem text

theorem IsMark.splitOn_hexEscape (is : IsMark mark) (text : Bytes) :
    (hexEscapeNonASCII text).splitOn mark = (text.splitOn mark).map hexEscapeNonASCII :=
  splitOn_flatMap is.own is.notMem text

end Mark

theorem hexEscape_eq_nil_iff (text : Bytes) : hexEscapeNonASCII text = [] ↔ text = [] := by
  cases text with
  | nil => exact iff_of_true rfl rfl
  | cons b text =>
    by_cases small : b < 128
    · rw [hexEscape_cons small]
      simp
    · rw [hexEscape_cons_large small]
      simp [escapeByte]

/-! ### Queries -/

def ampersand : UInt8 := byte '&'

def equals : UInt8 := byte '='

def semicolon : UInt8 := byte ';'

def parsePair (part : Bytes) : Option (Bytes × Bytes) :=
  if semicolon ∈ part then none
  else if part = [] then none
  else
    match unescape true (cut equals part).1, unescape true (cut equals part).2 with
    | some key, some value => some (key, value)
    | _, _ => none

/-- `urlmaxqueryparams`. -/
def maxParams : Nat := 10000

/-- `Query`, which drops the error of `ParseQuery`. -/
def parseQuery (query : Bytes) : List (Bytes × Bytes) :=
  if maxParams < (query.splitOn ampersand).length then [] else (query.splitOn ampersand).filterMap parsePair

/-- `Values.Get`: the first value of the key, or the empty string. -/
def get (key query : Bytes) : Bytes := ((parseQuery query).lookup key).getD []

variable {key value part : Bytes}

theorem parsePair_append (single : equals ∉ key) (whole : semicolon ∉ key) (own : unescape true key = some key)
    (value : Bytes) :
    parsePair (key ++ equals :: value) =
      if semicolon ∈ value then none else (unescape true value).map (key, ·) := by
  have member : semicolon ∈ key ++ equals :: value ↔ semicolon ∈ value := by
    simp [whole, show semicolon ≠ equals by decide]
  have filled : key ++ equals :: value ≠ [] := List.append_ne_nil_of_right_ne_nil _ (List.cons_ne_nil _ _)
  simp only [parsePair, member, if_neg filled, cut_append single, own]
  split
  · rfl
  · cases unescape true value <;> rfl

theorem length_parsePair (parsed : parsePair part = some (key, value)) (filled : value ≠ []) :
    key.length + 1 + value.length ≤ part.length := by
  unfold parsePair at parsed
  split at parsed
  · cases parsed
  · split at parsed
    · cases parsed
    · split at parsed
      · next first second one two =>
        obtain ⟨rfl, rfl⟩ := Prod.mk.inj (Option.some.inj parsed)
        rcases cut_cases equals part with absent | ⟨front, back, absent, rfl⟩
        · rw [cut_of_notMem absent] at two
          cases two
          exact absurd rfl filled
        · rw [cut_append absent] at one two
          have front_le : first.length ≤ front.length := (length_unescape one).1
          have back_le : second.length ≤ back.length := (length_unescape two).1
          rw [List.length_append, List.length_cons]
          omega
      · cases parsed

theorem exists_part_of_get {query : Bytes} (found : get key query = value) (filled : value ≠ []) :
    ∃ part ∈ query.splitOn ampersand, parsePair part = some (key, value) := by
  unfold get at found
  cases looked : (parseQuery query).lookup key with
  | none =>
    rw [looked] at found
    exact absurd found.symm filled
  | some first =>
    rw [looked] at found
    obtain rfl : first = value := found
    obtain ⟨before, after, same, -⟩ := List.lookup_eq_some_iff.mp looked
    have member : (key, first) ∈ parseQuery query := by
      rw [same]
      exact List.mem_append_right _ List.mem_cons_self
    unfold parseQuery at member
    split at member
    · cases member
    · exact List.mem_filterMap.mp member

theorem parsePair_hexEscape (part : Bytes) : parsePair (hexEscapeNonASCII part) = parsePair part := by
  have ends := (show IsMark semicolon by decide).mem_hexEscape part
  have cuts := (show IsMark equals by decide).cut_hexEscape part
  simp only [parsePair, ends, hexEscape_eq_nil_iff, cuts, unescape_hexEscape]

theorem get_hexEscape (key query : Bytes) : get key (hexEscapeNonASCII query) = get key query := by
  have same : parseQuery (hexEscapeNonASCII query) = parseQuery query := by
    unfold parseQuery
    rw [(show IsMark ampersand by decide).splitOn_hexEscape, List.length_map, List.filterMap_map,
      show parsePair ∘ hexEscapeNonASCII = parsePair from funext parsePair_hexEscape]
  rw [get, get, same]

/-! ### Queries that are put together without escapes -/

def hashMark : UInt8 := byte '#'

/-- A text that is its own meaning in a URL and in a query. -/
def Plain (text : Bytes) : Prop := ∀ b ∈ text, b ∉ ascii "#&;%+"

instance (text : Bytes) : Decidable (Plain text) :=
  decidable_of_iff (text.all (fun b => decide (b ∉ ascii "#&;%+")) = true)
    (List.all_eq_true.trans (forall₂_congr fun _ _ => decide_eq_true_iff))

theorem plain_iff :
    Plain text ↔ hashMark ∉ text ∧ ampersand ∉ text ∧ semicolon ∉ text ∧ percent ∉ text ∧ plus ∉ text := by
  have marks : ascii "#&;%+" = [hashMark, ampersand, semicolon, percent, plus] := rfl
  rw [Plain, marks]
  constructor
  · intro plain
    refine ⟨?_, ?_, ?_, ?_, ?_⟩ <;> exact fun member => plain _ member (by decide)
  · rintro ⟨one, two, three, four, five⟩ b member mark
    simp only [List.mem_cons, List.not_mem_nil, or_false] at mark
    rcases mark with rfl | rfl | rfl | rfl | rfl
    · exact one member
    · exact two member
    · exact three member
    · exact four member
    · exact five member

/-- A key of a query. -/
def IsKey (key : Bytes) : Prop := Plain key ∧ equals ∉ key

instance (key : Bytes) : Decidable (IsKey key) := inferInstanceAs (Decidable (_ ∧ _))

variable {key' value' : Bytes}

def pair (key value : Bytes) : Bytes := key ++ equals :: value

theorem length_pair (key value : Bytes) : (pair key value).length = key.length + 1 + value.length := by
  rw [pair, List.length_append, List.length_cons]
  omega

theorem parsePair_pair (is : IsKey key) (value : Bytes) :
    parsePair (pair key value) = if semicolon ∈ value then none else (unescape true value).map (key, ·) := by
  obtain ⟨-, -, whole, percents, pluses⟩ := plain_iff.mp is.1
  exact parsePair_append is.2 whole (unescape_eq_self_iff.mpr ⟨percents, pluses⟩) value

theorem key_of_parsePair (is : IsKey key) (parsed : parsePair (pair key value) = some (key', value')) :
    key' = key := by
  rw [parsePair_pair is] at parsed
  split at parsed
  · cases parsed
  · obtain ⟨_, -, same⟩ := Option.map_eq_some_iff.mp parsed
    exact (Prod.mk.inj same).1.symm

theorem parsePair_eq_iff (is : IsKey key) :
    parsePair (pair key value) = some (key, value) ↔ semicolon ∉ value ∧ percent ∉ value ∧ plus ∉ value := by
  rw [parsePair_pair is, ← unescape_eq_self_iff]
  split
  · next member => exact iff_of_false (Option.some_ne_none _).symm fun clean => clean.1 member
  · next clean =>
    rw [and_iff_right clean, Option.map_eq_some_iff]
    constructor
    · rintro ⟨out, read, same⟩
      rw [read, (Prod.mk.inj same).2]
    · exact fun own => ⟨value, own, rfl⟩

theorem mem_pair {mark : UInt8} (outside : mark ∉ key) (other : mark ≠ equals) :
    mark ∈ pair key value ↔ mark ∈ value := by
  simp [pair, outside, other]

theorem exists_long_part {query : Bytes} (found : get key query = value) (filled : value ≠ []) :
    ∃ part ∈ query.splitOn ampersand, parsePair part = some (key, value) ∧
      (pair key value).length ≤ part.length := by
  obtain ⟨part, member, parsed⟩ := exists_part_of_get found filled
  refine ⟨part, member, parsed, ?_⟩
  rw [length_pair]
  exact length_parsePair parsed filled

theorem length_cut_le (separator : UInt8) (text : Bytes) : (cut separator text).1.length ≤ text.length :=
  (List.takeWhile_sublist _).length_le

/-- **A query of one part**, which is cut off at a `#`, gives the value back exactly if the value is plain. -/
theorem get_one_iff (is : IsKey key) (filled : value ≠ []) :
    get key (cut hashMark (pair key value)).1 = value ↔ Plain value := by
  obtain ⟨hashes, ampersands, -, -, -⟩ := plain_iff.mp is.1
  have hash_iff : hashMark ∈ pair key value ↔ hashMark ∈ value := mem_pair hashes (by decide)
  have ampersand_iff : ampersand ∈ pair key value ↔ ampersand ∈ value := mem_pair ampersands (by decide)
  rw [plain_iff, ← parsePair_eq_iff is, ← hash_iff, ← ampersand_iff]
  constructor
  · intro found
    obtain ⟨part, member, parsed, long⟩ := exists_long_part found filled
    have fits := length_part member
    have less := length_cut_le hashMark (pair key value)
    -- The part is as long as the whole query: nothing was cut off, and there is no separator.
    have noHash : hashMark ∉ pair key value := notMem_of_length_cut (by omega)
    rw [fst_cut noHash] at fits member
    have noAmpersand : ampersand ∉ pair key value := List.count_eq_zero.mp (by omega)
    rw [List.splitOn_eq_singleton noAmpersand, List.mem_singleton] at member
    exact ⟨noHash, noAmpersand, member ▸ parsed⟩
  · rintro ⟨noHash, noAmpersand, parsed⟩
    have only : parseQuery (pair key value) = [(key, value)] := by
      rw [parseQuery, List.splitOn_eq_singleton noAmpersand, if_neg (by simp [maxParams]),
        List.filterMap_cons_some parsed, List.filterMap_nil]
    rw [fst_cut noHash, get, only, List.lookup_cons_self]
    rfl

theorem get_two_iff (is : IsKey key) (is' : IsKey key') (differs : key ≠ key') (filled : value ≠ [])
    (filled' : value' ≠ []) :
    (get key (cut hashMark (pair key value ++ ampersand :: pair key' value')).1 = value ∧
        get key' (cut hashMark (pair key value ++ ampersand :: pair key' value')).1 = value') ↔
      Plain value ∧ Plain value' := by
  obtain ⟨hashes, ampersands, -, -, -⟩ := plain_iff.mp is.1
  obtain ⟨hashes', ampersands', -, -, -⟩ := plain_iff.mp is'.1
  have hash_iff : hashMark ∉ pair key value ++ ampersand :: pair key' value' ↔
      hashMark ∉ value ∧ hashMark ∉ value' := by
    simp [mem_pair hashes (by decide), mem_pair hashes' (by decide), show hashMark ≠ ampersand by decide]
  have ampersand_iff : ampersand ∈ pair key value ↔ ampersand ∈ value := mem_pair ampersands (by decide)
  have ampersand_iff' : ampersand ∈ pair key' value' ↔ ampersand ∈ value' := mem_pair ampersands' (by decide)
  have length : (pair key value ++ ampersand :: pair key' value').length =
      (pair key value).length + (pair key' value').length + 1 := by
    rw [List.length_append, List.length_cons]
    omega
  rw [plain_iff, plain_iff, ← parsePair_eq_iff is, ← parsePair_eq_iff is', ← ampersand_iff, ← ampersand_iff']
  constructor
  · rintro ⟨found, found'⟩
    obtain ⟨part, member, parsed, long⟩ := exists_long_part found filled
    obtain ⟨part', member', parsed', long'⟩ := exists_long_part found' filled'
    have apart : part ≠ part' := fun same => by
      rw [same, parsed'] at parsed
      exact differs (Prod.mk.inj (Option.some.inj parsed)).1.symm
    have fits := length_two_parts member member' apart
    have less := length_cut_le hashMark (pair key value ++ ampersand :: pair key' value')
    -- Two parts need a separator, so that nothing was cut off and there is no other one.
    have one : (cut hashMark (pair key value ++ ampersand :: pair key' value')).1.count ampersand ≠ 0 := by
      intro none
      rw [List.splitOn_eq_singleton (List.count_eq_zero.mp none), List.mem_singleton] at member member'
      exact apart (member.trans member'.symm)
    have noHash : hashMark ∉ pair key value ++ ampersand :: pair key' value' := notMem_of_length_cut (by omega)
    rw [fst_cut noHash] at fits member member'
    rw [List.count_append, List.count_cons_self] at fits
    have clean : ampersand ∉ pair key value := List.count_eq_zero.mp (by omega)
    have clean' : ampersand ∉ pair key' value' := List.count_eq_zero.mp (by omega)
    rw [splitOn_two clean clean', List.mem_pair] at member member'
    obtain ⟨here, there⟩ := hash_iff.mp noHash
    refine ⟨⟨here, clean, ?_⟩, there, clean', ?_⟩
    · rcases member with rfl | rfl
      · exact parsed
      · exact absurd (key_of_parsePair is' parsed) differs
    · rcases member' with rfl | rfl
      · exact absurd (key_of_parsePair is parsed') (Ne.symm differs)
      · exact parsed'
  · rintro ⟨⟨noHash, clean, parsed⟩, noHash', clean', parsed'⟩
    have both : parseQuery (pair key value ++ ampersand :: pair key' value') = [(key, value), (key', value')] := by
      rw [parseQuery, splitOn_two clean clean', if_neg (by simp [maxParams]), List.filterMap_cons_some parsed,
        List.filterMap_cons_some parsed', List.filterMap_nil]
    have later : (key' == key) = false := beq_eq_false_iff_ne.mpr (Ne.symm differs)
    rw [fst_cut (hash_iff.mpr ⟨noHash, noHash'⟩), get, get, both, List.lookup_cons_self, List.lookup_cons, later,
      List.lookup_cons_self]
    exact ⟨rfl, rfl⟩

/-! ### Paths -/

def slash : UInt8 := byte '/'

/-- `path.Clean` on the parts of a rooted path; `stack` has those before, the last one first. -/
def cleanParts : List Bytes → List Bytes → List Bytes
  | stack, [] => stack.reverse
  | stack, part :: parts =>
    if part = [] ∨ part = ascii "." then cleanParts stack parts
    else if part = ascii ".." then cleanParts stack.tail parts
    else cleanParts (part :: stack) parts

/-- A rooted path of parts. -/
def rooted (parts : List Bytes) : Bytes := parts.flatMap (slash :: ·)

/-- `cleanPath` of `net/http`. -/
def cleanPath (path : Bytes) : Bytes :=
  let cleaned := rooted (cleanParts [] (path.splitOn slash))
  if cleaned = [] then [slash] else if path.getLast? = some slash then cleaned ++ [slash] else cleaned

/-- A part of a path that stays. -/
def IsName (part : Bytes) : Prop := part ≠ [] ∧ part ≠ ascii "." ∧ part ≠ ascii ".." ∧ slash ∉ part

instance (part : Bytes) : Decidable (IsName part) := inferInstanceAs (Decidable (_ ∧ _))

theorem splitOn_rooted {parts : List Bytes} (clean : ∀ part ∈ parts, slash ∉ part) (absent : slash ∉ front) :
    (front ++ rooted parts).splitOn slash = front :: parts := by
  induction parts generalizing front with
  | nil =>
    rw [rooted, List.flatMap_nil, List.append_nil]
    exact List.splitOn_eq_singleton absent
  | cons part parts ih =>
    obtain ⟨here, later⟩ := List.forall_mem_cons.mp clean
    have others : ∀ b ∈ front, (b == slash) = false := fun b member =>
      beq_eq_false_iff_ne.mpr fun same => absent (same ▸ member)
    have first : (front ++ slash :: (part ++ rooted parts)).splitOn slash =
        front :: (part ++ rooted parts).splitOn slash :=
      List.splitOnP_append_cons_of_forall_mem others slash (beq_self_eq_true slash) _
    exact first.trans (congrArg (front :: ·) (ih later here))

theorem cleanParts_names {parts : List Bytes} (names : ∀ part ∈ parts, IsName part) (stack : List Bytes) :
    cleanParts stack parts = stack.reverse ++ parts := by
  induction parts generalizing stack with
  | nil => exact (List.append_nil _).symm
  | cons part parts ih =>
    obtain ⟨⟨filled, dot, dots, -⟩, later⟩ := List.forall_mem_cons.mp names
    rw [cleanParts, if_neg (not_or.mpr ⟨filled, dot⟩), if_neg dots, ih later, List.reverse_cons, List.append_assoc]
    rfl

theorem cleanPath_rooted {parts : List Bytes} (any : parts ≠ []) (names : ∀ part ∈ parts, IsName part) :
    cleanPath (rooted parts) = rooted parts := by
  have split : (rooted parts).splitOn slash = [] :: parts :=
    splitOn_rooted (fun part member => (names part member).2.2.2) List.not_mem_nil
  have cleaned : cleanParts [] ([] :: parts) = parts := by
    rw [cleanParts, if_pos (.inl rfl), cleanParts_names names]
    rfl
  rw [cleanPath, split, cleaned]
  obtain ⟨front, last, rfl⟩ := (List.eq_nil_or_concat' parts).resolve_left any
  obtain ⟨filled, -, -, clean⟩ := names last (List.mem_append_right _ List.mem_cons_self)
  have tail : rooted (front ++ [last]) = rooted front ++ slash :: last := by
    rw [rooted, List.flatMap_append, List.flatMap_singleton]
    rfl
  have ends : (rooted (front ++ [last])).getLast? ≠ some slash := by
    rw [tail, List.getLast?_append_of_ne_nil _ (List.cons_ne_nil _ _), List.getLast?_cons_of_ne_nil filled]
    exact fun same => clean (List.mem_of_getLast? same)
  rw [if_neg ends]
  exact if_neg (tail ▸ List.append_ne_nil_of_right_ne_nil _ (List.cons_ne_nil _ _))

end Ttgo.Lib.GoURL

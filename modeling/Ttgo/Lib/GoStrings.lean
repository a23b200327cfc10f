/-
**Go's text functions.**

The parts of `strings`, `strconv` and `fmt` that line-based editors use, over `List Char`.

* `trimSpace`, `trimLeft` — `strings.TrimSpace` and `strings.TrimLeft`.
* `quote` — `strconv.Quote`; which characters above `U+00FF` are printable is a parameter.
* `splitLines`, `joinLines` — `strings.Split` and `strings.Join` at newlines; `splitLines_joinLines`.
-/

import Mathlib.Data.List.DropRight

namespace Ttgo.Lib

abbrev Text := List Char

/-! ### White space -/

def isSpace (c : Char) : Bool :=
  let n := c.toNat
  (9 ≤ n ∧ n ≤ 13) ∨ n = 0x20 ∨ n = 0x85 ∨ n = 0xA0 ∨ n = 0x1680 ∨ (0x2000 ≤ n ∧ n ≤ 0x200a) ∨
    n = 0x2028 ∨ n = 0x2029 ∨ n = 0x202f ∨ n = 0x205f ∨ n = 0x3000

def trimSpace (text : Text) : Text := (text.dropWhile isSpace).rdropWhile isSpace

/-- `strings.TrimLeft(text, " \t")`. -/
def trimLeft (text : Text) : Text := text.dropWhile fun c => c = ' ' ∨ c = '\t'

theorem isSpace_of_blank {c : Char} (blank : decide (c = ' ' ∨ c = '\t') = true) :
    isSpace c = true := by
  rcases of_decide_eq_true blank with rfl | rfl <;> decide

theorem dropWhile_dropWhile {α : Type*} {p q : α → Bool} (imp : ∀ x, p x = true → q x = true)
    (list : List α) : (list.dropWhile p).dropWhile q = list.dropWhile q := by
  induction list with
  | nil => rfl
  | cons x list ih =>
    by_cases first : p x = true
    · rw [List.dropWhile_cons_of_pos first, ih, List.dropWhile_cons_of_pos (imp x first)]
    · rw [List.dropWhile_cons_of_neg first]

theorem takeWhile_dropWhile {α : Type*} {p q : α → Bool} (imp : ∀ x, p x = true → q x = true)
    (list : List α) : (list.dropWhile p).takeWhile q = (list.takeWhile q).dropWhile p := by
  induction list with
  | nil => rfl
  | cons x list ih =>
    by_cases first : p x = true
    · rw [List.dropWhile_cons_of_pos first, ih, List.takeWhile_cons_of_pos (imp x first),
        List.dropWhile_cons_of_pos first]
    · by_cases second : q x = true
      · rw [List.dropWhile_cons_of_neg first, List.takeWhile_cons_of_pos second,
          List.dropWhile_cons_of_neg first]
      · rw [List.dropWhile_cons_of_neg first, List.takeWhile_cons_of_neg second, List.dropWhile_nil]

theorem trimSpace_trimLeft (text : Text) : trimSpace (trimLeft text) = trimSpace text := by
  rw [trimSpace, trimSpace, trimLeft, dropWhile_dropWhile fun _ => isSpace_of_blank]

theorem mem_trimLeft {c : Char} (kept : c ≠ ' ' ∧ c ≠ '\t') {text : Text} :
    c ∈ trimLeft text ↔ c ∈ text := by
  refine ⟨fun member => (List.dropWhile_sublist _).subset member, fun member => ?_⟩
  rw [← List.takeWhile_append_dropWhile (p := fun c => decide (c = ' ' ∨ c = '\t')) (l := text),
    List.mem_append] at member
  refine member.resolve_left fun cut => ?_
  have blank := List.mem_takeWhile_imp cut
  exact (of_decide_eq_true blank).elim kept.1 kept.2

theorem trimSpace_eq_nil_iff {text : Text} : trimSpace text = [] ↔ ∀ c ∈ text, isSpace c = true := by
  rw [trimSpace, List.rdropWhile_eq_nil_iff]
  constructor
  · intro all c member
    by_contra solid
    have kept : text.dropWhile isSpace ≠ [] := fun none =>
      solid (List.dropWhile_eq_nil_iff.mp none c member)
    have front := List.head_dropWhile_not isSpace kept
    rw [all _ (List.head_mem kept)] at front
    cases front
  · intro all c member
    exact all c ((List.dropWhile_sublist isSpace).subset member)

theorem head?_trimSpace (text : Text) :
    (trimSpace text).head? = (text.dropWhile isSpace).head? := by
  cases left : text.dropWhile isSpace with
  | nil => rw [trimSpace, left, List.rdropWhile_nil]
  | cons c rest =>
    have solid : isSpace c = false := by
      have front := List.head_dropWhile_not isSpace (l := text) (by simp [left])
      simpa [left] using front
    have kept : (c :: rest).rdropWhile isSpace ≠ [] := by
      rw [Ne, List.rdropWhile_eq_nil_iff]
      intro all
      simpa [solid] using all c List.mem_cons_self
    obtain ⟨tail, whole⟩ := List.rdropWhile_prefix isSpace (l := c :: rest)
    rw [trimSpace, left]
    cases first : (c :: rest).rdropWhile isSpace with
    | nil => exact absurd first kept
    | cons d front =>
      rw [first] at whole
      cases whole
      rfl

/-! ### Quoting -/

def isPrint (wide : Char → Bool) (c : Char) : Bool :=
  let n := c.toNat
  if n ≤ 0xFF then (0x20 ≤ n ∧ n < 0x7F) ∨ (0xA1 ≤ n ∧ n ≠ 0xAD) else wide c

def hexValue (c : Char) : Option Nat :=
  if '0' ≤ c ∧ c ≤ '9' then some (c.toNat - '0'.toNat)
  else if 'a' ≤ c ∧ c ≤ 'f' then some (c.toNat - 'a'.toNat + 10)
  else if 'A' ≤ c ∧ c ≤ 'F' then some (c.toNat - 'A'.toNat + 10)
  else none

def hexDigit (n : Nat) : Char := Nat.digitChar (n % 16)

def hexDigits (count n : Nat) : Text :=
  (List.range count).reverse.map fun place => hexDigit (n >>> (4 * place))

/-- The control characters that have an escape of their own. -/
def namedEscape (c : Char) : Option Char :=
  match c.toNat with
  | 7 => some 'a'
  | 8 => some 'b'
  | 9 => some 't'
  | 10 => some 'n'
  | 11 => some 'v'
  | 12 => some 'f'
  | 13 => some 'r'
  | _ => none

def hexEscape (n : Nat) : Text :=
  if n < 0x20 ∨ n = 0x7f then '\\' :: 'x' :: hexDigits 2 n
  else if n < 0x10000 then '\\' :: 'u' :: hexDigits 4 n
  else '\\' :: 'U' :: hexDigits 8 n

/-- `strconv.appendEscapedRune` inside double quotes. -/
def escapeRune (wide : Char → Bool) (c : Char) : Text :=
  if c = '"' ∨ c = '\\' then ['\\', c]
  else if isPrint wide c then [c]
  else match namedEscape c with
    | some letter => ['\\', letter]
    | none => hexEscape c.toNat

/-- `strconv.Quote`, which is `%q`. -/
def quote (wide : Char → Bool) (text : Text) : Text :=
  '"' :: text.flatMap (escapeRune wide) ++ ['"']

theorem newline_notMem_hexDigits (count n : Nat) : '\n' ∉ hexDigits count n := by
  intro member
  obtain ⟨place, -, same⟩ := List.mem_map.mp member
  have digits : ∀ k < 16, Nat.digitChar k ≠ '\n' := by decide
  exact digits _ (Nat.mod_lt _ (by decide)) same

theorem newline_notMem_hexEscape (n : Nat) : '\n' ∉ hexEscape n := by
  unfold hexEscape
  split_ifs <;> simp [newline_notMem_hexDigits]

theorem namedEscape_ne_newline {c letter : Char} (named : namedEscape c = some letter) :
    letter ≠ '\n' := by
  unfold namedEscape at named
  split at named <;> cases named <;> decide

theorem newline_notMem_escapeRune (wide : Char → Bool) (c : Char) : '\n' ∉ escapeRune wide c := by
  unfold escapeRune
  split
  · next special =>
    rcases special with rfl | rfl <;> decide
  split
  · next printed =>
    rw [List.mem_singleton]
    rintro rfl
    simp [isPrint] at printed
  split
  · next letter named => simp [(namedEscape_ne_newline named).symm]
  · exact newline_notMem_hexEscape c.toNat

theorem newline_notMem_quote (wide : Char → Bool) (text : Text) : '\n' ∉ quote wide text := by
  simp [quote, newline_notMem_escapeRune]

/-- `%d`. -/
def itoa (n : Int) : Text := (toString n).toList

theorem mem_itoa {n : Int} {c : Char} (member : c ∈ itoa n) : c = '-' ∨ c.isDigit = true := by
  have digits : ∀ m : Nat, c ∈ (Nat.repr m).toList → c.isDigit = true := by
    intro m member
    have member : c ∈ Nat.toDigits 10 m := by simpa [Nat.repr] using member
    exact Nat.isDigit_of_mem_toDigits (by decide) (by decide) member
  rw [itoa, Int.toString_eq_repr] at member
  cases n with
  | ofNat m => exact .inr (digits m member)
  | negSucc m =>
    rw [Int.repr, String.toList_append, List.mem_append] at member
    rcases member with sign | digit
    · exact .inl (List.mem_singleton.mp sign)
    · exact .inr (digits (m + 1) digit)

theorem newline_notMem_itoa (n : Int) : '\n' ∉ itoa n := by
  intro member
  exact absurd (mem_itoa member) (by decide)

/-! ### Lines -/

theorem notMem_of_mem_splitOn {α : Type*} [BEq α] [LawfulBEq α] {separator : α} {text part : List α}
    (member : part ∈ text.splitOn separator) : separator ∉ part := by
  induction text generalizing part with
  | nil =>
    obtain rfl := List.mem_singleton.mp member
    exact List.not_mem_nil
  | cons c text ih =>
    rw [List.splitOn_cons_eq_if_modifyHead] at member
    split at member
    · rcases List.mem_cons.mp member with rfl | later
      · exact List.not_mem_nil
      · exact ih later
    · next other =>
      cases parts : text.splitOn separator with
      | nil => simp at parts
      | cons first rest =>
        rw [parts, List.modifyHead_cons, List.mem_cons] at member
        have inFirst : separator ∉ first := ih (by rw [parts]; exact List.mem_cons_self)
        rcases member with rfl | later
        · rw [List.mem_cons, not_or]
          exact ⟨fun same => other (by simp [← same]), inFirst⟩
        · exact ih (by rw [parts]; exact List.mem_cons_of_mem _ later)

/-- `strings.Split(text, "\n")`. -/
def splitLines (text : Text) : List Text := text.splitOn '\n'

/-- `strings.Join(lines, "\n")`. -/
def joinLines (lines : List Text) : Text := ['\n'].intercalate lines

theorem newline_notMem_line {text line : Text} (member : line ∈ splitLines text) : '\n' ∉ line :=
  notMem_of_mem_splitOn member

theorem splitLines_joinLines {lines : List Text} (nonempty : lines ≠ [])
    (single : ∀ line ∈ lines, '\n' ∉ line) : splitLines (joinLines lines) = lines :=
  List.splitOn_intercalate '\n' single nonempty

/-! ### Joining with a separator -/

theorem parts_of_joined {α : Type*} {separator : α} {front back front' back' : List α}
    (free : separator ∉ front) (free' : separator ∉ front')
    (same : front ++ separator :: back = front' ++ separator :: back') :
    front = front' ∧ back = back' := by
  induction front generalizing front' with
  | nil =>
    cases front' with
    | nil => exact ⟨rfl, (List.cons.inj same).2⟩
    | cons head tail => exact absurd ((List.cons.inj same).1 ▸ List.mem_cons_self) free'
  | cons head tail ih =>
    cases front' with
    | nil => exact absurd ((List.cons.inj same).1 ▸ List.mem_cons_self) free
    | cons head' tail' =>
      obtain ⟨sameHead, sameRest⟩ := List.cons.inj same
      obtain ⟨sameTail, sameBack⟩ := ih (fun inside => free (List.mem_cons_of_mem _ inside))
        (fun inside => free' (List.mem_cons_of_mem _ inside)) sameRest
      exact ⟨by rw [sameHead, sameTail], sameBack⟩

end Ttgo.Lib

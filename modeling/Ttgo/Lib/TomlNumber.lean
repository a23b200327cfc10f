/-
**Integers in TOML.**

* `integerValue` — the number that an integer token stands for; `parseInt` — the token as a Go `int`.
* `isScalar_itoa`, `parseInt_itoa` — what `%d` writes for a positive number is one token, and is read as the number.
* `assigns_itoa` — a bare key with such a number is one whole assignment.
-/

import Ttgo.Lib.TomlQuote

namespace Ttgo.Lib.Toml

/-! ### The value of a token -/

/-- The number of digits in a base; the underscores between them count nothing. -/
def digitsValue (base : Nat) (text : Text) : Nat :=
  (text.filter (· ≠ '_')).foldl (fun value c => base * value + (hexValue c).getD 0) 0

def integerValue : Text → Int
  | '0' :: 'x' :: digits => digitsValue 16 digits
  | '0' :: 'o' :: digits => digitsValue 8 digits
  | '0' :: 'b' :: digits => digitsValue 2 digits
  | '-' :: digits => -digitsValue 10 digits
  | '+' :: digits => digitsValue 10 digits
  | digits => digitsValue 10 digits

def isInt (n : Int) : Bool := -2 ^ 63 ≤ n ∧ n < 2 ^ 63

/-- A token as a Go `int`. -/
def parseInt (token : Text) : Option Int :=
  if isInteger token ∧ isInt (integerValue token) then some (integerValue token) else none

/-! ### Decimal digits -/

theorem itoa_natCast (n : Nat) : itoa n = Nat.toDigits 10 n := by
  rw [itoa, Int.toString_eq_repr]
  show (Nat.repr n).toList = _
  rw [Nat.repr_eq_ofList_toDigits, String.toList_ofList]

theorem isDigit_of_mem_digits {n : Nat} {c : Char} (member : c ∈ Nat.toDigits 10 n) : c.isDigit = true :=
  Nat.isDigit_of_mem_toDigits (by decide) (by decide) member

theorem ne_of_isDigit {c : Char} (digit : c.isDigit = true) (other : Char) (strange : other.isDigit = false) :
    c ≠ other := by
  rintro rfl
  rw [strange] at digit
  cases digit

theorem hexValue_of_isDigit {c : Char} (digit : c.isDigit = true) :
    hexValue c = some (c.toNat - '0'.toNat) := by
  rw [Char.isDigit, Bool.and_eq_true, decide_eq_true_iff, decide_eq_true_iff] at digit
  exact if_pos digit

theorem head_digits {n : Nat} (positive : 0 < n) : ∃ c rest, Nat.toDigits 10 n = c :: rest ∧ c ≠ '0' := by
  induction n using Nat.strongRecOn with
  | ind n ih =>
    rw [Nat.toDigits_eq_if (by decide)]
    split
    · next small =>
      refine ⟨_, [], rfl, ?_⟩
      have digits : ∀ k < 10, 0 < k → Nat.digitChar k ≠ '0' := by decide
      exact digits n small positive
    · next large =>
      obtain ⟨c, rest, front, nonzero⟩ := ih (n / 10) (by omega) (by omega)
      exact ⟨c, rest ++ [Nat.digitChar (n % 10)], by rw [front, List.cons_append], nonzero⟩

theorem digitsValue_toDigits (n : Nat) : digitsValue 10 (Nat.toDigits 10 n) = n := by
  have plain : (Nat.toDigits 10 n).filter (· ≠ '_') = Nat.toDigits 10 n := by
    rw [List.filter_eq_self]
    intro c member
    exact decide_eq_true (ne_of_isDigit (isDigit_of_mem_digits member) '_' (by decide))
  rw [digitsValue, plain]
  conv_rhs => rw [← Nat.ofDigitChars_toDigits (b := 10) (n := n) (by decide) (by decide)]
  rw [Nat.ofDigitChars_eq_foldl]
  refine List.foldl_ext _ _ _ fun value c member => ?_
  rw [hexValue_of_isDigit (isDigit_of_mem_digits member), Option.getD_some]

/-! ### What `%d` writes -/

variable {n : Int}

theorem itoa_cases (positive : 0 < n) : ∃ c rest, itoa n = c :: rest ∧ c.isDigit = true ∧ c ≠ '0' ∧
    (∀ d ∈ rest, d.isDigit = true) ∧ digitsValue 10 (itoa n) = n := by
  obtain ⟨m, rfl⟩ := Int.eq_ofNat_of_zero_le positive.le
  obtain ⟨c, rest, front, nonzero⟩ := head_digits (by omega : 0 < m)
  have digit : ∀ d ∈ c :: rest, d.isDigit = true := fun d member => isDigit_of_mem_digits (n := m) (front ▸ member)
  refine ⟨c, rest, (itoa_natCast m).trans front, digit c List.mem_cons_self, nonzero, ?_, ?_⟩
  · exact fun d member => digit d (List.mem_cons_of_mem c member)
  · rw [itoa_natCast, digitsValue_toDigits]

theorem isInteger_itoa (positive : 0 < n) : isInteger (itoa n) = true := by
  obtain ⟨c, rest, front, digit, nonzero, digits, -⟩ := itoa_cases positive
  have whole : ∀ d ∈ c :: rest, d.isDigit = true := List.forall_mem_cons.mpr ⟨digit, digits⟩
  have single : (c :: rest).splitOn '_' = [c :: rest] :=
    List.splitOn_eq_singleton fun member => absurd (whole _ member) (by decide)
  have decimal : isDecimal (c :: rest) = true := by
    simp only [isDecimal, isDigits, single, List.head?_cons, Option.some.injEq, nonzero, false_implies, and_true]
    simpa using ⟨digit, digits⟩
  have unsignedSelf : unsigned (c :: rest) = c :: rest := by
    unfold unsigned
    split
    · next text same => exact absurd digit (by rw [(List.cons.inj same).1]; decide)
    · next text same => exact absurd digit (by rw [(List.cons.inj same).1]; decide)
    · rfl
  rw [front, isInteger]
  · rw [unsignedSelf, decimal]
  all_goals
    rintro rest' same
    exact nonzero (List.cons.inj same).1

theorem isScalar_itoa (positive : 0 < n) : isScalar (itoa n) = true := by
  simp [isScalar, isInteger_itoa positive]

theorem integerValue_itoa (positive : 0 < n) : integerValue (itoa n) = n := by
  obtain ⟨c, rest, front, digit, nonzero, -, value⟩ := itoa_cases positive
  rw [front] at value ⊢
  rw [integerValue, value]
  all_goals
    rintro rest' same
    obtain ⟨rfl, -⟩ := List.cons.inj same
    first
    | exact nonzero rfl
    | exact absurd digit (by decide)

theorem parseInt_itoa (positive : 0 < n) (bound : n < 2 ^ 63) : parseInt (itoa n) = some n := by
  have range : isInt n = true := decide_eq_true ⟨by omega, bound⟩
  rw [parseInt, integerValue_itoa positive, if_pos ⟨isInteger_itoa positive, range⟩]

/-! ### Assignments -/

theorem isToken_of_isDigit {c : Char} (digit : c.isDigit = true) : isToken c = true := by
  simp [isToken, Char.isAlphanum, digit]

theorem feed_tokens (key : List Text) (read more : Text) (digits : ∀ c ∈ more, c.isDigit = true) :
    transduce Mode.feed (.value key [] [] (.bare read)) more =
      some (.value key [] [] (.bare (read ++ more)), []) := by
  induction more generalizing read with
  | nil => simp
  | cons c more ih =>
    have rest := ih (read ++ [c]) fun d member => digits d (List.mem_cons_of_mem _ member)
    rw [List.append_assoc] at rest
    refine transduce_cons_eq_some.mpr ⟨_, [], [], ?_, rest, rfl⟩
    simp [Mode.feed, feedValue, isToken_of_isDigit (digits c List.mem_cons_self), extend]

theorem feed_firstDigit (key : List Text) {c : Char} (digit : c.isDigit = true) :
    Mode.feed (.value key [] [] .start) c = some (.value key [] [] (.bare [c]), []) := by
  have other : ∀ d : Char, d.isDigit = false → c ≠ d := ne_of_isDigit digit
  simp [Mode.feed, feedValue, feedStart, isBlank, isToken_of_isDigit digit, extend, other ' ' (by decide),
    other '\t' (by decide), other '"' (by decide), other '\'' (by decide), other '[' (by decide),
    other '{' (by decide)]

theorem assigns_itoa {key : Text} (nonempty : key ≠ []) (bare : ∀ c ∈ key, isBare c) (positive : 0 < n) :
    Assigns (key ++ " = ".toList ++ itoa n) key (.scalar (itoa n)) := by
  have token := isScalar_itoa positive
  obtain ⟨c, rest, front, digit, -, digits, -⟩ := itoa_cases positive
  rw [front] at token ⊢
  rw [Assigns, feedLine, List.append_assoc]
  refine transduce_join (feed_keySign nonempty bare) ?_
  refine transduce_cons_eq_some.mpr ⟨_, [], _, feed_firstDigit [key] digit, ?_, rfl⟩
  refine transduce_join (feed_tokens [key] [c] rest digits) ?_
  rw [transduce_singleton]
  have ends : isToken '\n' = false := by decide
  simp [Mode.feed, feedValue, ends, token, completed, feedAfter, isBlank]

end Ttgo.Lib.Toml

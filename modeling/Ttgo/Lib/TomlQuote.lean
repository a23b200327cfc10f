/-
**What `%q` writes, TOML reads.**

Go's quoting and TOML's basic strings agree on all characters but those that Go writes as `\a`, `\v` or
`\x..`, which are control characters.

* `isReadable` — the characters on which the two agree.
* `Assigns line key value` — a line that is one whole assignment; `assigns_quote` — a bare key with a
  quoted text is one.
* `feedLine_quote_eq_none` — with any other character in the text, the line is rejected; `feedLine_quotedLine` — both.
-/

import Mathlib.Tactic.Ring
import Ttgo.Lib.Toml

namespace Ttgo.Lib.Toml

/-! ### Hexadecimal digits -/

theorem hexValue_hexDigit (n : Nat) : hexValue (hexDigit n) = some (n % 16) := by
  have digits : ∀ k < 16, hexValue (Nat.digitChar k) = some k := by decide
  exact digits (n % 16) (Nat.mod_lt _ (by decide))

theorem hexDigits_succ (count n : Nat) :
    hexDigits (count + 1) n = hexDigit (n >>> (4 * count)) :: hexDigits count n := by
  simp [hexDigits, List.range_succ]

theorem mod_pow_hex (count n : Nat) :
    n % 16 ^ (count + 1) = (n >>> (4 * count)) % 16 * 16 ^ count + n % 16 ^ count := by
  have shifted : n >>> (4 * count) = n / 16 ^ count := by
    rw [Nat.shiftRight_eq_div_pow, pow_mul]
    norm_num
  rw [shifted, Nat.mod_pow_succ]
  ring

/-! ### Inside a string -/

/-- A character that `strconv.Quote` writes with an escape that TOML has. -/
def isReadable (c : Char) : Bool :=
  !isControl c ∨ (namedEscape c).any fun letter => simpleEscape letter = some c

/-- A basic string of one line whose end has not come. -/
def basic (text : Text) : Quoted := ⟨false, false, text, .none, 0⟩

variable {key : List Text} {text : Text}

/-- In the value of an assignment, inside a string. -/
def inString (key : List Text) (q : Quoted) : Mode := .value key [] [] (.quoted q)

theorem feed_inString {q next : Quoted} {c : Char} (fed : q.feed c = some (.more next)) :
    (inString key q).feed c = some (inString key next, []) := by
  show feedQuoted key [] [] q c = _
  rw [feedQuoted, fed]
  rfl

theorem transduce_inString {q next : Quoted} {c : Char} {rest : Text}
    {result : Mode × List Statement} (fed : q.feed c = some (.more next))
    (later : transduce Mode.feed (inString key next) rest = some result) :
    transduce Mode.feed (inString key q) (c :: rest) = some result :=
  transduce_cons_eq_some.mpr ⟨_, [], result.2, feed_inString fed, later, rfl⟩

theorem feed_hexDigits (key : List Text) (text : Text) (count value n : Nat)
    (valid : (value * 16 ^ (count + 1) + n % 16 ^ (count + 1)).isValidChar) :
    transduce Mode.feed (inString key { basic text with escape := .hex (count + 1) value })
        (hexDigits (count + 1) n) =
      some (inString key
        (basic (text ++ [Char.ofNat (value * 16 ^ (count + 1) + n % 16 ^ (count + 1))])), []) := by
  induction count generalizing value with
  | zero =>
    rw [hexDigits_succ]
    refine transduce_inString ?_ rfl
    rw [Quoted.feed]
    simp only [hexValue_hexDigit, Option.bind_some]
    rw [if_neg (by decide), if_pos (by simpa using valid)]
    simp [Quoted.push, basic]
  | succ count ih =>
    have folded : value * 16 ^ (count + 1 + 1) + n % 16 ^ (count + 1 + 1) =
        (value * 16 + (n >>> (4 * (count + 1))) % 16) * 16 ^ (count + 1) + n % 16 ^ (count + 1) := by
      rw [mod_pow_hex (count + 1)]
      ring
    rw [hexDigits_succ]
    rw [folded] at valid ⊢
    refine transduce_inString ?_ (ih _ valid)
    rw [Quoted.feed]
    simp only [hexValue_hexDigit, Option.bind_some]
    rw [if_pos (by omega)]
    rfl

theorem feed_backslash (text : Text) :
    (basic text).feed '\\' = some (.more { basic text with escape := .backslash }) := by
  simp [Quoted.feed, Quoted.plain, Quoted.settle, basic, quoteOf]

theorem feed_hexEscape {c : Char} (printed : ¬ (c.toNat < 0x20 ∨ c.toNat = 0x7f)) :
    transduce Mode.feed (inString key (basic text)) (hexEscape c.toNat) =
      some (inString key (basic (text ++ [c])), []) := by
  have valid : c.toNat.isValidChar := c.valid
  rw [hexEscape, if_neg printed]
  split
  · next small =>
    have whole : 0 * 16 ^ 4 + c.toNat % 16 ^ 4 = c.toNat := by omega
    refine transduce_inString (feed_backslash text) (transduce_inString rfl ?_)
    have digits := feed_hexDigits key text 3 0 c.toNat (by rwa [whole])
    rwa [whole, Char.ofNat_toNat] at digits
  · have whole : 0 * 16 ^ 8 + c.toNat % 16 ^ 8 = c.toNat := by
      have bound : c.toNat < 16 ^ 8 := c.val.toNat_lt
      omega
    refine transduce_inString (feed_backslash text) (transduce_inString rfl ?_)
    have digits := feed_hexDigits key text 7 0 c.toNat (by rwa [whole])
    rwa [whole, Char.ofNat_toNat] at digits

theorem simpleEscape_of_named {c letter : Char} (named : namedEscape c = some letter)
    (readable : isReadable c) : simpleEscape letter = some c := by
  rw [isReadable, named, decide_eq_true_iff] at readable
  rcases readable with printed | agreed
  · have tab : c.toNat = 9 := by
      simp only [isControl, Bool.not_eq_true', decide_eq_false_iff_not] at printed
      unfold namedEscape at named
      split at named
      all_goals simp_all
    obtain rfl : c = '\t' := Char.toNat_inj.mp tab
    cases named
    rfl
  · simpa using agreed

theorem isPrint_bounds {wide : Char → Bool} {c : Char} (printed : isPrint wide c) :
    0x20 ≤ c.toNat ∧ c.toNat ≠ 0x7f := by
  by_cases small : c.toNat ≤ 0xFF
  · simp only [isPrint, if_pos small, decide_eq_true_eq] at printed
    omega
  · omega

theorem feed_printed {c : Char} (bounds : 0x20 ≤ c.toNat ∧ c.toNat ≠ 0x7f)
    (ordinary : ¬ (c = '"' ∨ c = '\\')) :
    (basic text).feed c = some (.more (basic (text ++ [c]))) := by
  have unbroken : isLineBreak c = false := by
    rw [isLineBreak, decide_eq_false_iff_not]
    rintro (rfl | rfl) <;> exact absurd bounds.1 (by decide)
  have uncontrolled : isControl c = false := by
    rw [isControl, decide_eq_false_iff_not]
    omega
  rw [not_or] at ordinary
  simp [Quoted.feed, Quoted.plain, Quoted.settle, Quoted.push, basic, quoteOf, ordinary.1, ordinary.2,
    unbroken, uncontrolled]

theorem feed_escapeRune (wide : Char → Bool) {c : Char} (readable : isReadable c) :
    transduce Mode.feed (inString key (basic text)) (escapeRune wide c) =
      some (inString key (basic (text ++ [c])), []) := by
  unfold escapeRune
  split
  · next special =>
    refine transduce_inString (feed_backslash text) (transduce_inString ?_ rfl)
    rcases special with rfl | rfl <;> rfl
  next ordinary =>
  split
  · next printed =>
    exact transduce_inString (feed_printed (isPrint_bounds printed) ordinary) rfl
  split
  · next letter named =>
    refine transduce_inString (feed_backslash text) (transduce_inString ?_ rfl)
    have meant := simpleEscape_of_named named readable
    simp [Quoted.feed, meant, Quoted.push, basic]
  · next unnamed =>
    refine feed_hexEscape fun low => ?_
    rw [isReadable, unnamed, decide_eq_true_iff] at readable
    simp only [isControl, Option.any_none, Bool.false_eq_true, or_false, Bool.not_eq_true',
      decide_eq_false_iff_not, not_or, not_and_not_right] at readable
    rcases low with low | low
    · obtain rfl := readable.1 low
      cases unnamed
    · exact readable.2 low

theorem feed_text (wide : Char → Bool) (more : Text) (readable : ∀ c ∈ more, isReadable c) :
    transduce Mode.feed (inString key (basic text)) (more.flatMap (escapeRune wide)) =
      some (inString key (basic (text ++ more)), []) := by
  induction more generalizing text with
  | nil => simp
  | cons c more ih =>
    rw [List.flatMap_cons]
    have first : transduce Mode.feed (inString key (basic text)) (escapeRune wide c) = _ :=
      feed_escapeRune wide (readable c List.mem_cons_self)
    have rest : transduce Mode.feed (inString key (basic (text ++ [c]))) _ = _ :=
      ih fun d member => readable d (List.mem_cons_of_mem _ member)
    have joined := transduce_join first rest
    rwa [List.append_assoc] at joined

/-! ### Lines -/

/-- The line is one whole assignment. -/
def Assigns (line key : Text) (value : Value) : Prop :=
  feedLine .line line = some (.line, [.assign [key] value])

instance (line key : Text) (value : Value) : Decidable (Assigns line key value) :=
  inferInstanceAs (Decidable (_ = _))

theorem isBare_ne {c : Char} (bare : isBare c) (other : Char) (strange : isBare other = false) :
    c ≠ other := by
  rintro rfl
  rw [strange] at bare
  cases bare

theorem isBlank_of_isBare {c : Char} (bare : isBare c) : isBlank c = false := by
  rw [isBlank, decide_eq_false_iff_not, not_or]
  exact ⟨isBare_ne bare ' ' (by decide), isBare_ne bare '\t' (by decide)⟩

theorem feed_bare {c : Char} {place : Place} (bare : isBare c) (path : List Text) (read : Text) :
    Mode.feed (.key place path (.bare read)) c = some (.key place path (.bare (read ++ [c])), []) := by
  simp [Mode.feed, feedKey, bare, keyed]

theorem feed_bareKey (place : Place) (path : List Text) (read more : Text) (bare : ∀ c ∈ more, isBare c) :
    transduce Mode.feed (.key place path (.bare read)) more =
      some (.key place path (.bare (read ++ more)), []) := by
  induction more generalizing read with
  | nil => simp
  | cons c more ih =>
    have rest := ih (read ++ [c]) fun d member => bare d (List.mem_cons_of_mem _ member)
    rw [List.append_assoc] at rest
    exact transduce_cons_eq_some.mpr
      ⟨_, [], [], feed_bare (bare c List.mem_cons_self) path read, rest, rfl⟩

theorem feed_firstBare {c : Char} (bare : isBare c) :
    Mode.feed .line c = some (.key .assign [] (.bare [c]), []) := by
  simp [Mode.feed, feedKey, keyed, bare, isBlank_of_isBare bare, isBare_ne bare '\n' (by decide),
    isBare_ne bare '\r' (by decide), isBare_ne bare '#' (by decide), isBare_ne bare '[' (by decide)]

theorem feed_keySign {key : Text} (nonempty : key ≠ []) (bare : ∀ c ∈ key, isBare c) :
    transduce Mode.feed .line (key ++ " = ".toList) = some (.value [key] [] [] .start, []) := by
  cases key with
  | nil => exact absurd rfl nonempty
  | cons c key =>
    have first := feed_firstBare (bare c List.mem_cons_self)
    have rest := feed_bareKey .assign [] [c] key fun d member => bare d (List.mem_cons_of_mem _ member)
    exact transduce_cons_eq_some.mpr ⟨_, [], [], first, transduce_join rest rfl, rfl⟩

theorem escapeRune_cons (wide : Char → Bool) (c : Char) :
    ∃ first rest, escapeRune wide c = first :: rest ∧ first ≠ '"' := by
  unfold escapeRune
  split
  · exact ⟨'\\', [c], rfl, by decide⟩
  next ordinary =>
  split
  · exact ⟨c, [], rfl, fun same => ordinary (.inl same)⟩
  split
  · next letter _ => exact ⟨'\\', [letter], rfl, by decide⟩
  · unfold hexEscape
    split_ifs
    all_goals exact ⟨_, _, rfl, by decide⟩

theorem transduce_quote {c : Char} {rest : Text} (other : c ≠ '"') :
    transduce Mode.feed (.value key [] [] (.quote false 1)) (c :: rest) =
      transduce Mode.feed (inString key (basic [])) (c :: rest) := by
  have same : Mode.feed (.value key [] [] (.quote false 1)) c =
      Mode.feed (inString key (basic [])) c := by
    simp [Mode.feed, feedValue, inString, basic, quoteOf, other]
  rw [transduce, transduce, same]

theorem feed_quote (wide : Char → Bool) (readable : ∀ c ∈ text, isReadable c) :
    transduce Mode.feed (.value key [] [] .start) (quote wide text ++ ['\n']) =
      some (.line, [.assign key (.string text)]) := by
  refine transduce_cons_eq_some.mpr ⟨.value key [] [] (.quote false 1), [], _, rfl, ?_, rfl⟩
  have inside : transduce Mode.feed (inString key (basic []))
      (text.flatMap (escapeRune wide) ++ ['"'] ++ ['\n']) =
        some (.line, [.assign key (.string text)]) := by
    rw [List.append_assoc]
    exact transduce_join (feed_text wide text readable) rfl
  cases text with
  | nil => rfl
  | cons c text =>
    obtain ⟨first, rest, escaped, other⟩ := escapeRune_cons wide c
    rw [List.flatMap_cons, escaped] at inside ⊢
    exact (transduce_quote other).trans inside

theorem assigns_quote (wide : Char → Bool) {key : Text} (nonempty : key ≠ [])
    (bare : ∀ c ∈ key, isBare c) (readable : ∀ c ∈ text, isReadable c) :
    Assigns (key ++ " = ".toList ++ quote wide text) key (.string text) := by
  rw [Assigns, feedLine, List.append_assoc]
  exact transduce_join (feed_keySign nonempty bare) (feed_quote wide readable)

/-! ### What is rejected -/

theorem namedEscape_cases {c letter : Char} (named : namedEscape c = some letter) :
    letter = 'a' ∨ letter = 'v' ∨ simpleEscape letter = some c := by
  have escaped : ∀ d : Char, c.toNat = d.toNat → simpleEscape letter = some d → simpleEscape letter = some c := by
    intro d same escapes
    rw [Char.toNat_inj.mp same, escapes]
  unfold namedEscape at named
  split at named
  case h_8 => cases named
  all_goals obtain rfl := Option.some.inj named
  · exact .inl rfl
  · next code => exact .inr (.inr (escaped '\x08' code rfl))
  · next code => exact .inr (.inr (escaped '\t' code rfl))
  · next code => exact .inr (.inr (escaped '\n' code rfl))
  · exact .inr (.inl rfl)
  · next code => exact .inr (.inr (escaped '\x0c' code rfl))
  · next code => exact .inr (.inr (escaped '\r' code rfl))

theorem escapeRune_unreadable (wide : Char → Bool) {c : Char} (unreadable : isReadable c = false) :
    ∃ letter rest, escapeRune wide c = '\\' :: letter :: rest ∧ simpleEscape letter = none ∧ letter ≠ 'u' ∧
      letter ≠ 'U' := by
  rw [isReadable, decide_eq_false_iff_not, not_or] at unreadable
  obtain ⟨controlled, unnamed⟩ := unreadable
  have control : isControl c = true := by simpa using controlled
  have low : c.toNat < 0x20 ∨ c.toNat = 0x7f := (of_decide_eq_true control).imp_left And.left
  have ordinary : ¬ (c = '"' ∨ c = '\\') := by
    rintro (rfl | rfl) <;> exact absurd low (by decide)
  have unprinted : isPrint wide c = false := by
    by_contra printed
    have bounds := isPrint_bounds (Bool.eq_true_of_not_eq_false printed)
    omega
  rw [escapeRune, if_neg ordinary, if_neg (by rw [unprinted]; decide)]
  cases named : namedEscape c with
  | none => exact ⟨'x', _, by rw [hexEscape, if_pos low], rfl, by decide, by decide⟩
  | some letter =>
    rw [named, Option.any_some, decide_eq_true_iff] at unnamed
    refine ⟨letter, [], rfl, ?_⟩
    rcases namedEscape_cases named with rfl | rfl | agreed
    · exact ⟨rfl, by decide, by decide⟩
    · exact ⟨rfl, by decide, by decide⟩
    · exact absurd agreed unnamed

theorem feed_text_eq_none (wide : Char → Bool) (more rest : Text) (unreadable : ∃ c ∈ more, isReadable c = false) :
    transduce Mode.feed (inString key (basic text)) (more.flatMap (escapeRune wide) ++ rest) = none := by
  induction more generalizing text with
  | nil =>
    obtain ⟨c, member, -⟩ := unreadable
    cases member
  | cons c more ih =>
    rw [List.flatMap_cons, List.append_assoc]
    by_cases readable : isReadable c = true
    · refine transduce_append_eq_none (feed_escapeRune wide readable) (ih ?_)
      obtain ⟨d, member, strange⟩ := unreadable
      rcases List.mem_cons.mp member with rfl | later
      · exact absurd readable (by rw [strange]; decide)
      · exact ⟨d, later, strange⟩
    · obtain ⟨letter, tail, escaped, unknown, notU, notLongU⟩ :=
        escapeRune_unreadable wide (Bool.eq_false_of_not_eq_true readable)
      rw [escaped]
      refine transduce_eq_none_append ?_ _
      have begun : transduce Mode.feed (inString key (basic text)) ['\\'] =
          some (inString key { basic text with escape := .backslash }, []) :=
        transduce_inString (feed_backslash text) rfl
      refine transduce_append_eq_none begun ?_
      have stopped : Mode.feed (inString key { basic text with escape := .backslash }) letter = none := by
        show feedQuoted key [] [] _ letter = none
        simp [feedQuoted, Quoted.feed, basic, unknown, notU, notLongU]
      rw [transduce, stopped]
      rfl

theorem feedLine_quote_eq_none (wide : Char → Bool) {key : Text} (nonempty : key ≠ [])
    (bare : ∀ c ∈ key, isBare c) (unreadable : ∃ c ∈ text, isReadable c = false) :
    feedLine .line (key ++ " = ".toList ++ quote wide text) = none := by
  rw [feedLine, List.append_assoc]
  refine transduce_append_eq_none (feed_keySign nonempty bare) ?_
  have opened : transduce Mode.feed (.value [key] [] [] .start) ['"'] =
      some (.value [key] [] [] (.quote false 1), []) := rfl
  show transduce Mode.feed _ (['"'] ++ (text.flatMap (escapeRune wide) ++ ['"'] ++ ['\n'])) = none
  refine transduce_append_eq_none opened ?_
  have inside : transduce Mode.feed (inString [key] (basic []))
      (text.flatMap (escapeRune wide) ++ (['"'] ++ ['\n'])) = none :=
    feed_text_eq_none wide text _ unreadable
  rw [← List.append_assoc] at inside
  cases text with
  | nil =>
    obtain ⟨c, member, -⟩ := unreadable
    cases member
  | cons c text =>
    obtain ⟨first, rest, escaped, other⟩ := escapeRune_cons wide c
    rw [List.flatMap_cons, escaped] at inside ⊢
    exact (transduce_quote other).trans inside

/-! ### Both together -/

/-- A line with a key and a quoted text, and the statement that it is. -/
def quotedLine (wide : Char → Bool) (key text : Text) : Text × List Statement :=
  (key ++ " = ".toList ++ quote wide text, [.assign [key] (.string text)])

theorem newline_notMem_quotedLine {key : Text} (bare : key.all isBare = true) (wide : Char → Bool) (text : Text) :
    '\n' ∉ (quotedLine wide key text).1 := by
  intro inside
  rcases List.mem_append.mp inside with front | quoted
  · rcases List.mem_append.mp front with name | sign
    · exact absurd (List.all_eq_true.mp bare _ name) (by decide)
    · exact absurd sign (by decide)
  · exact newline_notMem_quote wide text quoted

/-- **The line is a whole statement if the text is readable**, and is rejected if not. -/
theorem feedLine_quotedLine {key : Text} (nonempty : key ≠ []) (bare : key.all isBare = true) (wide : Char → Bool)
    (text : Text) :
    feedLine .line (quotedLine wide key text).1 =
      if text.all isReadable then some (.line, (quotedLine wide key text).2) else none := by
  split
  · next reads => exact assigns_quote wide nonempty (List.all_eq_true.mp bare) (List.all_eq_true.mp reads)
  · next unreadable =>
    obtain ⟨c, inside, marked⟩ := List.all_eq_false.mp (Bool.eq_false_iff.mpr unreadable)
    exact feedLine_quote_eq_none wide nonempty (List.all_eq_true.mp bare) ⟨c, inside, Bool.eq_false_iff.mpr marked⟩

end Ttgo.Lib.Toml

/-
**Domain names and the case of their letters.**

`matchDomain` of `internal/client/tun.go` and `AdBlocker.IsBlocked` of `internal/client/adblock.go` compare names as
they are spelled, but for a dot at the end. A name of the DNS is the same in every spelling.

* `matchDomain`, `AdBlocker.load`, `AdBlocker.isBlocked`.
* `Exclusion`, `parseExclusion` — what an entry of the list stands for; `matchDomain_iff`.
* `SameName` — names that differ at most in the case of ASCII letters.
* `Respelled` — the list covers every spelling of its entries; `respelled_iff` — it then ignores case, and only then.
* `ignores_case_iff` — the exact condition on the lists and on the name behind a wildcard.
-/

import Ttgo.Lib.GoStrings

namespace Ttgo.Client.DomainNames

open Ttgo.Lib

/-! ### The decisions -/

/-- `strings.TrimSuffix(domain, ".")`. -/
def trimDot (domain : Text) : Text := if domain.getLast? = some '.' then domain.dropLast else domain

/-- One entry of the list, for a name without the dot. -/
def excludes (exc domain : Text) : Bool :=
  let exc := trimSpace exc
  if exc = [] then false
  else if "*.".toList.isPrefixOf exc then (exc.drop 1).isSuffixOf domain || domain = exc.drop 2
  else domain = exc

def matchDomain (domain : Text) (exclusions : List Text) : Bool :=
  exclusions.any fun exc => excludes exc (trimDot domain)

structure AdBlocker where
  domains : List Text
  ready : Bool
deriving DecidableEq, Repr

namespace AdBlocker

/-- `NewAdBlocker`, before the list is there. -/
def new : AdBlocker := ⟨[], false⟩

def fields (line : Text) : List Text := (line.splitOnP isSpace).filter (· ≠ [])

def lineDomain (line : Text) : Option Text :=
  let line := trimSpace line
  if line = [] ∨ line.head? = some '#' then none
  else
    match fields line with
    | address :: domain :: _ => if address = "0.0.0.0".toList then some domain else none
    | _ => none

/-- `load`, with the lines that the scanner gives. -/
def load (lines : List Text) : AdBlocker := ⟨lines.filterMap lineDomain, true⟩

def isBlocked (a : AdBlocker) (domain : Text) : Bool :=
  if !a.ready then false else a.domains.contains (trimDot domain)

end AdBlocker

/-! ### What an entry stands for -/

inductive Exclusion
  /-- `*.zone`. -/
  | wildcard (zone : Text)
  | plain (name : Text)
deriving DecidableEq, Repr

def parseExclusion (exc : Text) : Option Exclusion :=
  let exc := trimSpace exc
  if exc = [] then none
  else if "*.".toList.isPrefixOf exc then some (.wildcard (exc.drop 2))
  else some (.plain exc)

/-- The names that an entry covers. -/
def Exclusion.Covers (domain : Text) : Exclusion → Prop
  | wildcard zone => domain = zone ∨ '.' :: zone <:+ domain
  | plain name => domain = name

def entries (exclusions : List Text) : List Exclusion := exclusions.filterMap parseExclusion

theorem excludes_iff (exc domain : Text) :
    excludes exc domain = true ↔ ∃ e, parseExclusion exc = some e ∧ e.Covers domain := by
  unfold excludes parseExclusion
  dsimp only
  split
  · simp
  split
  · next star =>
    obtain ⟨zone, whole⟩ := List.isPrefixOf_iff_prefix.mp star
    rw [← whole]
    simp [Exclusion.Covers, List.isSuffixOf_iff_suffix, or_comm]
  · simp [Exclusion.Covers]

theorem matchDomain_iff (domain : Text) (exclusions : List Text) :
    matchDomain domain exclusions = true ↔ ∃ e ∈ entries exclusions, e.Covers (trimDot domain) := by
  simp only [matchDomain, List.any_eq_true, excludes_iff, entries, List.mem_filterMap]
  constructor
  · rintro ⟨exc, listed, e, parsed, covers⟩
    exact ⟨e, ⟨exc, listed, parsed⟩, covers⟩
  · rintro ⟨e, ⟨exc, listed, parsed⟩, covers⟩
    exact ⟨exc, listed, e, parsed, covers⟩

/-! ### Spellings -/

/-- A name in lower case. -/
def fold (name : Text) : Text := name.map Char.toLower

/-- The names differ at most in the case of ASCII letters. -/
def SameName (one other : Text) : Prop := fold one = fold other

theorem toNat_toLower (c : Char) :
    c.toLower.toNat = if 65 ≤ c.toNat ∧ c.toNat ≤ 90 then c.toNat + 32 else c.toNat := by
  have bounds : (c.val ≥ 'A'.val ∧ c.val ≤ 'Z'.val) ↔ 65 ≤ c.toNat ∧ c.toNat ≤ 90 := by
    rw [ge_iff_le, UInt32.le_iff_toNat_le, UInt32.le_iff_toNat_le]
    rfl
  unfold Char.toLower
  by_cases upper : 65 ≤ c.toNat ∧ c.toNat ≤ 90
  · rw [dif_pos (bounds.mpr upper), if_pos upper]
    show (c.val + ('a'.val - 'A'.val)).toNat = c.toNat + 32
    rw [UInt32.toNat_add, Nat.mod_eq_of_lt]
    · rfl
    · show c.toNat + 32 < 2 ^ 32
      omega
  · rw [dif_neg (mt bounds.mp upper), if_neg upper]

theorem isAlpha_iff (c : Char) :
    c.isAlpha = true ↔ 65 ≤ c.toNat ∧ c.toNat ≤ 90 ∨ 97 ≤ c.toNat ∧ c.toNat ≤ 122 := by
  show (decide (c.val ≥ 'A'.val ∧ c.val ≤ 'Z'.val) || decide (c.val ≥ 'a'.val) && decide (c.val ≤ 'z'.val)) = true ↔ _
  simp only [Bool.or_eq_true, Bool.and_eq_true, decide_eq_true_eq, ge_iff_le, UInt32.le_iff_toNat_le]
  rfl

theorem eq_of_toLower_eq {c d : Char} (plain : c.isAlpha = false) (same : d.toLower = c.toLower) : d = c := by
  have none := mt (isAlpha_iff c).mpr (Bool.eq_false_iff.mp plain)
  have code := congrArg Char.toNat same
  rw [toNat_toLower, toNat_toLower] at code
  apply Char.toNat_inj.mp
  split at code <;> split at code <;> omega

theorem exists_respelling {c : Char} (letter : c.isAlpha = true) : ∃ d, d ≠ c ∧ d.toLower = c.toLower := by
  have bounds := (isAlpha_iff c).mp letter
  have valid : ∀ n, n < 128 → (Char.ofNat n).toNat = n := by decide
  by_cases upper : 65 ≤ c.toNat ∧ c.toNat ≤ 90
  · have number := valid (c.toNat + 32) (by omega)
    refine ⟨Char.ofNat (c.toNat + 32), fun same => ?_, Char.toNat_inj.mp ?_⟩
    · rw [same] at number
      omega
    · rw [toNat_toLower, toNat_toLower, number, if_pos upper, if_neg (by omega)]
  · have number := valid (c.toNat - 32) (by omega)
    refine ⟨Char.ofNat (c.toNat - 32), fun same => ?_, Char.toNat_inj.mp ?_⟩
    · rw [same] at number
      omega
    · rw [toNat_toLower, toNat_toLower, number, if_neg upper, if_pos (by omega)]
      omega

theorem eq_dot_of_toLower {c : Char} (lowered : c.toLower = '.') : c = '.' :=
  eq_of_toLower_eq (by decide) lowered

theorem exists_other_spelling {name : Text} {c : Char} (member : c ∈ name) (letter : c.isAlpha = true) :
    ∃ other, SameName other name ∧ other ≠ name := by
  obtain ⟨front, back, rfl⟩ := List.append_of_mem member
  obtain ⟨d, different, same⟩ := exists_respelling letter
  refine ⟨front ++ d :: back, ?_, ?_⟩
  · simp only [SameName, fold, List.map_append, List.map_cons, same]
  · intro equal
    exact different (List.cons.inj (List.append_cancel_left equal)).1

theorem eq_of_sameName {one name : Text} (plain : ∀ c ∈ name, c.isAlpha = false) (same : SameName one name) :
    one = name := by
  induction name generalizing one with
  | nil => exact List.map_eq_nil_iff.mp same
  | cons c name ih =>
    cases one with
    | nil => cases same
    | cons d one =>
      obtain ⟨first, rest⟩ := List.cons.inj same
      obtain ⟨here, later⟩ := List.forall_mem_cons.mp plain
      rw [eq_of_toLower_eq here first, ih later rest]

theorem trimDot_concat (name : Text) : trimDot (name ++ ['.']) = name := by
  rw [trimDot, List.getLast?_concat, if_pos rfl, List.dropLast_concat]

theorem getLast?_fold (name : Text) : (fold name).getLast? = name.getLast?.map Char.toLower := List.getLast?_map

theorem SameName.trimDot {one other : Text} (same : SameName one other) :
    SameName (DomainNames.trimDot one) (DomainNames.trimDot other) := by
  have ends : ∀ name : Text, name.getLast? = some '.' ↔ (fold name).getLast? = some '.' := by
    intro name
    rw [getLast?_fold, Option.map_eq_some_iff]
    constructor
    · intro dotted
      exact ⟨'.', dotted, by decide⟩
    · rintro ⟨c, last, lowered⟩
      rw [last, eq_dot_of_toLower lowered]
  have dotted : one.getLast? = some '.' ↔ other.getLast? = some '.' := by
    rw [ends one, ends other, show fold one = fold other from same]
  have shorter : ∀ name : Text, fold name.dropLast = (fold name).dropLast := fun name => List.map_dropLast
  unfold DomainNames.trimDot
  by_cases dot : one.getLast? = some '.'
  · rw [if_pos dot, if_pos (dotted.mp dot), SameName, shorter, shorter, show fold one = fold other from same]
  · rw [if_neg dot, if_neg (mt dotted.mpr dot)]
    exact same

theorem suffix_of_sameName {zone name other : Text} (under : '.' :: zone <:+ name) (same : SameName other name) :
    ∃ zone', SameName zone' zone ∧ '.' :: zone' <:+ other := by
  obtain ⟨front, rfl⟩ := under
  have split : other.map Char.toLower = front.map Char.toLower ++ ('.' :: zone).map Char.toLower := by
    rw [← List.map_append]
    exact same
  obtain ⟨front', back, rfl, -, spelled⟩ := List.map_eq_append_iff.mp split
  cases back with
  | nil => cases spelled
  | cons c zone' =>
    obtain ⟨dot, zoned⟩ := List.cons.inj spelled
    obtain rfl : c = '.' := eq_dot_of_toLower dot
    exact ⟨zone', zoned, List.suffix_append ..⟩

/-! ### Lists that ignore case -/

/-- **The list covers every spelling of its entries**: those of a wildcard with wildcards, those of a name somehow. -/
def Respelled (exclusions : List Text) : Prop :=
  ∀ e ∈ entries exclusions,
    match e with
    | .wildcard zone => ∀ zone', SameName zone' zone →
        ∃ other, .wildcard other ∈ entries exclusions ∧ '.' :: other <:+ '.' :: zone'
    | .plain name => ∀ name', SameName name' name → ∃ e' ∈ entries exclusions, e'.Covers name'

theorem covers_wildcard (zone domain : Text) :
    (Exclusion.wildcard zone).Covers domain ↔ '.' :: zone <:+ '.' :: domain := by
  rw [List.suffix_cons_iff, List.cons.injEq, Exclusion.Covers, eq_comm]
  simp

def Exclusion.size : Exclusion → Nat
  | wildcard zone => zone.length
  | plain name => name.length

theorem exists_size_lt (list : List Exclusion) : ∃ bound, ∀ e ∈ list, e.size < bound := by
  induction list with
  | nil => exact ⟨0, fun e none => absurd none List.not_mem_nil⟩
  | cons e list ih =>
    obtain ⟨bound, below⟩ := ih
    refine ⟨max bound (e.size + 1), List.forall_mem_cons.mpr ⟨by omega, fun other member => ?_⟩⟩
    have := below other member
    omega

theorem exists_wildcard {list : List Exclusion} {zone : Text}
    (covered : ∀ label : Text, ∃ e ∈ list, e.Covers (label ++ '.' :: zone)) :
    ∃ other, .wildcard other ∈ list ∧ '.' :: other <:+ '.' :: zone := by
  obtain ⟨bound, below⟩ := exists_size_lt list
  obtain ⟨e, listed, covers⟩ := covered (List.replicate bound 'a')
  have long : bound ≤ (List.replicate bound 'a' ++ '.' :: zone).length := by
    rw [List.length_append, List.length_replicate]
    omega
  have small := below e listed
  cases e with
  | plain name =>
    rw [show List.replicate bound 'a' ++ '.' :: zone = name from covers] at long
    exact absurd small (Nat.not_lt.mpr long)
  | wildcard other =>
    refine ⟨other, listed, ?_⟩
    rcases covers with whole | under
    · rw [whole] at long
      exact absurd small (Nat.not_lt.mpr long)
    · -- a suffix that goes past the zone begins inside of the label, which has no dot
      rcases List.suffix_or_suffix_of_suffix under (List.suffix_append ..) with shorter | longer
      · exact shorter
      · obtain ⟨front, whole⟩ := longer
        cases front with
        | nil =>
          rw [← whole]
          exact List.suffix_refl _
        | cons c front =>
          obtain ⟨before, joined⟩ := under
          rw [← whole, ← List.append_assoc] at joined
          have label : before ++ c :: front = List.replicate bound 'a' := List.append_cancel_right joined
          have inside : c ∈ List.replicate bound 'a' := label ▸ List.mem_append_right _ List.mem_cons_self
          have dot : c = '.' := (List.cons.inj whole).1
          rw [dot] at inside
          exact absurd (List.eq_of_mem_replicate inside) (by decide)

/-- **The list ignores case exactly if it covers every spelling of its entries.** -/
theorem respelled_iff (exclusions : List Text) :
    (∀ d d', SameName d d' → matchDomain d exclusions = matchDomain d' exclusions) ↔ Respelled exclusions := by
  constructor
  · intro ignores
    -- every text is what is left of a name with a dot
    have moves : ∀ one other : Text, SameName other one → (∃ e ∈ entries exclusions, e.Covers one) →
        ∃ e ∈ entries exclusions, e.Covers other := by
      intro one other same covered
      have dotted : SameName (one ++ ['.']) (other ++ ['.']) := by
        simp only [SameName, fold, List.map_append]
        rw [show other.map Char.toLower = one.map Char.toLower from same]
      have answer := ignores _ _ dotted
      rw [Bool.eq_iff_iff, matchDomain_iff, matchDomain_iff, trimDot_concat, trimDot_concat] at answer
      exact answer.mp covered
    intro e listed
    cases e with
    | plain name =>
      intro name' same
      exact moves name name' same ⟨_, listed, rfl⟩
    | wildcard zone =>
      intro zone' same
      refine exists_wildcard fun label => moves (label ++ '.' :: zone) _ ?_ ⟨_, listed, .inr (List.suffix_append ..)⟩
      simp only [SameName, fold, List.map_append, List.map_cons]
      rw [show zone'.map Char.toLower = zone.map Char.toLower from same]
  · intro respelled
    have moves : ∀ d d' : Text, SameName d' d → matchDomain d exclusions = true →
        matchDomain d' exclusions = true := by
      intro d d' same matched
      have trimmed := same.trimDot
      rw [matchDomain_iff] at matched ⊢
      obtain ⟨e, listed, covers⟩ := matched
      have spelled := respelled e listed
      cases e with
      | plain name =>
        have equal : trimDot d = name := covers
        exact spelled _ (equal ▸ trimmed)
      | wildcard zone =>
        rcases covers with equal | under
        · obtain ⟨other, listed', under'⟩ := spelled _ (equal ▸ trimmed)
          exact ⟨_, listed', (covers_wildcard other _).mpr under'⟩
        · obtain ⟨zone', zoned, under'⟩ := suffix_of_sameName under trimmed
          obtain ⟨other, listed', under''⟩ := spelled zone' zoned
          exact ⟨_, listed', .inr (under''.trans under')⟩
    intro d d' same
    rw [Bool.eq_iff_iff]
    exact ⟨moves d d' same.symm, moves d' d same⟩

/-- **The block list ignores case exactly if it has every spelling of its names.** -/
theorem isBlocked_ignores_iff (a : AdBlocker) :
    (∀ d d', SameName d d' → a.isBlocked d = a.isBlocked d') ↔
      (a.ready = true → ∀ name ∈ a.domains, ∀ name', SameName name' name → name' ∈ a.domains) := by
  cases ready : a.ready with
  | false =>
    refine iff_of_true (fun d d' _ => ?_) fun no => by cases no
    simp [AdBlocker.isBlocked, ready]
  | true =>
    have answer : ∀ d, a.isBlocked d = true ↔ trimDot d ∈ a.domains := by
      intro d
      simp [AdBlocker.isBlocked, ready]
    constructor
    · intro ignores _ name listed name' same
      have dotted : SameName (name ++ ['.']) (name' ++ ['.']) := by
        simp only [SameName, fold, List.map_append]
        rw [show name'.map Char.toLower = name.map Char.toLower from same]
      have both := ignores _ _ dotted
      rw [Bool.eq_iff_iff, answer, answer, trimDot_concat, trimDot_concat] at both
      exact both.mp listed
    · intro closed d d' same
      rw [Bool.eq_iff_iff, answer, answer]
      have trimmed := same.trimDot
      exact ⟨fun listed => closed rfl _ listed _ trimmed.symm, fun listed => closed rfl _ listed _ trimmed⟩

/-! ### One wildcard -/

theorem trimSpace_wildcard (s : Text) :
    trimSpace ("*.".toList ++ s) = "*.".toList ++ s.rdropWhile isSpace := by
  have left : ("*.".toList ++ s).dropWhile isSpace = "*.".toList ++ s := rfl
  rw [trimSpace, left, List.rdropWhile, List.rdropWhile, List.reverse_append, List.dropWhile_append]
  split
  · next none =>
    rw [List.isEmpty_iff.mp none]
    rfl
  · rw [List.reverse_append, List.reverse_reverse]

theorem entries_wildcard (s : Text) :
    entries ["*.".toList ++ s] = [.wildcard (s.rdropWhile isSpace)] := by
  simp only [entries, List.filterMap_cons, List.filterMap_nil, parseExclusion, trimSpace_wildcard]
  rfl

theorem solid_rdropWhile (s : Text) : ∀ c ∈ (s.rdropWhile isSpace).getLast?, isSpace c = false := by
  intro c last
  obtain ⟨kept, rfl⟩ := List.mem_getLast?_eq_getLast last
  exact Bool.eq_false_iff.mpr (List.rdropWhile_last_not isSpace s kept)

theorem rdropWhile_of_solid {s : Text} (solid : ∀ c ∈ s.getLast?, isSpace c = false) :
    s.rdropWhile isSpace = s := by
  rw [List.rdropWhile_eq_self_iff]
  intro nonempty
  rw [solid _ (List.getLast?_eq_some_getLast nonempty)]
  decide

theorem length_of_sameName {one other : Text} (same : SameName one other) : one.length = other.length := by
  have lengths := congrArg List.length (show fold one = fold other from same)
  rwa [fold, fold, List.length_map, List.length_map] at lengths

theorem solid_of_suffix {s : Text} (under : '.' :: s.rdropWhile isSpace <:+ s) :
    ∀ c ∈ s.getLast?, isSpace c = false := by
  obtain ⟨front, joined⟩ := under
  intro c last
  rw [← joined, List.getLast?_append_of_ne_nil _ (List.cons_ne_nil _ _), List.getLast?_cons] at last
  cases kept : (s.rdropWhile isSpace).getLast? with
  | none =>
    rw [kept] at last
    cases last
    decide
  | some d =>
    rw [kept] at last
    cases last
    exact solid_rdropWhile s d kept

/-- **A wildcard covers the names that it reads as** exactly if there is no letter in it and no white space behind. -/
theorem wildcard_reads_iff (s : Text) :
    (∀ d, matchDomain d ["*.".toList ++ s] = true ↔
      SameName (trimDot d) s ∨ '.' :: fold s <:+ fold (trimDot d)) ↔
    (∀ c ∈ s, c.isAlpha = false) ∧ ∀ c ∈ s.getLast?, isSpace c = false := by
  have covers : ∀ d, matchDomain d ["*.".toList ++ s] = true ↔
      trimDot d = s.rdropWhile isSpace ∨ '.' :: s.rdropWhile isSpace <:+ trimDot d := by
    intro d
    rw [matchDomain_iff, entries_wildcard]
    simp [Exclusion.Covers]
  simp only [covers]
  constructor
  · intro reads
    -- the names that the text reads as are there, in every spelling
    have every : ∀ name : Text, SameName name s →
        name = s.rdropWhile isSpace ∨ '.' :: s.rdropWhile isSpace <:+ name := by
      intro name same
      have answer := (reads (name ++ ['.'])).mpr
      rw [trimDot_concat] at answer
      exact answer (.inl same)
    have solid : ∀ c ∈ s.getLast?, isSpace c = false := by
      rcases every s rfl with whole | under
      · have ends := solid_rdropWhile s
        rwa [← whole] at ends
      · exact solid_of_suffix under
    rw [rdropWhile_of_solid solid] at every
    refine ⟨fun c member => ?_, solid⟩
    by_contra letter
    obtain ⟨other, same, different⟩ := exists_other_spelling member (eq_true_of_ne_false letter)
    rcases every other same with equal | under
    · exact different equal
    · have lengths := under.length_le
      rw [length_of_sameName same, List.length_cons] at lengths
      omega
  · rintro ⟨plain, solid⟩ d
    rw [rdropWhile_of_solid solid]
    constructor
    · rintro (equal | under)
      · exact .inl (congrArg fold equal)
      · exact .inr (under.map Char.toLower)
    · rintro (same | ⟨front, joined⟩)
      · exact .inl (eq_of_sameName plain same)
      · obtain ⟨front', back, split, -, spelled⟩ := List.map_eq_append_iff.mp joined.symm
        have dotted : ∀ c ∈ '.' :: s, c.isAlpha = false := List.forall_mem_cons.mpr ⟨by decide, plain⟩
        have equal : back = '.' :: s := eq_of_sameName dotted spelled
        rw [split, equal]
        exact .inr (List.suffix_append ..)

/-! ### All decisions -/

/-- **The decisions ignore the case of letters** exactly if the exclusions cover every spelling of their entries, the
block list has every spelling of its names, and the name behind the wildcard has no letters and no white space after
it. -/
theorem ignores_case_iff (exclusions : List Text) (a : AdBlocker) (s : Text) :
    ((∀ d d', SameName d d' →
        matchDomain d exclusions = matchDomain d' exclusions ∧ a.isBlocked d = a.isBlocked d') ∧
      ∀ d, matchDomain d ["*.".toList ++ s] = true ↔
        SameName (trimDot d) s ∨ '.' :: fold s <:+ fold (trimDot d)) ↔
    Respelled exclusions ∧
      (a.ready = true → ∀ name ∈ a.domains, ∀ name', SameName name' name → name' ∈ a.domains) ∧
      (∀ c ∈ s, c.isAlpha = false) ∧ ∀ c ∈ s.getLast?, isSpace c = false := by
  rw [← respelled_iff, ← isBlocked_ignores_iff, ← wildcard_reads_iff, ← and_assoc]
  refine and_congr_left' ⟨fun both => ?_, fun ⟨matched, blocked⟩ d d' same => ⟨matched d d' same, blocked d d' same⟩⟩
  exact ⟨fun d d' same => (both d d' same).1, fun d d' same => (both d d' same).2⟩

/-- A query in mixed case, as resolvers send it: neither bypassed nor blocked. -/
theorem mixed_case_query :
    let a := AdBlocker.load ["# ads".toList, "0.0.0.0 ads.example.com".toList]
    SameName "eXAmple.com.".toList "example.com.".toList ∧
      matchDomain "example.com.".toList ["example.com".toList] = true ∧
      matchDomain "eXAmple.com.".toList ["example.com".toList] = false ∧
      SameName "ads.eXAmple.com.".toList "ads.example.com.".toList ∧
      a.isBlocked "ads.example.com.".toList = true ∧ a.isBlocked "ads.eXAmple.com.".toList = false ∧
      matchDomain "www.eXAmple.com.".toList ["*.example.com".toList] = false := by
  refine ⟨?_, ?_⟩
  · show fold _ = fold _
    decide +kernel
  · refine ⟨by decide +kernel, by decide +kernel, ?_, by decide +kernel, by decide +kernel, by decide +kernel⟩
    show fold _ = fold _
    decide +kernel

end Ttgo.Client.DomainNames

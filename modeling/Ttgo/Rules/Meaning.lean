/-
**What a list of rules means.**

The rules are read as they are written: the first one that matches a client decides, and a client that none matches
is let in.

* `RandomReads`, `Matches`, `Reads` — the reading of the texts.
* `matches_iff`, `allowed_eq_iff` — the compiled rules decide as the texts read.
* `randomReads_ones_iff` — a mask of ones is no mask.
-/

import Mathlib.Data.Nat.Bitwise
import Ttgo.Lib.GoHost
import Ttgo.Rules.Compile

namespace Ttgo.Rules

open Ttgo.Lib

/-! ### The reading -/

/-- The random is at least as long as `p`, and agrees with it on every bit that is set in `m`. -/
def Agrees (p m random : List UInt8) : Prop :=
  p.length ≤ random.length ∧ ∀ i bit, (m.getD i 0).toNat.testBit bit = true →
    (random.getD i 0).toNat.testBit bit = (p.getD i 0).toNat.testBit bit

inductive RandomReads (random : List UInt8) : Text → Prop
  | empty : RandomReads random []
  | plain {text : Text} {p : List UInt8} (clean : '/' ∉ text) (spelled : IsHex text p) (begins : p <+: random) :
      RandomReads random text
  | masked {front back : Text} {p m : List UInt8} (clean : '/' ∉ front) (spelled : IsHex front p)
      (spelledMask : IsHex back m) (agrees : Agrees p m random) : RandomReads random (front ++ '/' :: back)

def Matches (v : RuleView) (ip : IP) (random : List UInt8) : Prop :=
  (v.cidr = [] ∨ ∃ network, parseCIDR v.cidr = some network ∧ network.contains ip = true) ∧
    RandomReads random v.clientRandomPrefix

/-- **The reading of a list**: the action of the first rule that the client matches, or to let it in. -/
def Reads (views : List RuleView) (ip : IP) (random : List UInt8) (answer : Bool) : Prop :=
  (∃ before v after, views = before ++ v :: after ∧ (∀ w ∈ before, ¬ Matches w ip random) ∧
    Matches v ip random ∧ (answer = true ↔ v.action = "allow".toList)) ∨
  (∀ w ∈ views, ¬ Matches w ip random) ∧ answer = true

section Reads

variable {v : RuleView} {views : List RuleView} {ip : IP} {random : List UInt8} {answer : Bool}

theorem reads_nil : Reads [] ip random answer ↔ answer = true := by
  constructor
  · rintro (⟨before, v, after, split, -⟩ | ⟨-, default⟩)
    · simp at split
    · exact default
  · exact fun default => .inr ⟨fun _ none => (nomatch none), default⟩

theorem reads_cons_of_matches (fits : Matches v ip random) :
    Reads (v :: views) ip random answer ↔ (answer = true ↔ v.action = "allow".toList) := by
  constructor
  · rintro (⟨before, w, after, split, earlier, -, decides⟩ | ⟨none, -⟩)
    · cases before with
      | nil =>
        cases split
        exact decides
      | cons first before =>
        cases split
        exact absurd fits (earlier v List.mem_cons_self)
    · exact absurd fits (none v List.mem_cons_self)
  · exact fun decides => .inl ⟨[], v, views, rfl, fun _ none => (nomatch none), fits, decides⟩

theorem reads_cons_of_not_matches (other : ¬ Matches v ip random) :
    Reads (v :: views) ip random answer ↔ Reads views ip random answer := by
  constructor
  · rintro (⟨before, w, after, split, earlier, fits, decides⟩ | ⟨none, default⟩)
    · cases before with
      | nil =>
        cases split
        exact absurd fits other
      | cons first before =>
        cases split
        exact .inl ⟨before, w, after, rfl, fun x member => earlier x (List.mem_cons_of_mem _ member), fits,
          decides⟩
    · exact .inr ⟨fun w member => none w (List.mem_cons_of_mem _ member), default⟩
  · rintro (⟨before, w, after, rfl, earlier, fits, decides⟩ | ⟨none, default⟩)
    · exact .inl ⟨v :: before, w, after, rfl, List.forall_mem_cons.mpr ⟨other, earlier⟩, fits, decides⟩
    · exact .inr ⟨List.forall_mem_cons.mpr ⟨other, none⟩, default⟩

end Reads

/-! ### Bits -/

theorem and_eq_and_iff (a b m : UInt8) :
    a &&& m = b &&& m ↔ ∀ bit, m.toNat.testBit bit = true → a.toNat.testBit bit = b.toNat.testBit bit := by
  rw [← UInt8.toNat_inj, UInt8.toNat_and, UInt8.toNat_and]
  constructor
  · intro same bit set
    have here := congrArg (Nat.testBit · bit) same
    rwa [Nat.testBit_and, Nat.testBit_and, set, Bool.and_true, Bool.and_true] at here
  · intro same
    refine Nat.eq_of_testBit_eq fun bit => ?_
    rw [Nat.testBit_and, Nat.testBit_and]
    cases set : m.toNat.testBit bit with
    | false => rw [Bool.and_false, Bool.and_false]
    | true => rw [same bit set]

theorem maskBytes_eq_iff {p m random : List UInt8} (aligned : m.length = p.length)
    (long : p.length ≤ random.length) : maskBytes random m = maskBytes p m ↔ Agrees p m random := by
  rw [Agrees, and_iff_right long]
  induction p generalizing m random with
  | nil =>
    obtain rfl := List.eq_nil_of_length_eq_zero aligned
    simp [maskBytes]
  | cons b p ih =>
    cases m with
    | nil => cases aligned
    | cons c m =>
      cases random with
      | nil => cases long
      | cons a random =>
        have rest := ih (Nat.succ.inj aligned) (Nat.le_of_succ_le_succ long)
        unfold maskBytes at rest ⊢
        rw [List.zipWith_cons_cons, List.zipWith_cons_cons, List.cons.injEq, rest, and_eq_and_iff]
        constructor
        · rintro ⟨first, later⟩ i
          cases i with
          | zero => exact first
          | succ i => exact later i
        · intro all
          exact ⟨all 0, fun i => all (i + 1)⟩

theorem agrees_ones_iff {p random : List UInt8} :
    Agrees p (List.replicate p.length 255) random ↔ p <+: random := by
  by_cases long : p.length ≤ random.length
  · rw [← maskBytes_eq_iff List.length_replicate long, maskBytes_ones, maskBytes_ones, List.take_length,
      List.prefix_iff_eq_take, eq_comm]
  · exact ⟨fun agrees => absurd agrees.1 long, fun begins => absurd begins.length_le long⟩

/-! ### The two forms of a pattern -/

theorem randomReads_plain_iff {text : Text} {p random : List UInt8} (clean : '/' ∉ text)
    (spelled : IsHex text p) : RandomReads random text ↔ p <+: random := by
  constructor
  · intro reads
    cases reads with
    | empty =>
      obtain rfl := spelled.unique .nil
      exact List.nil_prefix
    | plain clean' spelled' begins => exact spelled.unique spelled' ▸ begins
    | masked => exact absurd (List.mem_append_right _ List.mem_cons_self) clean
  · exact .plain clean spelled

theorem randomReads_masked_iff {front back : Text} {p m random : List UInt8} (clean : '/' ∉ front)
    (spelled : IsHex front p) (spelledMask : IsHex back m) :
    RandomReads random (front ++ '/' :: back) ↔ Agrees p m random := by
  constructor
  · intro reads
    generalize joined : front ++ '/' :: back = text at reads
    cases reads with
    | empty => simp at joined
    | plain clean' => exact absurd (joined ▸ List.mem_append_right _ List.mem_cons_self) clean'
    | masked clean' spelled' spelledMask' agrees =>
      obtain ⟨rfl, rfl⟩ := parts_of_joined clean clean' joined
      rwa [spelled.unique spelled', spelledMask.unique spelledMask']
  · exact .masked clean spelled spelledMask

def withOnes (p : Text) : Text := p ++ '/' :: List.replicate p.length 'f'

theorem isHex_ones {p : Text} {bytes : List UInt8} (spelled : IsHex p bytes) :
    IsHex (List.replicate p.length 'f') (List.replicate bytes.length 255) :=
  spelled.length ▸ isHex_replicate_f bytes.length

theorem randomReads_ones_iff {p : Text} (clean : '/' ∉ p) (random : List UInt8) :
    RandomReads random (withOnes p) ↔ RandomReads random p := by
  by_cases hex : ∃ bytes, IsHex p bytes
  · obtain ⟨bytes, spelled⟩ := hex
    rw [withOnes, randomReads_masked_iff clean spelled (isHex_ones spelled), agrees_ones_iff,
      randomReads_plain_iff clean spelled]
  · constructor
    · intro reads
      generalize joined : withOnes p = text at reads
      cases reads with
      | empty => simp [withOnes] at joined
      | plain clean' => exact absurd (joined ▸ List.mem_append_right _ List.mem_cons_self) clean'
      | masked clean' spelled => exact absurd ⟨_, (parts_of_joined clean clean' joined).1 ▸ spelled⟩ hex
    · intro reads
      cases reads with
      | empty => exact absurd ⟨[], .nil⟩ hex
      | plain _ spelled => exact absurd ⟨_, spelled⟩ hex
      | masked => exact absurd (List.mem_append_right _ List.mem_cons_self) clean

theorem exists_compileRandom_plain_iff {p : Text} (clean : '/' ∉ p) :
    (∃ random, compileRandom p = .ok random) ↔ ∃ bytes, IsHex p bytes := by
  unfold compileRandom
  split
  · next empty =>
    rw [empty]
    exact ⟨fun _ => ⟨[], .nil⟩, fun _ => ⟨none, rfl⟩⟩
  · constructor
    · rintro ⟨random, accepted⟩
      cases parsed : parseClientRandom p with
      | error err =>
        rw [parsed] at accepted
        cases accepted
      | ok pattern => exact ⟨_, ((parseClientRandom_plain clean pattern).mp parsed).1⟩
    · rintro ⟨bytes, spelled⟩
      have unmasked : ∀ mask ∈ (none : Option (List UInt8)), mask.length = bytes.length := by
        rintro _ ⟨⟩
      rw [(parseClientRandom_plain clean ⟨bytes, none, unmasked⟩).mpr ⟨spelled, rfl⟩]
      exact ⟨_, rfl⟩

theorem exists_compileRandom_ones_iff {p : Text} (clean : '/' ∉ p) :
    (∃ random, compileRandom (withOnes p) = .ok random) ↔ ∃ bytes, IsHex p bytes := by
  unfold compileRandom
  rw [if_neg (by simp [withOnes])]
  constructor
  · rintro ⟨random, accepted⟩
    cases parsed : parseClientRandom (withOnes p) with
    | error err =>
      rw [parsed] at accepted
      cases accepted
    | ok pattern =>
      obtain ⟨mask, spelled, -⟩ := (parseClientRandom_masked clean pattern).mp parsed
      exact ⟨_, spelled⟩
  · rintro ⟨bytes, spelled⟩
    rw [withOnes, (parseClientRandom_masked clean ⟨bytes, some (List.replicate bytes.length 255),
      fun _ given => by cases given; exact List.length_replicate⟩).mpr ⟨_, spelled, isHex_ones spelled, rfl⟩]
    exact ⟨_, rfl⟩

/-! ### The compiled rules -/

variable {wide : Char → Bool}

theorem matchRandom_pattern {rule : Rule} {pattern : RandomPattern} (given : rule.random = some pattern)
    (random : List UInt8) : rule.matchRandom random = true ↔
      match pattern.mask with
      | none => pattern.bytes <+: random
      | some mask => Agrees pattern.bytes mask random := by
  unfold Rule.matchRandom
  simp only [given]
  by_cases long : pattern.bytes.length ≤ random.length
  · rw [if_neg (Nat.not_lt.mpr long)]
    cases masked : pattern.mask with
    | none =>
      dsimp only
      rw [decide_eq_true_iff, List.prefix_iff_eq_take, eq_comm]
    | some mask =>
      dsimp only
      rw [decide_eq_true_iff, maskBytes_eq_iff (pattern.aligned mask masked) long]
  · rw [if_pos (Nat.not_le.mp long)]
    cases pattern.mask with
    | none => exact iff_of_false Bool.false_ne_true fun begins => long begins.length_le
    | some mask => exact iff_of_false Bool.false_ne_true fun agrees => long agrees.1

theorem matchRandom_iff {text : Text} {rule : Rule} (compiled : compileRandom text = .ok rule.random)
    (random : List UInt8) : rule.matchRandom random = true ↔ RandomReads random text := by
  unfold compileRandom at compiled
  split at compiled
  · next empty =>
    have given : rule.random = none := (Except.ok.inj compiled).symm
    rw [empty, Rule.matchRandom, given]
    exact ⟨fun _ => .empty, fun _ => rfl⟩
  · cases parsed : parseClientRandom text with
    | error err =>
      rw [parsed] at compiled
      cases compiled
    | ok pattern =>
      rw [parsed] at compiled
      rw [matchRandom_pattern (Except.ok.inj compiled).symm]
      by_cases slash : '/' ∈ text
      · obtain ⟨front, back, rfl, clean⟩ := List.eq_append_cons_of_mem slash
        obtain ⟨mask, spelled, spelledMask, masked⟩ := (parseClientRandom_masked clean pattern).mp parsed
        rw [masked, randomReads_masked_iff clean spelled spelledMask]
      · obtain ⟨spelled, unmasked⟩ := (parseClientRandom_plain slash pattern).mp parsed
        rw [unmasked, randomReads_plain_iff slash spelled]

theorem matchIP_iff {cidr : Text} {rule : Rule} (compiled : compileCIDR wide cidr = .ok rule.network) (ip : IP) :
    rule.matchIP ip = true ↔
      (cidr = [] ∨ ∃ network, parseCIDR cidr = some network ∧ network.contains ip = true) := by
  unfold compileCIDR at compiled
  split at compiled
  · next empty =>
    rw [Rule.matchIP, ← Except.ok.inj compiled]
    exact ⟨fun _ => .inl empty, fun _ => rfl⟩
  · next filled =>
    split at compiled
    · cases compiled
    · next network parsed =>
      rw [Rule.matchIP, ← Except.ok.inj compiled, parsed]
      simp [filled]

/-- **A compiled rule matches the clients that its text names.** -/
theorem matches_iff (c : Compiled wide) (ip : IP) (random : List UInt8) :
    (c.rule.matchIP ip = true ∧ c.rule.matchRandom random = true) ↔ Matches c.view ip random := by
  obtain ⟨network, pattern, -⟩ := compile_eq_ok c.compiled
  rw [matchIP_iff network, matchRandom_iff pattern, Matches]

theorem action_eq_allow_iff (c : Compiled wide) : c.rule.action = .allow ↔ c.view.action = "allow".toList := by
  obtain ⟨-, -, action⟩ := compile_eq_ok c.compiled
  unfold compileAction at action
  split at action
  · next allows => exact ⟨fun _ => allows, fun _ => (Except.ok.inj action).symm⟩
  · next other =>
    split at action
    · rw [← Except.ok.inj action]
      exact ⟨fun impossible => (nomatch impossible), fun allows => absurd allows other⟩
    · cases action

/-- `Engine.Allow` on a list of rules. -/
def allowed (rules : List (Compiled wide)) (ip : IP) (random : List UInt8) : Bool :=
  allow (rules.map Compiled.rule) ip random

theorem allowed_eq_iff (rules : List (Compiled wide)) (ip : IP) (random : List UInt8) (answer : Bool) :
    allowed rules ip random = answer ↔ Reads (rules.map Compiled.view) ip random answer := by
  induction rules with
  | nil =>
    rw [List.map_nil, reads_nil, eq_comm]
    rfl
  | cons c rules ih =>
    unfold allowed at ih ⊢
    rw [List.map_cons, List.map_cons, allow]
    by_cases fits : Matches c.view ip random
    · obtain ⟨inNetwork, fitsRandom⟩ := (matches_iff c ip random).mpr fits
      rw [reads_cons_of_matches fits, inNetwork, fitsRandom, ← action_eq_allow_iff]
      cases answer <;> simp
    · rw [reads_cons_of_not_matches fits, ← ih]
      rw [← matches_iff c, not_and] at fits
      cases inNetwork : c.rule.matchIP ip with
      | false => rfl
      | true =>
        rw [Bool.eq_false_iff.mpr (fits inNetwork)]
        rfl

/-! ### Exchanging a rule -/

theorem reads_exchange {v w : RuleView} {ip : IP} {random : List UInt8} {answer : Bool} {after : List RuleView}
    (same : Matches v ip random ↔ Matches w ip random) (action : v.action = w.action) (before : List RuleView) :
    Reads (before ++ v :: after) ip random answer ↔ Reads (before ++ w :: after) ip random answer := by
  induction before with
  | nil =>
    by_cases fits : Matches v ip random
    · rw [List.nil_append, List.nil_append, reads_cons_of_matches fits, reads_cons_of_matches (same.mp fits), action]
    · rw [List.nil_append, List.nil_append, reads_cons_of_not_matches fits,
        reads_cons_of_not_matches fun other => fits (same.mpr other)]
  | cons first before ih =>
    by_cases fits : Matches first ip random
    · rw [List.cons_append, List.cons_append, reads_cons_of_matches fits, reads_cons_of_matches fits]
    · rw [List.cons_append, List.cons_append, reads_cons_of_not_matches fits, reads_cons_of_not_matches fits, ih]

theorem exists_compile_ones_iff {cidr p action : Text} (clean : '/' ∉ p) :
    (∃ rule, compile wide ⟨cidr, withOnes p, action⟩ = .ok rule) ↔
      ∃ rule, compile wide ⟨cidr, p, action⟩ = .ok rule := by
  constructor
  · rintro ⟨rule, compiled⟩
    obtain ⟨network, pattern, act⟩ := compile_eq_ok compiled
    obtain ⟨random, plain⟩ := (exists_compileRandom_plain_iff clean).mpr
      ((exists_compileRandom_ones_iff clean).mp ⟨_, pattern⟩)
    exact ⟨_, compile_eq_ok_of network plain act⟩
  · rintro ⟨rule, compiled⟩
    obtain ⟨network, pattern, act⟩ := compile_eq_ok compiled
    obtain ⟨random, masked⟩ := (exists_compileRandom_ones_iff clean).mpr
      ((exists_compileRandom_plain_iff clean).mp ⟨_, pattern⟩)
    exact ⟨_, compile_eq_ok_of network masked act⟩

theorem exists_compileViews_ones_iff {cidr p action : Text} (clean : '/' ∉ p) (before after : List RuleView) :
    (∃ rules, compileViews wide 0 (before ++ ⟨cidr, withOnes p, action⟩ :: after) = .ok rules) ↔
      ∃ rules, compileViews wide 0 (before ++ ⟨cidr, p, action⟩ :: after) = .ok rules := by
  simp only [exists_compileViews_iff, List.forall_mem_append, List.forall_mem_cons,
    exists_compile_ones_iff clean]

end Ttgo.Rules

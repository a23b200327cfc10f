/-
**From the text of a rule to a rule.**

`compile`, `parseClientRandom` and the loop of `Engine.Set` in `internal/rules/rules.go`, with the texts of their
errors.

* `RuleView` — a rule as the administrator writes it.
* `parseClientRandom`, `compile`; `Compiled` — a rule with the text that it was compiled from.
* `compileViews` — the loop of `Set`: all the rules, or the error of the first that is none.
* `saveRulesFile` — the text of `rules.toml`.
-/

import Ttgo.Lib.GoHex
import Ttgo.Rules.Engine

namespace Ttgo.Rules

open Ttgo.Lib

structure RuleView where
  cidr : Text
  clientRandomPrefix : Text
  action : Text
deriving DecidableEq, Repr

/-- `fmt.Errorf("…: %w", err)`. -/
def wrap {α : Type} (context : String) (result : Except Text α) : Except Text α :=
  result.mapError (context.toList ++ ·)

/-- `parseClientRandom`, of a text that is not empty: `aabbcc`, or `a0b0/f0f0` with a mask. -/
def parseClientRandom (s : Text) : Except Text RandomPattern :=
  match s.dropWhile (· ≠ '/') with
  | _ :: back =>
    match wrap "client_random_prefix hex: " (hexDecode (s.takeWhile (· ≠ '/'))) with
    | .error err => .error err
    | .ok bytes =>
      match wrap "client_random_prefix mask: " (hexDecode back) with
      | .error err => .error err
      | .ok mask =>
        if same : mask.length = bytes.length then
          .ok ⟨bytes, some mask, fun _ given => by cases given; exact same⟩
        else .error "client_random_prefix/mask length mismatch".toList
  | [] =>
    match wrap "client_random_prefix: " (hexDecode s) with
    | .error err => .error err
    | .ok bytes => .ok ⟨bytes, none, fun _ none => nomatch none⟩

/-- The network of a rule: none for an empty text. -/
def compileCIDR (wide : Char → Bool) (cidr : Text) : Except Text (Option IPNet) :=
  if cidr = [] then .ok none
  else
    match parseCIDR cidr with
    | none =>
      .error ("invalid cidr ".toList ++ quote wide cidr ++ ": invalid CIDR address: ".toList ++ cidr)
    | some network => .ok (some network)

/-- The pattern of a rule: none for an empty text. -/
def compileRandom (s : Text) : Except Text (Option RandomPattern) :=
  if s = [] then .ok none else (parseClientRandom s).map some

def compileAction (wide : Char → Bool) (action : Text) : Except Text Action :=
  if action = "allow".toList then .ok .allow
  else if action = "deny".toList then .ok .deny
  else .error ("invalid action ".toList ++ quote wide action)

def compile (wide : Char → Bool) (v : RuleView) : Except Text Rule :=
  match compileCIDR wide v.cidr with
  | .error err => .error err
  | .ok network =>
    match compileRandom v.clientRandomPrefix with
    | .error err => .error err
    | .ok random =>
      match compileAction wide v.action with
      | .error err => .error err
      | .ok action => .ok ⟨network, random, action⟩

/-- A rule with the text that it was compiled from. -/
structure Compiled (wide : Char → Bool) where
  view : RuleView
  rule : Rule
  compiled : compile wide view = .ok rule

variable {wide : Char → Bool}

/-- The loop of `Set`, from an index on. -/
def compileViews (wide : Char → Bool) : Nat → List RuleView → Except Text (List (Compiled wide))
  | _, [] => .ok []
  | index, v :: views =>
    match compiled : compile wide v with
    | .error err => .error ("rule ".toList ++ itoa index ++ ": ".toList ++ err)
    | .ok rule => (compileViews wide (index + 1) views).map (⟨v, rule, compiled⟩ :: ·)

def saveRulesFile (wide : Char → Bool) (views : List RuleView) : Text :=
  views.flatMap fun v =>
    "[[rule]]\n".toList ++
      (if v.cidr ≠ [] then "cidr = ".toList ++ quote wide v.cidr ++ "\n".toList else []) ++
      (if v.clientRandomPrefix ≠ [] then
        "client_random_prefix = ".toList ++ quote wide v.clientRandomPrefix ++ "\n".toList else []) ++
      "action = ".toList ++ quote wide v.action ++ "\n\n".toList

/-! ### What is accepted -/

theorem wrap_eq_ok {α : Type} (context : String) {result : Except Text α} {value : α} :
    wrap context result = .ok value ↔ result = .ok value := by
  cases result <;> simp [wrap, Except.mapError]

theorem cut_slash {front : Text} (clean : '/' ∉ front) (back : Text) :
    (front ++ '/' :: back).takeWhile (· ≠ '/') = front ∧
      (front ++ '/' :: back).dropWhile (· ≠ '/') = '/' :: back := by
  have other : ∀ c ∈ front, decide (c ≠ '/') = true := by
    intro c member
    refine decide_eq_true ?_
    rintro rfl
    exact clean member
  rw [List.takeWhile_append_of_pos other, List.dropWhile_append_of_pos other]
  exact ⟨List.append_nil front, rfl⟩

/-- **A pattern with a mask**: two texts of hexadecimal bytes, equally long. -/
theorem parseClientRandom_masked {front back : Text} (clean : '/' ∉ front) (pattern : RandomPattern) :
    parseClientRandom (front ++ '/' :: back) = .ok pattern ↔
      ∃ mask, IsHex front pattern.bytes ∧ IsHex back mask ∧ pattern.mask = some mask := by
  obtain ⟨before, after⟩ := cut_slash clean back
  unfold parseClientRandom
  rw [before, after]
  constructor
  · intro parsed
    dsimp only at parsed
    split at parsed
    · cases parsed
    next bytes one =>
    split at parsed
    · cases parsed
    next mask two =>
    split at parsed
    · cases parsed
      rw [wrap_eq_ok, hexDecode_eq_ok_iff] at one two
      exact ⟨mask, one, two, rfl⟩
    · cases parsed
  · obtain ⟨bytes, given, aligned⟩ := pattern
    rintro ⟨mask, one, two, rfl⟩
    have one' := (wrap_eq_ok "client_random_prefix hex: ").mpr (hexDecode_eq_ok_iff.mpr one)
    have two' := (wrap_eq_ok "client_random_prefix mask: ").mpr (hexDecode_eq_ok_iff.mpr two)
    simp only [one', two', aligned mask rfl, dite_true]

theorem parseClientRandom_plain {s : Text} (clean : '/' ∉ s) (pattern : RandomPattern) :
    parseClientRandom s = .ok pattern ↔ IsHex s pattern.bytes ∧ pattern.mask = none := by
  have uncut : s.dropWhile (· ≠ '/') = [] :=
    List.dropWhile_eq_nil_iff.mpr fun c member => decide_eq_true fun same => clean (same ▸ member)
  unfold parseClientRandom
  rw [uncut]
  constructor
  · intro parsed
    dsimp only at parsed
    split at parsed
    · cases parsed
    next bytes one =>
    cases parsed
    rw [wrap_eq_ok, hexDecode_eq_ok_iff] at one
    exact ⟨one, rfl⟩
  · obtain ⟨bytes, given, aligned⟩ := pattern
    rintro ⟨one, rfl⟩
    have one' := (wrap_eq_ok "client_random_prefix: ").mpr (hexDecode_eq_ok_iff.mpr one)
    simp only [one']

theorem compile_eq_ok {v : RuleView} {rule : Rule} (compiled : compile wide v = .ok rule) :
    compileCIDR wide v.cidr = .ok rule.network ∧ compileRandom v.clientRandomPrefix = .ok rule.random ∧
      compileAction wide v.action = .ok rule.action := by
  unfold compile at compiled
  split at compiled
  · cases compiled
  next network one =>
  split at compiled
  · cases compiled
  next random two =>
  split at compiled
  · cases compiled
  next action three =>
  cases compiled
  exact ⟨one, two, three⟩

theorem compile_eq_ok_of {v : RuleView} {network : Option IPNet} {random : Option RandomPattern}
    {action : Action} (one : compileCIDR wide v.cidr = .ok network)
    (two : compileRandom v.clientRandomPrefix = .ok random) (three : compileAction wide v.action = .ok action) :
    compile wide v = .ok ⟨network, random, action⟩ := by
  simp only [compile, one, two, three]

theorem compileViews_cons_eq_ok {v : RuleView} {views : List RuleView} {index : Nat}
    {rules : List (Compiled wide)} :
    compileViews wide index (v :: views) = .ok rules ↔
      ∃ rule compiled rest, compileViews wide (index + 1) views = .ok rest ∧
        rules = ⟨v, rule, compiled⟩ :: rest := by
  rw [compileViews]
  split
  · next err failed =>
    constructor
    · intro accepted
      cases accepted
    · rintro ⟨rule, compiled, -⟩
      rw [failed] at compiled
      cases compiled
  · next rule compiled =>
    constructor
    · intro accepted
      cases later : compileViews wide (index + 1) views with
      | error err =>
        rw [later] at accepted
        cases accepted
      | ok rest =>
        rw [later] at accepted
        cases accepted
        exact ⟨rule, compiled, rest, rfl, rfl⟩
    · rintro ⟨rule', compiled', rest, later, rfl⟩
      obtain rfl := Except.ok.inj (compiled.symm.trans compiled')
      rw [later]
      rfl

theorem map_view_compileViews {views : List RuleView} {index : Nat} {rules : List (Compiled wide)}
    (accepted : compileViews wide index views = .ok rules) : rules.map Compiled.view = views := by
  induction views generalizing index rules with
  | nil =>
    cases accepted
    rfl
  | cons v views ih =>
    obtain ⟨rule, compiled, rest, later, rfl⟩ := compileViews_cons_eq_ok.mp accepted
    rw [List.map_cons, ih later]

theorem exists_compileViews_iff {views : List RuleView} {index : Nat} :
    (∃ rules, compileViews wide index views = .ok rules) ↔ ∀ v ∈ views, ∃ rule, compile wide v = .ok rule := by
  induction views generalizing index with
  | nil => exact ⟨fun _ _ none => (nomatch none), fun _ => ⟨[], rfl⟩⟩
  | cons v views ih =>
    rw [List.forall_mem_cons, ← @ih (index + 1)]
    constructor
    · rintro ⟨rules, accepted⟩
      obtain ⟨rule, compiled, rest, later, -⟩ := compileViews_cons_eq_ok.mp accepted
      exact ⟨⟨rule, compiled⟩, rest, later⟩
    · rintro ⟨⟨rule, compiled⟩, rest, later⟩
      exact ⟨_, compileViews_cons_eq_ok.mpr ⟨rule, compiled, rest, later, rfl⟩⟩

end Ttgo.Rules

/-
**`Allow` beside `Set`.**

`Allow` takes the list of rules under the lock, and scans it without; `Set` compiles a new list beside, and puts it
in the place of the old one in one step.

* `Sys`, `Event`, `step` — any number of `Allow` and `Set` calls.
* `Scanned`, `scanned_run` — an `Allow` answers for a list that was in force at a moment of the call.
* `Complete`, `complete_run` — the list in force is the whole list of a `Set` call, or the first one.
* `rules_meaning` — what a list of rules means, in every run.
-/

import Ttgo.Lib.Run
import Ttgo.Rules.Meaning

namespace Ttgo.Rules.Serving

open Ttgo.Lib

inductive SetPhase (wide : Char → Bool)
  /-- It has compiled the rules; before `mu.Lock`. -/
  | replacing (rules : List (Compiled wide))
  | saving
  | returned (err : Option Text)

structure SetCall (wide : Char → Bool) where
  views : List RuleView
  phase : SetPhase wide

/-- An `Allow` call: the step it takes next. -/
inductive AllowPhase (wide : Char → Bool)
  /-- Before `mu.RLock`. -/
  | called
  /-- The rules of its list that are left. -/
  | scanning (left : List (Compiled wide))
  | returned (answer : Bool)

structure AllowCall (wide : Char → Bool) where
  ip : IP
  random : List UInt8
  phase : AllowPhase wide

structure Sys (wide : Char → Bool) where
  rules : List (Compiled wide)
  path : Text
  /-- The text of `rules.toml`, once `Set` has written it. -/
  file : Option Text
  sets : List (SetCall wide)
  calls : List (AllowCall wide)

variable {wide : Char → Bool}

/-- The engine after `LoadFile`. -/
def Sys.initial (rules : List (Compiled wide)) (path : Text) : Sys wide := ⟨rules, path, none, [], []⟩

/-- The texts of the rules in force: `Snapshot`. -/
def Sys.views (s : Sys wide) : List RuleView := s.rules.map Compiled.view

inductive Event
  /-- `Set` is called, and compiles. -/
  | set (views : List RuleView)
  /-- A `Set` call puts its list in place. -/
  | replace (index : Nat)
  /-- A `Set` call writes the file, or fails. -/
  | save (index : Nat) (err : Option Text)
  | allow (ip : IP) (random : List UInt8)
  /-- The next step of an `Allow` call. -/
  | advance (index : Nat)
deriving DecidableEq, Repr

def AllowCall.advance (rules : List (Compiled wide)) (call : AllowCall wide) : Option (AllowPhase wide) :=
  match call.phase with
  | .called => some (.scanning rules)
  | .scanning [] => some (.returned true)
  | .scanning (r :: rest) =>
    if !r.rule.matchIP call.ip then some (.scanning rest)
    else if !r.rule.matchRandom call.random then some (.scanning rest)
    else some (.returned (r.rule.action = .allow))
  | .returned _ => none

def step (s : Sys wide) : Event → Option (Sys wide)
  | .set views =>
    match compileViews wide 0 views with
    | .error err => some { s with sets := s.sets ++ [⟨views, .returned (some err)⟩] }
    | .ok rules => some { s with sets := s.sets ++ [⟨views, .replacing rules⟩] }
  | .replace index =>
    match s.sets[index]? with
    | some ⟨views, .replacing rules⟩ =>
      let phase := if s.path = [] then .returned none else .saving
      some { s with rules, sets := s.sets.set index ⟨views, phase⟩ }
    | _ => none
  | .save index err =>
    match s.sets[index]? with
    | some ⟨views, .saving⟩ =>
      some { s with
        file := if err.isNone then some (saveRulesFile wide views) else s.file
        sets := s.sets.set index ⟨views, .returned err⟩ }
    | _ => none
  | .allow ip random => some { s with calls := s.calls ++ [⟨ip, random, .called⟩] }
  | .advance index => do
    let call ← s.calls[index]?
    let phase ← call.advance s.rules
    return { s with calls := s.calls.set index { call with phase } }

/-- **One step**, inverted. -/
inductive Stepped (s : Sys wide) : Event → Sys wide → Prop
  | rejects (views : List RuleView) (err : Text) :
      Stepped s (.set views) { s with sets := s.sets ++ [⟨views, .returned (some err)⟩] }
  | accepts (views : List RuleView) (rules : List (Compiled wide))
      (accepted : compileViews wide 0 views = .ok rules) :
      Stepped s (.set views) { s with sets := s.sets ++ [⟨views, .replacing rules⟩] }
  | replace (index : Nat) (views : List RuleView) (rules : List (Compiled wide)) (phase : SetPhase wide)
      (stood : s.sets[index]? = some ⟨views, .replacing rules⟩) (past : ∀ rules, phase ≠ .replacing rules) :
      Stepped s (.replace index) { s with rules, sets := s.sets.set index ⟨views, phase⟩ }
  | save (index : Nat) (views : List RuleView) (err file : Option Text)
      (stood : s.sets[index]? = some ⟨views, .saving⟩) :
      Stepped s (.save index err) { s with file, sets := s.sets.set index ⟨views, .returned err⟩ }
  | allow (ip : IP) (random : List UInt8) :
      Stepped s (.allow ip random) { s with calls := s.calls ++ [⟨ip, random, .called⟩] }
  | advance (index : Nat) (call : AllowCall wide) (phase : AllowPhase wide)
      (stood : s.calls[index]? = some call) (advances : call.advance s.rules = some phase) :
      Stepped s (.advance index) { s with calls := s.calls.set index { call with phase } }

variable {s next : Sys wide} {event : Event}

theorem stepped_of_step (taken : step s event = some next) : Stepped s event next := by
  cases event with
  | set views =>
    simp only [step] at taken
    split at taken
    · cases taken
      exact .rejects views _
    · next rules accepted =>
      cases taken
      exact .accepts views rules accepted
  | replace index =>
    simp only [step] at taken
    split at taken
    · next views rules stood =>
      cases taken
      refine .replace index views rules _ stood ?_
      split <;> exact nofun
    · cases taken
  | save index err =>
    simp only [step] at taken
    split at taken
    · next views stood =>
      cases taken
      exact .save index views err _ stood
    · cases taken
  | allow ip random =>
    cases taken
    exact .allow ip random
  | advance index =>
    simp only [step, Option.bind_eq_bind, Option.bind_eq_some_iff, Option.pure_def, Option.some.injEq] at taken
    obtain ⟨call, stood, phase, advances, rfl⟩ := taken
    exact .advance index call phase stood advances

/-! ### The lists -/

/-- **The list in force is complete**: it is the first one, or that of a `Set` call. So is every list that waits. -/
structure Complete (start : List RuleView) (s : Sys wide) : Prop where
  inForce : s.views = start ∨ ∃ set ∈ s.sets, s.views = set.views
  waiting : ∀ set ∈ s.sets, ∀ rules, set.phase = .replacing rules → rules.map Compiled.view = set.views

variable {start : List RuleView}

theorem complete_step (complete : Complete start s) (taken : step s event = some next) : Complete start next := by
  -- the texts of a call stay, whatever its phase
  have kept : ∀ {index : Nat} {views : List RuleView} {stood : SetCall wide} (phase : SetPhase wide),
      s.sets[index]? = some stood → stood.views = views → ∀ set ∈ s.sets,
        ∃ after ∈ s.sets.set index ⟨views, phase⟩, after.views = set.views := by
    rintro index views stood phase found rfl set member
    obtain ⟨place, here⟩ := List.getElem?_of_mem member
    by_cases own : index = place
    · subst own
      rw [found] at here
      cases here
      exact ⟨_, List.mem_of_getElem? (List.getElem?_set_self (List.getElem?_eq_some_iff.mp found).1), rfl⟩
    · exact ⟨set, List.mem_of_getElem? ((List.getElem?_set_ne own).trans here), rfl⟩
  cases stepped_of_step taken with
  | rejects views err =>
    refine ⟨complete.inForce.imp_right fun ⟨set, member, same⟩ => ⟨set, List.mem_append_left _ member, same⟩, ?_⟩
    intro set member rules replacing
    rcases List.mem_append.mp member with before | here
    · exact complete.waiting set before rules replacing
    · obtain rfl := List.mem_singleton.mp here
      cases replacing
  | accepts views rules accepted =>
    refine ⟨complete.inForce.imp_right fun ⟨set, member, same⟩ => ⟨set, List.mem_append_left _ member, same⟩, ?_⟩
    intro set member rules' replacing
    rcases List.mem_append.mp member with before | here
    · exact complete.waiting set before rules' replacing
    · obtain rfl := List.mem_singleton.mp here
      cases replacing
      exact map_view_compileViews accepted
  | replace index views rules phase stood past =>
    refine ⟨.inr ⟨⟨views, phase⟩, ?_, complete.waiting _ (List.mem_of_getElem? stood) rules rfl⟩, ?_⟩
    · exact List.mem_of_getElem? (List.getElem?_set_self (List.getElem?_eq_some_iff.mp stood).1)
    · intro set member rules' replacing
      rcases List.mem_or_eq_of_mem_set member with before | rfl
      · exact complete.waiting set before rules' replacing
      · exact absurd replacing (past rules')
  | save index views err file stood =>
    refine ⟨complete.inForce.imp_right ?_, ?_⟩
    · rintro ⟨set, member, same⟩
      obtain ⟨after, inside, texts⟩ := kept (.returned err) stood rfl set member
      exact ⟨after, inside, same.trans texts.symm⟩
    · intro set member rules' replacing
      rcases List.mem_or_eq_of_mem_set member with before | rfl
      · exact complete.waiting set before rules' replacing
      · cases replacing
  | allow | advance => exact ⟨complete.inForce, complete.waiting⟩

theorem complete_run {rules : List (Compiled wide)} {path : Text} {events : List Event}
    (reached : run step (.initial rules path) events = some s) :
    Complete (rules.map Compiled.view) s := by
  have first : Complete (rules.map Compiled.view) (.initial rules path) :=
    ⟨.inl rfl, fun _ none => by cases none⟩
  exact run_invariant' (fun _ _ _ complete taken => complete_step complete taken) first reached

/-! ### A scan -/

def Moment (s : Sys wide) (events : List Event) (m : Sys wide) : Prop :=
  ∃ front back, events = front ++ back ∧ run step s front = some m

/-- The scan answers for the rules of a state. -/
def AllowPhase.AnswersFor (phase : AllowPhase wide) (rules : List (Compiled wide)) (ip : IP)
    (random : List UInt8) : Prop :=
  match phase with
  | .called => False
  | .scanning left => allowed left ip random = allowed rules ip random
  | .returned answer => answer = allowed rules ip random

/-- **An `Allow` call**: it has not begun, or answers for the rules that were in force at a moment of the call. -/
def Scanned (called : Sys wide) (index : Nat) (ip : IP) (random : List UInt8) (events : List Event)
    (s : Sys wide) : Prop :=
  ∃ phase, s.calls[index]? = some ⟨ip, random, phase⟩ ∧
    (phase = .called ∨ ∃ m, Moment called events m ∧ phase.AnswersFor m.rules ip random)

theorem answersFor_advance {call : AllowCall wide} {phase : AllowPhase wide}
    {rules inForce : List (Compiled wide)} (answers : call.phase.AnswersFor rules call.ip call.random)
    (advances : call.advance inForce = some phase) : phase.AnswersFor rules call.ip call.random := by
  obtain ⟨ip, random, stood⟩ := call
  cases stood with
  | called => exact absurd answers id
  | returned answer => cases advances
  | scanning left =>
    have same : allowed left ip random = allowed rules ip random := answers
    cases left with
    | nil =>
      cases advances
      exact same
    | cons r rest =>
      simp only [AllowCall.advance] at advances
      rw [allowed, List.map_cons, allow] at same
      split at advances
      · next outside =>
        cases advances
        rw [if_pos outside] at same
        exact same
      · next inside =>
        rw [if_neg inside] at same
        split at advances
        · next unlike =>
          cases advances
          rw [if_pos unlike] at same
          exact same
        · next alike =>
          cases advances
          rw [if_neg alike] at same
          exact same

theorem scanned_run {called : Sys wide} {index : Nat} {ip : IP} {random : List UInt8} {events : List Event}
    (begins : called.calls[index]? = some ⟨ip, random, .called⟩) (ran : run step called events = some s) :
    Scanned called index ip random events s := by
  have kept : ∀ events middle event next, run step called events = some middle →
      Scanned called index ip random events middle → step middle event = some next →
      Scanned called index ip random (events ++ [event]) next := by
    rintro events middle event next halfway ⟨phase, stands, scans⟩ taken
    -- the moments of a part of the call are moments of the call
    have later : ∀ m, Moment called events m → Moment called (events ++ [event]) m := by
      rintro m ⟨front, back, rfl, reached⟩
      exact ⟨front, back ++ [event], List.append_assoc .., reached⟩
    have scans' : phase = .called ∨
        ∃ m, Moment called (events ++ [event]) m ∧ phase.AnswersFor m.rules ip random :=
      scans.imp_right fun ⟨m, moment, answers⟩ => ⟨m, later m moment, answers⟩
    cases stepped_of_step taken with
    | rejects | accepts | replace | save => exact ⟨phase, stands, scans'⟩
    | allow ip' random' =>
      refine ⟨phase, ?_, scans'⟩
      rw [List.getElem?_append_left (List.getElem?_eq_some_iff.mp stands).1, stands]
    | advance place call phase' stood advances =>
      by_cases own : place = index
      · subst own
        rw [stands] at stood
        cases stood
        refine ⟨phase', List.getElem?_set_self (List.getElem?_eq_some_iff.mp stands).1, .inr ?_⟩
        rcases scans with rfl | ⟨m, moment, answers⟩
        · cases advances
          exact ⟨middle, ⟨events, _, rfl, halfway⟩, rfl⟩
        · exact ⟨m, later m moment, answersFor_advance answers advances⟩
      · exact ⟨phase, (List.getElem?_set_ne own).trans stands, scans'⟩
  have first : Scanned called index ip random [] called := ⟨.called, begins, .inl rfl⟩
  have whole := run_history kept first ran
  exact whole

/-! ### The meaning -/

/-- **What a list of rules means.** For every list that `Set` accepts, `Allow` answers as the texts read. A pattern and
the same pattern with a mask of ones may be exchanged. In every run, the list in force is the whole list of a `Set`
call or the first one, and every `Allow` call answers as a list reads that was in force during the call. -/
theorem rules_meaning (wide : Char → Bool) :
    (∀ views (rules : List (Compiled wide)), compileViews wide 0 views = .ok rules →
      ∀ ip random answer, allowed rules ip random = answer ↔ Reads views ip random answer) ∧
    (∀ before after cidr p action, '/' ∉ p →
      ((∃ rules, compileViews wide 0 (before ++ ⟨cidr, withOnes p, action⟩ :: after) = .ok rules) ↔
        ∃ rules, compileViews wide 0 (before ++ ⟨cidr, p, action⟩ :: after) = .ok rules) ∧
      ∀ masked plain, compileViews wide 0 (before ++ ⟨cidr, withOnes p, action⟩ :: after) = .ok masked →
        compileViews wide 0 (before ++ ⟨cidr, p, action⟩ :: after) = .ok plain →
        ∀ ip random, allowed masked ip random = allowed plain ip random) ∧
    ∀ (rules : List (Compiled wide)) path events (s : Sys wide),
      run step (.initial rules path) events = some s →
        (s.views = rules.map Compiled.view ∨ ∃ set ∈ s.sets, s.views = set.views) ∧
        ∀ ip random during called final answer, step s (.allow ip random) = some called →
          run step called during = some final →
          final.calls[s.calls.length]? = some ⟨ip, random, .returned answer⟩ →
            ∃ m, Moment called during m ∧ Reads m.views ip random answer := by
  have reading : ∀ {views} {rules : List (Compiled wide)}, compileViews wide 0 views = .ok rules →
      ∀ ip random answer, allowed rules ip random = answer ↔ Reads views ip random answer := by
    intro views rules accepted ip random answer
    rw [allowed_eq_iff, map_view_compileViews accepted]
  refine ⟨fun _ _ accepted => reading accepted, ?_, ?_⟩
  · intro before after cidr p action clean
    refine ⟨exists_compileViews_ones_iff clean before after, ?_⟩
    intro masked plain acceptedMasked acceptedPlain ip random
    have same : Matches ⟨cidr, withOnes p, action⟩ ip random ↔ Matches ⟨cidr, p, action⟩ ip random := by
      rw [Matches, Matches, randomReads_ones_iff clean]
    rw [reading acceptedMasked]
    exact (reads_exchange same rfl before).mpr ((reading acceptedPlain ip random _).mp rfl)
  · intro rules path events s reached
    refine ⟨(complete_run reached).inForce, ?_⟩
    intro ip random during called final answer calls ran returned
    cases calls
    obtain ⟨phase, stands, scans⟩ := scanned_run List.getElem?_concat_length ran
    rw [returned] at stands
    cases stands
    rcases scans with impossible | ⟨m, moment, answers⟩
    · cases impossible
    · exact ⟨m, moment, (allowed_eq_iff m.rules ip random answer).mp answers.symm⟩

/-- Clients of a network, unless their random begins with `dead`. -/
def twoRules : List RuleView :=
  [⟨[], "dead".toList, "deny".toList⟩, ⟨"192.0.2.0/24".toList, [], "allow".toList⟩, ⟨[], [], "deny".toList⟩]

/-- `192.0.2.7`. -/
def insider : IP := [192, 0, 2, 7]

/-- Replacing the rules while an `Allow` call is in its scan. -/
def replaced : List Event :=
  [.advance 0, .advance 0, .set [⟨[], [], "deny".toList⟩], .replace 0, .advance 0]

theorem rules_meaning_twoRules :
    ∃ (rules : List (Compiled fun _ => false)) (called final : Sys fun _ => false),
      compileViews (fun _ => false) 0 twoRules = .ok rules ∧
      Reads twoRules insider [0xde, 0xad, 7] false ∧
      step (.initial rules []) (.allow insider [1]) = some called ∧
      run step called replaced = some final ∧ final.views = [⟨[], [], "deny".toList⟩] ∧
      ∃ m, Moment called replaced m ∧ Reads m.views insider [1] true :=
  ⟨_, _, _, rfl,
    ((rules_meaning fun _ => false).1 twoRules _ rfl insider [0xde, 0xad, 7] false).mp (by decide +kernel),
    rfl, rfl, rfl, ((rules_meaning fun _ => false).2.2 _ [] [] _ rfl).2 insider [1] replaced _ _ true rfl rfl rfl⟩

end Ttgo.Rules.Serving

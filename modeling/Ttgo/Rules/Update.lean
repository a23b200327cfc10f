/-
**`Set`: the rules in force and the rules in the file.**

`Set` puts the new list in place and writes the file after that, without the lock.

* `run_setEvents` — a call of `Set` with nothing beside it is a run of the system.
* `set_unchanged_iff` — a call that fails leaves the rules, unless it is the write that fails.
* `Sys.InStep` — the file has the list that is in force; `settled_step_iff` — when it has after a step.
* `settled_iff` — the exact condition on runs: the call that writes last is the one whose list is in force.
-/

import Ttgo.Rules.File
import Ttgo.Rules.Serving

namespace Ttgo.Rules

open Ttgo.Lib Serving

variable {wide : Char → Bool}

/-! ### One call -/

def Serving.Sys.engine (s : Sys wide) : Engine wide := ⟨s.rules, s.path⟩

/-- The events of a call of `Set` that nothing comes between. -/
def setEvents (s : Sys wide) (views : List RuleView) (fault : Option Text) : List Event :=
  match compileViews wide 0 views with
  | .error _ => [.set views]
  | .ok _ =>
    if s.path = [] then [.set views, .replace s.sets.length]
    else [.set views, .replace s.sets.length, .save s.sets.length fault]

theorem getElem?_called (sets : List (SetCall wide)) (call : SetCall wide) :
    (sets ++ [call])[sets.length]? = some call := List.getElem?_concat_length

theorem set_called (sets : List (SetCall wide)) (call after : SetCall wide) :
    (sets ++ [call]).set sets.length after = sets ++ [after] := by
  rw [List.set_append_right _ _ (le_refl _), Nat.sub_self]
  rfl

/-- **A call of `Set`** with nothing beside it is a run of the system. -/
theorem run_setEvents (s : Sys wide) (views : List RuleView) (fault : Option Text) :
    ∃ next, run step s (setEvents s views fault) = some next ∧
      next.engine = (s.engine.set views fault).engine ∧
      next.sets = s.sets ++ [⟨views, .returned (s.engine.set views fault).err⟩] ∧
      next.file = ((s.engine.set views fault).written).or s.file := by
  cases compiled : compileViews wide 0 views with
  | error err =>
    refine ⟨{ s with sets := s.sets ++ [⟨views, .returned (some err)⟩] }, ?_, ?_⟩
    · simp only [setEvents, compiled, run_cons, step, Option.bind_some, run_nil]
    · simp [Sys.engine, Engine.set, compiled]
  | ok rules =>
    by_cases unnamed : s.path = []
    · refine ⟨{ s with rules, sets := s.sets ++ [⟨views, .returned none⟩] }, ?_, ?_⟩
      · simp only [setEvents, compiled, unnamed, if_true, run_cons, step, getElem?_called, set_called,
          Option.bind_some, run_nil]
      · simp [Sys.engine, Engine.set, compiled, unnamed]
    · refine ⟨{ s with
          rules
          file := if fault.isNone then some (saveRulesFile wide views) else s.file
          sets := s.sets ++ [⟨views, .returned fault⟩] }, ?_, ?_⟩
      · simp only [setEvents, compiled, unnamed, if_false, run_cons, step, getElem?_called, set_called,
          Option.bind_some, run_nil]
      · cases fault with
        | none => simp [Sys.engine, Engine.set, compiled, unnamed]
        | some err => simp [Sys.engine, Engine.set, compiled, unnamed]

theorem allow_of_snapshot {e e' : Engine wide} (same : e.snapshot = e'.snapshot) (ip : IP) (random : List UInt8) :
    e.allow ip random = e'.allow ip random := by
  have reads : Reads e'.snapshot ip random (e'.allow ip random) := (allowed_eq_iff e'.rules ip random _).mp rfl
  rw [← same] at reads
  exact (allowed_eq_iff e.rules ip random _).mpr reads

/-- **A call that fails changes nothing**, unless every rule compiles, the write of the file fails, and the list is
another than the one in force. -/
theorem set_unchanged_iff (e : Engine wide) (views : List RuleView) (fault : Option Text) :
    ((e.set views fault).err ≠ none →
      (e.set views fault).engine.snapshot = e.snapshot ∧
      ∀ ip random, (e.set views fault).engine.allow ip random = e.allow ip random) ↔
    (e.path ≠ [] → fault ≠ none → (∀ v ∈ views, ∃ rule, compile wide v = .ok rule) → views = e.snapshot) := by
  rw [← @exists_compileViews_iff wide views 0]
  cases compiled : compileViews wide 0 views with
  | error err =>
    have outcome : e.set views fault = ⟨some err, e, none⟩ := by simp only [Engine.set, compiled]
    rw [outcome]
    refine ⟨fun _ _ _ accepted => ?_, fun _ _ => ⟨rfl, fun _ _ => rfl⟩⟩
    obtain ⟨rules, accepted⟩ := accepted
    cases accepted
  | ok rules =>
    have replaced : (e.set views fault).engine.snapshot = views := by
      have same : rules.map Compiled.view = views := map_view_compileViews compiled
      simp only [Engine.set, compiled]
      split
      · exact same
      split <;> exact same
    have failed : (e.set views fault).err ≠ none ↔ e.path ≠ [] ∧ fault ≠ none := by
      simp only [Engine.set, compiled]
      split
      · next unnamed => simp [unnamed]
      · next named => cases fault <;> simp [named]
    rw [failed]
    constructor
    · intro unchanged named broken _
      rw [← replaced]
      exact (unchanged ⟨named, broken⟩).1
    · rintro same ⟨named, broken⟩
      have equal := replaced.trans (same named broken ⟨rules, rfl⟩)
      exact ⟨equal, fun ip random => allow_of_snapshot equal ip random⟩

/-- The disk is full: `Set` fails, and every connection is refused from now on. -/
theorem set_failed_in_force :
    let e : Engine (fun _ => true) := ⟨[], "rules.toml".toList⟩
    let result := e.set [⟨[], [], "deny".toList⟩] (some "no space left on device".toList)
    ¬ (result.err ≠ none → result.engine.snapshot = e.snapshot ∧
      ∀ ip random, result.engine.allow ip random = e.allow ip random) := by
  intro e result unchanged
  have same := (unchanged (by decide +kernel)).2 [10, 0, 0, 1] []
  exact absurd same (by decide +kernel)

/-! ### The file and the rules -/

namespace Serving

def SetCall.succeeded (call : SetCall wide) : Bool :=
  match call.phase with
  | .returned none => true
  | _ => false

/-- The file has the list that is in force; one that no `Set` has written has the list that was loaded. -/
def Sys.InStep (decoder : Decoder) (start : List RuleView) (s : Sys wide) : Prop :=
  match s.file with
  | none => s.views = start
  | some text => decoder.decode text = .ok s.views

/-- Once all calls have returned without an error, the file has the list that is in force. -/
def Settled (decoder : Decoder) (start : List RuleView) (s : Sys wide) : Prop :=
  (∀ set ∈ s.sets, set.succeeded) → s.InStep decoder start

/-- A call that writes the file after all others have returned writes the list that is in force. -/
def LastWritesOwn (s : Sys wide) : Event → Prop
  | .save index none => ∀ views, s.sets[index]? = some ⟨views, .saving⟩ →
      (∀ place set, s.sets[place]? = some set → place ≠ index → set.succeeded) → s.views = views
  | _ => True

/-- The path is configured, and the lists of the calls that go on compile. -/
structure Accepted (s : Sys wide) : Prop where
  named : s.path ≠ []
  compiles : ∀ set ∈ s.sets, (∀ err, set.phase ≠ .returned err) →
    ∃ rules : List (Compiled wide), compileViews wide 0 set.views = .ok rules

variable {decoder : Decoder} {start : List RuleView} {s next : Sys wide} {event : Event}

theorem accepted_step (accepted : Accepted s) (taken : step s event = some next) : Accepted next := by
  obtain ⟨named, compiles⟩ := accepted
  -- a call that goes on has gone on before, or has just compiled
  have replaced : ∀ {index : Nat} {views : List RuleView} {phase phase' : SetPhase wide},
      s.sets[index]? = some ⟨views, phase⟩ → (∀ err, phase ≠ .returned err) →
      ∀ set ∈ s.sets.set index ⟨views, phase'⟩, (∀ err, set.phase ≠ .returned err) →
        ∃ rules : List (Compiled wide), compileViews wide 0 set.views = .ok rules := by
    intro index views phase phase' stood goes set member going
    rcases List.mem_or_eq_of_mem_set member with before | rfl
    · exact compiles set before going
    · have compiled := compiles _ (List.mem_of_getElem? stood) goes
      exact compiled
  cases stepped_of_step taken with
  | rejects views err =>
    refine ⟨named, fun set member going => ?_⟩
    rcases List.mem_append.mp member with before | here
    · exact compiles set before going
    · obtain rfl := List.mem_singleton.mp here
      exact absurd rfl (going (some err))
  | accepts views rules accepted =>
    refine ⟨named, fun set member going => ?_⟩
    rcases List.mem_append.mp member with before | here
    · exact compiles set before going
    · obtain rfl := List.mem_singleton.mp here
      exact ⟨rules, accepted⟩
  | replace index views rules phase stood past => exact ⟨named, replaced stood (by simp)⟩
  | save index views err file stood => exact ⟨named, replaced stood (by simp)⟩
  | allow | advance => exact ⟨named, compiles⟩

theorem settled_of_mem {set : SetCall wide} (member : set ∈ s.sets) (goes : set.succeeded = false) :
    Settled decoder start s := by
  intro all
  have succeeds := all set member
  rw [goes] at succeeds
  cases succeeds

theorem all_succeeded_set {index : Nat} {views : List RuleView} {phase : SetPhase wide}
    (stood : s.sets[index]? = some ⟨views, phase⟩) :
    (∀ set ∈ s.sets.set index ⟨views, .returned none⟩, set.succeeded) ↔
      ∀ place set, s.sets[place]? = some set → place ≠ index → set.succeeded := by
  have inside := (List.getElem?_eq_some_iff.mp stood).1
  constructor
  · intro all place set found other
    exact all set (List.mem_of_getElem? ((List.getElem?_set_ne (Ne.symm other)).trans found))
  · intro others set member
    obtain ⟨place, found⟩ := List.getElem?_of_mem member
    by_cases own : index = place
    · subst own
      rw [List.getElem?_set_self inside] at found
      cases found
      rfl
    · rw [List.getElem?_set_ne own] at found
      exact others place set found (Ne.symm own)

/-- **After one step**: the file has the list in force, or not, by the call that writes. -/
theorem settled_step_iff (accepted : Accepted s) (settled : Settled decoder start s)
    (taken : step s event = some next) : Settled decoder start next ↔ LastWritesOwn s event := by
  cases event with
  | set views =>
    refine ⟨fun _ => trivial, fun _ => ?_⟩
    simp only [step] at taken
    split at taken
    · cases taken
      exact settled_of_mem (List.mem_append_right _ List.mem_cons_self) rfl
    · cases taken
      exact settled_of_mem (List.mem_append_right _ List.mem_cons_self) rfl
  | replace index =>
    refine ⟨fun _ => trivial, fun _ => ?_⟩
    simp only [step, if_neg accepted.named] at taken
    split at taken
    · next views rules stood =>
      cases taken
      have inside := (List.getElem?_eq_some_iff.mp stood).1
      exact settled_of_mem (List.mem_of_getElem? (List.getElem?_set_self inside)) rfl
    · cases taken
  | save index err =>
    simp only [step] at taken
    split at taken
    · next views stood =>
      have inside := (List.getElem?_eq_some_iff.mp stood).1
      cases taken
      cases err with
      | some err =>
        refine ⟨fun _ => trivial, fun _ => ?_⟩
        exact settled_of_mem (List.mem_of_getElem? (List.getElem?_set_self inside)) rfl
      | none =>
        -- the file is read as the list of the call
        have compiles := exists_compileViews_iff.mp (accepted.compiles _ (List.mem_of_getElem? stood) (by simp))
        have read : decoder.decode (saveRulesFile wide views) = .ok views := decode_saveRulesFile decoder compiles
        show ((∀ set ∈ s.sets.set index ⟨views, .returned none⟩, set.succeeded) →
          decoder.decode (saveRulesFile wide views) = .ok s.views) ↔ _
        rw [all_succeeded_set stood, read, Except.ok.injEq]
        constructor
        · intro shown views' stood' others
          rw [stood] at stood'
          cases stood'
          exact (shown others).symm
        · intro own others
          exact (own views stood others).symm
    · cases taken
  | allow ip random =>
    cases taken
    exact ⟨fun _ => trivial, fun _ => settled⟩
  | advance index =>
    refine ⟨fun _ => trivial, fun _ => ?_⟩
    cases stepped_of_step taken
    exact settled

/-- **The file and the rules stay in step** in exactly those runs in which every call that writes the file after all
others have returned writes the list that is in force. -/
theorem settled_iff (decoder : Decoder) (rules : List (Compiled wide)) {path : Text} (named : path ≠ [])
    {events : List Event} (reached : run step (.initial rules path) events = some s) :
    Throughout step (Settled decoder (rules.map Compiled.view)) (.initial rules path) events ↔
      Along step LastWritesOwn (.initial rules path) events := by
  have first : Accepted (.initial rules path : Sys wide) := ⟨named, by simp [Sys.initial]⟩
  have exact_step : ∀ (s : Sys wide) event next,
      Accepted s ∧ Settled decoder (rules.map Compiled.view) s → step s event = some next →
      (Accepted next ∧ Settled decoder (rules.map Compiled.view) next ↔ LastWritesOwn s event) := by
    rintro s event next ⟨accepted, settled⟩ taken
    rw [← settled_step_iff accepted settled taken]
    exact and_iff_right (accepted_step accepted taken)
  rw [← throughout_iff_along exact_step ⟨first, fun _ => rfl⟩ reached]
  refine ⟨fun settled before after middle split halfway => ⟨?_, settled before after middle split halfway⟩,
    fun both before after middle split halfway => (both before after middle split halfway).2⟩
  exact run_invariant' (fun _ _ _ accepted taken => accepted_step accepted taken) first halfway

def onlyRule (action : String) : List RuleView := [⟨[], [], action.toList⟩]

theorem compile_onlyRule (allows : Bool) :
    ∀ v ∈ onlyRule (if allows then "allow" else "deny"), ∃ rule, compile wide v = .ok rule := by
  intro v member
  obtain rfl := List.mem_singleton.mp member
  cases allows with
  | true => exact ⟨⟨none, none, .allow⟩, rfl⟩
  | false => exact ⟨⟨none, none, .deny⟩, rfl⟩

/-- Two calls, one after the other. -/
theorem settled_iff_ordered :
    let start : Sys (fun _ => true) := .initial [] "rules.toml".toList
    Throughout step (Settled plainDecoder []) start
      [.set (onlyRule "allow"), .replace 0, .save 0 none, .set (onlyRule "deny"), .replace 1, .save 1 none] := by
  intro start
  refine (settled_iff plainDecoder [] (by decide) rfl).mpr ?_
  refine ⟨trivial, trivial, fun views stood _ => ?_, trivial, trivial, fun views stood _ => ?_, trivial⟩
  · cases stood
    rfl
  · cases stood
    rfl

/-- Two calls put their lists in place in one order and write the file in the other: both succeed, the rules in force
deny all connections, and the next start of the endpoint allows them. -/
theorem saved_out_of_order :
    ∃ s : Sys (fun _ => true),
      run step (.initial [] "rules.toml".toList)
        [.set (onlyRule "allow"), .set (onlyRule "deny"), .replace 0, .replace 1, .save 1 none, .save 0 none] =
          some s ∧
      (∀ set ∈ s.sets, set.succeeded) ∧ s.views = onlyRule "deny" ∧
      ¬ s.InStep plainDecoder [] := by
  refine ⟨_, rfl, by decide, rfl, ?_⟩
  have read : plainDecoder.decode (saveRulesFile (fun _ => true) (onlyRule "allow")) = .ok (onlyRule "allow") :=
    decode_saveRulesFile plainDecoder (compile_onlyRule true)
  show ¬ plainDecoder.decode (saveRulesFile (fun _ => true) (onlyRule "allow")) = .ok (onlyRule "deny")
  rw [read]
  decide

end Serving

end Ttgo.Rules

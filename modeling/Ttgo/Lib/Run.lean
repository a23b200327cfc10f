/-
**Runs of a labelled transition system.**

A system is a partial step function `step : State → Event → Option State`: `none` says that the
event is not enabled. A run is a list of events executed from a state.

* `run step state events` — the state after the events, if each was enabled in its turn.
* `Along step holds state events` — every step of the run is taken from a state and with an event
  that satisfy `holds`. This is how a condition on interleavings is stated.
* `Throughout step holds state events` — `holds` is true of every state on the way.
* `throughout_iff_along` — a condition on steps that is exact for a property is exact for runs.
* `Occurs step happens state events` — some step of the run satisfies `happens`.
* `tally step count state events number` — a value updated at every step.
* `run_invariant` — what one step preserves under `holds`, a run preserves under `Along holds`.
* `run_history` — the same for an invariant that speaks of the events so far.
-/

import Mathlib.Data.List.Basic

namespace Ttgo.Lib

variable {State Event : Type*} {step : State → Event → Option State}
  {state middle final : State} {event : Event} {events more : List Event}

/-- The state after a list of events, if every one of them was enabled in its turn. -/
def run (step : State → Event → Option State) : State → List Event → Option State
  | state, [] => some state
  | state, event :: events => (step state event).bind fun next => run step next events

/-- Every step of the run is taken from a state and with an event that satisfy `holds`. -/
def Along (step : State → Event → Option State) (holds : State → Event → Prop) :
    State → List Event → Prop
  | _, [] => True
  | state, event :: events => holds state event ∧
      match step state event with
      | none => True
      | some next => Along step holds next events

instance Along.decidable (holds : State → Event → Prop)
    [∀ state event, Decidable (holds state event)] :
    ∀ (state : State) (events : List Event), Decidable (Along step holds state events)
  | _, [] => .isTrue trivial
  | state, event :: events =>
      have : Decidable (match step state event with
          | none => True
          | some next => Along step holds next events) :=
        match step state event with
        | none => .isTrue trivial
        | some next => Along.decidable holds next events
      inferInstanceAs (Decidable (_ ∧ _))

@[simp] theorem run_nil : run step state [] = some state := rfl

@[simp] theorem along_nil {holds : State → Event → Prop} : Along step holds state [] := trivial

theorem run_cons :
    run step state (event :: events) = (step state event).bind fun next => run step next events :=
  rfl

theorem run_cons_eq_some : run step state (event :: events) = some final ↔
    ∃ next, step state event = some next ∧ run step next events = some final := by
  rw [run_cons, Option.bind_eq_some_iff]

theorem along_cons {holds : State → Event → Prop} {next : State}
    (taken : step state event = some next) :
    Along step holds state (event :: events) ↔
      holds state event ∧ Along step holds next events := by
  simp only [Along, taken]

theorem run_append :
    run step state (events ++ more) =
      (run step state events).bind fun middle => run step middle more := by
  induction events generalizing state with
  | nil => rfl
  | cons event events ih =>
    rw [List.cons_append, run_cons, run_cons, Option.bind_assoc]
    exact congrArg _ (funext fun next => ih)

theorem run_append_eq_some : run step state (events ++ more) = some final ↔
    ∃ middle, run step state events = some middle ∧ run step middle more = some final := by
  rw [run_append, Option.bind_eq_some_iff]

theorem along_append {holds : State → Event → Prop}
    (first : run step state events = some middle) :
    Along step holds state (events ++ more) ↔
      Along step holds state events ∧ Along step holds middle more := by
  induction events generalizing state with
  | nil =>
    cases first
    simp
  | cons event events ih =>
    obtain ⟨next, taken, rest⟩ := run_cons_eq_some.mp first
    rw [List.cons_append, along_cons taken, along_cons taken, ih rest, and_assoc]

theorem along_and {holds also : State → Event → Prop} (first : Along step holds state events)
    (second : Along step also state events) :
    Along step (fun current event => holds current event ∧ also current event) state events := by
  induction events generalizing state with
  | nil => trivial
  | cons event events ih =>
    refine ⟨⟨first.1, second.1⟩, ?_⟩
    cases taken : step state event with
    | none => trivial
    | some next =>
      exact ih ((along_cons taken).mp first).2 ((along_cons taken).mp second).2

theorem along_of_forall {holds : State → Event → Prop}
    (each : ∀ before event after middle, events = before ++ event :: after →
      run step state before = some middle → holds middle event) :
    Along step holds state events := by
  induction events generalizing state with
  | nil => trivial
  | cons event events ih =>
    refine ⟨each [] event events state rfl rfl, ?_⟩
    cases taken : step state event with
    | none => trivial
    | some next =>
      refine ih fun before event' after middle split reached => ?_
      exact each (event :: before) event' after middle (congrArg (event :: ·) split)
        (run_cons_eq_some.mpr ⟨next, taken, reached⟩)

/-- **The invariant rule.** What every step preserves under `holds` is preserved by every run
whose steps all satisfy `holds`. -/
theorem run_invariant {holds : State → Event → Prop} {invariant : State → Prop}
    (kept : ∀ state event next, holds state event → invariant state →
      step state event = some next → invariant next)
    (along : Along step holds state events) (start : invariant state)
    (reached : run step state events = some final) : invariant final := by
  induction events generalizing state with
  | nil =>
    cases reached
    exact start
  | cons event events ih =>
    obtain ⟨next, taken, rest⟩ := run_cons_eq_some.mp reached
    rw [along_cons taken] at along
    exact ih along.2 (kept state event next along.1 start taken) rest

theorem run_invariant' {invariant : State → Prop}
    (kept : ∀ state event next, invariant state → step state event = some next → invariant next)
    (start : invariant state) (reached : run step state events = some final) :
    invariant final := by
  induction events generalizing state with
  | nil =>
    cases reached
    exact start
  | cons event events ih =>
    obtain ⟨next, taken, rest⟩ := run_cons_eq_some.mp reached
    exact ih (kept state event next start taken) rest

theorem run_history {invariant : List Event → State → Prop}
    (kept : ∀ before state event next, run step middle before = some state → invariant before state →
      step state event = some next → invariant (before ++ [event]) next)
    (start : invariant [] middle) (reached : run step middle events = some final) :
    invariant events final := by
  suffices all : ∀ rest before {state}, run step middle before = some state → invariant before state →
      run step state rest = some final → invariant (before ++ rest) final from all events [] rfl start reached
  intro rest
  induction rest with
  | nil =>
    rintro before state - holds ⟨⟩
    rwa [List.append_nil]
  | cons event rest ih =>
    intro before state halfway holds ran
    obtain ⟨next, taken, ran⟩ := run_cons_eq_some.mp ran
    rw [List.append_cons]
    refine ih (before ++ [event]) ?_ (kept before state event next halfway holds taken) ran
    rw [run_append, halfway, Option.bind_some, run_cons, taken]
    rfl

theorem run_collected {Item : Type*} {items : State → List Item} {adds : State → Event → Option Item}
    {good : Item → Prop} {holds : State → Event → Prop}
    (grows : ∀ {state event next item}, step state event = some next → item ∈ items next →
      item ∈ items state ∨ adds state event = some item)
    (fine : ∀ {state event}, holds state event → ∀ item ∈ adds state event, good item)
    (along : Along step holds state events)
    (start : ∀ item ∈ items state, good item) (reached : run step state events = some final) :
    ∀ item ∈ items final, good item := by
  have kept : ∀ state event next, holds state event →
      (∀ item ∈ items state, good item) → step state event = some next →
      ∀ item ∈ items next, good item := by
    intro state event next added before taken item member
    rcases grows taken member with old | new
    · exact before item old
    · exact fine added item new
  exact run_invariant kept along start reached

/-- `holds` is true of every state that the run passes through. -/
def Throughout (step : State → Event → Option State) (holds : State → Prop) (state : State)
    (events : List Event) : Prop :=
  ∀ before after middle, events = before ++ after → run step state before = some middle →
    holds middle

theorem throughout_invariant {holds : State → Event → Prop} {invariant : State → Prop}
    (kept : ∀ state event next, holds state event → invariant state →
      step state event = some next → invariant next)
    (along : Along step holds state events) (start : invariant state) :
    Throughout step invariant state events := by
  rintro before after middle rfl reached
  exact run_invariant kept ((along_append reached).mp along).1 start reached

theorem Throughout.after_step {holds : State → Prop} (throughout : Throughout step holds state events)
    (reached : run step state events = some final) {before after : List Event}
    (split : events = before ++ event :: after) (halfway : run step state before = some middle) :
    ∃ next, step middle event = some next ∧ holds next := by
  rw [split, run_append_eq_some] at reached
  obtain ⟨middle', halfway', rest⟩ := reached
  obtain rfl : middle = middle' := Option.some.inj (halfway.symm.trans halfway')
  obtain ⟨next, taken, -⟩ := run_cons_eq_some.mp rest
  refine ⟨next, taken, throughout (before ++ [event]) after next (by simp [split]) ?_⟩
  exact run_append_eq_some.mpr ⟨middle, halfway, run_cons_eq_some.mpr ⟨next, taken, rfl⟩⟩

theorem throughout_of_along {holds : State → Prop} (reached : run step state events = some final)
    (along : Along step (fun state _ => holds state) state events) (last : holds final) :
    Throughout step holds state events := by
  rintro before after middle rfl halfway
  cases after with
  | nil =>
    rw [List.append_nil] at reached
    obtain rfl : middle = final := Option.some.inj (halfway.symm.trans reached)
    exact last
  | cons event after => exact ((along_append halfway).mp along).2.1

theorem throughout_cons {holds : State → Prop} {next : State}
    (taken : step state event = some next) :
    Throughout step holds state (event :: events) ↔
      holds state ∧ Throughout step holds next events := by
  constructor
  · intro throughout
    refine ⟨throughout [] (event :: events) state rfl rfl, ?_⟩
    rintro before after middle rfl reached
    exact throughout (event :: before) after middle rfl
      (run_cons_eq_some.mpr ⟨next, taken, reached⟩)
  · rintro ⟨now, later⟩ before after middle split reached
    cases before with
    | nil =>
      cases reached
      exact now
    | cons first before =>
      cases split
      obtain ⟨next', taken', rest⟩ := run_cons_eq_some.mp reached
      obtain rfl : next = next' := Option.some.inj (taken.symm.trans taken')
      exact later before after middle rfl rest

/-- A condition on steps that is exact for keeping a property and for another one of the step: the two hold
throughout a run exactly if the steps of the run all satisfy the condition. -/
theorem throughout_and_along_iff {holds : State → Prop} {also keeps : State → Event → Prop}
    (exact_step : ∀ state event next, holds state → step state event = some next →
      (holds next ∧ also state event ↔ keeps state event))
    (start : holds state) (reached : run step state events = some final) :
    Throughout step holds state events ∧ Along step also state events ↔ Along step keeps state events := by
  induction events generalizing state with
  | nil =>
    refine ⟨fun _ => trivial, fun _ => ⟨?_, trivial⟩⟩
    rintro before after middle split reached'
    obtain ⟨rfl, rfl⟩ := List.append_eq_nil_iff.mp split.symm
    cases reached'
    exact start
  | cons event events ih =>
    obtain ⟨next, taken, rest⟩ := run_cons_eq_some.mp reached
    have kept := exact_step state event next start taken
    rw [throughout_cons taken, along_cons taken, along_cons taken]
    constructor
    · rintro ⟨⟨-, later⟩, first, along⟩
      have now : holds next := later [] events next rfl rfl
      exact ⟨kept.mp ⟨now, first⟩, (ih now rest).mp ⟨later, along⟩⟩
    · rintro ⟨first, along⟩
      obtain ⟨now, first⟩ := kept.mpr first
      obtain ⟨later, along⟩ := (ih now rest).mpr along
      exact ⟨⟨start, later⟩, first, along⟩

/-- A condition on steps that is exact for keeping a property: the property holds throughout a run
exactly if the steps of the run all satisfy the condition. -/
theorem throughout_iff_along {holds : State → Prop} {keeps : State → Event → Prop}
    (exact_step : ∀ state event next, holds state → step state event = some next →
      (holds next ↔ keeps state event))
    (start : holds state) (reached : run step state events = some final) :
    Throughout step holds state events ↔ Along step keeps state events := by
  rw [← throughout_and_along_iff (fun state event next before taken =>
    (and_iff_left trivial).trans (exact_step state event next before taken)) start reached]
  exact (and_iff_left (along_of_forall fun _ _ _ _ _ _ => trivial)).symm

/-! ### Steps that occur in a run -/

/-- Some step of the run satisfies `happens`. -/
def Occurs (step : State → Event → Option State) (happens : State → Event → Prop)
    (state : State) (events : List Event) : Prop :=
  ∃ before event after middle, events = before ++ event :: after ∧
    run step state before = some middle ∧ happens middle event

theorem not_occurs_of_along {happens : State → Event → Prop}
    (never : Along step (fun state event => ¬ happens state event) state events) :
    ¬ Occurs step happens state events := by
  rintro ⟨before, event, after, middle, rfl, reached, happened⟩
  exact ((along_append reached).mp never).2.1 happened

theorem occurs_cons {happens : State → Event → Prop} {next : State}
    (taken : step state event = some next) :
    Occurs step happens state (event :: events) ↔
      happens state event ∨ Occurs step happens next events := by
  constructor
  · rintro ⟨before, event', after, middle, split, reached, happened⟩
    cases before with
    | nil =>
      cases split
      cases reached
      exact .inl happened
    | cons first before =>
      cases split
      obtain ⟨next', taken', rest⟩ := run_cons_eq_some.mp reached
      obtain rfl : next = next' := Option.some.inj (taken.symm.trans taken')
      exact .inr ⟨before, event', after, middle, rfl, rest, happened⟩
  · rintro (now | ⟨before, event', after, middle, rfl, reached, happened⟩)
    · exact ⟨[], event, events, state, rfl, rfl, now⟩
    · exact ⟨event :: before, event', after, middle, rfl,
        run_cons_eq_some.mpr ⟨next, taken, reached⟩, happened⟩

theorem recorded_iff_occurs {invariant recorded : State → Prop} {happens : State → Event → Prop}
    (kept : ∀ state event next, invariant state → step state event = some next → invariant next)
    (adds : ∀ state event next, invariant state → step state event = some next →
      (recorded next ↔ recorded state ∨ happens state event))
    (start : invariant state) (reached : run step state events = some final) :
    recorded final ↔ recorded state ∨ Occurs step happens state events := by
  induction events generalizing state with
  | nil =>
    cases reached
    refine ⟨.inl, fun either => either.resolve_right ?_⟩
    rintro ⟨before, event, after, -, split, -⟩
    cases before <;> cases split
  | cons event events ih =>
    obtain ⟨next, taken, rest⟩ := run_cons_eq_some.mp reached
    rw [ih (kept state event next start taken) rest, adds state event next start taken,
      occurs_cons taken, or_assoc]

theorem along_iff_not_occurs {holds : State → Event → Prop} :
    Along step holds state events ↔
      ¬ Occurs step (fun current event => ¬ holds current event) state events := by
  constructor
  · rintro along ⟨before, event, after, middle, rfl, reached, broken⟩
    exact broken ((along_append reached).mp along).2.1
  · intro never
    refine along_of_forall fun before event after middle split reached => ?_
    by_contra broken
    exact never ⟨before, event, after, middle, split, reached, broken⟩

theorem along_occurs_from {Index : Type*} (happens : Index → State → Event → Prop)
    {before rest : List Event} (reached : run step state before = some middle) :
    Along step (fun current event => ∀ index, happens index current event →
      Occurs step (happens index) state (before ++ rest)) middle rest := by
  induction rest generalizing before middle with
  | nil => trivial
  | cons event rest ih =>
    refine ⟨fun index now => ⟨before, event, rest, middle, rfl, reached, now⟩, ?_⟩
    cases taken : step middle event with
    | none => trivial
    | some next =>
      have further : run step state (before ++ [event]) = some next :=
        run_append_eq_some.mpr ⟨middle, reached, run_cons_eq_some.mpr ⟨next, taken, rfl⟩⟩
      have shifted := ih further
      rwa [List.append_assoc, List.singleton_append] at shifted

theorem along_occurs {Index : Type*} (happens : Index → State → Event → Prop) :
    Along step (fun current event => ∀ index, happens index current event →
      Occurs step (happens index) state events) state events :=
  @along_occurs_from _ _ step state state _ happens [] events rfl

/-! ### Meters -/

/-- A value carried along a run: every step that is taken updates it from the state before. -/
def tally {Value : Type*} (step : State → Event → Option State) (count : State → Event → Value → Value) :
    State → List Event → Value → Value
  | _, [], number => number
  | state, event :: events, number =>
      match step state event with
      | none => number
      | some next => tally step count next events (count state event number)

theorem tally_invariant {Value : Type*} {holds : State → Event → Prop}
    {count : State → Event → Value → Value} {invariant : State → Value → Prop}
    (kept : ∀ state event next number, holds state event → invariant state number →
      step state event = some next → invariant next (count state event number))
    (along : Along step holds state events) {number : Value} (start : invariant state number)
    (reached : run step state events = some final) :
    invariant final (tally step count state events number) := by
  induction events generalizing state number with
  | nil =>
    cases reached
    exact start
  | cons event events ih =>
    obtain ⟨next, taken, rest⟩ := run_cons_eq_some.mp reached
    simp only [tally, taken]
    exact ih ((along_cons taken).mp along).2 (kept state event next number along.1 start taken) rest

end Ttgo.Lib

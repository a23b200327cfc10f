/-
**Data in hand for an owner that may finish.**

Goroutines fetch data in one step and deliver it to its owner in a later one, and the owner may finish
in between. `Handoff` is what has to be known of a system for that: for which owner a step fetches or
delivers, which owner it finishes, and what a state says about each owner.

* `Handoff.Prompt` — a step fetches nothing for an owner that has finished, and no owner finishes while
  data is in hand for it.
* `Handoff.Late` — a step delivers to an owner that has finished.
* `Handoff.never_late` — a run of prompt steps has no late one.
-/

import Ttgo.Lib.Run

namespace Ttgo.Lib

/-- The fetching and delivering steps of a system, and the ends of their owners. -/
structure Handoff {State Event : Type*} (step : State → Event → Option State) (Owner : Type*) where
  invariant : State → Prop
  /-- A goroutine has data in hand for the owner. -/
  inHand : State → Owner → Bool
  finished : State → Owner → Bool
  fetches : State → Event → Option Owner
  finishes : State → Event → Option Owner
  delivers : State → Event → Option Owner
  invariant_step : ∀ {state event next}, invariant state → step state event = some next →
    invariant next
  inHand_step : ∀ {state event next owner}, invariant state → step state event = some next →
    inHand next owner = true → inHand state owner = true ∨ fetches state event = some owner
  finished_step : ∀ {state event next owner}, step state event = some next →
    finished next owner = true → finished state owner = true ∨ finishes state event = some owner
  not_both : ∀ {state event owner}, fetches state event = some owner →
    finishes state event ≠ some owner
  inHand_of_delivers : ∀ {state event next owner}, step state event = some next →
    delivers state event = some owner → inHand state owner = true

namespace Handoff

variable {State Event Owner : Type*} {step : State → Event → Option State}
  (handoff : Handoff step Owner) {state final : State} {events : List Event}

/-- Nothing is fetched for an owner that has finished, and no owner finishes with data in hand. -/
def Prompt (state : State) (event : Event) : Prop :=
  (∀ owner ∈ handoff.fetches state event, handoff.finished state owner = false) ∧
    ∀ owner ∈ handoff.finishes state event, handoff.inHand state owner = false

/-- The step delivers to an owner that has finished. -/
def Late (state : State) (event : Event) : Prop :=
  ∃ owner ∈ handoff.delivers state event, handoff.finished state owner = true

instance (event : Event) : Decidable (handoff.Prompt state event) :=
  inferInstanceAs (Decidable (_ ∧ _))

instance (event : Event) : Decidable (handoff.Late state event) :=
  inferInstanceAs (Decidable (∃ _ ∈ _, _))

/-- An owner with data in hand has not finished. -/
def Served (state : State) : Prop :=
  ∀ owner, handoff.inHand state owner = true → handoff.finished state owner = false

variable {handoff}

theorem served_step {next : State} {event : Event} (sound : handoff.invariant state)
    (served : handoff.Served state)
    (prompt : handoff.Prompt state event) (taken : step state event = some next) :
    handoff.Served next := by
  intro owner held
  rw [Bool.eq_false_iff]
  intro finished
  rcases handoff.inHand_step sound taken held with before | fetched
  · rcases handoff.finished_step taken finished with already | now
    · rw [served owner before] at already
      cases already
    · rw [prompt.2 owner now] at before
      cases before
  · rcases handoff.finished_step taken finished with already | now
    · rw [prompt.1 owner fetched] at already
      cases already
    · exact handoff.not_both fetched now

/-- **A run of prompt steps** delivers nothing to an owner that has finished. -/
theorem never_late (sound : handoff.invariant state) (served : handoff.Served state)
    (reached : run step state events = some final) (prompt : Along step handoff.Prompt state events) :
    Along step (fun current event => ¬ handoff.Late current event) state events := by
  induction events generalizing state with
  | nil => trivial
  | cons event events ih =>
    obtain ⟨next, taken, rest⟩ := run_cons_eq_some.mp reached
    rw [along_cons taken] at prompt ⊢
    refine ⟨?_, ih (handoff.invariant_step sound taken) (served_step sound served prompt.1 taken) rest
      prompt.2⟩
    rintro ⟨owner, delivered, finished⟩
    rw [served owner (handoff.inHand_of_delivers taken delivered)] at finished
    cases finished

end Handoff

end Ttgo.Lib

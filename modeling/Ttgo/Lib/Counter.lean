/-
**Counters of a fixed width.**

An atomic counter of 32 bits that is moved by one at a time, or set to zero, follows a number that is not bounded. Read
as a signed number it is negative as soon as the number leaves the range on either side, and not before.

* `throughout_nonneg_iff` — a counter is not negative throughout a run exactly if the number stays in the range.
-/

import Mathlib.Data.List.Induction
import Ttgo.Lib.Run

namespace Ttgo.Lib

/-- The numbers that a signed counter of 32 bits shows as they are, from zero on. -/
def InRange (value : Int) : Prop := 0 ≤ value ∧ value < 2147483648

theorem toInt_ofInt {value : Int} (inside : InRange value) : (Int32.ofInt value).toInt = value := by
  obtain ⟨low, high⟩ := inside
  have size : (Int32.size : Int) = 4294967296 := rfl
  rw [Int32.toInt_ofInt, Int.bmod_def, size]
  omega

theorem inRange_zero : InRange 0 := ⟨Int.le_refl _, by decide⟩

theorem nonneg_ofInt_iff {value : Int} (low : -1 ≤ value) (high : value ≤ 2147483648) :
    0 ≤ (Int32.ofInt value).toInt ↔ InRange value := by
  refine ⟨fun shown => ?_, fun inside => (toInt_ofInt inside).symm ▸ inside.1⟩
  have size : (Int32.size : Int) = 4294967296 := rfl
  rw [Int32.toInt_ofInt, Int.bmod_def, size] at shown
  unfold InRange
  omega

section Run

variable {State Event : Type*} {step : State → Event → Option State} {start : State} {events : List Event}
  {counter : State → Int32} {value : State → Int} {invariant : State → Prop}

/-- **A counter is not negative throughout a run** exactly if the number that it follows stays in the range, where a
step moves the number by one at most, or sets it to zero. -/
theorem throughout_nonneg_iff
    (kept : ∀ state event next, invariant state → step state event = some next → invariant next)
    (follows : ∀ state, invariant state → counter state = Int32.ofInt (value state))
    (slow : ∀ state event next, invariant state → step state event = some next →
      value next = 0 ∨ value state - 1 ≤ value next ∧ value next ≤ value state + 1)
    (holds : invariant start) (zero : value start = 0) :
    Throughout step (fun state => 0 ≤ (counter state).toInt) start events ↔
      Throughout step (fun state => InRange (value state)) start events := by
  constructor
  · intro shown before
    -- the state before the last step is in the range, so the one after it is at most one past
    induction before using List.reverseRecOn with
    | nil =>
      rintro after middle - reached
      cases reached
      show InRange (value start)
      rw [zero]
      exact inRange_zero
    | append_singleton before event ih =>
      rintro after middle rfl reached
      obtain ⟨state, halfway, last⟩ := run_append_eq_some.mp reached
      obtain ⟨next, taken, rest⟩ := run_cons_eq_some.mp last
      cases rest
      obtain ⟨low, high⟩ := ih ([event] ++ after) state (List.append_assoc ..) halfway
      have stands : invariant state := run_invariant' kept holds halfway
      have now : 0 ≤ (counter middle).toInt := shown (before ++ [event]) after middle rfl reached
      rw [follows middle (kept state event middle stands taken)] at now
      rcases slow state event middle stands taken with none | ⟨down, up⟩
      · show InRange (value middle)
        rw [none]
        exact inRange_zero
      · exact (nonneg_ofInt_iff (by omega) (by omega)).mp now
  · intro inside before after middle split reached
    have stands : invariant middle := run_invariant' kept holds reached
    have range : InRange (value middle) := inside before after middle split reached
    show 0 ≤ (counter middle).toInt
    rw [follows middle stands, toInt_ofInt range]
    exact range.1

end Run

end Ttgo.Lib

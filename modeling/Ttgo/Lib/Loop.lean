/-
**Loops that may not end.**

The body of a loop goes on with another state or ends with a result; nothing says that it ends.

* `loop body fuel state` — the result within so many turns; `loop_mono` — more turns change nothing.
* `Returns body state result` — the loop ends with the result; `Returns.unique`.
* `returns_inl_iff`, `returns_inr_iff` — by the first turn; `not_returns_of_kept` — an invariant under which every turn
  goes on.
-/

import Mathlib.Logic.Basic

namespace Ttgo.Lib

variable {State Result : Type*} {body : State → State ⊕ Result} {state next : State}
  {result result' : Result} {fuel more : Nat}

/-- The result of a loop, if it ends within so many turns. -/
def loop (body : State → State ⊕ Result) : Nat → State → Option Result
  | 0, _ => none
  | fuel + 1, state =>
    match body state with
    | .inl next => loop body fuel next
    | .inr result => some result

/-- **The loop ends with the result.** -/
def Returns (body : State → State ⊕ Result) (state : State) (result : Result) : Prop :=
  ∃ fuel, loop body fuel state = some result

theorem loop_inl (goes : body state = .inl next) : loop body (fuel + 1) state = loop body fuel next := by
  rw [loop, goes]

theorem loop_inr (ends : body state = .inr result) : loop body (fuel + 1) state = some result := by
  rw [loop, ends]

theorem loop_mono (least : fuel ≤ more) (ended : loop body fuel state = some result) :
    loop body more state = some result := by
  induction fuel generalizing state more with
  | zero => cases ended
  | succ fuel ih =>
    obtain ⟨rest, rfl⟩ : ∃ rest, more = rest + 1 := ⟨more - 1, by omega⟩
    cases turn : body state with
    | inl next =>
      rw [loop_inl turn] at ended ⊢
      exact ih (by omega) ended
    | inr last =>
      rw [loop_inr turn] at ended ⊢
      exact ended

theorem Returns.unique (one : Returns body state result) (two : Returns body state result') : result = result' := by
  obtain ⟨fuel, first⟩ := one
  obtain ⟨fuel', second⟩ := two
  have left := loop_mono (Nat.le_max_left fuel fuel') first
  have right := loop_mono (Nat.le_max_right fuel fuel') second
  exact Option.some.inj (left.symm.trans right)

theorem returns_inr_iff (ends : body state = .inr result) : Returns body state result' ↔ result' = result := by
  constructor
  · rintro ⟨fuel, ended⟩
    cases fuel with
    | zero => cases ended
    | succ fuel =>
      rw [loop_inr ends] at ended
      exact (Option.some.inj ended).symm
  · rintro rfl
    exact ⟨1, loop_inr ends⟩

theorem returns_inl_iff (goes : body state = .inl next) : Returns body state result ↔ Returns body next result := by
  constructor
  · rintro ⟨fuel, ended⟩
    cases fuel with
    | zero => cases ended
    | succ fuel =>
      rw [loop_inl goes] at ended
      exact ⟨fuel, ended⟩
  · rintro ⟨fuel, ended⟩
    exact ⟨fuel + 1, (loop_inl goes).trans ended⟩

theorem not_returns_of_kept (inv : State → Prop)
    (kept : ∀ state, inv state → ∃ next, body state = .inl next ∧ inv next) (holds : inv state) :
    ¬ Returns body state result := by
  rintro ⟨fuel, ended⟩
  induction fuel generalizing state with
  | zero => cases ended
  | succ fuel ih =>
    obtain ⟨next, goes, still⟩ := kept state holds
    rw [loop_inl goes] at ended
    exact ih still ended

end Ttgo.Lib

/-
**Machines that read and write.**

A transducer is a partial step function `feed : State → Input → Option (State × List Output)`: it reads
one input, moves on and writes some outputs; `none` says that it rejects.

* `transduce feed state inputs` — the state and the outputs after a list of inputs, if none is rejected.
* `transduce_append` — inputs in two parts: what is written for the second depends on the first only
  through the state.
-/

import Mathlib.Data.List.Basic

namespace Ttgo.Lib

variable {State Input Output : Type*} {feed : State → Input → Option (State × List Output)}
  {state middle final : State} {input : Input} {inputs more : List Input} {out out' : List Output}

/-- The state and the outputs after a list of inputs. -/
def transduce (feed : State → Input → Option (State × List Output)) :
    State → List Input → Option (State × List Output)
  | state, [] => some (state, [])
  | state, input :: inputs =>
    (feed state input).bind fun fed =>
      (transduce feed fed.1 inputs).map fun rest => (rest.1, fed.2 ++ rest.2)

@[simp] theorem transduce_nil : transduce feed state [] = some (state, []) := rfl

theorem transduce_cons_eq_some : transduce feed state (input :: inputs) = some (final, out) ↔
    ∃ middle first rest, feed state input = some (middle, first) ∧
      transduce feed middle inputs = some (final, rest) ∧ out = first ++ rest := by
  simp only [transduce, Option.bind_eq_some_iff, Option.map_eq_some_iff, Prod.exists, Prod.mk.injEq]
  constructor
  · rintro ⟨middle, first, fed, _, rest, moved, rfl, rfl⟩
    exact ⟨middle, first, rest, fed, moved, rfl⟩
  · rintro ⟨middle, first, rest, fed, moved, rfl⟩
    exact ⟨middle, first, fed, final, rest, moved, rfl, rfl⟩

theorem transduce_singleton : transduce feed state [input] = feed state input := by
  cases fed : feed state input with
  | none => simp [transduce, fed]
  | some next => simp [transduce, fed]

theorem transduce_append : transduce feed state (inputs ++ more) = some (final, out) ↔
    ∃ middle first rest, transduce feed state inputs = some (middle, first) ∧
      transduce feed middle more = some (final, rest) ∧ out = first ++ rest := by
  induction inputs generalizing state out with
  | nil => simp
  | cons input inputs ih =>
    simp only [List.cons_append, transduce_cons_eq_some, ih]
    constructor
    · rintro ⟨next, first, _, fed, ⟨middle, second, rest, moved, moved', rfl⟩, rfl⟩
      exact ⟨middle, first ++ second, rest, ⟨next, first, second, fed, moved, rfl⟩, moved',
        (List.append_assoc _ _ _).symm⟩
    · rintro ⟨middle, _, rest, ⟨next, first, second, fed, moved, rfl⟩, moved', rfl⟩
      exact ⟨next, first, second ++ rest, fed, ⟨middle, second, rest, moved, moved', rfl⟩,
        List.append_assoc _ _ _⟩

theorem transduce_join (first : transduce feed state inputs = some (middle, out))
    (second : transduce feed middle more = some (final, out')) :
    transduce feed state (inputs ++ more) = some (final, out ++ out') :=
  transduce_append.mpr ⟨middle, out, out', first, second, rfl⟩

theorem transduce_append_eq_none (first : transduce feed state inputs = some (middle, out))
    (rejected : transduce feed middle more = none) : transduce feed state (inputs ++ more) = none := by
  rw [Option.eq_none_iff_forall_ne_some]
  rintro ⟨final, all⟩ moved
  obtain ⟨between, before, rest, moved', later, -⟩ := transduce_append.mp moved
  cases first.symm.trans moved'
  rw [rejected] at later
  cases later

theorem transduce_eq_none_append (rejected : transduce feed state inputs = none) (more : List Input) :
    transduce feed state (inputs ++ more) = none := by
  rw [Option.eq_none_iff_forall_ne_some]
  rintro ⟨final, all⟩ moved
  obtain ⟨between, before, rest, moved', -, -⟩ := transduce_append.mp moved
  rw [rejected] at moved'
  cases moved'

end Ttgo.Lib

/-
**What the reader of a connection may get.**

A connection carries items in order. What is on the way is what its writer has put in, without what its reader has
taken; so a connection has no state besides those of its two ends.

* `Conduit` — what the writer has put in, and whether it has marked the end.
* `Conduit.gives` — what a read may return to a reader that has taken so much.
* `Conduit.Grows` — what a writer may do: it puts more in until it marks the end.
* `Conduit.Feeds` — where a reader stands; kept by its reads (`Feeds.of_gives`) and by the writer (`Feeds.grow`).
-/

import Mathlib.Data.List.Infix

namespace Ttgo.Lib

structure Conduit (α : Type*) where
  put : List α
  /-- Nothing more is put in, and a reader that has taken everything gets EOF. -/
  closed : Bool
  /-- No reader gets EOF any more. -/
  broken : Bool := false

namespace Conduit

variable {α : Type*} {conduit next : Conduit α} {taken items : List α} {eof : Bool}

/-- A read returns these items, and EOF if it says so, to a reader that has taken so many. -/
def gives [DecidableEq α] (conduit : Conduit α) (taken items : List α) (eof : Bool) : Bool :=
  decide (taken ++ items <+: conduit.put) &&
    (!eof || (taken ++ items = conduit.put && conduit.closed && !conduit.broken))

/-- What the writer does to the conduit. -/
structure Grows (conduit next : Conduit α) : Prop where
  put : conduit.put <+: next.put
  closed : conduit.closed = true → next.closed = true ∧ next.put = conduit.put

/-- A reader has taken these items, and has seen EOF if it says so. -/
structure Feeds (conduit : Conduit α) (items : List α) (eof : Bool) : Prop where
  taken : items <+: conduit.put
  ended : eof = true → conduit.closed = true ∧ items = conduit.put

theorem unbroken_of_gives [DecidableEq α] (gives : conduit.gives taken items true = true) :
    conduit.closed = true ∧ conduit.broken = false := by
  obtain ⟨-, ended⟩ := Bool.and_eq_true_iff.mp gives
  obtain ⟨whole, sound⟩ := Bool.and_eq_true_iff.mp ended
  exact ⟨(Bool.and_eq_true_iff.mp whole).2, Bool.not_eq_true' _ ▸ sound⟩

namespace Feeds

/-- A read. -/
theorem of_gives [DecidableEq α] (gives : conduit.gives taken items eof = true) :
    conduit.Feeds (taken ++ items) eof := by
  obtain ⟨front, ended⟩ := Bool.and_eq_true_iff.mp gives
  refine ⟨of_decide_eq_true front, fun isEof => ?_⟩
  subst isEof
  obtain ⟨whole, -⟩ := Bool.and_eq_true_iff.mp ended
  obtain ⟨same, closed⟩ := Bool.and_eq_true_iff.mp whole
  exact ⟨closed, of_decide_eq_true same⟩

/-- A step of the writer. -/
theorem grow (feeds : conduit.Feeds taken eof) (grows : conduit.Grows next) : next.Feeds taken eof := by
  refine ⟨feeds.taken.trans grows.put, fun isEof => ?_⟩
  obtain ⟨closed, whole⟩ := feeds.ended isEof
  obtain ⟨stays, same⟩ := grows.closed closed
  exact ⟨stays, whole.trans same.symm⟩

end Feeds

end Conduit

end Ttgo.Lib

/-
**A copy at the end of a conduit.**

The loop of `io.Copy` and `copyFlush` with the connection that it reads. What it has written is in turn what the next
connection was given.

* `CopyLoop.consumed` — the bytes that a copy has read; `CopyLoop.written` — those that a `Write` takes.
* `CopyLoop.Turn` — what one step of a relay does to one of its copies.
* `Fed conduit loop` — where a copy stands in what it reads; `Fed.turn` — its steps.
* `Fed.delivered` — a copy that has ended without an error has written all that was put in, and the end is marked.
-/

import Ttgo.Lib.Conduit
import Ttgo.Proxy.HalfClose

namespace Ttgo.Proxy

open Ttgo.Lib HalfClose

namespace CopyLoop

/-- The copy has ended with an error other than EOF. -/
def hasFailed : CopyLoop → Bool
  | .ended _ failed => failed
  | .reading _ | .writing _ _ _ => false

/-- `Read` has returned EOF. -/
def sawEOF : CopyLoop → Bool
  | .ended _ failed => !failed
  | .writing _ _ err => err == some .eof
  | .reading _ => false

/-- The bytes that a copy has read; when a `Write` has failed, those of them that were written. -/
def consumed (loop : CopyLoop) : List UInt8 := copied loop ++ inHand loop

/-- The bytes that a `Write` takes. -/
def written (short : Option Nat) (loop : CopyLoop) : List UInt8 :=
  match short with
  | none => inHand loop
  | some count => (inHand loop).take count

/-- What a step does to a copy, with what the step must be for it to read or to write. -/
inductive Turn (reads : List UInt8 → Option ReadErr → Prop) (writes : Option Nat → Prop) (loop next : CopyLoop) : Prop
  | idle (same : next = loop)
  | read {bytes : List UInt8} {err : Option ReadErr} (isRead : reads bytes err)
      (moved : loop.read bytes err = some next)
  | write {short : Option Nat} (isWrite : writes short) (moved : loop.write short = some next)

variable {loop next : CopyLoop} {bytes : List UInt8} {err : Option ReadErr} {short : Option Nat}
  {reads : List UInt8 → Option ReadErr → Prop} {writes : Option Nat → Prop}

theorem consumed_afterErr (done : List UInt8) (err : Option ReadErr) : (afterErr done err).consumed = done := by
  rcases err with _ | _ | _ <;> exact List.append_nil done

theorem sawEOF_afterErr (done : List UInt8) (err : Option ReadErr) :
    (afterErr done err).sawEOF = (err == some .eof) := by
  rcases err with _ | _ | _ <;> rfl

/-- **What a `Read` does.** -/
theorem consumed_read (moved : loop.read bytes err = some next) :
    next.consumed = loop.consumed ++ bytes ∧ next.sawEOF = (err == some .eof) := by
  cases loop with
  | writing | ended => cases moved
  | reading done =>
    have before : (reading done).consumed = done := List.append_nil done
    by_cases empty : bytes = []
    · rw [CopyLoop.read, if_pos empty, Option.some.injEq] at moved
      rw [← moved, before, empty, List.append_nil, consumed_afterErr, sawEOF_afterErr]
      exact ⟨rfl, rfl⟩
    · rw [CopyLoop.read, if_neg empty, Option.some.injEq] at moved
      rw [← moved, before]
      exact ⟨rfl, rfl⟩

/-- **What a `Write` does.** -/
theorem consumed_write (moved : loop.write short = some next) :
    copied next = copied loop ++ loop.written short ∧ next.consumed <+: loop.consumed ∧
      (next.sawEOF = true → loop.sawEOF = true ∧ next.consumed = loop.consumed) := by
  cases loop with
  | reading | ended => cases moved
  | writing done bytes err =>
    cases short with
    | none =>
      cases moved
      have same : (afterErr (done ++ bytes) err).consumed = (writing done bytes err).consumed :=
        consumed_afterErr (done ++ bytes) err
      exact ⟨copied_afterErr _, same ▸ List.prefix_rfl, fun eof => ⟨(sawEOF_afterErr _ err).symm.trans eof, same⟩⟩
    | some count =>
      cases moved
      refine ⟨rfl, ?_, fun eof => Bool.noConfusion eof⟩
      show done ++ bytes.take count ++ [] <+: done ++ bytes
      rw [List.append_nil, List.prefix_append_right_inj]
      exact List.take_prefix _ _

theorem running_of_write (moved : loop.write short = some next) : loop.hasEnded = false := by
  cases loop with
  | writing => rfl
  | reading | ended => cases moved

/-- A copy that has ended stays as it is. -/
theorem eq_of_turn (turn : Turn reads writes loop next) (ended : loop.hasEnded = true) : next = loop := by
  cases turn with
  | idle same => exact same
  | read _ moved => exact Bool.noConfusion ((hasEnded_of_read moved).symm.trans ended)
  | write _ moved => exact Bool.noConfusion ((running_of_write moved).symm.trans ended)

/-- What a copy has written stays written. -/
theorem copied_turn (turn : Turn reads writes loop next) : copied loop <+: copied next := by
  cases turn with
  | idle same => exact same ▸ List.prefix_rfl
  | read _ moved => exact copied_read moved ▸ List.prefix_rfl
  | write _ moved => exact (consumed_write moved).1 ▸ List.prefix_append _ _

end CopyLoop

open CopyLoop

/-- A copy has come so far in what it reads. -/
def Fed (conduit : Conduit UInt8) (loop : CopyLoop) : Prop := conduit.Feeds loop.consumed loop.sawEOF

namespace Fed

variable {conduit : Conduit UInt8} {loop next : CopyLoop} {reads : List UInt8 → Option ReadErr → Prop}
  {writes : Option Nat → Prop}

theorem start (conduit : Conduit UInt8) : Fed conduit (.reading []) :=
  ⟨List.nil_prefix, fun eof => Bool.noConfusion eof⟩

/-- **A step**, with reads that return what the conduit gives. -/
theorem turn (fed : Fed conduit loop) (turn : Turn reads writes loop next)
    (given : ∀ bytes err, reads bytes err → conduit.gives loop.consumed bytes (err == some .eof) = true) :
    Fed conduit next := by
  cases turn with
  | idle same => exact same ▸ fed
  | read isRead moved =>
    obtain ⟨consumed, eof⟩ := consumed_read moved
    rw [Fed, consumed, eof]
    exact .of_gives (given _ _ isRead)
  | write _ moved =>
    obtain ⟨-, front, ended⟩ := consumed_write moved
    refine ⟨front.trans fed.taken, fun eof => ?_⟩
    obtain ⟨before, same⟩ := ended eof
    rw [same]
    exact Conduit.Feeds.ended fed before

/-- What has come out of a copy was put in before it, in order. -/
theorem copied_front (fed : Fed conduit loop) : copied loop <+: conduit.put :=
  (List.prefix_append _ _).trans (Conduit.Feeds.taken fed)

/-- **A copy that has ended without an error** has written all that was put in. -/
theorem delivered (fed : Fed conduit loop) (ended : loop.hasEnded = true) (sound : loop.hasFailed = false) :
    conduit.closed = true ∧ copied loop = conduit.put := by
  cases loop with
  | reading | writing => cases ended
  | ended done failed =>
    have clean : failed = false := sound
    subst clean
    obtain ⟨closed, whole⟩ := Conduit.Feeds.ended fed rfl
    exact ⟨closed, (List.append_nil done).symm.trans whole⟩

end Fed

end Ttgo.Proxy

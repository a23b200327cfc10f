/-
**The copy loop of a relay goroutine.**

`copyFlush` of `internal/proxy/handler.go` and `io.Copy` are the same loop, apart from the flush: read
from the source, write what was read, stop at the first error of either side. The loop is cut between
`Read` and `Write`, since other goroutines run in between.

* `CopyLoop` — where a copy goroutine stands, with the bytes that it has written.
* `CopyLoop.read`, `CopyLoop.write` — its two steps.
* `CopyLoop.holding` — `Read` has returned bytes that are not written yet.
-/

import Mathlib.Data.List.Basic

namespace Ttgo.Proxy

inductive ReadErr
  | eof
  | other
deriving DecidableEq, Repr

/-- Where a copy goroutine stands. -/
inductive CopyLoop
  | reading (copied : List UInt8)
  /-- `Read` returned bytes, and perhaps an error with them. -/
  | writing (copied bytes : List UInt8) (err : Option ReadErr)
  /-- The result was sent to `errCh`. -/
  | ended (copied : List UInt8) (failed : Bool)
deriving DecidableEq, Repr

namespace CopyLoop

/-- After the bytes of a `Read` are dealt with: its error ends the loop, and EOF is no failure. -/
def afterErr (copied : List UInt8) : Option ReadErr → CopyLoop
  | none => .reading copied
  | some .eof => .ended copied false
  | some .other => .ended copied true

/-- `src.Read` returns. -/
def read (bytes : List UInt8) (err : Option ReadErr) : CopyLoop → Option CopyLoop
  | .reading copied =>
    if bytes = [] then some (afterErr copied err) else some (.writing copied bytes err)
  | .writing _ _ _ | .ended _ _ => none

/-- `w.Write` returns; `short` is how much of the bytes was written when it failed. -/
def write (short : Option Nat) : CopyLoop → Option CopyLoop
  | .writing copied bytes err =>
    match short with
    | none => some (afterErr (copied ++ bytes) err)
    | some count => some (.ended (copied ++ bytes.take count) true)
  | .reading _ | .ended _ _ => none

/-- `Read` has returned bytes that are not written yet. -/
def holding : CopyLoop → Bool
  | .writing _ _ _ => true
  | .reading _ | .ended _ _ => false

def hasEnded : CopyLoop → Bool
  | .ended _ _ => true
  | .reading _ | .writing _ _ _ => false

variable {loop next : CopyLoop} {bytes : List UInt8} {err : Option ReadErr} {short : Option Nat}

@[simp] theorem holding_afterErr (copied : List UInt8) : (afterErr copied err).holding = false := by
  unfold afterErr
  split <;> rfl

theorem holding_read (read : loop.read bytes err = some next) (holds : next.holding = true) :
    bytes ≠ [] := by
  intro empty
  unfold CopyLoop.read at read
  split at read
  · rw [if_pos empty, Option.some.injEq] at read
    rw [← read, holding_afterErr] at holds
    cases holds
  all_goals cases read

theorem holding_write (write : loop.write short = some next) :
    loop.holding = true ∧ next.holding = false := by
  unfold CopyLoop.write at write
  split at write
  · split at write
    all_goals
      rw [Option.some.injEq] at write
      subst write
    · exact ⟨rfl, holding_afterErr _⟩
    · exact ⟨rfl, rfl⟩
  all_goals cases write

end CopyLoop

end Ttgo.Proxy

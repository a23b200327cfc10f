/-
**The copies of a TCP tunnel.**

`handleTCPTunnel` of `internal/proxy/handler.go` from where the tunnel is open: two goroutines copy, one
to the target and one to the client, and the handler waits for both results or for the end of the
request's context. The target's connection is closed when the handler returns.

* `Tunnel` — the handler and its two goroutines; `Tunnel.act` — one step of them.
* `Tunnel.Acted` — what a step does; `Tunnel.acted_of_act`.
-/

import Ttgo.Proxy.CopyLoop
import Ttgo.Proxy.Handler

namespace Ttgo.Proxy

structure Tunnel where
  /-- The context of the request is done. -/
  cancelled : Bool := false
  /-- `io.Copy(conn, r.Body)`. -/
  up : CopyLoop := .reading []
  /-- `copyFlush(w, conn)`. -/
  down : CopyLoop := .reading []
  /-- `conn.CloseWrite` has been called. -/
  halfClosed : Bool := false
  /-- How many results the handler has taken from `errCh`. -/
  received : Nat := 0
  /-- `ServeHTTP` has returned, and `conn` is closed. -/
  returned : Bool := false
deriving DecidableEq, Repr

namespace Tunnel

def copy (tunnel : Tunnel) : Dir → CopyLoop
  | .up => tunnel.up
  | .down => tunnel.down

def setCopy (tunnel : Tunnel) (loop : CopyLoop) : Dir → Tunnel
  | .up => { tunnel with up := loop }
  | .down => { tunnel with down := loop }

def sent (tunnel : Tunnel) : Nat := tunnel.up.hasEnded.toNat + tunnel.down.hasEnded.toNat

inductive Action
  | cancel
  | read (dir : Dir) (bytes : List UInt8) (err : Option ReadErr)
  | write (dir : Dir) (short : Option Nat)
  /-- The goroutine to the target, after its result is sent. -/
  | closeWrite
  /-- The handler takes a result from `errCh`; it returns after the second. -/
  | receive
  /-- The handler sees that the context is done. -/
  | quit
deriving DecidableEq, Repr

/-- What a `Read` may return: one of a connection that is closed fails. -/
def readable (tunnel : Tunnel) (bytes : List UInt8) (err : Option ReadErr) : Dir → Bool
  | .up => true
  | .down => !tunnel.returned || (bytes = [] && err = some .other)

/-- What a `Write` may return: one to a connection that is closed fails. -/
def writable (tunnel : Tunnel) (short : Option Nat) : Dir → Bool
  | .up => !tunnel.returned || short.isSome
  | .down => true

/-- One step of the handler or of one of its goroutines. -/
def act (tunnel : Tunnel) : Action → Option Tunnel
  | .cancel => some { tunnel with cancelled := true }
  | .read dir bytes err =>
    if tunnel.readable bytes err dir then
      ((tunnel.copy dir).read bytes err).map (tunnel.setCopy · dir)
    else none
  | .write dir short =>
    if tunnel.writable short dir then
      ((tunnel.copy dir).write short).map (tunnel.setCopy · dir)
    else none
  | .closeWrite =>
    if tunnel.up.hasEnded ∧ !tunnel.halfClosed then some { tunnel with halfClosed := true } else none
  | .receive =>
    if !tunnel.returned ∧ tunnel.received < tunnel.sent then
      some { tunnel with received := tunnel.received + 1, returned := tunnel.received + 1 = 2 }
    else none
  | .quit =>
    if !tunnel.returned ∧ tunnel.cancelled then some { tunnel with returned := true } else none

inductive Acted (tunnel : Tunnel) : Action → Tunnel → Prop
  | cancel : Acted tunnel .cancel { tunnel with cancelled := true }
  | read {dir : Dir} {bytes : List UInt8} {err : Option ReadErr} {loop : CopyLoop}
      (moved : (tunnel.copy dir).read bytes err = some loop) :
      Acted tunnel (.read dir bytes err) (tunnel.setCopy loop dir)
  | write {dir : Dir} {short : Option Nat} {loop : CopyLoop} (moved : (tunnel.copy dir).write short = some loop) :
      Acted tunnel (.write dir short) (tunnel.setCopy loop dir)
  | closeWrite (ended : tunnel.up.hasEnded = true) : Acted tunnel .closeWrite { tunnel with halfClosed := true }
  | receive (waits : tunnel.returned = false) (sent : tunnel.received < tunnel.sent) :
      Acted tunnel .receive
        { tunnel with received := tunnel.received + 1, returned := tunnel.received + 1 = 2 }
  | quit (waits : tunnel.returned = false) (cancelled : tunnel.cancelled = true) :
      Acted tunnel .quit { tunnel with returned := true }

theorem acted_of_act {tunnel next : Tunnel} {action : Action} (acted : tunnel.act action = some next) :
    Acted tunnel action next := by
  cases action with
  | cancel =>
    cases acted
    exact .cancel
  | read dir bytes err =>
    obtain ⟨-, rest⟩ := Option.ite_none_right_eq_some.mp acted
    obtain ⟨loop, moved, rfl⟩ := Option.map_eq_some_iff.mp rest
    exact .read moved
  | write dir short =>
    obtain ⟨-, rest⟩ := Option.ite_none_right_eq_some.mp acted
    obtain ⟨loop, moved, rfl⟩ := Option.map_eq_some_iff.mp rest
    exact .write moved
  | closeWrite =>
    obtain ⟨enabled, same⟩ := Option.ite_none_right_eq_some.mp acted
    cases same
    exact .closeWrite enabled.1
  | receive =>
    obtain ⟨enabled, same⟩ := Option.ite_none_right_eq_some.mp acted
    cases same
    exact .receive (Bool.not_eq_true' _ ▸ enabled.1) enabled.2
  | quit =>
    obtain ⟨enabled, same⟩ := Option.ite_none_right_eq_some.mp acted
    cases same
    exact .quit (Bool.not_eq_true' _ ▸ enabled.1) enabled.2

@[simp] theorem copy_setCopy_self (tunnel : Tunnel) (loop : CopyLoop) (dir : Dir) :
    (tunnel.setCopy loop dir).copy dir = loop := by
  cases dir <;> rfl

theorem copy_setCopy_of_ne (tunnel : Tunnel) (loop : CopyLoop) {dir other : Dir} (different : other ≠ dir) :
    (tunnel.setCopy loop dir).copy other = tunnel.copy other := by
  cases dir <;> cases other <;> first | rfl | exact absurd rfl different

end Tunnel

end Ttgo.Proxy

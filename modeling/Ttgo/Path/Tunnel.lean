/-
**A tunnel from the application to the target.**

The application, the client's `relayTCP`, the CONNECT stream, the endpoint's `handleTCPTunnel` and the target. Every
party takes its own steps, in any order; reads and writes may fail at any point, the dial may be refused and the
request may be cancelled.

```
   app → source → relayTCP (up)   → middle → handleTCPTunnel (up)   → sink → target
   app ← sink   ← relayTCP (down) ← middle ← handleTCPTunnel (down) ← source ← target
```

The path starts where the endpoint has dialed the target and has answered 200. The request ends when `relayTCP` closes
the pipe that is its body, and the response when the handler returns. The context of the request is done only when the
stream is reset or its connection is gone; neither side of it then gets EOF.

* `Sys`, `step` — the system and its steps; `Sys.source`, `Sys.middle`, `Sys.sink` — its connections.
* `Joined` — where the four copies, the two relays and the two ends stand; `joined_run`.
* `got_prefix_sent` — what an end has got is a prefix of what the other has sent.
* `eof_honest` — an end that gets EOF has got everything, unless something failed on the way.
* `cut_unseen` — a `Read` that fails at the client is passed on to the target as EOF.
* `returned_exact` — when the client's relay has returned and no copy has failed, everything was delivered, and both
  sides have counted the same bytes.
-/

import Ttgo.Client.RelayTCP

namespace Ttgo.Path

open Ttgo.Lib Ttgo.Proxy Ttgo.Client HalfClose

/-- The two ends of a direction. -/
structure Lane where
  sent : List UInt8 := []
  /-- The end that sends has closed its sending side. -/
  closed : Bool := false
  got : List UInt8 := []
deriving DecidableEq, Repr

structure Sys where
  lanes : Dir → Lane := fun _ => {}
  client : RelayTCP := {}
  server : Tunnel := {}

namespace Sys

def setLane (p : Sys) (dir : Dir) (lane : Lane) : Sys := { p with lanes := Function.update p.lanes dir lane }

/-- What `handleTCPTunnel` has written to the target and to the response. `conn.CloseWrite` marks the end of the one,
and the return of the handler that of both. -/
def output (server : Tunnel) (dir : Dir) : Conduit UInt8 where
  put := copied (server.copy dir)
  closed := server.returned || (dir = .up && server.halfClosed)

def source (p : Sys) (dir : Dir) : Conduit UInt8 := { put := (p.lanes dir).sent, closed := (p.lanes dir).closed }

/-- The request and the response. -/
def middle (p : Sys) : Dir → Conduit UInt8
  | .up => { p.client.output .up with broken := p.server.cancelled }
  | .down => { output p.server .down with broken := p.server.cancelled }

def sink (p : Sys) : Dir → Conduit UInt8
  | .up => output p.server .up
  | .down => p.client.output .down

end Sys

inductive Event
  /-- The end that sends in this direction sends. -/
  | send (dir : Dir) (bytes : List UInt8)
  /-- It closes its sending side. -/
  | finish (dir : Dir)
  /-- The end that receives in this direction receives. -/
  | take (dir : Dir) (bytes : List UInt8) (eof : Bool)
  | client (action : RelayTCP.Action)
  | server (action : Tunnel.Action)
deriving DecidableEq, Repr

/-- What `relayTCP` reads. -/
def Sys.toClient (p : Sys) : Dir → Conduit UInt8
  | .up => p.source .up
  | .down => p.middle .down

/-- What `handleTCPTunnel` reads. -/
def Sys.toServer (p : Sys) : Dir → Conduit UInt8
  | .up => p.middle .up
  | .down => p.source .down

/-- What the connections allow. -/
def Sys.allows (p : Sys) : Event → Bool
  | .send dir _ => !(p.lanes dir).closed
  | .take dir bytes eof => (p.sink dir).gives (p.lanes dir).got bytes eof
  | .client (.read dir bytes err) =>
    (p.toClient dir).gives (p.client.legs dir).loop.consumed bytes (err == some .eof)
  | .server (.read dir bytes err) => (p.toServer dir).gives (p.server.copy dir).consumed bytes (err == some .eof)
  -- the response and the target's connection take nothing once the handler has returned
  | .server (.write dir short) => !p.server.returned || ((p.server.copy dir).written short).isEmpty
  | .finish _ | .client _ | .server _ => true

def Sys.advance (p : Sys) : Event → Option Sys
  | .send dir bytes => some (p.setLane dir { p.lanes dir with sent := (p.lanes dir).sent ++ bytes })
  | .finish dir => some (p.setLane dir { p.lanes dir with closed := true })
  | .take dir bytes _ => some (p.setLane dir { p.lanes dir with got := (p.lanes dir).got ++ bytes })
  | .client action => (p.client.act action).map fun client => { p with client }
  | .server action => (p.server.act action).map fun server => { p with server }

def step (p : Sys) (event : Event) : Option Sys := if p.allows event then p.advance event else none

/-! ### The handler of the endpoint -/

/-- What the handler has waited for. -/
structure Waits (server : Tunnel) : Prop where
  halfClosed : server.halfClosed = true → server.up.hasEnded = true
  received : server.received ≤ server.sent
  returned : server.returned = true → server.cancelled = true ∨ server.received = 2

section Server

variable {server after : Tunnel} {action : Tunnel.Action} {dir : Dir}

theorem turn_server (acted : server.act action = some after) (other : Dir) :
    CopyLoop.Turn (fun bytes err => action = .read other bytes err) (fun short => action = .write other short)
      (server.copy other) (after.copy other) := by
  cases Tunnel.acted_of_act acted with
  | cancel | closeWrite | receive | quit => cases other <;> exact .idle rfl
  | @read dir _ _ _ moved =>
    by_cases same : other = dir
    · subst same
      rw [Tunnel.copy_setCopy_self]
      exact .read rfl moved
    · rw [Tunnel.copy_setCopy_of_ne _ _ same]
      exact .idle rfl
  | @write dir _ _ moved =>
    by_cases same : other = dir
    · subst same
      rw [Tunnel.copy_setCopy_self]
      exact .write rfl moved
    · rw [Tunnel.copy_setCopy_of_ne _ _ same]
      exact .idle rfl

/-- A copy that has ended is as it was. -/
theorem ended_server (acted : server.act action = some after) (dir : Dir)
    (ended : (server.copy dir).hasEnded = true) : (after.copy dir).hasEnded = true := by
  rw [CopyLoop.eq_of_turn (turn_server acted dir) ended]
  exact ended

theorem sent_server (acted : server.act action = some after) : server.sent ≤ after.sent := by
  have up : server.up.hasEnded = true → after.up.hasEnded = true := ended_server acted .up
  have down : server.down.hasEnded = true → after.down.hasEnded = true := ended_server acted .down
  exact Nat.add_le_add (Bool.toNat_le_toNat up) (Bool.toNat_le_toNat down)

theorem waits_act (waits : Waits server) (acted : server.act action = some after) : Waits after := by
  have grows := sent_server acted
  have stays : server.up.hasEnded = true → after.up.hasEnded = true := ended_server acted .up
  have received := waits.received.trans grows
  cases Tunnel.acted_of_act acted with
  | cancel => exact ⟨waits.halfClosed, received, fun _ => .inl rfl⟩
  | @read dir | @write dir =>
    cases dir <;> exact ⟨fun halfClosed => stays (waits.halfClosed halfClosed), received, waits.returned⟩
  | closeWrite ended => exact ⟨fun _ => ended, received, waits.returned⟩
  | receive waiting sent => exact ⟨waits.halfClosed, sent, fun last => .inr (of_decide_eq_true last)⟩
  | quit waiting cancelled => exact ⟨waits.halfClosed, received, fun _ => .inl cancelled⟩

/-- A handler that returns with its request alive has waited for both copies. -/
theorem Waits.ended (waits : Waits server) (returned : server.returned = true) (alive : server.cancelled = false)
    (dir : Dir) : (server.copy dir).hasEnded = true := by
  refine both_of_sent ?_ dir
  rcases waits.returned returned with cancelled | both
  · exact Bool.noConfusion (cancelled.symm.trans alive)
  · exact both ▸ waits.received

theorem closed_server (acted : server.act action = some after) (dir : Dir)
    (closed : (Sys.output server dir).closed = true) : (Sys.output after dir).closed = true := by
  have returned : server.returned = true → after.returned = true := by
    intro returned
    cases Tunnel.acted_of_act acted with
    | cancel | closeWrite | quit => first | exact returned | rfl
    | @read way | @write way => cases way <;> exact returned
    | receive waits => exact Bool.noConfusion (waits.symm.trans returned)
  have halfClosed : server.halfClosed = true → after.halfClosed = true := by
    intro halfClosed
    cases Tunnel.acted_of_act acted with
    | cancel | closeWrite | quit | receive => first | exact halfClosed | rfl
    | @read way | @write way => cases way <;> exact halfClosed
  rcases Bool.or_eq_true_iff.mp closed with isReturned | isHalf
  · exact Bool.or_eq_true_iff.mpr (.inl (returned isReturned))
  · obtain ⟨isUp, isHalf⟩ := Bool.and_eq_true_iff.mp isHalf
    exact Bool.or_eq_true_iff.mpr (.inr (Bool.and_eq_true_iff.mpr ⟨isUp, halfClosed isHalf⟩))

theorem grows_server {p : Sys} (waits : Waits p.server) (acted : p.server.act action = some after)
    (allowed : p.allows (.server action) = true) (dir : Dir) :
    (Sys.output p.server dir).Grows (Sys.output after dir) := by
  have turn := turn_server acted dir
  refine ⟨CopyLoop.copied_turn turn, fun closed => ⟨closed_server acted dir closed, ?_⟩⟩
  rcases Bool.or_eq_true_iff.mp closed with returned | half
  · show copied (after.copy dir) = copied (p.server.copy dir)
    cases turn with
    | idle same => rw [same]
    | read _ moved => exact copied_read moved
    | write isWrite moved =>
      subst isWrite
      have nothing := allowed
      rw [Sys.allows, returned] at nothing
      have empty := List.isEmpty_iff.mp nothing
      rw [(CopyLoop.consumed_write moved).1, empty, List.append_nil]
  · obtain ⟨isUp, halfClosed⟩ := Bool.and_eq_true_iff.mp half
    obtain rfl : dir = .up := of_decide_eq_true isUp
    exact congrArg copied (CopyLoop.eq_of_turn turn (waits.halfClosed halfClosed))

end Server

/-! ### The whole path -/

variable {p next : Sys} {event : Event} {events : List Event} {final : Sys} {dir : Dir}

/-- **Where the parties stand.** -/
structure Joined (p : Sys) : Prop where
  client : p.client.Orderly
  server : Waits p.server
  request : Fed (p.source .up) (p.client.legs .up).loop
  toTarget : Fed (p.middle .up) p.server.up
  response : Fed (p.source .down) p.server.down
  toApp : Fed (p.middle .down) (p.client.legs .down).loop
  targetGot : (p.lanes .up).got <+: (p.sink .up).put
  appGot : (p.lanes .down).got <+: (p.sink .down).put
  /-- The response has ended with the handler, which had waited for both copies. -/
  waited : (p.client.legs .down).loop.sawEOF = true → ∀ dir, (p.server.copy dir).hasEnded = true

theorem joined_start : Joined {} where
  client := RelayTCP.orderly_start
  server := ⟨fun half => Bool.noConfusion half, Nat.le_refl _, fun returned => Bool.noConfusion returned⟩
  request := .start _
  toTarget := .start _
  response := .start _
  toApp := .start _
  targetGot := List.nil_prefix
  appGot := List.nil_prefix
  waited eof := Bool.noConfusion eof

/-- One of the ends sends, closes or receives. -/
theorem joined_lane {lane : Lane} (joined : Joined p)
    (grows : (p.source dir).Grows { put := lane.sent, closed := lane.closed }) (got : lane.got <+: (p.sink dir).put) :
    Joined (p.setLane dir lane) := by
  cases dir with
  | up => exact { joined with request := Conduit.Feeds.grow joined.request grows, targetGot := got }
  | down => exact { joined with response := Conduit.Feeds.grow joined.response grows, appGot := got }

theorem joined_client {action : RelayTCP.Action} {client : RelayTCP} (joined : Joined p)
    (allowed : p.allows (.client action) = true) (acted : p.client.act action = some client) :
    Joined { p with client } := by
  have grows := RelayTCP.grows_act joined.client acted
  have turn (dir : Dir) := (RelayTCP.turn_act acted dir).1
  have given (dir : Dir) (bytes : List UInt8) (err : Option ReadErr) (isRead : action = .read dir bytes err) :
      (p.toClient dir).gives (p.client.legs dir).loop.consumed bytes (err == some .eof) = true := by
    subst isRead
    exact allowed
  refine { joined with
    client := RelayTCP.orderly_act joined.client acted
    request := joined.request.turn (turn .up) (given .up)
    toTarget := Conduit.Feeds.grow joined.toTarget ⟨(grows .up).put, (grows .up).closed⟩
    toApp := joined.toApp.turn (turn .down) (given .down)
    appGot := joined.appGot.trans (grows .down).put
    waited := fun eof => ?_ }
  cases turn .down with
  | idle same => exact joined.waited (same ▸ eof)
  | write _ moved => exact joined.waited ((CopyLoop.consumed_write moved).2.2 eof).1
  | read isRead moved =>
    have gives := given .down _ _ isRead
    rw [← (CopyLoop.consumed_read moved).2, show (client.legs .down).loop.sawEOF = true from eof] at gives
    obtain ⟨closed, sound⟩ := Conduit.unbroken_of_gives gives
    have returned : p.server.returned = true := (Bool.or_false _).symm.trans closed
    exact joined.server.ended returned sound

theorem joined_server {action : Tunnel.Action} {server : Tunnel} (joined : Joined p)
    (allowed : p.allows (.server action) = true) (acted : p.server.act action = some server) :
    Joined { p with server } := by
  have grows := grows_server joined.server acted allowed
  have turn := turn_server acted
  have given (dir : Dir) (bytes : List UInt8) (err : Option ReadErr) (isRead : action = .read dir bytes err) :
      (p.toServer dir).gives (p.server.copy dir).consumed bytes (err == some .eof) = true := by
    subst isRead
    exact allowed
  have toTarget := joined.toTarget.turn (turn .up) (given .up)
  exact { joined with
    server := waits_act joined.server acted
    toTarget := ⟨toTarget.taken, toTarget.ended⟩
    response := joined.response.turn (turn .down) (given .down)
    toApp := Conduit.Feeds.grow joined.toApp ⟨(grows .down).put, (grows .down).closed⟩
    targetGot := joined.targetGot.trans (grows .up).put
    waited := fun eof dir => ended_server acted dir (joined.waited eof dir) }

theorem got_front (joined : Joined p) (dir : Dir) : (p.lanes dir).got <+: (p.sink dir).put := by
  cases dir
  · exact joined.targetGot
  · exact joined.appGot

theorem joined_step (joined : Joined p) (taken : step p event = some next) : Joined next := by
  obtain ⟨allowed, moved⟩ := Option.ite_none_right_eq_some.mp taken
  cases event with
  | send dir bytes =>
    cases moved
    have opened : (p.lanes dir).closed = false := Bool.not_eq_true' _ ▸ allowed
    refine joined_lane joined ⟨List.prefix_append _ _, fun closed => ?_⟩ (got_front joined dir)
    exact Bool.noConfusion (opened.symm.trans closed)
  | finish dir =>
    cases moved
    exact joined_lane joined ⟨List.prefix_rfl, fun _ => ⟨rfl, rfl⟩⟩ (got_front joined dir)
  | take dir bytes eof =>
    cases moved
    exact joined_lane joined ⟨List.prefix_rfl, fun closed => ⟨closed, rfl⟩⟩ (Conduit.Feeds.of_gives allowed).taken
  | client action =>
    obtain ⟨client, acted, rfl⟩ := Option.map_eq_some_iff.mp moved
    exact joined_client joined allowed acted
  | server action =>
    obtain ⟨server, acted, rfl⟩ := Option.map_eq_some_iff.mp moved
    exact joined_server joined allowed acted

theorem joined_run (reached : run step {} events = some final) : Joined final :=
  run_invariant' (fun _ _ _ before taken => joined_step before taken) joined_start reached

/-! ### What is delivered -/

/-- The application sends a byte and closes; the target answers with two, and closes. -/
def ping : List Event :=
  [.send .up [1], .finish .up, .client (.dial true), .client (.read .up [1] none), .client (.write .up none),
    .client (.read .up [] (some .eof)), .client (.closeWrite .up), .client (.send .up),
    .server (.read .up [1] (some .eof)), .server (.write .up none), .server .closeWrite, .server .receive,
    .take .up [1] true, .send .down [2, 3], .finish .down, .server (.read .down [2, 3] none),
    .server (.write .down none), .server (.read .down [] (some .eof)), .server .receive,
    .client (.read .down [2, 3] (some .eof)), .client (.write .down none), .client (.closeWrite .down),
    .client (.send .down), .client .receive, .client .receive]

/-- **What an end has got is a prefix of what the other end has sent**, in every run of the tunnel: whichever reads and
writes fail, and whether or not the request is cancelled. -/
theorem got_prefix_sent (dir : Dir) (reached : run step {} events = some final) :
    (final.lanes dir).got <+: (final.lanes dir).sent := by
  have joined := joined_run reached
  cases dir with
  | up => exact joined.targetGot.trans (joined.toTarget.copied_front.trans joined.request.copied_front)
  | down => exact joined.appGot.trans (joined.toApp.copied_front.trans joined.response.copied_front)

theorem got_prefix_sent_ping : ∃ final, run step {} ping = some final ∧ (final.lanes .up).got = [1] ∧
    (final.lanes .up).got <+: (final.lanes .up).sent := by
  obtain ⟨final, reached, got⟩ : ∃ final, run step {} ping = some final ∧ (final.lanes .up).got = [1] := ⟨_, rfl, rfl⟩
  exact ⟨final, reached, got, got_prefix_sent .up reached⟩

/-- A copy in this direction has failed. -/
def Sys.failed (p : Sys) (dir : Dir) : Bool := (p.client.legs dir).loop.hasFailed || (p.server.copy dir).hasFailed

/-- Everything that was sent in a direction has come to its last connection, and both relays have counted it. -/
structure Delivered (p : Sys) (dir : Dir) : Prop where
  closed : (p.lanes dir).closed = true
  client : copied (p.client.legs dir).loop = (p.lanes dir).sent
  server : copied (p.server.copy dir) = (p.lanes dir).sent

theorem Delivered.put_sink (delivered : Delivered p dir) : (p.sink dir).put = (p.lanes dir).sent := by
  cases dir
  · exact delivered.server
  · exact delivered.client

theorem delivered_up (joined : Joined p) (ended : p.server.up.hasEnded = true)
    (established : p.client.phase ≠ .refused) (sound : p.failed .up = false) : Delivered p .up := by
  obtain ⟨clientSound, serverSound⟩ := Bool.or_eq_false_iff.mp sound
  obtain ⟨marked, whole⟩ := joined.toTarget.delivered ended serverSound
  have closed : (p.client.legs .up).closed = true := RelayTCP.closed_of_output established marked
  obtain ⟨appClosed, sent⟩ := joined.request.delivered ((joined.client.legs .up).1 closed) clientSound
  exact ⟨appClosed, sent, whole.trans sent⟩

theorem delivered_down (joined : Joined p) (ended : (p.client.legs .down).loop.hasEnded = true)
    (sound : p.failed .down = false) : Delivered p .down ∧ p.server.returned = true ∧ p.server.up.hasEnded = true := by
  obtain ⟨clientSound, serverSound⟩ := Bool.or_eq_false_iff.mp sound
  obtain ⟨marked, whole⟩ := joined.toApp.delivered ended clientSound
  have eof : (p.client.legs .down).loop.sawEOF = true := by
    cases loop : (p.client.legs .down).loop with
    | ended done failed =>
      have clean : failed = false := (congrArg CopyLoop.hasFailed loop).symm.trans clientSound
      rw [clean]
      rfl
    | reading | writing =>
      rw [loop] at ended
      cases ended
  have waited := joined.waited eof
  obtain ⟨targetClosed, sent⟩ := joined.response.delivered (waited .down) serverSound
  exact ⟨⟨targetClosed, whole.trans sent, sent⟩, (Bool.or_false _).symm.trans marked, waited .up⟩

/-- **An end that gets EOF has got everything that the other end sent, and that end has closed its side**, unless the
dial or a copy in that direction failed, or the request was cancelled before the target got its EOF. The application
gets EOF, moreover, only after it has closed its own sending side, unless a copy in the other direction failed. -/
theorem eof_honest {bytes : List UInt8} (reached : run step {} events = some p)
    (eof : step p (.take dir bytes true) = some final) (established : p.client.phase ≠ .refused)
    (sound : p.failed dir = false) (alive : dir = .up → p.server.cancelled = false) :
    (final.lanes dir).got = (final.lanes dir).sent ∧ (final.lanes dir).closed = true ∧
      (dir = .down → p.failed .up = false → (final.lanes .up).closed = true) := by
  have joined := joined_run reached
  obtain ⟨gives, moved⟩ := Option.ite_none_right_eq_some.mp eof
  cases moved
  obtain ⟨closed, whole⟩ := (Conduit.Feeds.of_gives gives).ended rfl
  cases dir with
  | up =>
    have ended : p.server.up.hasEnded = true := by
      rcases Bool.or_eq_true_iff.mp closed with returned | halfClosed
      · exact joined.server.ended returned (alive rfl) .up
      · exact joined.server.halfClosed halfClosed
    have delivered := delivered_up joined ended established sound
    exact ⟨whole.trans delivered.put_sink, delivered.closed, nofun⟩
  | down =>
    have clientClosed : (p.client.legs .down).closed = true := RelayTCP.closed_of_output established closed
    obtain ⟨delivered, -, ended⟩ := delivered_down joined ((joined.client.legs .down).1 clientClosed) sound
    exact ⟨whole.trans delivered.put_sink, delivered.closed,
      fun _ upSound => (delivered_up joined ended established upSound).closed⟩

theorem eof_honest_ping : ∃ p, run step {} ping = some p ∧ ∃ final, step p (.take .down [2, 3] true) = some final ∧
    (final.lanes .down).got = (final.lanes .down).sent := by
  obtain ⟨p, reached, final, eof, established, sound⟩ : ∃ p, run step {} ping = some p ∧
      ∃ final, step p (.take .down [2, 3] true) = some final ∧ p.client.phase ≠ .refused ∧ p.failed .down = false :=
    ⟨_, rfl, _, rfl, RelayPhase.noConfusion, rfl⟩
  exact ⟨p, reached, final, eof, (eof_honest reached eof established sound nofun).1⟩

/-- The endpoint reads the rest of a request that has ended, and closes its side of the target's connection. -/
theorem run_drain {done rest : List UInt8} (closed : (p.client.legs .up).closed = true)
    (alive : p.server.cancelled = false) (waiting : p.server.returned = false) (opened : p.server.halfClosed = false)
    (reading : p.server.up = .reading done) (whole : done ++ rest = copied (p.client.legs .up).loop) :
    ∃ more, run step p more =
      some { p with server := { p.server with up := .ended (done ++ rest) false, halfClosed := true } } := by
  have gives : (p.middle .up).gives done rest true = true := by
    simp [Conduit.gives, Sys.middle, RelayTCP.output, whole, closed, alive]
  let held : List Event := if rest = [] then [] else [.server (.write .up none)]
  refine ⟨.server (.read .up rest (some .eof)) :: held ++ [.server .closeWrite], ?_⟩
  cases rest <;>
    simp [held, run_cons, step, Sys.allows, Sys.toServer, Sys.advance, Tunnel.act, Tunnel.readable, Tunnel.writable,
      Tunnel.copy, Tunnel.setCopy, CopyLoop.read, CopyLoop.write, CopyLoop.afterErr, CopyLoop.consumed,
      CopyLoop.hasEnded, copied, inHand, reading, gives, opened, waiting]

/-- Once the client has closed its side of the request, the target may get EOF after what was written to it. -/
theorem exists_eof {done : List UInt8} (joined : Joined p) (closed : (p.client.legs .up).closed = true)
    (alive : p.server.cancelled = false) (reading : p.server.up = .reading done) :
    ∃ more after bytes final, run step p more = some after ∧ step after (.take .up bytes true) = some final ∧
      final.server.up = .ended (copied (p.client.legs .up).loop) false ∧
      final.lanes .up = { p.lanes .up with got := copied (p.client.legs .up).loop } := by
  have running : p.server.up.hasEnded = false := reading ▸ rfl
  have waiting : p.server.returned = false :=
    Bool.eq_false_iff.mpr fun returned => Bool.eq_false_iff.mp running (joined.server.ended returned alive .up)
  have opened : p.server.halfClosed = false :=
    Bool.eq_false_iff.mpr (mt joined.server.halfClosed (Bool.eq_false_iff.mp running))
  have front : copied p.server.up <+: copied (p.client.legs .up).loop := joined.toTarget.copied_front
  obtain ⟨bytes, got⟩ := joined.targetGot.trans front
  rw [reading] at front
  obtain ⟨rest, whole⟩ := front
  obtain ⟨more, drained⟩ := run_drain closed alive waiting opened reading whole
  rw [show done ++ rest = _ from whole] at drained
  refine ⟨more, _, bytes, _, drained, if_pos ?_, rfl, ?_⟩
  · simp [Sys.allows, Sys.sink, Sys.output, Conduit.gives, Tunnel.copy, copied, got]
  · simp [Sys.setLane, got]

/-- **A `Read` that fails is passed on as EOF.** When the application's connection breaks, the target may get EOF after
what was copied until then, with no failure at the endpoint. -/
theorem cut_unseen {sofar done : List UInt8} (reached : run step {} events = some p)
    (started : p.client.started = true) (copying : (p.client.legs .up).loop = .reading sofar)
    (alive : p.server.cancelled = false) (reading : p.server.up = .reading done) :
    ∃ more after bytes final,
      run step p (.client (.read .up [] (some .other)) :: .client (.closeWrite .up) :: more) = some after ∧
      step after (.take .up bytes true) = some final ∧ final.server.up = .ended sofar false ∧
      final.lanes .up = { p.lanes .up with got := sofar } := by
  have joined := joined_run reached
  have unclosed : (p.client.legs .up).closed = false := (joined.client.unsent (copying ▸ rfl)).1
  let failed := p.client.setLeg .up { p.client.legs .up with loop := .ended sofar true }
  have fails : step p (.client (.read .up [] (some .other))) = some { p with client := failed } := by
    refine (if_pos ?_).trans ?_
    · simpa [Sys.allows, Sys.toClient, Conduit.gives] using Conduit.Feeds.taken joined.request
    · simp [Sys.advance, RelayTCP.act, started, copying, CopyLoop.read, CopyLoop.afterErr, failed]
  let shut := failed.setLeg .up { failed.legs .up with closed := true }
  have closes : step { p with client := failed } (.client (.closeWrite .up)) = some { p with client := shut } := by
    simp [step, Sys.allows, Sys.advance, RelayTCP.act, failed, shut, RelayTCP.legs_setLeg, started, unclosed,
      CopyLoop.hasEnded]
  have wrote : shut.legs .up = ⟨.ended sofar true, true, (p.client.legs .up).sent⟩ := by
    simp [shut, failed, RelayTCP.legs_setLeg]
  obtain ⟨more, after, bytes, final, goes, eof, ended, got⟩ :=
    exists_eof (joined_step (joined_step joined fails) closes) (congrArg Leg.closed wrote) alive reading
  rw [wrote] at ended got
  refine ⟨more, after, bytes, final, ?_, eof, ended, got⟩
  rw [run_cons, fails, Option.bind_some, run_cons, closes]
  exact goes

/-- The application sends two bytes, of which the client copies the first. -/
def halfway : List Event :=
  [.send .up [1, 2], .client (.dial true), .client (.read .up [1] none), .client (.write .up none)]

theorem cut_unseen_halfway : ∃ p, run step {} halfway = some p ∧ ∃ more after bytes final,
    run step p (.client (.read .up [] (some .other)) :: .client (.closeWrite .up) :: more) = some after ∧
      step after (.take .up bytes true) = some final ∧ final.lanes .up = ⟨[1, 2], false, [1]⟩ := by
  obtain ⟨p, reached, sent, started, copying, alive, reading⟩ : ∃ p, run step {} halfway = some p ∧
      p.lanes .up = ⟨[1, 2], false, []⟩ ∧ p.client.started = true ∧ (p.client.legs .up).loop = .reading [1] ∧
      p.server.cancelled = false ∧ p.server.up = .reading [] := ⟨_, rfl, rfl, rfl, rfl, rfl, rfl⟩
  obtain ⟨more, after, bytes, final, goes, eof, -, lane⟩ := cut_unseen reached started copying alive reading
  rw [sent] at lane
  exact ⟨p, reached, more, after, bytes, final, goes, eof, lane⟩

/-- **When the client's relay has returned and no copy has failed, everything was delivered.** Both ends have closed,
all that they sent has come to the last connection before the other end, with its EOF, and the counts of `untrackConn`
at the client and of the copies at the endpoint are those of the bytes sent. -/
theorem returned_exact (reached : run step {} events = some final) (returned : final.client.phase = .returned)
    (sound : ∀ dir, final.failed dir = false) :
    final.client.untracked = some (.ofNat (final.lanes .up).sent.length, .ofNat (final.lanes .down).sent.length) ∧
      ∀ dir, (final.lanes dir).closed = true ∧ (final.sink dir).put = (final.lanes dir).sent ∧
        (final.sink dir).closed = true ∧ (copied (final.server.copy dir)).length = (final.lanes dir).sent.length := by
  have joined := joined_run reached
  obtain ⟨allSent, untracked⟩ := joined.client.untracked_eq returned
  have closed (dir : Dir) : (final.client.legs dir).closed = true := (joined.client.legs dir).2 (allSent dir)
  have established : final.client.phase ≠ .refused := returned ▸ RelayPhase.noConfusion
  obtain ⟨down, serverReturned, ended⟩ :=
    delivered_down joined ((joined.client.legs .down).1 (closed .down)) (sound .down)
  have up := delivered_up joined ended established (sound .up)
  have delivered (dir : Dir) : Delivered final dir := by
    cases dir
    · exact up
    · exact down
  refine ⟨?_, fun dir => ⟨(delivered dir).closed, (delivered dir).put_sink, ?_, by rw [(delivered dir).server]⟩⟩
  · rw [untracked, up.client, down.client]
  · cases dir with
    | up => exact Bool.or_eq_true_iff.mpr (.inl serverReturned)
    | down => exact Bool.or_eq_true_iff.mpr (.inl (closed .down))

theorem returned_exact_ping : (run step {} ping).map (·.client.untracked) = some (some (1, 2)) := by
  obtain ⟨final, reached, returned, sound, lengths⟩ : ∃ final, run step {} ping = some final ∧
      final.client.phase = .returned ∧ (∀ dir, final.failed dir = false) ∧
      (final.lanes .up).sent.length = 1 ∧ (final.lanes .down).sent.length = 2 :=
    ⟨_, rfl, rfl, fun dir => by cases dir <;> rfl, rfl, rfl⟩
  rw [reached, Option.map_some, (returned_exact reached returned sound).1, lengths.1, lengths.2]
  rfl

end Ttgo.Path

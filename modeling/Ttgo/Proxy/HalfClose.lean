/-
**What a tunnel has carried when it is over.**

`handleTCPTunnel` and `copyFlush` of `internal/proxy/handler.go`, over HTTP/2. The two directions of a tunnel end one
after the other, in either order, and the last bytes of a direction may come together with its end. The handler waits
for both before it closes the target's connection.

* `Exchange` — a `Tunnel` with what was written to either side, and with the counts of the copies.
* `results` — what the `Read` calls of a direction have returned.
* `Follows` — a copy has taken these results, one after the other; `follows_read`, `follows_write`.
* `UpToEnd` — the results end with the first EOF or error.
* `tunnel_not_truncated` — when the handler returns, both sides have been sent all there was.
* `exists_returned` — it does return once both copies have ended.
-/

import Ttgo.Lib.Reader
import Ttgo.Lib.Run
import Ttgo.Proxy.Tunnel

namespace Ttgo.Proxy.HalfClose

open Ttgo.Lib Reader

/-! ### The exchange -/

/-- An `http.ResponseWriter`: what was sent to the client, and what stands in its buffer. -/
structure Response where
  sent : List UInt8
  buffered : List UInt8
deriving DecidableEq, Repr

/-- `Write`; so much of the buffer goes out by itself. -/
def Response.write (bytes : List UInt8) (spill : Nat) (r : Response) : Response :=
  ⟨r.sent ++ (r.buffered ++ bytes).take spill, (r.buffered ++ bytes).drop spill⟩

def Response.flush (r : Response) : Response := ⟨r.sent ++ r.buffered, []⟩

structure Exchange where
  tunnel : Tunnel
  /-- What was written to the target. -/
  target : List UInt8
  response : Response
  /-- What `io.Copy` has counted. -/
  written : Int64
  /-- The `total` of `copyFlush`. -/
  total : Int64
deriving DecidableEq, Repr

def Exchange.start : Exchange := ⟨{}, [], ⟨[], []⟩, 0, 0⟩

/-- An action of the tunnel; a write to the client may have the buffer spill. -/
structure Event where
  action : Tunnel.Action
  spill : Nat := 0
deriving DecidableEq, Repr

/-- The bytes that a `Write` takes. -/
def Exchange.taken (e : Exchange) (short : Option Nat) (dir : Dir) : List UInt8 :=
  match e.tunnel.copy dir with
  | .writing _ bytes _ => (short.map bytes.take).getD bytes
  | .reading _ | .ended _ _ => []

/-- What a `Write` leaves on the other side. `copyFlush` flushes after every one, where the writer can. -/
def Exchange.deliver (canFlush : Bool) (e : Exchange) : Event → Exchange
  | ⟨.write .up short, _⟩ =>
    let bytes := e.taken short .up
    { e with target := e.target ++ bytes, written := e.written + Int64.ofNat bytes.length }
  | ⟨.write .down short, spill⟩ =>
    let bytes := e.taken short .down
    let response := e.response.write bytes spill
    { e with
      response := if canFlush then response.flush else response
      total := e.total + Int64.ofNat bytes.length }
  | _ => e

def step (canFlush : Bool) (e : Exchange) (event : Event) : Option Exchange :=
  (e.tunnel.act event.action).map fun tunnel => { e.deliver canFlush event with tunnel }

/-- What the `Read` calls of a direction have returned. -/
def results (dir : Dir) (events : List Event) : List (Piece UInt8 ReadErr) :=
  events.filterMap fun event =>
    match event.action with
    | .read dir' bytes err => if dir' = dir then some ⟨bytes, err⟩ else none
    | _ => none

/-- The results end with the first that has an error, or EOF. -/
def UpToEnd (results : List (Piece UInt8 ReadErr)) : Prop :=
  ∃ before last, results = before ++ [last] ∧ (∀ piece ∈ before, piece.err = none) ∧ last.err ≠ none

/-- The context is not cancelled, and no write fails. -/
def Event.quiet (event : Event) : Bool :=
  match event.action with
  | .cancel | .write _ (some _) => false
  | .read _ _ _ | .write _ none | .closeWrite | .receive | .quit => true

def Quiet (events : List Event) : Prop := ∀ event ∈ events, event.quiet = true

/-! ### One copy -/

def copied : CopyLoop → List UInt8
  | .reading copied | .writing copied _ _ | .ended copied _ => copied

/-- The bytes that it has read and not written. -/
def inHand : CopyLoop → List UInt8
  | .writing _ bytes _ => bytes
  | .reading _ | .ended _ _ => []

/-- **A copy has taken these results**: the bytes of all of them are written, or the last ones are in hand; it goes on
exactly after a result without an error. -/
inductive Follows : CopyLoop → List (Piece UInt8 ReadErr) → Prop
  | reading {results : List (Piece UInt8 ReadErr)} (clean : ∀ piece ∈ results, piece.err = none) :
      Follows (.reading (stream results)) results
  | writing {results : List (Piece UInt8 ReadErr)} {bytes : List UInt8} {err : Option ReadErr}
      (clean : ∀ piece ∈ results, piece.err = none) :
      Follows (.writing (stream results) bytes err) (results ++ [⟨bytes, err⟩])
  | ended {results : List (Piece UInt8 ReadErr)} {failed : Bool} (whole : UpToEnd results) :
      Follows (.ended (stream results) failed) results

section Copy

variable {loop next : CopyLoop} {bytes : List UInt8} {err : Option ReadErr} {before : List (Piece UInt8 ReadErr)}

@[simp] theorem copied_afterErr (bytes : List UInt8) : copied (.afterErr bytes err) = bytes := by
  unfold CopyLoop.afterErr
  split <;> rfl

theorem copied_read (moved : loop.read bytes err = some next) : copied next = copied loop := by
  cases loop with
  | writing | ended => cases moved
  | reading done =>
    rw [CopyLoop.read] at moved
    split at moved
    all_goals cases moved
    · exact copied_afterErr done
    · rfl

theorem copied_write (moved : loop.write none = some next) : copied next = copied loop ++ inHand loop := by
  cases loop with
  | reading | ended => cases moved
  | writing done bytes err =>
    cases moved
    exact copied_afterErr (done ++ bytes)

@[simp] theorem stream_concat (before : List (Piece UInt8 ReadErr)) (last : Piece UInt8 ReadErr) :
    stream (before ++ [last]) = stream before ++ last.bytes := by
  rw [stream, List.flatMap_append, List.flatMap_singleton]
  rfl

theorem follows_afterErr (clean : ∀ piece ∈ before, piece.err = none) (bytes : List UInt8) (err : Option ReadErr) :
    Follows (.afterErr (stream before ++ bytes) err) (before ++ [⟨bytes, err⟩]) := by
  have all : stream (before ++ [⟨bytes, err⟩]) = stream before ++ bytes := stream_concat before ⟨bytes, err⟩
  cases err with
  | none =>
    rw [← all]
    refine .reading fun piece member => ?_
    rcases List.mem_append.mp member with old | last
    · exact clean piece old
    · rw [List.mem_singleton.mp last]
  | some err =>
    rw [← all]
    cases err <;> exact .ended ⟨before, _, rfl, clean, Option.some_ne_none _⟩

theorem follows_read (follows : Follows loop before) (moved : loop.read bytes err = some next) :
    Follows next (before ++ [⟨bytes, err⟩]) := by
  cases follows with
  | writing | ended => cases moved
  | reading clean =>
    rw [CopyLoop.read] at moved
    split at moved
    · next empty =>
      cases moved
      -- an error without bytes ends the copy at once
      have same := follows_afterErr clean bytes err
      rwa [empty, List.append_nil, ← empty] at same
    · cases moved
      exact .writing clean

theorem follows_write (follows : Follows loop before) (moved : loop.write none = some next) : Follows next before := by
  cases follows with
  | reading | ended => cases moved
  | writing clean =>
    cases moved
    exact follows_afterErr clean _ _

theorem hasEnded_of_read (moved : loop.read bytes err = some next) : loop.hasEnded = false := by
  cases loop with
  | reading => rfl
  | writing | ended => cases moved

theorem hasEnded_of_write (moved : loop.write none = some next) : loop.hasEnded = false := by
  cases loop with
  | writing => rfl
  | reading | ended => cases moved

theorem follows_hasEnded (follows : Follows loop before) (ended : loop.hasEnded = true) :
    copied loop = stream before ∧ UpToEnd before := by
  cases follows with
  | reading | writing => cases ended
  | ended whole => exact ⟨rfl, whole⟩

end Copy

/-! ### The two copies -/

theorem flush_write (sent bytes : List UInt8) (spill : Nat) :
    ((Response.mk sent []).write bytes spill).flush = ⟨sent ++ bytes, []⟩ := by
  rw [Response.flush, Response.write, List.nil_append, List.append_assoc, List.take_append_drop]

theorem taken_none (e : Exchange) (dir : Dir) : e.taken none dir = inHand (e.tunnel.copy dir) := by
  unfold Exchange.taken
  split
  · next copying =>
    rw [copying]
    rfl
  all_goals
    next copying =>
      rw [copying]
      rfl

theorem results_concat (dir : Dir) (events : List Event) (event : Event) :
    results dir (events ++ [event]) = results dir events ++ results dir [event] :=
  List.filterMap_append

structure Carried (events : List Event) (e : Exchange) : Prop where
  follows (dir : Dir) : Follows (e.tunnel.copy dir) (results dir events)
  target : e.target = copied e.tunnel.up
  response : e.response = ⟨copied e.tunnel.down, []⟩
  written : e.written = Int64.ofNat (copied e.tunnel.up).length
  total : e.total = Int64.ofNat (copied e.tunnel.down).length
  uncancelled : e.tunnel.cancelled = false
  /-- The handler takes two results before it returns. -/
  pending : e.tunnel.returned = false → e.tunnel.received < 2
  both : e.tunnel.returned = true → ∀ dir, (e.tunnel.copy dir).hasEnded = true

theorem carried_start : Carried [] .start where
  follows dir := by cases dir <;> exact .reading (List.forall_mem_nil _)
  target := rfl
  response := rfl
  written := rfl
  total := rfl
  uncancelled := rfl
  pending _ := Nat.zero_lt_two
  both returned := by cases returned

section Step

variable {before : List Event} {e next : Exchange} {event : Event} {dir : Dir} {loop : CopyLoop} {spill : Nat}

theorem waits_of_copying (carried : Carried before e) (copying : (e.tunnel.copy dir).hasEnded = false) :
    e.tunnel.returned = false := by
  cases returned : e.tunnel.returned with
  | false => rfl
  | true =>
    rw [carried.both returned dir] at copying
    cases copying

theorem follows_setCopy (dir : Dir) (event : Event) (carried : Carried before e)
    (moves : Follows loop (results dir (before ++ [event])))
    (apart : ∀ other, other ≠ dir → results other [event] = []) (other : Dir) :
    Follows ((e.tunnel.setCopy loop dir).copy other) (results other (before ++ [event])) := by
  by_cases same : other = dir
  · subst same
    rwa [Tunnel.copy_setCopy_self]
  · rw [Tunnel.copy_setCopy_of_ne _ _ same, results_concat, apart other same, List.append_nil]
    exact carried.follows other

theorem results_read (bytes : List UInt8) (err : Option ReadErr) (other : Dir) :
    results other [⟨.read dir bytes err, spill⟩] = if dir = other then [⟨bytes, err⟩] else [] := by
  rw [results, List.filterMap_cons, List.filterMap_nil]
  by_cases same : dir = other
  · simp only [same, if_true]
  · simp only [same, if_false]

theorem carried_read {bytes : List UInt8} {err : Option ReadErr} (carried : Carried before e)
    (moved : (e.tunnel.copy dir).read bytes err = some loop) :
    Carried (before ++ [⟨.read dir bytes err, spill⟩]) { e with tunnel := e.tunnel.setCopy loop dir } := by
  have waits := waits_of_copying carried (hasEnded_of_read moved)
  have same := copied_read moved
  have now : Follows loop (results dir (before ++ [⟨.read dir bytes err, spill⟩])) := by
    rw [results_concat, results_read, if_pos rfl]
    exact follows_read (carried.follows dir) moved
  have follows := follows_setCopy dir _ carried now
    (fun other different => by rw [results_read, if_neg different.symm])
  cases dir with
  | up =>
    refine { carried with follows := follows, target := ?_, written := ?_, both := ?_ }
    · exact carried.target.trans same.symm
    · exact carried.written.trans (congrArg (Int64.ofNat ·.length) same.symm)
    · exact fun returned => absurd (waits.symm.trans returned) Bool.false_ne_true
  | down =>
    refine { carried with follows := follows, response := ?_, total := ?_, both := ?_ }
    · exact carried.response.trans (congrArg (Response.mk · []) same.symm)
    · exact carried.total.trans (congrArg (Int64.ofNat ·.length) same.symm)
    · exact fun returned => absurd (waits.symm.trans returned) Bool.false_ne_true

theorem length_count (done bytes : List UInt8) :
    Int64.ofNat done.length + Int64.ofNat bytes.length = Int64.ofNat (done ++ bytes).length := by
  rw [List.length_append, Int64.ofNat_add]

theorem carried_write (carried : Carried before e) (moved : (e.tunnel.copy dir).write none = some loop) :
    Carried (before ++ [⟨.write dir none, spill⟩])
      { e.deliver true ⟨.write dir none, spill⟩ with tunnel := e.tunnel.setCopy loop dir } := by
  have waits := waits_of_copying carried (hasEnded_of_write moved)
  have grown := copied_write moved
  rw [← taken_none] at grown
  have now : Follows loop (results dir (before ++ [⟨.write dir none, spill⟩])) := by
    rw [results_concat]
    show Follows loop (results dir before ++ [])
    rw [List.append_nil]
    exact follows_write (carried.follows dir) moved
  have follows := follows_setCopy dir _ carried now fun _ _ => rfl
  cases dir with
  | up =>
    refine { carried with follows := follows, target := ?_, written := ?_, both := ?_ }
    · show e.target ++ e.taken none .up = copied loop
      rw [grown, carried.target]
      rfl
    · show e.written + Int64.ofNat (e.taken none .up).length = Int64.ofNat (copied loop).length
      rw [grown, carried.written, length_count]
      rfl
    · exact fun returned => absurd (waits.symm.trans returned) Bool.false_ne_true
  | down =>
    refine { carried with follows := follows, response := ?_, total := ?_, both := ?_ }
    · show (e.response.write (e.taken none .down) spill).flush = ⟨copied loop, []⟩
      rw [grown, carried.response, flush_write]
      rfl
    · show e.total + Int64.ofNat (e.taken none .down).length = Int64.ofNat (copied loop).length
      rw [grown, carried.total, length_count]
      rfl
    · exact fun returned => absurd (waits.symm.trans returned) Bool.false_ne_true

theorem both_of_sent {tunnel : Tunnel} (sent : 2 ≤ tunnel.sent) (dir : Dir) : (tunnel.copy dir).hasEnded = true := by
  have up := Bool.toNat_le tunnel.up.hasEnded
  have down := Bool.toNat_le tunnel.down.hasEnded
  unfold Tunnel.sent at sent
  cases dir with
  | up =>
    have one : tunnel.up.hasEnded.toNat = 1 := by omega
    exact Bool.toNat_eq_one.mp one
  | down =>
    have one : tunnel.down.hasEnded.toNat = 1 := by omega
    exact Bool.toNat_eq_one.mp one

theorem carried_step (carried : Carried before e) (quiet : event.quiet = true)
    (taken : step true e event = some next) : Carried (before ++ [event]) next := by
  obtain ⟨action, spill⟩ := event
  obtain ⟨tunnel, acted, rfl⟩ := Option.map_eq_some_iff.mp taken
  have unread (dir : Dir) (silent : results dir [⟨action, spill⟩] = []) :
      Follows (e.tunnel.copy dir) (results dir (before ++ [⟨action, spill⟩])) := by
    rw [results_concat, silent, List.append_nil]
    exact carried.follows dir
  cases Tunnel.acted_of_act acted with
  | cancel => cases quiet
  | read moved => exact carried_read carried moved
  | @write dir short loop moved =>
    cases short with
    | some count => cases quiet
    | none => exact carried_write carried moved
  | closeWrite ended =>
    refine { carried with follows := fun dir => ?_, both := fun returned dir => ?_ }
    · cases dir with
      | up => exact unread .up rfl
      | down => exact unread .down rfl
    · cases dir with
      | up => exact carried.both returned .up
      | down => exact carried.both returned .down
  | receive waits sent =>
    refine { carried with follows := fun dir => ?_, pending := ?_, both := fun returned dir => ?_ }
    · cases dir with
      | up => exact unread .up rfl
      | down => exact unread .down rfl
    · intro waiting
      have first := of_decide_eq_false waiting
      have early := carried.pending waits
      show e.tunnel.received + 1 < 2
      omega
    · have second : e.tunnel.received + 1 = 2 := of_decide_eq_true returned
      have all : 2 ≤ e.tunnel.sent := by omega
      cases dir with
      | up => exact both_of_sent all .up
      | down => exact both_of_sent all .down
  | quit waits cancelled =>
    rw [carried.uncancelled] at cancelled
    cases cancelled

theorem carried_run {events : List Event} {final : Exchange} (quiet : Quiet events)
    (reached : run (step true) .start events = some final) : Carried events final := by
  have kept : ∀ before e event next, run (step true) .start before = some e → (Quiet before → Carried before e) →
      step true e event = some next → (Quiet (before ++ [event]) → Carried (before ++ [event]) next) := by
    intro before e event next _ carried taken quiet
    obtain ⟨earlier, now⟩ := List.forall_mem_append.mp quiet
    exact carried_step (carried earlier) (now event (List.mem_singleton_self event)) taken
  have whole := run_history kept (fun _ => carried_start) reached
  exact whole quiet

end Step

/-! ### The end of the tunnel -/

variable {events : List Event} {e final : Exchange}

theorem toInt_count {bytes : List UInt8} (small : bytes.length < 9223372036854775808) :
    (Int64.ofNat bytes.length).toInt = bytes.length :=
  Int64.toInt_ofNat_of_lt small

/-- **A half-close does not truncate a tunnel.** When the handler returns, each direction was read up to its EOF or
error, the target was sent all that was read of the request's body, and the client all that was read of the target; the
counts of the copies are the lengths. -/
theorem tunnel_not_truncated (quiet : Quiet events) (reached : run (step true) .start events = some final)
    (returned : final.tunnel.returned = true) :
    (∀ dir, UpToEnd (results dir events)) ∧
      final.target = stream (results .up events) ∧
      final.response.sent = stream (results .down events) ∧
      final.written = Int64.ofNat (stream (results .up events)).length ∧
      final.total = Int64.ofNat (stream (results .down events)).length ∧
      ((stream (results .up events)).length < 9223372036854775808 →
        final.written.toInt = (stream (results .up events)).length) ∧
      ((stream (results .down events)).length < 9223372036854775808 →
        final.total.toInt = (stream (results .down events)).length) := by
  have carried := carried_run quiet reached
  have ended := carried.both returned
  obtain ⟨up, upToEnd⟩ := follows_hasEnded (carried.follows .up) (ended .up)
  obtain ⟨down, downToEnd⟩ := follows_hasEnded (carried.follows .down) (ended .down)
  have written := carried.written.trans (congrArg (Int64.ofNat ·.length) up)
  have total := carried.total.trans (congrArg (Int64.ofNat ·.length) down)
  refine ⟨fun dir => ?_, carried.target.trans up, ?_, written, total, fun small => ?_, fun small => ?_⟩
  · cases dir with
    | up => exact upToEnd
    | down => exact downToEnd
  · rw [carried.response]
    exact down
  · rw [written]
    exact toInt_count small
  · rw [total]
    exact toInt_count small

/-- The request's body ends first, with its last bytes; the target goes on, and fails with its last bytes. -/
theorem tunnel_not_truncated_half_closed :
    let events : List Event :=
      [⟨.read .up [1, 2] (some .eof), 0⟩, ⟨.read .down [9] none, 0⟩, ⟨.write .up none, 0⟩, ⟨.closeWrite, 0⟩,
        ⟨.write .down none, 0⟩, ⟨.receive, 0⟩, ⟨.read .down [8, 7] (some .other), 0⟩, ⟨.write .down none, 1⟩,
        ⟨.receive, 0⟩]
    ∃ final, run (step true) .start events = some final ∧ final.target = [1, 2] ∧ final.response.sent = [9, 8, 7] ∧
      final.total.toInt = 3 := by
  intro events
  have quiet : Quiet events := by unfold Quiet; decide
  have reached : (run (step true) .start events).isSome = true := by decide
  obtain ⟨final, reached⟩ := Option.isSome_iff_exists.mp reached
  have returned : ∀ final ∈ run (step true) .start events, final.tunnel.returned = true := by decide
  obtain ⟨-, target, sent, -, -, -, total⟩ := tunnel_not_truncated quiet reached (returned final reached)
  exact ⟨final, reached, target, sent, total (by decide)⟩

theorem receive_step (waits : e.tunnel.returned = false) (sent : e.tunnel.received < e.tunnel.sent) :
    step true e ⟨.receive, 0⟩ =
      some { e with tunnel :=
        { e.tunnel with received := e.tunnel.received + 1, returned := e.tunnel.received + 1 = 2 } } := by
  have enabled : (!e.tunnel.returned) = true ∧ e.tunnel.received < e.tunnel.sent := ⟨by rw [waits]; rfl, sent⟩
  rw [step, Tunnel.act, if_pos enabled]
  rfl

/-- **The handler returns**: once both copies have ended it takes their results. -/
theorem exists_returned (quiet : Quiet events) (reached : run (step true) .start events = some e)
    (ended : ∀ dir, (e.tunnel.copy dir).hasEnded = true) :
    ∃ more final, Quiet more ∧ run (step true) e more = some final ∧ final.tunnel.returned = true := by
  have carried := carried_run quiet reached
  have sent : e.tunnel.sent = 2 := by
    rw [Tunnel.sent, show e.tunnel.up.hasEnded = true from ended .up,
      show e.tunnel.down.hasEnded = true from ended .down]
    rfl
  cases waits : e.tunnel.returned with
  | true => exact ⟨[], e, List.forall_mem_nil _, rfl, waits⟩
  | false =>
    have early := carried.pending waits
    have first := receive_step waits (by omega)
    by_cases second : e.tunnel.received + 1 = 2
    · refine ⟨[⟨.receive, 0⟩], _, by unfold Quiet; decide, run_cons_eq_some.mpr ⟨_, first, rfl⟩, ?_⟩
      exact decide_eq_true second
    · have none : e.tunnel.received = 0 := by omega
      refine ⟨[⟨.receive, 0⟩, ⟨.receive, 0⟩], _, by unfold Quiet; decide,
        run_cons_eq_some.mpr ⟨_, first, run_cons_eq_some.mpr ⟨_, receive_step ?_ ?_, rfl⟩⟩, ?_⟩
      · exact decide_eq_false second
      · show e.tunnel.received + 1 < e.tunnel.sent
        omega
      · show decide (e.tunnel.received + 1 + 1 = 2) = true
        rw [none]
        rfl

end Ttgo.Proxy.HalfClose

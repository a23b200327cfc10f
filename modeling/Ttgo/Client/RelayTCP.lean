/-
**The client's relay of a TCP connection.**

`relayTCP` of `internal/client/tun.go`: the CONNECT request, then two goroutines that copy between the application's
connection and the tunnel. Each closes the writing side of its destination when its copy has ended, with or without an
error, and only then sends its result; the relay takes both results in the order in which they were sent and picks the
counts out of them by direction.

* `RelayTCP` — the relay and its goroutines; `RelayTCP.act` — one step of them.
* `RelayTCP.Acted` — what a step does; `RelayTCP.turn_act` — what it does to a copy.
* `RelayTCP.Orderly` — how far each goroutine is, and which results were sent; `RelayTCP.orderly_act`.
* `RelayTCP.Orderly.untracked_eq` — the counts given to `untrackConn` are those of the copies, in whatever order the
  results came.
* `RelayTCP.output`, `RelayTCP.grows_act` — what the relay puts into the two connections.
-/

import Ttgo.Proxy.Ferry

namespace Ttgo.Client

open Ttgo.Lib Ttgo.Proxy Ttgo.Proxy.HalfClose

/-- `copyResult`; the texts of `dir` are `uplink` and `downlink`. -/
structure CopyResult where
  dir : Dir
  bytes : Int64
  failed : Bool
deriving DecidableEq, Repr

def pickBytes (dir : Dir) (a b : CopyResult) : Int64 :=
  if a.dir = dir then a.bytes else if b.dir = dir then b.bytes else 0

/-- One of the two goroutines. -/
structure Leg where
  loop : CopyLoop := .reading []
  /-- `closeWrite` of the destination has been called. -/
  closed : Bool := false
  /-- The result was sent to `copyDone`. -/
  sent : Bool := false
deriving DecidableEq, Repr

/-- What a goroutine sends when `io.Copy` has returned, which counts in an `int64`. -/
def Leg.result (dir : Dir) (leg : Leg) : CopyResult := ⟨dir, .ofNat (copied leg.loop).length, leg.loop.hasFailed⟩

inductive RelayPhase
  /-- `DialContext` has not returned. -/
  | dialing
  | copying
  /-- `DialContext` failed, and the relay has returned. -/
  | refused
  | returned
deriving DecidableEq, Repr

structure RelayTCP where
  phase : RelayPhase := .dialing
  /-- `io.Copy(remote, localConn)` and `io.Copy(localConn, remote)`. -/
  legs : Dir → Leg := fun _ => {}
  copyDone : List CopyResult := []
  /-- The results that the relay has taken from `copyDone`. -/
  results : List CopyResult := []
  /-- The counts with which `untrackConn` was called. -/
  untracked : Option (Int64 × Int64) := none

namespace RelayTCP

def setLeg (relay : RelayTCP) (dir : Dir) (leg : Leg) : RelayTCP :=
  { relay with legs := Function.update relay.legs dir leg }

inductive Action
  | dial (established : Bool)
  | read (dir : Dir) (bytes : List UInt8) (err : Option ReadErr)
  | write (dir : Dir) (short : Option Nat)
  | closeWrite (dir : Dir)
  /-- `copyDone <- copyResult{…}`. -/
  | send (dir : Dir)
  /-- `<-copyDone`; the relay returns after the second. -/
  | receive
deriving DecidableEq, Repr

/-- The relay takes a result. After the second it calls `untrackConn` and returns. -/
def take (relay : RelayTCP) (result : CopyResult) : RelayTCP :=
  match relay.results with
  | [] => { relay with results := [result] }
  | first :: more =>
    { relay with
      results := first :: more ++ [result]
      untracked := some (pickBytes .up first result, pickBytes .down first result)
      phase := .returned }

/-- The goroutines run. -/
def started (relay : RelayTCP) : Bool := relay.phase = .copying || relay.phase = .returned

/-- One step of the relay or of one of its goroutines. -/
def act (relay : RelayTCP) : Action → Option RelayTCP
  | .dial established =>
    if relay.phase = .dialing then
      some (if established then { relay with phase := .copying }
        else { relay with phase := .refused, untracked := some (0, 0) })
    else none
  | .read dir bytes err =>
    if relay.started then
      ((relay.legs dir).loop.read bytes err).map fun loop => relay.setLeg dir { relay.legs dir with loop }
    else none
  | .write dir short =>
    if relay.started then
      ((relay.legs dir).loop.write short).map fun loop => relay.setLeg dir { relay.legs dir with loop }
    else none
  | .closeWrite dir =>
    if relay.started ∧ (relay.legs dir).loop.hasEnded ∧ !(relay.legs dir).closed then
      some (relay.setLeg dir { relay.legs dir with closed := true })
    else none
  | .send dir =>
    if relay.started ∧ (relay.legs dir).closed ∧ !(relay.legs dir).sent then
      some { relay.setLeg dir { relay.legs dir with sent := true } with
        copyDone := relay.copyDone ++ [(relay.legs dir).result dir] }
    else none
  | .receive =>
    if relay.phase = .copying then
      match relay.copyDone with
      | [] => none
      | result :: rest => some ({ relay with copyDone := rest }.take result)
    else none

/-- **What a step does.** -/
inductive Acted (relay : RelayTCP) : Action → RelayTCP → Prop
  | established (dialing : relay.phase = .dialing) : Acted relay (.dial true) { relay with phase := .copying }
  | refused (dialing : relay.phase = .dialing) :
      Acted relay (.dial false) { relay with phase := .refused, untracked := some (0, 0) }
  | read {dir : Dir} {bytes : List UInt8} {err : Option ReadErr} {loop : CopyLoop} (started : relay.started = true)
      (moved : (relay.legs dir).loop.read bytes err = some loop) :
      Acted relay (.read dir bytes err) (relay.setLeg dir { relay.legs dir with loop })
  | write {dir : Dir} {short : Option Nat} {loop : CopyLoop} (started : relay.started = true)
      (moved : (relay.legs dir).loop.write short = some loop) :
      Acted relay (.write dir short) (relay.setLeg dir { relay.legs dir with loop })
  | closeWrite {dir : Dir} (started : relay.started = true) (ended : (relay.legs dir).loop.hasEnded = true)
      (first : (relay.legs dir).closed = false) :
      Acted relay (.closeWrite dir) (relay.setLeg dir { relay.legs dir with closed := true })
  | send {dir : Dir} (started : relay.started = true) (closed : (relay.legs dir).closed = true)
      (first : (relay.legs dir).sent = false) :
      Acted relay (.send dir) { relay.setLeg dir { relay.legs dir with sent := true } with
        copyDone := relay.copyDone ++ [(relay.legs dir).result dir] }
  | receive {result : CopyResult} {rest : List CopyResult} (copying : relay.phase = .copying)
      (waits : relay.copyDone = result :: rest) : Acted relay .receive ({ relay with copyDone := rest }.take result)

theorem acted_of_act {relay next : RelayTCP} {action : Action} (acted : relay.act action = some next) :
    Acted relay action next := by
  cases action with
  | dial established =>
    obtain ⟨dialing, same⟩ := Option.ite_none_right_eq_some.mp acted
    cases established <;> cases same
    · exact .refused dialing
    · exact .established dialing
  | read dir bytes err =>
    obtain ⟨started, rest⟩ := Option.ite_none_right_eq_some.mp acted
    obtain ⟨loop, moved, rfl⟩ := Option.map_eq_some_iff.mp rest
    exact .read started moved
  | write dir short =>
    obtain ⟨started, rest⟩ := Option.ite_none_right_eq_some.mp acted
    obtain ⟨loop, moved, rfl⟩ := Option.map_eq_some_iff.mp rest
    exact .write started moved
  | closeWrite dir =>
    obtain ⟨⟨started, ended, first⟩, same⟩ := Option.ite_none_right_eq_some.mp acted
    cases same
    exact .closeWrite started ended (Bool.not_eq_true' _ ▸ first)
  | send dir =>
    obtain ⟨⟨started, closed, first⟩, same⟩ := Option.ite_none_right_eq_some.mp acted
    cases same
    exact .send started closed (Bool.not_eq_true' _ ▸ first)
  | receive =>
    obtain ⟨copying, rest⟩ := Option.ite_none_right_eq_some.mp acted
    cases waits : relay.copyDone with
    | nil =>
      rw [waits] at rest
      cases rest
    | cons result more =>
      rw [waits] at rest
      cases rest
      exact .receive copying waits

variable {relay next : RelayTCP} {action : Action} {dir : Dir}

theorem legs_setLeg (relay : RelayTCP) (dir : Dir) (leg : Leg) (other : Dir) :
    (relay.setLeg dir leg).legs other = if other = dir then leg else relay.legs other :=
  Function.update_apply relay.legs dir leg other

@[simp] theorem started_setLeg (relay : RelayTCP) (dir : Dir) (leg : Leg) :
    (relay.setLeg dir leg).started = relay.started := rfl

@[simp] theorem legs_take (relay : RelayTCP) (result : CopyResult) : (relay.take result).legs = relay.legs := by
  unfold take
  split <;> rfl

/-- What a step does to a goroutine: it moves its copy, or it goes on to what comes after. -/
theorem turn_act (acted : relay.act action = some next) (other : Dir) :
    CopyLoop.Turn (fun bytes err => action = .read other bytes err) (fun short => action = .write other short)
        (relay.legs other).loop (next.legs other).loop ∧
      ((relay.legs other).closed = true → (next.legs other).closed = true) := by
  cases acted_of_act acted with
  | established | refused => exact ⟨.idle rfl, id⟩
  | read _ moved =>
    rw [legs_setLeg]
    split
    next same =>
      subst same
      exact ⟨.read rfl moved, id⟩
    next => exact ⟨.idle rfl, id⟩
  | write _ moved =>
    rw [legs_setLeg]
    split
    next same =>
      subst same
      exact ⟨.write rfl moved, id⟩
    next => exact ⟨.idle rfl, id⟩
  | closeWrite =>
    rw [legs_setLeg]
    split
    next same => exact same ▸ ⟨.idle rfl, fun _ => rfl⟩
    next => exact ⟨.idle rfl, id⟩
  | @send dir =>
    show CopyLoop.Turn _ _ _ ((relay.setLeg dir _).legs other).loop ∧
      (_ → ((relay.setLeg dir _).legs other).closed = true)
    rw [legs_setLeg]
    split
    next same => exact same ▸ ⟨.idle rfl, id⟩
    next => exact ⟨.idle rfl, id⟩
  | receive =>
    rw [legs_take]
    exact ⟨.idle rfl, id⟩

/-! ### How far the goroutines are -/

/-- A goroutine does one thing after the other. -/
def InOrder (leg : Leg) : Prop :=
  (leg.closed = true → leg.loop.hasEnded = true) ∧ (leg.sent = true → leg.closed = true)

/-- Each goroutine has sent its own result, and once. -/
def Posted (relay : RelayTCP) : Prop := ∀ dir,
  (relay.results ++ relay.copyDone).filter (·.dir = dir) =
    if (relay.legs dir).sent then [(relay.legs dir).result dir] else []

/-- What the relay itself has done in each of its phases. -/
def Reported (relay : RelayTCP) : Prop :=
  match relay.phase with
  | .dialing => relay.results = [] ∧ relay.untracked = none
  | .copying => relay.results.length < 2 ∧ relay.untracked = none
  | .refused => relay.untracked = some (0, 0)
  | .returned => ∃ first second, relay.results = [first, second] ∧
      relay.untracked = some (pickBytes .up first second, pickBytes .down first second)

structure Orderly (relay : RelayTCP) : Prop where
  legs : ∀ dir, InOrder (relay.legs dir)
  posted : relay.Posted
  reported : relay.Reported

theorem orderly_start : Orderly {} :=
  ⟨fun _ => ⟨fun closed => Bool.noConfusion closed, fun sent => Bool.noConfusion sent⟩, fun _ => rfl, rfl, rfl⟩

/-- A result that was sent is the one of its goroutine. -/
theorem Posted.eq_result (posted : relay.Posted) {result : CopyResult}
    (member : result ∈ relay.results ++ relay.copyDone) :
    (relay.legs result.dir).sent = true ∧ result = (relay.legs result.dir).result result.dir := by
  have own : result ∈ (relay.results ++ relay.copyDone).filter (·.dir = result.dir) :=
    List.mem_filter.mpr ⟨member, decide_eq_true rfl⟩
  rw [posted] at own
  split at own
  · next sent => exact ⟨sent, List.mem_singleton.mp own⟩
  · cases own

/-- **The counts of a relay that has returned** are those of its two copies, whichever ended first. -/
theorem Orderly.untracked_eq (orderly : relay.Orderly) (returned : relay.phase = .returned) :
    (∀ dir, (relay.legs dir).sent = true) ∧
      relay.untracked =
        some (.ofNat (copied (relay.legs .up).loop).length, .ofNat (copied (relay.legs .down).loop).length) := by
  have reported := orderly.reported
  rw [Reported, returned] at reported
  obtain ⟨first, second, results, untracked⟩ := reported
  have members : first ∈ relay.results ++ relay.copyDone ∧ second ∈ relay.results ++ relay.copyDone := by
    rw [results]
    exact ⟨List.mem_cons_self, List.mem_cons_of_mem _ List.mem_cons_self⟩
  obtain ⟨firstSent, firstEq⟩ := orderly.posted.eq_result members.1
  obtain ⟨secondSent, secondEq⟩ := orderly.posted.eq_result members.2
  have different : first.dir ≠ second.dir := by
    intro same
    have one := congrArg List.length (orderly.posted second.dir)
    simp [results, same, secondSent] at one
  rw [untracked, firstEq, secondEq]
  generalize first.dir = one at firstSent different ⊢
  generalize second.dir = two at secondSent different ⊢
  cases one <;> cases two
  · exact absurd rfl different
  · refine ⟨fun dir => ?_, rfl⟩
    cases dir
    · exact firstSent
    · exact secondSent
  · refine ⟨fun dir => ?_, rfl⟩
    cases dir
    · exact secondSent
    · exact firstSent
  · exact absurd rfl different

/-- While one of its goroutines has not sent its result, a relay that was started waits for it. -/
theorem Orderly.copying (orderly : relay.Orderly) (started : relay.started = true)
    (unsent : (relay.legs dir).sent = false) : relay.phase = .copying := by
  rcases Bool.or_eq_true_iff.mp started with copying | returned
  · exact of_decide_eq_true copying
  · have sent := (orderly.untracked_eq (of_decide_eq_true returned)).1 dir
    exact Bool.noConfusion (sent.symm.trans unsent)

/-- A goroutine goes on, and has not sent its result yet. -/
theorem Orderly.move {later : Leg} (orderly : relay.Orderly) (started : relay.started = true)
    (inOrder : InOrder later) (before : (relay.legs dir).sent = false) (after : later.sent = false) :
    (relay.setLeg dir later).Orderly := by
  have copying := orderly.copying started before
  refine ⟨fun other => ?_, fun other => ?_, ?_⟩
  · rw [legs_setLeg]
    split
    · exact inOrder
    · exact orderly.legs other
  · rw [legs_setLeg]
    refine (orderly.posted other).trans ?_
    by_cases same : other = dir
    · rw [if_pos same, same, before, after]
      rfl
    · rw [if_neg same]
  · have reported := orderly.reported
    rw [Reported, copying] at reported
    simpa only [Reported, setLeg, copying] using reported

/-- A goroutine whose copy goes on has done nothing after it. -/
theorem Orderly.unsent (orderly : relay.Orderly) (running : (relay.legs dir).loop.hasEnded = false) :
    (relay.legs dir).closed = false ∧ (relay.legs dir).sent = false := by
  have unclosed : (relay.legs dir).closed = false :=
    Bool.eq_false_iff.mpr (mt (orderly.legs dir).1 (Bool.eq_false_iff.mp running))
  exact ⟨unclosed, Bool.eq_false_iff.mpr (mt (orderly.legs dir).2 (Bool.eq_false_iff.mp unclosed))⟩

/-- A copy moves. -/
theorem Orderly.advance (orderly : relay.Orderly) (started : relay.started = true)
    (running : (relay.legs dir).loop.hasEnded = false) (loop : CopyLoop) :
    (relay.setLeg dir { relay.legs dir with loop }).Orderly := by
  obtain ⟨unclosed, unsent⟩ := orderly.unsent running
  refine orderly.move started ⟨fun closed => ?_, (orderly.legs dir).2⟩ unsent unsent
  exact Bool.noConfusion (unclosed.symm.trans closed)

theorem orderly_send (orderly : relay.Orderly) (started : relay.started = true)
    (closed : (relay.legs dir).closed = true) (first : (relay.legs dir).sent = false) :
    Orderly { relay.setLeg dir { relay.legs dir with sent := true } with
      copyDone := relay.copyDone ++ [(relay.legs dir).result dir] } := by
  have copying := orderly.copying started first
  have reported := orderly.reported
  rw [Reported, copying] at reported
  have legs := legs_setLeg relay dir { relay.legs dir with sent := true }
  refine ⟨fun other => ?_, fun other => ?_, ?_⟩
  · show InOrder ((relay.setLeg dir _).legs other)
    rw [legs]
    split
    · exact ⟨(orderly.legs dir).1, fun _ => closed⟩
    · exact orderly.legs other
  · show (relay.results ++ (relay.copyDone ++ [_])).filter (·.dir = other) =
      if ((relay.setLeg dir _).legs other).sent then [((relay.setLeg dir _).legs other).result other] else []
    rw [legs, ← List.append_assoc, List.filter_append, orderly.posted]
    by_cases same : other = dir
    · subst same
      simp [first, Leg.result]
    · have apart : ¬ dir = other := fun back => same back.symm
      simp [Leg.result, same, apart]
  · simpa only [Reported, setLeg, copying] using reported

theorem orderly_take {result : CopyResult} {rest : List CopyResult} (orderly : relay.Orderly)
    (copying : relay.phase = .copying) (waits : relay.copyDone = result :: rest) :
    (take { relay with copyDone := rest } result).Orderly := by
  have posted := orderly.posted
  have reported := orderly.reported
  rw [Reported, copying] at reported
  obtain ⟨few, untracked⟩ := reported
  rw [Posted, waits] at posted
  cases results : relay.results with
  | nil =>
    rw [results] at posted
    change Orderly { relay with copyDone := rest, results := [result] }
    refine ⟨orderly.legs, posted, ?_⟩
    simp only [Reported, copying]
    exact ⟨Nat.one_lt_two, untracked⟩
  | cons first more =>
    obtain rfl : more = [] := by
      rw [results, List.length_cons, Nat.succ_lt_succ_iff, Nat.lt_one_iff] at few
      exact List.eq_nil_of_length_eq_zero few
    rw [results] at posted
    exact ⟨orderly.legs, posted, first, result, rfl, rfl⟩

theorem orderly_act (orderly : relay.Orderly) (acted : relay.act action = some next) : next.Orderly := by
  have reported := orderly.reported
  cases acted_of_act acted with
  | established dialing =>
    rw [Reported, dialing] at reported
    refine ⟨orderly.legs, orderly.posted, ?_, reported.2⟩
    rw [reported.1]
    exact Nat.zero_lt_two
  | refused dialing => exact ⟨orderly.legs, orderly.posted, rfl⟩
  | read started moved => exact orderly.advance started (hasEnded_of_read moved) _
  | write started moved => exact orderly.advance started (CopyLoop.running_of_write moved) _
  | @closeWrite dir started ended first =>
    have unsent : (relay.legs dir).sent = false :=
      Bool.eq_false_iff.mpr (mt (orderly.legs dir).2 (Bool.eq_false_iff.mp first))
    exact orderly.move started ⟨fun _ => ended, fun _ => rfl⟩ unsent unsent
  | send started closed first => exact orderly_send orderly started closed first
  | receive copying waits => exact orderly_take orderly copying waits

/-! ### What the relay puts into its connections -/

/-- What was written to the tunnel, or to the application. A refused dial closes the body of the request, and the
deferred `localConn.Close()` the other. -/
def output (relay : RelayTCP) (dir : Dir) : Conduit UInt8 where
  put := copied (relay.legs dir).loop
  closed := (relay.legs dir).closed || relay.phase = .refused

theorem closed_of_output (established : relay.phase ≠ .refused) (marked : (relay.output dir).closed = true) :
    (relay.legs dir).closed = true := by
  rcases Bool.or_eq_true_iff.mp marked with closed | refused
  · exact closed
  · exact absurd (of_decide_eq_true refused) established

theorem grows_act (orderly : relay.Orderly) (acted : relay.act action = some next) (dir : Dir) :
    (relay.output dir).Grows (next.output dir) := by
  obtain ⟨turn, stays⟩ := turn_act acted dir
  refine ⟨CopyLoop.copied_turn turn, fun marked => ?_⟩
  rcases Bool.or_eq_true_iff.mp marked with closed | refused
  · have same := CopyLoop.eq_of_turn turn ((orderly.legs dir).1 closed)
    exact ⟨Bool.or_eq_true_iff.mpr (.inl (stays closed)), congrArg copied same⟩
  · have refused : relay.phase = .refused := of_decide_eq_true refused
    have idle : relay.act action = none := by cases action <;> simp [act, started, refused]
    cases idle.symm.trans acted

end RelayTCP

end Ttgo.Client

/-
**The UDP session of a TLS connection.**

`internal/udp/mux.go`: the frames of a `_udp2` stream, and the `Session` that keeps one socket for each
flow. Sockets are never reused, so a socket is its place in the list of all that were dialed, and what
shut it is kept with it.

* `readOutgoing` — one frame of the stream, with its three ways to fail.
* `Session.getOrDial`, `remove`, `reap`, `close` — the operations under the session's lock.
* `Session.Booked` — the socket of a flow leads to the flow's destination.
* `Session.Cut` — `Close` has been at the session.
* `Session.Next` — what every operation but `close` keeps; `Session.Grows` — what all of them keep.
-/

import Ttgo.Lib.GoMap
import Ttgo.Lib.GoNet

namespace Ttgo.Udp

open Ttgo.Lib

/-! ### Frames -/

/-- The payload of a frame with the addresses of its flow. -/
structure Frame where
  srcIP : List UInt8
  srcPort : Nat
  dstIP : List UInt8
  dstPort : Nat
  payload : List UInt8
deriving DecidableEq, Repr

inductive ReadError
  | eof
  | unexpectedEOF
  | tooShort
  | truncated
deriving DecidableEq, Repr

/-- `io.ReadFull` of what has arrived. -/
def readFull (count : Nat) (input : List UInt8) : Except ReadError (List UInt8 × List UInt8) :=
  if count ≤ input.length then .ok (input.take count, input.drop count)
  else if input = [] then .error .eof
  else .error .unexpectedEOF

def bigEndian (bytes : List UInt8) : Nat := bytes.foldl (fun number byte => number * 256 + byte.toNat) 0

/-- The body of a frame: addresses and ports, the name of the application, the payload. -/
def parseBody (body : List UInt8) : Except ReadError Frame :=
  if body.length < 37 then .error .tooShort
  else
    let start := 37 + (body.getD 36 0).toNat
    if body.length < start then .error .truncated
    else
      .ok {
        srcIP := body.take 16
        srcPort := bigEndian ((body.drop 16).take 2)
        dstIP := (body.drop 18).take 16
        dstPort := bigEndian ((body.drop 34).take 2)
        payload := body.drop start }

def readOutgoing (input : List UInt8) : Except ReadError (Frame × List UInt8) := do
  let header ← readFull 4 input
  let body ← readFull (bigEndian header.1) header.2
  let frame ← parseBody body.1
  return (frame, body.2)

/-! ### The session -/

structure ConnKey where
  srcAddr : List UInt8
  srcPort : Nat
  dstAddr : List UInt8
  dstPort : Nat
deriving DecidableEq, Repr

def Frame.key (frame : Frame) : ConnKey := ⟨frame.srcIP, frame.srcPort, frame.dstIP, frame.dstPort⟩

/-- What closed a socket. -/
inductive Shut
  | close
  | reap
  | remove
deriving DecidableEq, Repr

structure UdpConn where
  /-- The address that the socket is connected to. -/
  dst : List UInt8 × Nat
  lastSeen : Nat
  shut : Option Shut
deriving DecidableEq, Repr

/-- Where a socket for the flow leads. -/
def ConnKey.dst (key : ConnKey) : List UInt8 × Nat := (reachedIP key.dstAddr, key.dstPort)

def Frame.dst (frame : Frame) : List UInt8 × Nat := frame.key.dst

structure Session where
  conns : GoMap ConnKey Nat
  /-- Every socket that was dialed. -/
  sockets : List UdpConn
  closed : Bool
deriving DecidableEq

namespace Session

/-- `NewSession`. -/
def new : Session := ⟨∅, [], false⟩

def shutWhere (which : Nat → Bool) (cause : Shut) (sockets : List UdpConn) : List UdpConn :=
  sockets.mapIdx fun id uc => if which id && uc.shut.isNone then { uc with shut := some cause } else uc

inductive Dialed
  | closed
  | failed
  | conn (id : Nat)
deriving DecidableEq, Repr

/-- `getOrDial`; `dials` is whether `DialUDP` succeeds. -/
def getOrDial (s : Session) (key : ConnKey) (now : Nat) (dials : Bool) : Dialed × Session :=
  if s.closed then (.closed, s)
  else
    match s.conns.lookup key with
    | some id => (.conn id, s)
    | none =>
      if dials then
        (.conn s.sockets.length, { s with
          conns := s.conns.insert key s.sockets.length
          sockets := s.sockets ++ [⟨key.dst, now, none⟩] })
      else (.failed, s)

/-- `uc.lastSeen = time.Now()`. -/
def touch (s : Session) (id now : Nat) : Session :=
  { s with sockets := s.sockets.modify id fun uc => { uc with lastSeen := now } }

def remove (s : Session) (key : ConnKey) : Session :=
  match s.conns.lookup key with
  | none => s
  | some id =>
    { s with conns := s.conns.erase key, sockets := shutWhere (· = id) .remove s.sockets }

/-- The socket has been idle for longer than the timeout. -/
def idle (idleTimeout now : Nat) (s : Session) (id : Nat) : Bool :=
  (s.sockets[id]?).any fun uc => idleTimeout < now - uc.lastSeen

/-- One tick of `reaper`. -/
def reap (idleTimeout now : Nat) (s : Session) : Session :=
  if s.closed then s
  else
    { s with
      conns := s.conns.filterValues fun id => !s.idle idleTimeout now id
      sockets := shutWhere (fun id => s.idle idleTimeout now id &&
        s.conns.entries.any fun entry => entry.2 = id) .reap s.sockets }

def close (s : Session) : Session :=
  { conns := ∅
    sockets := shutWhere (fun id => s.conns.entries.any fun entry => entry.2 = id) .close s.sockets
    closed := true }

end Session

/-! ### What the operations keep -/

namespace Session

/-- The socket of a flow leads to the flow's destination. -/
def Booked (s : Session) : Prop :=
  ∀ key id, s.conns.lookup key = some id → ∃ uc, s.sockets[id]? = some uc ∧ uc.dst = key.dst

/-- `Close` has been at the session. -/
def Cut (s : Session) : Prop := s.closed = true ∨ ∃ uc ∈ s.sockets, uc.shut = some .close

/-- Sockets stay where they are and lead where they led. -/
def Grows (s later : Session) : Prop :=
  ∀ (id : Nat) (uc : UdpConn), s.sockets[id]? = some uc →
    ∃ uc' : UdpConn, later.sockets[id]? = some uc' ∧ uc'.dst = uc.dst

structure Next (s later : Session) : Prop where
  grows : s.Grows later
  booked : s.Booked → later.Booked
  cut : later.Cut → s.Cut

theorem Grows.refl (s : Session) : s.Grows s := fun _ uc found => ⟨uc, found, rfl⟩

theorem Next.refl (s : Session) : s.Next s := ⟨.refl s, id, id⟩

theorem Booked.of_grows {s later : Session} (booked : s.Booked) (grows : s.Grows later)
    (fewer : ∀ key id, later.conns.lookup key = some id → s.conns.lookup key = some id) :
    later.Booked := by
  intro key id found
  obtain ⟨uc, there, dst⟩ := booked key id (fewer key id found)
  obtain ⟨uc', later, same⟩ := grows id uc there
  exact ⟨uc', later, same.trans dst⟩

theorem getElem?_shutWhere (which : Nat → Bool) (cause : Shut) (sockets : List UdpConn) (id : Nat) :
    (shutWhere which cause sockets)[id]? = (sockets[id]?).map fun uc =>
      if which id && uc.shut.isNone then { uc with shut := some cause } else uc :=
  List.getElem?_mapIdx

theorem grows_shutWhere {s later : Session} {which : Nat → Bool} {cause : Shut}
    (sockets : later.sockets = shutWhere which cause s.sockets) : s.Grows later := by
  intro id uc found
  rw [sockets, getElem?_shutWhere, found]
  refine ⟨_, rfl, ?_⟩
  dsimp only
  split <;> rfl

theorem cut_of_shutWhere {s later : Session} {which : Nat → Bool} {cause : Shut}
    (other : cause ≠ .close) (sockets : later.sockets = shutWhere which cause s.sockets)
    (closed : later.closed = s.closed) (cut : later.Cut) : s.Cut := by
  rcases cut with isClosed | ⟨uc, member, shut⟩
  · exact .inl (closed ▸ isClosed)
  · obtain ⟨id, found⟩ := List.mem_iff_getElem?.1 member
    rw [sockets, getElem?_shutWhere, Option.map_eq_some_iff] at found
    obtain ⟨before, there, rfl⟩ := found
    split at shut
    · exact absurd (Option.some.inj shut) other
    · exact .inr ⟨before, List.mem_of_getElem? there, shut⟩

theorem next_remove (s : Session) (key : ConnKey) : s.Next (s.remove key) := by
  unfold remove
  split
  · exact .refl s
  · refine ⟨grows_shutWhere rfl, fun booked => booked.of_grows (grows_shutWhere rfl)
      fun other id found => ?_, cut_of_shutWhere (by decide) rfl rfl⟩
    rw [GoMap.lookup_erase_ite] at found
    split at found
    · cases found
    · exact found

theorem next_reap (idleTimeout now : Nat) (s : Session) : s.Next (s.reap idleTimeout now) := by
  unfold reap
  split
  · exact .refl s
  · refine ⟨grows_shutWhere rfl, fun booked => booked.of_grows (grows_shutWhere rfl)
      fun key id found => ?_, cut_of_shutWhere (by decide) rfl rfl⟩
    rw [GoMap.lookup_filterValues, Option.filter_eq_some_iff] at found
    exact found.1

theorem next_touch (s : Session) (id now : Nat) : s.Next (s.touch id now) := by
  have grows : s.Grows (s.touch id now) := by
    intro other uc found
    unfold touch
    rw [List.getElem?_modify, found]
    exact ⟨_, rfl, by dsimp only; split <;> rfl⟩
  refine ⟨grows, fun booked => booked.of_grows grows fun _ _ found => found, fun cut => ?_⟩
  rcases cut with closed | ⟨uc, member, shut⟩
  · exact .inl closed
  · obtain ⟨other, found⟩ := List.mem_iff_getElem?.1 member
    unfold touch at found
    rw [List.getElem?_modify, Option.map_eq_map, Option.map_eq_some_iff] at found
    obtain ⟨before, there, rfl⟩ := found
    refine .inr ⟨before, List.mem_of_getElem? there, ?_⟩
    split at shut <;> exact shut

theorem next_dial (s : Session) (key : ConnKey) (now : Nat) :
    s.Next { s with
      conns := s.conns.insert key s.sockets.length
      sockets := s.sockets ++ [⟨key.dst, now, none⟩] } := by
  refine ⟨fun id uc found => ⟨uc, ?_, rfl⟩, fun booked other id found => ?_, fun cut => ?_⟩
  · exact List.getElem?_append_left (List.getElem?_eq_some_iff.1 found).1 ▸ found
  · rw [GoMap.lookup_insert_ite] at found
    split at found
    · next same =>
      cases found
      exact ⟨_, List.getElem?_concat_length, congrArg ConnKey.dst same.symm⟩
    · obtain ⟨uc, there, dst⟩ := booked other id found
      exact ⟨uc, List.getElem?_append_left (List.getElem?_eq_some_iff.1 there).1 ▸ there, dst⟩
  · rcases cut with closed | ⟨uc, member, shut⟩
    · exact .inl closed
    · rcases List.mem_append.1 member with old | new
      · exact .inr ⟨uc, old, shut⟩
      · cases List.mem_singleton.1 new
        cases shut

theorem next_getOrDial (s : Session) (key : ConnKey) (now : Nat) (dials : Bool) :
    s.Next (s.getOrDial key now dials).2 := by
  unfold getOrDial
  split
  · exact .refl s
  · split
    · exact .refl s
    · split
      · exact next_dial s key now
      · exact .refl s

theorem getOrDial_conn {s later : Session} {key : ConnKey} {now id : Nat} {dials : Bool}
    (booked : s.Booked) (got : s.getOrDial key now dials = (.conn id, later)) :
    ∃ uc, later.sockets[id]? = some uc ∧ uc.dst = key.dst := by
  unfold getOrDial at got
  split at got
  · cases got
  · split at got
    · next found => cases got; exact booked key id found
    · split at got
      · cases got; exact ⟨_, List.getElem?_concat_length, rfl⟩
      · cases got

theorem getOrDial_closed {s later : Session} {key : ConnKey} {now : Nat} {dials : Bool}
    (got : s.getOrDial key now dials = (.closed, later)) : s.Cut := by
  unfold getOrDial at got
  split at got
  · next closed => exact .inl closed
  · split at got
    · cases got
    · split at got <;> cases got

theorem grows_close (s : Session) : s.Grows s.close := grows_shutWhere rfl

theorem booked_close (s : Session) : s.close.Booked := fun _ _ found => by cases found

end Session

end Ttgo.Udp

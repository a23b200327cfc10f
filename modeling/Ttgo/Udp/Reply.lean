/-
**The replies of a UDP session.**

`getOrDial` starts a goroutine for every socket that it dials: it reads datagrams and writes them to the
response of the stream that dialed. Another stream of the session may use the socket later; the writer
stays the one of the first.

* `writeIncoming` — the frame of a datagram that comes back.
* `Reader` — the goroutine of a socket.
* `step` — the relay with its readers.
* `replies` — the readers as a `Handoff`: `ReadFromUDP` fetches a datagram for a stream, `Write` delivers
  it, and a stream is finished when its `ServeHTTP` has returned.
-/

import Ttgo.Lib.Handoff
import Ttgo.Udp.Relay

namespace Ttgo.Udp.Reply

open Ttgo.Lib

/-- `count` bytes of a number, the most significant first. -/
def putBigEndian : Nat → Nat → List UInt8
  | 0, _ => []
  | count + 1, n => putBigEndian count (n / 256) ++ [UInt8.ofNat n]

/-- `[length:4][srcAddr:16][srcPort:2][dstAddr:16][dstPort:2][payload:N]`. -/
def writeIncoming (src dst : List UInt8 × Nat) (payload : List UInt8) : List UInt8 :=
  putBigEndian 4 (36 + payload.length) ++ src.1 ++ putBigEndian 2 src.2 ++ dst.1 ++
    putBigEndian 2 dst.2 ++ payload

inductive Phase
  | reading
  /-- `ReadFromUDP` returned a datagram; before `writeIncoming`. -/
  | writing (frame : List UInt8)
  | ended
deriving DecidableEq, Repr

structure Reader where
  socket : Nat
  key : ConnKey
  /-- The stream whose writer the goroutine holds. -/
  stream : Nat
  phase : Phase
deriving DecidableEq, Repr

def Reader.holding (reader : Reader) : Bool :=
  match reader.phase with
  | .writing _ => true
  | .reading | .ended => false

structure Sys where
  relay : Udp.Sys
  readers : List Reader
  /-- The frames that were written, with the stream. -/
  written : List (Nat × List UInt8)
deriving DecidableEq

def Sys.initial : Sys := ⟨.initial, [], []⟩

inductive Event
  | relay (event : Udp.Event)
  /-- `ReadFromUDP` returns a datagram of the peer that the socket is connected to. -/
  | receive (reader : Nat) (payload : List UInt8)
  /-- `ReadFromUDP` fails. -/
  | fails (reader : Nat)
  | write (reader : Nat) (succeeds : Bool)
deriving DecidableEq, Repr

def socketCount (relay : Udp.Sys) : Nat := (relay.udp.map fun session => session.sockets.length).getD 0

/-- The goroutine that `getOrDial` starts, if it dialed. -/
def started (before after : Udp.Sys) : Udp.Event → List Reader
  | .stream index (.getOrDial _ _) =>
    match (before.streams[index]?).map Stream.phase with
    | some (.dialing frame) =>
      if socketCount before < socketCount after then
        [⟨socketCount before, frame.key, index, .reading⟩]
      else []
    | _ => []
  | _ => []

def Sys.socket (s : Sys) (id : Nat) : Option UdpConn :=
  s.relay.udp.bind fun session => session.sockets[id]?

def step (idleTimeout : Nat) (s : Sys) : Event → Option Sys
  | .relay event => (Udp.step idleTimeout s.relay event).map fun relay =>
      { s with relay, readers := s.readers ++ started s.relay relay event }
  | .receive index payload => do
    let reader ← s.readers[index]?
    let uc ← s.socket reader.socket
    if reader.phase = .reading ∧ uc.shut = none then
      -- a connected socket receives from its peer only
      let frame := writeIncoming uc.dst (reader.key.srcAddr, reader.key.srcPort) payload
      some { s with readers := s.readers.set index { reader with phase := .writing frame } }
    else none
  | .fails index => do
    let reader ← s.readers[index]?
    if reader.phase = .reading then
      some { s with readers := s.readers.set index { reader with phase := .ended } }
    else none
  | .write index succeeds => do
    let reader ← s.readers[index]?
    match reader.phase with
    | .writing frame =>
      some { s with
        readers := s.readers.set index { reader with phase := if succeeds then .reading else .ended }
        written := s.written ++ [(reader.stream, frame)] }
    | .reading | .ended => none

/-! ### The readers and their streams -/

namespace Sys

def holdsFor (s : Sys) (stream : Nat) : Bool :=
  s.readers.any fun reader => reader.stream = stream && reader.holding

def hasReturned (s : Sys) (stream : Nat) : Bool :=
  (s.relay.streams[stream]?).any fun stream => stream.phase = .ended

def fetches (s : Sys) : Event → Option Nat
  | .receive index _ => (s.readers[index]?).map Reader.stream
  | .relay _ | .fails _ | .write _ _ => none

def returns : Event → Option Nat
  | .relay (.stream index .close) => some index
  | .relay _ | .receive _ _ | .fails _ | .write _ _ => none

def writes (s : Sys) : Event → Option Nat
  | .write index _ => (s.readers[index]?).map Reader.stream
  | .relay _ | .receive _ _ | .fails _ => none

variable {idleTimeout : Nat} {s next : Sys} {event : Event} {owner index : Nat} {reader moved : Reader}

theorem holdsFor_iff : s.holdsFor owner = true ↔
    ∃ reader ∈ s.readers, reader.stream = owner ∧ reader.holding = true := by
  simp only [holdsFor, List.any_eq_true, Bool.and_eq_true, decide_eq_true_eq]

theorem started_reading {before after : Udp.Sys} {event : Udp.Event}
    (member : reader ∈ started before after event) : reader.holding = false := by
  unfold started at member
  split at member
  · split at member
    · split at member
      · cases List.mem_singleton.mp member
        rfl
      · cases member
    · cases member
  · cases member

theorem holdsFor_set {written : List (Nat × List UInt8)}
    (holds : Sys.holdsFor ⟨s.relay, s.readers.set index moved, written⟩ owner = true)
    (idle : moved.holding = false) : s.holdsFor owner = true := by
  obtain ⟨other, member, own, held⟩ := holdsFor_iff.mp holds
  rcases List.mem_or_eq_of_mem_set member with old | rfl
  · exact holdsFor_iff.mpr ⟨other, old, own, held⟩
  · rw [idle] at held
    cases held

theorem holdsFor_step (taken : step idleTimeout s event = some next)
    (holds : next.holdsFor owner = true) :
    s.holdsFor owner = true ∨ s.fetches event = some owner := by
  cases event with
  | relay event =>
    obtain ⟨relay, -, rfl⟩ := Option.map_eq_some_iff.mp taken
    obtain ⟨reader, member, own, held⟩ := holdsFor_iff.mp holds
    rcases List.mem_append.mp member with old | new
    · exact .inl (holdsFor_iff.mpr ⟨reader, old, own, held⟩)
    · rw [started_reading new] at held
      cases held
  | receive index payload =>
    obtain ⟨reader, found, rest⟩ := Option.bind_eq_some_iff.mp taken
    obtain ⟨uc, -, rest⟩ := Option.bind_eq_some_iff.mp rest
    obtain ⟨-, same⟩ := Option.ite_none_right_eq_some.mp rest
    cases same
    obtain ⟨other, member, own, held⟩ := holdsFor_iff.mp holds
    rcases List.mem_or_eq_of_mem_set member with old | rfl
    · exact .inl (holdsFor_iff.mpr ⟨other, old, own, held⟩)
    · refine .inr ?_
      rw [fetches, found, Option.map_some]
      exact congrArg some own
  | fails index =>
    obtain ⟨reader, found, rest⟩ := Option.bind_eq_some_iff.mp taken
    obtain ⟨-, same⟩ := Option.ite_none_right_eq_some.mp rest
    cases same
    exact .inl (holdsFor_set holds rfl)
  | write index succeeds =>
    obtain ⟨reader, found, rest⟩ := Option.bind_eq_some_iff.mp taken
    split at rest
    · cases rest
      refine .inl (holdsFor_set holds ?_)
      cases succeeds <;> rfl
    all_goals cases rest

theorem holdsFor_of_writes (taken : step idleTimeout s event = some next)
    (writes : s.writes event = some owner) : s.holdsFor owner = true := by
  cases event with
  | write index succeeds =>
    obtain ⟨reader, found, rest⟩ := Option.bind_eq_some_iff.mp taken
    rw [Sys.writes, found, Option.map_some, Option.some.injEq] at writes
    refine holdsFor_iff.mpr ⟨reader, List.mem_of_getElem? found, writes, ?_⟩
    split at rest
    · next frame phase => rw [Reader.holding, phase]
    all_goals cases rest
  | relay event | receive index payload | fails index => cases writes

theorem ended_act {session later : Session} {live : Bool} {stream stepped : Stream} {action : Action}
    (acted : stream.act session live action = some (later, stepped))
    (ended : stepped.phase = .ended) : stream.phase = .ended ∨ action = .close := by
  unfold Stream.act at acted
  split at acted
  · cases acted
    exact .inl ended
  · cases acted
    exact .inl ended
  · obtain ⟨read, got, same⟩ := Option.map_eq_some_iff.mp acted
    cases same
    unfold Stream.read at got
    split at got
    · cases got
      cases ended
    · cases got
      cases ended
    · cases got
      cases ended
    all_goals
      obtain ⟨-, same⟩ := Option.ite_none_right_eq_some.mp got
      cases same
      cases ended
  · cases acted
    unfold Stream.dialed at ended
    split at ended <;> cases ended
  · cases acted
    cases ended
  · obtain ⟨uc, -, same⟩ := Option.map_eq_some_iff.mp acted
    cases same
    unfold Stream.wrote at ended
    split at ended <;> cases ended
  · cases acted
    cases ended
  · exact .inr rfl
  · cases acted

theorem hasReturned_step (taken : step idleTimeout s event = some next)
    (returned : next.hasReturned owner = true) :
    s.hasReturned owner = true ∨ returns event = some owner := by
  obtain ⟨stream, there, ended⟩ := (Option.any_eq_true _ _).mp returned
  have before : s.relay.streams[owner]? = some stream → s.hasReturned owner = true := fun old =>
    (Option.any_eq_true _ _).mpr ⟨stream, old, ended⟩
  cases event with
  | relay event =>
    obtain ⟨relay, moved, rfl⟩ := Option.map_eq_some_iff.mp taken
    cases event with
    | openStream =>
      obtain ⟨-, same⟩ := Option.ite_none_right_eq_some.mp moved
      cases same
      rcases pool_get_append there with old | ⟨-, rfl⟩
      · exact .inl (before old)
      · cases ended
    | stream index action =>
      obtain ⟨session, stream', later, stepped, -, found, acted, rfl⟩ := step_stream moved
      rcases pool_get_set found there with ⟨rfl, rfl⟩ | ⟨-, old⟩
      · rcases ended_act acted (of_decide_eq_true ended) with already | rfl
        · exact .inl ((Option.any_eq_true _ _).mpr ⟨stream', found, decide_eq_true already⟩)
        · exact .inr rfl
      · exact .inl (before old)
    | reap now =>
      cases moved
      exact .inl (before there)
    | done =>
      cases moved
      exact .inl (before there)
    | cleanup =>
      obtain ⟨-, same⟩ := Option.ite_none_left_eq_some.mp moved
      cases same
      exact .inl (before there)
  | receive index payload =>
    obtain ⟨reader, -, rest⟩ := Option.bind_eq_some_iff.mp taken
    obtain ⟨uc, -, rest⟩ := Option.bind_eq_some_iff.mp rest
    obtain ⟨-, same⟩ := Option.ite_none_right_eq_some.mp rest
    cases same
    exact .inl (before there)
  | fails index =>
    obtain ⟨reader, -, rest⟩ := Option.bind_eq_some_iff.mp taken
    obtain ⟨-, same⟩ := Option.ite_none_right_eq_some.mp rest
    cases same
    exact .inl (before there)
  | write index succeeds =>
    obtain ⟨reader, -, rest⟩ := Option.bind_eq_some_iff.mp taken
    split at rest
    · cases rest
      exact .inl (before there)
    all_goals cases rest

theorem returns_ne_of_fetches (fetched : s.fetches event = some owner) :
    returns event ≠ some owner := by
  cases event with
  | receive index payload => exact fun returned => by cases returned
  | relay event | fails index | write index succeeds => cases fetched

end Sys

/-- **The readers and the responses they write to.** -/
def replies (idleTimeout : Nat) : Handoff (step idleTimeout) Nat where
  invariant _ := True
  inHand := Sys.holdsFor
  finished := Sys.hasReturned
  fetches := Sys.fetches
  finishes _ := Sys.returns
  delivers := Sys.writes
  invariant_step := fun _ _ => trivial
  inHand_step := fun _ taken holds => Sys.holdsFor_step taken holds
  finished_step := Sys.hasReturned_step
  not_both := Sys.returns_ne_of_fetches
  inHand_of_delivers := Sys.holdsFor_of_writes

end Ttgo.Udp.Reply

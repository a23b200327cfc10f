/-
**The ICMP multiplexer.**

`internal/icmp/mux.go`: one raw socket for the whole process, a table of the requests that wait for a
reply, and for every echo request a goroutine that sends it, waits and writes the reply to the stream it
came from.

* `readEchoRequest`, `writeEchoReply` — the frames of a `_icmp` stream.
* `Request` — the goroutine of an echo request; its place in the list of all requests is its channel.
* `Request.act`, `Stream.act` — the steps of a goroutine and of `ServeHTTP` between two locks.
* `Sys.register`, `Sys.unregister`, `Sys.broadcast` — what is done under the lock of the table.
* `step` — any interleaving of the streams, the goroutines and the messages that come in.
-/

import Ttgo.Lib.GoMap
import Ttgo.Lib.GoNet
import Ttgo.Lib.Pool
import Ttgo.Lib.Run
import Ttgo.Udp.Mux

namespace Ttgo.Icmp

open Ttgo.Lib
open Ttgo.Udp (ReadError readFull bigEndian)

/-! ### Frames -/

structure Echo where
  id : UInt16
  dst : IP
  seq : UInt16
  ttl : UInt8
deriving DecidableEq, Repr

/-- `[id:2][dstAddr:16][seq:2][ttl:1][dataSize:2]`; the size is not used. -/
def readEchoRequest (input : List UInt8) : Except ReadError (Echo × List UInt8) :=
  (readFull 23 input).map fun read =>
    ({ id := UInt16.ofNat (bigEndian (read.1.take 2))
       dst := (read.1.drop 2).take 16
       seq := UInt16.ofNat (bigEndian ((read.1.drop 18).take 2))
       ttl := read.1.getD 20 0 }, read.2)

structure ReplyMsg where
  srcIP : IP
  typ : UInt8
  code : UInt8
  seq : UInt16
deriving DecidableEq, Repr

def putUint16 (n : UInt16) : List UInt8 := [(n >>> 8).toUInt8, n.toUInt8]

/-- `[id:2][srcAddr:16][type:1][code:1][seq:2]`. -/
def writeEchoReply (id : UInt16) (reply : ReplyMsg) : List UInt8 :=
  putUint16 id ++ (reply.srcIP ++ List.replicate 16 0).take 16 ++ [reply.typ, reply.code] ++
    putUint16 reply.seq

/-! ### The goroutine of a request -/

structure PendingKey where
  sessionID : Nat
  id : UInt16
deriving DecidableEq, Repr

inductive Phase
  /-- In `send`. -/
  | sending
  /-- In the `select`. -/
  | waiting
  /-- A reply was taken from the channel; before `writeEchoReply`. -/
  | replying (reply : ReplyMsg)
  /-- Before the deferred `delete`. -/
  | leaving
  | ended
deriving DecidableEq, Repr

structure Request where
  /-- The stream whose writer the goroutine holds. -/
  stream : Nat
  sessionID : Nat
  echo : Echo
  phase : Phase := .sending
  /-- What is in the channel, which has room for one. -/
  channel : Option ReplyMsg := none
  /-- The echo has left through the socket. -/
  sent : Bool := false
deriving DecidableEq, Repr

namespace Request

def key (request : Request) : PendingKey := ⟨request.sessionID, request.echo.id⟩

/-- The goroutine has not received a reply and has not given up. -/
def isWaiting (request : Request) : Bool := request.phase = .sending ∨ request.phase = .waiting

end Request

inductive Action
  | send (succeeds : Bool)
  /-- A reply is taken from the channel. -/
  | take
  | timeout
  /-- The context of the stream is done. -/
  | cancelled
  | write (succeeds : Bool)
deriving DecidableEq, Repr

/-- A step of the goroutine; `gone` is whether the context of its stream is done. -/
def Request.act (gone : Bool) (request : Request) : Action → Option Request
  | .send succeeds =>
    if request.phase = .sending then
      if succeeds then some { request with phase := .waiting, sent := true }
      else some { request with phase := .leaving }
    else none
  | .take =>
    if request.phase = .waiting then
      request.channel.map fun reply => { request with phase := .replying reply, channel := none }
    else none
  | .timeout => if request.phase = .waiting then some { request with phase := .leaving } else none
  | .cancelled =>
    if request.phase = .waiting ∧ gone then some { request with phase := .leaving } else none
  | .write _ =>
    match request.phase with
    | .replying _ => some { request with phase := .leaving }
    | .sending | .waiting | .leaving | .ended => none

/-- What a step of the goroutine writes to its stream. -/
def Request.output (request : Request) : Action → List (List UInt8)
  | .write succeeds =>
    match request.phase with
    | .replying reply => if succeeds then [writeEchoReply request.echo.id reply] else []
    | .sending | .waiting | .leaving | .ended => []
  | .send _ | .take | .timeout | .cancelled => []

/-! ### The streams -/

structure Stream where
  sessionID : Nat
  /-- Bytes of the body that have arrived and are not read. -/
  input : List UInt8 := []
  /-- The client has ended the body. -/
  finished : Bool := false
  /-- The context of the request is done. -/
  cancelled : Bool := false
  /-- The echo request that was read; before the lock. -/
  held : Option Echo := none
  returned : Bool := false
  /-- The frames that were written to the response. -/
  written : List (List UInt8) := []
deriving DecidableEq, Repr

inductive StreamAction
  | arrive (bytes : List UInt8)
  | finish
  | cancel
  | read
deriving DecidableEq, Repr

/-- `readEchoRequest` on the body: it waits for bytes while there may be more. -/
def Stream.read (stream : Stream) : Option Stream :=
  match readEchoRequest stream.input with
  | .ok (echo, rest) => some { stream with input := rest, held := some echo }
  | .error _ =>
    if stream.finished ∨ stream.cancelled then some { stream with returned := true } else none

def Stream.act (stream : Stream) : StreamAction → Option Stream
  | .arrive bytes => some { stream with input := stream.input ++ bytes }
  | .finish => some { stream with finished := true }
  | .cancel => some { stream with cancelled := true }
  | .read => if stream.held = none ∧ !stream.returned then stream.read else none

/-! ### The process -/

structure Sys where
  /-- `globalSessionID`. -/
  sessions : Nat
  /-- `readLoop` has not ended. -/
  listening : Bool
  pending : GoMap PendingKey Nat
  streams : List Stream
  requests : List Request
deriving DecidableEq

def Sys.initial : Sys := ⟨0, true, ∅, [], []⟩

/-- What `icmp.ParseMessage` makes of a packet; `echo` is the identifier and the sequence number of a
body of that kind. -/
structure Message where
  typ : UInt8
  code : UInt8
  echo : Option (UInt16 × UInt16)
deriving DecidableEq, Repr

namespace Sys

/-- The critical section of `ServeHTTP`, and the start of the goroutine. -/
def register (s : Sys) (index : Nat) (stream : Stream) (echo : Echo) : Sys :=
  { s with
    pending := s.pending.insert ⟨stream.sessionID, echo.id⟩ s.requests.length
    streams := s.streams.set index { stream with held := none }
    requests := s.requests ++ [{ stream := index, sessionID := stream.sessionID, echo }] }

/-- The deferred `delete` of a goroutine. -/
def unregister (s : Sys) (index : Nat) (request : Request) : Sys :=
  { s with
    pending := s.pending.erase request.key
    requests := s.requests.set index { request with phase := .ended } }

/-- The channel is in the table under the identifier. -/
def listed (s : Sys) (id : UInt16) (index : Nat) : Bool :=
  s.pending.entries.any fun entry => entry.1.id = id ∧ entry.2 = index

/-- `readLoop` offers a reply to every channel under the identifier. -/
def broadcast (s : Sys) (id : UInt16) (reply : ReplyMsg) : Sys :=
  { s with
    requests := s.requests.mapIdx fun index request =>
      if s.listed id index && request.channel.isNone then { request with channel := some reply }
      else request }

/-- `readLoop` on a packet: only echo bodies count, of whatever type. -/
def incoming (s : Sys) (peer : IP) : Option Message → Sys
  | none => s
  | some message =>
    match message.echo with
    | none => s
    | some (id, seq) => s.broadcast id ⟨(to16 peer).getD [], message.typ, message.code, seq⟩

theorem streams_incoming (s : Sys) (peer : IP) (message : Option Message) :
    (s.incoming peer message).streams = s.streams := by
  unfold incoming
  split
  · rfl
  · split <;> rfl

/-- The frames that a goroutine writes go to its stream. -/
def output (s : Sys) (index : Nat) (frames : List (List UInt8)) : List Stream :=
  s.streams.modify index fun stream => { stream with written := stream.written ++ frames }

def gone (s : Sys) (index : Nat) : Bool := (s.streams[index]?).any Stream.cancelled

end Sys

inductive Event
  /-- `Mux.NewSession`, for a new connection. -/
  | newSession
  /-- A `CONNECT _icmp` stream of a connection. -/
  | openStream (sessionID : Nat)
  | stream (index : Nat) (action : StreamAction)
  | register (index : Nat)
  | request (index : Nat) (action : Action)
  | unregister (index : Nat)
  /-- `ReadFrom` returns a packet, with what `ParseMessage` makes of it. -/
  | incoming (peer : IP) (message : Option Message)
  /-- `ReadFrom` fails. -/
  | readError
deriving DecidableEq, Repr

def step (s : Sys) : Event → Option Sys
  | .newSession => some { s with sessions := s.sessions + 1 }
  | .openStream sessionID =>
    if 1 ≤ sessionID ∧ sessionID ≤ s.sessions then
      some { s with streams := s.streams ++ [{ sessionID }] }
    else none
  | .stream index action => do
    let stream ← s.streams[index]?
    let next ← stream.act action
    return { s with streams := s.streams.set index next }
  | .register index => do
    let stream ← s.streams[index]?
    let echo ← stream.held
    return s.register index stream echo
  | .request index action => do
    let request ← s.requests[index]?
    let next ← request.act (s.gone request.stream) action
    return { s with
      streams := s.output request.stream (request.output action)
      requests := s.requests.set index next }
  | .unregister index => do
    let request ← s.requests[index]?
    if request.phase = .leaving then some (s.unregister index request) else none
  | .incoming peer message => if s.listening then some (s.incoming peer message) else none
  | .readError => some { s with listening := false }

/-! ### Inversion -/

/-- **One step**, inverted. -/
inductive Stepped (s : Sys) : Event → Sys → Prop
  | newSession : Stepped s .newSession { s with sessions := s.sessions + 1 }
  | openStream (sessionID : Nat) :
      Stepped s (.openStream sessionID) { s with streams := s.streams ++ [{ sessionID }] }
  | stream (index : Nat) (action : StreamAction) (stream moved : Stream)
      (found : s.streams[index]? = some stream) (acted : stream.act action = some moved) :
      Stepped s (.stream index action) { s with streams := s.streams.set index moved }
  | register (index : Nat) (stream : Stream) (echo : Echo) (found : s.streams[index]? = some stream)
      (held : stream.held = some echo) : Stepped s (.register index) (s.register index stream echo)
  | request (index : Nat) (action : Action) (request moved : Request)
      (found : s.requests[index]? = some request)
      (acted : request.act (s.gone request.stream) action = some moved) :
      Stepped s (.request index action)
        { s with
          streams := s.output request.stream (request.output action)
          requests := s.requests.set index moved }
  | unregister (index : Nat) (request : Request) (found : s.requests[index]? = some request)
      (stood : request.phase = .leaving) : Stepped s (.unregister index) (s.unregister index request)
  | incoming (peer : IP) (message : Option Message) :
      Stepped s (.incoming peer message) (s.incoming peer message)
  | readError : Stepped s .readError { s with listening := false }

theorem stepped_of_step {s next : Sys} {event : Event} (taken : step s event = some next) :
    Stepped s event next := by
  cases event with
  | newSession =>
    cases taken
    exact .newSession
  | openStream sessionID =>
    obtain ⟨-, same⟩ := Option.ite_none_right_eq_some.mp taken
    cases same
    exact .openStream sessionID
  | stream index action =>
    obtain ⟨stream, found, rest⟩ := Option.bind_eq_some_iff.mp taken
    obtain ⟨moved, acted, same⟩ := Option.bind_eq_some_iff.mp rest
    cases same
    exact .stream index action stream moved found acted
  | register index =>
    obtain ⟨stream, found, rest⟩ := Option.bind_eq_some_iff.mp taken
    obtain ⟨echo, held, same⟩ := Option.bind_eq_some_iff.mp rest
    cases same
    exact .register index stream echo found held
  | request index action =>
    obtain ⟨request, found, rest⟩ := Option.bind_eq_some_iff.mp taken
    obtain ⟨moved, acted, same⟩ := Option.bind_eq_some_iff.mp rest
    cases same
    exact .request index action request moved found acted
  | unregister index =>
    obtain ⟨request, found, rest⟩ := Option.bind_eq_some_iff.mp taken
    obtain ⟨stood, same⟩ := Option.ite_none_right_eq_some.mp rest
    cases same
    exact .unregister index request found stood
  | incoming peer message =>
    obtain ⟨-, same⟩ := Option.ite_none_right_eq_some.mp taken
    cases same
    exact .incoming peer message
  | readError =>
    cases taken
    exact .readError

inductive Request.Acted (gone : Bool) (request : Request) : Action → Request → Prop
  | sent (stood : request.phase = .sending) :
      Acted gone request (.send true) { request with phase := .waiting, sent := true }
  | unsent (stood : request.phase = .sending) :
      Acted gone request (.send false) { request with phase := .leaving }
  | take (reply : ReplyMsg) (stood : request.phase = .waiting) (got : request.channel = some reply) :
      Acted gone request .take { request with phase := .replying reply, channel := none }
  | timeout (stood : request.phase = .waiting) :
      Acted gone request .timeout { request with phase := .leaving }
  | cancelled (stood : request.phase = .waiting) :
      Acted gone request .cancelled { request with phase := .leaving }
  | write (succeeds : Bool) (reply : ReplyMsg) (stood : request.phase = .replying reply) :
      Acted gone request (.write succeeds) { request with phase := .leaving }

theorem Request.acted_of_act {gone : Bool} {request moved : Request} {action : Action}
    (acted : request.act gone action = some moved) : request.Acted gone action moved := by
  cases action with
  | send succeeds =>
    obtain ⟨stood, rest⟩ := Option.ite_none_right_eq_some.mp acted
    cases succeeds with
    | true =>
      cases rest
      exact .sent stood
    | false =>
      cases rest
      exact .unsent stood
  | take =>
    obtain ⟨stood, rest⟩ := Option.ite_none_right_eq_some.mp acted
    obtain ⟨reply, got, rfl⟩ := Option.map_eq_some_iff.mp rest
    exact .take reply stood got
  | timeout =>
    obtain ⟨stood, same⟩ := Option.ite_none_right_eq_some.mp acted
    cases same
    exact .timeout stood
  | cancelled =>
    obtain ⟨stood, same⟩ := Option.ite_none_right_eq_some.mp acted
    cases same
    exact .cancelled stood.1
  | write succeeds =>
    simp only [Request.act] at acted
    split at acted
    · next reply stood =>
      cases acted
      exact .write succeeds reply stood
    all_goals cases acted

end Ttgo.Icmp

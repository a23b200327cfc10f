/-
**Replies and the sessions they belong to.**

`readLoop` offers an echo message to every channel under its identifier, whoever sent it and whatever it
answers; the address and the sequence number are not compared with those of the request.

* `Sys.Sent` — a session has sent an echo request with this identifier, address and sequence number.
* `Sys.Replies` — a message is an echo reply to such a request.
* `Sys.Isolated` — every frame on a stream is the reply to a request of its session, and of no other session.
* `Own` — a message that comes in is the reply to a request of every session that waits under its identifier,
  and a request that is sent differs from those of the other sessions.
* `isolated_of_own` — in a run with such messages only, the sessions are isolated.
-/

import Ttgo.Icmp.Waiting

namespace Ttgo.Icmp

open Ttgo.Lib

namespace Sys

def Sent (s : Sys) (sessionID : Nat) (id : UInt16) (address : IP) (seq : UInt16) : Prop :=
  ∃ request ∈ s.requests, request.sessionID = sessionID ∧ request.echo.id = id ∧
    request.sent = true ∧ request.echo.dst = address ∧ request.echo.seq = seq

instance (s : Sys) (sessionID : Nat) (id : UInt16) (address : IP) (seq : UInt16) :
    Decidable (s.Sent sessionID id address seq) := inferInstanceAs (Decidable (∃ _ ∈ _, _))

/-- The message is an echo reply to a request that the session has sent. -/
def Replies (s : Sys) (sessionID : Nat) (id : UInt16) (reply : ReplyMsg) : Prop :=
  reply.typ = 0 ∧ s.Sent sessionID id reply.srcIP reply.seq

/-- **Isolation.** Every frame on a stream is the reply to a request that its session has sent, and to none of
another session. -/
def Isolated (s : Sys) : Prop :=
  ∀ stream ∈ s.streams, ∀ frame ∈ stream.written, ∃ id reply, frame = writeEchoReply id reply ∧
    ∀ sessionID, s.Replies sessionID id reply ↔ sessionID = stream.sessionID

end Sys

/-- A message that comes in is an echo reply to a request of every session that waits under its identifier; and
no other session has sent a request with the identifier, the address and the number of one that is sent. -/
def Own (s : Sys) : Event → Prop
  | .incoming peer (some ⟨typ, _, some (id, seq)⟩) =>
    ∀ index < s.requests.length, ∀ request ∈ s.requests[index]?, s.listed id index = true →
      request.isWaiting = true → request.channel = none →
      typ = 0 ∧ s.Sent request.sessionID id ((to16 peer).getD []) seq
  | .request index (.send true) =>
    ∀ request ∈ s.requests[index]?, ∀ other ∈ s.requests, other.sent = true →
      other.echo.id = request.echo.id → other.echo.dst = request.echo.dst →
      other.echo.seq = request.echo.seq → other.sessionID = request.sessionID
  | _ => True

instance (s : Sys) (event : Event) : Decidable (Own s event) := by
  unfold Own
  split <;> infer_instance

/-! ### What a step keeps -/

/-- What a goroutine keeps from one step to the next. -/
structure Request.Continues (request moved : Request) : Prop where
  stream : moved.stream = request.stream
  sessionID : moved.sessionID = request.sessionID
  echo : moved.echo = request.echo
  sent : request.sent = true → moved.sent = true

theorem Request.Continues.refl (request : Request) : request.Continues request := ⟨rfl, rfl, rfl, id⟩

theorem Request.Acted.continues {gone : Bool} {request moved : Request} {action : Action}
    (acted : request.Acted gone action moved) : request.Continues moved := by
  cases acted with
  | sent stood => exact ⟨rfl, rfl, rfl, fun _ => rfl⟩
  | unsent stood => exact ⟨rfl, rfl, rfl, id⟩
  | take reply stood got => exact ⟨rfl, rfl, rfl, id⟩
  | timeout stood => exact ⟨rfl, rfl, rfl, id⟩
  | cancelled stood => exact ⟨rfl, rfl, rfl, id⟩
  | write succeeds reply stood => exact ⟨rfl, rfl, rfl, id⟩

namespace Sys

/-- The requests of a state go on in the other. -/
def Grows (s next : Sys) : Prop :=
  ∀ (index : Nat) (request : Request), s.requests[index]? = some request →
    ∃ moved, next.requests[index]? = some moved ∧ request.Continues moved

variable {s next : Sys} {index : Nat} {request moved : Request}

theorem grows_of_eq (same : next.requests = s.requests) : s.Grows next := by
  intro index request found
  exact ⟨request, by rw [same, found], .refl request⟩

theorem grows_set (found : s.requests[index]? = some request)
    (requests : next.requests = s.requests.set index moved) (continues : request.Continues moved) :
    s.Grows next := by
  intro place other there
  rw [requests]
  by_cases same : place = index
  · subst same
    obtain rfl : other = request := Option.some.inj (there.symm.trans found)
    exact ⟨moved, List.getElem?_set_self (List.getElem?_eq_some_iff.mp found).1, continues⟩
  · exact ⟨other, (List.getElem?_set_ne (Ne.symm same)).trans there, .refl other⟩

theorem getElem?_broadcast (id : UInt16) (reply : ReplyMsg) (index : Nat) :
    (s.broadcast id reply).requests[index]? = (s.requests[index]?).map fun request =>
      if s.listed id index && request.channel.isNone then { request with channel := some reply }
      else request := List.getElem?_mapIdx

theorem grows_incoming (peer : IP) (message : Option Message) : s.Grows (s.incoming peer message) := by
  unfold incoming
  split
  · exact grows_of_eq rfl
  · split
    · exact grows_of_eq rfl
    · intro index request found
      refine ⟨_, by rw [getElem?_broadcast, found]; rfl, ?_⟩
      dsimp only
      split
      · exact ⟨rfl, rfl, rfl, id⟩
      · exact .refl request

theorem grows_step {event : Event} (taken : step s event = some next) : s.Grows next := by
  cases stepped_of_step taken with
  | newSession | openStream sessionID | stream index action stream moved found acted | readError =>
    exact grows_of_eq rfl
  | register index stream echo found held =>
    intro place request there
    exact ⟨request, (List.getElem?_append_left (List.getElem?_eq_some_iff.mp there).1).trans there,
      .refl request⟩
  | request index action request moved found acted =>
    exact grows_set found rfl (Request.acted_of_act acted).continues
  | unregister index request found stood => exact grows_set found rfl ⟨rfl, rfl, rfl, id⟩
  | incoming peer message => exact grows_incoming peer message

theorem Sent.mono {sessionID : Nat} {id seq : UInt16} {address : IP} (grows : s.Grows next)
    (sent : s.Sent sessionID id address seq) : next.Sent sessionID id address seq := by
  obtain ⟨request, member, rfl, rfl, left, rfl, rfl⟩ := sent
  obtain ⟨index, found⟩ := List.mem_iff_getElem?.mp member
  obtain ⟨moved, there, continues⟩ := grows index request found
  refine ⟨moved, List.mem_of_getElem? there, continues.sessionID, ?_, continues.sent left, ?_, ?_⟩ <;>
    rw [continues.echo]

theorem Replies.mono {sessionID : Nat} {id : UInt16} {reply : ReplyMsg} (grows : s.Grows next)
    (replies : s.Replies sessionID id reply) : next.Replies sessionID id reply :=
  ⟨replies.1, replies.2.mono grows⟩

/-- The frame is the reply to a request that the session has sent. -/
def Answers (s : Sys) (sessionID : Nat) (frame : List UInt8) : Prop :=
  ∃ id reply, frame = writeEchoReply id reply ∧ s.Replies sessionID id reply

theorem Answers.mono {sessionID : Nat} {frame : List UInt8} (grows : s.Grows next)
    (answers : s.Answers sessionID frame) : next.Answers sessionID frame := by
  obtain ⟨id, reply, same, replies⟩ := answers
  exact ⟨id, reply, same, replies.mono grows⟩

def owners (s : Sys) : List Nat := s.streams.map Stream.sessionID

end Sys

theorem Stream.kept_act {stream moved : Stream} {action : StreamAction}
    (acted : stream.act action = some moved) :
    moved.sessionID = stream.sessionID ∧ moved.written = stream.written := by
  cases action with
  | arrive bytes | finish | cancel =>
    cases acted
    exact ⟨rfl, rfl⟩
  | read =>
    obtain ⟨-, rest⟩ := Option.ite_none_right_eq_some.mp acted
    unfold Stream.read at rest
    split at rest
    · cases rest
      exact ⟨rfl, rfl⟩
    · obtain ⟨-, same⟩ := Option.ite_none_right_eq_some.mp rest
      cases same
      exact ⟨rfl, rfl⟩

namespace Sys

variable {s next : Sys} {index : Nat} {request moved : Request}

theorem owners_output (index : Nat) (frames : List (List UInt8)) :
    (s.output index frames).map Stream.sessionID = s.owners := by
  refine List.ext_getElem? fun place => ?_
  rw [owners, List.getElem?_map, List.getElem?_map, output, List.getElem?_modify]
  cases s.streams[place]? with
  | none => rfl
  | some stream =>
    simp only [Option.map_eq_map, Option.map_some, Option.some.injEq]
    split <;> rfl

theorem owners_step {event : Event} (taken : step s event = some next) {place sessionID : Nat}
    (owned : s.owners[place]? = some sessionID) : next.owners[place]? = some sessionID := by
  cases stepped_of_step taken with
  | newSession | readError => exact owned
  | openStream sessionID' =>
    rw [owners, List.map_append]
    exact (List.getElem?_append_left (List.getElem?_eq_some_iff.mp owned).1).trans owned
  | stream index action stream moved found acted =>
    rw [owners, map_set_same found (Stream.kept_act acted).1]
    exact owned
  | register index stream echo found held =>
    have same : (s.streams.set index { stream with held := none }).map Stream.sessionID = s.owners :=
      map_set_same found rfl
    rw [← same] at owned
    exact owned
  | request index action request moved found acted =>
    rw [owners, owners_output]
    exact owned
  | unregister index request found stood => exact owned
  | incoming peer message =>
    rw [owners, streams_incoming]
    exact owned

end Sys

/-! ### The invariant -/

/-- A goroutine that is about to write, or may be, has the answer to a request of its session. -/
structure Request.Sound (s : Sys) (request : Request) : Prop where
  stream : s.owners[request.stream]? = some request.sessionID
  channel : request.isWaiting = true → ∀ reply, request.channel = some reply →
    s.Replies request.sessionID request.echo.id reply
  replying : ∀ reply, request.phase = .replying reply →
    s.Replies request.sessionID request.echo.id reply

structure Sys.Sound (s : Sys) : Prop where
  pending : ∀ key index, s.pending.lookup key = some index →
    ∃ request, s.requests[index]? = some request ∧ request.key = key
  requests : ∀ (index : Nat) (request : Request), s.requests[index]? = some request →
    request.Sound s
  answered : ∀ stream ∈ s.streams, ∀ frame ∈ stream.written, s.Answers stream.sessionID frame

theorem Request.Sound.mono {s next : Sys} {event : Event} {request : Request}
    (sound : request.Sound s) (taken : step s event = some next) : request.Sound next := by
  have grows := Sys.grows_step taken
  exact ⟨Sys.owners_step taken sound.stream,
    fun waiting reply got => (sound.channel waiting reply got).mono grows,
    fun reply stood => (sound.replying reply stood).mono grows⟩

namespace Sys.Sound

variable {s next : Sys} {event : Event}

theorem initial : Sys.initial.Sound :=
  ⟨fun _ _ found => (by cases found), fun _ _ found => (by cases found), fun _ member => by cases member⟩

theorem pending_mono (sound : s.Sound) (taken : step s event = some next)
    (fewer : ∀ key index, next.pending.lookup key = some index → s.pending.lookup key = some index) :
    ∀ key index, next.pending.lookup key = some index →
      ∃ request, next.requests[index]? = some request ∧ request.key = key := by
  intro key index listed
  obtain ⟨request, found, rfl⟩ := sound.pending key index (fewer key index listed)
  obtain ⟨moved, there, continues⟩ := Sys.grows_step taken index request found
  exact ⟨moved, there, by rw [Request.key, Request.key, continues.sessionID, continues.echo]⟩

theorem answered_mono (sound : s.Sound) (taken : step s event = some next)
    (same : ∀ stream ∈ next.streams, ∃ old ∈ s.streams, stream.sessionID = old.sessionID ∧
      stream.written = old.written) :
    ∀ stream ∈ next.streams, ∀ frame ∈ stream.written, next.Answers stream.sessionID frame := by
  intro stream member frame written
  obtain ⟨old, inside, session, frames⟩ := same stream member
  rw [session]
  exact (sound.answered old inside frame (frames ▸ written)).mono (Sys.grows_step taken)

theorem requests_mono (sound : s.Sound) (taken : step s event = some next) {index : Nat}
    {request moved : Request} (found : s.requests[index]? = some request)
    (requests : next.requests = s.requests.set index moved) (new : moved.Sound next) :
    ∀ (place : Nat) (other : Request), next.requests[place]? = some other → other.Sound next := by
  intro place other there
  rw [requests] at there
  rcases pool_get_set found there with ⟨-, rfl⟩ | ⟨-, old⟩
  · exact new
  · exact (sound.requests place other old).mono taken

theorem register {index : Nat} {stream : Stream} {echo : Echo} (sound : s.Sound)
    (found : s.streams[index]? = some stream)
    (taken : step s event = some (s.register index stream echo)) :
    (s.register index stream echo).Sound := by
  refine ⟨fun key place listed => ?_, fun place request there => ?_, ?_⟩
  · rw [show (s.register index stream echo).pending = s.pending.insert _ _ from rfl,
      GoMap.lookup_insert_ite] at listed
    split at listed
    · next same =>
      cases listed
      exact ⟨_, List.getElem?_concat_length, same.symm⟩
    · obtain ⟨request, old, same⟩ := sound.pending key place listed
      exact ⟨request, (List.getElem?_append_left (List.getElem?_eq_some_iff.mp old).1).trans old, same⟩
  · rcases pool_get_append there with old | ⟨-, rfl⟩
    · exact (sound.requests place request old).mono taken
    · refine ⟨Sys.owners_step taken ?_, fun _ reply got => (by cases got),
        fun reply stood => by cases stood⟩
      rw [Sys.owners, List.getElem?_map, found, Option.map_some]
  · refine sound.answered_mono taken fun other member => ?_
    rcases List.mem_or_eq_of_mem_set member with old | rfl
    · exact ⟨other, old, rfl, rfl⟩
    · exact ⟨stream, List.mem_of_getElem? found, rfl, rfl⟩

theorem request {index : Nat} {action : Action} {request moved : Request} (sound : s.Sound)
    (found : s.requests[index]? = some request)
    (acted : request.Acted (s.gone request.stream) action moved)
    (taken : step s (.request index action) = some { s with
      streams := s.output request.stream (request.output action)
      requests := s.requests.set index moved }) :
    Sys.Sound { s with
      streams := s.output request.stream (request.output action)
      requests := s.requests.set index moved } := by
  have kept := (sound.requests index request found).mono taken
  have frames : ∀ frame ∈ request.output action, s.Answers request.sessionID frame := by
    intro frame written
    cases acted with
    | write succeeds reply stood =>
      simp only [Request.output, stood] at written
      split at written
      · cases List.mem_singleton.mp written
        exact ⟨_, reply, rfl, (sound.requests index request found).replying reply stood⟩
      · cases written
    | sent stood | unsent stood | take reply stood got | timeout stood | cancelled stood => cases written
  refine ⟨sound.pending_mono taken fun _ _ listed => listed,
    sound.requests_mono taken found rfl ?_, fun stream member frame written => ?_⟩
  · cases acted with
    | sent stood =>
      exact ⟨kept.stream, fun _ => kept.channel (by simp [Request.isWaiting, stood]),
        fun reply again => by cases again⟩
    | unsent stood | timeout stood | cancelled stood =>
      exact ⟨kept.stream, fun waiting => (by cases waiting), fun reply again => by cases again⟩
    | take reply stood got =>
      refine ⟨kept.stream, fun _ other again => (by cases again), fun other same => ?_⟩
      cases same
      exact kept.channel (by simp [Request.isWaiting, stood]) reply got
    | write succeeds reply stood =>
      exact ⟨kept.stream, fun waiting => (by cases waiting), fun reply again => by cases again⟩
  · obtain ⟨place, there⟩ := List.mem_iff_getElem?.mp member
    rw [Sys.output, List.getElem?_modify, Option.map_eq_map, Option.map_eq_some_iff] at there
    obtain ⟨old, before, rfl⟩ := there
    have owner : s.owners[place]? = some old.sessionID := by
      rw [Sys.owners, List.getElem?_map, before, Option.map_some]
    split at written
    · next same =>
      rw [if_pos same]
      subst same
      have session : old.sessionID = request.sessionID :=
        Option.some.inj (owner.symm.trans (sound.requests index request found).stream)
      rcases List.mem_append.mp written with earlier | now
      · exact (sound.answered old (List.mem_of_getElem? before) frame earlier).mono (Sys.grows_step taken)
      · show Sys.Answers _ old.sessionID frame
        rw [session]
        exact (frames frame now).mono (Sys.grows_step taken)
    · next other =>
      rw [if_neg other]
      exact (sound.answered old (List.mem_of_getElem? before) frame written).mono (Sys.grows_step taken)

theorem id_of_listed (sound : s.Sound) {id : UInt16} {index : Nat} {request : Request}
    (listed : s.listed id index = true) (found : s.requests[index]? = some request) :
    request.echo.id = id := by
  obtain ⟨⟨key, place⟩, member, same⟩ := List.any_eq_true.mp listed
  obtain ⟨rfl, rfl⟩ : key.id = id ∧ place = index := by simpa using same
  obtain ⟨other, there, rfl⟩ := sound.pending key place (AList.mem_lookup_iff.mpr member)
  cases found.symm.trans there
  rfl

theorem broadcast {id : UInt16} {reply : ReplyMsg} (sound : s.Sound)
    (taken : step s event = some (s.broadcast id reply))
    (own : ∀ (index : Nat) (request : Request), s.requests[index]? = some request →
      s.listed id index = true → request.isWaiting = true → request.channel = none →
      s.Replies request.sessionID id reply) :
    (s.broadcast id reply).Sound := by
  refine ⟨sound.pending_mono taken fun _ _ listed => listed, fun index request there => ?_,
    sound.answered_mono taken fun stream member => ⟨stream, member, rfl, rfl⟩⟩
  rw [Sys.getElem?_broadcast, Option.map_eq_some_iff] at there
  obtain ⟨before, found, rfl⟩ := there
  have kept := (sound.requests index before found).mono taken
  split
  · next reached =>
    obtain ⟨listed, empty⟩ := Bool.and_eq_true_iff.mp reached
    refine ⟨kept.stream, fun waiting other got => ?_, kept.replying⟩
    cases got
    have replies := own index before found listed waiting (Option.isNone_iff_eq_none.mp empty)
    rw [← sound.id_of_listed listed found] at replies
    exact replies.mono (Sys.grows_step taken)
  · exact kept

theorem step (sound : s.Sound) (own : Own s event) (taken : Icmp.step s event = some next) :
    next.Sound := by
  cases stepped_of_step taken with
  | newSession | readError =>
    exact ⟨sound.pending_mono taken fun _ _ listed => listed,
      fun place request there => (sound.requests place request there).mono taken,
      sound.answered_mono taken fun stream member => ⟨stream, member, rfl, rfl⟩⟩
  | openStream sessionID =>
    refine ⟨sound.pending_mono taken fun _ _ listed => listed,
      fun place request there => (sound.requests place request there).mono taken, ?_⟩
    intro stream member frame written
    rcases List.mem_append.mp member with old | new
    · exact (sound.answered stream old frame written).mono (Sys.grows_step taken)
    · cases List.mem_singleton.mp new
      cases written
  | stream index action stream moved found acted =>
    have same := Stream.kept_act acted
    refine ⟨sound.pending_mono taken fun _ _ listed => listed,
      fun place request there => (sound.requests place request there).mono taken,
      sound.answered_mono taken fun other member => ?_⟩
    rcases List.mem_or_eq_of_mem_set member with old | rfl
    · exact ⟨other, old, rfl, rfl⟩
    · exact ⟨stream, List.mem_of_getElem? found, same.1, same.2⟩
  | register index stream echo found held => exact sound.register found taken
  | request index action request moved found acted =>
    exact sound.request found (Request.acted_of_act acted) taken
  | unregister index request found stood =>
    refine ⟨sound.pending_mono taken fun key place listed => ?_, ?_,
      sound.answered_mono taken fun stream member => ⟨stream, member, rfl, rfl⟩⟩
    · rw [show (s.unregister index request).pending = s.pending.erase _ from rfl,
        GoMap.lookup_erase_ite] at listed
      split at listed
      · cases listed
      · exact listed
    · have kept := (sound.requests index request found).mono taken
      exact sound.requests_mono taken found rfl ⟨kept.stream, fun waiting => (by cases waiting),
        fun reply again => by cases again⟩
  | incoming peer message =>
    have unchanged : Icmp.step s (.incoming peer message) = some s → s.Sound := fun _ => sound
    unfold Sys.incoming at taken ⊢
    cases message with
    | none => exact unchanged taken
    | some message =>
      obtain ⟨typ, code, echo⟩ := message
      cases echo with
      | none => exact unchanged taken
      | some body =>
        obtain ⟨id, seq⟩ := body
        refine sound.broadcast taken fun index request found listed waiting empty => ?_
        exact own index (List.getElem?_eq_some_iff.mp found).1 request found listed waiting empty

end Sys.Sound

/-! ### Requests of different sessions differ -/

namespace Sys

variable {s next : Sys} {event : Event}

def Apart (s : Sys) : Prop :=
  ∀ sessionID other id address seq, s.Sent sessionID id address seq → s.Sent other id address seq →
    sessionID = other

/-- The request that a step sends. -/
def sending (s : Sys) : Event → Option Request
  | .request index (.send true) => s.requests[index]?
  | _ => none

theorem sent_of_set {index : Nat} {request moved : Request} {sessionID : Nat} {id seq : UInt16} {address : IP}
    (requests : next.requests = s.requests.set index moved)
    (session : moved.sessionID = request.sessionID) (echo : moved.echo = request.echo)
    (sent : next.Sent sessionID id address seq) :
    s.Sent sessionID id address seq ∨ (moved.sent = true ∧ request.sessionID = sessionID ∧
      request.echo.id = id ∧ request.echo.dst = address ∧ request.echo.seq = seq) := by
  obtain ⟨other, member, rfl, rfl, left, rfl, rfl⟩ := sent
  rw [requests] at member
  rcases List.mem_or_eq_of_mem_set member with old | rfl
  · exact .inl ⟨other, old, rfl, rfl, left, rfl, rfl⟩
  · exact .inr ⟨left, session.symm, by rw [echo], by rw [echo], by rw [echo]⟩

/-- What is sent after a step was sent before it, or is sent by it. -/
theorem sent_step (taken : step s event = some next) {sessionID : Nat} {id seq : UInt16} {address : IP}
    (sent : next.Sent sessionID id address seq) :
    s.Sent sessionID id address seq ∨ ∃ request ∈ s.sending event, request.sessionID = sessionID ∧
      request.echo.id = id ∧ request.echo.dst = address ∧ request.echo.seq = seq := by
  cases stepped_of_step taken with
  | newSession | openStream | stream | readError => exact .inl sent
  | register index stream echo found held =>
    obtain ⟨other, member, rest⟩ := sent
    rcases List.mem_append.mp member with old | new
    · exact .inl ⟨other, old, rest⟩
    · cases List.mem_singleton.mp new
      exact absurd rest.2.2.1 Bool.false_ne_true
  | request index action request moved found acted =>
    have acted := Request.acted_of_act acted
    have continues := acted.continues
    rcases sent_of_set rfl continues.sessionID continues.echo sent with old | ⟨left, same⟩
    · exact .inl old
    · have before : ∀ (_ : request.sent = true), s.Sent sessionID id address seq := fun left =>
        ⟨request, List.mem_of_getElem? found, same.1, same.2.1, left, same.2.2⟩
      cases acted with
      | sent stood => exact .inr ⟨request, found, same⟩
      | unsent | take | timeout | cancelled | write => exact .inl (before left)
  | unregister index request found stood =>
    have requests : (s.unregister index request).requests =
        s.requests.set index { request with phase := .ended } := rfl
    rcases sent_of_set requests rfl rfl sent with old | ⟨left, same⟩
    · exact .inl old
    · exact .inl ⟨request, List.mem_of_getElem? found, same.1, same.2.1, left, same.2.2⟩
  | incoming peer message =>
    unfold incoming at sent
    split at sent
    · exact .inl sent
    · split at sent
      · exact .inl sent
      · obtain ⟨other, member, rest⟩ := sent
        obtain ⟨index, found⟩ := List.mem_iff_getElem?.mp member
        rw [getElem?_broadcast, Option.map_eq_some_iff] at found
        obtain ⟨before, there, rfl⟩ := found
        refine .inl ⟨before, List.mem_of_getElem? there, ?_⟩
        split at rest <;> exact rest

theorem apart_step (apart : s.Apart) (own : Own s event) (taken : step s event = some next) : next.Apart := by
  have differs : ∀ request ∈ s.sending event, ∀ other,
      s.Sent other request.echo.id request.echo.dst request.echo.seq → other = request.sessionID := by
    intro request sends other sent
    unfold sending at sends
    split at sends
    · obtain ⟨earlier, member, rfl, id, left, dst, seq⟩ := sent
      exact own request sends earlier member left id dst seq
    · cases sends
  intro sessionID other id address seq first second
  rcases sent_step taken first with old | ⟨request, sends, rfl, rfl, rfl, rfl⟩
  · rcases sent_step taken second with old' | ⟨request, sends, rfl, rfl, rfl, rfl⟩
    · exact apart sessionID other id address seq old old'
    · exact differs request sends sessionID old
  · rcases sent_step taken second with old' | ⟨request', sends', rfl, -⟩
    · exact (differs request sends other old').symm
    · cases Option.some.inj (sends.symm.trans sends')
      rfl

end Sys

/-- **Isolation of the sessions.** In every run in which each message that comes in is the reply to a request of
every session that waits under its identifier, and no two sessions send the same request, a frame on a stream
is the reply to a request that its session has sent, and to none of another session. -/
theorem isolated_of_own {events : List Event} {s : Sys} (reached : run step .initial events = some s)
    (own : Along step Own .initial events) : s.Isolated := by
  have sound := run_invariant (fun _ _ _ own sound taken => Sys.Sound.step sound own taken) own
    Sys.Sound.initial reached
  have apart : s.Apart := run_invariant (fun _ _ _ own apart taken => Sys.apart_step apart own taken) own
    (fun _ _ _ _ _ sent => absurd sent (by simp [Sys.Sent, Sys.initial])) reached
  intro stream member frame written
  obtain ⟨id, reply, same, replies⟩ := sound.answered stream member frame written
  refine ⟨id, reply, same, fun sessionID => ⟨fun other => ?_, ?_⟩⟩
  · exact apart _ _ _ _ _ other.2 replies.2
  · rintro rfl
    exact replies

/-- Two sessions ping under one identifier, and the second begins when the first has its reply. -/
def sessionsInTurn : List Event :=
  [.newSession, .openStream 1, .newSession, .openStream 2] ++
    pinging 0 0 1 ++ [pong 1] ++ answered 0 ++ pinging 1 1 5 ++ [pong 5] ++ answered 1

theorem isolated_sessionsInTurn :
    ∃ s, run step .initial sessionsInTurn = some s ∧ s.streams.map (·.written.length) = [1, 1] ∧ s.Isolated :=
  ⟨_, rfl, by decide, isolated_of_own (show run step .initial sessionsInTurn = some _ from rfl) (by decide)⟩

/-- The stream of a session with one ping out gets a message and writes it. -/
def delivered (message : Event) : List Event :=
  [.newSession, .openStream 1, .newSession, .openStream 2] ++ pinging 0 0 1 ++ pinging 1 1 5 ++
    [message, .request 0 .take, .request 0 (.write true)]

/-- A stranger pings the endpoint: an echo request, from an address that nobody asked. -/
def stranger : Event := .incoming [198, 51, 100, 9] (some ⟨8, 0, some (7, 99)⟩)

theorem drop_writeEchoReply (id : UInt16) (reply : ReplyMsg) :
    (writeEchoReply id reply).drop 20 = putUint16 reply.seq := by
  refine List.drop_left' ?_
  simp [putUint16]

theorem not_isolated_of_frame {s : Sys} {stream : Stream} {frame : List UInt8} (seq : UInt16)
    (member : stream ∈ s.streams) (written : frame ∈ stream.written)
    (carries : frame.drop 20 = putUint16 seq)
    (unsent : ∀ request ∈ s.requests, request.sessionID = stream.sessionID →
      putUint16 request.echo.seq ≠ putUint16 seq) : ¬ s.Isolated := by
  intro isolated
  obtain ⟨id, reply, rfl, replies⟩ := isolated stream member frame written
  obtain ⟨-, request, inside, session, -, -, -, same⟩ := (replies stream.sessionID).mpr rfl
  rw [drop_writeEchoReply, ← same] at carries
  exact unsent request inside session carries

/-- The reply to another session, and the ping of a stranger, are written as replies. -/
theorem foreign_reply :
    (∃ s, run step .initial (delivered (pong 5)) = some s ∧
      s.streams.map (fun stream => (stream.sessionID, stream.written)) =
        [(1, [writeEchoReply 7 ⟨v4InV6Prefix ++ [192, 0, 2, 1], 0, 0, 5⟩]), (2, [])] ∧
      ¬ s.Isolated) ∧
    ∃ s, run step .initial (delivered stranger) = some s ∧
      s.streams.map (fun stream => (stream.sessionID, stream.written)) =
        [(1, [writeEchoReply 7 ⟨v4InV6Prefix ++ [198, 51, 100, 9], 8, 0, 99⟩]), (2, [])] ∧
      ¬ s.Isolated := by
  refine ⟨⟨_, rfl, by decide, ?_⟩, ⟨_, rfl, by decide, ?_⟩⟩
  · exact not_isolated_of_frame 5 List.mem_cons_self List.mem_cons_self (by decide) (by decide)
  · exact not_isolated_of_frame 99 List.mem_cons_self List.mem_cons_self (by decide) (by decide)

end Ttgo.Icmp

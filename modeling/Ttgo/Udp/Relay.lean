/-
**The `_udp2` streams of one TLS connection.**

`udp.Session.ServeHTTP` runs once for every `CONNECT _udp2` stream, and all streams of a connection
share the session that `server.Session.UDP` made for the first of them. Each stream ends with a deferred
`Close` of that session.

* `Stream.act` — the loop of `ServeHTTP`, one step of it between two locks at a time, and the fate of
  each frame.
* `step` — any interleaving of the streams with the reaper and with the end of the connection.
* `Entry.Relayed` — the frame was written to its destination, or the network refused it.
* `Undisturbed` — nothing is dialed or written for a connection one of whose streams has ended.
* `relayed_of_undisturbed` — in such a run every frame of an open stream is relayed.
-/

import Ttgo.Lib.Run
import Ttgo.Lib.Pool
import Ttgo.Udp.Mux

namespace Ttgo.Udp

open Ttgo.Lib

/-! ### The streams -/

inductive Outcome
  | written (dst : List UInt8 × Nat)
  | dialFailed
  | writeFailed
  /-- `getOrDial` found the session closed. -/
  | sessionClosed
  /-- The socket was closed by `Session.Close` before the write. -/
  | socketClosed
deriving DecidableEq, Repr

/-- What became of a frame, and whether the connection was up at that moment. -/
structure Entry where
  frame : Frame
  outcome : Outcome
  live : Bool
deriving DecidableEq, Repr

inductive Phase
  | reading
  | dialing (frame : Frame)
  | touching (frame : Frame) (id : Nat)
  | writing (frame : Frame) (id : Nat)
  | removing (key : ConnKey)
  | returning
  | ended
deriving DecidableEq, Repr

structure Stream where
  /-- Bytes of the body that have arrived and are not read. -/
  input : List UInt8
  /-- The client has ended the body. -/
  finished : Bool
  /-- The frames that were read. -/
  taken : List Frame
  log : List Entry
  phase : Phase
deriving DecidableEq, Repr

inductive Action
  | arrive (bytes : List UInt8)
  | finish
  | read
  | getOrDial (now : Nat) (dials : Bool)
  | touch (now : Nat)
  | write (succeeds : Bool)
  | remove
  | close
deriving DecidableEq, Repr

/-- The actions that are for the frame in hand to be sent. -/
def Action.sends : Action → Bool
  | .getOrDial _ _ | .write _ => true
  | .arrive _ | .finish | .read | .touch _ | .remove | .close => false

/-- `uc.conn.Write`: a closed socket refuses. -/
def UdpConn.write (uc : UdpConn) (succeeds : Bool) : Outcome :=
  match uc.shut with
  | none => if succeeds then .written uc.dst else .writeFailed
  | some .close => .socketClosed
  | some _ => .writeFailed

namespace Stream

def new : Stream := ⟨[], false, [], [], .reading⟩

/-- The frame is done with. -/
def settle (stream : Stream) (frame : Frame) (outcome : Outcome) (live : Bool) (phase : Phase) :
    Stream :=
  { stream with log := stream.log ++ [⟨frame, outcome, live⟩], phase }

/-- `readOutgoing` on the body: it waits for bytes while there may be more. -/
def read (stream : Stream) (live : Bool) : Option Stream :=
  match readOutgoing stream.input with
  | .ok (frame, rest) =>
    some { stream with input := rest, taken := stream.taken ++ [frame], phase := .dialing frame }
  | .error .tooShort | .error .truncated => some { stream with phase := .returning }
  | .error .eof | .error .unexpectedEOF =>
    if stream.finished || !live then some { stream with phase := .returning } else none

/-- After `getOrDial`. -/
def dialed (stream : Stream) (live : Bool) (frame : Frame) : Session.Dialed → Stream
  | .closed => stream.settle frame .sessionClosed live .reading
  | .failed => stream.settle frame .dialFailed live .reading
  | .conn id => { stream with phase := .touching frame id }

/-- After the write: one that failed removes the flow. -/
def wrote (stream : Stream) (live : Bool) (frame : Frame) (outcome : Outcome) : Stream :=
  match outcome with
  | .written dst => stream.settle frame (.written dst) live .reading
  | other => stream.settle frame other live (.removing frame.key)

/-- One step of `ServeHTTP`. -/
def act (session : Session) (live : Bool) (stream : Stream) (action : Action) :
    Option (Session × Stream) :=
  match stream.phase, action with
  | _, .arrive bytes => some (session, { stream with input := stream.input ++ bytes })
  | _, .finish => some (session, { stream with finished := true })
  | .reading, .read => (stream.read live).map (session, ·)
  | .dialing frame, .getOrDial now dials =>
    let got := session.getOrDial frame.key now dials
    some (got.2, stream.dialed live frame got.1)
  | .touching frame id, .touch now =>
    some (session.touch id now, { stream with phase := .writing frame id })
  | .writing frame id, .write succeeds =>
    (session.sockets[id]?).map fun uc => (session, stream.wrote live frame (uc.write succeeds))
  | .removing key, .remove => some (session.remove key, { stream with phase := .reading })
  | .returning, .close => some (session.close, { stream with phase := .ended })
  | _, _ => none

end Stream

/-- The connection: its `server.Session` and the streams it has carried. -/
structure Sys where
  udp : Option Session
  live : Bool
  streams : List Stream
deriving DecidableEq

inductive Event
  /-- A `CONNECT _udp2` stream: `sess.UDP(mux)` and then `ServeHTTP`. -/
  | openStream
  | stream (index : Nat) (action : Action)
  | reap (now : Nat)
  /-- The context of the connection is done. -/
  | done
  /-- The goroutine of `newSession`, after that. -/
  | cleanup
deriving DecidableEq, Repr

def Sys.initial : Sys := ⟨none, true, []⟩

def step (idleTimeout : Nat) (s : Sys) : Event → Option Sys
  | .openStream =>
    if s.live then
      some { s with udp := some (s.udp.getD .new), streams := s.streams ++ [.new] }
    else none
  | .stream index action => do
    let session ← s.udp
    let stream ← s.streams[index]?
    let acted ← stream.act session s.live action
    return { s with udp := some acted.1, streams := s.streams.set index acted.2 }
  | .reap now => some { s with udp := s.udp.map (Session.reap idleTimeout now) }
  | .done => some { s with live := false }
  | .cleanup => if s.live then none else some { s with udp := s.udp.map Session.close }

/-! ### The frames of a stream -/

/-- The frame was written to its destination, or the network refused it. -/
def Entry.Relayed (entry : Entry) : Prop :=
  match entry.outcome with
  | .written dst => dst = entry.frame.dst
  | .dialFailed => True
  | .writeFailed => True
  | .sessionClosed => False
  | .socketClosed => False

instance (entry : Entry) : Decidable entry.Relayed := by
  unfold Entry.Relayed
  split <;> infer_instance

/-- The frame that was read and is not done with. -/
def Phase.inHand : Phase → List Frame
  | .dialing frame | .touching frame _ | .writing frame _ => [frame]
  | .reading | .removing _ | .returning | .ended => []

def Phase.socket : Phase → Option (Frame × Nat)
  | .touching frame id | .writing frame id => some (frame, id)
  | .reading | .dialing _ | .removing _ | .returning | .ended => none

/-- Every frame of the stream is relayed, or in hand with a socket to its destination. -/
structure Stream.Sound (session : Session) (stream : Stream) : Prop where
  taken : stream.taken = stream.log.map Entry.frame ++ stream.phase.inHand
  relayed : ∀ entry ∈ stream.log, entry.live = true → entry.Relayed
  socket : ∀ frame id, stream.phase.socket = some (frame, id) →
    ∃ uc, session.sockets[id]? = some uc ∧ uc.dst = frame.dst

namespace Stream

variable {session later : Session} {stream next : Stream} {live : Bool} {frame : Frame} {id : Nat}

theorem sound_new (session : Session) : Stream.new.Sound session := ⟨rfl, nofun, nofun⟩

theorem Sound.grows (sound : stream.Sound session) (grows : session.Grows later) :
    stream.Sound later := by
  refine ⟨sound.taken, sound.relayed, fun frame id held => ?_⟩
  obtain ⟨uc, found, dst⟩ := sound.socket frame id held
  obtain ⟨uc', there, same⟩ := grows id uc found
  exact ⟨uc', there, same.trans dst⟩

theorem Sound.of_same (sound : stream.Sound session) (taken : next.taken = stream.taken)
    (log : next.log = stream.log) (inHand : next.phase.inHand = stream.phase.inHand)
    (socket : ∀ frame id, next.phase.socket = some (frame, id) →
      ∃ uc, later.sockets[id]? = some uc ∧ uc.dst = frame.dst) :
    next.Sound later := by
  refine ⟨?_, ?_, socket⟩
  · rw [taken, log, inHand, sound.taken]
  · rw [log]; exact sound.relayed

theorem Sound.settle (sound : stream.Sound session) (inHand : stream.phase.inHand = [frame])
    {outcome : Outcome} {phase : Phase} (done : phase.inHand = []) (free : phase.socket = none)
    (relayed : live = true → Entry.Relayed ⟨frame, outcome, live⟩) :
    (stream.settle frame outcome live phase).Sound later := by
  refine ⟨?_, fun entry member => ?_, fun frame id held => ?_⟩
  · show stream.taken = (stream.log ++ [_]).map Entry.frame ++ phase.inHand
    rw [done, List.append_nil, List.map_append, sound.taken, inHand]
    rfl
  · rcases List.mem_append.1 member with old | new
    · exact sound.relayed entry old
    · cases List.mem_singleton.1 new
      exact relayed
  · rw [show (stream.settle _ _ _ _).phase = phase from rfl, free] at held
    cases held

theorem sound_read (sound : stream.Sound session) (phase : stream.phase = .reading)
    (read : stream.read live = some next) : next.Sound session := by
  have returning : Stream.Sound session { stream with phase := .returning } :=
    sound.of_same rfl rfl (by rw [phase]; rfl) nofun
  unfold Stream.read at read
  split at read
  · cases read
    refine ⟨?_, sound.relayed, nofun⟩
    show stream.taken ++ [_] = _
    rw [sound.taken, phase]
    exact congrArg (· ++ _) (List.append_nil _)
  · cases read; exact returning
  · cases read; exact returning
  · split at read
    · cases read; exact returning
    · cases read
  · split at read
    · cases read; exact returning
    · cases read

theorem sound_dialed (sound : stream.Sound session) (booked : session.Booked)
    (phase : stream.phase = .dialing frame) {now : Nat} {dials : Bool}
    (uncut : live = true → ¬ session.Cut) :
    (stream.dialed live frame (session.getOrDial frame.key now dials).1).Sound
      (session.getOrDial frame.key now dials).2 := by
  have inHand : stream.phase.inHand = [frame] := by rw [phase]; rfl
  cases got : session.getOrDial frame.key now dials with
  | mk result later =>
    cases result with
    | closed =>
      exact sound.settle inHand rfl rfl fun alive => uncut alive (Session.getOrDial_closed got)
    | failed => exact sound.settle inHand rfl rfl fun _ => trivial
    | conn id =>
      refine sound.of_same rfl rfl inHand.symm fun held other same => ?_
      cases same
      exact Session.getOrDial_conn booked got

theorem relayed_write {uc : UdpConn} (dst : uc.dst = frame.dst) (shut : uc.shut ≠ some .close)
    (succeeds : Bool) : Entry.Relayed ⟨frame, uc.write succeeds, live⟩ := by
  unfold UdpConn.write
  split
  · split
    · exact dst
    · trivial
  · next closed => exact absurd closed shut
  · trivial

theorem sound_wrote (sound : stream.Sound session) (phase : stream.phase = .writing frame id)
    {uc : UdpConn} (found : session.sockets[id]? = some uc) (succeeds : Bool)
    (uncut : live = true → ¬ session.Cut) :
    (stream.wrote live frame (uc.write succeeds)).Sound session := by
  have inHand : stream.phase.inHand = [frame] := by rw [phase]; rfl
  have relayed : live = true → Entry.Relayed ⟨frame, uc.write succeeds, live⟩ := by
    intro alive
    obtain ⟨held, there, dst⟩ := sound.socket frame id (by rw [phase]; rfl)
    obtain rfl : uc = held := Option.some.inj (found.symm.trans there)
    exact relayed_write dst
      (fun shut => uncut alive (.inr ⟨uc, List.mem_of_getElem? found, shut⟩)) succeeds
  unfold Stream.wrote
  split
  · next written => exact sound.settle inHand rfl rfl (written ▸ relayed)
  · exact sound.settle inHand rfl rfl relayed

/-- What a step of one stream means for the others. -/
structure Acted (session : Session) (stream : Stream) (later : Session) (next : Stream) : Prop where
  grows : session.Grows later
  booked : session.Booked → later.Booked
  cut : later.Cut → session.Cut ∨ next.phase = .ended
  ended : stream.phase = .ended → next.phase = .ended

theorem Acted.of_next (kept : session.Next later) (ended : stream.phase = .ended → next.phase = .ended) :
    Acted session stream later next :=
  ⟨kept.grows, kept.booked, fun cut => .inl (kept.cut cut), ended⟩

theorem acted_of_act {action : Action} (acted : stream.act session live action = some (later, next)) :
    Acted session stream later next := by
  unfold Stream.act at acted
  split at acted
  · cases acted; exact .of_next (.refl _) id
  · cases acted; exact .of_next (.refl _) id
  · next phase =>
    obtain ⟨_, _, same⟩ := Option.map_eq_some_iff.1 acted
    cases same
    exact .of_next (.refl _) (by rw [phase]; exact nofun)
  · next phase =>
    cases acted
    exact .of_next (Session.next_getOrDial _ _ _ _) (by rw [phase]; exact nofun)
  · next phase =>
    cases acted
    exact .of_next (Session.next_touch _ _ _) (by rw [phase]; exact nofun)
  · next phase =>
    obtain ⟨_, _, same⟩ := Option.map_eq_some_iff.1 acted
    cases same
    exact .of_next (.refl _) (by rw [phase]; exact nofun)
  · next phase =>
    cases acted
    exact .of_next (Session.next_remove _ _) (by rw [phase]; exact nofun)
  · cases acted
    exact ⟨Session.grows_close _, fun _ => Session.booked_close _, fun _ => .inr rfl, fun _ => rfl⟩
  · cases acted

theorem sound_act {action : Action} (acted : stream.act session live action = some (later, next))
    (booked : session.Booked) (sound : stream.Sound session)
    (uncut : action.sends = true → live = true → ¬ session.Cut) : next.Sound later := by
  have grows := (acted_of_act acted).grows
  unfold Stream.act at acted
  split at acted
  · cases acted; exact sound.of_same rfl rfl rfl sound.socket
  · cases acted; exact sound.of_same rfl rfl rfl sound.socket
  · next phase =>
    obtain ⟨_, read, same⟩ := Option.map_eq_some_iff.1 acted
    cases same
    exact sound_read sound phase read
  · next phase => cases acted; exact sound_dialed sound booked phase (uncut rfl)
  · next phase =>
    cases acted
    have kept := sound.grows grows
    refine kept.of_same rfl rfl (by rw [phase]; rfl) fun frame id held => kept.socket frame id ?_
    rw [phase]
    exact held
  · next phase =>
    obtain ⟨uc, found, same⟩ := Option.map_eq_some_iff.1 acted
    cases same
    exact sound_wrote sound phase found _ (uncut rfl)
  · next phase => cases acted; exact sound.of_same rfl rfl (by rw [phase]; rfl) nofun
  · next phase => cases acted; exact sound.of_same rfl rfl (by rw [phase]; rfl) nofun
  · cases acted

end Stream

/-! ### The connection -/

/-- No stream of the connection has ended. -/
def Sys.NoneEnded (s : Sys) : Prop := ∀ stream ∈ s.streams, stream.phase ≠ .ended

instance (s : Sys) : Decidable s.NoneEnded := inferInstanceAs (Decidable (∀ _ ∈ _, _))

/-- While the connection is up, nothing is dialed or written after one of its streams has ended. -/
def Undisturbed (s : Sys) : Event → Prop
  | .stream _ action => action.sends = true → s.live = true → s.NoneEnded
  | _ => True

instance (s : Sys) (event : Event) : Decidable (Undisturbed s event) := by
  unfold Undisturbed
  split <;> infer_instance

structure Sys.Sound (s : Sys) : Prop where
  shared : s.udp = none → s.streams = []
  booked : ∀ session ∈ s.udp, session.Booked
  sound : ∀ session ∈ s.udp, ∀ stream ∈ s.streams, stream.Sound session
  cut : ∀ session ∈ s.udp, session.Cut → s.live = true → ¬ s.NoneEnded

theorem sound_initial : Sys.initial.Sound := ⟨fun _ => rfl, nofun, nofun, nofun⟩

section Steps

variable {idleTimeout : Nat} {s next : Sys}

theorem noneEnded_append_new : Sys.NoneEnded { s with streams := s.streams ++ [.new] } ↔ s.NoneEnded := by
  unfold Sys.NoneEnded
  simp only [List.mem_append, List.mem_singleton, or_imp, forall_and, forall_eq, and_iff_left_iff_imp]
  rintro - ⟨⟩

theorem Sys.Sound.openStream (sound : s.Sound) :
    Sys.Sound { s with udp := some (s.udp.getD .new), streams := s.streams ++ [.new] } := by
  cases shared : s.udp with
  | none =>
    have streams := sound.shared shared
    refine ⟨nofun, ?_, ?_, ?_⟩ <;> rintro session ⟨⟩
    · exact fun _ _ found => by cases found
    · rw [streams]
      rintro stream member
      cases List.mem_singleton.1 member
      exact Stream.sound_new _
    · rintro (closed | ⟨_, member, _⟩)
      · cases closed
      · cases member
  | some session =>
    refine ⟨nofun, ?_, ?_, ?_⟩ <;> rintro session ⟨⟩
    · exact sound.booked session shared
    · intro stream member
      rcases List.mem_append.1 member with old | new
      · exact sound.sound session shared stream old
      · cases List.mem_singleton.1 new
        exact Stream.sound_new _
    · exact fun cut live running => sound.cut session shared cut live (noneEnded_append_new.1 running)

theorem Sys.Sound.session {move : Session → Session} (sound : s.Sound)
    (grows : ∀ session : Session, session.Grows (move session))
    (booked : ∀ session : Session, session.Booked → (move session).Booked)
    (cut : ∀ session : Session, (move session).Cut → s.live = true → session.Cut) :
    Sys.Sound { s with udp := s.udp.map move } := by
  refine ⟨fun absent => sound.shared (Option.map_eq_none_iff.1 absent), ?_, ?_, ?_⟩ <;>
    intro moved member <;> obtain ⟨session, shared, rfl⟩ := Option.map_eq_some_iff.1 member
  · exact booked session (sound.booked session shared)
  · exact fun stream inside => (sound.sound session shared stream inside).grows (grows session)
  · exact fun isCut live => sound.cut session shared (cut session isCut live) live

theorem step_stream {index : Nat} {action : Action}
    (taken : step idleTimeout s (.stream index action) = some next) :
    ∃ session stream later acted, s.udp = some session ∧ s.streams[index]? = some stream ∧
      stream.act session s.live action = some (later, acted) ∧
      next = { s with udp := some later, streams := s.streams.set index acted } := by
  simp only [step, Option.bind_eq_bind, Option.bind_eq_some_iff, Option.pure_def,
    Option.some.injEq] at taken
  obtain ⟨session, shared, stream, found, acted, done, rfl⟩ := taken
  exact ⟨session, stream, acted.1, acted.2, shared, found, done, rfl⟩

theorem Sys.Sound.stream {index : Nat} {action : Action} (sound : s.Sound)
    (undisturbed : Undisturbed s (.stream index action))
    (taken : step idleTimeout s (.stream index action) = some next) : next.Sound := by
  obtain ⟨session, stream, later, acted, shared, found, done, rfl⟩ := step_stream taken
  have inside := List.mem_of_getElem? found
  have moved := Stream.acted_of_act done
  refine ⟨nofun, ?_, ?_, ?_⟩ <;> rintro session' ⟨⟩
  · exact moved.booked (sound.booked session shared)
  · intro other member
    rcases List.mem_or_eq_of_mem_set member with old | rfl
    · exact (sound.sound session shared other old).grows moved.grows
    · refine Stream.sound_act done (sound.booked session shared)
        (sound.sound session shared stream inside) fun sends live cut => ?_
      exact sound.cut session shared cut live (undisturbed sends live)
  · intro cut live running
    have set := List.mem_set (List.getElem?_eq_some_iff.1 found).1 acted
    rcases moved.cut cut with before | ended
    · refine sound.cut session shared before live fun other member ended => ?_
      -- a stream that had ended is still there, and still ended if it is the one that moved
      obtain ⟨place, there⟩ := List.mem_iff_getElem?.1 member
      by_cases same : place = index
      · subst same
        obtain rfl : other = stream := Option.some.inj (there.symm.trans found)
        exact running acted set (moved.ended ended)
      · have kept : (s.streams.set index acted)[place]? = some other :=
          (List.getElem?_set_ne (Ne.symm same)).trans there
        exact running other (List.mem_of_getElem? kept) ended
    · exact running acted set ended

theorem sound_step (event : Event) (undisturbed : Undisturbed s event) (sound : s.Sound)
    (taken : step idleTimeout s event = some next) : next.Sound := by
  cases event with
  | openStream =>
    simp only [step] at taken
    split at taken
    · cases taken; exact sound.openStream
    · cases taken
  | stream index action => exact sound.stream undisturbed taken
  | reap now =>
    cases taken
    have kept := Session.next_reap idleTimeout now
    exact sound.session (fun session => (kept session).grows) (fun session => (kept session).booked)
      fun session cut _ => (kept session).cut cut
  | done =>
    cases taken
    exact ⟨sound.shared, sound.booked, sound.sound, nofun⟩
  | cleanup =>
    simp only [step] at taken
    split at taken
    · cases taken
    · next down =>
      cases taken
      exact sound.session Session.grows_close (fun session _ => Session.booked_close session)
        fun _ _ live => absurd live down

end Steps

/-- **The relay of an undisturbed connection.** Every frame that was read from a stream is in hand or
was relayed, unless the connection was down by then. -/
theorem relayed_of_undisturbed {idleTimeout : Nat} {events : List Event} {s : Sys}
    (reached : run (step idleTimeout) .initial events = some s)
    (undisturbed : Along (step idleTimeout) Undisturbed .initial events) :
    ∀ stream ∈ s.streams, stream.taken = stream.log.map Entry.frame ++ stream.phase.inHand ∧
      ∀ entry ∈ stream.log, entry.live = true → entry.Relayed := by
  have sound : s.Sound := run_invariant
    (fun _ event _ undisturbed sound taken => sound_step event undisturbed sound taken)
    undisturbed sound_initial reached
  intro stream member
  cases shared : s.udp with
  | none =>
    rw [sound.shared shared] at member
    cases member
  | some session =>
    have kept := sound.sound session shared stream member
    exact ⟨kept.taken, kept.relayed⟩

/-- A frame of one byte from port 7 to port 53. -/
def query : List UInt8 :=
  [0, 0, 0, 38] ++ List.replicate 16 1 ++ [0, 7] ++ List.replicate 16 2 ++ [0, 53, 0, 9]

/-- A stream receives the frame, reads it and sends it. -/
def relay (index : Nat) : List Event :=
  [.stream index (.arrive query), .stream index .read, .stream index (.getOrDial 0 true),
    .stream index (.touch 0), .stream index (.write true)]

/-- A stream is ended by its client. -/
def hangUp (index : Nat) : List Event :=
  [.stream index .finish, .stream index .read, .stream index .close]

/-- Two streams of one flow relay a frame each, and then one of them ends. -/
theorem relayed_twoStreams :
    ∃ s, run (step 300) .initial
        ([.openStream, .openStream] ++ relay 0 ++ relay 1 ++ hangUp 0) = some s ∧
      Along (step 300) Undisturbed .initial
        ([.openStream, .openStream] ++ relay 0 ++ relay 1 ++ hangUp 0) ∧
      ∀ stream ∈ s.streams, stream.taken = stream.log.map Entry.frame ++ stream.phase.inHand ∧
        ∀ entry ∈ stream.log, entry.live = true → entry.Relayed :=
  ⟨_, rfl, by decide, relayed_of_undisturbed
    (show run (step 300) .initial
      ([.openStream, .openStream] ++ relay 0 ++ relay 1 ++ hangUp 0) = some _ from rfl) (by decide)⟩

/-- One stream ends, and the frame of the other, which is open, finds the session closed. -/
theorem frame_lost :
    ∃ s, run (step 300) .initial ([.openStream, .openStream] ++ hangUp 0 ++
        [.stream 1 (.arrive query), .stream 1 .read, .stream 1 (.getOrDial 0 true)]) = some s ∧
      s.live = true ∧ ∃ stream ∈ s.streams, stream.phase = .reading ∧
        ∃ entry ∈ stream.log, entry.live = true ∧ entry.outcome = .sessionClosed ∧ ¬ entry.Relayed :=
  ⟨_, rfl, rfl, by decide⟩

end Ttgo.Udp

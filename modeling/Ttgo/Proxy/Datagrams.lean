/-
**The datagram pseudo-hosts.**

The streams of `_udp2` and `_icmp` go to the two multiplexers. Neither of them is given the options of the
proxy, and neither waits for its goroutines.

* `Udp.Sys.destinations`, `Icmp.Sys.destinations` — the addresses that may be sent to; a step adds the
  destination of the frame or request that it reads and no other (`mem_destinations_step`).
* `private_unreached` — if no frame and no echo request that is read has a private or unspecified destination,
  nothing is sent to a private one.
* `replies_never_late` — if no stream returns while a goroutine has a reply to it in hand, and none is
  received for a stream that has returned, nothing is written to a finished response.
-/

import Ttgo.Icmp.Isolation
import Ttgo.Icmp.Reply
import Ttgo.Proxy.Dispatch
import Ttgo.Udp.Reply

namespace Ttgo.Udp

open Ttgo.Lib Ttgo.Server

/-! ### Where UDP datagrams go -/

namespace Session

def destinations (session : Session) : List (List UInt8 × Nat) := session.sockets.map UdpConn.dst

variable (session : Session)

theorem map_dst_shutWhere (which : Nat → Bool) (cause : Shut) (sockets : List UdpConn) :
    (shutWhere which cause sockets).map UdpConn.dst = sockets.map UdpConn.dst := by
  refine List.ext_getElem? fun id => ?_
  rw [List.getElem?_map, List.getElem?_map, getElem?_shutWhere, Option.map_map]
  refine congrArg (Option.map · _) (funext fun uc => ?_)
  simp only [Function.comp_apply]
  split <;> rfl

theorem destinations_touch (id now : Nat) : (session.touch id now).destinations = session.destinations := by
  refine List.ext_getElem? fun place => ?_
  rw [destinations, destinations, touch, List.getElem?_map, List.getElem?_map, List.getElem?_modify,
    Option.map_eq_map, Option.map_map]
  refine congrArg (Option.map · _) (funext fun uc => ?_)
  simp only [Function.comp_apply]
  split <;> rfl

theorem destinations_remove (key : ConnKey) : (session.remove key).destinations = session.destinations := by
  unfold remove
  split
  · rfl
  · exact map_dst_shutWhere _ _ _

theorem destinations_reap (idleTimeout now : Nat) :
    (session.reap idleTimeout now).destinations = session.destinations := by
  unfold reap
  split
  · rfl
  · exact map_dst_shutWhere _ _ _

theorem destinations_close : session.close.destinations = session.destinations :=
  map_dst_shutWhere _ _ _

theorem mem_destinations_getOrDial {key : ConnKey} {now : Nat} {dials : Bool} {dst : List UInt8 × Nat}
    (member : dst ∈ (session.getOrDial key now dials).2.destinations) :
    dst ∈ session.destinations ∨ dst = key.dst := by
  unfold getOrDial at member
  split at member
  · exact .inl member
  · split at member
    · exact .inl member
    · split at member
      · simpa only [destinations, List.map_append, List.mem_append, List.map_cons, List.map_nil,
          List.mem_singleton] using member
      · exact .inl member

end Session

namespace Stream

/-- The destinations of the datagrams that were sent. -/
def sent (stream : Stream) : List (List UInt8 × Nat) :=
  stream.log.filterMap fun entry =>
    match entry.outcome with
    | .written dst => some dst
    | .dialFailed | .writeFailed | .sessionClosed | .socketClosed => none

/-- They, and the destination of the frame that is to be dialed. -/
def destinations (stream : Stream) : List (List UInt8 × Nat) :=
  match stream.phase with
  | .dialing frame => frame.dst :: stream.sent
  | .reading | .touching _ _ | .writing _ _ | .removing _ | .returning | .ended => stream.sent

variable {session later : Session} {stream next : Stream} {live : Bool} {action : Action}
  {dst : List UInt8 × Nat}

theorem sent_subset : stream.sent ⊆ stream.destinations := by
  unfold destinations
  split
  · exact List.subset_cons_self _ _
  all_goals exact List.Subset.refl _

theorem sent_settle (frame : Frame) (outcome : Outcome) (phase : Phase)
    (member : dst ∈ (stream.settle frame outcome live phase).sent) :
    dst ∈ stream.sent ∨ outcome = .written dst := by
  simp only [sent, settle, List.filterMap_append, List.mem_append] at member
  refine member.imp id fun new => ?_
  cases outcome with
  | written target =>
    cases List.mem_singleton.mp new
    rfl
  | dialFailed | writeFailed | sessionClosed | socketClosed => cases new

/-- The frame that `readOutgoing` reads. -/
def reads (stream : Stream) : Option Frame :=
  match readOutgoing stream.input with
  | .ok (frame, _) => some frame
  | .error _ => none

/-- Where it goes. -/
def readsTo (stream : Stream) : Option (List UInt8 × Nat) := stream.reads.map Frame.dst

theorem mem_destinations_read (read : stream.read live = some next) (member : dst ∈ next.destinations) :
    dst ∈ stream.sent ∨ stream.readsTo = some dst := by
  unfold Stream.read at read
  split at read
  · next got =>
    cases read
    rcases List.mem_cons.mp member with rfl | old
    · exact .inr (by rw [readsTo, reads, got, Option.map_some])
    · exact .inl old
  · cases read
    exact .inl member
  · cases read
    exact .inl member
  all_goals
    obtain ⟨-, same⟩ := Option.ite_none_right_eq_some.mp read
    cases same
    exact .inl member

theorem mem_destinations_dialed {frame : Frame} {result : Session.Dialed}
    (member : dst ∈ (stream.dialed live frame result).destinations) : dst ∈ stream.sent := by
  cases result with
  | closed | failed =>
    rcases sent_settle _ _ _ member with old | new
    · exact old
    · cases new
  | conn id => exact member

theorem mem_destinations_wrote {frame : Frame} {uc : UdpConn} {succeeds : Bool}
    (member : dst ∈ (stream.wrote live frame (uc.write succeeds)).destinations) :
    dst ∈ stream.sent ∨ dst = uc.dst := by
  have written : uc.write succeeds = .written dst → dst = uc.dst := by
    intro same
    unfold UdpConn.write at same
    split at same
    · split at same
      · cases same
        rfl
      · cases same
    all_goals cases same
  unfold Stream.wrote at member
  split at member
  · next target same => exact (sent_settle _ _ _ member).imp id fun eq => written (same.trans eq)
  · exact (sent_settle _ _ _ member).imp id written

/-- **One step of a stream** adds no destination but that of the frame that it reads. -/
theorem mem_destinations_act (acted : stream.act session live action = some (later, next))
    (member : dst ∈ later.destinations ∨ dst ∈ next.destinations) :
    dst ∈ session.destinations ∨ dst ∈ stream.destinations ∨
      action = .read ∧ stream.readsTo = some dst := by
  unfold Stream.act at acted
  split at acted
  · cases acted
    exact member.imp id .inl
  · cases acted
    exact member.imp id .inl
  · obtain ⟨read, got, same⟩ := Option.map_eq_some_iff.mp acted
    cases same
    refine member.imp id fun new => ?_
    exact (mem_destinations_read got new).imp (sent_subset ·) fun target => ⟨rfl, target⟩
  · next frame now dials phase =>
    cases acted
    rcases member with socket | new
    · refine (session.mem_destinations_getOrDial socket).imp id fun same => .inl ?_
      rw [destinations, phase, same]
      exact List.mem_cons_self
    · exact .inr (.inl (sent_subset (mem_destinations_dialed new)))
  · cases acted
    rw [Session.destinations_touch] at member
    exact member.imp id fun new => .inl (sent_subset new)
  · obtain ⟨uc, found, same⟩ := Option.map_eq_some_iff.mp acted
    cases same
    rcases member with socket | new
    · exact .inl socket
    · rcases mem_destinations_wrote new with old | rfl
      · exact .inr (.inl (sent_subset old))
      · exact .inl (List.mem_map_of_mem (List.mem_of_getElem? found))
  · cases acted
    rw [Session.destinations_remove] at member
    exact member.imp id fun new => .inl (sent_subset new)
  · cases acted
    rw [Session.destinations_close] at member
    exact member.imp id fun new => .inl (sent_subset new)
  · cases acted

end Stream

namespace Sys

/-- Every address that a socket leads to, that is to be dialed, or that was sent to. -/
def destinations (s : Sys) : List (List UInt8 × Nat) :=
  (s.udp.map Session.destinations).getD [] ++ s.streams.flatMap Stream.destinations

/-- The destinations of the datagrams that were sent. -/
def sent (s : Sys) : List (List UInt8 × Nat) := s.streams.flatMap Stream.sent

/-- The frame that a step reads. -/
def reads (s : Sys) : Event → Option Frame
  | .stream index .read => (s.streams[index]?).bind Stream.reads
  | _ => none

def readsTo (s : Sys) (event : Event) : Option (List UInt8 × Nat) := (s.reads event).map Frame.dst

variable {idleTimeout : Nat} {s next : Sys} {event : Event} {dst : List UInt8 × Nat}

theorem mem_destinations : dst ∈ s.destinations ↔
    (∃ session ∈ s.udp, dst ∈ session.destinations) ∨
      ∃ stream ∈ s.streams, dst ∈ stream.destinations := by
  rw [destinations, List.mem_append, List.mem_flatMap]
  refine or_congr_left ?_
  cases s.udp with
  | none => simp
  | some session => simp

theorem sent_subset : s.sent ⊆ s.destinations := by
  intro dst member
  obtain ⟨stream, inside, sent⟩ := List.mem_flatMap.mp member
  exact mem_destinations.mpr (.inr ⟨stream, inside, Stream.sent_subset sent⟩)

theorem destinations_session {move : Session → Session}
    (same : ∀ session : Session, (move session).destinations = session.destinations) :
    Sys.destinations { s with udp := s.udp.map move } = s.destinations := by
  simp only [destinations, Option.map_map, Function.comp_def, same]

/-- **One step** adds no destination but that of the frame that it reads. -/
theorem mem_destinations_step (taken : step idleTimeout s event = some next)
    (member : dst ∈ next.destinations) : dst ∈ s.destinations ∨ s.readsTo event = some dst := by
  cases event with
  | openStream =>
    obtain ⟨-, same⟩ := Option.ite_none_right_eq_some.mp taken
    cases same
    refine .inl (mem_destinations.mpr ?_)
    rcases mem_destinations.mp member with ⟨session, shared, socket⟩ | ⟨stream, inside, new⟩
    · cases before : s.udp with
      | none =>
        rw [before] at shared
        cases shared
        cases socket
      | some old =>
        rw [before] at shared
        cases shared
        exact .inl ⟨old, rfl, socket⟩
    · rcases List.mem_append.mp inside with old | added
      · exact .inr ⟨stream, old, new⟩
      · cases List.mem_singleton.mp added
        cases new
  | stream index action =>
    obtain ⟨session, stream, later, moved, shared, found, acted, rfl⟩ := step_stream taken
    have known : dst ∈ later.destinations ∨ dst ∈ moved.destinations →
        dst ∈ s.destinations ∨ s.readsTo (.stream index action) = some dst := by
      intro new
      rcases Stream.mem_destinations_act acted new with socket | old | ⟨rfl, target⟩
      · exact .inl (mem_destinations.mpr (.inl ⟨session, shared, socket⟩))
      · exact .inl (mem_destinations.mpr (.inr ⟨stream, List.mem_of_getElem? found, old⟩))
      · exact .inr (by rw [readsTo, reads, found, Option.bind_some, ← Stream.readsTo, target])
    rcases mem_destinations.mp member with ⟨_, same, socket⟩ | ⟨other, inside, new⟩
    · cases same
      exact known (.inl socket)
    · rcases List.mem_or_eq_of_mem_set inside with old | rfl
      · exact .inl (mem_destinations.mpr (.inr ⟨other, old, new⟩))
      · exact known (.inr new)
  | reap now =>
    cases taken
    exact .inl (destinations_session (Session.destinations_reap · idleTimeout now) ▸ member)
  | done =>
    cases taken
    exact .inl member
  | cleanup =>
    obtain ⟨-, same⟩ := Option.ite_none_left_eq_some.mp taken
    cases same
    exact .inl (destinations_session Session.destinations_close ▸ member)

end Sys

end Ttgo.Udp

namespace Ttgo.Icmp

open Ttgo.Lib Ttgo.Server

/-! ### Where echo requests go -/

/-- The destination of the echo request that `readEchoRequest` reads. -/
def Stream.readsTo (stream : Stream) : Option IP :=
  match readEchoRequest stream.input with
  | .ok (echo, _) => some echo.dst
  | .error _ => none

theorem Stream.held_act {stream moved : Stream} {action : StreamAction} {echo : Echo}
    (acted : stream.act action = some moved) (held : moved.held = some echo) :
    stream.held = some echo ∨ action = .read ∧ stream.readsTo = some echo.dst := by
  cases action with
  | arrive bytes | finish | cancel =>
    cases acted
    exact .inl held
  | read =>
    obtain ⟨-, rest⟩ := Option.ite_none_right_eq_some.mp acted
    unfold Stream.read at rest
    split at rest
    · next got =>
      cases rest
      cases held
      exact .inr ⟨rfl, by rw [Stream.readsTo, got]⟩
    · obtain ⟨-, same⟩ := Option.ite_none_right_eq_some.mp rest
      cases same
      exact .inl held

namespace Sys

def destinations (s : Sys) : List IP :=
  s.streams.filterMap (fun stream => stream.held.map Echo.dst) ++
    s.requests.map fun request => request.echo.dst

/-- Where the echo requests that were sent have gone. -/
def sent (s : Sys) : List IP :=
  (s.requests.filter Request.sent).map fun request => reachedIP request.echo.dst

/-- The destination of the echo request that a step reads. -/
def readsTo (s : Sys) : Event → Option IP
  | .stream index .read => (s.streams[index]?).bind Stream.readsTo
  | _ => none

variable {s next : Sys} {event : Event} {dst : IP}

theorem mem_destinations : dst ∈ s.destinations ↔
    (∃ stream ∈ s.streams, ∃ echo, stream.held = some echo ∧ echo.dst = dst) ∨
      ∃ request ∈ s.requests, request.echo.dst = dst := by
  simp only [destinations, List.mem_append, List.mem_filterMap, List.mem_map, Option.map_eq_some_iff]

/-- **One step** adds no destination but that of the echo request that it reads. -/
theorem mem_destinations_step (taken : step s event = some next) (member : dst ∈ next.destinations) :
    dst ∈ s.destinations ∨ s.readsTo event = some dst := by
  rw [mem_destinations] at member
  have before : ∀ {stream : Stream} {echo : Echo}, stream ∈ s.streams → stream.held = some echo →
      echo.dst = dst → dst ∈ s.destinations := fun inside held same =>
    mem_destinations.mpr (.inl ⟨_, inside, _, held, same⟩)
  have known : ∀ {request : Request}, request ∈ s.requests → request.echo.dst = dst →
      dst ∈ s.destinations := fun inside same => mem_destinations.mpr (.inr ⟨_, inside, same⟩)
  cases stepped_of_step taken with
  | newSession | readError => exact .inl (mem_destinations.mpr member)
  | openStream sessionID =>
    refine .inl (mem_destinations.mpr (member.imp ?_ id))
    rintro ⟨stream, inside, echo, held, same⟩
    rcases List.mem_append.mp inside with old | new
    · exact ⟨stream, old, echo, held, same⟩
    · cases List.mem_singleton.mp new
      cases held
  | stream index action stream moved found acted =>
    rcases member with ⟨other, inside, echo, held, same⟩ | ⟨request, inside, same⟩
    · rcases List.mem_or_eq_of_mem_set inside with old | rfl
      · exact .inl (before old held same)
      · rcases Stream.held_act acted held with already | ⟨rfl, target⟩
        · exact .inl (before (List.mem_of_getElem? found) already same)
        · exact .inr (by rw [readsTo, found, Option.bind_some, target, same])
    · exact .inl (known inside same)
  | register index stream echo found held =>
    refine .inl ?_
    rcases member with ⟨other, inside, echo', held', same⟩ | ⟨request, inside, same⟩
    · rcases List.mem_or_eq_of_mem_set inside with old | rfl
      · exact before old held' same
      · cases held'
    · rcases List.mem_append.mp inside with old | new
      · exact known old same
      · cases List.mem_singleton.mp new
        exact before (List.mem_of_getElem? found) held same
  | request index action request moved found acted =>
    refine .inl ?_
    rcases member with ⟨other, inside, echo, held, same⟩ | ⟨request', inside, same⟩
    · obtain ⟨place, there⟩ := List.mem_iff_getElem?.mp inside
      simp only [output, List.getElem?_modify, Option.map_eq_map, Option.map_eq_some_iff] at there
      obtain ⟨stream, old, rfl⟩ := there
      refine before (List.mem_of_getElem? old) ?_ same
      rw [← held]
      split <;> rfl
    · rcases List.mem_or_eq_of_mem_set inside with old | rfl
      · exact known old same
      · rw [(Request.acted_of_act acted).continues.echo] at same
        exact known (List.mem_of_getElem? found) same
  | unregister index request found stood =>
    refine .inl ?_
    rcases member with ⟨other, inside, echo, held, same⟩ | ⟨request', inside, same⟩
    · exact before inside held same
    · rcases List.mem_or_eq_of_mem_set inside with old | rfl
      · exact known old same
      · exact known (List.mem_of_getElem? found) same
  | incoming peer message =>
    refine .inl (mem_destinations.mpr ?_)
    rw [streams_incoming] at member
    refine member.imp id ?_
    rintro ⟨moved, inside, same⟩
    obtain ⟨request, old, channel, rfl⟩ := mem_incoming inside
    exact ⟨request, old, same⟩

end Sys

end Ttgo.Icmp

namespace Ttgo.Proxy.Datagrams

open Ttgo.Lib Ttgo.Server

/-! ### Private destinations -/

/-- A frame that is read has a destination that is neither private nor unspecified. -/
def PublicFrame (s : Udp.Sys) (event : Udp.Event) : Prop :=
  ∀ frame ∈ s.reads event, isPrivateIP frame.dstIP = false ∧ isUnspecified frame.dstIP = false

/-- An echo request that is read has a destination that is neither private nor unspecified. -/
def PublicEcho (s : Icmp.Sys) (event : Icmp.Event) : Prop :=
  ∀ dst ∈ s.readsTo event, isPrivateIP dst = false ∧ isUnspecified dst = false

instance (s : Udp.Sys) (event : Udp.Event) : Decidable (PublicFrame s event) :=
  inferInstanceAs (Decidable (∀ _ ∈ _, _))

instance (s : Icmp.Sys) (event : Icmp.Event) : Decidable (PublicEcho s event) :=
  inferInstanceAs (Decidable (∀ _ ∈ _, _))

theorem PublicFrame.reached {s : Udp.Sys} {event : Udp.Event} (isPublic : PublicFrame s event) :
    ∀ dst ∈ s.readsTo event, isPrivateIP dst.1 = false := by
  intro dst reads
  obtain ⟨frame, read, rfl⟩ := Option.map_eq_some_iff.mp reads
  obtain ⟨notPrivate, specified⟩ := isPublic frame read
  show isPrivateIP (reachedIP frame.dstIP) = false
  rwa [reachedIP_of_specified specified]

/-- **Private destinations of datagrams.** In every run of the UDP session of a connection, and in every
run of the ICMP multiplexer, in which no frame and no echo request that is read has a private or unspecified
destination, no datagram and no echo request is sent to a private address. -/
theorem private_unreached {idleTimeout : Nat} {frames : List Udp.Event} {echoes : List Icmp.Event}
    {udp : Udp.Sys} {icmp : Icmp.Sys} (relayed : run (Udp.step idleTimeout) .initial frames = some udp)
    (pinged : run Icmp.step .initial echoes = some icmp)
    (publicFrames : Along (Udp.step idleTimeout) PublicFrame .initial frames)
    (publicEchoes : Along Icmp.step PublicEcho .initial echoes) :
    (∀ dst ∈ udp.sent, isPrivateIP dst.1 = false) ∧ ∀ dst ∈ icmp.sent, isPrivateIP dst = false := by
  constructor
  · intro dst sent
    exact run_collected Udp.Sys.mem_destinations_step PublicFrame.reached publicFrames
      (fun _ member => by cases member) relayed dst (Udp.Sys.sent_subset sent)
  · intro dst sent
    obtain ⟨request, inside, rfl⟩ := List.mem_map.mp sent
    obtain ⟨notPrivate, specified⟩ := run_collected Icmp.Sys.mem_destinations_step
      (fun isPublic : PublicEcho _ _ => isPublic) publicEchoes (fun _ member => by cases member) pinged _
      (Icmp.Sys.mem_destinations.mpr (.inr ⟨request, List.mem_of_mem_filter inside, rfl⟩))
    rwa [reachedIP_of_specified specified]

theorem private_unreached_public :
    ∃ udp icmp, run (Udp.step 300) .initial (.openStream :: Udp.relay 0) = some udp ∧
      run Icmp.step .initial Icmp.oneByOne = some icmp ∧ udp.sent ≠ [] ∧ icmp.sent ≠ [] ∧
      (∀ dst ∈ udp.sent, isPrivateIP dst.1 = false) ∧ ∀ dst ∈ icmp.sent, isPrivateIP dst = false :=
  ⟨_, _, rfl, rfl, by decide, by decide,
    private_unreached (show run (Udp.step 300) .initial (.openStream :: Udp.relay 0) = some _ from rfl)
      (show run Icmp.step .initial Icmp.oneByOne = some _ from rfl) (by decide) (by decide)⟩

/-- A stream relays a frame to port 53 of the endpoint itself. -/
def localQuery : List Udp.Event :=
  [.openStream,
    .stream 0 (.arrive ([0, 0, 0, 38] ++ List.replicate 16 1 ++ [0, 7] ++ loopback ++ [0, 53, 0, 9])),
    .stream 0 .read, .stream 0 (.getOrDial 0 true), .stream 0 (.touch 0), .stream 0 (.write true)]

def localPing : List Icmp.Event :=
  [.newSession, .openStream 1, .stream 0 (.arrive ([0, 7] ++ loopback ++ [0, 1, 64, 0, 56])),
    .stream 0 .read, .register 0, .request 0 (.send true)]

/-- The pseudo-hosts lead to the endpoint itself. -/
theorem private_reached :
    isPrivateIP loopback = true ∧
      dispatch ⟨true, true⟩ [] (connContext laptop []) ⟨"_udp2".toList, [], [], []⟩ = .udp ∧
      (∃ udp, run (Udp.step 300) .initial localQuery = some udp ∧ udp.sent = [(loopback, 53)]) ∧
      dispatch ⟨true, true⟩ [] (connContext laptop []) ⟨"_icmp".toList, [], [], []⟩ = .icmp ∧
      ∃ icmp, run Icmp.step .initial localPing = some icmp ∧ icmp.sent = [loopback] :=
  ⟨by decide, by decide, ⟨_, rfl, by decide⟩, by decide, ⟨_, rfl, by decide⟩⟩

/-! ### Replies and the ends of their streams -/

/-- **No reply to a finished response.** In every run of the UDP session of a connection with its
readers, and in every run of the ICMP multiplexer, in which no `ServeHTTP` returns while a goroutine has
a reply to its stream in hand, and no goroutine takes a reply to a stream whose `ServeHTTP` has
returned, no goroutine writes to the response of a `ServeHTTP` that has returned. -/
theorem replies_never_late {idleTimeout : Nat} {datagrams : List Udp.Reply.Event}
    {echoes : List Icmp.Event} {udp : Udp.Reply.Sys} {icmp : Icmp.Sys}
    (relayed : run (Udp.Reply.step idleTimeout) .initial datagrams = some udp)
    (pinged : run Icmp.step .initial echoes = some icmp)
    (promptRelay : Along (Udp.Reply.step idleTimeout) (Udp.Reply.replies idleTimeout).Prompt .initial
      datagrams)
    (promptPing : Along Icmp.step Icmp.replies.Prompt .initial echoes) :
    Along (Udp.Reply.step idleTimeout)
        (fun s event => ¬ (Udp.Reply.replies idleTimeout).Late s event) .initial datagrams ∧
      Along Icmp.step (fun s event => ¬ Icmp.replies.Late s event) .initial echoes :=
  ⟨Handoff.never_late trivial (fun _ held => by cases held) relayed promptRelay,
    Handoff.never_late trivial (fun _ held => by cases held) pinged promptPing⟩

/-- A frame is relayed and the answer comes back. -/
def exchange : List Udp.Reply.Event :=
  .relay .openStream :: (Udp.relay 0).map .relay ++ [.receive 0 [9]]

/-- The answer is written, and then the client ends the stream. -/
def orderlyRelay : List Udp.Reply.Event :=
  exchange ++ [.write 0 true] ++ (Udp.hangUp 0).map .relay ++ [.fails 0]

/-- Two pings are answered, and then the client ends the stream. -/
def orderlyPing : List Icmp.Event := Icmp.oneByOne ++ [.stream 0 .finish, .stream 0 .read]

theorem replies_never_late_orderly :
    ∃ udp icmp, run (Udp.Reply.step 300) .initial orderlyRelay = some udp ∧
      run Icmp.step .initial orderlyPing = some icmp ∧
      udp.hasReturned 0 = true ∧ icmp.hasReturned 0 = true ∧
      Along (Udp.Reply.step 300) (fun s event => ¬ (Udp.Reply.replies 300).Late s event) .initial
        orderlyRelay ∧
      Along Icmp.step (fun s event => ¬ Icmp.replies.Late s event) .initial orderlyPing :=
  ⟨_, _, rfl, rfl, by decide, by decide,
    replies_never_late (show run (Udp.Reply.step 300) .initial orderlyRelay = some _ from rfl)
      (show run Icmp.step .initial orderlyPing = some _ from rfl) (by decide) (by decide)⟩

/-- The client ends the stream while the reader has the answer in hand. -/
def hungUpRelay : List Udp.Reply.Event := exchange ++ (Udp.hangUp 0).map .relay ++ [.write 0 true]

/-- The client ends the stream while the goroutine has the answer in hand. -/
def hungUpPing : List Icmp.Event :=
  [.newSession, .openStream 1] ++ Icmp.pinging 0 0 1 ++
    [Icmp.pong 1, .request 0 .take, .stream 0 .finish, .stream 0 .read, .request 0 (.write true)]

/-- Both handlers return without their goroutines, and a goroutine writes afterwards. -/
theorem reply_written_late :
    (∃ udp, run (Udp.Reply.step 300) .initial hungUpRelay = some udp ∧
      ¬ Along (Udp.Reply.step 300) (fun s event => ¬ (Udp.Reply.replies 300).Late s event) .initial
        hungUpRelay) ∧
    ∃ icmp, run Icmp.step .initial hungUpPing = some icmp ∧
      ¬ Along Icmp.step (fun s event => ¬ Icmp.replies.Late s event) .initial hungUpPing :=
  ⟨⟨_, rfl, by decide⟩, ⟨_, rfl, by decide⟩⟩

end Ttgo.Proxy.Datagrams

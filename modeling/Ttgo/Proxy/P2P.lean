/-
**The P2P broker.**

`P2PBroker.Handle` of `internal/proxy/p2p.go`, with the streams that `RunExpose` and `RunReach` of
`internal/admin/tunnel.go` open. Every call of `Handle` runs in its own goroutine; the first stream of a
user in a room waits, the second takes it out of the room and starts the two copies. A request says
nothing of the side it was opened by.

* `Call` — one call of `Handle`, with where it stands, the stream that it was bridged with and the
  copies that it started.
* `Call.act` — the steps that concern one call; `step` — any interleaving of the calls, the clients and
  the contexts of the requests.
* `Sys.Bridged` — two streams are bridged; `Sys.Sound` — they ask for the same key.
* `bridged_mixed_iff` — every pair is an expose and a reach exactly when no stream comes to the broker
  while one of its own side waits there.
* `bridged_same` — with the usernames of `CheckExt` no two users and no two rooms meet.
-/

import Ttgo.Auth.Authenticator
import Ttgo.Lib.GoStrings
import Ttgo.Lib.Pool
import Ttgo.Lib.Run
import Ttgo.Proxy.CopyLoop

namespace Ttgo.Proxy.P2P

open Ttgo.Auth Ttgo.Lib

/-! ### One call -/

/-- The side that opened a stream. -/
inductive Role
  | expose
  | reach
deriving DecidableEq, Repr

/-- Where a call of `Handle` stands. -/
inductive Phase
  /-- Before the lock. -/
  | arrived
  | refused (status : Nat) (body : String)
  /-- In the `select` of the stream that came first. -/
  | waiting
  /-- Its context is done or its timer has fired; before the lock. -/
  | leaving
  /-- The peer is taken out of the room; before the copies start. -/
  | bridging
  /-- In the `select` of the stream that came second. -/
  | copying
  /-- Before `close(peer.done)`. -/
  | closing
  | returned
deriving DecidableEq, Repr

def Phase.hasReturned : Phase → Bool
  | .refused _ _ | .returned => true
  | .arrived | .waiting | .leaving | .bridging | .copying | .closing => false

/-- The two copies of a bridge: to the peer, and from the peer. -/
inductive Way
  | forth
  | back
deriving DecidableEq, Repr

/-- A `CONNECT _p2p` request: who opened it, the user it was admitted for and its `X-P2P-Room`. -/
structure Request where
  role : Role
  username : String
  room : String
deriving DecidableEq, Repr

/-- `username + ":" + room`. -/
def Request.key (request : Request) : String := request.username ++ ":" ++ request.room

structure Call where
  request : Request
  phase : Phase := .arrived
  /-- The client's goroutine still has the stream. -/
  held : Bool := true
  /-- The context of the request is done. -/
  cancelled : Bool := false
  /-- How often `self.done` was closed. -/
  closes : Nat := 0
  /-- The stream that was waiting when this one came. -/
  peer : Option Nat := none
  /-- `copyFlush(peer.w, r.Body)`. -/
  forth : Option CopyLoop := none
  /-- `copyFlush(w, peer.r.Body)`. -/
  back : Option CopyLoop := none
deriving DecidableEq, Repr

namespace Call

def key (call : Call) : String := call.request.key

def copy (call : Call) : Way → Option CopyLoop
  | .forth => call.forth
  | .back => call.back

def setCopy (call : Call) (loop : CopyLoop) : Way → Call
  | .forth => { call with forth := some loop }
  | .back => { call with back := some loop }

/-- `errCh` has an element. -/
def copyEnded (call : Call) : Bool :=
  call.forth.any CopyLoop.hasEnded || call.back.any CopyLoop.hasEnded

end Call

inductive Action
  /-- The client's goroutine is done with the stream. -/
  | hangUp
  /-- `r.Context()` is done: the client is gone, or the handler has returned. -/
  | cancel
  /-- `self.done` is closed. -/
  | released
  /-- The context of the waiting stream is done, or its timer fires. -/
  | leave (timer : Bool)
  /-- The two copies start. -/
  | start
  | read (way : Way) (bytes : List UInt8) (err : Option ReadErr)
  | write (way : Way) (short : Option Nat)
  /-- The `select` of the bridging stream. -/
  | finish
deriving DecidableEq, Repr

/-- A step of one call; `peerGone` is whether the context of its peer is done. -/
def Call.act (peerGone : Bool) (call : Call) : Action → Option Call
  | .hangUp => if call.held then some { call with held := false } else none
  | .cancel => some { call with cancelled := true }
  | .released =>
    if call.phase = .waiting ∧ 0 < call.closes then some { call with phase := .returned } else none
  | .leave timer =>
    if call.phase = .waiting ∧ (timer ∨ call.cancelled) then some { call with phase := .leaving }
    else none
  | .start =>
    if call.phase = .bridging then
      some { call with
        phase := .copying, forth := some (.reading []), back := some (.reading []) }
    else none
  | .read way bytes err => do
    let loop ← call.copy way
    let next ← loop.read bytes err
    return call.setCopy next way
  | .write way short => do
    let loop ← call.copy way
    let next ← loop.write short
    return call.setCopy next way
  | .finish =>
    if call.phase = .copying ∧ (call.copyEnded ∨ call.cancelled ∨ peerGone) then
      some { call with phase := .closing }
    else none

/-! ### The broker and its clients -/

structure Sys where
  /-- `P2PBroker.waiting`. -/
  waiting : GoMap String Nat
  calls : List Call
deriving DecidableEq

def Sys.initial : Sys := ⟨∅, []⟩

/-- The slots of `RunExpose`: a pool below one is four. -/
def slots (pool : Int) : Nat := if pool < 1 then 4 else pool.toNat

/-- The slots that are taken. -/
def Sys.exposing (s : Sys) : Nat := s.calls.countP fun call => call.request.role = .expose ∧ call.held

inductive Event
  /-- A request comes to the handler. -/
  | connect (request : Request)
  /-- `Handle` up to its first unlock. -/
  | handle (index : Nat)
  | act (index : Nat) (action : Action)
  /-- The second critical section of a stream that stops waiting. -/
  | unlist (index : Nat)
  /-- `close(peer.done)`, and the bridging call returns. -/
  | close (index : Nat)
deriving DecidableEq, Repr

/-- The context of the peer is done. -/
def Sys.peerGone (s : Sys) (call : Call) : Bool :=
  (call.peer.bind fun peer => s.calls[peer]?).any Call.cancelled

/-- `Handle` up to its first unlock. -/
def Sys.handle (s : Sys) (index : Nat) (call : Call) : Sys :=
  if call.request.room = "" then
    { s with
      calls := s.calls.set index
        { call with phase := .refused 400 "X-P2P-Room header required" } }
  else
    match s.waiting.lookup call.key with
    | none =>
      { waiting := s.waiting.insert call.key index
        calls := s.calls.set index { call with phase := .waiting } }
    | some peer =>
      { waiting := s.waiting.erase call.key
        calls := s.calls.set index { call with phase := .bridging, peer := some peer } }

/-- A stream stops waiting: it is taken out of the room if it is still there. -/
def Sys.unlist (s : Sys) (index : Nat) (call : Call) : Sys where
  waiting :=
    if s.waiting.lookup call.key = some index then s.waiting.erase call.key else s.waiting
  calls := s.calls.set index { call with phase := .returned }

/-- `close(peer.done)`, and the bridging call returns. -/
def Sys.close (s : Sys) (index peer : Nat) (call : Call) : Sys :=
  { s with
    calls := (s.calls.set index { call with phase := .returned }).modify peer
      fun other => { other with closes := other.closes + 1 } }

def step (pool : Int) (s : Sys) : Event → Option Sys
  | .connect request =>
    if request.role = .expose → s.exposing < slots pool then
      some { s with calls := s.calls ++ [{ request }] }
    else none
  | .handle index => do
    let call ← s.calls[index]?
    if call.phase = .arrived then some (s.handle index call) else none
  | .act index action => do
    let call ← s.calls[index]?
    let next ← call.act (s.peerGone call) action
    return { s with calls := s.calls.set index next }
  | .unlist index => do
    let call ← s.calls[index]?
    if call.phase = .leaving then some (s.unlist index call) else none
  | .close index => do
    let call ← s.calls[index]?
    let peer ← call.peer
    if call.phase = .closing then some (s.close index peer call) else none

/-! ### Inversion -/

variable {pool : Int} {s next : Sys} {call call' : Call} {index : Nat} {request : Request}

/-- **One step**, inverted. -/
inductive Stepped (s : Sys) : Event → Sys → Prop
  | connect (request : Request) :
      Stepped s (.connect request) { s with calls := s.calls ++ [{ request }] }
  | handle (index : Nat) (call : Call) (found : s.calls[index]? = some call)
      (stood : call.phase = .arrived) : Stepped s (.handle index) (s.handle index call)
  | act (index : Nat) (action : Action) (call call' : Call) (found : s.calls[index]? = some call)
      (acted : call.act (s.peerGone call) action = some call') :
      Stepped s (.act index action) { s with calls := s.calls.set index call' }
  | unlist (index : Nat) (call : Call) (found : s.calls[index]? = some call)
      (stood : call.phase = .leaving) : Stepped s (.unlist index) (s.unlist index call)
  | close (index peer : Nat) (call : Call) (found : s.calls[index]? = some call)
      (bridged : call.peer = some peer) (stood : call.phase = .closing) :
      Stepped s (.close index) (s.close index peer call)

theorem stepped_of_step {event : Event} (taken : step pool s event = some next) :
    Stepped s event next := by
  cases event with
  | connect request =>
    obtain ⟨-, same⟩ := Option.ite_none_right_eq_some.mp taken
    cases same
    exact .connect request
  | handle index =>
    obtain ⟨call, found, rest⟩ := Option.bind_eq_some_iff.mp taken
    obtain ⟨stood, same⟩ := Option.ite_none_right_eq_some.mp rest
    cases same
    exact .handle index call found stood
  | act index action =>
    obtain ⟨call, found, rest⟩ := Option.bind_eq_some_iff.mp taken
    obtain ⟨call', acted, same⟩ := Option.bind_eq_some_iff.mp rest
    cases same
    exact .act index action call call' found acted
  | unlist index =>
    obtain ⟨call, found, rest⟩ := Option.bind_eq_some_iff.mp taken
    obtain ⟨stood, same⟩ := Option.ite_none_right_eq_some.mp rest
    cases same
    exact .unlist index call found stood
  | close index =>
    obtain ⟨call, found, rest⟩ := Option.bind_eq_some_iff.mp taken
    obtain ⟨peer, bridged, rest⟩ := Option.bind_eq_some_iff.mp rest
    obtain ⟨stood, same⟩ := Option.ite_none_right_eq_some.mp rest
    cases same
    exact .close index peer call found bridged stood

/-- What every step of a call leaves alone. -/
structure Call.Kept (call call' : Call) : Prop where
  request : call'.request = call.request
  peer : call'.peer = call.peer
  /-- Only the lock takes a call out of its first phase. -/
  arrived : call'.phase = .arrived ↔ call.phase = .arrived

theorem Call.kept_setCopy (call : Call) (loop : CopyLoop) (way : Way) :
    call.Kept (call.setCopy loop way) := by
  cases way <;> exact ⟨rfl, rfl, .rfl⟩

theorem Call.kept_act {peerGone : Bool} {action : Action}
    (acted : call.act peerGone action = some call') : call.Kept call' := by
  cases action with
  | hangUp =>
    obtain ⟨-, same⟩ := Option.ite_none_right_eq_some.mp acted
    cases same
    exact ⟨rfl, rfl, .rfl⟩
  | cancel =>
    cases acted
    exact ⟨rfl, rfl, .rfl⟩
  | released | leave timer | start | finish =>
    obtain ⟨stood, same⟩ := Option.ite_none_right_eq_some.mp acted
    cases same
    refine ⟨rfl, rfl, ?_⟩
    simp only [stood, reduceCtorEq]
  | read way bytes err =>
    obtain ⟨loop, -, rest⟩ := Option.bind_eq_some_iff.mp acted
    obtain ⟨moved, -, same⟩ := Option.bind_eq_some_iff.mp rest
    cases same
    exact call.kept_setCopy moved way
  | write way short =>
    obtain ⟨loop, -, rest⟩ := Option.bind_eq_some_iff.mp acted
    obtain ⟨moved, -, same⟩ := Option.bind_eq_some_iff.mp rest
    cases same
    exact call.kept_setCopy moved way

/-! ### Bridged streams -/

namespace Sys

def requests (s : Sys) : List Request := s.calls.map Call.request

/-- The broker has bridged the stream of `second` with the stream of `first`, which was waiting. -/
def Bridged (s : Sys) (first second : Request) : Prop :=
  ∃ (index peer : Nat) (call : Call), s.calls[index]? = some call ∧ call.peer = some peer ∧
    s.requests[peer]? = some first ∧ call.request = second

/-- A stream waits under its own key, and a bridge joins two streams of one key. -/
structure Sound (s : Sys) : Prop where
  waiting : ∀ key index, s.waiting.lookup key = some index →
    ∃ request, s.requests[index]? = some request ∧ request.key = key
  bridged : ∀ (index peer : Nat) (call : Call), s.calls[index]? = some call →
    call.peer = some peer → ∃ first, s.requests[peer]? = some first ∧ first.key = call.key
  fresh : ∀ (index : Nat) (call : Call), s.calls[index]? = some call → call.phase = .arrived →
    call.peer = none

theorem sound_initial : Sys.initial.Sound :=
  ⟨fun _ _ found => (by cases found), fun _ _ _ found => (by cases found),
    fun _ _ found => (by cases found)⟩

theorem requests_set (found : s.calls[index]? = some call) (waiting : GoMap String Nat)
    (same : call'.request = call.request) :
    Sys.requests ⟨waiting, s.calls.set index call'⟩ = s.requests :=
  map_set_same found same

theorem requests_modify (calls : List Call) (peer : Nat) :
    (calls.modify peer fun other => { other with closes := other.closes + 1 }).map Call.request =
      calls.map Call.request := by
  refine map_modify_same (fun call => ?_) calls peer
  rfl

theorem getElem?_modify_closes {calls : List Call} {peer place : Nat}
    (found : (calls.modify peer fun other => { other with closes := other.closes + 1 })[place]? =
      some call') : ∃ call closes, calls[place]? = some call ∧ call' = { call with closes } := by
  rw [List.getElem?_modify, Option.map_eq_map, Option.map_eq_some_iff] at found
  obtain ⟨call, there, rfl⟩ := found
  refine ⟨call, if peer = place then call.closes + 1 else call.closes, there, ?_⟩
  split <;> rfl

theorem Sound.set (sound : s.Sound) (found : s.calls[index]? = some call) (call' : Call)
    (request : call'.request = call.request) {waiting : GoMap String Nat}
    (listed : ∀ key place, waiting.lookup key = some place →
      s.waiting.lookup key = some place ∨ (key = call.key ∧ place = index))
    (bridged : ∀ peer, call'.peer = some peer →
      ∃ first, s.requests[peer]? = some first ∧ first.key = call.key)
    (fresh : call'.phase = .arrived → call'.peer = none) :
    Sys.Sound ⟨waiting, s.calls.set index call'⟩ := by
  have requests : Sys.requests ⟨waiting, s.calls.set index call'⟩ = s.requests :=
    requests_set found waiting request
  have key : call'.key = call.key := congrArg Request.key request
  refine ⟨fun name place lookup => ?_, fun place peer other there joined => ?_,
    fun place other there stood => ?_⟩
  · rw [requests]
    rcases listed name place lookup with old | ⟨rfl, rfl⟩
    · exact sound.waiting name place old
    · exact ⟨call.request, by rw [Sys.requests, List.getElem?_map, found]; rfl, rfl⟩
  · rw [requests]
    rcases pool_get_set found there with ⟨-, rfl⟩ | ⟨-, old⟩
    · rw [key]
      exact bridged peer joined
    · exact sound.bridged place peer other old joined
  · rcases pool_get_set found there with ⟨-, rfl⟩ | ⟨-, old⟩
    · exact fresh stood
    · exact sound.fresh place other old stood

theorem Sound.connect (sound : s.Sound) (request : Request) :
    Sys.Sound { s with calls := s.calls ++ [{ request }] } := by
  have kept : ∀ {place : Nat} {old : Request}, s.requests[place]? = some old →
      (s.requests ++ [request])[place]? = some old := fun found =>
    (List.getElem?_append_left (List.getElem?_eq_some_iff.mp found).1).trans found
  have requests : Sys.requests { s with calls := s.calls ++ [{ request }] } = s.requests ++ [request] :=
    List.map_append
  refine ⟨fun key place lookup => ?_, fun place peer other there joined => ?_,
    fun place other there stood => ?_⟩
  · obtain ⟨old, found, same⟩ := sound.waiting key place lookup
    exact ⟨old, requests ▸ kept found, same⟩
  · rcases pool_get_append there with old | ⟨-, rfl⟩
    · obtain ⟨first, found, same⟩ := sound.bridged place peer other old joined
      exact ⟨first, requests ▸ kept found, same⟩
    · cases joined
  · rcases pool_get_append there with old | ⟨-, rfl⟩
    · exact sound.fresh place other old stood
    · rfl

theorem Sound.handle (sound : s.Sound) (found : s.calls[index]? = some call)
    (stood : call.phase = .arrived) : (s.handle index call).Sound := by
  have unbridged : ∀ peer, call.peer = some peer →
      ∃ first, s.requests[peer]? = some first ∧ first.key = call.key := by
    rw [sound.fresh index call found stood]
    rintro peer ⟨⟩
  unfold Sys.handle
  split
  · exact sound.set found { call with phase := .refused _ _ } rfl (fun _ _ old => .inl old) unbridged
      (fun again => by cases again)
  · split
    · refine sound.set found { call with phase := .waiting } rfl (fun key place lookup => ?_) unbridged
        (fun again => by cases again)
      rw [GoMap.lookup_insert_ite] at lookup
      split at lookup
      · next same =>
        cases lookup
        exact .inr ⟨same, rfl⟩
      · exact .inl lookup
    · next peer waits =>
      refine sound.set found { call with phase := .bridging, peer := some peer } rfl
        (fun key place lookup => ?_) (fun other joined => ?_) (fun again => by cases again)
      · rw [GoMap.lookup_erase_ite] at lookup
        split at lookup
        · cases lookup
        · exact .inl lookup
      · cases joined
        exact sound.waiting call.key peer waits

theorem Sound.step {event : Event} (sound : s.Sound) (taken : step pool s event = some next) :
    next.Sound := by
  cases stepped_of_step taken with
  | connect request => exact sound.connect request
  | handle index call found stood => exact sound.handle found stood
  | act index action call call' found acted =>
    have kept := Call.kept_act acted
    refine sound.set found call' kept.request (fun _ _ old => .inl old) (fun peer joined => ?_) fun again => ?_
    · exact sound.bridged index peer call found (kept.peer ▸ joined)
    · rw [kept.peer]
      exact sound.fresh index call found (kept.arrived.mp again)
  | unlist index call found stood =>
    refine sound.set found { call with phase := .returned } rfl (fun key place lookup => ?_)
      (fun peer joined => sound.bridged index peer call found joined) (fun again => by cases again)
    split at lookup
    · rw [GoMap.lookup_erase_ite] at lookup
      split at lookup
      · cases lookup
      · exact .inl lookup
    · exact .inl lookup
  | close index peer call found bridged stood =>
    have returned : Sys.Sound ⟨s.waiting, s.calls.set index { call with phase := .returned }⟩ :=
      sound.set found { call with phase := .returned } rfl (fun _ _ old => .inl old)
        (fun peer joined => sound.bridged index peer call found joined) (fun again => by cases again)
    have requests : (s.close index peer call).requests = Sys.requests ⟨s.waiting,
        s.calls.set index { call with phase := .returned }⟩ := requests_modify _ _
    refine ⟨fun key place lookup => ?_, fun place other call' there joined => ?_,
      fun place call' there stood => ?_⟩
    · rw [requests]
      exact returned.waiting key place lookup
    · rw [requests]
      obtain ⟨before, closes, old, rfl⟩ := getElem?_modify_closes there
      exact returned.bridged place other before old joined
    · obtain ⟨before, closes, old, rfl⟩ := getElem?_modify_closes there
      exact returned.fresh place before old stood

theorem sound_run {events : List Event} (reached : run (step pool) .initial events = some s) :
    s.Sound :=
  run_invariant' (fun _ _ _ sound taken => Sound.step sound taken) sound_initial reached

/-! ### What a step bridges -/

def joined (s : Sys) : List (Request × Option Nat) :=
  s.calls.map fun call => (call.request, call.peer)

theorem requests_eq_joined (s : Sys) : s.requests = s.joined.map Prod.fst := by
  rw [requests, joined, List.map_map]
  rfl

theorem bridged_iff_joined {first second : Request} : s.Bridged first second ↔
    ∃ peer, (second, some peer) ∈ s.joined ∧ s.requests[peer]? = some first := by
  constructor
  · rintro ⟨index, peer, call, found, bridged, waited, rfl⟩
    refine ⟨peer, List.mem_map.mpr ⟨call, List.mem_of_getElem? found, ?_⟩, waited⟩
    rw [bridged]
  · rintro ⟨peer, member, waited⟩
    obtain ⟨call, inside, same⟩ := List.mem_map.mp member
    obtain ⟨index, found⟩ := List.mem_iff_getElem?.mp inside
    obtain ⟨rfl, bridged⟩ := Prod.mk.inj same
    exact ⟨index, peer, call, found, bridged, waited, rfl⟩

theorem joined_set (found : s.calls[index]? = some call) (waiting : GoMap String Nat) (call' : Call)
    (request : call'.request = call.request) (peer : call'.peer = call.peer) :
    Sys.joined ⟨waiting, s.calls.set index call'⟩ = s.joined :=
  map_set_same found (by rw [request, peer])

theorem bridged_congr {first second : Request} (same : next.joined = s.joined) :
    next.Bridged first second ↔ s.Bridged first second := by
  rw [bridged_iff_joined, bridged_iff_joined, requests_eq_joined, requests_eq_joined, same]

/-- The stream that waits under the key of the one that comes, and the one that comes. -/
def meets (s : Sys) : Event → Option (Request × Request)
  | .handle index => do
    let call ← s.calls[index]?
    if call.request.room = "" then none
    else
      let peer ← s.waiting.lookup call.key
      let first ← s.requests[peer]?
      return (first, call.request)
  | .connect _ | .act _ _ | .unlist _ | .close _ => none

theorem joined_modify (calls : List Call) (peer : Nat) :
    (calls.modify peer fun other => { other with closes := other.closes + 1 }).map
      (fun call => (call.request, call.peer)) = calls.map fun call => (call.request, call.peer) := by
  refine map_modify_same (fun call => ?_) calls peer
  rfl

theorem bridged_connect {first second : Request} (sound : s.Sound) (request : Request) :
    Sys.Bridged { s with calls := s.calls ++ [{ request }] } first second ↔
      s.Bridged first second := by
  constructor
  · rintro ⟨index, peer, call, found, bridged, waited, rfl⟩
    rcases pool_get_append found with old | ⟨-, rfl⟩
    · obtain ⟨first', there, -⟩ := sound.bridged index peer call old bridged
      have same : (s.requests ++ [request])[peer]? = some first' :=
        (List.getElem?_append_left (List.getElem?_eq_some_iff.mp there).1).trans there
      rw [show Sys.requests { s with calls := s.calls ++ [{ request }] } = s.requests ++ [request] from
        List.map_append, same] at waited
      cases waited
      exact ⟨index, peer, call, old, bridged, there, rfl⟩
    · cases bridged
  · rintro ⟨index, peer, call, found, bridged, waited, rfl⟩
    refine ⟨index, peer, call, ?_, bridged, ?_, rfl⟩
    · exact (List.getElem?_append_left (List.getElem?_eq_some_iff.mp found).1).trans found
    · rw [show Sys.requests { s with calls := s.calls ++ [{ request }] } = s.requests ++ [request] from
        List.map_append]
      exact (List.getElem?_append_left (List.getElem?_eq_some_iff.mp waited).1).trans waited

theorem bridged_handle {first second : Request} (sound : s.Sound)
    (found : s.calls[index]? = some call) (stood : call.phase = .arrived) :
    (s.handle index call).Bridged first second ↔
      s.Bridged first second ∨ s.meets (.handle index) = some (first, second) := by
  have unbridged := sound.fresh index call found stood
  unfold Sys.handle
  split
  · next noRoom =>
    rw [bridged_congr (joined_set found _ { call with phase := .refused _ _ } rfl rfl)]
    simp [meets, found, noRoom]
  next room =>
  split
  · next free =>
    rw [bridged_congr (joined_set found _ { call with phase := .waiting } rfl rfl)]
    simp [meets, found, free]
  · next peer waits =>
    obtain ⟨waiter, there, -⟩ := sound.waiting call.key peer waits
    have meeting : s.meets (.handle index) = some (waiter, call.request) := by
      simp [meets, found, room, waits, there]
    have requests : Sys.requests ⟨s.waiting.erase call.key,
        s.calls.set index { call with phase := .bridging, peer := some peer }⟩ = s.requests :=
      requests_set found _ rfl
    rw [meeting]
    constructor
    · rintro ⟨place, peer', call', found', bridged', waited, rfl⟩
      rw [requests] at waited
      rcases pool_get_set found found' with ⟨-, rfl⟩ | ⟨-, old⟩
      · cases bridged'
        rw [there] at waited
        cases waited
        exact .inr rfl
      · exact .inl ⟨place, peer', call', old, bridged', waited, rfl⟩
    · rintro (⟨place, peer', call', found', bridged', waited, rfl⟩ | same)
      · have other : place ≠ index := by
          rintro rfl
          rw [found] at found'
          cases found'
          rw [unbridged] at bridged'
          cases bridged'
        exact ⟨place, peer', call', (List.getElem?_set_ne (Ne.symm other)).trans found', bridged',
          by rwa [requests], rfl⟩
      · cases same
        exact ⟨index, peer, _, List.getElem?_set_self (List.getElem?_eq_some_iff.mp found).1, rfl,
          by rwa [requests], rfl⟩

theorem bridged_step {first second : Request} {event : Event} (sound : s.Sound)
    (taken : P2P.step pool s event = some next) :
    next.Bridged first second ↔
      s.Bridged first second ∨ s.meets event = some (first, second) := by
  cases stepped_of_step taken with
  | connect request => exact (bridged_connect sound request).trans (by simp [meets])
  | handle index call found stood => exact bridged_handle sound found stood
  | act index action call call' found acted =>
    have kept := Call.kept_act acted
    rw [bridged_congr (joined_set found _ call' kept.request kept.peer)]
    simp [meets]
  | unlist index call found stood =>
    have joined : (s.unlist index call).joined = s.joined :=
      joined_set found _ { call with phase := .returned } rfl rfl
    rw [bridged_congr joined]
    simp [meets]
  | close index peer call found bridged stood =>
    have joined : (s.close index peer call).joined = s.joined := (joined_modify _ _).trans
      (joined_set found s.waiting { call with phase := .returned } rfl rfl)
    rw [bridged_congr joined]
    simp [meets]

theorem bridged_iff_occurs {first second : Request} {events : List Event}
    (reached : run (P2P.step pool) .initial events = some s) :
    s.Bridged first second ↔ Occurs (P2P.step pool)
      (fun current event => current.meets event = some (first, second)) .initial events := by
  rw [recorded_iff_occurs (fun _ _ _ sound taken => Sound.step sound taken)
    (fun _ _ _ sound taken => bridged_step sound taken) sound_initial reached]
  refine or_iff_right ?_
  rintro ⟨index, peer, call, found, -⟩
  cases found

end Sys

/-! ### Sides -/

/-- The stream that comes was not opened by the same side as the one that waits under its key. -/
def Apart (s : Sys) (event : Event) : Prop :=
  ∀ pair ∈ s.meets event, pair.1.role ≠ pair.2.role

instance (s : Sys) (event : Event) : Decidable (Apart s event) :=
  inferInstanceAs (Decidable (∀ _ ∈ _, _))

/-- **An expose and a reach.** For every pool and every interleaving, each bridged pair is one stream
of either side exactly if no stream comes to the broker while one of its own side waits there. -/
theorem bridged_mixed_iff {pool : Int} {events : List Event} {s : Sys}
    (reached : run (step pool) .initial events = some s) :
    (∀ first second, s.Bridged first second → first.role ≠ second.role) ↔
      Along (step pool) Apart .initial events := by
  simp only [Sys.bridged_iff_occurs reached]
  rw [along_iff_not_occurs]
  constructor
  · rintro mixed ⟨before, event, after, middle, split, halfway, same⟩
    simp only [Apart, not_forall, not_not] at same
    obtain ⟨⟨first, second⟩, met, same⟩ := same
    exact mixed first second ⟨before, event, after, middle, split, halfway, met⟩ same
  · rintro apart first second ⟨before, event, after, middle, split, halfway, met⟩ same
    exact apart ⟨before, event, after, middle, split, halfway, fun each => each _ met same⟩

def exposed : Request := ⟨.expose, "alice", "ssh"⟩

def reaching : Request := ⟨.reach, "alice", "ssh"⟩

/-- An expose waits, and a reach comes. -/
theorem bridged_mixed_ssh :
    ∃ s, run (step 4) .initial [.connect exposed, .handle 0, .connect reaching, .handle 1] = some s ∧
      s.Bridged exposed reaching ∧ ∀ first second, s.Bridged first second → first.role ≠ second.role :=
  ⟨_, rfl, ⟨1, 0, _, rfl, rfl, rfl, rfl⟩, (bridged_mixed_iff
    (show run (step 4) .initial [.connect exposed, .handle 0, .connect reaching, .handle 1] = some _
      from rfl)).mpr (by decide)⟩

/-- With a pool of two, the second stream of `RunExpose` is bridged with the first. -/
theorem exposes_bridged :
    ∃ s, run (step 2) .initial [.connect exposed, .connect exposed, .handle 0, .handle 1] = some s ∧
      s.Bridged exposed exposed ∧
      ¬ ∀ first second, s.Bridged first second → first.role ≠ second.role :=
  ⟨_, rfl, ⟨1, 0, _, rfl, rfl, rfl, rfl⟩, fun mixed =>
    mixed exposed exposed ⟨1, 0, _, rfl, rfl, rfl, rfl⟩ rfl⟩

/-! ### Users and rooms -/

/-- A call of `CheckExt`, in any state of the cache, names the user and has nothing against it. -/
def Authenticated (username : String) : Prop :=
  ∃ (a : Authenticator) (header : String) (answers : String → Answers) (clock : Clock),
    (checkExt a header answers clock).1.username = username ∧ username ≠ "" ∧
      (checkExt a header answers clock).1.deny = .none

/-- A request comes to the broker with the username that `CheckExt` gave. -/
def Event.Authenticated : Event → Prop
  | .connect request => P2P.Authenticated request.username
  | .handle _ | .act _ _ | .unlist _ | .close _ => True

theorem Authenticated.no_colon {username : String} (authenticated : Authenticated username) :
    ':' ∉ username.toList := by
  obtain ⟨a, header, answers, clock, rfl, named, -⟩ := authenticated
  obtain ⟨password, parsed⟩ := checkExt_username named
  exact parseBasic_no_colon parsed

theorem Request.key_inj {first second : Request} (free : ':' ∉ first.username.toList)
    (free' : ':' ∉ second.username.toList) (same : first.key = second.key) :
    first.username = second.username ∧ first.room = second.room := by
  have texts : first.username.toList ++ ':' :: first.room.toList =
      second.username.toList ++ ':' :: second.room.toList := by
    simpa [Request.key] using congrArg String.toList same
  obtain ⟨username, room⟩ := parts_of_joined free free' texts
  exact ⟨String.toList_inj.mp username, String.toList_inj.mp room⟩

theorem no_colon_step {event : Event} (authenticated : event.Authenticated)
    (free : ∀ request ∈ s.requests, ':' ∉ request.username.toList)
    (taken : step pool s event = some next) :
    ∀ request ∈ next.requests, ':' ∉ request.username.toList := by
  cases stepped_of_step taken with
  | connect request =>
    intro other member
    rw [Sys.requests, List.map_append] at member
    rcases List.mem_append.mp member with old | new
    · exact free other old
    · rw [List.mem_singleton.mp new]
      exact authenticated.no_colon
  | handle index call found stood =>
    have requests : (s.handle index call).requests = s.requests := by
      unfold Sys.handle
      split
      · exact Sys.requests_set found _ rfl
      · split <;> exact Sys.requests_set found _ rfl
    rwa [requests]
  | act index action call call' found acted =>
    rwa [Sys.requests_set found _ (Call.kept_act acted).request]
  | unlist index call found stood =>
    rwa [show (s.unlist index call).requests = s.requests from Sys.requests_set found _ rfl]
  | close index peer call found bridged stood =>
    rwa [show (s.close index peer call).requests = s.requests from
      (Sys.requests_modify _ _).trans (Sys.requests_set found s.waiting rfl)]

/-- **One user, one room.** In every run whose usernames come from `CheckExt`, two streams that the
broker bridges are of the same user and in the same room. -/
theorem bridged_same {pool : Int} {events : List Event} {s : Sys}
    (reached : run (step pool) .initial events = some s)
    (authenticated : ∀ event ∈ events, event.Authenticated) (first second : Request)
    (bridged : s.Bridged first second) :
    first.username = second.username ∧ first.room = second.room := by
  have free : ∀ request ∈ s.requests, ':' ∉ request.username.toList := by
    refine run_invariant (fun _ _ _ authenticated free taken => no_colon_step authenticated free taken)
      (along_of_forall fun before event after middle split _ => ?_) (fun _ none => by cases none) reached
    exact authenticated event (split ▸ List.mem_append_right before List.mem_cons_self)
  obtain ⟨index, peer, call, found, joined, waited, rfl⟩ := bridged
  obtain ⟨first', there, sameKey⟩ := (Sys.sound_run reached).bridged index peer call found joined
  obtain rfl : first' = first := Option.some.inj (there.symm.trans waited)
  exact Request.key_inj (free first' (List.mem_of_getElem? waited))
    (free call.request (List.mem_map_of_mem (List.mem_of_getElem? found))) sameKey

theorem authenticated_alice : Authenticated "alice" :=
  ⟨new 0, "Basic YWxpY2U6cHc=", fun _ => ⟨some "pw", some 0, none⟩, ⟨0, 0, 0⟩, by decide, by decide,
    by decide⟩

/-- The two streams of `alice` meet in the room `ssh`. -/
theorem bridged_same_alice :
    ∃ s, run (step 4) .initial [.connect exposed, .handle 0, .connect reaching, .handle 1] = some s ∧
      s.Bridged exposed reaching ∧ exposed.username = reaching.username ∧
      exposed.room = reaching.room := by
  refine ⟨_, rfl, ⟨1, 0, _, rfl, rfl, rfl, rfl⟩, bridged_same
    (show run (step 4) .initial [.connect exposed, .handle 0, .connect reaching, .handle 1] = some _
      from rfl) (fun event member => ?_) exposed reaching ⟨1, 0, _, rfl, rfl, rfl, rfl⟩⟩
  simp only [List.mem_cons, List.not_mem_nil, or_false] at member
  rcases member with rfl | rfl | rfl | rfl
  · exact authenticated_alice
  · trivial
  · exact authenticated_alice
  · trivial

/-- The key alone does not tell users apart. -/
example : Request.key ⟨.expose, "alice", "ssh:1"⟩ = Request.key ⟨.reach, "alice:ssh", "1"⟩ := by decide

end Ttgo.Proxy.P2P

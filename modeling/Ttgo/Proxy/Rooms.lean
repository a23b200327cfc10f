/-
**The waiting room of the P2P broker.**

A stream leaves the room in one of three ways: its partner takes it out under the lock, its client goes, or its timer
fires. The last two look under the lock whether the entry is still their own, since the key may have been given to a
later stream meanwhile.

* `Sys.peerOf` — the stream that a call has taken out of the room.
* `Call.Acted` — what a step of one call changes.
* `Sys.Owned` — a stream in the room is the peer of no call, a peer has one bridge, and its `done` is closed with it.
* `WellFormed` — what the broker needs of a state; `wellFormed_run` — every run keeps it.
-/

import Ttgo.Proxy.P2P

namespace Ttgo.Proxy.P2P

open Ttgo.Lib

/-! ### What a step of one call changes -/

def Phase.waits : Phase → Bool
  | .waiting | .leaving => true
  | _ => false

/-- The phases of a stream that has taken another out of the room. -/
def Phase.bridges : Phase → Bool
  | .bridging | .copying | .closing | .returned => true
  | _ => false

theorem Phase.ne_of_waits {phase other : Phase} (waits : phase.waits = true) (moving : other.waits = false) :
    phase ≠ other := by
  rintro rfl
  exact Bool.false_ne_true (moving.symm.trans waits)

theorem Phase.bridges_of_waits {phase : Phase} (waits : phase.waits = true) : phase.bridges = false := by
  cases phase with
  | waiting | leaving => rfl
  | arrived | refused | bridging | copying | closing | returned => cases waits

variable {pool : Int} {s next : Sys} {call call' : Call} {index : Nat}

/-- A call moves on by itself. -/
structure Call.Acted (call call' : Call) : Prop where
  request : call'.request = call.request
  peer : call'.peer = call.peer
  closes : call'.closes = call.closes
  phase : call'.phase = call.phase ∨
    (call.phase = .waiting ∧ call'.phase = .returned ∧ 0 < call.closes) ∨
    (call.phase = .waiting ∧ call'.phase = .leaving) ∨
    (call.phase = .bridging ∧ call'.phase = .copying) ∨ (call.phase = .copying ∧ call'.phase = .closing)

theorem Call.acted_setCopy (call : Call) (loop : CopyLoop) (way : Way) : call.Acted (call.setCopy loop way) := by
  cases way with
  | forth | back => exact ⟨rfl, rfl, rfl, .inl rfl⟩

theorem Call.acted_act {peerGone : Bool} {action : Action} (acted : call.act peerGone action = some call') :
    call.Acted call' := by
  cases action with
  | hangUp =>
    obtain ⟨-, same⟩ := Option.ite_none_right_eq_some.mp acted
    cases same
    exact ⟨rfl, rfl, rfl, .inl rfl⟩
  | cancel =>
    cases acted
    exact ⟨rfl, rfl, rfl, .inl rfl⟩
  | released =>
    obtain ⟨stood, same⟩ := Option.ite_none_right_eq_some.mp acted
    cases same
    exact ⟨rfl, rfl, rfl, .inr (.inl ⟨stood.1, rfl, stood.2⟩)⟩
  | leave timer =>
    obtain ⟨stood, same⟩ := Option.ite_none_right_eq_some.mp acted
    cases same
    exact ⟨rfl, rfl, rfl, .inr (.inr (.inl ⟨stood.1, rfl⟩))⟩
  | start =>
    obtain ⟨stood, same⟩ := Option.ite_none_right_eq_some.mp acted
    cases same
    exact ⟨rfl, rfl, rfl, .inr (.inr (.inr (.inl ⟨stood, rfl⟩)))⟩
  | finish =>
    obtain ⟨stood, same⟩ := Option.ite_none_right_eq_some.mp acted
    cases same
    exact ⟨rfl, rfl, rfl, .inr (.inr (.inr (.inr ⟨stood.1, rfl⟩)))⟩
  | read way bytes err =>
    obtain ⟨loop, -, rest⟩ := Option.bind_eq_some_iff.mp acted
    obtain ⟨moved, -, same⟩ := Option.bind_eq_some_iff.mp rest
    cases same
    exact call.acted_setCopy moved way
  | write way short =>
    obtain ⟨loop, -, rest⟩ := Option.bind_eq_some_iff.mp acted
    obtain ⟨moved, -, same⟩ := Option.bind_eq_some_iff.mp rest
    cases same
    exact call.acted_setCopy moved way

/-! ### Ownership -/

namespace Sys

/-- The stream that the call has taken out of the room. -/
def peerOf (s : Sys) (index : Nat) : Option Nat := (s.calls[index]?).bind Call.peer

/-- **Who owns a stream**: the room, its own call, or the call that bridges it. -/
structure Owned (s : Sys) : Prop where
  bridges : ∀ (index : Nat) (call : Call), s.calls[index]? = some call → call.peer.isSome → call.phase.bridges = true
  listed : ∀ key index, s.waiting.lookup key = some index → ∃ call : Call, s.calls[index]? = some call ∧
    call.key = key ∧ call.phase.waits = true ∧ ∀ other, s.peerOf other ≠ some index
  joined : ∀ (index : Nat) (call : Call) (peer : Nat), s.calls[index]? = some call → call.peer = some peer →
    ∃ other : Call, s.calls[peer]? = some other ∧ other.peer = none ∧ other.phase ≠ .arrived ∧
      other.closes = if call.phase = .returned then 1 else 0
  unique : ∀ first second peer, s.peerOf first = some peer → s.peerOf second = some peer → first = second
  alone : ∀ (index : Nat) (call : Call), s.calls[index]? = some call → (∀ other, s.peerOf other ≠ some index) →
    call.closes = 0

theorem owned_initial : Sys.initial.Owned :=
  ⟨fun _ _ found => (by cases found), fun _ _ found => (by cases found), fun _ _ _ found => (by cases found),
    fun _ _ _ found => (by cases found), fun _ _ found => (by cases found)⟩

theorem peerOf_eq (found : s.calls[index]? = some call) : s.peerOf index = call.peer := by
  rw [peerOf, found]
  rfl

theorem peerOf_set (found : s.calls[index]? = some call) (same : call'.peer = call.peer)
    (waiting : GoMap String Nat) (place : Nat) :
    peerOf ⟨waiting, s.calls.set index call'⟩ place = s.peerOf place := by
  unfold peerOf
  by_cases stands : place = index
  · subst stands
    obtain ⟨inside, -⟩ := List.getElem?_eq_some_iff.mp found
    rw [List.getElem?_set_self inside, found]
    exact same
  · rw [List.getElem?_set_ne (Ne.symm stands)]

theorem Owned.not_peer (owned : s.Owned) (found : s.calls[index]? = some call) (stood : call.phase = .arrived)
    (other : Nat) : s.peerOf other ≠ some index := by
  intro joined
  obtain ⟨bridging, there, peer⟩ := Option.bind_eq_some_iff.mp joined
  obtain ⟨same, held, -, past, -⟩ := owned.joined other bridging index there peer
  cases found.symm.trans held
  exact past stood

theorem Owned.of_listed (owned : s.Owned) (found : s.calls[index]? = some call) {key : String}
    (listed : s.waiting.lookup key = some index) :
    call.key = key ∧ call.phase.waits = true ∧ ∀ other, s.peerOf other ≠ some index := by
  obtain ⟨_, there, rest⟩ := owned.listed key index listed
  cases found.symm.trans there
  exact rest

theorem Owned.set (owned : s.Owned) (found : s.calls[index]? = some call) (call' : Call)
    (request : call'.request = call.request) (peer : call'.peer = call.peer) (closes : call'.closes = call.closes)
    {waiting : GoMap String Nat}
    (listed : ∀ key place, waiting.lookup key = some place →
      s.waiting.lookup key = some place ∨ (key = call.key ∧ place = index ∧ call.phase = .arrived))
    (waits : ∀ key, waiting.lookup key = some index → call'.phase.waits = true)
    (bridges : call.peer.isSome → call'.phase.bridges = true ∧ (call'.phase = .returned ↔ call.phase = .returned))
    (arrived : call'.phase = .arrived → call.phase = .arrived) :
    Owned ⟨waiting, s.calls.set index call'⟩ := by
  obtain ⟨inside, -⟩ := List.getElem?_eq_some_iff.mp found
  have self : (s.calls.set index call')[index]? = some call' := List.getElem?_set_self inside
  have peers := peerOf_set found peer waiting
  refine ⟨fun place other there joins => ?_, fun key place lookup => ?_, fun place other taken there joins => ?_,
    fun first second taken one two => ?_, fun place other there nobody => ?_⟩
  · rcases pool_get_set found there with ⟨-, rfl⟩ | ⟨-, old⟩
    · exact (bridges (peer ▸ joins)).1
    · exact owned.bridges place other old joins
  · simp only [peers]
    have free : (∃ old, s.calls[place]? = some old ∧ old.key = key ∧ (place ≠ index → old.phase.waits = true)) ∧
        ∀ other, s.peerOf other ≠ some place := by
      rcases listed key place lookup with before | ⟨rfl, rfl, stood⟩
      · obtain ⟨old, held, named, waiting, free⟩ := owned.listed key place before
        exact ⟨⟨old, held, named, fun _ => waiting⟩, free⟩
      · exact ⟨⟨call, found, rfl, fun other => absurd rfl other⟩, owned.not_peer found stood⟩
    obtain ⟨⟨old, held, named, still⟩, free⟩ := free
    by_cases same : place = index
    · subst same
      cases found.symm.trans held
      exact ⟨call', self, (congrArg Request.key request).trans named, waits key lookup, free⟩
    · exact ⟨old, (List.getElem?_set_ne (Ne.symm same)).trans held, named, still same, free⟩
  · -- the call that bridges and the one that is bridged may either be the one that moves
    have before : ∃ old, s.calls[place]? = some old ∧ old.peer = some taken ∧
        (other.phase = .returned ↔ old.phase = .returned) := by
      rcases pool_get_set found there with ⟨rfl, rfl⟩ | ⟨-, old⟩
      · have joined : call.peer = some taken := peer ▸ joins
        exact ⟨call, found, joined, (bridges (by rw [joined]; rfl)).2⟩
      · exact ⟨other, old, joins, .rfl⟩
    obtain ⟨old, held, joined, phase⟩ := before
    obtain ⟨target, at', unbridged, past, count⟩ := owned.joined place old taken held joined
    have count : target.closes = if other.phase = .returned then 1 else 0 := by
      rw [count]
      simp only [phase]
    by_cases same : taken = index
    · subst same
      cases found.symm.trans at'
      exact ⟨call', self, peer.trans unbridged, mt arrived past, closes.trans count⟩
    · exact ⟨target, (List.getElem?_set_ne (Ne.symm same)).trans at', unbridged, past, count⟩
  · rw [peers] at one two
    exact owned.unique first second taken one two
  · simp only [peers] at nobody
    rcases pool_get_set found there with ⟨rfl, rfl⟩ | ⟨-, old⟩
    · exact closes.trans (owned.alone place call found nobody)
    · exact owned.alone place other old nobody

theorem Owned.connect (owned : s.Owned) (request : Request) :
    Owned { s with calls := s.calls ++ [{ request }] } := by
  have kept {place : Nat} {old : Call} (found : s.calls[place]? = some old) :
      (s.calls ++ [({ request } : Call)])[place]? = some old :=
    (List.getElem?_append_left (List.getElem?_eq_some_iff.mp found).1).trans found
  have peers (place : Nat) : peerOf { s with calls := s.calls ++ [{ request }] } place = s.peerOf place := by
    unfold peerOf
    rw [List.getElem?_append]
    split
    · rfl
    · next outside =>
      rw [List.getElem?_eq_none (Nat.le_of_not_lt outside)]
      cases place - s.calls.length with
      | zero | succ => rfl
  refine ⟨fun place other there joins => ?_, fun key place lookup => ?_, fun place other taken there joins => ?_,
    fun first second taken one two => ?_, fun place other there nobody => ?_⟩
  · rcases pool_get_append there with old | ⟨-, rfl⟩
    · exact owned.bridges place other old joins
    · cases joins
  · obtain ⟨old, held, named, waits, free⟩ := owned.listed key place lookup
    exact ⟨old, kept held, named, waits, fun other => peers other ▸ free other⟩
  · rcases pool_get_append there with old | ⟨-, rfl⟩
    · obtain ⟨target, held, rest⟩ := owned.joined place other taken old joins
      exact ⟨target, kept held, rest⟩
    · cases joins
  · rw [peers] at one two
    exact owned.unique first second taken one two
  · simp only [peers] at nobody
    rcases pool_get_append there with old | ⟨-, rfl⟩
    · exact owned.alone place other old nobody
    · rfl

theorem Owned.peer_of_waits (owned : s.Owned) (found : s.calls[index]? = some call)
    (idle : call.phase.bridges = false) : call.peer = none := by
  by_contra some
  have bridges := owned.bridges index call found (Option.isSome_iff_ne_none.mpr some)
  rw [idle] at bridges
  exact Bool.false_ne_true bridges

theorem peerOf_bridge (found : s.calls[index]? = some call) (waiting : GoMap String Nat) (peer place : Nat) :
    peerOf ⟨waiting, s.calls.set index { call with phase := .bridging, peer := some peer }⟩ place =
      if place = index then some peer else s.peerOf place := by
  unfold peerOf
  split
  · next same =>
    subst same
    rw [List.getElem?_set_self (List.getElem?_eq_some_iff.mp found).1]
    rfl
  · next differs => rw [List.getElem?_set_ne (Ne.symm differs)]

theorem Owned.bridge (owned : s.Owned) (found : s.calls[index]? = some call) (stood : call.phase = .arrived)
    {peer : Nat} (waits : s.waiting.lookup call.key = some peer) :
    Owned ⟨s.waiting.erase call.key, s.calls.set index { call with phase := .bridging, peer := some peer }⟩ := by
  obtain ⟨target, held, named, waiting, free⟩ := owned.listed call.key peer waits
  have unbridged : call.peer = none := owned.peer_of_waits found (by rw [stood]; rfl)
  have apart {place : Nat} {other : Call} (there : s.calls[place]? = some other) (past : other.phase ≠ .arrived) :
      place ≠ index := by
    rintro rfl
    cases found.symm.trans there
    exact past stood
  have moved {place : Nat} (differs : place ≠ index) :
      (s.calls.set index { call with phase := .bridging, peer := some peer })[place]? = s.calls[place]? :=
    List.getElem?_set_ne (Ne.symm differs)
  have peers := peerOf_bridge found (s.waiting.erase call.key) peer
  have past : target.phase ≠ .arrived := Phase.ne_of_waits waiting rfl
  refine ⟨fun place other there joins => ?_, fun key place lookup => ?_, fun place other taken there joins => ?_,
    fun first second taken one two => ?_, fun place other there nobody => ?_⟩
  · rcases pool_get_set found there with ⟨-, rfl⟩ | ⟨-, old⟩
    · rfl
    · exact owned.bridges place other old joins
  · rw [GoMap.lookup_erase_ite] at lookup
    split at lookup
    · cases lookup
    next differs =>
    obtain ⟨other, there, named', waits', free'⟩ := owned.listed key place lookup
    have standing : other.phase ≠ .arrived := Phase.ne_of_waits waits' rfl
    refine ⟨other, (moved (apart there standing)).trans there, named', waits', fun bridging => ?_⟩
    rw [peers]
    split
    · rintro ⟨⟩
      cases there.symm.trans held
      exact differs (named'.symm.trans named)
    · exact free' bridging
  · rcases pool_get_set found there with ⟨-, rfl⟩ | ⟨-, old⟩
    · cases joins
      exact ⟨target, (moved (apart held past)).trans held,
        owned.peer_of_waits held (Phase.bridges_of_waits waiting), past, owned.alone peer target held free⟩
    · obtain ⟨last, there', unbridged', past', count⟩ := owned.joined place other taken old joins
      exact ⟨last, (moved (apart there' past')).trans there', unbridged', past', count⟩
  · rw [peers] at one two
    split at one <;> split at two
    · next same same' => exact same.trans same'.symm
    · cases one
      exact absurd two (free second)
    · cases two
      exact absurd one (free first)
    · exact owned.unique first second taken one two
  · have nobody' (other : Nat) : s.peerOf other ≠ some place := by
      have now := nobody other
      rw [peers] at now
      split at now
      · next same =>
        rw [same, peerOf_eq found, unbridged]
        exact (Option.some_ne_none place).symm
      · exact now
    rcases pool_get_set found there with ⟨rfl, rfl⟩ | ⟨-, old⟩
    · exact owned.alone place call found nobody'
    · exact owned.alone place other old nobody'

theorem Owned.handle (owned : s.Owned) (found : s.calls[index]? = some call) (stood : call.phase = .arrived) :
    (s.handle index call).Owned := by
  have unbridged : call.peer = none := owned.peer_of_waits found (by rw [stood]; rfl)
  have unlisted (key : String) : s.waiting.lookup key ≠ some index := by
    intro listed
    obtain ⟨-, waits, -⟩ := owned.of_listed found listed
    exact Phase.ne_of_waits waits rfl stood
  have idle {goal : Prop} (joined : call.peer.isSome) : goal := by
    rw [unbridged] at joined
    cases joined
  unfold Sys.handle
  split
  · exact owned.set found { call with phase := .refused _ _ } rfl rfl rfl (fun _ _ old => .inl old)
      (fun key listed => absurd listed (unlisted key)) idle (fun again => by cases again)
  · split
    · refine owned.set found { call with phase := .waiting } rfl rfl rfl (fun key place lookup => ?_)
        (fun _ _ => rfl) idle (fun again => by cases again)
      rw [GoMap.lookup_insert_ite] at lookup
      split at lookup
      · next same =>
        cases lookup
        exact .inr ⟨same, rfl, stood⟩
      · exact .inl lookup
    · next peer waits => exact owned.bridge found stood waits

theorem getElem?_close (found : s.calls[index]? = some call) (peer place : Nat) :
    (s.close index peer call).calls[place]? = (s.calls[place]?).map fun other =>
      { other with
        phase := if place = index then .returned else other.phase
        closes := if place = peer then other.closes + 1 else other.closes } := by
  have returned : (s.calls.set index { call with phase := .returned })[place]? = (s.calls[place]?).map fun other =>
      { other with phase := if place = index then .returned else other.phase } := by
    by_cases same : place = index
    · subst same
      obtain ⟨inside, -⟩ := List.getElem?_eq_some_iff.mp found
      rw [List.getElem?_set_self inside, found, Option.map_some, if_pos rfl]
    · simp only [List.getElem?_set_ne (Ne.symm same), if_neg same]
      exact Option.map_id'.symm
  unfold Sys.close
  rw [List.getElem?_modify, returned, Option.map_eq_map, Option.map_map]
  congr 1
  funext other
  dsimp only [Function.comp_apply]
  split
  · next same => rw [if_pos same.symm]
  · next differs => rw [if_neg (Ne.symm differs)]

theorem peerOf_close (found : s.calls[index]? = some call) (peer place : Nat) :
    (s.close index peer call).peerOf place = s.peerOf place := by
  unfold peerOf
  rw [getElem?_close found]
  cases s.calls[place]? with
  | none | some => rfl

theorem Owned.joined_close (owned : s.Owned) (found : s.calls[index]? = some call) (stood : call.phase = .closing)
    {peer place taken : Nat} (bridged : call.peer = some peer) {old : Call} (there : s.calls[place]? = some old)
    (joins : old.peer = some taken) :
    ∃ other : Call, (s.close index peer call).calls[taken]? = some other ∧ other.peer = none ∧
      other.phase ≠ .arrived ∧
      other.closes = if (if place = index then .returned else old.phase) = .returned then 1 else 0 := by
  obtain ⟨last, there', unbridged, past, count⟩ := owned.joined place old taken there joins
  have differs : taken ≠ index := by
    rintro rfl
    cases found.symm.trans there'
    rw [bridged] at unbridged
    cases unbridged
  have now := getElem?_close found peer taken
  rw [there', Option.map_some, if_neg differs] at now
  refine ⟨_, now, unbridged, past, ?_⟩
  by_cases same : place = index
  · subst same
    cases found.symm.trans there
    cases bridged.symm.trans joins
    rw [stood, if_neg Phase.noConfusion] at count
    rw [if_pos rfl, if_pos rfl, if_pos rfl, count]
  · -- Only one call bridges a peer.
    have other : taken ≠ peer := by
      rintro rfl
      exact same (owned.unique place index taken ((peerOf_eq there).trans joins) ((peerOf_eq found).trans bridged))
    simp only [if_neg same, if_neg other]
    exact count

theorem Owned.close (owned : s.Owned) (found : s.calls[index]? = some call) (stood : call.phase = .closing)
    {peer : Nat} (bridged : call.peer = some peer) : (s.close index peer call).Owned := by
  have closed := getElem?_close found peer
  have peers := peerOf_close found peer
  refine ⟨fun place other there joins => ?_, fun key place lookup => ?_, fun place other taken there joins => ?_,
    fun first second taken one two => ?_, fun place other there nobody => ?_⟩
  · rw [closed, Option.map_eq_some_iff] at there
    obtain ⟨old, there, rfl⟩ := there
    dsimp only
    split
    · rfl
    · exact owned.bridges place old there joins
  · obtain ⟨old, there, named, waits, free⟩ := owned.listed key place lookup
    have differs : place ≠ index := by
      rintro rfl
      cases found.symm.trans there
      exact Phase.ne_of_waits waits rfl stood
    have now := closed place
    rw [there, Option.map_some] at now
    refine ⟨_, now, named, ?_, fun other => peers other ▸ free other⟩
    dsimp only
    rw [if_neg differs]
    exact waits
  · rw [closed, Option.map_eq_some_iff] at there
    obtain ⟨old, there, rfl⟩ := there
    exact owned.joined_close found stood bridged there joins
  · rw [peers] at one two
    exact owned.unique first second taken one two
  · simp only [peers] at nobody
    rw [closed, Option.map_eq_some_iff] at there
    obtain ⟨old, there, rfl⟩ := there
    have other : place ≠ peer := by
      rintro rfl
      exact nobody index ((peerOf_eq found).trans bridged)
    exact (if_neg other).trans (owned.alone place old there nobody)

theorem Owned.act (owned : s.Owned) (found : s.calls[index]? = some call) (acted : call.Acted call') :
    Owned { s with calls := s.calls.set index call' } := by
  refine owned.set found call' acted.request acted.peer acted.closes (fun _ _ old => .inl old) (fun key listed => ?_)
    (fun joined => ?_) (fun arrived => ?_)
  · obtain ⟨-, waits, free⟩ := owned.of_listed found listed
    rcases acted.phase with same | ⟨-, -, released⟩ | ⟨-, now⟩ | ⟨stood, -⟩ | ⟨stood, -⟩
    · exact same ▸ waits
    · rw [owned.alone index call found free] at released
      exact absurd released (Nat.lt_irrefl 0)
    · rw [now]
      rfl
    · exact absurd stood (Phase.ne_of_waits waits rfl)
    · exact absurd stood (Phase.ne_of_waits waits rfl)
  · have bridges := owned.bridges index call found joined
    rcases acted.phase with same | ⟨stood, -⟩ | ⟨stood, -⟩ | ⟨stood, now⟩ | ⟨stood, now⟩
    · rw [same]
      exact ⟨bridges, .rfl⟩
    · rw [stood] at bridges
      cases bridges
    · rw [stood] at bridges
      cases bridges
    · rw [stood, now]
      exact ⟨rfl, by decide⟩
    · rw [stood, now]
      exact ⟨rfl, by decide⟩
  · rcases acted.phase with same | ⟨-, now, -⟩ | ⟨-, now⟩ | ⟨-, now⟩ | ⟨-, now⟩
    · exact same ▸ arrived
    all_goals
      rw [now] at arrived
      cases arrived

theorem Owned.step {event : Event} (owned : s.Owned) (taken : step pool s event = some next) : next.Owned := by
  cases stepped_of_step taken with
  | connect request => exact owned.connect request
  | handle index call found stood => exact owned.handle found stood
  | act index action call call' found acted =>
    exact owned.act found (Call.acted_act acted)
  | unlist index call found stood =>
    have unbridged : call.peer = none := owned.peer_of_waits found (by rw [stood]; rfl)
    refine owned.set found { call with phase := .returned } rfl rfl rfl (fun key place lookup => ?_)
      (fun key lookup => ?_) (fun joined => by rw [unbridged] at joined; cases joined) (fun again => by cases again)
    · split at lookup
      · rw [GoMap.lookup_erase_ite] at lookup
        split at lookup
        · cases lookup
        · exact .inl lookup
      · exact .inl lookup
    · -- the entry of the stream itself is the only one that could still be there
      have own {key : String} (before : s.waiting.lookup key = some index) : call.key = key :=
        (owned.of_listed found before).1
      split at lookup
      · rw [GoMap.lookup_erase_ite] at lookup
        split at lookup
        · cases lookup
        · next differs => exact absurd (own lookup).symm differs
      · next absent => exact absurd (own lookup ▸ lookup) absent
  | close index peer call found bridged stood => exact owned.close found stood bridged

theorem owned_run {events : List Event} (reached : run (P2P.step pool) .initial events = some s) : s.Owned :=
  run_invariant' (fun _ _ _ owned taken => Owned.step owned taken) owned_initial reached

/-! ### The room -/

def Joined (s : Sys) (first second : Nat) : Prop := s.peerOf first = some second ∨ s.peerOf second = some first

end Sys

/-- The room holds only streams whose calls have not returned, a stream is bridged with at most one other, and no
`done` is closed twice. -/
structure WellFormed (s : Sys) : Prop where
  waiting : ∀ key index, s.waiting.lookup key = some index →
    ∃ call : Call, s.calls[index]? = some call ∧ call.phase.hasReturned = false
  bridged : ∀ index first second, s.Joined index first → s.Joined index second → first = second
  other : ∀ index, ¬ s.Joined index index
  closes : ∀ (index : Nat) (call : Call), s.calls[index]? = some call → call.closes ≤ 1

theorem Sys.Owned.wellFormed (owned : s.Owned) : WellFormed s := by
  -- a stream that was taken out of the room has itself taken none
  have either {bridge peer last : Nat} (one : s.peerOf bridge = some peer) : s.peerOf peer ≠ some last := by
    obtain ⟨call, found, joins⟩ := Option.bind_eq_some_iff.mp one
    obtain ⟨target, held, unbridged, -⟩ := owned.joined bridge call peer found joins
    rw [Sys.peerOf_eq held, unbridged]
    exact (Option.some_ne_none last).symm
  refine ⟨fun key index listed => ?_, fun index first second one two => ?_, fun index joined => ?_,
    fun index call found => ?_⟩
  · obtain ⟨call, found, -, waits, -⟩ := owned.listed key index listed
    refine ⟨call, found, ?_⟩
    cases phase : call.phase <;> rw [phase] at waits <;> first | rfl | cases waits
  · rcases one with one | one <;> rcases two with two | two
    · exact Option.some.inj (one.symm.trans two)
    · exact absurd one (either two)
    · exact absurd two (either one)
    · exact owned.unique first second index one two
  · exact either (joined.elim id id) (joined.elim id id)
  · by_cases nobody : ∀ other, s.peerOf other ≠ some index
    · rw [owned.alone index call found nobody]
      exact Nat.zero_le 1
    · obtain ⟨bridge, joined⟩ := not_forall.mp nobody
      obtain ⟨bridging, there, joins⟩ := Option.bind_eq_some_iff.mp (not_not.mp joined)
      obtain ⟨target, held, -, -, count⟩ := owned.joined bridge bridging index there joins
      cases found.symm.trans held
      rw [count]
      split
      · exact le_rfl
      · exact Nat.zero_le 1

/-- **The room is well formed in every state that is reached.** -/
theorem wellFormed_run {events : List Event} (reached : run (step pool) .initial events = some s) : WellFormed s :=
  (Sys.owned_run reached).wellFormed

/-- The timer of a stream fires as its partner takes it, and a third stream waits under the key before the first one
looks for its entry. -/
def lateTimer : List Event :=
  [.connect ⟨.expose, "alice", "lab"⟩, .connect ⟨.reach, "alice", "lab"⟩, .connect ⟨.expose, "alice", "lab"⟩,
    .handle 0, .act 0 (.leave true), .handle 1, .handle 2, .unlist 0,
    .act 1 .start, .act 1 .cancel, .act 1 .finish, .close 1]

theorem wellFormed_lateTimer :
    ∃ s, run (step 4) .initial lateTimer = some s ∧ s.waiting.lookup "alice:lab" = some 2 ∧ s.Joined 1 0 ∧
      WellFormed s := by
  have reached : ∃ s, run (step 4) .initial lateTimer = some s ∧ s.waiting.lookup "alice:lab" = some 2 ∧
      s.Joined 1 0 := ⟨_, rfl, by decide, .inl rfl⟩
  obtain ⟨s, reached, waits, joined⟩ := reached
  exact ⟨s, reached, waits, joined, wellFormed_run reached⟩

end Ttgo.Proxy.P2P

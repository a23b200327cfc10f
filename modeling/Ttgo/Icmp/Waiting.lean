/-
**Requests that wait are registered.**

A request registers its channel under the session and the identifier, so two requests with one identifier
have one place in the table: the later one overwrites the earlier one, and whichever ends first deletes
the entry.

* `Sys.Newest` — the most recent request under a key that is still waiting.
* `Sys.Served` — its channel is in the table, so a reply that comes in is delivered to it.
* `Undisturbed` — no older request is left waiting by one that stops, and none is waiting when an entry
  is deleted.
* `served_iff_undisturbed` — a run keeps the newest requests served exactly if its steps are undisturbed.
-/

import Ttgo.Icmp.Mux
import Mathlib.Order.Nat

namespace Ttgo.Icmp

open Ttgo.Lib

namespace Sys

/-- The request at this place has the key and is waiting. -/
def waits (s : Sys) (key : PendingKey) (index : Nat) : Bool :=
  (s.requests[index]?).any fun request => request.key = key ∧ request.isWaiting

/-- The most recent request with the key that is still waiting. -/
def Newest (s : Sys) (key : PendingKey) (index : Nat) : Prop :=
  s.waits key index = true ∧ ∀ later, index < later → s.waits key later = false

/-- The newest waiting request of every key has its channel in the table, and a message with its
identifier is delivered to it. -/
structure Served (s : Sys) : Prop where
  registered : ∀ key index, s.Newest key index → s.pending.lookup key = some index
  delivered : ∀ key index request, s.Newest key index → s.requests[index]? = some request →
    request.channel = none → ∀ reply, (s.broadcast key.id reply).requests[index]? =
      some { request with channel := some reply }

variable {s next : Sys} {key : PendingKey} {index : Nat} {request moved : Request}

theorem waits_iff : s.waits key index = true ↔
    ∃ request, s.requests[index]? = some request ∧ request.key = key ∧ request.isWaiting = true := by
  simp only [waits, Option.any_eq_true, Bool.decide_and, Bool.decide_eq_true, Bool.and_eq_true,
    decide_eq_true_eq]

theorem waits_beyond (beyond : s.requests.length ≤ index) : s.waits key index = false := by
  rw [waits, List.getElem?_eq_none beyond, Option.any_none]

theorem lt_of_waits (waiting : s.waits key index = true) : index < s.requests.length := by
  by_contra outside
  rw [waits_beyond (Nat.le_of_not_lt outside)] at waiting
  cases waiting

theorem newest_of_not_exists (waiting : s.waits key index = true)
    (none : ¬ ∃ newer < s.requests.length, index < newer ∧ s.waits key newer = true) : s.Newest key index := by
  refine ⟨waiting, fun later beyond => ?_⟩
  rw [Bool.eq_false_iff]
  exact fun waits => none ⟨later, lt_of_waits waits, beyond, waits⟩

theorem exists_newest (waiting : s.waits key index = true) : ∃ newest, s.Newest key newest := by
  have inside {place : Nat} (waiting : s.waits key place = true) : place ≤ s.requests.length :=
    (lt_of_waits waiting).le
  refine ⟨Nat.findGreatest (fun place => s.waits key place = true) s.requests.length,
    Nat.findGreatest_spec (P := fun place => s.waits key place = true) (inside waiting) waiting,
    fun later beyond => ?_⟩
  rw [Bool.eq_false_iff]
  exact fun waiting => Nat.findGreatest_is_greatest beyond (inside waiting) waiting

theorem newest_unique {other : Nat} (newest : s.Newest key index) (newest' : s.Newest key other) :
    index = other := by
  rcases Nat.lt_trichotomy index other with before | same | after
  · exact absurd newest'.1 (by rw [newest.2 other before]; exact Bool.false_ne_true)
  · exact same
  · exact absurd newest.1 (by rw [newest'.2 index after]; exact Bool.false_ne_true)

theorem delivered_of_registered (registered : s.pending.lookup key = some index)
    (found : s.requests[index]? = some request) (empty : request.channel = none) (reply : ReplyMsg) :
    (s.broadcast key.id reply).requests[index]? = some { request with channel := some reply } := by
  have listed : s.listed key.id index = true := by
    refine List.any_eq_true.mpr ⟨⟨key, index⟩, ?_, by simp⟩
    exact AList.mem_lookup_iff.mp registered
  simp only [broadcast, List.getElem?_mapIdx, found, Option.map_some, listed, empty,
    Option.isNone_none, Bool.and_self, if_true]

theorem served_iff_registered :
    s.Served ↔ ∀ key index, s.Newest key index → s.pending.lookup key = some index :=
  ⟨Served.registered, fun registered => ⟨registered, fun key index _ newest found empty reply =>
    delivered_of_registered (registered key index newest) found empty reply⟩⟩

/-! ### What a step does to the requests that wait -/

theorem newest_congr (same : ∀ key index, next.waits key index = s.waits key index) :
    next.Newest key index ↔ s.Newest key index := by
  simp only [Newest, same]

theorem Served.congr (served : s.Served) (pending : next.pending = s.pending)
    (same : ∀ key index, next.waits key index = s.waits key index) : next.Served := by
  rw [served_iff_registered] at served ⊢
  intro key index newest
  rw [pending]
  exact served key index ((newest_congr same).mp newest)

theorem waits_set (found : s.requests[index]? = some request) (sessions : Nat) (listening : Bool)
    (pending : GoMap PendingKey Nat) (streams : List Stream) (key : PendingKey) (place : Nat) :
    Sys.waits ⟨sessions, listening, pending, streams, s.requests.set index moved⟩ key place =
      if place = index then decide (moved.key = key ∧ moved.isWaiting) else s.waits key place := by
  obtain ⟨inside, -⟩ := List.getElem?_eq_some_iff.mp found
  unfold waits
  by_cases same : place = index
  · subst same
    rw [if_pos rfl, List.getElem?_set_self inside, Option.any_some]
  · rw [if_neg same, List.getElem?_set_ne (Ne.symm same)]

theorem waits_broadcast (id : UInt16) (reply : ReplyMsg) (key : PendingKey) (index : Nat) :
    (s.broadcast id reply).waits key index = s.waits key index := by
  simp only [waits, broadcast, List.getElem?_mapIdx]
  cases s.requests[index]? with
  | none => rfl
  | some request =>
    simp only [Option.map_some, Option.any_some]
    split <;> rfl

theorem waits_incoming (peer : IP) (message : Option Message) (key : PendingKey) (index : Nat) :
    (s.incoming peer message).waits key index = s.waits key index := by
  unfold incoming
  split
  · rfl
  · split
    · rfl
    · exact waits_broadcast _ _ _ _

theorem pending_incoming (peer : IP) (message : Option Message) :
    (s.incoming peer message).pending = s.pending := by
  unfold incoming
  split
  · rfl
  · split <;> rfl

theorem Served.register {stream : Stream} {echo : Echo} (served : s.Served) :
    (s.register index stream echo).Served := by
  rw [served_iff_registered] at served ⊢
  have waits_old : ∀ key place, place ≠ s.requests.length →
      (s.register index stream echo).waits key place = s.waits key place := by
    intro key place other
    unfold waits Sys.register
    by_cases inside : place < s.requests.length
    · rw [List.getElem?_append_left inside]
    · rw [List.getElem?_eq_none (by simp; omega), List.getElem?_eq_none (by omega)]
  intro key place newest
  by_cases own : key = ⟨stream.sessionID, echo.id⟩
  · subst own
    have now : (s.register index stream echo).waits ⟨stream.sessionID, echo.id⟩ s.requests.length =
        true :=
      waits_iff.mpr ⟨_, List.getElem?_concat_length, rfl, rfl⟩
    have last : (s.register index stream echo).Newest ⟨stream.sessionID, echo.id⟩ s.requests.length := by
      refine ⟨now, fun later beyond => ?_⟩
      rw [waits_old _ later (by omega), waits_beyond (by omega)]
    rw [newest_unique newest last]
    exact AList.lookup_insert _
  · have different : place ≠ s.requests.length := by
      rintro rfl
      obtain ⟨request, found, same, -⟩ := waits_iff.mp newest.1
      rw [show (s.register index stream echo).requests[s.requests.length]? = some _ from
        List.getElem?_concat_length] at found
      cases found
      exact own same.symm
    have before : s.Newest key place := by
      refine ⟨(waits_old key place different).symm.trans newest.1, fun later beyond => ?_⟩
      by_cases end' : later = s.requests.length
      · exact waits_beyond end'.ge
      · exact (waits_old key later end').symm.trans (newest.2 later beyond)
    rw [show (s.register index stream echo).pending.lookup key = _ from AList.lookup_insert_ne own]
    exact served key place before

end Sys

/-! ### The condition -/

/-- The goroutine stops waiting: it gets its reply or gives up. -/
def Action.stops : Action → Bool
  | .send succeeds => !succeeds
  | .take | .timeout | .cancelled => true
  | .write _ => false

/-- A request that stops waiting leaves no older one with its key behind, unless a newer one is waiting;
and no request with the key is waiting when a goroutine deletes it from the table. -/
def Undisturbed (s : Sys) : Event → Prop
  | .request index action => action.stops = true → ∀ request ∈ s.requests[index]?,
      ∀ older < index, s.waits request.key older = true →
        ∃ newer < s.requests.length, index < newer ∧ s.waits request.key newer = true
  | .unregister index => ∀ request ∈ s.requests[index]?,
      ∀ other < s.requests.length, s.waits request.key other = false
  | .newSession | .openStream _ | .stream _ _ | .register _ | .incoming _ _ | .readError => True

instance (s : Sys) (event : Event) : Decidable (Undisturbed s event) := by
  unfold Undisturbed
  split <;> infer_instance

variable {s next : Sys} {index : Nat} {request moved : Request} {action : Action} {gone : Bool}

theorem Request.Acted.waiting (acted : request.Acted gone action moved) :
    moved.key = request.key ∧
      moved.isWaiting = (request.isWaiting && !action.stops) ∧
      (action.stops = true → request.isWaiting = true) := by
  cases acted with
  | sent stood | unsent stood | timeout stood | cancelled stood =>
    simp [Request.key, Request.isWaiting, Action.stops, stood]
  | take reply stood got => simp [Request.key, Request.isWaiting, Action.stops, stood]
  | write succeeds reply stood => simp [Request.key, Request.isWaiting, Action.stops, stood]

theorem served_continue (served : s.Served) (found : s.requests[index]? = some request)
    (acted : request.Acted gone action moved) (goesOn : action.stops = false) (streams : List Stream) :
    Sys.Served { s with streams, requests := s.requests.set index moved } := by
  obtain ⟨key, waiting, -⟩ := acted.waiting
  have same : ∀ other place,
      Sys.waits { s with streams, requests := s.requests.set index moved } other place =
        s.waits other place := by
    intro other place
    rw [Sys.waits_set found]
    split
    · next same =>
      subst same
      rw [goesOn, Bool.not_false, Bool.and_true] at waiting
      rw [key, waiting, Sys.waits, found, Option.any_some]
    · rfl
  exact served.congr rfl same

/-- **A goroutine stops waiting.** The newest request is served after that exactly if the one that
stops was not the newest, or was the last. -/
theorem served_stop_iff (served : s.Served) (found : s.requests[index]? = some request)
    (acted : request.Acted gone action moved) (stops : action.stops = true) (streams : List Stream) :
    Sys.Served { s with streams, requests := s.requests.set index moved } ↔
      ∀ older < index, s.waits request.key older = true →
        ∃ newer < s.requests.length, index < newer ∧ s.waits request.key newer = true := by
  obtain ⟨key, still, before⟩ := acted.waiting
  rw [stops, Bool.not_true, Bool.and_false] at still
  have stood : s.waits request.key index = true :=
    Sys.waits_iff.mpr ⟨request, found, rfl, before stops⟩
  have waits : ∀ other place,
      Sys.waits { s with streams, requests := s.requests.set index moved } other place =
        if place = index then false else s.waits other place := by
    intro other place
    rw [Sys.waits_set found, still]
    simp
  rw [Sys.served_iff_registered] at served ⊢
  constructor
  · -- the newest of those that are left would have to be in the table, where this one is
    intro kept older before' waiting
    by_contra none
    have newest : s.Newest request.key index := Sys.newest_of_not_exists stood none
    have left : Sys.waits { s with streams, requests := s.requests.set index moved } request.key older =
        true := by
      rw [waits, if_neg (by omega)]
      exact waiting
    obtain ⟨place, isNewest⟩ := Sys.exists_newest left
    have same : some place = some index :=
      (kept request.key place isNewest).symm.trans (served request.key index newest)
    have gone' := isNewest.1
    rw [waits, if_pos (Option.some.inj same)] at gone'
    cases gone'
  · intro undisturbed other place newest
    refine served other place ⟨?_, fun later beyond => ?_⟩
    · have waiting := newest.1
      rw [waits] at waiting
      split at waiting
      · cases waiting
      · exact waiting
    · have after := newest.2 later beyond
      rw [waits] at after
      split at after
      · next same =>
        subst same
        -- the one that stops is newer than the newest that is left: then a third is newer still
        rw [Bool.eq_false_iff]
        intro waiting
        obtain ⟨request', found', sameKey, -⟩ := Sys.waits_iff.mp waiting
        rw [found] at found'
        cases found'
        subst sameKey
        have older := newest.1
        rw [waits, if_neg (by omega)] at older
        obtain ⟨newer, -, newerThan, waits'⟩ := undisturbed place beyond older
        have none := newest.2 newer (by omega)
        rw [waits, if_neg (by omega), waits'] at none
        cases none
      · exact after

theorem served_unregister_iff (served : s.Served) (found : s.requests[index]? = some request)
    (stood : request.phase = .leaving) :
    (s.unregister index request).Served ↔
      ∀ other < s.requests.length, s.waits request.key other = false := by
  have waits : ∀ key place, (s.unregister index request).waits key place = s.waits key place := by
    intro key place
    rw [show s.unregister index request = ⟨_, _, _, _, _⟩ from rfl, Sys.waits_set found]
    split
    · next same =>
      subst same
      rw [Sys.waits, found, Option.any_some]
      simp [Request.isWaiting, stood]
    · rfl
  rw [Sys.served_iff_registered] at served ⊢
  constructor
  · intro kept other inside
    rw [Bool.eq_false_iff]
    intro waiting
    obtain ⟨place, newest⟩ := Sys.exists_newest ((waits request.key other).trans waiting)
    have registered := kept request.key place newest
    rw [show (s.unregister index request).pending.lookup request.key = none from
      AList.lookup_erase _ _] at registered
    cases registered
  · intro nobody key place newest
    have before := (Sys.newest_congr waits).mp newest
    have different : key ≠ request.key := by
      rintro rfl
      have waiting := before.1
      rw [nobody place (Sys.lt_of_waits waiting)] at waiting
      cases waiting
    rw [show (s.unregister index request).pending.lookup key = _ from
      AList.lookup_erase_ne different]
    exact served key place before

/-- **One step** keeps the newest requests served exactly if it is undisturbed. -/
theorem served_step_iff {event : Event} (served : s.Served) (taken : step s event = some next) :
    next.Served ↔ Undisturbed s event := by
  cases stepped_of_step taken with
  | newSession => exact iff_of_true (served.congr rfl fun _ _ => rfl) trivial
  | openStream sessionID => exact iff_of_true (served.congr rfl fun _ _ => rfl) trivial
  | stream index action stream moved found acted =>
    exact iff_of_true (served.congr rfl fun _ _ => rfl) trivial
  | register index stream echo found held => exact iff_of_true served.register trivial
  | request index action request moved found acted =>
    have inverted := Request.acted_of_act acted
    cases stops : action.stops with
    | false =>
      refine iff_of_true (served_continue served found inverted stops _) ?_
      intro again
      rw [stops] at again
      cases again
    | true =>
      refine (served_stop_iff served found inverted stops _).trans ?_
      simp only [Undisturbed, stops, found, forall_const, Option.mem_def, Option.some.injEq, forall_eq']
  | unregister index request found stood =>
    refine (served_unregister_iff served found stood).trans ?_
    simp only [Undisturbed, found, Option.mem_def, Option.some.injEq, forall_eq']
  | incoming peer message =>
    exact iff_of_true (served.congr (Sys.pending_incoming peer message)
      (Sys.waits_incoming peer message)) trivial
  | readError => exact iff_of_true (served.congr rfl fun _ _ => rfl) trivial

theorem served_initial : Sys.initial.Served := by
  rw [Sys.served_iff_registered]
  rintro key index ⟨waiting, -⟩
  cases waiting

/-- **Waiting requests are registered.** In every state of a run the newest waiting request of every
identifier has its channel in the table, exactly if the run is undisturbed. -/
theorem served_iff_undisturbed {events : List Event} {s : Sys}
    (reached : run step .initial events = some s) :
    Throughout step Sys.Served .initial events ↔ Along step Undisturbed .initial events :=
  throughout_iff_along (fun _ _ _ served taken => served_step_iff served taken) served_initial reached

/-- An echo request with the identifier 7 to a public address. -/
def ping (seq : UInt8) : List UInt8 :=
  [0, 7] ++ List.replicate 10 0 ++ [255, 255, 192, 0, 2, 1] ++ [0, seq, 64, 0, 56]

/-- A stream reads a request and its goroutine sends it. -/
def pinging (stream request : Nat) (seq : UInt8) : List Event :=
  [.stream stream (.arrive (ping seq)), .stream stream .read, .register stream,
    .request request (.send true)]

def pong (seq : UInt16) : Event := .incoming [192, 0, 2, 1] (some ⟨0, 0, some (7, seq)⟩)

/-- A goroutine takes its reply, writes it and ends. -/
def answered (request : Nat) : List Event :=
  [.request request .take, .request request (.write true), .unregister request]

def oneByOne : List Event :=
  [.newSession, .openStream 1] ++ pinging 0 0 1 ++ [pong 1] ++ answered 0 ++ pinging 0 1 2 ++
    [pong 2] ++ answered 1

theorem served_oneByOne :
    ∃ s, run step .initial oneByOne = some s ∧ s.streams.map (·.written.length) = [2] ∧
      Throughout step Sys.Served .initial oneByOne :=
  ⟨_, rfl, by decide, (served_iff_undisturbed (show run step .initial oneByOne = some _ from rfl)).mpr
    (by decide)⟩

/-- The first of two pings times out while the second waits. -/
def overlapping : List Event :=
  [.newSession, .openStream 1] ++ pinging 0 0 1 ++ pinging 0 1 2 ++ [.request 0 .timeout, .unregister 0]

/-- The second ping is waiting and not in the table, and its answer is lost. -/
theorem unregistered_ping :
    ∃ s lost, run step .initial overlapping = some s ∧ s.Newest ⟨1, 7⟩ 1 ∧
      s.pending.lookup ⟨1, 7⟩ = none ∧ ¬ s.Served ∧ step s (pong 2) = some lost ∧
      ∀ request ∈ lost.requests, request.channel = none := by
  refine ⟨_, _, rfl, ⟨rfl, fun later beyond => Sys.waits_beyond beyond⟩, rfl, fun served => ?_, rfl, ?_⟩
  · have registered := served.registered ⟨1, 7⟩ 1
      ⟨rfl, fun later beyond => Sys.waits_beyond beyond⟩
    cases registered
  · decide

end Ttgo.Icmp

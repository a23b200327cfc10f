/-
**The replies of the ICMP multiplexer.**

The goroutine of an echo request writes to the response of the stream that it was read from.

* `replies` — the goroutines as a `Handoff`: the `select` fetches a reply for a stream, `Write` delivers
  it, and a stream is finished when its `ServeHTTP` has returned.
-/

import Ttgo.Icmp.Mux
import Ttgo.Lib.Handoff

namespace Ttgo.Icmp

open Ttgo.Lib

def Request.holding (request : Request) : Bool :=
  match request.phase with
  | .replying _ => true
  | .sending | .waiting | .leaving | .ended => false

namespace Sys

def holdsFor (s : Sys) (stream : Nat) : Bool :=
  s.requests.any fun request => request.stream = stream && request.holding

def hasReturned (s : Sys) (stream : Nat) : Bool := (s.streams[stream]?).any Stream.returned

def fetches (s : Sys) : Event → Option Nat
  | .request index .take => (s.requests[index]?).map Request.stream
  | _ => none

/-- `readEchoRequest` has failed. -/
def returns (s : Sys) : Event → Option Nat
  | .stream index .read =>
    match (s.streams[index]?).map fun stream => readEchoRequest stream.input with
    | some (.error _) => some index
    | some (.ok _) | none => none
  | _ => none

def writes (s : Sys) : Event → Option Nat
  | .request index (.write _) => (s.requests[index]?).map Request.stream
  | _ => none

variable {s next : Sys} {event : Event} {owner index : Nat} {request moved : Request}

theorem holdsFor_iff : s.holdsFor owner = true ↔
    ∃ request ∈ s.requests, request.stream = owner ∧ request.holding = true := by
  simp only [holdsFor, List.any_eq_true, Bool.and_eq_true, decide_eq_true_eq]

theorem mem_incoming {peer : IP} {message : Option Message}
    (member : moved ∈ (s.incoming peer message).requests) :
    ∃ request ∈ s.requests, ∃ channel, moved = { request with channel } := by
  unfold incoming at member
  split at member
  · exact ⟨moved, member, moved.channel, rfl⟩
  · split at member
    · exact ⟨moved, member, moved.channel, rfl⟩
    · obtain ⟨index, inside, rfl⟩ := List.mem_mapIdx.mp member
      refine ⟨s.requests[index], List.getElem_mem inside, ?_⟩
      split
      · exact ⟨_, rfl⟩
      · exact ⟨_, rfl⟩

theorem holdsFor_step (taken : step s event = some next) (holds : next.holdsFor owner = true) :
    s.holdsFor owner = true ∨ s.fetches event = some owner := by
  obtain ⟨moved, member, rfl, holding⟩ := holdsFor_iff.mp holds
  have before : moved ∈ s.requests → s.holdsFor moved.stream = true := fun old =>
    holdsFor_iff.mpr ⟨moved, old, rfl, holding⟩
  cases stepped_of_step taken with
  | newSession | openStream sessionID | stream index action stream stepped found acted | readError =>
    exact .inl (before member)
  | register index stream echo found held =>
    rcases List.mem_append.mp member with old | new
    · exact .inl (before old)
    · cases List.mem_singleton.mp new
      cases holding
  | request index action request stepped found acted =>
    rcases List.mem_or_eq_of_mem_set member with old | rfl
    · exact .inl (before old)
    · cases Request.acted_of_act acted with
      | take reply stood got => exact .inr (congrArg (Option.map Request.stream) found)
      | sent stood | unsent stood | timeout stood | cancelled stood | write succeeds reply stood =>
        cases holding
  | unregister index request found stood =>
    rcases List.mem_or_eq_of_mem_set member with old | rfl
    · exact .inl (before old)
    · cases holding
  | incoming peer message =>
    obtain ⟨request, old, channel, rfl⟩ := mem_incoming member
    exact .inl (holdsFor_iff.mpr ⟨request, old, rfl, holding⟩)

theorem holdsFor_of_writes (taken : step s event = some next) (writes : s.writes event = some owner) :
    s.holdsFor owner = true := by
  cases stepped_of_step taken with
  | request index action request moved found acted =>
    cases Request.acted_of_act acted with
    | write succeeds reply stood =>
      obtain rfl : request.stream = owner := by
        simpa only [Sys.writes, found, Option.map_some, Option.some.injEq] using writes
      exact holdsFor_iff.mpr ⟨request, List.mem_of_getElem? found, rfl, by rw [Request.holding, stood]⟩
    | sent stood | unsent stood | take reply stood got | timeout stood | cancelled stood => cases writes
  | newSession | openStream sessionID | stream index action stream stepped found acted
  | register index stream echo found held | unregister index request found stood
  | incoming peer message | readError => cases writes

theorem returned_act {stream stepped : Stream} {action : StreamAction}
    (acted : stream.act action = some stepped) (returned : stepped.returned = true) :
    stream.returned = true ∨
      action = .read ∧ ∃ error, readEchoRequest stream.input = .error error := by
  cases action with
  | arrive bytes | finish | cancel =>
    cases acted
    exact .inl returned
  | read =>
    obtain ⟨-, rest⟩ := Option.ite_none_right_eq_some.mp acted
    unfold Stream.read at rest
    split at rest
    · cases rest
      exact .inl returned
    · next error failed => exact .inr ⟨rfl, error, failed⟩

theorem hasReturned_step (taken : step s event = some next) (returned : next.hasReturned owner = true) :
    s.hasReturned owner = true ∨ s.returns event = some owner := by
  obtain ⟨stream, there, ended⟩ := (Option.any_eq_true _ _).mp returned
  have before : ∀ {old : Stream}, s.streams[owner]? = some old → old.returned = stream.returned →
      s.hasReturned owner = true := fun found same =>
    (Option.any_eq_true _ _).mpr ⟨_, found, same.trans ended⟩
  cases stepped_of_step taken with
  | newSession | readError | unregister index request found stood => exact .inl (before there rfl)
  | openStream sessionID =>
    rcases pool_get_append there with old | ⟨-, rfl⟩
    · exact .inl (before old rfl)
    · cases ended
  | stream index action stream' stepped found acted =>
    rcases pool_get_set found there with ⟨rfl, rfl⟩ | ⟨-, old⟩
    · rcases returned_act acted ended with already | ⟨rfl, error, failed⟩
      · exact .inl ((Option.any_eq_true _ _).mpr ⟨stream', found, already⟩)
      · exact .inr (by simp only [returns, found, Option.map_some, failed])
    · exact .inl (before old rfl)
  | register index stream' echo found held =>
    rcases pool_get_set found there with ⟨rfl, rfl⟩ | ⟨-, old⟩
    · exact .inl (before found rfl)
    · exact .inl (before old rfl)
  | request index action request moved found acted =>
    simp only [output, List.getElem?_modify, Option.map_eq_map, Option.map_eq_some_iff] at there
    obtain ⟨old, found, same⟩ := there
    refine .inl (before found ?_)
    rw [← same]
    split <;> rfl
  | incoming peer message =>
    rw [streams_incoming] at there
    exact .inl (before there rfl)

theorem returns_ne_of_fetches (fetched : s.fetches event = some owner) :
    s.returns event ≠ some owner := by
  unfold fetches at fetched
  split at fetched
  · exact fun returned => by cases returned
  · cases fetched

end Sys

/-- **The goroutines and the responses they write to.** -/
def replies : Handoff step Nat where
  invariant _ := True
  inHand := Sys.holdsFor
  finished := Sys.hasReturned
  fetches := Sys.fetches
  finishes := Sys.returns
  delivers := Sys.writes
  invariant_step := fun _ _ => trivial
  inHand_step := fun _ taken holds => Sys.holdsFor_step taken holds
  finished_step := Sys.hasReturned_step
  not_both := Sys.returns_ne_of_fetches
  inHand_of_delivers := Sys.holdsFor_of_writes

end Ttgo.Icmp

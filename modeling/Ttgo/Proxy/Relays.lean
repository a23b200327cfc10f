/-
**Who writes to which response.**

The `copyFlush` goroutines of `P2PBroker.Handle` and of `handleTCPTunnel`, in one process. A copy of a
bridge that goes to the peer writes to the response of a call that did not start it; every other one
writes to the response of its own call.

* `step` — any interleaving of the broker with any number of tunnels.
* `copies` — the copies as a `Handoff`: `Read` fetches bytes for a response, `Write` delivers them, and
  a response is finished when its `ServeHTTP` has returned.
* `copies_never_late` — if no call returns while a copy to its response has bytes in hand, and no copy reads
  more for a call that has returned, then nothing is written to a finished response.
-/

import Ttgo.Lib.Handoff
import Ttgo.Proxy.P2P
import Ttgo.Proxy.Tunnel

namespace Ttgo.Proxy

open Ttgo.Lib

namespace P2P

/-- The call whose response a copy writes to. -/
def Call.writer (index : Nat) (call : Call) : Way → Option Nat
  | .forth => call.peer
  | .back => some index

/-- The call has a copy with bytes in hand for the response of `owner`. -/
def Call.holdsFor (index : Nat) (call : Call) (owner : Nat) : Bool :=
  [Way.forth, .back].any fun way =>
    (call.copy way).any CopyLoop.holding && call.writer index way == some owner

def Sys.holdsFor (s : Sys) (owner : Nat) : Bool :=
  (List.range s.calls.length).any fun index =>
    (s.calls[index]?).any fun call => call.holdsFor index owner

def Sys.hasReturned (s : Sys) (owner : Nat) : Bool :=
  (s.calls[owner]?).any fun call => call.phase.hasReturned

/-- The call whose response the step reads bytes for. -/
def Sys.fetches (s : Sys) : Event → Option Nat
  | .act index (.read way bytes _) =>
    if bytes = [] then none else (s.calls[index]?).bind fun call => call.writer index way
  | .connect _ | .handle _ | .act _ _ | .unlist _ | .close _ => none

def Sys.returns (s : Sys) : Event → Option Nat
  | .handle index => if (s.calls[index]?).any fun call => call.request.room = "" then some index else none
  | .act index .released | .unlist index | .close index => some index
  | .connect _ | .act _ _ => none

/-- The call whose response the step writes to. -/
def Sys.writes (s : Sys) : Event → Option Nat
  | .act index (.write way _) => (s.calls[index]?).bind fun call => call.writer index way
  | .connect _ | .handle _ | .act _ _ | .unlist _ | .close _ => none

/-! ### The copies of the broker -/

/-- No copy runs before its call has had the lock. -/
def Sys.Unstarted (s : Sys) : Prop :=
  ∀ (index : Nat) (call : Call), s.calls[index]? = some call → call.phase = .arrived →
    ∀ way, call.copy way = none

variable {pool : Int} {s next : Sys} {call call' : Call} {index owner : Nat} {event : Event}
  {action : Action} {peerGone : Bool}

theorem holdsFor_iff : s.holdsFor owner = true ↔ ∃ (index : Nat) (call : Call) (way : Way),
    s.calls[index]? = some call ∧ (call.copy way).any CopyLoop.holding = true ∧
      call.writer index way = some owner := by
  simp only [Sys.holdsFor, Call.holdsFor, List.any_eq_true, List.mem_range, Option.any_eq_true,
    Bool.and_eq_true, beq_iff_eq]
  constructor
  · rintro ⟨index, -, call, found, way, -, held, writer⟩
    exact ⟨index, call, way, found, by simpa [Option.any_eq_true] using held, writer⟩
  · rintro ⟨index, call, way, found, held, writer⟩
    refine ⟨index, (List.getElem?_eq_some_iff.mp found).1, call, found, way, ?_, ?_, writer⟩
    · cases way <;> simp
    · simpa [Option.any_eq_true] using held

theorem hasReturned_iff : s.hasReturned owner = true ↔
    ∃ call, s.calls[owner]? = some call ∧ call.phase.hasReturned = true := by
  simp only [Sys.hasReturned, Option.any_eq_true]

theorem holdsFor_set (found : s.calls[index]? = some call) {waiting : GoMap String Nat}
    {fetched : Prop} (holds : Sys.holdsFor ⟨waiting, s.calls.set index call'⟩ owner = true)
    (moved : ∀ way, (call'.copy way).any CopyLoop.holding = true →
      call'.writer index way = some owner →
      (call.copy way).any CopyLoop.holding = true ∧ call.writer index way = some owner ∨ fetched) :
    s.holdsFor owner = true ∨ fetched := by
  obtain ⟨place, other, way, there, held, writer⟩ := holdsFor_iff.mp holds
  rcases pool_get_set found there with ⟨rfl, rfl⟩ | ⟨-, old⟩
  · rcases moved way held writer with ⟨before, same⟩ | fetched
    · exact .inl (holdsFor_iff.mpr ⟨place, call, way, found, before, same⟩)
    · exact .inr fetched
  · exact .inl (holdsFor_iff.mpr ⟨place, other, way, old, held, writer⟩)

theorem hasReturned_set (found : s.calls[index]? = some call) {waiting : GoMap String Nat}
    (returned : Sys.hasReturned ⟨waiting, s.calls.set index call'⟩ owner = true) :
    s.hasReturned owner = true ∨ (index = owner ∧ call'.phase.hasReturned = true) := by
  obtain ⟨other, there, ended⟩ := hasReturned_iff.mp returned
  rcases pool_get_set found there with ⟨rfl, rfl⟩ | ⟨-, old⟩
  · exact .inr ⟨rfl, ended⟩
  · exact .inl (hasReturned_iff.mpr ⟨other, old, ended⟩)

@[simp] theorem copy_setCopy_self (call : Call) (loop : CopyLoop) (way : Way) :
    (call.setCopy loop way).copy way = some loop := by
  cases way <;> rfl

theorem copy_setCopy_of_ne (call : Call) (loop : CopyLoop) {way other : Way} (ne : other ≠ way) :
    (call.setCopy loop way).copy other = call.copy other := by
  cases way <;> cases other <;> first | rfl | exact absurd rfl ne

theorem holding_act (acted : call.act peerGone action = some call') {way : Way}
    (held : (call'.copy way).any CopyLoop.holding = true) :
    (call.copy way).any CopyLoop.holding = true ∨
      ∃ bytes err, action = .read way bytes err ∧ bytes ≠ [] := by
  cases action with
  | hangUp | released | leave timer | finish =>
    obtain ⟨-, same⟩ := Option.ite_none_right_eq_some.mp acted
    cases same
    cases way <;> exact .inl held
  | cancel =>
    cases acted
    cases way <;> exact .inl held
  | start =>
    obtain ⟨-, same⟩ := Option.ite_none_right_eq_some.mp acted
    cases same
    cases way <;> cases held
  | read moved bytes err =>
    obtain ⟨loop, copied, rest⟩ := Option.bind_eq_some_iff.mp acted
    obtain ⟨after, read, same⟩ := Option.bind_eq_some_iff.mp rest
    cases same
    by_cases same : way = moved
    · subst same
      rw [copy_setCopy_self, Option.any_some] at held
      exact .inr ⟨bytes, err, rfl, CopyLoop.holding_read read held⟩
    · rw [copy_setCopy_of_ne call after same] at held
      exact .inl held
  | write moved short =>
    obtain ⟨loop, copied, rest⟩ := Option.bind_eq_some_iff.mp acted
    obtain ⟨after, write, same⟩ := Option.bind_eq_some_iff.mp rest
    cases same
    by_cases same : way = moved
    · subst same
      rw [copy_setCopy_self, Option.any_some, (CopyLoop.holding_write write).2] at held
      cases held
    · rw [copy_setCopy_of_ne call after same] at held
      exact .inl held

theorem returned_act (acted : call.act peerGone action = some call')
    (returned : call'.phase.hasReturned = true) :
    call.phase.hasReturned = true ∨ action = .released := by
  cases action with
  | hangUp =>
    obtain ⟨-, same⟩ := Option.ite_none_right_eq_some.mp acted
    cases same
    exact .inl returned
  | cancel =>
    cases acted
    exact .inl returned
  | released => exact .inr rfl
  | leave timer | start | finish =>
    obtain ⟨-, same⟩ := Option.ite_none_right_eq_some.mp acted
    cases same
    cases returned
  | read way bytes err =>
    obtain ⟨loop, copied, rest⟩ := Option.bind_eq_some_iff.mp acted
    obtain ⟨after, read, same⟩ := Option.bind_eq_some_iff.mp rest
    cases same
    cases way <;> exact .inl returned
  | write way short =>
    obtain ⟨loop, copied, rest⟩ := Option.bind_eq_some_iff.mp acted
    obtain ⟨after, write, same⟩ := Option.bind_eq_some_iff.mp rest
    cases same
    cases way <;> exact .inl returned

theorem unstarted_set (unstarted : s.Unstarted) (found : s.calls[index]? = some call)
    {waiting : GoMap String Nat} (arrived : call'.phase = .arrived → ∀ way, call'.copy way = none) :
    Sys.Unstarted ⟨waiting, s.calls.set index call'⟩ := by
  intro place other there stood
  rcases pool_get_set found there with ⟨-, rfl⟩ | ⟨-, old⟩
  · exact arrived stood
  · exact unstarted place other old stood

theorem unstarted_step (unstarted : s.Unstarted) (taken : step pool s event = some next) :
    next.Unstarted := by
  cases stepped_of_step taken with
  | connect request =>
    intro place call there stood
    rcases pool_get_append there with old | ⟨-, rfl⟩
    · exact unstarted place call old stood
    · intro way
      cases way <;> rfl
  | handle index call found stood =>
    unfold Sys.handle
    split
    · exact unstarted_set unstarted found (fun again => by cases again)
    · split <;> exact unstarted_set unstarted found (fun again => by cases again)
  | act index action call call' found acted =>
    refine unstarted_set unstarted found fun again => ?_
    have stood := (Call.kept_act acted).arrived.mp again
    have idle := unstarted index call found stood
    -- a copy that has not started takes no step, and the call starts none in this phase
    cases action with
    | hangUp =>
      obtain ⟨-, same⟩ := Option.ite_none_right_eq_some.mp acted
      cases same
      exact idle
    | cancel =>
      cases acted
      exact idle
    | released | leave timer | start | finish =>
      obtain ⟨guard, same⟩ := Option.ite_none_right_eq_some.mp acted
      cases same
      cases again
    | read way bytes err =>
      obtain ⟨loop, copied, -⟩ := Option.bind_eq_some_iff.mp acted
      rw [idle way] at copied
      cases copied
    | write way short =>
      obtain ⟨loop, copied, -⟩ := Option.bind_eq_some_iff.mp acted
      rw [idle way] at copied
      cases copied
  | unlist index call found stood => exact unstarted_set unstarted found (fun again => by cases again)
  | close index peer call found bridged stood =>
    intro place other there again way
    obtain ⟨before, closes, old, rfl⟩ := Sys.getElem?_modify_closes there
    have kept : Sys.Unstarted ⟨s.waiting, s.calls.set index { call with phase := .returned }⟩ :=
      unstarted_set unstarted found (fun again => by cases again)
    have idle := kept place before old again way
    cases way <;> exact idle

theorem holdsFor_step (unstarted : s.Unstarted) (taken : step pool s event = some next)
    (holds : next.holdsFor owner = true) :
    s.holdsFor owner = true ∨ s.fetches event = some owner := by
  cases stepped_of_step taken with
  | connect request =>
    obtain ⟨place, call, way, there, held, writer⟩ := holdsFor_iff.mp holds
    rcases pool_get_append there with old | ⟨-, rfl⟩
    · exact .inl (holdsFor_iff.mpr ⟨place, call, way, old, held, writer⟩)
    · cases way <;> cases held
  | handle index call found stood =>
    have idle : ∀ {call' : Call} (way : Way), call'.forth = call.forth → call'.back = call.back →
        (call'.copy way).any CopyLoop.holding = true → False := by
      intro call' way forth back held
      have none := unstarted index call found stood way
      cases way with
      | forth => simp [Call.copy, forth, show call.forth = .none from none] at held
      | back => simp [Call.copy, back, show call.back = .none from none] at held
    unfold Sys.handle at holds
    split at holds
    · exact holdsFor_set found holds fun way held _ => (idle way rfl rfl held).elim
    · split at holds
      all_goals exact holdsFor_set found holds fun way held _ => (idle way rfl rfl held).elim
  | act index action call call' found acted =>
    refine holdsFor_set found holds fun way held writer => ?_
    have peer := (Call.kept_act acted).peer
    have same : call.writer index way = some owner := by
      cases way with
      | forth => exact peer.symm.trans writer
      | back => exact writer
    rcases holding_act acted held with before | ⟨bytes, err, rfl, some⟩
    · exact .inl ⟨before, same⟩
    · refine .inr ?_
      simp only [Sys.fetches, if_neg some, found, Option.bind_some, same]
  | unlist index call found stood =>
    refine holdsFor_set found holds fun way held writer => .inl ⟨?_, ?_⟩
    · cases way <;> exact held
    · cases way <;> exact writer
  | close index peer call found bridged stood =>
    obtain ⟨place, other, way, there, held, writer⟩ := holdsFor_iff.mp holds
    obtain ⟨before, closes, old, rfl⟩ := Sys.getElem?_modify_closes there
    have holds' : Sys.holdsFor ⟨s.waiting, s.calls.set index { call with phase := .returned }⟩ owner =
        true := by
      refine holdsFor_iff.mpr ⟨place, before, way, old, ?_, ?_⟩
      · cases way <;> exact held
      · cases way <;> exact writer
    refine holdsFor_set found holds' fun way held writer => .inl ⟨?_, ?_⟩
    · cases way <;> exact held
    · cases way <;> exact writer

theorem hasReturned_step (taken : step pool s event = some next)
    (returned : next.hasReturned owner = true) :
    s.hasReturned owner = true ∨ s.returns event = some owner := by
  cases stepped_of_step taken with
  | connect request =>
    obtain ⟨call, there, ended⟩ := hasReturned_iff.mp returned
    rcases pool_get_append there with old | ⟨-, rfl⟩
    · exact .inl (hasReturned_iff.mpr ⟨call, old, ended⟩)
    · cases ended
  | handle index call found stood =>
    unfold Sys.handle at returned
    split at returned
    · next noRoom =>
      refine (hasReturned_set found returned).imp_right fun ⟨same, _⟩ => ?_
      subst same
      simp [Sys.returns, found, noRoom]
    · split at returned
      all_goals
        refine (hasReturned_set found returned).imp_right fun ⟨_, ended⟩ => ?_
        cases ended
  | act index action call call' found acted =>
    rcases hasReturned_set found returned with before | ⟨rfl, ended⟩
    · exact .inl before
    · rcases returned_act acted ended with before | rfl
      · exact .inl (hasReturned_iff.mpr ⟨call, found, before⟩)
      · exact .inr rfl
  | unlist index call found stood =>
    exact (hasReturned_set found returned).imp_right fun ⟨same, _⟩ => congrArg some same
  | close index peer call found bridged stood =>
    obtain ⟨other, there, ended⟩ := hasReturned_iff.mp returned
    obtain ⟨before, closes, old, rfl⟩ := Sys.getElem?_modify_closes there
    have returned' : Sys.hasReturned ⟨s.waiting, s.calls.set index { call with phase := .returned }⟩
        owner = true := hasReturned_iff.mpr ⟨before, old, ended⟩
    exact (hasReturned_set found returned').imp_right fun ⟨same, _⟩ => congrArg some same

theorem holdsFor_of_writes (taken : step pool s event = some next)
    (writes : s.writes event = some owner) : s.holdsFor owner = true := by
  cases stepped_of_step taken with
  | connect request => cases writes
  | handle index call found stood => cases writes
  | act index action call call' found acted =>
    cases action with
    | write way short =>
      obtain ⟨loop, copied, rest⟩ := Option.bind_eq_some_iff.mp acted
      obtain ⟨after, write, -⟩ := Option.bind_eq_some_iff.mp rest
      simp only [Sys.writes, found, Option.bind_some] at writes
      refine holdsFor_iff.mpr ⟨index, call, way, found, ?_, writes⟩
      rw [copied]
      exact (CopyLoop.holding_write write).1
    | hangUp | cancel | released | leave timer | start | read way bytes err | finish => cases writes
  | unlist index call found stood => cases writes
  | close index peer call found bridged stood => cases writes

theorem not_returns_of_fetches (fetched : s.fetches event = some owner) :
    s.returns event = none := by
  unfold Sys.fetches at fetched
  split at fetched
  · rfl
  all_goals cases fetched

end P2P

/-! ### The copies of a tunnel -/

namespace Tunnel

variable {tunnel next : Tunnel} {action : Action}

theorem holding_act (acted : tunnel.act action = some next) (held : next.down.holding = true) :
    tunnel.down.holding = true ∨ ∃ bytes err, action = .read .down bytes err ∧ bytes ≠ [] := by
  cases acted_of_act acted with
  | @read dir bytes err loop moved =>
    cases dir with
    | up => exact .inl held
    | down => exact .inr ⟨bytes, err, rfl, CopyLoop.holding_read moved held⟩
  | @write dir short loop moved =>
    cases dir with
    | up => exact .inl held
    | down =>
      rw [show (tunnel.setCopy loop .down).down = loop from rfl, (CopyLoop.holding_write moved).2] at held
      cases held
  | cancel | closeWrite | receive | quit => exact .inl held

theorem returned_act (acted : tunnel.act action = some next) (returned : next.returned = true) :
    tunnel.returned = true ∨ (action = .receive ∧ tunnel.received = 1) ∨ action = .quit := by
  cases acted_of_act acted with
  | @read dir | @write dir => cases dir <;> exact .inl returned
  | cancel | closeWrite => exact .inl returned
  | receive =>
    have second : tunnel.received + 1 = 2 := of_decide_eq_true returned
    exact .inr (.inl ⟨rfl, Nat.succ.inj second⟩)
  | quit => exact .inr (.inr rfl)

theorem holding_of_write {short : Option Nat} (acted : tunnel.act (.write .down short) = some next) :
    tunnel.down.holding = true := by
  cases acted_of_act acted with
  | write moved => exact (CopyLoop.holding_write moved).1

end Tunnel

namespace Relays

structure Sys where
  broker : P2P.Sys
  tunnels : List Tunnel
deriving DecidableEq

def Sys.initial : Sys := ⟨.initial, []⟩

inductive Event
  | p2p (event : P2P.Event)
  /-- A tunnel is dialed, and its copies start. -/
  | openTunnel
  | tunnel (index : Nat) (action : Tunnel.Action)
deriving DecidableEq, Repr

def step (pool : Int) (s : Sys) : Event → Option Sys
  | .p2p event => (P2P.step pool s.broker event).map fun broker => { s with broker }
  | .openTunnel => some { s with tunnels := s.tunnels ++ [{}] }
  | .tunnel index action => do
    let tunnel ← s.tunnels[index]?
    let next ← tunnel.act action
    return { s with tunnels := s.tunnels.set index next }

/-- A response, by the call of `ServeHTTP` that owns it. -/
inductive Response
  | p2p (index : Nat)
  | tunnel (index : Nat)
deriving DecidableEq, Repr

namespace Sys

def holdsFor (s : Sys) : Response → Bool
  | .p2p index => s.broker.holdsFor index
  | .tunnel index => (s.tunnels[index]?).any fun tunnel => tunnel.down.holding

def hasReturned (s : Sys) : Response → Bool
  | .p2p index => s.broker.hasReturned index
  | .tunnel index => (s.tunnels[index]?).any Tunnel.returned

def fetches (s : Sys) : Event → Option Response
  | .p2p event => (s.broker.fetches event).map .p2p
  | .tunnel index (.read .down bytes _) => if bytes = [] then none else some (.tunnel index)
  | .openTunnel | .tunnel _ _ => none

def returns (s : Sys) : Event → Option Response
  | .p2p event => (s.broker.returns event).map .p2p
  | .tunnel index .receive =>
    if (s.tunnels[index]?).any fun tunnel => tunnel.received = 1 then some (.tunnel index) else none
  | .tunnel index .quit => some (.tunnel index)
  | .openTunnel | .tunnel _ _ => none

def writes (s : Sys) : Event → Option Response
  | .p2p event => (s.broker.writes event).map .p2p
  | .tunnel index (.write .down _) => some (.tunnel index)
  | .openTunnel | .tunnel _ _ => none

variable {pool : Int} {s next : Sys} {index : Nat} {action : Tunnel.Action} {owner : Response}
  {event : Event}

theorem step_tunnel (taken : step pool s (.tunnel index action) = some next) :
    ∃ tunnel moved, s.tunnels[index]? = some tunnel ∧ tunnel.act action = some moved ∧
      next = { s with tunnels := s.tunnels.set index moved } := by
  obtain ⟨tunnel, found, rest⟩ := Option.bind_eq_some_iff.mp taken
  obtain ⟨moved, acted, same⟩ := Option.bind_eq_some_iff.mp rest
  cases same
  exact ⟨tunnel, moved, found, acted, rfl⟩

theorem step_p2p {event : P2P.Event} (taken : step pool s (.p2p event) = some next) :
    ∃ broker, P2P.step pool s.broker event = some broker ∧ next = { s with broker } := by
  obtain ⟨broker, moved, rfl⟩ := Option.map_eq_some_iff.mp taken
  exact ⟨broker, moved, rfl⟩

theorem holdsFor_step (unstarted : s.broker.Unstarted) (taken : step pool s event = some next)
    (holds : next.holdsFor owner = true) :
    s.holdsFor owner = true ∨ s.fetches event = some owner := by
  cases event with
  | p2p event =>
    obtain ⟨broker, moved, rfl⟩ := step_p2p taken
    cases owner with
    | p2p index =>
      refine (P2P.holdsFor_step unstarted moved holds).imp_right fun fetched => ?_
      simp only [fetches, fetched, Option.map_some]
    | tunnel index => exact .inl holds
  | openTunnel =>
    cases taken
    cases owner with
    | p2p index => exact .inl holds
    | tunnel index =>
      obtain ⟨tunnel, there, held⟩ := (Option.any_eq_true _ _).mp holds
      rcases pool_get_append there with old | ⟨-, rfl⟩
      · exact .inl ((Option.any_eq_true _ _).mpr ⟨tunnel, old, held⟩)
      · cases held
  | tunnel index action =>
    obtain ⟨tunnel, moved, found, acted, rfl⟩ := step_tunnel taken
    cases owner with
    | p2p place => exact .inl holds
    | tunnel place =>
      obtain ⟨other, there, held⟩ := (Option.any_eq_true _ _).mp holds
      rcases pool_get_set found there with ⟨rfl, rfl⟩ | ⟨-, old⟩
      · rcases Tunnel.holding_act acted held with before | ⟨bytes, err, rfl, some⟩
        · exact .inl ((Option.any_eq_true _ _).mpr ⟨tunnel, found, before⟩)
        · exact .inr (if_neg some)
      · exact .inl ((Option.any_eq_true _ _).mpr ⟨other, old, held⟩)

theorem hasReturned_step (taken : step pool s event = some next)
    (returned : next.hasReturned owner = true) :
    s.hasReturned owner = true ∨ s.returns event = some owner := by
  cases event with
  | p2p event =>
    obtain ⟨broker, moved, rfl⟩ := step_p2p taken
    cases owner with
    | p2p index =>
      refine (P2P.hasReturned_step moved returned).imp_right fun now => ?_
      simp only [returns, now, Option.map_some]
    | tunnel index => exact .inl returned
  | openTunnel =>
    cases taken
    cases owner with
    | p2p index => exact .inl returned
    | tunnel index =>
      obtain ⟨tunnel, there, ended⟩ := (Option.any_eq_true _ _).mp returned
      rcases pool_get_append there with old | ⟨-, rfl⟩
      · exact .inl ((Option.any_eq_true _ _).mpr ⟨tunnel, old, ended⟩)
      · cases ended
  | tunnel index action =>
    obtain ⟨tunnel, moved, found, acted, rfl⟩ := step_tunnel taken
    cases owner with
    | p2p place => exact .inl returned
    | tunnel place =>
      obtain ⟨other, there, ended⟩ := (Option.any_eq_true _ _).mp returned
      rcases pool_get_set found there with ⟨rfl, rfl⟩ | ⟨-, old⟩
      · rcases Tunnel.returned_act acted ended with before | ⟨rfl, second⟩ | rfl
        · exact .inl ((Option.any_eq_true _ _).mpr ⟨tunnel, found, before⟩)
        · refine .inr (if_pos ((Option.any_eq_true _ _).mpr ⟨tunnel, found, ?_⟩))
          exact decide_eq_true second
        · exact .inr rfl
      · exact .inl ((Option.any_eq_true _ _).mpr ⟨other, old, ended⟩)

theorem holdsFor_of_writes (taken : step pool s event = some next)
    (writes : s.writes event = some owner) : s.holdsFor owner = true := by
  cases event with
  | p2p event =>
    obtain ⟨broker, moved, rfl⟩ := step_p2p taken
    obtain ⟨index, written, rfl⟩ := Option.map_eq_some_iff.mp writes
    exact P2P.holdsFor_of_writes moved written
  | openTunnel => cases writes
  | tunnel index action =>
    obtain ⟨tunnel, moved, found, acted, rfl⟩ := step_tunnel taken
    cases action with
    | write dir short =>
      cases dir with
      | up => cases writes
      | down =>
        cases writes
        exact (Option.any_eq_true _ _).mpr ⟨tunnel, found, Tunnel.holding_of_write acted⟩
    | cancel | read dir bytes err | closeWrite | receive | quit => cases writes

theorem returns_ne_of_fetches (fetched : s.fetches event = some owner) :
    s.returns event ≠ some owner := by
  cases event with
  | p2p event =>
    obtain ⟨index, read, rfl⟩ := Option.map_eq_some_iff.mp fetched
    simp only [returns, P2P.not_returns_of_fetches read, Option.map_none, ne_eq, reduceCtorEq,
      not_false_eq_true]
  | openTunnel => cases fetched
  | tunnel index action =>
    cases action with
    | read dir bytes err => exact fun returned => by cases returned
    | cancel | write dir short | closeWrite | receive | quit => cases fetched

end Sys

/-- **The copies and the responses they write to.** -/
def copies (pool : Int) : Handoff (step pool) Response where
  invariant s := s.broker.Unstarted
  inHand := Sys.holdsFor
  finished := Sys.hasReturned
  fetches := Sys.fetches
  finishes := Sys.returns
  delivers := Sys.writes
  invariant_step := fun {s event next} unstarted taken => by
    cases event with
    | p2p event =>
      obtain ⟨broker, moved, rfl⟩ := Sys.step_p2p taken
      exact P2P.unstarted_step unstarted moved
    | openTunnel =>
      cases taken
      exact unstarted
    | tunnel index action =>
      obtain ⟨tunnel, moved, found, acted, rfl⟩ := Sys.step_tunnel taken
      exact unstarted
  inHand_step := Sys.holdsFor_step
  finished_step := Sys.hasReturned_step
  not_both := Sys.returns_ne_of_fetches
  inHand_of_delivers := Sys.holdsFor_of_writes

/-- **No write to a finished response.** In every run in which no call returns while a copy to its
response has bytes in hand, and no copy reads bytes for a call that has returned, no `copyFlush` writes
to the response of a call that has returned. -/
theorem copies_never_late {pool : Int} {events : List Event} {s : Sys}
    (reached : run (step pool) .initial events = some s)
    (prompt : Along (step pool) (copies pool).Prompt .initial events) :
    Along (step pool) (fun current event => ¬ (copies pool).Late current event) .initial events := by
  refine Handoff.never_late ?_ ?_ reached prompt
  · intro index call found
    cases found
  · intro owner held
    cases owner with
    | p2p index => cases held
    | tunnel index => cases held

/-- Two streams of a room are bridged, and the copies start. -/
def bridge : List Event :=
  [.p2p (.connect P2P.exposed), .p2p (.handle 0), .p2p (.connect P2P.reaching), .p2p (.handle 1),
    .p2p (.act 1 .start)]

/-- The bridge and a tunnel move a byte and end, and all their calls return. -/
def orderly : List Event :=
  bridge ++
  [.p2p (.act 1 (.read .forth [7] none)), .p2p (.act 1 (.write .forth none)),
    .p2p (.act 1 (.read .forth [] (some .eof))), .p2p (.act 1 .finish), .p2p (.close 1),
    .p2p (.act 0 .released),
    .openTunnel, .tunnel 0 (.read .down [7] (some .eof)), .tunnel 0 (.write .down none),
    .tunnel 0 (.read .up [] (some .eof)), .tunnel 0 .receive, .tunnel 0 .receive]

theorem copies_never_late_orderly :
    ∃ s, run (step 4) .initial orderly = some s ∧
      s.hasReturned (.p2p 0) = true ∧ s.hasReturned (.p2p 1) = true ∧ s.hasReturned (.tunnel 0) = true ∧
      Along (step 4) (fun current event => ¬ (copies 4).Late current event) .initial orderly :=
  ⟨_, rfl, by decide, by decide, by decide,
    copies_never_late (show run (step 4) .initial orderly = some _ from rfl) (by decide)⟩

/-- The timer of the waiting call fires while the bridge has bytes for it. -/
def timedOut : List Event :=
  bridge ++
  [.p2p (.act 1 (.read .forth [7] none)), .p2p (.act 0 (.leave true)), .p2p (.unlist 0),
    .p2p (.act 1 (.write .forth none))]

/-- The context of a tunnel is done while its copy has bytes for the client. -/
def cancelled : List Event :=
  [.openTunnel, .tunnel 0 (.read .down [7] none), .tunnel 0 .cancel, .tunnel 0 .quit,
    .tunnel 0 (.write .down none)]

/-- Both kinds of handler return without their copies, and a copy writes afterwards. -/
theorem copies_written_late :
    (∃ s, run (step 4) .initial timedOut = some s ∧
      ¬ Along (step 4) (fun current event => ¬ (copies 4).Late current event) .initial timedOut) ∧
    ∃ s, run (step 4) .initial cancelled = some s ∧
      ¬ Along (step 4) (fun current event => ¬ (copies 4).Late current event) .initial cancelled :=
  ⟨⟨_, rfl, by decide⟩, ⟨_, rfl, by decide⟩⟩

end Relays

end Ttgo.Proxy

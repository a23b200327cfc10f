/-
**The counter of open tunnels.**

`DialContext` of `internal/client/dialer.go` counts a tunnel in `Stats.ActiveConn`, and `tunnelConn.Close` counts it
back once. `Disconnect` sets the counter to zero and does not wait for the relays, which close their tunnels later, in
the next session if there is one by then. All sessions of a client share the counter.

* `step` — any interleaving of tunnels with the calls on the client.
* `Sys.live` — the tunnels of this session that are open; `Sys.late` — those of earlier ones that were closed in it.
* `Counted` — the counter is the difference.
* `sound_iff` — it is right throughout a run exactly if there are never more late tunnels than live ones.
* `sound_of_drained` — as it is if no `Disconnect` finds a tunnel open.
-/

import Ttgo.Client.Lifecycle
import Ttgo.Lib.Counter

namespace Ttgo.Client.ActiveConn

open Ttgo.Lib

/-! ### The system -/

structure Stats where
  bytesIn : UInt64
  bytesOut : UInt64
  tunnels : Int64
  activeConn : Int32
deriving DecidableEq, Repr

inductive Phase
  | opened
  /-- `closeOnce.Do` has begun. -/
  | closing
  /-- It was counted back, after so many resets. -/
  | closed (session : Nat)
deriving DecidableEq, Repr

structure TunnelConn where
  /-- How often the counters had been reset when it was counted. -/
  session : Nat
  phase : Phase
deriving DecidableEq, Repr

def TunnelConn.hasClosed (c : TunnelConn) : Bool :=
  match c.phase with
  | .closed _ => true
  | _ => false

structure Sys where
  life : Life
  stats : Stats
  conns : List TunnelConn
  /-- How often `Disconnect` has reset the counters. -/
  resets : Nat

def Sys.start (world : World) : Sys := ⟨Life.new world, ⟨0, 0, 0, 0⟩, [], 0⟩

/-- `CheckAuth` of a `Connect` is a `dial` and a `close` before the call. -/
inductive Event
  /-- `DialContext`, from where the endpoint has answered. -/
  | dial
  | read (index : Nat) (count : UInt64)
  | write (index : Nat) (count : UInt64)
  /-- `Close` is called; only the first call does anything. -/
  | close (index : Nat)
  /-- The first `Close` comes to the counter. -/
  | countBack (index : Nat)
  | call (call : Call)

def Sys.setPhase (s : Sys) (index : Nat) (c : TunnelConn) (phase : Phase) : Sys :=
  { s with conns := s.conns.set index { c with phase } }

/-- The call is a `Disconnect` that takes effect. -/
def Sys.resetting (s : Sys) : Event → Bool
  | .call (.disconnect _ _) => s.life.client.state ≠ .disconnected
  | _ => false

def step (p : Platform) (s : Sys) : Event → Option Sys
  | .dial =>
    some { s with
      stats := { s.stats with tunnels := s.stats.tunnels + 1, activeConn := s.stats.activeConn + 1 }
      conns := s.conns ++ [⟨s.resets, .opened⟩] }
  | .read index count =>
    (s.conns[index]?).map fun _ => { s with stats := { s.stats with bytesIn := s.stats.bytesIn + count } }
  | .write index count =>
    (s.conns[index]?).map fun _ => { s with stats := { s.stats with bytesOut := s.stats.bytesOut + count } }
  | .close index =>
    (s.conns[index]?).map fun c => if c.phase = .opened then s.setPhase index c .closing else s
  | .countBack index =>
    (s.conns[index]?).bind fun c =>
      if c.phase = .closing then
        some { s.setPhase index c (.closed s.resets) with
          stats := { s.stats with activeConn := s.stats.activeConn - 1 } }
      else none
  | .call call =>
    let life := s.life.call p call
    some (if s.resetting (.call call) then { s with life, stats := ⟨0, 0, 0, 0⟩, resets := s.resets + 1 }
      else { s with life })

/-- **The counter is right**: it is not negative, and zero where every tunnel is closed. -/
def Sound (s : Sys) : Prop :=
  0 ≤ s.stats.activeConn.toInt ∧ ((∀ c ∈ s.conns, c.hasClosed = true) → s.stats.activeConn = 0)

/-! ### What the counter shows -/

/-- A tunnel of the session, if it is open: one or none. -/
def TunnelConn.live (session : Nat) (c : TunnelConn) : Nat :=
  if c.session = session ∧ c.hasClosed = false then 1 else 0

/-- A tunnel of another session, if it was closed in this one: one or none. -/
def TunnelConn.late (session : Nat) (c : TunnelConn) : Nat :=
  if c.session ≠ session ∧ c.phase = .closed session then 1 else 0

/-- **The tunnels of this session that are open.** -/
def Sys.live (s : Sys) : Nat := (s.conns.map (TunnelConn.live s.resets)).sum

/-- **The tunnels of earlier sessions that were closed in this one.** -/
def Sys.late (s : Sys) : Nat := (s.conns.map (TunnelConn.late s.resets)).sum

def Sys.value (s : Sys) : Int := s.live - s.late

/-- The sessions of a tunnel are past ones, or this one. -/
structure TunnelConn.Dated (resets : Nat) (c : TunnelConn) : Prop where
  opened : c.session ≤ resets
  closed : ∀ session, c.phase = .closed session → session ≤ resets

/-- The counter is the difference. -/
structure Counted (s : Sys) : Prop where
  dated : ∀ c ∈ s.conns, c.Dated s.resets
  shown : s.stats.activeConn = Int32.ofInt s.value

variable {p : Platform} {s next : Sys} {c : TunnelConn} {index : Nat} {event : Event}

/-! ### Steps -/

/-- **What a step does** to the tunnels and to their counter. -/
inductive Moves (s : Sys) (event : Event) (next : Sys) : Prop
  | still (conns : next.conns = s.conns) (resets : next.resets = s.resets)
      (counter : next.stats.activeConn = s.stats.activeConn)
  | opens (conns : next.conns = s.conns ++ [⟨s.resets, .opened⟩]) (resets : next.resets = s.resets)
      (counter : next.stats.activeConn = s.stats.activeConn + 1)
  | closes (index : Nat) (c : TunnelConn) (found : s.conns[index]? = some c) (stood : c.phase = .opened)
      (conns : next.conns = s.conns.set index { c with phase := .closing }) (resets : next.resets = s.resets)
      (counter : next.stats.activeConn = s.stats.activeConn)
  | counts (index : Nat) (c : TunnelConn) (found : s.conns[index]? = some c) (stood : c.phase = .closing)
      (conns : next.conns = s.conns.set index { c with phase := .closed s.resets }) (resets : next.resets = s.resets)
      (counter : next.stats.activeConn = s.stats.activeConn - 1)
  | sets (takes : s.resetting event = true) (conns : next.conns = s.conns) (resets : next.resets = s.resets + 1)
      (counter : next.stats.activeConn = 0)

theorem moves_of_step (taken : step p s event = some next) : Moves s event next := by
  cases event with
  | dial =>
    cases taken
    exact .opens rfl rfl rfl
  | read index count =>
    obtain ⟨c, -, rfl⟩ := Option.map_eq_some_iff.mp taken
    exact .still rfl rfl rfl
  | write index count =>
    obtain ⟨c, -, rfl⟩ := Option.map_eq_some_iff.mp taken
    exact .still rfl rfl rfl
  | close index =>
    obtain ⟨c, found, rfl⟩ := Option.map_eq_some_iff.mp taken
    split
    · next stood => exact .closes index c found stood rfl rfl rfl
    · exact .still rfl rfl rfl
  | countBack index =>
    obtain ⟨c, found, counted⟩ := Option.bind_eq_some_iff.mp taken
    split at counted
    · next stood =>
      cases counted
      exact .counts index c found stood rfl rfl rfl
    · cases counted
  | call call =>
    cases taken
    split
    · next takes => exact .sets takes rfl rfl rfl
    · exact .still rfl rfl rfl

theorem live_opened (session : Nat) : TunnelConn.live session ⟨session, .opened⟩ = 1 := if_pos ⟨rfl, rfl⟩

theorem late_of_not_closed (open' : c.hasClosed = false) (session : Nat) : c.late session = 0 := by
  refine if_neg fun late => ?_
  rw [TunnelConn.hasClosed, late.2] at open'
  cases open'

theorem live_late_closed (stood : c.phase = .closing) (session : Nat) :
    c.live session + TunnelConn.late session { c with phase := .closed session } =
        TunnelConn.live session { c with phase := .closed session } + c.late session + 1 := by
  have open' : c.hasClosed = false := by rw [TunnelConn.hasClosed, stood]
  rw [late_of_not_closed open']
  by_cases here : c.session = session
  · simp [TunnelConn.live, TunnelConn.late, TunnelConn.hasClosed, here, stood]
  · simp [TunnelConn.live, TunnelConn.late, here]

theorem value_reset (dated : ∀ c ∈ s.conns, c.Dated s.resets) (conns : next.conns = s.conns)
    (resets : next.resets = s.resets + 1) : next.value = 0 := by
  have live : next.live = 0 := by
    rw [Sys.live, conns, resets]
    refine List.sum_eq_zero (List.forall_mem_map.mpr fun c listed => if_neg fun here => ?_)
    have past := (dated c listed).opened
    omega
  have late : next.late = 0 := by
    rw [Sys.late, conns, resets]
    refine List.sum_eq_zero (List.forall_mem_map.mpr fun c listed => if_neg fun here => ?_)
    have past := (dated c listed).closed _ here.2
    omega
  rw [Sys.value, live, late]
  rfl

theorem value_step (dated : ∀ c ∈ s.conns, c.Dated s.resets) (moves : Moves s event next) :
    next.value = s.value ∧ next.stats.activeConn = s.stats.activeConn ∨
    next.value = s.value + 1 ∧ next.stats.activeConn = s.stats.activeConn + 1 ∨
    next.value = s.value - 1 ∧ next.stats.activeConn = s.stats.activeConn - 1 ∨
    next.value = 0 ∧ next.stats.activeConn = 0 := by
  cases moves with
  | still conns resets counter =>
    refine .inl ⟨?_, counter⟩
    rw [Sys.value, Sys.value, Sys.live, Sys.live, Sys.late, Sys.late, conns, resets]
  | opens conns resets counter =>
    refine .inr (.inl ⟨?_, counter⟩)
    have late : TunnelConn.late s.resets ⟨s.resets, .opened⟩ = 0 := late_of_not_closed rfl _
    simp only [Sys.value, Sys.live, Sys.late, conns, resets, List.map_append, List.sum_append, List.map_singleton,
      List.sum_singleton, live_opened, late]
    omega
  | closes index c found stood conns resets counter =>
    refine .inl ⟨?_, counter⟩
    have live := sum_map_set found { c with phase := .closing } (TunnelConn.live s.resets)
    have late := sum_map_set found { c with phase := .closing } (TunnelConn.late s.resets)
    have open' : c.hasClosed = false := by rw [TunnelConn.hasClosed, stood]
    have same : TunnelConn.live s.resets { c with phase := .closing } = c.live s.resets := by
      rw [TunnelConn.live, TunnelConn.live, open']
      rfl
    rw [late_of_not_closed open', late_of_not_closed rfl] at late
    simp only [Sys.value, Sys.live, Sys.late, conns, resets]
    omega
  | counts index c found stood conns resets counter =>
    refine .inr (.inr (.inl ⟨?_, counter⟩))
    have live := sum_map_set found { c with phase := .closed s.resets } (TunnelConn.live s.resets)
    have late := sum_map_set found { c with phase := .closed s.resets } (TunnelConn.late s.resets)
    have moved := live_late_closed stood s.resets
    simp only [Sys.value, Sys.live, Sys.late, conns, resets]
    omega
  | sets takes conns resets counter => exact .inr (.inr (.inr ⟨value_reset dated conns resets, counter⟩))

/-- **What holds of every tunnel**, at a number of resets, is kept by a step if it is kept by each change of one. -/
theorem forall_conns_step {good : Nat → TunnelConn → Prop} (now : ∀ c ∈ s.conns, good s.resets c)
    (moves : Moves s event next) (opens : good s.resets ⟨s.resets, .opened⟩)
    (closes : ∀ c : TunnelConn, c.phase = .opened → good s.resets c → good s.resets { c with phase := .closing })
    (counts : ∀ c : TunnelConn, c.phase = .closing → good s.resets c →
      good s.resets { c with phase := .closed s.resets })
    (sets : s.resetting event = true → ∀ c ∈ s.conns, good s.resets c → good (s.resets + 1) c) :
    ∀ c ∈ next.conns, good next.resets c := by
  cases moves with
  | still conns resets counter => rwa [conns, resets]
  | opens conns resets counter =>
    rw [conns, resets]
    intro c listed
    rcases List.mem_append.mp listed with old | new
    · exact now c old
    · rwa [List.mem_singleton.mp new]
  | closes index c found stood conns resets counter =>
    rw [conns, resets]
    intro c' listed
    rcases List.mem_or_eq_of_mem_set listed with old | rfl
    · exact now c' old
    · exact closes c stood (now c (List.mem_of_getElem? found))
  | counts index c found stood conns resets counter =>
    rw [conns, resets]
    intro c' listed
    rcases List.mem_or_eq_of_mem_set listed with old | rfl
    · exact now c' old
    · exact counts c stood (now c (List.mem_of_getElem? found))
  | sets takes conns resets counter =>
    rw [conns, resets]
    exact fun c listed => sets takes c listed (now c listed)

theorem dated_step (dated : ∀ c ∈ s.conns, c.Dated s.resets) (moves : Moves s event next) :
    ∀ c ∈ next.conns, c.Dated next.resets := by
  refine forall_conns_step dated moves ⟨le_refl _, nofun⟩ ?_ ?_ ?_
  · exact fun c _ past => ⟨past.opened, nofun⟩
  · intro c _ past
    refine ⟨past.opened, fun session closed => ?_⟩
    cases closed
    exact le_refl _
  · intro _ c _ past
    exact ⟨Nat.le_succ_of_le past.opened, fun session then' => Nat.le_succ_of_le (past.closed session then')⟩

theorem counted_start (world : World) : Counted (.start world) := ⟨fun _ none => absurd none List.not_mem_nil, rfl⟩

theorem counted_step (counted : Counted s) (taken : step p s event = some next) : Counted next := by
  have moves := moves_of_step taken
  refine ⟨dated_step counted.dated moves, ?_⟩
  rcases value_step counted.dated moves with ⟨same, counter⟩ | ⟨up, counter⟩ | ⟨down, counter⟩ | ⟨zero, counter⟩
  · rw [counter, same, counted.shown]
  · rw [counter, up, counted.shown, Int32.ofInt_add]
    rfl
  · rw [counter, down, counted.shown, Int32.ofInt_sub]
    rfl
  · rw [counter, zero]
    rfl

/-! ### Runs -/

theorem live_eq_zero (closed : ∀ c ∈ s.conns, c.hasClosed = true) : s.live = 0 := by
  refine List.sum_eq_zero (List.forall_mem_map.mpr fun c listed => if_neg fun here => ?_)
  rw [closed c listed] at here
  cases here.2

theorem sound_of_inRange (counted : Counted s) (inside : InRange s.value) : Sound s := by
  rw [Sound, counted.shown, toInt_ofInt inside]
  refine ⟨inside.1, fun closed => ?_⟩
  have none := live_eq_zero closed
  have low := inside.1
  have zero : s.value = 0 := by
    rw [Sys.value] at low ⊢
    omega
  rw [zero]
  rfl

/-- **The counter is right throughout a run** exactly if in every state the tunnels of earlier sessions that were
closed in this one are no more than the open tunnels of this session, and the difference is within the range of the
counter. -/
theorem sound_iff (p : Platform) (world : World) (events : List Event) :
    Throughout (step p) Sound (.start world) events ↔
      Throughout (step p) (fun s => s.late ≤ s.live ∧ s.live < s.late + 2147483648) (.start world) events := by
  have kept : ∀ s event next, Counted s → step p s event = some next → Counted next :=
    fun _ _ _ counted taken => counted_step counted taken
  have slow : ∀ s event next, Counted s → step p s event = some next →
      next.value = 0 ∨ s.value - 1 ≤ next.value ∧ next.value ≤ s.value + 1 := by
    intro s event next counted taken
    rcases value_step counted.dated (moves_of_step taken) with ⟨same, -⟩ | ⟨up, -⟩ | ⟨down, -⟩ | ⟨zero, -⟩
    · exact .inr (by omega)
    · exact .inr (by omega)
    · exact .inr (by omega)
    · exact .inl zero
  have range : Throughout (step p) (fun s => 0 ≤ s.stats.activeConn.toInt) (.start world) events ↔
      Throughout (step p) (fun s => InRange s.value) (.start world) events :=
    throughout_nonneg_iff kept (fun _ counted => counted.shown) slow (counted_start world) rfl
  have inside (s : Sys) : InRange s.value ↔ s.late ≤ s.live ∧ s.live < s.late + 2147483648 := by
    rw [InRange, Sys.value]
    omega
  constructor
  · intro sound before after middle split reached
    refine (inside middle).mp (range.mp ?_ before after middle split reached)
    exact fun before after middle split reached => (sound before after middle split reached).1
  · intro ordered before after middle split reached
    have counted : Counted middle := run_invariant' kept (counted_start world) reached
    exact sound_of_inRange counted ((inside middle).mpr (ordered before after middle split reached))

def homeMac : Machine := { wifiMac with fails := fun _ => false }

/-- The check of the credentials, a `Connect`, a tunnel, a `Disconnect`, and the relay closes its tunnel. -/
theorem active_conn_negative :
    let events : List Event :=
      [.dial, .close 0, .countBack 0, .call (.connect homeMac none ⟨"vpn:443", []⟩), .dial,
        .call (.disconnect homeMac none), .close 1, .countBack 1]
    ((run (step .darwin) (.start wifiBefore) events).map fun s => (s.stats.activeConn, s.conns)) =
        some (-1, [⟨0, .closed 0⟩, ⟨0, .closed 1⟩]) ∧
      ¬ Throughout (step .darwin) Sound (.start wifiBefore) events := by
  intro events
  have shown : ((run (step .darwin) (.start wifiBefore) events).map fun s => (s.stats.activeConn, s.conns)) =
      some (-1, [⟨0, .closed 0⟩, ⟨0, .closed 1⟩]) := by decide +kernel
  refine ⟨shown, fun sound => ?_⟩
  obtain ⟨s, reached, last⟩ := Option.map_eq_some_iff.mp shown
  have nonneg := (sound events [] s (List.append_nil _).symm reached).1
  rw [(Prod.mk.inj last).1] at nonneg
  exact absurd nonneg (by decide)

/-! ### Without a tunnel across a reset -/

/-- A tunnel that is open is of this session, and one that is closed was closed in its own. -/
structure TunnelConn.Kept (resets : Nat) (c : TunnelConn) : Prop where
  opened : c.hasClosed = false → c.session = resets
  closed : ∀ session, c.phase = .closed session → session = c.session

theorem kept_step (kept : ∀ c ∈ s.conns, c.Kept s.resets) (moves : Moves s event next)
    (drained : s.resetting event = true → ∀ c ∈ s.conns, c.hasClosed = true) :
    ∀ c ∈ next.conns, c.Kept next.resets := by
  refine forall_conns_step kept moves ⟨fun _ => rfl, nofun⟩ ?_ ?_ ?_
  · intro c stood own
    have open' : c.hasClosed = false := by rw [TunnelConn.hasClosed, stood]
    exact ⟨fun _ => own.opened open', nofun⟩
  · intro c stood own
    have open' : c.hasClosed = false := by rw [TunnelConn.hasClosed, stood]
    refine ⟨fun still => (by cases still), fun session closed => ?_⟩
    cases closed
    exact (own.opened open').symm
  · intro takes c listed own
    refine ⟨fun still => ?_, own.closed⟩
    rw [drained takes c listed] at still
    cases still

theorem late_eq_zero (kept : ∀ c ∈ s.conns, c.Kept s.resets) : s.late = 0 := by
  refine List.sum_eq_zero (List.forall_mem_map.mpr fun c listed => if_neg fun here => ?_)
  exact here.1 ((kept c listed).closed _ here.2).symm

/-- **The counter is right in every run** in which a `Disconnect` takes effect only when all tunnels are closed, and
fewer than 2^31 are open at a time. -/
theorem sound_of_drained {world : World} {events : List Event}
    (drained : Along (step p) (fun s event => s.resetting event = true → ∀ c ∈ s.conns, c.hasClosed = true)
      (.start world) events)
    (few : Throughout (step p) (fun s => s.live < 2147483648) (.start world) events) :
    Throughout (step p) Sound (.start world) events := by
  have kept : Throughout (step p) (fun s => ∀ c ∈ s.conns, c.Kept s.resets) (.start world) events :=
    throughout_invariant (fun _ _ _ drained kept taken => kept_step kept (moves_of_step taken) drained) drained
      fun _ none => absurd none List.not_mem_nil
  intro before after middle split reached
  have counted : Counted middle :=
    run_invariant' (fun _ _ _ counted taken => counted_step counted taken) (counted_start world) reached
  refine sound_of_inRange counted ?_
  have none := late_eq_zero (kept before after middle split reached)
  have bound : middle.live < 2147483648 := few before after middle split reached
  rw [InRange, Sys.value]
  omega

end Ttgo.Client.ActiveConn

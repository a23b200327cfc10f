/-
**The gauge of open tunnels.**

`open_tunnels` of a session is meant to be the number of its current tunnels. `TunnelOpened` and `TunnelClosed`
count on the entry that the connection has at that moment, and `Register` gives the connection a new entry
with every stream, at zero. A tunnel over HTTP/1.1 is counted on no entry.

* `tunnelsOn` — the tunnels on a connection that were opened and not yet closed.
* `GaugeExact` — every entry shows that number.
* `Gauged` — a stream is registered on a connection without tunnels, a tunnel opened within the range of
  the counter, and a connection with an entry has no tunnels over HTTP/1.1.
* `gaugeExact_iff` — the gauge is exact throughout a run exactly if every step is gauged.
-/

import Ttgo.Proxy.DeviceLimit

namespace Ttgo.Proxy

open Ttgo.Auth Ttgo.Lib Ttgo.Server

/-- The stream has a tunnel on the connection: one or none. -/
def Stream.tunnelsOn (conn : NetConn) (x : Stream) : Nat :=
  if x.phase = .tunnelling ∧ x.conn = some conn then 1 else 0

/-- **The open tunnels of a connection.** -/
def tunnelsOn (conn : NetConn) (streams : List Stream) : Nat := (streams.map (Stream.tunnelsOn conn)).sum

def gauge (t : ConnTracker) (conn : NetConn) : Option Int32 :=
  (t.entries.lookup conn).map ConnEntry.openTunnels

def GaugeExact (s : Sys) : Prop :=
  ∀ conn open', gauge s.tracker conn = some open' →
    0 ≤ open'.toInt ∧ open'.toInt = tunnelsOn conn s.streams

def Sys.opening (s : Sys) : Event → Option Stream
  | .act index .tunnelOpened => s.streams[index]?
  | _ => none

def Sys.shutting (s : Sys) : Event → Option Stream
  | .act index .tunnelClosed => s.streams[index]?
  | _ => none

/-- **A gauged step**: a stream is registered on a connection without tunnels; and on a connection with an
entry, a tunnel is opened or closed by a request that is not of HTTP/1.1, and opened within the range of the
counter. -/
def Gauged (s : Sys) (event : Event) : Prop :=
  (∀ x ∈ s.registering event, ∀ conn ∈ x.conn, tunnelsOn conn s.streams = 0) ∧
    (∀ x ∈ s.opening event, ∀ conn ∈ x.conn, (gauge s.tracker conn).isSome →
      x.http1 = false ∧ tunnelsOn conn s.streams + 1 < 2 ^ 31) ∧
    ∀ x ∈ s.shutting event, ∀ conn ∈ x.conn, (gauge s.tracker conn).isSome → x.http1 = false

instance (s : Sys) (event : Event) : Decidable (Gauged s event) :=
  inferInstanceAs (Decidable ((∀ x ∈ s.registering event, _) ∧ (∀ x ∈ s.opening event, _) ∧
    ∀ x ∈ s.shutting event, _))

/-! ### What each method does to the counters -/

section Gauge

variable (t : ConnTracker) (username : String) (conn at' : NetConn)

theorem gauge_register :
    gauge (t.register username (some conn)) at' = if at' = conn then some 0 else gauge t at' := by
  simp only [gauge, ConnTracker.register, GoMap.lookup_insert_ite]
  split <;> rfl

theorem gauge_unregister :
    gauge (t.unregister username (some conn)) at' = if at' = conn then none else gauge t at' := by
  simp only [gauge, ConnTracker.unregister, GoMap.lookup_erase_ite]
  split <;> rfl

theorem gauge_setEntry (e : ConnEntry) :
    gauge (t.setEntry (some conn) e) at' = if at' = conn then some e.openTunnels else gauge t at' := by
  simp only [gauge, ConnTracker.setEntry, GoMap.lookup_insert_ite]
  split <;> rfl

@[simp] theorem gauge_updateTotals (update : UserTotals → UserTotals) :
    gauge (t.updateTotals username update) at' = gauge t at' := by
  unfold ConnTracker.updateTotals
  split <;> rfl

/-- A method that counts on the entry of the connection, if there is one. -/
theorem gauge_counts {t' : ConnTracker} (count : Int32 → Int32)
    (absent : t.connEntryFor (some conn) = none → gauge t' at' = gauge t at')
    (present : ∀ e, t.connEntryFor (some conn) = some e →
      gauge t' at' = if at' = conn then some (count e.openTunnels) else gauge t at') :
    gauge t' at' = if at' = conn then (gauge t conn).map count else gauge t at' := by
  cases found : t.connEntryFor (some conn) with
  | none =>
    have none : gauge t conn = none := congrArg (Option.map ConnEntry.openTunnels) found
    rw [absent found]
    split
    · next here => rw [here, none, Option.map_none]
    · rfl
  | some e =>
    have some : gauge t conn = some e.openTunnels := congrArg (Option.map ConnEntry.openTunnels) found
    rw [present e found, some, Option.map_some]

theorem gauge_tunnelOpened :
    gauge (t.tunnelOpened (some conn)) at' =
      if at' = conn then (gauge t conn).map (· + 1) else gauge t at' := by
  refine gauge_counts t conn at' _ (fun found => ?_) fun e found => ?_
  · rw [ConnTracker.tunnelOpened, found]
  · simp only [ConnTracker.tunnelOpened, found, gauge_updateTotals, gauge_setEntry]

theorem gauge_tunnelClosed :
    gauge (t.tunnelClosed (some conn)) at' =
      if at' = conn then (gauge t conn).map (· - 1) else gauge t at' := by
  refine gauge_counts t conn at' _ (fun found => ?_) fun e found => ?_
  · rw [ConnTracker.tunnelClosed, found]
  · simp only [ConnTracker.tunnelClosed, found, gauge_setEntry]

theorem gauge_addBytesEntry (conn : Option NetConn) (bytesIn bytesOut : UInt64) :
    gauge (t.addBytesEntry conn bytesIn bytesOut) at' = gauge t at' := by
  unfold ConnTracker.addBytesEntry
  split
  · rfl
  · next e found =>
    cases conn with
    | none => rfl
    | some conn =>
      rw [gauge_setEntry]
      split
      · next here => rw [here, gauge, show t.entries.lookup conn = some e from found, Option.map_some]
      · rfl

theorem gauge_resetUserTraffic : gauge (t.resetUserTraffic username) at' = gauge t at' := by
  have kept : ∀ e : ConnEntry, (if e.username = username then { e with bytesIn := 0, bytesOut := 0 }
      else e).openTunnels = e.openTunnels := by
    intro e
    split <;> rfl
  have cleared := gauge_updateTotals t username at' fun totals =>
    { totals with bytesIn := 0, bytesOut := 0, flushedBytes := 0 }
  rw [← cleared]
  simp only [gauge, ConnTracker.resetUserTraffic, GoMap.lookup_mapValues, Option.map_map,
    Function.comp_def, kept]

theorem gauge_kickSession (remoteAddr reason : String) :
    gauge (t.kickSession username remoteAddr reason).1 at' = gauge t at' := by
  unfold ConnTracker.kickSession
  split <;> rfl

end Gauge

/-! ### Counters and numbers -/

theorem toInt_succ {open' : Int32} {number : Nat} (same : open'.toInt = number) :
    (0 ≤ (open' + 1).toInt ∧ (open' + 1).toInt = (number + 1 : Nat)) ↔ number + 1 < 2 ^ 31 := by
  have range := open'.toInt_lt
  rw [Int32.toInt_add, same, show (1 : Int32).toInt = 1 from rfl]
  rw [same] at range
  simp only [Int.bmod_def]
  omega

theorem toInt_pred {open' : Int32} {number : Nat} (same : open'.toInt = (number + 1 : Nat)) :
    0 ≤ (open' - 1).toInt ∧ (open' - 1).toInt = number := by
  have range := open'.toInt_lt
  rw [Int32.toInt_sub, same, show (1 : Int32).toInt = 1 from rfl]
  rw [same] at range
  simp only [Int.bmod_def]
  omega

/-! ### Steps -/

variable {s next : Sys} {x x' : Stream} {index : Nat}

theorem tunnelsOn_set (conn : NetConn) (found : s.streams[index]? = some x) (new : Stream) :
    tunnelsOn conn (s.streams.set index new) + x.tunnelsOn conn =
      tunnelsOn conn s.streams + new.tunnelsOn conn :=
  sum_map_set found new (Stream.tunnelsOn conn)

theorem gaugeExact_same (exactly : GaugeExact s)
    (counters : ∀ conn, gauge next.tracker conn = gauge s.tracker conn)
    (tunnels : ∀ conn, tunnelsOn conn next.streams = tunnelsOn conn s.streams) : GaugeExact next := by
  intro conn open' reads
  rw [counters] at reads
  rw [tunnels]
  exact exactly conn open' reads

theorem tunnelsOn_still (found : s.streams[index]? = some x) (conn : NetConn)
    (same : x'.tunnelsOn conn = x.tunnelsOn conn) :
    tunnelsOn conn (s.streams.set index x') = tunnelsOn conn s.streams := by
  have moved := tunnelsOn_set conn found x'
  omega

theorem tunnelsOn_outside {conn : NetConn} (before : x.phase ≠ .tunnelling)
    (after : x'.phase ≠ .tunnelling) : x'.tunnelsOn conn = x.tunnelsOn conn := by
  simp only [Stream.tunnelsOn, before, after, false_and]

theorem tunnelsOn_setCopy (conn : NetConn) (new : Copy) (dir : Dir) :
    (x.setCopy new dir).tunnelsOn conn = x.tunnelsOn conn := by
  simp only [Stream.tunnelsOn, phase_setCopy, conn_setCopy]

theorem gauged_other {event : Event} (register : s.registering event = none)
    (opened : s.opening event = none) (closed : s.shutting event = none) : Gauged s event :=
  ⟨fun _ registers => absurd registers (by simp [register]),
    fun _ opens => absurd opens (by simp [opened]), fun _ closes => absurd closes (by simp [closed])⟩

variable {conn : Option NetConn} {streams : List Stream}

/-- The tunnels of a connection change, and no counter does. -/
theorem gaugeExact_uncounted (exactly : GaugeExact s)
    (changed : ∀ at', tunnelsOn at' streams = tunnelsOn at' s.streams ↔ conn ≠ some at') :
    GaugeExact { s with streams } ↔ ∀ here ∈ conn, (gauge s.tracker here).isSome = false := by
  constructor
  · rintro after here rfl
    refine Bool.eq_false_iff.mpr fun has => ?_
    obtain ⟨open', reads⟩ := Option.isSome_iff_exists.mp has
    have shown := (after here open' reads).2
    rw [(exactly here open' reads).2] at shown
    exact (changed here).mp (Int.ofNat_inj.mp shown.symm) rfl
  · intro absent at' open' reads
    have other : conn ≠ some at' := by
      rintro rfl
      exact absurd (absent at' rfl) (by rw [reads]; simp)
    rw [(changed at').mpr other]
    exact exactly at' open' reads

theorem gaugeExact_register (exactly : GaugeExact s) (user : String)
    (tunnels : ∀ at', tunnelsOn at' streams = tunnelsOn at' s.streams) :
    GaugeExact { s with tracker := s.tracker.register user conn, streams } ↔
      ∀ here ∈ conn, tunnelsOn here s.streams = 0 := by
  cases conn with
  | none =>
    refine iff_of_true ?_ (fun _ none => nomatch none)
    exact gaugeExact_same exactly (fun _ => rfl) tunnels
  | some here =>
    constructor
    · rintro after _ ⟨⟩
      have shown := (after here 0 (by rw [gauge_register, if_pos rfl])).2
      rw [tunnels] at shown
      exact Int.ofNat_eq_zero.mp shown.symm
    · intro none at' open' reads
      rw [tunnels]
      rw [gauge_register] at reads
      split at reads
      · next same =>
        cases reads
        rw [same, none here rfl]
        exact ⟨le_refl _, rfl⟩
      · exact exactly at' open' reads

theorem gaugeExact_tunnelOpened (exactly : GaugeExact s)
    (tunnels : ∀ at', tunnelsOn at' streams =
      tunnelsOn at' s.streams + if conn = some at' then 1 else 0) :
    GaugeExact { s with tracker := s.tracker.tunnelOpened conn, streams } ↔
      ∀ here ∈ conn, (gauge s.tracker here).isSome → tunnelsOn here s.streams + 1 < 2 ^ 31 := by
  cases conn with
  | none =>
    refine iff_of_true ?_ (fun _ none => nomatch none)
    exact gaugeExact_same exactly (fun _ => rfl) tunnels
  | some here =>
    constructor
    · rintro after _ ⟨⟩ has
      obtain ⟨open', reads⟩ := Option.isSome_iff_exists.mp has
      have shown := after here (open' + 1) (by rw [gauge_tunnelOpened, if_pos rfl, reads]; rfl)
      rw [tunnels, if_pos rfl] at shown
      exact (toInt_succ (exactly here open' reads).2).mp shown
    · intro inRange at' open' reads
      rw [tunnels]
      rw [gauge_tunnelOpened] at reads
      split at reads
      · next same =>
        obtain ⟨old, had, rfl⟩ := Option.map_eq_some_iff.mp reads
        subst same
        rw [if_pos rfl]
        exact (toInt_succ (exactly at' old had).2).mpr (inRange at' rfl (by rw [had]; rfl))
      · next other =>
        rw [if_neg fun same => other (Option.some.inj same).symm]
        exact exactly at' open' reads

theorem gaugeExact_tunnelClosed (exactly : GaugeExact s)
    (tunnels : ∀ at', tunnelsOn at' s.streams =
      tunnelsOn at' streams + if conn = some at' then 1 else 0) :
    GaugeExact { s with tracker := s.tracker.tunnelClosed conn, streams } := by
  intro at' open' reads
  cases conn with
  | none =>
    have shown := exactly at' open' reads
    rwa [tunnels] at shown
  | some here =>
    rw [gauge_tunnelClosed] at reads
    split at reads
    · next same =>
      obtain ⟨old, had, rfl⟩ := Option.map_eq_some_iff.mp reads
      subst same
      have shown := (exactly at' old had).2
      rw [tunnels, if_pos rfl] at shown
      exact toInt_pred shown
    · next other =>
      have shown := exactly at' open' reads
      rwa [tunnels, if_neg fun same => other (Option.some.inj same).symm] at shown

theorem gaugeExact_opens (exactly : GaugeExact s)
    (tunnels : ∀ at', tunnelsOn at' streams =
      tunnelsOn at' s.streams + if x.conn = some at' then 1 else 0) :
    GaugeExact { s with tracker := s.tracker.tunnelOpened x.countsOn, streams } ↔
      ∀ here ∈ x.conn, (gauge s.tracker here).isSome →
        x.http1 = false ∧ tunnelsOn here s.streams + 1 < 2 ^ 31 := by
  cases hijacked : x.http1 with
  | false => simpa [Stream.countsOn, hijacked] using gaugeExact_tunnelOpened exactly tunnels
  | true =>
    have changed (at' : NetConn) : tunnelsOn at' streams = tunnelsOn at' s.streams ↔ x.conn ≠ some at' := by
      rw [tunnels]
      split <;> simp_all
    simpa [Stream.countsOn, hijacked, ConnTracker.tunnelOpened, ConnTracker.connEntryFor] using
      gaugeExact_uncounted exactly changed

theorem gaugeExact_closes (exactly : GaugeExact s)
    (tunnels : ∀ at', tunnelsOn at' s.streams =
      tunnelsOn at' streams + if x.conn = some at' then 1 else 0) :
    GaugeExact { s with tracker := s.tracker.tunnelClosed x.countsOn, streams } ↔
      ∀ here ∈ x.conn, (gauge s.tracker here).isSome → x.http1 = false := by
  cases hijacked : x.http1 with
  | false => simpa [Stream.countsOn, hijacked] using gaugeExact_tunnelClosed exactly tunnels
  | true =>
    have changed (at' : NetConn) : tunnelsOn at' streams = tunnelsOn at' s.streams ↔ x.conn ≠ some at' := by
      rw [tunnels]
      split <;> simp_all
    simpa [Stream.countsOn, hijacked, ConnTracker.tunnelClosed, ConnTracker.connEntryFor] using
      gaugeExact_uncounted exactly changed

theorem gaugeExact_unregister (exactly : GaugeExact s) (user : String)
    (tunnels : ∀ at', tunnelsOn at' streams = tunnelsOn at' s.streams) :
    GaugeExact { s with tracker := s.tracker.unregister user conn, streams } := by
  intro at' open' reads
  rw [tunnels]
  cases conn with
  | none => exact exactly at' open' reads
  | some here =>
    rw [gauge_unregister, Option.ite_none_left_eq_some] at reads
    exact exactly at' open' reads.2

theorem gaugeExact_act {action : Action} {t' : ConnTracker} (exactly : GaugeExact s)
    (found : s.streams[index]? = some x) (acted : x.act s.tracker action = some (t', x')) :
    GaugeExact { s with tracker := t', streams := s.streams.set index x' } ↔
      Gauged s (.act index action) := by
  have still : (∀ conn, gauge t' conn = gauge s.tracker conn) →
      (∀ conn, x'.tunnelsOn conn = x.tunnelsOn conn) →
      GaugeExact { s with tracker := t', streams := s.streams.set index x' } := fun counters tunnels =>
    gaugeExact_same exactly counters fun conn => tunnelsOn_still found conn (tunnels conn)
  cases acted_of_act acted with
  | isRevoked stood =>
    refine iff_of_true (still (fun _ => rfl) fun conn => tunnelsOn_outside (by simp [stood]) ?_)
      (gauged_other rfl rfl rfl)
    cases s.tracker.isRevoked x.conn <;> simp [Stream.afterRevoked]
  | checkExt res stood =>
    refine iff_of_true (still (fun _ => rfl) fun conn => tunnelsOn_outside (by simp [stood]) ?_)
      (gauged_other rfl rfl rfl)
    simp only [Stream.afterAuth]
    split_ifs <;> simp
  | isKnown stood =>
    refine iff_of_true (still (fun _ => rfl) fun conn => tunnelsOn_outside (by simp [stood]) ?_)
      (gauged_other rfl rfl rfl)
    simp only [Stream.afterKnown]
    split_ifs <;> simp
  | countUser stood =>
    refine iff_of_true (still (fun _ => rfl) fun conn => tunnelsOn_outside (by simp [stood]) ?_)
      (gauged_other rfl rfl rfl)
    simp only [Stream.afterCount]
    split_ifs <;> simp
  | register active stood =>
    have gauged : Gauged s (.act index .register) ↔ ∀ here ∈ x.conn, tunnelsOn here s.streams = 0 := by
      simp [Gauged, Sys.registering, Sys.opening, Sys.shutting, found]
    rw [gauged]
    exact gaugeExact_register exactly x.user fun at' =>
      tunnelsOn_still found at' (tunnelsOn_outside (by simp [stood]) (by simp))
  | tunnelOpened stood =>
    have gauged : Gauged s (.act index .tunnelOpened) ↔ ∀ here ∈ x.conn,
        (gauge s.tracker here).isSome → x.http1 = false ∧ tunnelsOn here s.streams + 1 < 2 ^ 31 := by
      simp [Gauged, Sys.registering, Sys.opening, Sys.shutting, found]
    rw [gauged]
    refine gaugeExact_opens exactly fun at' => ?_
    have moved := tunnelsOn_set at' found
      { x with phase := .tunnelling, up := .copying 0, down := .copying 0 }
    simpa [Stream.tunnelsOn, stood] using moved
  | tunnelClosed stood =>
    have gauged : Gauged s (.act index .tunnelClosed) ↔ ∀ here ∈ x.conn,
        (gauge s.tracker here).isSome → x.http1 = false := by
      simp [Gauged, Sys.registering, Sys.opening, Sys.shutting, found]
    rw [gauged]
    refine gaugeExact_closes exactly fun at' => ?_
    have moved := tunnelsOn_set at' found { x with phase := .tunnelClosed }
    simpa [Stream.tunnelsOn, stood] using moved.symm
  | unregister stood =>
    refine iff_of_true (gaugeExact_unregister exactly x.user fun at' =>
      tunnelsOn_still found at' (tunnelsOn_outside ?_ (by simp))) (gauged_other rfl rfl rfl)
    rcases stood with stood | stood <;> simp [stood]
  | copied dir bytes before stood =>
    exact iff_of_true (still (fun _ => rfl) fun conn => tunnelsOn_setCopy conn _ dir)
      (gauged_other rfl rfl rfl)
  | copyEnds dir bytes stood =>
    exact iff_of_true (still (fun _ => gauge_addBytesEntry ..) fun conn => tunnelsOn_setCopy conn _ dir)
      (gauged_other rfl rfl rfl)
  | credit dir owner bytes stood =>
    exact iff_of_true (still (fun _ => gauge_updateTotals ..) fun conn => tunnelsOn_setCopy conn _ dir)
      (gauged_other rfl rfl rfl)

theorem gaugeExact_step (s : Sys) (event : Event) (next : Sys) (exactly : GaugeExact s)
    (taken : step s event = some next) : GaugeExact next ↔ Gauged s event := by
  cases event with
  | act index action =>
    obtain ⟨x, t', x', found, acted, rfl⟩ := step_act taken
    exact gaugeExact_act exactly found acted
  | arrive conn http1 =>
    obtain ⟨-, taken⟩ := Option.ite_none_left_eq_some.mp taken
    cases taken
    refine iff_of_true (gaugeExact_same exactly (fun _ => rfl) fun at' => ?_) (gauged_other rfl rfl rfl)
    simp [tunnelsOn, Stream.tunnelsOn]
  | kickUser user reason =>
    cases taken
    exact iff_of_true (gaugeExact_same exactly (fun _ => rfl) fun _ => rfl) (gauged_other rfl rfl rfl)
  | kickSession user remoteAddr reason =>
    cases taken
    exact iff_of_true (gaugeExact_same exactly (fun _ => gauge_kickSession ..) fun _ => rfl)
      (gauged_other rfl rfl rfl)
  | kickFires index =>
    simp only [step, Option.bind_eq_bind, Option.bind_eq_some_iff, Option.pure_def,
      Option.some.injEq] at taken
    obtain ⟨list, -, rfl⟩ := taken
    exact iff_of_true (gaugeExact_same exactly (fun _ => rfl) fun _ => rfl) (gauged_other rfl rfl rfl)
  | close conn =>
    cases taken
    exact iff_of_true (gaugeExact_same exactly (fun _ => rfl) fun _ => rfl) (gauged_other rfl rfl rfl)
  | resetUserTraffic user =>
    cases taken
    exact iff_of_true (gaugeExact_same exactly (fun _ => gauge_resetUserTraffic ..) fun _ => rfl)
      (gauged_other rfl rfl rfl)

/-- **The gauge of open tunnels** is exact in every state of a run exactly if every stream is registered on a
connection without tunnels, no counter leaves its range, and tunnels over HTTP/1.1 are opened and closed on
connections without an entry. -/
theorem gaugeExact_iff {events : List Event} (reached : run step .initial events = some s) :
    Throughout step GaugeExact .initial events ↔ Along step Gauged .initial events :=
  throughout_iff_along gaugeExact_step (fun _ _ reads => nomatch reads) reached

/-- Two tunnels of one connection, one after the other. -/
def tunnelsInTurn : List Event :=
  entering 0 laptop "alice" 0 ++ [.act 0 .isKnown, .act 0 .register, .act 0 .tunnelOpened,
    .act 0 .tunnelClosed, .act 0 .unregister] ++
  entering 1 laptop "alice" 0 ++ [.act 1 .isKnown, .act 1 .register, .act 1 .tunnelOpened]

theorem gaugeExact_tunnelsInTurn :
    ∃ s, run step .initial tunnelsInTurn = some s ∧ gauge s.tracker laptop = some 1 ∧
      Throughout step GaugeExact .initial tunnelsInTurn :=
  ⟨_, rfl, by decide, (gaugeExact_iff (show run step .initial tunnelsInTurn = some _ from rfl)).mpr
    (by decide)⟩

/-- A connection with a tunnel, on which a second request is registered. -/
def secondRequest : List Event :=
  entering 0 laptop "alice" 0 ++ [.act 0 .isKnown, .act 0 .register, .act 0 .tunnelOpened] ++
  entering 1 laptop "alice" 0 ++ [.act 1 .isKnown, .act 1 .register]

/-- **A negative gauge.** One tunnel is open, and the gauge shows none; the tunnel is closed, and the gauge
shows minus one. -/
theorem gauge_negative :
    ∃ s s', run step .initial secondRequest = some s ∧ step s (.act 0 .tunnelClosed) = some s' ∧
      tunnelsOn laptop s.streams = 1 ∧ gauge s.tracker laptop = some 0 ∧
      tunnelsOn laptop s'.streams = 0 ∧ gauge s'.tracker laptop = some (-1) :=
  ⟨_, _, rfl, rfl, by decide, by decide, by decide, by decide⟩

end Ttgo.Proxy

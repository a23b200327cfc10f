/-
**Which object of a connection is used.**

The tracker keeps the TCP connection that `ConnContextFunc` finds under the TLS connection. A kick writes to it, below
TLS; a tunnel over HTTP/1.1 is accounted under the hijacked TLS connection, which is another key.

* `Wire` — the process with what is written to the sockets; `goawayFrame`, `kickWrites` — what a kick writes.
* `onlyTLS_iff` — only the TLS layer writes exactly as long as every kick finds its connections closed.
* `accountTunnel` — what the tracker is told of one tunnel; `http1Account`, `http2Account` — over the two protocols.
* `accountedAlike_iff` — they are accounted alike exactly where the connection has no entry.
-/

import Ttgo.Proxy.Handler
import Ttgo.Server.Listener

namespace Ttgo.Proxy

open Ttgo.Lib Ttgo.Server

/-! ### What is written -/

def goawayFrame (lastStreamID errorCode : UInt32) : List UInt8 :=
  let bigEndian (n : UInt32) : List UInt8 :=
    [(n >>> 24).toUInt8, (n >>> 16).toUInt8, (n >>> 8).toUInt8, n.toUInt8]
  [0, 0, 8, 0x7, 0] ++ bigEndian 0 ++ bigEndian (lastStreamID &&& 0x7FFFFFFF) ++ bigEndian errorCode

/-- The loop of `scheduleKick`: a write to a closed connection fails. -/
def kickWrites (closed : List NetConn) : List NetConn → List (NetConn × Written)
  | [] => []
  | conn :: rest =>
    if conn ∈ closed then kickWrites closed rest
    else (NetObj.tcp conn).write (goawayFrame 0 0x1F) :: kickWrites (conn :: closed) rest

/-- The process, and what was written to the sockets. -/
structure Wire where
  sys : Sys
  log : List (NetConn × Written)

inductive WireEvent
  | proxy (event : Event)
  /-- The server writes a part of a response. -/
  | respond (c : Accepted) (bytes : List UInt8)

namespace Wire

def initial : Wire := ⟨.initial, []⟩

def writes (s : Sys) : Event → List (NetConn × Written)
  | .kickFires index => kickWrites s.closed ((s.scheduled[index]?).getD [])
  | _ => []

def step (w : Wire) : WireEvent → Option Wire
  | .proxy event => (Proxy.step w.sys event).map fun sys => ⟨sys, w.log ++ writes w.sys event⟩
  | .respond c bytes =>
    if c.tcp ∈ w.sys.closed then none else some { w with log := w.log ++ [c.object.write bytes] }

/-- **Only the TLS layer writes**: everything on the sockets is a record. -/
def OnlyTLS (w : Wire) : Prop := ∀ entry ∈ w.log, ∃ payload, entry.2 = .record payload

/-- A kick finds its connections closed. -/
def KicksClosed (w : Wire) : WireEvent → Prop
  | .proxy (.kickFires index) => ∀ list ∈ w.sys.scheduled[index]?, ∀ conn ∈ list, conn ∈ w.sys.closed
  | _ => True

instance (w : Wire) : ∀ event, Decidable (KicksClosed w event)
  | .proxy (.kickFires index) =>
    inferInstanceAs (Decidable (∀ list ∈ w.sys.scheduled[index]?, ∀ conn ∈ list, conn ∈ w.sys.closed))
  | .proxy (.arrive _ _) | .proxy (.act _ _) | .proxy (.kickUser _ _) | .proxy (.kickSession _ _ _)
  | .proxy (.close _) | .proxy (.resetUserTraffic _) | .respond _ _ => .isTrue trivial

variable {w next final : Wire} {event : WireEvent}

theorem kickWrites_raw {closed list : List NetConn} :
    ∀ entry ∈ kickWrites closed list, ∃ bytes, entry.2 = .raw bytes := by
  induction list generalizing closed with
  | nil => exact fun _ member => absurd member List.not_mem_nil
  | cons conn rest ih =>
    rw [kickWrites]
    split
    · exact ih
    · rw [List.forall_mem_cons]
      exact ⟨⟨_, rfl⟩, ih⟩

theorem kickWrites_eq_nil_iff {closed list : List NetConn} :
    kickWrites closed list = [] ↔ ∀ conn ∈ list, conn ∈ closed := by
  induction list with
  | nil => simp [kickWrites]
  | cons conn rest ih =>
    rw [kickWrites, List.forall_mem_cons]
    split
    · next shut => rw [ih, and_iff_right shut]
    · next opened => exact iff_of_false (List.cons_ne_nil _ _) fun both => opened both.1

theorem onlyTLS_append {sys : Sys} {more : List (NetConn × Written)} (only : OnlyTLS w)
    (raw : ∀ entry ∈ more, ∃ bytes, entry.2 = .raw bytes) : OnlyTLS ⟨sys, w.log ++ more⟩ ↔ more = [] := by
  constructor
  · intro records
    refine List.eq_nil_iff_forall_not_mem.mpr fun entry member => ?_
    obtain ⟨bytes, isRaw⟩ := raw entry member
    obtain ⟨payload, isRecord⟩ := records entry (List.mem_append_right _ member)
    rw [isRaw] at isRecord
    cases isRecord
  · rintro rfl
    rw [OnlyTLS, List.append_nil]
    exact only

theorem writes_raw (s : Sys) (event : Event) : ∀ entry ∈ writes s event, ∃ bytes, entry.2 = .raw bytes := by
  unfold writes
  split
  · exact kickWrites_raw
  · exact fun _ member => absurd member List.not_mem_nil

theorem writes_eq_nil_iff (w : Wire) (event : Event) : writes w.sys event = [] ↔ KicksClosed w (.proxy event) := by
  cases event with
  | kickFires index =>
    rw [writes, kickWrites_eq_nil_iff, KicksClosed]
    cases w.sys.scheduled[index]? with
    | none => simp
    | some list => simp
  | _ => exact iff_of_true rfl trivial

theorem onlyTLS_step (only : OnlyTLS w) (taken : step w event = some next) :
    OnlyTLS next ↔ KicksClosed w event := by
  cases event with
  | respond c bytes =>
    obtain ⟨-, taken⟩ := Option.ite_none_left_eq_some.mp taken
    cases taken
    refine iff_of_true ?_ trivial
    exact List.forall_mem_append.mpr ⟨only, List.forall_mem_singleton.mpr ⟨bytes, rfl⟩⟩
  | proxy event =>
    obtain ⟨sys, moved, rfl⟩ := Option.map_eq_some_iff.mp taken
    exact (onlyTLS_append only (writes_raw w.sys event)).trans (writes_eq_nil_iff w event)

/-- **Only the TLS layer writes exactly as long as every kick finds its connections closed.** -/
theorem onlyTLS_iff (events : List WireEvent) (ran : run step initial events = some final) :
    Throughout step OnlyTLS initial events ↔ Along step KicksClosed initial events :=
  throughout_iff_along (fun _ _ _ only taken => onlyTLS_step only taken)
    (fun _ member => absurd member List.not_mem_nil) ran

def accepted : Accepted := ⟨laptop, ⟨11, "192.0.2.1:4000"⟩, ⟨12, "192.0.2.1:4000"⟩, []⟩

/-- A user is kicked, with a tunnel on the connection. -/
def kicked : List WireEvent :=
  (entering 0 laptop "alice" 0).map .proxy ++
    [.proxy (.act 0 .isKnown), .proxy (.act 0 .register), .respond accepted [1], .proxy (.kickUser "alice" "kicked")]

theorem onlyTLS_closed :
    Throughout step OnlyTLS initial (kicked ++ [.proxy (.close laptop), .proxy (.kickFires 0)]) := by
  obtain ⟨final, ran⟩ : ∃ final, run step initial
      (kicked ++ [.proxy (.close laptop), .proxy (.kickFires 0)]) = some final := ⟨_, rfl⟩
  exact (onlyTLS_iff _ ran).mpr (by decide)

/-- **A kick writes its frame to the socket**, between the records of the connection. -/
theorem kick_writes_raw :
    ∃ final, run step initial (kicked ++ [.proxy (.kickFires 0)]) = some final ∧
      final.log = [(laptop, .record [1]), (laptop, .raw [0, 0, 8, 7, 0, 0, 0, 0, 0, 0, 0, 0, 0, 0, 0, 0, 0x1F])] ∧
      ¬ Throughout step OnlyTLS initial (kicked ++ [.proxy (.kickFires 0)]) := by
  obtain ⟨final, ran, log⟩ : ∃ final, run step initial (kicked ++ [.proxy (.kickFires 0)]) = some final ∧
      final.log = [(laptop, .record [1]), (laptop, .raw [0, 0, 8, 7, 0, 0, 0, 0, 0, 0, 0, 0, 0, 0, 0, 0, 0x1F])] :=
    ⟨_, rfl, by decide⟩
  refine ⟨final, ran, log, fun only => ?_⟩
  have records := only _ [] final (List.append_nil _).symm ran
  rw [OnlyTLS, log] at records
  obtain ⟨payload, isRecord⟩ := records _ (List.mem_cons_of_mem _ (List.mem_singleton_self _))
  cases isRecord

end Wire

/-! ### Accounting -/

/-- What the tracker is told of one tunnel: that it is opened, the bytes of the two copies in either order, and that it
is closed. -/
def accountTunnel (t : ConnTracker) (conn : Option NetConn) (upFirst : Bool) (up down : Nat) : ConnTracker :=
  let opened := t.tunnelOpened conn
  let copied :=
    if upFirst then (opened.addBytes conn (UInt64.ofNat up) 0).addBytes conn 0 (UInt64.ofNat down)
    else (opened.addBytes conn 0 (UInt64.ofNat down)).addBytes conn (UInt64.ofNat up) 0
  copied.tunnelClosed conn

/-- `serveHTTP1Tunnel`: the hijacked connection. -/
def http1Account (t : ConnTracker) (c : Accepted) : Bool → Nat → Nat → ConnTracker :=
  accountTunnel t (some c.object.self)

/-- `handleTCPTunnel` over HTTP/2: the raw connection of the context. -/
def http2Account (t : ConnTracker) (c : Accepted) : Bool → Nat → Nat → ConnTracker :=
  accountTunnel t (connContextFunc c.object).rawConn

/-- Every user has the same totals, and the connection the same entry. -/
structure AccountedAlike (t t' : ConnTracker) (c : Accepted) : Prop where
  totals : ∀ username, t.totalsByUser.lookup username = t'.totalsByUser.lookup username
  entry : t.entries.lookup c.tcp = t'.entries.lookup c.tcp

section Account

variable {t : ConnTracker} {conn : NetConn}

theorem accountTunnel_of_none (unknown : t.entries.lookup conn = none) (upFirst : Bool) (up down : Nat) :
    accountTunnel t (some conn) upFirst up down = t := by
  have none : t.connEntryFor (some conn) = none := unknown
  have opened : t.tunnelOpened (some conn) = t := by rw [ConnTracker.tunnelOpened, none]
  have added : ∀ bytesIn bytesOut, t.addBytes (some conn) bytesIn bytesOut = t := by
    intro bytesIn bytesOut
    rw [ConnTracker.addBytes, none]
  have closed : t.tunnelClosed (some conn) = t := by rw [ConnTracker.tunnelClosed, none]
  unfold accountTunnel
  cases upFirst <;> simp only [opened, added, closed, if_true, Bool.false_eq_true, if_false]

/-- How many tunnels the entry of a connection has had. -/
def tunnels (t : ConnTracker) (conn : NetConn) : Option UInt64 :=
  (t.entries.lookup conn).map ConnEntry.totalTunnels

theorem tunnels_updateTotals (username : String) (update : UserTotals → UserTotals) :
    tunnels (t.updateTotals username update) conn = tunnels t conn := by
  unfold ConnTracker.updateTotals
  split
  · rfl
  · rfl

theorem tunnels_setEntry (entry : ConnEntry) :
    tunnels (t.setEntry (some conn) entry) conn = some entry.totalTunnels := by
  simp [tunnels, ConnTracker.setEntry]

theorem tunnels_tunnelOpened : tunnels (t.tunnelOpened (some conn)) conn = (tunnels t conn).map (· + 1) := by
  unfold ConnTracker.tunnelOpened
  cases found : t.entries.lookup conn with
  | none => simp [ConnTracker.connEntryFor, found, tunnels]
  | some e =>
    simp only [ConnTracker.connEntryFor, found, tunnels_updateTotals, tunnels_setEntry]
    simp [tunnels, found]

theorem tunnels_addBytes (bytesIn bytesOut : UInt64) :
    tunnels (t.addBytes (some conn) bytesIn bytesOut) conn = tunnels t conn := by
  unfold ConnTracker.addBytes
  cases found : t.entries.lookup conn with
  | none => simp only [ConnTracker.connEntryFor, found]
  | some e =>
    simp only [ConnTracker.connEntryFor, found, ConnTracker.addBytesTotals, tunnels_updateTotals,
      ConnTracker.addBytesEntry, tunnels_setEntry]
    simp [tunnels, found]

theorem tunnels_tunnelClosed : tunnels (t.tunnelClosed (some conn)) conn = tunnels t conn := by
  unfold ConnTracker.tunnelClosed
  cases found : t.entries.lookup conn with
  | none => simp only [ConnTracker.connEntryFor, found]
  | some e =>
    simp only [ConnTracker.connEntryFor, found, tunnels_setEntry]
    simp [tunnels, found]

theorem tunnels_accountTunnel (upFirst : Bool) (up down : Nat) :
    tunnels (accountTunnel t (some conn) upFirst up down) conn = (tunnels t conn).map (· + 1) := by
  rw [accountTunnel]
  cases upFirst with
  | true => simp only [if_true, tunnels_tunnelClosed, tunnels_addBytes, tunnels_tunnelOpened]
  | false =>
    simp only [Bool.false_eq_true, if_false, tunnels_tunnelClosed, tunnels_addBytes, tunnels_tunnelOpened]

end Account

/-! ### The hijacked connection is no key -/

/-- The connections of a process; a TCP connection and a TLS connection are different objects. -/
structure Sockets where
  accepted : List Accepted
  apart : ∀ c ∈ accepted, ∀ c' ∈ accepted, c.tcp ≠ c'.tls

/-- The requests have the contexts of the listener, or none of HTTP/3. -/
def Sockets.Contexts (sockets : Sockets) (events : List Event) : Prop :=
  ∀ conn http1, .arrive (some conn) http1 ∈ events →
    ∃ c ∈ sockets.accepted, (connContextFunc c.object).rawConn = some conn

variable {s : Sys} {events : List Event}

/-- The raw connection of a stream is that of a request that arrived. -/
def Arrived (events : List Event) (s : Sys) : Prop :=
  ∀ x ∈ s.streams, ∀ conn, x.conn = some conn → ∃ http1, .arrive (some conn) http1 ∈ events

theorem arrived_step {event : Event} {next : Sys} (arrived : Arrived events s) (taken : step s event = some next) :
    Arrived (events ++ [event]) next := by
  intro x member conn raw
  have before : ∀ y ∈ s.streams, y.conn = some conn → ∃ http1, .arrive (some conn) http1 ∈ events ++ [event] := by
    intro y inside named
    obtain ⟨http1, arrives⟩ := arrived y inside conn named
    exact ⟨http1, List.mem_append_left _ arrives⟩
  by_cases arrives : ∃ conn http1, event = .arrive conn http1
  · obtain ⟨conn', http1, rfl⟩ := arrives
    obtain ⟨-, taken⟩ := Option.ite_none_left_eq_some.mp taken
    cases taken
    rcases List.mem_append.mp member with old | new
    · exact before x old raw
    · obtain rfl := List.mem_singleton.mp new
      obtain rfl : conn' = some conn := raw
      exact ⟨http1, List.mem_append_right _ (List.mem_singleton_self _)⟩
  · rcases step_cases taken with ⟨index, action, y, tracker, new, -, found, acted, rfl⟩ | ⟨-, -, same⟩
    · rcases List.mem_or_eq_of_mem_set member with old | rfl
      · exact before x old raw
      · rw [conn_act acted] at raw
        exact before y (List.mem_of_getElem? found) raw
    · rw [same fun conn http1 arrive => arrives ⟨conn, http1, arrive⟩] at member
      exact before x member raw

theorem arrived_run (reached : run step .initial events = some s) : Arrived events s :=
  run_history (fun _ _ _ _ _ arrived taken => arrived_step arrived taken)
    (fun _ member => absurd member List.not_mem_nil) reached

theorem lookup_tls {sockets : Sockets} (contexts : sockets.Contexts events)
    (reached : run step .initial events = some s) {c : Accepted} (member : c ∈ sockets.accepted) :
    s.tracker.entries.lookup c.tls = none := by
  cases found : s.tracker.entries.lookup c.tls with
  | none => rfl
  | some e =>
    have booked := booked_run reached
    have named : s.tracker.entryUser c.tls = some e.username := by rw [ConnTracker.entryUser, found]; rfl
    have listed := (booked.conns e.username).mem_iff.mp (booked.entry c.tls e.username named)
    obtain ⟨x, inside, -, -, raw⟩ := mem_openConns.mp listed
    obtain ⟨http1, arrives⟩ := arrived_run reached x inside c.tls raw
    obtain ⟨c', member', same⟩ := contexts c.tls http1 arrives
    rw [connContextFunc_object] at same
    exact absurd (Option.some.inj same) (sockets.apart c' member' c member)

/-- **A tunnel over HTTP/1.1 is accounted as one over HTTP/2 exactly where the connection has no entry.** -/
theorem accountedAlike_iff (sockets : Sockets) {events : List Event} (contexts : sockets.Contexts events) {s : Sys}
    (reached : run step .initial events = some s) {c : Accepted} (member : c ∈ sockets.accepted)
    (upFirst upFirst' : Bool) (up down : Nat) :
    AccountedAlike (http1Account s.tracker c upFirst up down) (http2Account s.tracker c upFirst' up down) c ↔
      s.tracker.entries.lookup c.tcp = none := by
  have untouched : http1Account s.tracker c upFirst up down = s.tracker :=
    accountTunnel_of_none (lookup_tls contexts reached member) upFirst up down
  rw [untouched]
  constructor
  · intro alike
    by_contra known
    obtain ⟨e, found⟩ := Option.ne_none_iff_exists'.mp known
    have counted : tunnels (http2Account s.tracker c upFirst' up down) c.tcp = (tunnels s.tracker c.tcp).map (· + 1) :=
      tunnels_accountTunnel upFirst' up down
    rw [tunnels, ← alike.entry, tunnels, found] at counted
    simp at counted
  · intro unknown
    have same : http2Account s.tracker c upFirst' up down = s.tracker :=
      accountTunnel_of_none unknown upFirst' up down
    rw [same]
    exact ⟨fun _ => rfl, rfl⟩

def oneSocket : Sockets := ⟨[Wire.accepted], by decide⟩

def registered : List Event := entering 0 laptop "alice" 0 ++ [.act 0 .isKnown, .act 0 .register]

theorem contexts_registered (more : List Action) : oneSocket.Contexts (registered ++ more.map (.act 0)) := by
  intro conn http1 member
  have first : conn = laptop := by
    simp [registered, entering] at member
    exact member.1
  exact ⟨Wire.accepted, by decide, congrArg some first.symm⟩

theorem accountedAlike_unregistered :
    ∃ s, run step .initial (registered ++ [Action.unregister].map (.act 0)) = some s ∧
      AccountedAlike (http1Account s.tracker Wire.accepted true 5 7)
        (http2Account s.tracker Wire.accepted true 5 7) Wire.accepted := by
  obtain ⟨s, reached, unknown⟩ : ∃ s, run step .initial (registered ++ [Action.unregister].map (.act 0)) = some s ∧
      s.tracker.entries.lookup laptop = none := ⟨_, rfl, by decide⟩
  exact ⟨s, reached, (accountedAlike_iff oneSocket (contexts_registered _) reached (c := Wire.accepted) (by decide)
    true true 5 7).mpr unknown⟩

/-- **A tunnel over HTTP/1.1 is not accounted at all**: over HTTP/2 the user has one tunnel and its bytes. -/
theorem http1_unaccounted :
    ∃ s, run step .initial registered = some s ∧ s.tracker.entryUser laptop = some "alice" ∧
      (http2Account s.tracker Wire.accepted true 5 7).totalsByUser.lookup "alice" = some ⟨5, 7, 1, 0⟩ ∧
      (http1Account s.tracker Wire.accepted true 5 7).totalsByUser.lookup "alice" = some ⟨0, 0, 0, 0⟩ ∧
      ¬ AccountedAlike (http1Account s.tracker Wire.accepted true 5 7)
        (http2Account s.tracker Wire.accepted true 5 7) Wire.accepted := by
  refine ⟨_, rfl, by decide, by decide, by decide, fun alike => ?_⟩
  exact absurd (alike.totals "alice") (by decide)

end Ttgo.Proxy

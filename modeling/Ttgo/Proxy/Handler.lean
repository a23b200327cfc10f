/-
**`Handler.ServeHTTP` as a system of concurrent streams.**

A connection multiplexes any number of `CONNECT` streams; each runs `ServeHTTP` of
`internal/proxy/handler.go` in its own goroutine, and a TCP tunnel adds two goroutines that copy and
then call `AddBytes`. The goroutines meet in `GlobalConnTracker`, one locked method at a time.

* `Stream` — one request: its connection, what `CheckExt` said, where its handler stands (`Phase`) and
  where its two copies stand (`Copy`).
* `Stream.act` — one step of one stream, with the tracker it runs against.
* `Sys`, `Event`, `step` — the streams of the process, the kicks of an administrator, the ends of
  connections.
* `Acted`, `step_cases` — the steps, inverted; `act_cases` — what a step of a stream does to the views
  of the tracker: `Register`, `Unregister` or nothing.
* `Sys.Booked` — the books agree with the streams: `byUser` lists the connections of the user's open
  streams, once per stream, and an entry names a user that `byUser` lists the connection for.
-/

import Ttgo.Auth.Authenticator
import Ttgo.Lib.Pool
import Ttgo.Lib.Run
import Ttgo.Server.ConnTracker

namespace Ttgo.Proxy

open Ttgo.Auth Ttgo.Lib Ttgo.Server

/-! ### Refusals -/

/-- Why `ServeHTTP` answers a request before it registers it. -/
inductive Refusal
  | revoked (reason : String)
  | denied (reason : DenyReason)
  | unauthenticated
  | deviceLimit (active : Nat) (maxDevices : Int)
deriving DecidableEq, Repr

structure Response where
  status : Nat
  headers : List (String × String)
  body : String
deriving DecidableEq, Repr

def proxyAuthenticate : String × String := ("Proxy-Authenticate", "Basic realm=\"TrustTunnel\"")

/-- `http.Error`, after the handler's own headers. It ends the text with a newline. -/
def httpError (status : Nat) (text : String) (headers : List (String × String) := []) : Response :=
  ⟨status, headers, text ++ "\n"⟩

/-- The `407` of a known session or user, with its reason. -/
def revokeResponse (reason text : String) : Response :=
  httpError 407 text [proxyAuthenticate, ("X-Revoke-Reason", reason)]

/-- What the client is told. -/
def Refusal.response (authFailureCode : Int) : Refusal → Response
  | .revoked reason => revokeResponse reason ("Session revoked: " ++ reason)
  | .denied reason => revokeResponse reason.text reason.text
  | .unauthenticated =>
    if authFailureCode = 405 then httpError 405 "Method Not Allowed"
    else httpError 407 "Proxy Authentication Required" [proxyAuthenticate]
  | .deviceLimit active maxDevices =>
    revokeResponse "Device limit reached"
      ("Device limit reached: " ++ toString active ++ "/" ++ toString maxDevices ++
        " connections in use")

/-! ### One stream -/

inductive Phase
  /-- Before `IsRevoked`. -/
  | arrived
  /-- In `CheckExt`. -/
  | authenticating
  /-- Before `IsKnown`. -/
  | checking
  /-- `IsKnown` said no; before `CountUser`. -/
  | counting
  /-- Before `Register`, with the count that was compared, if one was. -/
  | admitted (active : Option Nat)
  | registered
  | tunnelling
  /-- `TunnelClosed` has run; before `Unregister`. -/
  | tunnelClosed
  | returned
  | refused (refusal : Refusal)
deriving DecidableEq, Repr

/-- A direction of a tunnel: client to target, target to client. -/
inductive Dir
  | up
  | down
deriving DecidableEq, Repr

/-- Where a copy goroutine stands, with the bytes it has copied. -/
inductive Copy
  | idle
  | copying (bytes : Nat)
  /-- In `AddBytes`: the entry was fetched and named `owner`. -/
  | crediting (owner : String) (bytes : Nat)
  | done (bytes : Nat)
deriving DecidableEq, Repr

/-- One request. `conn` is its raw connection, which a request over HTTP/3 has not. -/
structure Stream where
  conn : Option NetConn
  user : String := ""
  maxDevices : Int := 0
  phase : Phase := .arrived
  up : Copy := .idle
  down : Copy := .idle
  /-- The request came over HTTP/1.1. -/
  http1 : Bool := false
deriving DecidableEq, Repr

namespace Stream

def copy (x : Stream) : Dir → Copy
  | .up => x.up
  | .down => x.down

def setCopy (x : Stream) (new : Copy) : Dir → Stream
  | .up => { x with up := new }
  | .down => { x with down := new }

/-- The connection that the tunnel counts on. `serveHTTP1Tunnel` names the hijacked `*tls.Conn`, for which
there is no entry: the raw connection under it is the key. -/
def countsOn (x : Stream) : Option NetConn := if x.http1 then none else x.conn

/-- After `IsRevoked`. -/
def afterRevoked : Option String → Phase
  | some reason => .refused (.revoked reason)
  | none => .authenticating

/-- After `CheckExt`: a user that may not enter is told why, nobody is asked to authenticate. -/
def afterAuth (res : CheckResult) : Phase :=
  if res.username ≠ "" ∧ res.deny ≠ .none then .refused (.denied res.deny)
  else if res.username = "" then .refused .unauthenticated
  else .checking

/-- After `IsKnown`, which is not asked without a limit or without a raw connection. -/
def afterKnown (x : Stream) (known : Bool) : Phase :=
  if 0 < x.maxDevices ∧ x.conn.isSome then
    if known then .admitted none else .counting
  else .admitted none

/-- After `CountUser`. -/
def afterCount (x : Stream) (active : Nat) : Phase :=
  if x.maxDevices ≤ active then .refused (.deviceLimit active x.maxDevices)
  else .admitted (some active)

end Stream

/-- The bytes that a copy passes to `AddBytes` as `in`. -/
def Dir.bytesIn (bytes : Nat) : Dir → UInt64
  | .up => UInt64.ofNat bytes
  | .down => 0

/-- The bytes that a copy passes to `AddBytes` as `out`. -/
def Dir.bytesOut (bytes : Nat) : Dir → UInt64
  | .up => 0
  | .down => UInt64.ofNat bytes

/-- `AddBytes` after the entry was fetched. -/
def Copy.afterFetch (bytes : Nat) : Option ConnEntry → Copy
  | none => .done bytes
  | some e => .crediting e.username bytes

inductive Action
  | isRevoked
  | checkExt (res : CheckResult)
  | isKnown
  | countUser
  | register
  | tunnelOpened
  /-- Both copies have ended, or the request's context is cancelled. -/
  | tunnelClosed
  /-- `ServeHTTP` returns. -/
  | unregister
  /-- A copy moves some bytes. -/
  | copied (dir : Dir) (bytes : Nat)
  /-- A copy ends: the entry is fetched and its counters are raised. -/
  | copyEnds (dir : Dir)
  /-- The totals are raised. -/
  | credit (dir : Dir)
deriving DecidableEq, Repr

/-- One step of a stream, and the tracker after it. -/
def Stream.act (t : ConnTracker) (x : Stream) : Action → Option (ConnTracker × Stream)
  | .isRevoked =>
    if x.phase = .arrived then
      some (t, { x with phase := Stream.afterRevoked (t.isRevoked x.conn) })
    else none
  | .checkExt res =>
    if x.phase = .authenticating then
      some (t, { x with
        user := res.username, maxDevices := res.maxDevices, phase := Stream.afterAuth res })
    else none
  | .isKnown =>
    if x.phase = .checking then some (t, { x with phase := x.afterKnown (t.isKnown x.conn) })
    else none
  | .countUser =>
    if x.phase = .counting then some (t, { x with phase := x.afterCount (t.countUser x.user) })
    else none
  | .register =>
    match x.phase with
    | .admitted _ => some (t.register x.user x.conn, { x with phase := .registered })
    | _ => none
  | .tunnelOpened =>
    if x.phase = .registered then
      some (t.tunnelOpened x.countsOn,
        { x with phase := .tunnelling, up := .copying 0, down := .copying 0 })
    else none
  | .tunnelClosed =>
    if x.phase = .tunnelling then some (t.tunnelClosed x.countsOn, { x with phase := .tunnelClosed })
    else none
  | .unregister =>
    if x.phase = .registered ∨ x.phase = .tunnelClosed then
      some (t.unregister x.user x.conn, { x with phase := .returned })
    else none
  | .copied dir bytes =>
    match x.copy dir with
    | .copying before => some (t, x.setCopy (.copying (before + bytes)) dir)
    | _ => none
  | .copyEnds dir =>
    match x.copy dir with
    | .copying bytes =>
      some (t.addBytesEntry x.countsOn (dir.bytesIn bytes) (dir.bytesOut bytes),
        x.setCopy (Copy.afterFetch bytes (t.connEntryFor x.countsOn)) dir)
    | _ => none
  | .credit dir =>
    match x.copy dir with
    | .crediting owner bytes =>
      some (t.addBytesTotals owner (dir.bytesIn bytes) (dir.bytesOut bytes),
        x.setCopy (.done bytes) dir)
    | _ => none

/-! ### The process -/

structure Sys where
  tracker : ConnTracker
  streams : List Stream
  /-- What `scheduleKick` will close. -/
  scheduled : List (List NetConn)
  closed : List NetConn
deriving DecidableEq

def Sys.initial : Sys := ⟨.empty, [], [], []⟩

inductive Event
  /-- A `CONNECT` request; on a raw connection only while that is open. -/
  | arrive (conn : Option NetConn) (http1 : Bool)
  | act (index : Nat) (action : Action)
  | kickUser (username reason : String)
  | kickSession (username remoteAddr reason : String)
  /-- The two seconds of a kick are over. -/
  | kickFires (index : Nat)
  /-- The peer closes a connection. -/
  | close (conn : NetConn)
  | resetUserTraffic (username : String)
deriving DecidableEq, Repr

def step (s : Sys) : Event → Option Sys
  | .arrive conn http1 =>
    if ∃ c ∈ conn, c ∈ s.closed then none
    else some { s with streams := s.streams ++ [{ conn := conn, http1 := http1 }] }
  | .act index action => do
    let x ← s.streams[index]?
    let (tracker, new) ← x.act s.tracker action
    return { s with tracker, streams := s.streams.set index new }
  | .kickUser username reason =>
    let kicked := s.tracker.kickUser username reason
    some { s with tracker := kicked.1, scheduled := s.scheduled ++ [kicked.2] }
  | .kickSession username remoteAddr reason =>
    let kicked := s.tracker.kickSession username remoteAddr reason
    some { s with tracker := kicked.1, scheduled := s.scheduled ++ [kicked.2] }
  | .kickFires index => do
    let list ← s.scheduled[index]?
    return { s with scheduled := s.scheduled.eraseIdx index, closed := list ++ s.closed }
  | .close conn => some { s with closed := conn :: s.closed }
  | .resetUserTraffic username => some { s with tracker := s.tracker.resetUserTraffic username }

def entering (index : Nat) (conn : NetConn) (username : String) (maxDevices : Int) : List Event :=
  [.arrive conn false, .act index .isRevoked, .act index (.checkExt ⟨username, maxDevices, .none⟩)]

/-- The stream is between `Register` and `Unregister`. -/
def Stream.opened (x : Stream) : Bool :=
  match x.phase with
  | .registered | .tunnelling | .tunnelClosed => true
  | _ => false

/-- The connection on which the stream is open for the user. -/
def Stream.carries (username : String) (x : Stream) : Option NetConn :=
  if x.opened ∧ x.user = username then x.conn else none

/-- The connections of the open streams of a user, once per stream. -/
def openConns (username : String) (streams : List Stream) : List NetConn :=
  streams.filterMap (Stream.carries username)

/-! ### Inversion -/

variable {s next : Sys} {t t' : ConnTracker} {x x' : Stream} {action : Action} {index : Nat}
  {username : String}

theorem step_act (taken : step s (.act index action) = some next) :
    ∃ x tracker new, s.streams[index]? = some x ∧ x.act s.tracker action = some (tracker, new) ∧
      next = { s with tracker, streams := s.streams.set index new } := by
  simp only [step, Option.bind_eq_bind, Option.bind_eq_some_iff, Option.pure_def,
    Option.some.injEq] at taken
  obtain ⟨x, found, ⟨tracker, new⟩, acted, rfl⟩ := taken
  exact ⟨x, tracker, new, found, acted, rfl⟩

@[simp] theorem conn_setCopy (new : Copy) (dir : Dir) : (x.setCopy new dir).conn = x.conn := by
  cases dir <;> rfl

@[simp] theorem user_setCopy (new : Copy) (dir : Dir) : (x.setCopy new dir).user = x.user := by
  cases dir <;> rfl

@[simp] theorem phase_setCopy (new : Copy) (dir : Dir) : (x.setCopy new dir).phase = x.phase := by
  cases dir <;> rfl

@[simp] theorem maxDevices_setCopy (new : Copy) (dir : Dir) :
    (x.setCopy new dir).maxDevices = x.maxDevices := by
  cases dir <;> rfl

/-- **One step of a stream**, inverted: one constructor per action. -/
inductive Acted (t : ConnTracker) (x : Stream) : Action → ConnTracker → Stream → Prop
  | isRevoked (stood : x.phase = .arrived) :
      Acted t x .isRevoked t { x with phase := Stream.afterRevoked (t.isRevoked x.conn) }
  | checkExt (res : CheckResult) (stood : x.phase = .authenticating) :
      Acted t x (.checkExt res) t
        { x with
          user := res.username, maxDevices := res.maxDevices, phase := Stream.afterAuth res }
  | isKnown (stood : x.phase = .checking) :
      Acted t x .isKnown t { x with phase := x.afterKnown (t.isKnown x.conn) }
  | countUser (stood : x.phase = .counting) :
      Acted t x .countUser t { x with phase := x.afterCount (t.countUser x.user) }
  | register (active : Option Nat) (stood : x.phase = .admitted active) :
      Acted t x .register (t.register x.user x.conn) { x with phase := .registered }
  | tunnelOpened (stood : x.phase = .registered) :
      Acted t x .tunnelOpened (t.tunnelOpened x.countsOn)
        { x with phase := .tunnelling, up := .copying 0, down := .copying 0 }
  | tunnelClosed (stood : x.phase = .tunnelling) :
      Acted t x .tunnelClosed (t.tunnelClosed x.countsOn) { x with phase := .tunnelClosed }
  | unregister (stood : x.phase = .registered ∨ x.phase = .tunnelClosed) :
      Acted t x .unregister (t.unregister x.user x.conn) { x with phase := .returned }
  | copied (dir : Dir) (bytes before : Nat) (stood : x.copy dir = .copying before) :
      Acted t x (.copied dir bytes) t (x.setCopy (.copying (before + bytes)) dir)
  | copyEnds (dir : Dir) (bytes : Nat) (stood : x.copy dir = .copying bytes) :
      Acted t x (.copyEnds dir)
        (t.addBytesEntry x.countsOn (dir.bytesIn bytes) (dir.bytesOut bytes))
        (x.setCopy (Copy.afterFetch bytes (t.connEntryFor x.countsOn)) dir)
  | credit (dir : Dir) (owner : String) (bytes : Nat) (stood : x.copy dir = .crediting owner bytes) :
      Acted t x (.credit dir) (t.addBytesTotals owner (dir.bytesIn bytes) (dir.bytesOut bytes))
        (x.setCopy (.done bytes) dir)

theorem acted_of_act (acted : x.act t action = some (t', x')) : Acted t x action t' x' := by
  cases action with
  | isRevoked =>
    obtain ⟨stood, taken⟩ := Option.ite_none_right_eq_some.mp acted
    cases taken
    exact .isRevoked stood
  | checkExt res =>
    obtain ⟨stood, taken⟩ := Option.ite_none_right_eq_some.mp acted
    cases taken
    exact .checkExt res stood
  | isKnown =>
    obtain ⟨stood, taken⟩ := Option.ite_none_right_eq_some.mp acted
    cases taken
    exact .isKnown stood
  | countUser =>
    obtain ⟨stood, taken⟩ := Option.ite_none_right_eq_some.mp acted
    cases taken
    exact .countUser stood
  | register =>
    simp only [Stream.act] at acted
    split at acted
    · next active stood =>
      cases acted
      exact .register active stood
    · cases acted
  | tunnelOpened =>
    obtain ⟨stood, taken⟩ := Option.ite_none_right_eq_some.mp acted
    cases taken
    exact .tunnelOpened stood
  | tunnelClosed =>
    obtain ⟨stood, taken⟩ := Option.ite_none_right_eq_some.mp acted
    cases taken
    exact .tunnelClosed stood
  | unregister =>
    obtain ⟨stood, taken⟩ := Option.ite_none_right_eq_some.mp acted
    cases taken
    exact .unregister stood
  | copied dir bytes =>
    simp only [Stream.act] at acted
    split at acted
    · next before stood =>
      cases acted
      exact .copied dir bytes before stood
    · cases acted
  | copyEnds dir =>
    simp only [Stream.act] at acted
    split at acted
    · next bytes stood =>
      cases acted
      exact .copyEnds dir bytes stood
    · cases acted
  | credit dir =>
    simp only [Stream.act] at acted
    split at acted
    · next owner bytes stood =>
      cases acted
      exact .credit dir owner bytes stood
    · cases acted

theorem act_cases (acted : x.act t action = some (t', x')) :
    (action = .register ∧ x.opened = false ∧ x'.opened = true ∧ x'.user = x.user ∧
        x'.conn = x.conn ∧ t' = t.register x.user x.conn) ∨
      (action = .unregister ∧ x.opened = true ∧ x'.opened = false ∧ x'.user = x.user ∧
        x'.conn = x.conn ∧ t' = t.unregister x.user x.conn) ∨
      (x'.conn = x.conn ∧ x'.opened = x.opened ∧ (x.opened = true → x'.user = x.user) ∧
        t.SameViews t') := by
  cases acted_of_act acted with
  | isRevoked stood =>
    refine .inr (.inr ⟨rfl, ?_, fun _ => rfl, .refl t⟩)
    simp only [Stream.opened, stood, Stream.afterRevoked]
    cases t.isRevoked x.conn <;> rfl
  | checkExt res stood =>
    have shut : x.opened = false := by simp only [Stream.opened, stood]
    refine .inr (.inr ⟨rfl, ?_, fun opened => absurd opened (by simp [shut]), .refl t⟩)
    simp only [Stream.opened, stood, Stream.afterAuth]
    split_ifs <;> rfl
  | isKnown stood =>
    refine .inr (.inr ⟨rfl, ?_, fun _ => rfl, .refl t⟩)
    simp only [Stream.opened, stood, Stream.afterKnown]
    split_ifs <;> rfl
  | countUser stood =>
    refine .inr (.inr ⟨rfl, ?_, fun _ => rfl, .refl t⟩)
    simp only [Stream.opened, stood, Stream.afterCount]
    split_ifs <;> rfl
  | register active stood =>
    exact .inl ⟨rfl, by simp only [Stream.opened, stood], rfl, rfl, rfl, rfl⟩
  | tunnelOpened stood =>
    exact .inr (.inr ⟨rfl, by simp only [Stream.opened, stood], fun _ => rfl,
      t.sameViews_tunnelOpened x.countsOn⟩)
  | tunnelClosed stood =>
    exact .inr (.inr ⟨rfl, by simp only [Stream.opened, stood], fun _ => rfl,
      t.sameViews_tunnelClosed x.countsOn⟩)
  | unregister stood =>
    refine .inr (.inl ⟨rfl, ?_, rfl, rfl, rfl, rfl⟩)
    rcases stood with stood | stood <;> simp only [Stream.opened, stood]
  | copied dir bytes before stood =>
    exact .inr (.inr ⟨conn_setCopy _ _, by simp only [Stream.opened, phase_setCopy],
      fun _ => user_setCopy _ _, .refl t⟩)
  | copyEnds dir bytes stood =>
    exact .inr (.inr ⟨conn_setCopy _ _, by simp only [Stream.opened, phase_setCopy],
      fun _ => user_setCopy _ _, t.sameViews_addBytesEntry _ _ _⟩)
  | credit dir owner bytes stood =>
    exact .inr (.inr ⟨conn_setCopy _ _, by simp only [Stream.opened, phase_setCopy],
      fun _ => user_setCopy _ _, t.sameViews_updateTotals _ _⟩)

theorem conn_act (acted : x.act t action = some (t', x')) : x'.conn = x.conn := by
  rcases act_cases acted with ⟨-, -, -, -, same, -⟩ | ⟨-, -, -, -, same, -⟩ | ⟨same, -⟩ <;> exact same

theorem revoked_act {conn : NetConn} (acted : x.act t action = some (t', x'))
    (other : action = .unregister → x.conn ≠ some conn)
    (marked : (t.revoked.lookup conn).isSome) : (t'.revoked.lookup conn).isSome := by
  rcases act_cases acted with ⟨-, -, -, -, -, rfl⟩ | ⟨rfl, -, -, -, -, rfl⟩ | ⟨-, -, -, views⟩
  · cases raw : x.conn <;> exact marked
  · cases raw : x.conn with
    | none => exact marked
    | some here =>
      have different : conn ≠ here := fun same => other rfl (same ▸ raw)
      rw [ConnTracker.revoked_unregister, if_neg different]
      exact marked
  · rw [views.revoked]
    exact marked

theorem openConns_arrive (conn : Option NetConn) (http1 : Bool) (streams : List Stream) :
    openConns username (streams ++ [{ conn := conn, http1 := http1 }]) = openConns username streams := by
  simp [openConns, Stream.carries, Stream.opened]

/-- What a step that is not a step of a stream leaves alone. -/
structure Outer (s next : Sys) : Prop where
  streams : next.streams = s.streams ∨ ∃ conn http1, next.streams = s.streams ++ [{ conn := conn, http1 := http1 }]
  conns : ∀ username, next.tracker.conns username = s.tracker.conns username
  entryUser : ∀ conn, next.tracker.entryUser conn = s.tracker.entryUser conn
  revoked : ∀ conn, (s.tracker.revoked.lookup conn).isSome →
    (next.tracker.revoked.lookup conn).isSome
  closed : ∀ conn ∈ s.closed, conn ∈ next.closed

theorem Outer.openConns (outer : Outer s next) (username : String) :
    openConns username next.streams = openConns username s.streams := by
  rcases outer.streams with same | ⟨conn, http1, arrived⟩
  · rw [same]
  · rw [arrived, openConns_arrive]

/-- **One step of the process**: a step of a stream, or one that leaves the streams alone. -/
theorem step_cases {event : Event} (taken : step s event = some next) :
    (∃ index action x tracker new, event = .act index action ∧ s.streams[index]? = some x ∧
        x.act s.tracker action = some (tracker, new) ∧
        next = { s with tracker, streams := s.streams.set index new }) ∨
      (Outer s next ∧ (∀ index action, event ≠ .act index action) ∧
        ((∀ conn http1, event ≠ .arrive conn http1) → next.streams = s.streams)) := by
  cases event with
  | arrive conn http1 =>
    obtain ⟨-, taken⟩ := Option.ite_none_left_eq_some.mp taken
    cases taken
    exact .inr ⟨⟨.inr ⟨conn, http1, rfl⟩, fun _ => rfl, fun _ => rfl, fun _ => id, fun _ => id⟩, nofun,
      fun other => absurd rfl (other conn http1)⟩
  | act index action =>
    obtain ⟨x, tracker, new, found, acted, rfl⟩ := step_act taken
    exact .inl ⟨index, action, x, tracker, new, rfl, found, acted, rfl⟩
  | kickUser username reason =>
    cases taken
    refine .inr ⟨⟨.inl rfl, fun _ => rfl, fun _ => rfl, fun conn marked => ?_, fun _ => id⟩, nofun,
      fun _ => rfl⟩
    rw [ConnTracker.revoked_kickUser]
    split
    · rfl
    · exact marked
  | kickSession username remoteAddr reason =>
    cases taken
    exact .inr ⟨⟨.inl rfl, fun _ => ConnTracker.conns_kickSession .., fun _ =>
      ConnTracker.entryUser_kickSession .., fun _ marked =>
      ConnTracker.revoked_kickSession_isSome _ _ _ _ _ marked, fun _ => id⟩, nofun, fun _ => rfl⟩
  | kickFires index =>
    simp only [step, Option.bind_eq_bind, Option.bind_eq_some_iff, Option.pure_def,
      Option.some.injEq] at taken
    obtain ⟨list, -, rfl⟩ := taken
    exact .inr ⟨⟨.inl rfl, fun _ => rfl, fun _ => rfl, fun _ => id,
      fun _ => List.mem_append_right list⟩, nofun, fun _ => rfl⟩
  | close conn =>
    cases taken
    exact .inr ⟨⟨.inl rfl, fun _ => rfl, fun _ => rfl, fun _ => id,
      fun _ => List.mem_cons_of_mem conn⟩, nofun, fun _ => rfl⟩
  | resetUserTraffic username =>
    cases taken
    have views := s.tracker.sameViews_resetUserTraffic username
    exact .inr ⟨⟨.inl rfl, views.conns, views.entryUser, fun conn marked => by
      rwa [views.revoked], fun _ => id⟩, nofun, fun _ => rfl⟩

/-! ### The books -/

theorem mem_openConns {conn : NetConn} {streams : List Stream} :
    conn ∈ openConns username streams ↔
      ∃ x ∈ streams, x.opened = true ∧ x.user = username ∧ x.conn = some conn := by
  simp only [openConns, List.mem_filterMap, Stream.carries, Option.ite_none_right_eq_some, and_assoc]

theorem openConns_set {streams : List Stream} (found : streams[index]? = some x) (new : Stream)
    (username : String) :
    ∃ rest, (openConns username streams).Perm ((x.carries username).toList ++ rest) ∧
      (openConns username (streams.set index new)).Perm ((new.carries username).toList ++ rest) := by
  obtain ⟨rest, before, after⟩ := pool_set found new
  refine ⟨openConns username rest, ?_, ?_⟩
  · refine (before.filterMap _).trans (.of_eq ?_)
    cases same : x.carries username <;> simp [openConns, same]
  · refine (after.filterMap _).trans (.of_eq ?_)
    cases same : new.carries username <;> simp [openConns, same]

/-- **The books agree with the streams.** -/
structure Sys.Booked (s : Sys) : Prop where
  conns : ∀ username, (s.tracker.conns username).Perm (openConns username s.streams)
  entry : ∀ conn username, s.tracker.entryUser conn = some username →
    conn ∈ s.tracker.conns username

theorem booked_initial : Sys.initial.Booked :=
  ⟨fun _ => .refl _, fun _ _ named => absurd named (by simp [Sys.initial, ConnTracker.empty,
    ConnTracker.entryUser])⟩

theorem booked_register (booked : s.Booked) (found : s.streams[index]? = some x)
    (shut : x.opened = false) {new : Stream} (opened : new.opened = true)
    (user : new.user = x.user) (conn : new.conn = x.conn) :
    Sys.Booked { s with
      tracker := s.tracker.register x.user x.conn, streams := s.streams.set index new } := by
  refine ⟨fun username => ?_, fun at' username named => ?_⟩
  · obtain ⟨rest, before, after⟩ := openConns_set found new username
    refine List.Perm.trans ?_ after.symm
    have held := (booked.conns username).trans before
    cases raw : x.conn with
    | none => simpa [Stream.carries, shut, conn, raw, ConnTracker.register] using held
    | some c =>
      rw [ConnTracker.conns_register]
      by_cases same : username = x.user
      · subst same
        simp only [Stream.carries, shut, opened, user, conn, raw] at held ⊢
        simpa using (held.append_right [c]).trans List.perm_append_comm
      · simpa [Stream.carries, shut, opened, user, conn, same, Ne.symm same] using held
  · cases raw : x.conn with
    | none =>
      simp only [raw, ConnTracker.register] at named ⊢
      exact booked.entry at' username named
    | some c =>
      simp only [raw, ConnTracker.entryUser_register] at named
      simp only [ConnTracker.conns_register]
      split at named
      · next here => cases named; simp [here]
      · split
        · next same => exact List.mem_append_left _ (same ▸ booked.entry at' username named)
        · exact booked.entry at' username named

theorem booked_unregister (booked : s.Booked) (found : s.streams[index]? = some x)
    (opened : x.opened = true) {new : Stream} (shut : new.opened = false) :
    Sys.Booked { s with
      tracker := s.tracker.unregister x.user x.conn, streams := s.streams.set index new } := by
  refine ⟨fun username => ?_, fun at' username named => ?_⟩
  · obtain ⟨rest, before, after⟩ := openConns_set found new username
    refine List.Perm.trans ?_ after.symm
    have held := (booked.conns username).trans before
    cases raw : x.conn with
    | none => simpa [Stream.carries, shut, raw, ConnTracker.unregister] using held
    | some c =>
      rw [ConnTracker.conns_unregister]
      by_cases same : username = x.user
      · subst same
        simp only [Stream.carries, shut, opened, raw] at held ⊢
        simpa using held.erase c
      · simpa [Stream.carries, shut, opened, same, Ne.symm same] using held
  · cases raw : x.conn with
    | none =>
      simp only [raw, ConnTracker.unregister] at named ⊢
      exact booked.entry at' username named
    | some c =>
      simp only [raw, ConnTracker.entryUser_unregister, Option.ite_none_left_eq_some] at named
      simp only [ConnTracker.conns_unregister]
      split
      · next same =>
        exact (List.mem_erase_of_ne named.1).mpr (same ▸ booked.entry at' username named.2)
      · exact booked.entry at' username named.2

theorem booked_of_same (booked : s.Booked)
    (conns : ∀ username, next.tracker.conns username = s.tracker.conns username)
    (entryUser : ∀ conn, next.tracker.entryUser conn = s.tracker.entryUser conn)
    (same : ∀ username, (openConns username s.streams).Perm (openConns username next.streams)) :
    next.Booked := by
  refine ⟨fun username => ?_, fun conn username named => ?_⟩
  · rw [conns]
    exact (booked.conns username).trans (same username)
  · rw [conns]
    exact booked.entry conn username (by rwa [entryUser] at named)

theorem openConns_quiet (found : s.streams[index]? = some x) (conn : x'.conn = x.conn)
    (opened : x'.opened = x.opened) (user : x.opened = true → x'.user = x.user)
    (username : String) :
    (openConns username s.streams).Perm (openConns username (s.streams.set index x')) := by
  obtain ⟨rest, before, after⟩ := openConns_set found x' username
  have same : x'.carries username = x.carries username := by
    cases shut : x.opened with
    | false => simp [Stream.carries, opened, shut]
    | true => simp only [Stream.carries, opened, conn, user shut]
  rw [same] at after
  exact before.trans after.symm

theorem booked_step {event : Event} (booked : s.Booked) (taken : step s event = some next) :
    next.Booked := by
  rcases step_cases taken with ⟨index, action, x, t', x', rfl, found, acted, rfl⟩ | ⟨outer, -⟩
  · rcases act_cases acted with ⟨-, shut, opened, user, conn, rfl⟩ | ⟨-, opened, shut, -, -, rfl⟩ |
      ⟨conn, opened, user, views⟩
    · exact booked_register booked found shut opened user conn
    · exact booked_unregister booked found opened shut
    · exact booked_of_same booked views.conns views.entryUser
        (openConns_quiet found conn opened user)
  · exact booked_of_same booked outer.conns outer.entryUser fun username =>
      .of_eq (outer.openConns username).symm

theorem booked_run {events : List Event} (reached : run step .initial events = some s) : s.Booked :=
  run_invariant' (fun _ _ _ booked taken => booked_step booked taken) booked_initial reached

theorem Sys.Booked.countUser (booked : s.Booked) (username : String) :
    s.tracker.countUser username = (openConns username s.streams).length :=
  (booked.conns username).length_eq

end Ttgo.Proxy

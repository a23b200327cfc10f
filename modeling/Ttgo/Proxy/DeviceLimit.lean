/-
**Device limits.**

`max_devices` bounds the connections on which a user may have open streams. `ServeHTTP` asks
`IsKnown`, then `CountUser`, and registers later, so the count it compared may be out of date, and
`IsKnown` does not ask for whom the connection is known. `CountUser` counts streams where the limit
is about connections, and the end of one stream makes the whole connection unknown.

* `devices` — the connections that carry an open stream of the user.
* `CountCurrent` — the count that a `Register` rests on is still right, or the shortcut was taken by
  a connection of the same user.
* `devices_le` — runs whose registrations are all current keep the limit.
* `forgotten` — the last `Unregister` of a connection left an open stream on it.
* `deviceLimit_exact` — `Device limit reached` is answered exactly as the limit says, if the connection is not
  forgotten and no second stream of a connection is counted.
-/

import Mathlib.Data.Finset.Card
import Ttgo.Proxy.Handler

namespace Ttgo.Proxy

open Ttgo.Auth Ttgo.Lib Ttgo.Server

/-- **The devices of a user**: the distinct connections that carry an open stream of theirs. -/
def devices (username : String) (streams : List Stream) : Finset NetConn :=
  (openConns username streams).toFinset

/-! ### Safety -/

/-- The result of a `CheckExt`, if the event is one. -/
def Event.checked : Event → Option CheckResult
  | .act _ (.checkExt res) => some res
  | _ => none

def Sys.registering (s : Sys) : Event → Option Stream
  | .act index .register => s.streams[index]?
  | _ => none

/-- Whoever enters as `username` does so with the limit `limit`. -/
def GrantsLimit (username : String) (limit : Nat) (_ : Sys) (event : Event) : Prop :=
  ∀ res ∈ event.checked, res.username = username → res.deny = .none → res.maxDevices = limit

/-- What the admission of a stream rests on still holds: its count has not grown, or its connection
is registered for its own user. -/
def Stream.AdmissionCurrent (t : ConnTracker) (x : Stream) : Prop :=
  match x.phase with
  | .admitted (some active) => t.countUser x.user ≤ active
  | .admitted none => ∀ conn ∈ x.conn, conn ∈ t.conns x.user
  | _ => True

/-- **Every registration of the user is current.** -/
def CountCurrent (username : String) (s : Sys) (event : Event) : Prop :=
  ∀ x ∈ s.registering event, x.user = username → x.AdmissionCurrent s.tracker

instance (username : String) (limit : Nat) (s : Sys) (event : Event) :
    Decidable (GrantsLimit username limit s event) :=
  inferInstanceAs (Decidable (∀ res ∈ event.checked, _))

instance (t : ConnTracker) (x : Stream) : Decidable (x.AdmissionCurrent t) :=
  match same : x.phase with
  | .admitted (some _) => decidable_of_iff (t.countUser x.user ≤ _) (by
      rw [Stream.AdmissionCurrent, same])
  | .admitted none => decidable_of_iff (∀ conn ∈ x.conn, conn ∈ t.conns x.user) (by
      rw [Stream.AdmissionCurrent, same])
  | .arrived | .authenticating | .checking | .counting | .registered | .tunnelling
  | .tunnelClosed | .returned | .refused _ => .isTrue (by rw [Stream.AdmissionCurrent, same]; trivial)

instance (username : String) (s : Sys) (event : Event) :
    Decidable (CountCurrent username s event) :=
  inferInstanceAs (Decidable (∀ x ∈ s.registering event, _))

/-- What a stream of the user carries on its way to `Register`. -/
def Stream.Limited (limit : Nat) (x : Stream) : Prop :=
  match x.phase with
  | .checking | .counting => x.maxDevices = limit
  | .admitted (some active) => active < limit
  | _ => True

variable {s next : Sys} {username : String} {limit : Nat}

theorem limited_act {t t' : ConnTracker} {x x' : Stream} {index : Nat} {action : Action}
    (grants : GrantsLimit username limit s (.act index action))
    (limited : x.user = username → x.Limited limit) (acted : x.act t action = some (t', x'))
    (user : x'.user = username) : x'.Limited limit := by
  cases acted_of_act acted with
  | isRevoked stood =>
    simp only [Stream.Limited, Stream.afterRevoked]
    cases t.isRevoked x.conn <;> trivial
  | checkExt res stood =>
    simp only [Stream.Limited, Stream.afterAuth]
    by_cases denied : res.username ≠ "" ∧ res.deny ≠ .none
    · simp only [if_pos denied]
    by_cases nobody : res.username = ""
    · simp only [if_neg denied, if_pos nobody]
    · simp only [if_neg denied, if_neg nobody]
      exact grants res rfl user (not_not.mp fun deny => denied ⟨nobody, deny⟩)
  | isKnown stood =>
    have same := limited user
    simp only [Stream.Limited, stood] at same
    simp only [Stream.Limited, Stream.afterKnown]
    split_ifs
    · trivial
    · exact same
    · trivial
  | countUser stood =>
    have same := limited user
    simp only [Stream.Limited, stood] at same
    simp only [Stream.Limited, Stream.afterCount, same]
    split_ifs with full
    · trivial
    · exact Int.ofNat_lt.mp (not_le.mp full)
  | register active stood => trivial
  | tunnelOpened stood => trivial
  | tunnelClosed stood => trivial
  | unregister stood => trivial
  | copied dir bytes before stood =>
    simpa [Stream.Limited] using limited (by simpa using user)
  | copyEnds dir bytes stood =>
    simpa [Stream.Limited] using limited (by simpa using user)
  | credit dir owner bytes stood =>
    simpa [Stream.Limited] using limited (by simpa using user)

/-- The invariant: the limit, and what every stream of the user carries towards `Register`. -/
structure WithinLimit (username : String) (limit : Nat) (s : Sys) : Prop where
  booked : s.Booked
  devices : (devices username s.streams).card ≤ limit
  limited : ∀ x ∈ s.streams, x.user = username → x.Limited limit

theorem devices_card_le {streams streams' : List Stream}
    (subset : ∀ conn ∈ openConns username streams', conn ∈ openConns username streams) :
    (devices username streams').card ≤ (devices username streams).card :=
  Finset.card_le_card fun conn member =>
    List.mem_toFinset.mpr (subset conn (List.mem_toFinset.mp member))

theorem devices_register {index : Nat} {x x' : Stream} (within : WithinLimit username limit s)
    (found : s.streams[index]? = some x) (shut : x.opened = false) (same : x'.user = x.user)
    (conn : x'.conn = x.conn) (admitted : ∃ active, x.phase = .admitted active)
    (current : x.user = username → x.AdmissionCurrent s.tracker) :
    (devices username (s.streams.set index x')).card ≤ limit := by
  obtain ⟨rest, before, after⟩ := openConns_set found x' username
  have none : x.carries username = none := by simp [Stream.carries, shut]
  rw [none, Option.toList_none, List.nil_append] at before
  have split : ∀ at' ∈ openConns username (s.streams.set index x'),
      at' ∈ x'.carries username ∨ at' ∈ openConns username s.streams := by
    intro at' member
    rw [after.mem_iff, List.mem_append, Option.mem_toList] at member
    rwa [before.mem_iff]
  by_cases carried : x'.carries username = Option.none
  · refine (devices_card_le fun at' member => ?_).trans within.devices
    exact (split at' member).resolve_left (by simp [carried])
  obtain ⟨c, carries⟩ := Option.ne_none_iff_exists'.mp carried
  obtain ⟨⟨-, user⟩, raw⟩ := Option.ite_none_right_eq_some.mp carries
  rw [same] at user
  rw [conn] at raw
  have limited := within.limited x (List.mem_of_getElem? found) user
  have current := current user
  obtain ⟨active, stood⟩ := admitted
  cases active with
  | none =>
    -- the shortcut: the connection is a device of the user already
    simp only [Stream.AdmissionCurrent, stood] at current
    refine (devices_card_le fun at' member => ?_).trans within.devices
    rcases split at' member with here | old
    · obtain rfl : c = at' := Option.some.inj (carries.symm.trans here)
      exact (within.booked.conns username).mem_iff.mp (user ▸ current c raw)
    · exact old
  | some active =>
    -- the count: there is room for one more stream
    simp only [Stream.AdmissionCurrent, Stream.Limited, stood] at current limited
    rw [user, within.booked.countUser] at current
    calc (devices username (s.streams.set index x')).card
        ≤ (openConns username (s.streams.set index x')).length := List.toFinset_card_le _
      _ = (openConns username s.streams).length + 1 := by
          rw [after.length_eq, before.length_eq, carries, Option.toList_some,
            List.singleton_append, List.length_cons]
      _ ≤ limit := by omega

theorem withinLimit_step {event : Event} (grants : GrantsLimit username limit s event)
    (current : CountCurrent username s event) (within : WithinLimit username limit s)
    (taken : step s event = some next) : WithinLimit username limit next := by
  have booked := booked_step within.booked taken
  rcases step_cases taken with ⟨index, action, x, t', x', rfl, found, acted, rfl⟩ | ⟨outer, -⟩
  · refine ⟨booked, ?_, fun y member user => ?_⟩
    · rcases act_cases acted with ⟨rfl, shut, -, same, conn, -⟩ | ⟨-, -, shut, -, -, -⟩ |
        ⟨conn, opened, same, -⟩
      · have admitted : ∃ active, x.phase = .admitted active := by
          cases acted_of_act acted with
          | register active stood => exact ⟨active, stood⟩
        exact devices_register within found shut same conn admitted (current x found)
      · obtain ⟨rest, before, after⟩ := openConns_set found x' username
        refine (devices_card_le fun at' member => ?_).trans within.devices
        rw [after.mem_iff] at member
        rw [before.mem_iff]
        exact List.mem_append_right _ (by simpa [Stream.carries, shut] using member)
      · have perm := openConns_quiet found conn opened same username
        exact (devices_card_le fun at' member => perm.mem_iff.mpr member).trans within.devices
    · obtain ⟨other, reads⟩ := List.mem_iff_getElem?.mp member
      rcases pool_get_set found reads with ⟨-, rfl⟩ | ⟨-, old⟩
      · exact limited_act grants (within.limited x (List.mem_of_getElem? found)) acted user
      · exact within.limited y (List.mem_of_getElem? old) user
  · refine ⟨booked, ?_, fun y member user => ?_⟩
    · rw [devices, outer.openConns]
      exact within.devices
    · rcases outer.streams with same | ⟨conn, http1, arrived⟩
      · exact within.limited y (same ▸ member) user
      · rw [arrived, List.mem_append, List.mem_singleton] at member
        rcases member with old | rfl
        · exact within.limited y old user
        · trivial

/-- **The limit is kept** by every run in which each registration of the user is current. -/
theorem devices_le {events : List Event} (reached : run step .initial events = some s)
    (grants : Along step (GrantsLimit username limit) .initial events)
    (current : Along step (CountCurrent username) .initial events) :
    (devices username s.streams).card ≤ limit := by
  have start : WithinLimit username limit .initial :=
    ⟨booked_initial, Nat.zero_le _, fun _ member => nomatch member⟩
  have within : WithinLimit username limit s :=
    run_invariant (fun _ _ _ holds within taken => withinLimit_step holds.1 holds.2 within taken)
      (along_and grants current) start reached
  exact within.devices

/-- Two connections count before either registers. -/
def race : List Event :=
  entering 0 laptop "alice" 1 ++ entering 1 phone "alice" 1 ++
    [.act 0 .isKnown, .act 0 .countUser, .act 1 .isKnown, .act 1 .countUser,
      .act 0 .register, .act 1 .register]

/-- **A race past the limit**: one device is allowed, two are in use. -/
theorem devices_race :
    ∃ s, run step .initial race = some s ∧ Along step (GrantsLimit "alice" 1) .initial race ∧
      ¬ (devices "alice" s.streams).card ≤ 1 :=
  ⟨_, rfl, by decide, by decide⟩

/-- Two requests of one connection, one after the other: a current count, then the shortcut. -/
def inTurn : List Event :=
  entering 0 laptop "alice" 1 ++ [.act 0 .isKnown, .act 0 .countUser, .act 0 .register] ++
    entering 1 laptop "alice" 1 ++ [.act 1 .isKnown, .act 1 .register]

theorem devices_le_inTurn :
    ∃ s, run step .initial inTurn = some s ∧ Along step (GrantsLimit "alice" 1) .initial inTurn ∧
      Along step (CountCurrent "alice") .initial inTurn ∧
      (openConns "alice" s.streams).length = 2 ∧ (devices "alice" s.streams).card ≤ 1 :=
  ⟨_, rfl, by decide, by decide, by decide,
    devices_le (show run step .initial inTurn = some _ from rfl) (by decide) (by decide)⟩

/-! ### Exactness -/

/-- `CheckExt` let the stream in. -/
def Stream.authenticated (x : Stream) : Bool :=
  match x.phase with
  | .arrived | .authenticating | .refused _ => false
  | _ => true

def SingleUser (s : Sys) : Prop :=
  ∀ x ∈ s.streams, ∀ y ∈ s.streams, x.authenticated → y.authenticated → x.conn.isSome →
    x.conn = y.conn → x.user = y.user

/-- The request is answered `Device limit reached`, if nothing comes between its two questions. -/
def AnswersDeviceLimit (s : Sys) (index : Nat) : Prop :=
  ∃ next x active maxDevices,
    run step s [.act index .isKnown, .act index .countUser] = some next ∧
      next.streams[index]? = some x ∧ x.phase = .refused (.deviceLimit active maxDevices)

/-- What a step makes of the mark of a connection: `Register` clears it, and `Unregister` sets it if another
stream of the connection is open. -/
def forgets (conn : NetConn) (s : Sys) (event : Event) (mark : Bool) : Bool :=
  match event with
  | .act index .register => if (s.streams[index]?).any (·.conn = some conn) then false else mark
  | .act index .unregister =>
    if (s.streams[index]?).any (·.conn = some conn) then
      (s.streams.eraseIdx index).any fun y => y.opened && y.conn = some conn
    else mark
  | _ => mark

/-- **The connection was forgotten**: the last `Register` or `Unregister` of it was an `Unregister` that left an
open stream. -/
def forgotten (conn : NetConn) (events : List Event) : Bool :=
  tally step (forgets conn) .initial events false

/-- **What an answer rests on.** Fewer streams of the user are open than the limit; or the connection was not
forgotten, and it carries an open stream itself, or no connection carries two. -/
def Told (events : List Event) (s : Sys) (username : String) (conn : NetConn) (limit : Nat) : Prop :=
  (openConns username s.streams).length < limit ∨
    forgotten conn events = false ∧
      (conn ∈ devices username s.streams ∨ (openConns username s.streams).Nodup)

/-! A connection with an open stream is known, unless it was forgotten. -/

/-- The invariant. -/
def Remembered (conn : NetConn) (s : Sys) (mark : Bool) : Prop :=
  mark = false → ∀ x ∈ s.streams, x.opened = true → x.conn = some conn → s.tracker.isKnown (some conn) = true

theorem forgets_other {conn : NetConn} {index : Nat} {x : Stream} {action : Action} (mark : Bool)
    (found : s.streams[index]? = some x) (other : x.conn ≠ some conn) :
    forgets conn s (.act index action) mark = mark := by
  cases action <;> simp [forgets, found, other]

theorem forgets_quiet {conn : NetConn} {index : Nat} {x x' : Stream} {t t' : ConnTracker} {action : Action}
    (mark : Bool) (acted : x.act t action = some (t', x')) (opened : x'.opened = x.opened) :
    forgets conn s (.act index action) mark = mark := by
  cases acted_of_act acted with
  | register active stood => simp [Stream.opened, stood] at opened
  | unregister stood => rcases stood with stood | stood <;> simp [Stream.opened, stood] at opened
  | _ => rfl

theorem remembered_act {conn : NetConn} {index : Nat} {action : Action} {x x' : Stream} {t' : ConnTracker}
    {mark : Bool} (remembered : Remembered conn s mark) (found : s.streams[index]? = some x)
    (acted : x.act s.tracker action = some (t', x')) :
    Remembered conn { s with tracker := t', streams := s.streams.set index x' }
      (forgets conn s (.act index action) mark) := by
  intro kept y member opened raw
  obtain ⟨other, reads⟩ := List.mem_iff_getElem?.mp member
  rw [ConnTracker.isKnown_eq]
  by_cases here : x.conn = some conn
  · rcases act_cases acted with ⟨-, -, -, -, -, rfl⟩ | ⟨rfl, -, shut, -, -, rfl⟩ | ⟨same, still, -, views⟩
    · rw [here, ConnTracker.entryUser_register, if_pos rfl]
      rfl
    · -- the stream that is left is not the one that ends
      rcases pool_get_set found reads with ⟨-, rfl⟩ | ⟨apart, old⟩
      · exact absurd opened (by simp [shut])
      · have left : y ∈ s.streams.eraseIdx index := List.mem_eraseIdx_iff_getElem?.mpr ⟨other, apart, old⟩
        simp only [forgets, found, Option.any_some, here, decide_true, if_true, List.any_eq_false] at kept
        exact absurd (kept y left) (by simp [opened, raw])
    · rw [forgets_quiet mark acted still] at kept
      rw [views.entryUser, ← ConnTracker.isKnown_eq]
      rcases pool_get_set found reads with ⟨-, rfl⟩ | ⟨-, old⟩
      · exact remembered kept x (List.mem_of_getElem? found) (still ▸ opened) here
      · exact remembered kept y (List.mem_of_getElem? old) opened raw
  · rw [forgets_other mark found here] at kept
    have old : s.streams[other]? = some y := by
      rcases pool_get_set found reads with ⟨-, rfl⟩ | ⟨-, old⟩
      · exact absurd ((conn_act acted).symm.trans raw) here
      · exact old
    have known := remembered kept y (List.mem_of_getElem? old) opened raw
    rw [ConnTracker.isKnown_eq] at known
    rcases act_cases acted with ⟨-, -, -, -, -, rfl⟩ | ⟨-, -, -, -, -, rfl⟩ | ⟨-, -, -, views⟩
    · cases named : x.conn with
      | none => exact known
      | some at' =>
        rw [ConnTracker.entryUser_register, if_neg fun same : conn = at' => here (same ▸ named)]
        exact known
    · cases named : x.conn with
      | none => exact known
      | some at' =>
        rw [ConnTracker.entryUser_unregister, if_neg fun same : conn = at' => here (same ▸ named)]
        exact known
    · rwa [views.entryUser]

theorem remembered_step {conn : NetConn} {event : Event} {mark : Bool} (remembered : Remembered conn s mark)
    (taken : step s event = some next) : Remembered conn next (forgets conn s event mark) := by
  rcases step_cases taken with ⟨index, action, x, t', x', rfl, found, acted, rfl⟩ | ⟨outer, other, -⟩
  · exact remembered_act remembered found acted
  · intro kept y member opened raw
    have still : forgets conn s event mark = mark := by
      cases event with
      | act index action => exact absurd rfl (other index action)
      | _ => rfl
    rw [still] at kept
    rw [ConnTracker.isKnown_eq, outer.entryUser, ← ConnTracker.isKnown_eq]
    rcases outer.streams with same | ⟨new, http1, arrived⟩
    · exact remembered kept y (same ▸ member) opened raw
    · rw [arrived, List.mem_append, List.mem_singleton] at member
      rcases member with old | rfl
      · exact remembered kept y old opened raw
      · cases opened

theorem isKnown_of_remembered {events : List Event} {conn : NetConn}
    (reached : run step .initial events = some s) (kept : forgotten conn events = false)
    (carried : conn ∈ devices username s.streams) : s.tracker.isKnown (some conn) = true := by
  have start : Remembered conn .initial false := fun _ _ member => nomatch member
  have inv : Remembered conn s (forgotten conn events) :=
    tally_invariant (fun _ _ _ _ (_ : True) => remembered_step) (along_of_forall fun _ _ _ _ _ _ => trivial)
      start reached
  obtain ⟨x, member, opened, -, raw⟩ := mem_openConns.mp (List.mem_toFinset.mp carried)
  exact inv kept x member opened raw

/-! The answer. -/

theorem authenticated_of_opened {x : Stream} (opened : x.opened = true) : x.authenticated = true := by
  unfold Stream.opened at opened
  unfold Stream.authenticated
  split at opened <;> simp_all

theorem mem_devices_of_isKnown {x : Stream} {conn : NetConn} (booked : s.Booked)
    (single : SingleUser s) (member : x ∈ s.streams) (authenticated : x.authenticated = true)
    (raw : x.conn = some conn) (known : s.tracker.isKnown conn = true) :
    conn ∈ devices x.user s.streams := by
  rw [ConnTracker.isKnown_eq, Option.isSome_iff_exists] at known
  obtain ⟨owner, named⟩ := known
  have listed := (booked.conns owner).mem_iff.mp (booked.entry conn owner named)
  obtain ⟨y, inside, opened, rfl, same⟩ := mem_openConns.mp listed
  have user : x.user = y.user := single x member y inside authenticated
    (authenticated_of_opened opened) (by simp [raw]) (raw.trans same.symm)
  rw [user]
  exact List.mem_toFinset.mpr listed

theorem answersDeviceLimit_iff {index : Nat} {x : Stream} {conn : NetConn}
    (found : s.streams[index]? = some x) (stood : x.phase = .checking) (raw : x.conn = some conn)
    (limited : x.maxDevices = limit) (positive : 0 < limit) :
    AnswersDeviceLimit s index ↔
      s.tracker.isKnown conn = false ∧ limit ≤ s.tracker.countUser x.user := by
  obtain ⟨inside, -⟩ := List.getElem?_eq_some_iff.mp found
  have asks : x.afterKnown (s.tracker.isKnown x.conn) =
      if s.tracker.isKnown conn then .admitted none else .counting := by
    simp [Stream.afterKnown, raw, limited, positive]
  have first : step s (.act index .isKnown) = some { s with
      streams := s.streams.set index { x with phase := x.afterKnown (s.tracker.isKnown x.conn) } } := by
    simp [step, found, Stream.act, stood]
  simp only [AnswersDeviceLimit, run_cons, first, Option.bind_some, run_nil]
  cases known : s.tracker.isKnown conn with
  | true =>
    simp [asks, known, step, inside, Stream.act]
  | false =>
    simp only [asks, known, step, inside, Stream.act, List.getElem?_set_self, Stream.afterCount,
      limited]
    by_cases full : limit ≤ s.tracker.countUser x.user <;> simp [full, inside]

/-- **Exactness of the limit**: a request of a user is answered `Device limit reached` exactly if its
connection carries no open stream of theirs and `limit` others do, wherever the answer is told by the streams. -/
theorem deviceLimit_exact {events : List Event} {index : Nat} {x : Stream} {conn : NetConn}
    (reached : run step .initial events = some s) (single : SingleUser s)
    (found : s.streams[index]? = some x) (stood : x.phase = .checking) (raw : x.conn = some conn)
    (limited : x.maxDevices = limit) (positive : 0 < limit) (told : Told events s x.user conn limit) :
    AnswersDeviceLimit s index ↔
      conn ∉ devices x.user s.streams ∧ limit ≤ ((devices x.user s.streams).erase conn).card := by
  have booked := booked_run reached
  have authenticated : x.authenticated = true := by simp only [Stream.authenticated, stood]
  rw [answersDeviceLimit_iff found stood raw limited positive, booked.countUser]
  rcases told with room | ⟨kept, alone⟩
  · have fewer : ((devices x.user s.streams).erase conn).card < limit :=
      calc ((devices x.user s.streams).erase conn).card
          ≤ (devices x.user s.streams).card := Finset.card_erase_le
        _ ≤ (openConns x.user s.streams).length := List.toFinset_card_le _
        _ < limit := room
    exact iff_of_false (fun answers => absurd room (not_lt.mpr answers.2))
      fun inUse => absurd fewer (not_lt.mpr inUse.2)
  · by_cases carried : conn ∈ devices x.user s.streams
    · have known := isKnown_of_remembered reached kept carried
      exact iff_of_false (fun answers => absurd known (by simp [answers.1])) fun inUse => inUse.1 carried
    · have unknown : s.tracker.isKnown (some conn) = false :=
        Bool.eq_false_iff.mpr (mt (mem_devices_of_isKnown booked single (List.mem_of_getElem? found)
          authenticated raw) carried)
      rw [Finset.erase_eq_of_notMem carried, devices, List.toFinset_card_of_nodup (alone.resolve_left carried)]
      exact and_congr_left' (iff_of_true unknown carried)

instance (s : Sys) : Decidable (SingleUser s) :=
  inferInstanceAs (Decidable (∀ x ∈ s.streams, ∀ y ∈ s.streams, _))

instance (events : List Event) (s : Sys) (username : String) (conn : NetConn) (limit : Nat) :
    Decidable (Told events s username conn limit) :=
  inferInstanceAs (Decidable (_ ∨ _ ∧ (_ ∨ _)))

/-- Two streams overlap on one connection; the first ends, and a third arrives. -/
def overlapping : List Event :=
  inTurn ++ [.act 0 .unregister] ++ entering 2 laptop "alice" 1

/-- **A device refused to itself**: the limit is one device, and the only device in use is the one
that asks. -/
theorem deviceLimit_ownConnection :
    ∃ s, run step .initial overlapping = some s ∧ SingleUser s ∧
      s.streams[2]? = some { conn := laptop, user := "alice", maxDevices := 1, phase := .checking } ∧
      devices "alice" s.streams = {laptop} ∧ AnswersDeviceLimit s 2 ∧
      ¬ (AnswersDeviceLimit s 2 ↔ laptop ∉ devices "alice" s.streams ∧
        1 ≤ ((devices "alice" s.streams).erase laptop).card) := by
  refine ⟨_, rfl, by decide, by decide, by decide, ⟨_, _, _, _, rfl, rfl, rfl⟩, fun same => ?_⟩
  exact absurd (same.mp ⟨_, _, _, _, rfl, rfl, rfl⟩).1 (by decide)

/-- A second device asks while the first has a stream. -/
def secondDevice : List Event :=
  entering 0 laptop "alice" 1 ++ [.act 0 .isKnown, .act 0 .countUser, .act 0 .register] ++
    entering 1 phone "alice" 1

theorem deviceLimit_exact_secondDevice :
    ∃ s, run step .initial secondDevice = some s ∧ SingleUser s ∧ Told secondDevice s "alice" phone 1 ∧
      (AnswersDeviceLimit s 1 ↔ phone ∉ devices "alice" s.streams ∧
        1 ≤ ((devices "alice" s.streams).erase phone).card) := by
  have asking : ∃ s, run step .initial secondDevice = some s ∧ SingleUser s ∧ Told secondDevice s "alice" phone 1 ∧
      s.streams[1]? = some ⟨phone, "alice", 1, .checking, .idle, .idle, false⟩ :=
    ⟨_, rfl, by decide, by decide, rfl⟩
  obtain ⟨s, reached, single, told, found⟩ := asking
  have answered := deviceLimit_exact reached single found rfl rfl rfl Nat.one_pos told
  exact ⟨s, reached, single, told, answered⟩

end Ttgo.Proxy

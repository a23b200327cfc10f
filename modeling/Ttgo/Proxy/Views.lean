/-
**The views of the tracker.**

The admin API reads the connections of a user in four ways: `ActiveUsers`, the rows of `Sessions`, the
`active_conns` of `UserStats`, and the search of `KickSession`. They are meant to agree on the connections
that carry an open stream of the user. Two maps stand behind them. `byUser` has one occurrence for each
stream, and `entries` has one entry for each connection, which the end of any of its streams drops.

* `ViewsAgree` — the four reads and the devices of each user.
* `Solo` — a stream is registered on a connection that carries no open stream.
* `Apart` — the books of a run whose streams do not overlap: a list has no connection twice, and a connection
  on a list has an entry of that user, with its address.
* `viewsAgree_iff` — where every connection is used by one user, the views agree throughout a run exactly if
  no two streams overlap on a connection.
-/

import Ttgo.Proxy.DeviceLimit
import Ttgo.Server.Statistics

namespace Ttgo.Proxy

open Ttgo.Auth Ttgo.Lib Ttgo.Server

/-- **The views of the tracker agree** with the open streams. -/
structure ViewsAgree (s : Sys) : Prop where
  activeUsers : ∀ username,
    (s.tracker.activeUsers.lookup username).getD 0 = (devices username s.streams).card
  sessions : ∀ username, s.tracker.sessionRows username = (devices username s.streams).card
  userStats : ∀ username, s.tracker.activeConns username = (devices username s.streams).card
  kickSession : ∀ username remoteAddr reason, s.tracker.kicksSession username remoteAddr reason = true ↔
    ∃ conn ∈ devices username s.streams, conn.remoteAddr = remoteAddr

/-- A connection carries the open streams of one user. -/
def OneUser (s : Sys) : Prop :=
  ∀ x ∈ s.streams, ∀ y ∈ s.streams, x.opened = true → y.opened = true → x.conn.isSome →
    x.conn = y.conn → x.user = y.user

/-- **A stream is alone on its connection** when it is registered. -/
def Solo (s : Sys) (event : Event) : Prop :=
  ∀ x ∈ s.registering event, ∀ y ∈ s.streams, y.opened = true → x.conn.isSome → y.conn ≠ x.conn

instance (s : Sys) : Decidable (OneUser s) :=
  inferInstanceAs (Decidable (∀ x ∈ s.streams, ∀ y ∈ s.streams, _))

instance (s : Sys) (event : Event) : Decidable (Solo s event) :=
  inferInstanceAs (Decidable (∀ x ∈ s.registering event, _))

/-! ### The books of streams that do not overlap -/

/-- The entries carry the addresses of their connections. -/
def Addressed (t : ConnTracker) : Prop :=
  ∀ conn e, t.entries.lookup conn = some e → e.remoteAddr = conn.remoteAddr

structure Apart (t : ConnTracker) : Prop where
  nodup : ∀ username, (t.conns username).Nodup
  named : ∀ conn username, conn ∈ t.conns username → t.entryUser conn = some username
  addressed : Addressed t

variable {t t' : ConnTracker} {s next : Sys} {x x' : Stream} {action : Action} {username : String}

theorem addressed_setEntry {conn : Option NetConn} {e e' : ConnEntry} (addressed : Addressed t)
    (found : t.connEntryFor conn = some e) (same : e'.remoteAddr = e.remoteAddr) :
    Addressed (t.setEntry conn e') := by
  cases conn with
  | none => exact addressed
  | some conn =>
    intro at' entry reads
    simp only [ConnTracker.setEntry, GoMap.lookup_insert_ite] at reads
    split at reads
    · next here =>
      cases reads
      rw [here, same]
      exact addressed conn e found
    · exact addressed at' entry reads

theorem addressed_updateTotals (addressed : Addressed t) (user : String)
    (update : UserTotals → UserTotals) : Addressed (t.updateTotals user update) := by
  unfold ConnTracker.updateTotals
  split <;> exact addressed

theorem addressed_register (addressed : Addressed t) (user : String) (conn : Option NetConn) :
    Addressed (t.register user conn) := by
  cases conn with
  | none => exact addressed
  | some conn =>
    intro at' e reads
    simp only [ConnTracker.register, GoMap.lookup_insert_ite] at reads
    split at reads
    · next here =>
      cases reads
      rw [here]
    · exact addressed at' e reads

theorem addressed_unregister (addressed : Addressed t) (user : String) (conn : Option NetConn) :
    Addressed (t.unregister user conn) := by
  cases conn with
  | none => exact addressed
  | some conn =>
    intro at' e reads
    simp only [ConnTracker.unregister, GoMap.lookup_erase_ite, Option.ite_none_left_eq_some] at reads
    exact addressed at' e reads.2

theorem addressed_resetUserTraffic (addressed : Addressed t) (user : String) :
    Addressed (t.resetUserTraffic user) := by
  intro conn e reads
  simp only [ConnTracker.resetUserTraffic, GoMap.lookup_mapValues, Option.map_eq_some_iff] at reads
  obtain ⟨old, found, rfl⟩ := reads
  rw [apply_ite ConnEntry.remoteAddr, ite_self]
  exact addressed_updateTotals addressed user _ conn old found

theorem addressed_act (addressed : Addressed t) (acted : x.act t action = some (t', x')) :
    Addressed t' := by
  cases acted_of_act acted with
  | isRevoked | checkExt | isKnown | countUser | copied => exact addressed
  | register active stood => exact addressed_register addressed x.user x.conn
  | unregister stood => exact addressed_unregister addressed x.user x.conn
  | credit dir owner bytes stood => exact addressed_updateTotals addressed owner _
  | tunnelOpened stood =>
    unfold ConnTracker.tunnelOpened
    split
    · exact addressed
    · next e found =>
      refine addressed_updateTotals ?_ _ _
      exact addressed_setEntry addressed found rfl
  | tunnelClosed stood =>
    unfold ConnTracker.tunnelClosed
    split
    · exact addressed
    · next e found => exact addressed_setEntry addressed found rfl
  | copyEnds dir bytes stood =>
    unfold ConnTracker.addBytesEntry
    split
    · exact addressed
    · next e found => exact addressed_setEntry addressed found rfl

theorem apart_register (apart : Apart t) {conn : NetConn} (user : String)
    (unlisted : ∀ other, conn ∉ t.conns other) : Apart (t.register user (some conn)) := by
  refine ⟨fun other => ?_, fun at' other listed => ?_, addressed_register apart.addressed user _⟩
  · rw [ConnTracker.conns_register]
    split
    · refine List.nodup_append.mpr ⟨apart.nodup user, List.nodup_singleton conn, ?_⟩
      rintro old member new inside rfl
      rw [List.mem_singleton] at inside
      exact unlisted user (inside ▸ member)
    · exact apart.nodup other
  · rw [ConnTracker.conns_register] at listed
    rw [ConnTracker.entryUser_register]
    split at listed
    · next same =>
      subst same
      rcases List.mem_append.mp listed with old | here
      · have elsewhere : at' ≠ conn := fun same => unlisted other (same ▸ old)
        rw [if_neg elsewhere]
        exact apart.named at' other old
      · rw [if_pos (List.mem_singleton.mp here)]
    · have elsewhere : at' ≠ conn := fun same => unlisted other (same ▸ listed)
      rw [if_neg elsewhere]
      exact apart.named at' other listed

theorem apart_unregister (apart : Apart t) {conn : NetConn} {user : String}
    (listed : conn ∈ t.conns user) : Apart (t.unregister user (some conn)) := by
  refine ⟨fun other => ?_, fun at' other left => ?_, addressed_unregister apart.addressed user _⟩
  · rw [ConnTracker.conns_unregister]
    split
    · exact (apart.nodup user).erase conn
    · exact apart.nodup other
  · rw [ConnTracker.conns_unregister] at left
    rw [ConnTracker.entryUser_unregister]
    split at left
    · next same =>
      obtain ⟨elsewhere, old⟩ := (apart.nodup user).mem_erase_iff.mp left
      rw [if_neg elsewhere, same]
      exact apart.named at' user old
    · next different =>
      -- the entry of the connection names one user
      have elsewhere : at' ≠ conn := by
        rintro rfl
        have both := (apart.named at' other left).symm.trans (apart.named at' user listed)
        exact different (Option.some.inj both)
      rw [if_neg elsewhere]
      exact apart.named at' other left

theorem apart_same (apart : Apart t) (conns : ∀ username, t'.conns username = t.conns username)
    (entryUser : ∀ conn, t'.entryUser conn = t.entryUser conn) (addressed : Addressed t') :
    Apart t' := by
  refine ⟨fun user => ?_, fun conn user listed => ?_, addressed⟩
  · rw [conns]
    exact apart.nodup user
  · rw [conns] at listed
    rw [entryUser]
    exact apart.named conn user listed

theorem opened_of_listed (booked : s.Booked) {conn : NetConn} (listed : conn ∈ s.tracker.conns username) :
    ∃ y ∈ s.streams, y.opened = true ∧ y.user = username ∧ y.conn = some conn :=
  mem_openConns.mp ((booked.conns username).mem_iff.mp listed)

theorem apart_step {event : Event} (booked : s.Booked) (solo : Solo s event) (apart : Apart s.tracker)
    (taken : step s event = some next) : Apart next.tracker := by
  rcases step_cases taken with ⟨index, action, x, t', x', rfl, found, acted, rfl⟩ | ⟨outer, other, -⟩
  · rcases act_cases acted with ⟨rfl, -, -, -, -, rfl⟩ | ⟨-, opened, -, -, -, rfl⟩ | ⟨-, -, -, views⟩
    · cases raw : x.conn with
      | none => exact apart
      | some conn =>
        refine apart_register apart x.user fun user listed => ?_
        obtain ⟨y, member, yOpened, -, same⟩ := opened_of_listed booked listed
        exact solo x found y member yOpened (by simp [raw]) (same.trans raw.symm)
    · cases raw : x.conn with
      | none => exact apart
      | some conn =>
        refine apart_unregister apart ((booked.conns x.user).mem_iff.mpr ?_)
        exact mem_openConns.mpr ⟨x, List.mem_of_getElem? found, opened, rfl, raw⟩
    · exact apart_same apart views.conns views.entryUser (addressed_act apart.addressed acted)
  · refine apart_same apart outer.conns outer.entryUser ?_
    cases event with
    | act index action => exact absurd rfl (other index action)
    | arrive conn =>
      obtain ⟨-, taken⟩ := Option.ite_none_left_eq_some.mp taken
      cases taken
      exact apart.addressed
    | kickUser user reason =>
      cases taken
      exact apart.addressed
    | kickSession user remoteAddr reason =>
      cases taken
      simp only [ConnTracker.kickSession]
      split <;> exact apart.addressed
    | kickFires index =>
      simp only [step, Option.bind_eq_bind, Option.bind_eq_some_iff, Option.pure_def,
        Option.some.injEq] at taken
      obtain ⟨list, -, rfl⟩ := taken
      exact apart.addressed
    | close conn =>
      cases taken
      exact apart.addressed
    | resetUserTraffic user =>
      cases taken
      exact addressed_resetUserTraffic apart.addressed user

/-! ### The views -/

theorem kicksSession_iff (t : ConnTracker) (username remoteAddr reason : String) :
    t.kicksSession username remoteAddr reason = true ↔
      ∃ conn ∈ t.conns username, ∃ e, t.entries.lookup conn = some e ∧ e.remoteAddr = remoteAddr := by
  have found : t.kicksSession username remoteAddr reason = (t.findSession username remoteAddr).isSome := by
    unfold ConnTracker.kicksSession ConnTracker.kickSession
    cases t.findSession username remoteAddr <;> rfl
  rw [found, ConnTracker.findSession, List.find?_isSome]
  refine exists_congr fun conn => and_congr_right fun _ => ?_
  cases t.entries.lookup conn with
  | none => simp
  | some e => simp

theorem viewsAgree_of_apart (booked : s.Booked) (apart : Apart s.tracker) : ViewsAgree s := by
  have listed : ∀ user conn, conn ∈ devices user s.streams ↔ conn ∈ s.tracker.conns user := by
    intro user conn
    rw [devices, List.mem_toFinset, (booked.conns user).mem_iff]
  have lists : ∀ user, (s.tracker.conns user).length = (devices user s.streams).card := by
    intro user
    rw [← List.toFinset_card_of_nodup (apart.nodup user)]
    congr 1
    ext conn
    rw [List.mem_toFinset, listed]
  have entries : ∀ user, (s.tracker.entryConns user).length = (devices user s.streams).card := by
    intro user
    rw [← List.toFinset_card_of_nodup (s.tracker.nodup_entryConns user)]
    congr 1
    ext conn
    rw [List.mem_toFinset, ConnTracker.mem_entryConns, listed]
    exact ⟨booked.entry conn user, apart.named conn user⟩
  refine ⟨fun user => ?_, fun user => ?_, fun user => ?_, fun user remoteAddr reason => ?_⟩
  · rw [ConnTracker.activeUsers_eq, lists]
  · rw [ConnTracker.sessionRows_eq, entries]
  · rw [ConnTracker.activeConns_userStats, entries]
  · rw [kicksSession_iff]
    refine exists_congr fun conn => ?_
    rw [listed]
    refine and_congr_right fun inside => ?_
    obtain ⟨e, found, -⟩ := Option.map_eq_some_iff.mp (apart.named conn user inside)
    rw [found, ← apart.addressed conn e found]
    simp

theorem solo_of_viewsAgree {event : Event} (booked : s.Booked) (agree : ViewsAgree s)
    (taken : step s event = some next) (oneUser : OneUser next) (agreeNext : ViewsAgree next) :
    Solo s event := by
  intro x registers y member opened hasConn same
  obtain ⟨conn, raw⟩ := Option.isSome_iff_exists.mp hasConn
  have bookedNext := booked_step booked taken
  obtain ⟨index, rfl, found⟩ : ∃ index, event = .act index .register ∧ s.streams[index]? = some x := by
    unfold Sys.registering at registers
    split at registers
    · exact ⟨_, rfl, registers⟩
    · cases registers
  obtain ⟨x₀, t', x', found', acted, rfl⟩ := step_act taken
  obtain rfl : x = x₀ := Option.some.inj (found.symm.trans found')
  rcases act_cases acted with ⟨-, shut, xOpened, user, xConn, rfl⟩ | ⟨absurd', -⟩ | ⟨-, still, -⟩
  · obtain ⟨inside, -⟩ := List.getElem?_eq_some_iff.mp found
    -- the other stream is still there, and is one of the same user
    have stays : y ∈ s.streams.set index x' := by
      obtain ⟨place, reads⟩ := List.mem_iff_getElem?.mp member
      refine List.mem_iff_getElem?.mpr ⟨place, ?_⟩
      rw [List.getElem?_set_ne, reads]
      rintro rfl
      rw [found] at reads
      cases reads
      rw [shut] at opened
      cases opened
    have owner : y.user = x.user := by
      rw [← user]
      exact oneUser y stays x' (List.mem_set inside x') opened xOpened
        (by rw [same]; exact hasConn) (same.trans xConn.symm)
    have already : conn ∈ openConns x.user s.streams :=
      mem_openConns.mpr ⟨y, member, opened, owner, same.trans raw⟩
    obtain ⟨rest, before, after⟩ := openConns_set found x' x.user
    simp only [Stream.carries, shut, xOpened, user, xConn, raw] at before after
    have sameDevices : devices x.user (s.streams.set index x') = devices x.user s.streams := by
      ext at'
      rw [devices, devices, List.mem_toFinset, List.mem_toFinset, after.mem_iff, before.mem_iff]
      rw [before.mem_iff] at already
      simp only [Bool.false_eq_true, and_true, if_false, Option.toList_none, List.nil_append,
        if_true, Option.toList_some, List.singleton_append, List.mem_cons] at already ⊢
      exact ⟨fun either => either.elim (fun here => here ▸ already) id, .inr⟩
    have more := agreeNext.activeUsers x.user
    have less := agree.activeUsers x.user
    rw [ConnTracker.activeUsers_eq] at more less
    simp only [raw, ConnTracker.conns_register, if_true, List.length_append, List.length_singleton,
      sameDevices] at more
    omega
  · cases absurd'
  · cases acted_of_act acted with
    | register active stood =>
      simp only [Stream.opened, stood] at still
      cases still

/-- **The views of the tracker.** In a run in which no connection carries open streams of two users, the
views agree in every state exactly if every stream is registered on a connection that carries no open
stream. -/
theorem viewsAgree_iff {events : List Event} (reached : run step .initial events = some s)
    (oneUser : Throughout step OneUser .initial events) :
    Throughout step ViewsAgree .initial events ↔ Along step Solo .initial events := by
  constructor
  · intro agree
    refine along_of_forall fun before event after middle split halfway => ?_
    obtain ⟨next, taken, agreeNext⟩ := agree.after_step reached split halfway
    obtain ⟨next', taken', oneNext⟩ := oneUser.after_step reached split halfway
    obtain rfl : next = next' := Option.some.inj (taken.symm.trans taken')
    exact solo_of_viewsAgree (booked_run halfway) (agree before _ middle split halfway) taken oneNext
      agreeNext
  · intro solo before after middle split halfway
    have start : Sys.initial.Booked ∧ Apart Sys.initial.tracker :=
      ⟨booked_initial, fun _ => .nil, fun _ _ listed => (nomatch listed), fun _ _ reads => (nomatch reads)⟩
    have kept : ∀ state event next, Solo state event → state.Booked ∧ Apart state.tracker →
        step state event = some next → next.Booked ∧ Apart next.tracker :=
      fun _ _ _ solo inv taken => ⟨booked_step inv.1 taken, apart_step inv.1 solo inv.2 taken⟩
    obtain ⟨booked, apart⟩ := throughout_invariant kept solo start before after middle split halfway
    exact viewsAgree_of_apart booked apart

/-- Two streams of one connection, one after the other, and then a device of another user. -/
def takingTurns : List Event :=
  entering 0 laptop "alice" 0 ++ [.act 0 .isKnown, .act 0 .register, .act 0 .unregister] ++
    entering 1 laptop "alice" 0 ++ [.act 1 .isKnown, .act 1 .register] ++
    entering 2 phone "bob" 0 ++ [.act 2 .isKnown, .act 2 .register]

theorem viewsAgree_takingTurns :
    ∃ s, run step .initial takingTurns = some s ∧ Along step Solo .initial takingTurns ∧
      devices "alice" s.streams = {laptop} ∧ Throughout step ViewsAgree .initial takingTurns := by
  have oneUser : Throughout step OneUser .initial takingTurns :=
    throughout_of_along (show run step .initial takingTurns = some _ from rfl) (by decide) (by decide)
  exact ⟨_, rfl, by decide, by decide, (viewsAgree_iff rfl oneUser).mpr (by decide)⟩

/-- **Views that disagree.** Two streams of one connection overlap: one device is in use, and `ActiveUsers`
says two. One of them ends: the device is still in use, and there is no session of the user, no connection
in the statistics, and nothing for `KickSession` to find. -/
theorem views_disagree :
    ∃ s s', run step .initial inTurn = some s ∧ step s (.act 0 .unregister) = some s' ∧
      Throughout step OneUser .initial (inTurn ++ [.act 0 .unregister]) ∧
      devices "alice" s.streams = {laptop} ∧ (s.tracker.activeUsers.lookup "alice").getD 0 = 2 ∧
      devices "alice" s'.streams = {laptop} ∧ s'.tracker.sessionRows "alice" = 0 ∧
      s'.tracker.activeConns "alice" = 0 ∧
      s'.tracker.kicksSession "alice" laptop.remoteAddr "" = false := by
  refine ⟨_, _, rfl, rfl, ?_, by decide, by decide, by decide, by decide, by decide, by decide⟩
  exact throughout_of_along (show run step .initial (inTurn ++ [.act 0 .unregister]) = some _ from rfl)
    (by decide) (by decide)

end Ttgo.Proxy

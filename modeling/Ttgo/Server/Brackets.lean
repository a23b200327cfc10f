/-
**Brackets of `Register` and `Unregister`.**

A handler calls `Register` when it lets a request in and `Unregister`, with the same user and connection, when
it returns. Any number of these brackets overlap in any order, for several users of one connection, and the
other methods of the tracker run in between.

* `Books`, `Call`, `step` — the tracker with the brackets that are open; `Unregister` closes one of them.
* `Balanced` — a connection is on a user's list once for each open bracket.
* `kickUser_exact` — so `KickUser` marks the connections that carry an open bracket of the user, and no other.
-/

import Ttgo.Lib.Run
import Ttgo.Server.ConnTracker

namespace Ttgo.Server.Brackets

open Ttgo.Lib

structure Books where
  tracker : ConnTracker
  /-- The brackets that are open, as often as they are. -/
  brackets : List (String × Option NetConn)
deriving DecidableEq

def Books.initial : Books := ⟨.empty, []⟩

inductive Call
  | register (username : String) (conn : Option NetConn)
  | unregister (username : String) (conn : Option NetConn)
  | tunnelOpened (conn : Option NetConn)
  | tunnelClosed (conn : Option NetConn)
  | addBytes (conn : Option NetConn) (bytesIn bytesOut : UInt64)
  | kickUser (username reason : String)
  | kickSession (username remoteAddr reason : String)
  | resetUserTraffic (username : String)
deriving DecidableEq, Repr

def step (s : Books) : Call → Option Books
  | .register username conn =>
    some ⟨s.tracker.register username conn, (username, conn) :: s.brackets⟩
  | .unregister username conn =>
    if (username, conn) ∈ s.brackets then
      some ⟨s.tracker.unregister username conn, s.brackets.erase (username, conn)⟩
    else none
  | .tunnelOpened conn => some { s with tracker := s.tracker.tunnelOpened conn }
  | .tunnelClosed conn => some { s with tracker := s.tracker.tunnelClosed conn }
  | .addBytes conn bytesIn bytesOut =>
    some { s with tracker := s.tracker.addBytes conn bytesIn bytesOut }
  | .kickUser username reason => some { s with tracker := (s.tracker.kickUser username reason).1 }
  | .kickSession username remoteAddr reason =>
    some { s with tracker := (s.tracker.kickSession username remoteAddr reason).1 }
  | .resetUserTraffic username => some { s with tracker := s.tracker.resetUserTraffic username }

/-- **The lists count the open brackets.** -/
def Balanced (s : Books) : Prop :=
  ∀ username conn, (s.tracker.conns username).count conn = s.brackets.count (username, some conn)

variable {s next : Books}

theorem balanced_register (balanced : Balanced s) (username : String) (conn : Option NetConn) :
    Balanced ⟨s.tracker.register username conn, (username, conn) :: s.brackets⟩ := by
  intro user at'
  rw [List.count_cons]
  cases conn with
  | none => simpa [ConnTracker.register] using balanced user at'
  | some conn =>
    rw [ConnTracker.conns_register]
    split
    · next same =>
      subst same
      simp [List.count_append, List.count_singleton, balanced user at']
    · next other => simp [Ne.symm other, balanced user at']

theorem balanced_unregister (balanced : Balanced s) (username : String) (conn : Option NetConn) :
    Balanced ⟨s.tracker.unregister username conn, s.brackets.erase (username, conn)⟩ := by
  intro user at'
  rw [List.count_erase]
  cases conn with
  | none => simpa [ConnTracker.unregister] using balanced user at'
  | some conn =>
    rw [ConnTracker.conns_unregister]
    split
    · next same =>
      subst same
      simp [List.count_erase, balanced user at']
    · next other => simp [Ne.symm other, balanced user at']

theorem balanced_same {t' : ConnTracker} (balanced : Balanced s)
    (conns : ∀ username, t'.conns username = s.tracker.conns username) :
    Balanced { s with tracker := t' } := by
  intro user at'
  rw [conns]
  exact balanced user at'

theorem conns_addBytes (t : ConnTracker) (conn : Option NetConn) (bytesIn bytesOut : UInt64)
    (username : String) : (t.addBytes conn bytesIn bytesOut).conns username = t.conns username := by
  unfold ConnTracker.addBytes
  split
  · rfl
  · next e found =>
    exact (((t.sameViews_addBytesEntry conn bytesIn bytesOut).trans
      (ConnTracker.sameViews_updateTotals _ _ _)).conns username)

theorem balanced_step {call : Call} (balanced : Balanced s) (taken : step s call = some next) :
    Balanced next := by
  cases call with
  | register username conn =>
    cases taken
    exact balanced_register balanced username conn
  | unregister username conn =>
    obtain ⟨-, taken⟩ := Option.ite_none_right_eq_some.mp taken
    cases taken
    exact balanced_unregister balanced username conn
  | tunnelOpened conn =>
    cases taken
    exact balanced_same balanced (s.tracker.sameViews_tunnelOpened conn).conns
  | tunnelClosed conn =>
    cases taken
    exact balanced_same balanced (s.tracker.sameViews_tunnelClosed conn).conns
  | addBytes conn bytesIn bytesOut =>
    cases taken
    exact balanced_same balanced (conns_addBytes s.tracker conn bytesIn bytesOut)
  | kickUser username reason =>
    cases taken
    exact balanced_same balanced fun _ => ConnTracker.conns_kickUser ..
  | kickSession username remoteAddr reason =>
    cases taken
    exact balanced_same balanced fun _ => ConnTracker.conns_kickSession ..
  | resetUserTraffic username =>
    cases taken
    exact balanced_same balanced (s.tracker.sameViews_resetUserTraffic username).conns

theorem balanced_run {calls : List Call} (reached : run step .initial calls = some s) : Balanced s :=
  run_invariant' (fun _ _ _ balanced taken => balanced_step balanced taken) (fun _ _ => rfl) reached

/-- **`KickUser` marks exactly the right connections.** After any run, a connection is on a user's list once for
each of their open brackets on it. So `KickUser` marks the connections that carry an open bracket of the user,
each with its reason, and leaves the marks of all others. -/
theorem kickUser_exact {calls : List Call} (reached : run step .initial calls = some s) :
    (∀ username conn, (s.tracker.conns username).count conn = s.brackets.count (username, some conn)) ∧
      ∀ username reason conn, (s.tracker.kickUser username reason).1.revoked.lookup conn =
        if (username, some conn) ∈ s.brackets then some reason else s.tracker.revoked.lookup conn := by
  have balanced := balanced_run reached
  refine ⟨balanced, fun username reason conn => ?_⟩
  have listed : conn ∈ s.tracker.conns username ↔ (username, some conn) ∈ s.brackets := by
    rw [← List.count_pos_iff, ← List.count_pos_iff, balanced]
  simp only [ConnTracker.revoked_kickUser, listed]

/-- Two users share a connection, one of them with two brackets, of which the first is closed. -/
def shared : List Call :=
  let laptop : NetConn := ⟨1, "192.0.2.1:4000"⟩
  [.register "alice" laptop, .register "bob" laptop, .register "alice" laptop,
    .kickUser "bob" "Account deleted", .unregister "alice" laptop]

theorem kickUser_exact_shared :
    ∃ s, run step .initial shared = some s ∧
      (s.tracker.conns "alice").count ⟨1, "192.0.2.1:4000"⟩ = 1 ∧
      s.tracker.revoked.lookup ⟨1, "192.0.2.1:4000"⟩ = none ∧
      (s.tracker.kickUser "alice" "Account suspended").1.revoked.lookup ⟨1, "192.0.2.1:4000"⟩ =
        some "Account suspended" :=
  ⟨_, rfl, by decide, by decide,
    ((kickUser_exact (show run step .initial shared = some _ from rfl)).2 "alice" "Account suspended"
      ⟨1, "192.0.2.1:4000"⟩).trans (if_pos (by decide))⟩

end Ttgo.Server.Brackets

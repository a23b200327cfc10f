/-
**`ConnTracker`: active connections, live statistics and revocation.**

The tracker of `internal/server/conntrack.go`, one definition per method. Each definition is what the
method does inside one critical section of `t.mu` (and of `t.totalsMu`, whose map only ever grows);
the methods are interleaved by the systems built on top of this module.

* `entries` maps a connection to its live state, `byUser` a user to the connections registered for
  them, with one occurrence per registration, `revoked` a connection to the reason it was kicked for,
  `totalsByUser` a user to counters that survive a disconnect.
* A `net.Conn` may be `nil` (a request whose context carries no raw connection); every method then
  does nothing, so the methods take an `Option NetConn`.
* The entries are pointers in the source. `addBytes` fetches an entry and adds to its counters after
  the lock is released; an entry that was replaced in between is no longer reachable, so adding at
  the fetch gives the same visible state.
-/

import Ttgo.Lib.GoMap

namespace Ttgo.Server

open Ttgo.Lib

/-- `net.Conn`, compared by identity; the remote address is fixed for its lifetime. -/
structure NetConn where
  fd : Nat
  remoteAddr : String
deriving DecidableEq, Repr

/-- `connEntry`: the live state of one connection. -/
structure ConnEntry where
  username : String
  remoteAddr : String
  bytesIn : UInt64 := 0
  bytesOut : UInt64 := 0
  openTunnels : Int32 := 0
  totalTunnels : UInt64 := 0
deriving DecidableEq, Repr

/-- `userTotals`: cumulative counters of one user. -/
structure UserTotals where
  bytesIn : UInt64 := 0
  bytesOut : UInt64 := 0
  totalTunnels : UInt64 := 0
  flushedBytes : UInt64 := 0
deriving DecidableEq, Repr

structure ConnTracker where
  entries : GoMap NetConn ConnEntry
  byUser : GoMap String (List NetConn)
  revoked : GoMap NetConn String
  totalsByUser : GoMap String UserTotals
deriving DecidableEq

namespace ConnTracker

/-- `GlobalConnTracker` as the process starts. -/
def empty : ConnTracker := ⟨∅, ∅, ∅, ∅⟩

/-- `t.byUser[username]`, the nil slice for an absent key. -/
def conns (t : ConnTracker) (username : String) : List NetConn :=
  (t.byUser.lookup username).getD []

/-- `Register` creates the connection's entry, whether or not there is one already. -/
def register (t : ConnTracker) (username : String) : Option NetConn → ConnTracker
  | none => t
  | some conn =>
    { t with
      entries := t.entries.insert conn { username, remoteAddr := conn.remoteAddr }
      byUser := t.byUser.insert username (t.conns username ++ [conn])
      totalsByUser :=
        match t.totalsByUser.lookup username with
        | none => t.totalsByUser.insert username {}
        | some _ => t.totalsByUser }

/-- The loop of `Unregister`: the first occurrence of the connection is spliced out. -/
def spliceConn (byUser : GoMap String (List NetConn)) (username : String) (conn : NetConn) :
    GoMap String (List NetConn) :=
  let list := (byUser.lookup username).getD []
  if conn ∈ list then byUser.insert username (list.erase conn) else byUser

/-- A user without connections loses the key. -/
def dropConn (byUser : GoMap String (List NetConn)) (username : String) (conn : NetConn) :
    GoMap String (List NetConn) :=
  let spliced := spliceConn byUser username conn
  if (spliced.lookup username).getD [] = [] then spliced.erase username else spliced

/-- `Unregister` drops the connection's entry and its revocation with it. -/
def unregister (t : ConnTracker) (username : String) : Option NetConn → ConnTracker
  | none => t
  | some conn =>
    { t with
      entries := t.entries.erase conn
      byUser := dropConn t.byUser username conn
      revoked := t.revoked.erase conn }

def connEntryFor (t : ConnTracker) : Option NetConn → Option ConnEntry
  | none => none
  | some conn => t.entries.lookup conn

/-- `e` updated in place, where `e` is the entry of `conn`. -/
def setEntry (t : ConnTracker) (conn : Option NetConn) (entry : ConnEntry) : ConnTracker :=
  match conn with
  | none => t
  | some conn => { t with entries := t.entries.insert conn entry }

/-- The counters of a user updated in place, if there are any. -/
def updateTotals (t : ConnTracker) (username : String) (update : UserTotals → UserTotals) :
    ConnTracker :=
  match t.totalsByUser.lookup username with
  | none => t
  | some totals => { t with totalsByUser := t.totalsByUser.insert username (update totals) }

def tunnelOpened (t : ConnTracker) (conn : Option NetConn) : ConnTracker :=
  match t.connEntryFor conn with
  | none => t
  | some e =>
    (t.setEntry conn
      { e with openTunnels := e.openTunnels + 1, totalTunnels := e.totalTunnels + 1 }).updateTotals
      e.username fun totals => { totals with totalTunnels := totals.totalTunnels + 1 }

def tunnelClosed (t : ConnTracker) (conn : Option NetConn) : ConnTracker :=
  match t.connEntryFor conn with
  | none => t
  | some e => t.setEntry conn { e with openTunnels := e.openTunnels - 1 }

/-- The first part of `AddBytes`: the entry is fetched and its counters are raised. -/
def addBytesEntry (t : ConnTracker) (conn : Option NetConn) (bytesIn bytesOut : UInt64) :
    ConnTracker :=
  match t.connEntryFor conn with
  | none => t
  | some e =>
    t.setEntry conn { e with bytesIn := e.bytesIn + bytesIn, bytesOut := e.bytesOut + bytesOut }

/-- The second part of `AddBytes`: the totals of the user that the entry named. -/
def addBytesTotals (t : ConnTracker) (username : String) (bytesIn bytesOut : UInt64) : ConnTracker :=
  t.updateTotals username fun totals =>
    { totals with bytesIn := totals.bytesIn + bytesIn, bytesOut := totals.bytesOut + bytesOut }

/-- `AddBytes` without interference between its two parts. -/
def addBytes (t : ConnTracker) (conn : Option NetConn) (bytesIn bytesOut : UInt64) : ConnTracker :=
  match t.connEntryFor conn with
  | none => t
  | some e => (t.addBytesEntry conn bytesIn bytesOut).addBytesTotals e.username bytesIn bytesOut

/-- `IsRevoked`: the reason, if the connection is marked. -/
def isRevoked (t : ConnTracker) : Option NetConn → Option String
  | none => none
  | some conn => t.revoked.lookup conn

/-- `KickUser` marks every connection of the user and hands them to `scheduleKick`. -/
def kickUser (t : ConnTracker) (username reason : String) : ConnTracker × List NetConn :=
  ({ t with revoked := GoMap.insertAll t.revoked (t.conns username) reason }, t.conns username)

/-- The search of `KickSession`: the user's first connection whose entry has the address. -/
def findSession (t : ConnTracker) (username remoteAddr : String) : Option NetConn :=
  (t.conns username).find? fun conn =>
    match t.entries.lookup conn with
    | none => false
    | some e => e.remoteAddr = remoteAddr

/-- `KickSession`: the mark, and the connections handed to `scheduleKick` (none: not found). -/
def kickSession (t : ConnTracker) (username remoteAddr reason : String) :
    ConnTracker × List NetConn :=
  match t.findSession username remoteAddr with
  | none => (t, [])
  | some conn => ({ t with revoked := t.revoked.insert conn reason }, [conn])

def isKnown (t : ConnTracker) : Option NetConn → Bool
  | none => false
  | some conn => (t.entries.lookup conn).isSome

def countUser (t : ConnTracker) (username : String) : Nat := (t.conns username).length

/-- `ResetUserTraffic`: the totals, then the live counters of the user's entries. -/
def resetUserTraffic (t : ConnTracker) (username : String) : ConnTracker :=
  let cleared := t.updateTotals username fun totals =>
    { totals with bytesIn := 0, bytesOut := 0, flushedBytes := 0 }
  { cleared with
    entries := GoMap.mapValues cleared.entries fun e =>
      if e.username = username then { e with bytesIn := 0, bytesOut := 0 } else e }

/-! ### What each method changes

Three views determine every decision made from the tracker: the connections of a user (`conns`),
the user an entry names (`entryUser`) and the revocation marks. -/

/-- The user that the connection's entry names. -/
def entryUser (t : ConnTracker) (conn : NetConn) : Option String :=
  (t.entries.lookup conn).map ConnEntry.username

theorem isKnown_eq (t : ConnTracker) (conn : NetConn) :
    t.isKnown (some conn) = (t.entryUser conn).isSome := by
  simp only [isKnown, entryUser, Option.isSome_map]

section Views

variable (t : ConnTracker) (username other reason remoteAddr : String) (conn at' : NetConn)

theorem conns_register :
    (t.register username (some conn)).conns other =
      if other = username then t.conns username ++ [conn] else t.conns other := by
  simp only [register, conns, GoMap.lookup_insert_ite]
  split <;> rfl

theorem entryUser_register :
    (t.register username (some conn)).entryUser at' =
      if at' = conn then some username else t.entryUser at' := by
  simp only [register, entryUser, GoMap.lookup_insert_ite]
  split <;> rfl

theorem lookup_spliceConn (byUser : GoMap String (List NetConn)) :
    ((spliceConn byUser username conn).lookup other).getD [] =
      if other = username then ((byUser.lookup username).getD []).erase conn
      else (byUser.lookup other).getD [] := by
  by_cases present : conn ∈ (byUser.lookup username).getD []
  · simp only [spliceConn, if_pos present, GoMap.lookup_insert_ite]
    split <;> rfl
  · simp only [spliceConn, if_neg present, List.erase_of_not_mem present]
    split
    · next same => rw [same]
    · rfl

theorem lookup_dropConn (byUser : GoMap String (List NetConn)) :
    ((dropConn byUser username conn).lookup other).getD [] =
      if other = username then ((byUser.lookup username).getD []).erase conn
      else (byUser.lookup other).getD [] := by
  rw [← lookup_spliceConn]
  by_cases isEmpty : ((spliceConn byUser username conn).lookup username).getD [] = []
  · simp only [dropConn, if_pos isEmpty, GoMap.lookup_erase_ite]
    split
    · next same => rw [same, isEmpty, Option.getD_none]
    · rfl
  · simp only [dropConn, if_neg isEmpty]

theorem conns_unregister :
    (t.unregister username (some conn)).conns other =
      if other = username then (t.conns username).erase conn else t.conns other :=
  lookup_dropConn username other conn t.byUser

theorem entryUser_unregister :
    (t.unregister username (some conn)).entryUser at' =
      if at' = conn then none else t.entryUser at' := by
  simp only [unregister, entryUser, GoMap.lookup_erase_ite]
  split <;> rfl

theorem revoked_unregister :
    (t.unregister username (some conn)).revoked.lookup at' =
      if at' = conn then none else t.revoked.lookup at' :=
  GoMap.lookup_erase_ite t.revoked at' conn

@[simp] theorem conns_kickUser : (t.kickUser username reason).1.conns other = t.conns other := rfl

theorem revoked_kickUser :
    (t.kickUser username reason).1.revoked.lookup at' =
      if at' ∈ t.conns username then some reason else t.revoked.lookup at' :=
  GoMap.lookup_insertAll t.revoked at' _ _

@[simp] theorem conns_kickSession :
    (t.kickSession username remoteAddr reason).1.conns other = t.conns other := by
  unfold kickSession
  split <;> rfl

@[simp] theorem entryUser_kickSession :
    (t.kickSession username remoteAddr reason).1.entryUser at' = t.entryUser at' := by
  unfold kickSession
  split <;> rfl

theorem revoked_kickSession :
    (t.kickSession username remoteAddr reason).1.revoked.lookup at' =
      if t.findSession username remoteAddr = some at' then some reason
      else t.revoked.lookup at' := by
  unfold kickSession
  cases found : t.findSession username remoteAddr with
  | none => simp
  | some target =>
    simp only [GoMap.lookup_insert_ite, Option.some.injEq]
    by_cases same : at' = target
    · rw [if_pos same, if_pos same.symm]
    · rw [if_neg same, if_neg (Ne.symm same)]

theorem revoked_kickSession_isSome (marked : (t.revoked.lookup at').isSome) :
    ((t.kickSession username remoteAddr reason).1.revoked.lookup at').isSome := by
  rw [revoked_kickSession]
  split
  · rfl
  · exact marked

end Views

/-! ### Statistics leave the views alone -/

/-- The two trackers agree on every view. -/
structure SameViews (t t' : ConnTracker) : Prop where
  conns : ∀ username, t'.conns username = t.conns username
  entryUser : ∀ conn, t'.entryUser conn = t.entryUser conn
  revoked : t'.revoked = t.revoked

namespace SameViews

variable {t t' t'' : ConnTracker}

theorem refl (t : ConnTracker) : SameViews t t := ⟨fun _ => rfl, fun _ => rfl, rfl⟩

theorem trans (first : SameViews t t') (second : SameViews t' t'') : SameViews t t'' :=
  ⟨fun username => (second.conns username).trans (first.conns username),
    fun conn => (second.entryUser conn).trans (first.entryUser conn),
    second.revoked.trans first.revoked⟩

end SameViews

theorem sameViews_updateTotals (t : ConnTracker) (username : String)
    (update : UserTotals → UserTotals) : SameViews t (t.updateTotals username update) := by
  unfold updateTotals
  split
  · exact SameViews.refl t
  · exact ⟨fun _ => rfl, fun _ => rfl, rfl⟩

theorem sameViews_setEntry (t : ConnTracker) (conn : Option NetConn) (e e' : ConnEntry)
    (found : t.connEntryFor conn = some e) (same : e'.username = e.username) :
    SameViews t (t.setEntry conn e') := by
  cases conn with
  | none => cases found
  | some conn =>
    refine ⟨fun _ => rfl, fun at' => ?_, rfl⟩
    have found : t.entries.lookup conn = some e := found
    simp only [setEntry, entryUser, GoMap.lookup_insert_ite]
    split
    · next here => rw [here, found, Option.map_some, Option.map_some, same]
    · rfl

theorem sameViews_tunnelOpened (t : ConnTracker) (conn : Option NetConn) :
    SameViews t (t.tunnelOpened conn) := by
  unfold tunnelOpened
  split
  · exact SameViews.refl t
  · next e found =>
    refine SameViews.trans ?_ (sameViews_updateTotals _ _ _)
    exact sameViews_setEntry t conn e _ found rfl

theorem sameViews_tunnelClosed (t : ConnTracker) (conn : Option NetConn) :
    SameViews t (t.tunnelClosed conn) := by
  unfold tunnelClosed
  split
  · exact SameViews.refl t
  · next e found => exact sameViews_setEntry t conn e _ found rfl

theorem sameViews_addBytesEntry (t : ConnTracker) (conn : Option NetConn) (bytesIn bytesOut : UInt64) :
    SameViews t (t.addBytesEntry conn bytesIn bytesOut) := by
  unfold addBytesEntry
  split
  · exact SameViews.refl t
  · next e found => exact sameViews_setEntry t conn e _ found rfl

theorem sameViews_resetUserTraffic (t : ConnTracker) (username : String) :
    SameViews t (t.resetUserTraffic username) := by
  refine (sameViews_updateTotals t username _).trans ⟨fun _ => rfl, fun conn => ?_, rfl⟩
  unfold entryUser resetUserTraffic
  rw [GoMap.lookup_mapValues, Option.map_map]
  congr 1
  funext e
  simp only [Function.comp_apply]
  split <;> rfl

/-! ### Totals -/

/-- The bytes counted for a user from the client, as `UserStats` shows them. -/
def totalIn (t : ConnTracker) (username : String) : UInt64 :=
  ((t.totalsByUser.lookup username).map UserTotals.bytesIn).getD 0

/-- The bytes counted for a user to the client. -/
def totalOut (t : ConnTracker) (username : String) : UInt64 :=
  ((t.totalsByUser.lookup username).map UserTotals.bytesOut).getD 0

theorem lookup_updateTotals (t : ConnTracker) (username other : String)
    (update : UserTotals → UserTotals) :
    (t.updateTotals username update).totalsByUser.lookup other =
      if other = username then (t.totalsByUser.lookup username).map update
      else t.totalsByUser.lookup other := by
  unfold updateTotals
  split
  · next absent =>
    rw [absent, Option.map_none]
    split
    · next same => rw [same, absent]
    · rfl
  · next totals found => rw [GoMap.lookup_insert_ite, found, Option.map_some]

theorem lookup_totals_register (t : ConnTracker) (username other : String) (conn : NetConn) :
    (t.register username (some conn)).totalsByUser.lookup other =
      if other = username then some ((t.totalsByUser.lookup username).getD {})
      else t.totalsByUser.lookup other := by
  simp only [register]
  split
  · next absent => rw [GoMap.lookup_insert_ite, absent, Option.getD_none]
  · next totals found =>
    rw [found, Option.getD_some]
    split
    · next same => rw [same, found]
    · rfl

@[simp] theorem totals_setEntry (t : ConnTracker) (conn : Option NetConn) (e : ConnEntry) :
    (t.setEntry conn e).totalsByUser = t.totalsByUser := by
  cases conn <;> rfl

@[simp] theorem totals_unregister (t : ConnTracker) (username : String) (conn : Option NetConn) :
    (t.unregister username conn).totalsByUser = t.totalsByUser := by
  cases conn <;> rfl

@[simp] theorem totals_tunnelClosed (t : ConnTracker) (conn : Option NetConn) :
    (t.tunnelClosed conn).totalsByUser = t.totalsByUser := by
  unfold tunnelClosed
  split
  · rfl
  · exact totals_setEntry ..

@[simp] theorem totals_addBytesEntry (t : ConnTracker) (conn : Option NetConn)
    (bytesIn bytesOut : UInt64) :
    (t.addBytesEntry conn bytesIn bytesOut).totalsByUser = t.totalsByUser := by
  unfold addBytesEntry
  split
  · rfl
  · exact totals_setEntry ..

@[simp] theorem totals_kickSession (t : ConnTracker) (username remoteAddr reason : String) :
    (t.kickSession username remoteAddr reason).1.totalsByUser = t.totalsByUser := by
  unfold kickSession
  split <;> rfl

end ConnTracker

def laptop : NetConn := ⟨1, "192.0.2.1:4000"⟩

def phone : NetConn := ⟨2, "192.0.2.2:4000"⟩

end Ttgo.Server

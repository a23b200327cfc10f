/-
**What the tracker shows of itself.**

The reads of `internal/server/conntrack.go` that the admin API serves: the sessions, the statistics of the users
and the number of connections of each. Every one of them is taken under the read lock, so it is a function
of one state of the tracker.

* `sessions` — one row for each entry; `userStats` — the entries summed up by user, over the cumulative
  counters; `activeUsers` — the length of each user's list.
* `kicksSession` — what `KickSession` returns.
* `entryConns` — the connections whose entry names a user.
* `sessionRows_eq`, `activeConns_userStats` — the rows and the statistics of a user count these.
-/

import Ttgo.Server.ConnTracker

namespace Ttgo.Server

open Ttgo.Lib

structure SessionInfo where
  username : String
  remoteAddr : String
  bytesIn : UInt64
  bytesOut : UInt64
  openTunnels : Int32
  totalTunnels : UInt64
deriving DecidableEq, Repr

structure UserStats where
  username : String
  activeConns : Nat := 0
  bytesIn : UInt64 := 0
  bytesOut : UInt64 := 0
  openTunnels : Int32 := 0
  totalTunnels : UInt64 := 0
deriving DecidableEq, Repr

def ConnEntry.session (e : ConnEntry) : SessionInfo :=
  ⟨e.username, e.remoteAddr, e.bytesIn, e.bytesOut, e.openTunnels, e.totalTunnels⟩

namespace ConnTracker

def sessions (t : ConnTracker) : List SessionInfo :=
  t.entries.entries.map fun pair => pair.2.session

/-- The first loop of `UserStats`, for one entry. -/
def countEntry (live : GoMap String UserStats) (e : ConnEntry) : GoMap String UserStats :=
  let s := (live.lookup e.username).getD { username := e.username }
  live.insert e.username
    { s with
      activeConns := s.activeConns + 1
      bytesIn := s.bytesIn + e.bytesIn
      bytesOut := s.bytesOut + e.bytesOut
      openTunnels := s.openTunnels + e.openTunnels }

/-- The second loop of `UserStats`, for one user: the bytes are those since the user was first seen. -/
def coverTotals (live : GoMap String UserStats) (username : String) (totals : UserTotals) :
    GoMap String UserStats :=
  let s := (live.lookup username).getD { username }
  live.insert username
    { s with
      bytesIn := totals.bytesIn
      bytesOut := totals.bytesOut
      totalTunnels := totals.totalTunnels }

/-- The map `live` after both loops. -/
def liveStats (t : ConnTracker) : GoMap String UserStats :=
  t.totalsByUser.entries.foldl (fun live pair => coverTotals live pair.1 pair.2)
    (t.entries.entries.foldl (fun live pair => countEntry live pair.2) ∅)

def userStats (t : ConnTracker) : List UserStats := t.liveStats.entries.map fun pair => pair.2

def activeUsers (t : ConnTracker) : GoMap String Nat := GoMap.convertValues t.byUser List.length

/-- What `KickSession` returns: there was a target. -/
def kicksSession (t : ConnTracker) (username remoteAddr reason : String) : Bool :=
  !(t.kickSession username remoteAddr reason).2.isEmpty

def sessionRows (t : ConnTracker) (username : String) : Nat :=
  (t.sessions.filter (·.username = username)).length

/-- The `active_conns` of a user in the statistics, zero for a user without a row. -/
def activeConns (t : ConnTracker) (username : String) : Nat :=
  ((t.userStats.find? (·.username = username)).map UserStats.activeConns).getD 0

variable (t : ConnTracker) (username : String)

theorem activeUsers_eq : (t.activeUsers.lookup username).getD 0 = (t.conns username).length := by
  rw [activeUsers, GoMap.lookup_convertValues, conns]
  cases t.byUser.lookup username <;> rfl

/-! ### The entries of a user -/

/-- The connections whose entry names the user. -/
def entryConns : List NetConn :=
  (t.entries.entries.filter fun pair => pair.2.username = username).map Sigma.fst

theorem nodup_entryConns : (t.entryConns username).Nodup :=
  (List.filter_sublist.map Sigma.fst).nodup t.entries.nodupKeys

theorem mem_entryConns {conn : NetConn} :
    conn ∈ t.entryConns username ↔ t.entryUser conn = some username := by
  rw [entryConns, entryUser, Option.map_eq_some_iff, List.mem_map]
  constructor
  · rintro ⟨⟨found, e⟩, member, rfl⟩
    obtain ⟨member, named⟩ := List.mem_filter.mp member
    exact ⟨e, AList.mem_lookup_iff.mpr member, of_decide_eq_true named⟩
  · rintro ⟨e, found, named⟩
    exact ⟨⟨conn, e⟩, List.mem_filter.mpr ⟨AList.mem_lookup_iff.mp found, decide_eq_true named⟩, rfl⟩

theorem sessionRows_eq : t.sessionRows username = (t.entryConns username).length := by
  rw [sessionRows, sessions, List.filter_map, List.length_map, entryConns, List.length_map]
  rfl

/-! ### The statistics -/

/-- The statistics in a map stand under their own names. -/
def Keyed (live : GoMap String UserStats) : Prop :=
  ∀ name stats, live.lookup name = some stats → stats.username = name

/-- The connections that a map of statistics counts for the user. -/
def counted (live : GoMap String UserStats) : Nat :=
  ((live.lookup username).map UserStats.activeConns).getD 0

variable {username} {live : GoMap String UserStats}

theorem keyed_insert {name : String} {stats : UserStats} (keyed : Keyed live)
    (named : stats.username = name) : Keyed (live.insert name stats) := by
  intro other found reads
  rw [GoMap.lookup_insert_ite] at reads
  split at reads
  · next same =>
    cases reads
    exact named.trans same.symm
  · exact keyed other found reads

theorem username_getD (keyed : Keyed live) (name : String) :
    ((live.lookup name).getD { username := name }).username = name := by
  cases reads : live.lookup name with
  | none => rfl
  | some stats => exact keyed name stats reads

theorem counted_insert (name : String) (stats : UserStats) :
    counted username (live.insert name stats) =
      if username = name then stats.activeConns else counted username live := by
  rw [counted, GoMap.lookup_insert_ite]
  split <;> rfl

theorem activeConns_getD (name : String) :
    ((live.lookup name).getD { username := name }).activeConns = counted name live := by
  rw [counted]
  cases live.lookup name <;> rfl

theorem keyed_countEntry (keyed : Keyed live) (e : ConnEntry) : Keyed (countEntry live e) :=
  keyed_insert keyed (username_getD keyed e.username)

theorem counted_countEntry (e : ConnEntry) :
    counted username (countEntry live e) =
      counted username live + if e.username = username then 1 else 0 := by
  rw [countEntry, counted_insert]
  split
  · next same => rw [activeConns_getD, same, if_pos rfl]
  · next other => rw [if_neg (Ne.symm other), Nat.add_zero]

theorem keyed_coverTotals (keyed : Keyed live) (name : String) (totals : UserTotals) :
    Keyed (coverTotals live name totals) :=
  keyed_insert keyed (username_getD keyed name)

theorem counted_coverTotals (name : String) (totals : UserTotals) :
    counted username (coverTotals live name totals) = counted username live := by
  rw [coverTotals, counted_insert]
  split
  · next same => rw [activeConns_getD, same]
  · rfl

variable (username) in
theorem counted_entries (pairs : List (Sigma fun _ : NetConn => ConnEntry)) (keyed : Keyed live) :
    Keyed (pairs.foldl (fun live pair => countEntry live pair.2) live) ∧
      counted username (pairs.foldl (fun live pair => countEntry live pair.2) live) =
        counted username live + (pairs.filter fun pair => pair.2.username = username).length := by
  induction pairs generalizing live with
  | nil => exact ⟨keyed, rfl⟩
  | cons pair pairs ih =>
    obtain ⟨named, number⟩ := ih (keyed_countEntry keyed pair.2)
    refine ⟨named, ?_⟩
    rw [List.foldl_cons, number, counted_countEntry, List.filter_cons]
    by_cases here : pair.2.username = username
    · simp only [here, if_true, decide_true, List.length_cons]
      omega
    · simp only [here, if_false, decide_false, Nat.add_zero, Bool.false_eq_true]

variable (username) in
theorem counted_totals (pairs : List (Sigma fun _ : String => UserTotals)) (keyed : Keyed live) :
    Keyed (pairs.foldl (fun live pair => coverTotals live pair.1 pair.2) live) ∧
      counted username (pairs.foldl (fun live pair => coverTotals live pair.1 pair.2) live) =
        counted username live := by
  induction pairs generalizing live with
  | nil => exact ⟨keyed, rfl⟩
  | cons pair pairs ih =>
    obtain ⟨named, number⟩ := ih (keyed_coverTotals keyed pair.1 pair.2)
    exact ⟨named, number.trans (counted_coverTotals pair.1 pair.2)⟩

theorem find_values (keyed : Keyed live) :
    (live.entries.map fun pair => pair.2).find? (·.username = username) = live.lookup username := by
  have under : ∀ stats, stats ∈ (live.entries.map fun pair => pair.2) → stats.username = username →
      live.lookup username = some stats := by
    intro stats member named
    obtain ⟨⟨name, found⟩, inside, rfl⟩ := List.mem_map.mp member
    have reads : live.lookup name = some found := AList.mem_lookup_iff.mpr inside
    rwa [← keyed name found reads, named] at reads
  cases reads : live.lookup username with
  | none =>
    refine List.find?_eq_none.mpr fun stats member named => ?_
    rw [under stats member (of_decide_eq_true named)] at reads
    cases reads
  | some stats =>
    have inside : stats ∈ live.entries.map fun pair => pair.2 :=
      List.mem_map.mpr ⟨⟨username, stats⟩, AList.mem_lookup_iff.mp reads, rfl⟩
    have isRow : decide (stats.username = username) = true := decide_eq_true (keyed username stats reads)
    cases found : (live.entries.map fun pair => pair.2).find? (·.username = username) with
    | none => exact absurd isRow (List.find?_eq_none.mp found stats inside)
    | some row =>
      have isUser : row.username = username := by simpa using List.find?_some found
      rw [← reads, under row (List.mem_of_find?_eq_some found) isUser]

theorem activeConns_userStats (t : ConnTracker) (username : String) :
    t.activeConns username = (t.entryConns username).length := by
  have empty : Keyed ∅ := fun _ _ reads => nomatch reads
  obtain ⟨keyed, entries⟩ := counted_entries username t.entries.entries empty
  obtain ⟨named, totals⟩ := counted_totals username t.totalsByUser.entries keyed
  have row : t.userStats.find? (·.username = username) = t.liveStats.lookup username := find_values named
  calc t.activeConns username = counted username t.liveStats := by rw [activeConns, row, counted]
    _ = counted username ∅ + (t.entryConns username).length := by
        rw [liveStats, totals, entries, entryConns, List.length_map]
    _ = (t.entryConns username).length := Nat.zero_add _

end ConnTracker

end Ttgo.Server

/-
**The connections that the client shows.**

`trackConn`, `untrackConn` and `AllConns` of `internal/client/tun.go`. A connection is in a map while it is open and
moves to the end of a list when it ends; of the list the last 500 are kept. Each call holds `connMu`, so the calls on a
device form a sequence.

* `TunDevice` — the fields, and the calls on them.
* `Log` — what has happened, with nothing cut off: the connections that were started, and those that ended.
* `Log.WellFormed` — what has ended was started, and ended once.
* `Refines t log` — the device is what its log says; `refines_call` — and stays so with every call.
* `allConns_faithful` — what `AllConns` shows, for every sequence of calls.
-/

import Mathlib.Data.List.DropRight
import Ttgo.Lib.GoMap
import Ttgo.Lib.GoNet

namespace Ttgo.Client.ConnHistory

open Ttgo.Lib

/-! ### The device -/

def maxConnHistory : Nat := 500

structure ConnEntry where
  id : UInt64
  target : Text
  domain : Text
  startedAt : Int64
  endedAt : Int64
  bytesUp : Int64
  bytesDown : Int64
  active : Bool
deriving DecidableEq, Repr

structure TunDevice where
  connTrack : GoMap UInt64 ConnEntry
  connHistory : List ConnEntry
  connSeq : UInt64
  /-- The domains of addresses. -/
  rdnsCache : GoMap Text Text

/-- The first result of `net.SplitHostPort`, which is empty if it fails. -/
def hostOf (target : Text) : Text := ((splitHostPort target).map Prod.fst).getD []

namespace TunDevice

def new : TunDevice := ⟨∅, [], 0, ∅⟩

def recordDNS (domain : Text) (ips : List Text) (t : TunDevice) : TunDevice :=
  { t with rdnsCache := GoMap.insertAll t.rdnsCache ips domain }

def lookupDomain (ip : Text) (t : TunDevice) : Text := (t.rdnsCache.lookup ip).getD []

def trackConn (target : Text) (now : Int64) (t : TunDevice) : UInt64 × TunDevice :=
  let id := t.connSeq + 1
  let entry : ConnEntry :=
    { id, target, domain := t.lookupDomain (hostOf target), startedAt := now, endedAt := 0, bytesUp := 0
      bytesDown := 0, active := true }
  (id, { t with connSeq := id, connTrack := t.connTrack.insert id entry })

def untrackConn (id : UInt64) (up down now : Int64) (t : TunDevice) : TunDevice :=
  match t.connTrack.lookup id with
  | none => t
  | some e =>
    let finished := { e with active := false, endedAt := now, bytesUp := up, bytesDown := down }
    let history := t.connHistory ++ [finished]
    { t with
      connHistory :=
        if maxConnHistory < history.length then history.drop (history.length - maxConnHistory) else history
      connTrack := t.connTrack.erase id }

/-- `AllConns`, where the loop over the map visits its keys in some order. -/
def allConns (visit : List UInt64) (t : TunDevice) : List ConnEntry :=
  t.connHistory ++ visit.filterMap t.connTrack.lookup

end TunDevice

inductive Call
  | track (target : Text) (now : Int64)
  | untrack (id : UInt64) (up down now : Int64)
  | recordDNS (domain : Text) (ips : List Text)
deriving DecidableEq, Repr

def TunDevice.call (t : TunDevice) : Call → TunDevice
  | .track target now => (t.trackConn target now).2
  | .untrack id up down now => t.untrackConn id up down now
  | .recordDNS domain ips => t.recordDNS domain ips

def after (calls : List Call) : TunDevice := calls.foldl TunDevice.call .new

def connections (calls : List Call) : Nat :=
  calls.countP fun call => match call with
    | .track _ _ => true
    | _ => false

/-! ### What has happened -/

structure Started where
  target : Text
  domain : Text
  startedAt : Int64
deriving DecidableEq, Repr

structure Ended where
  id : UInt64
  start : Started
  endedAt : Int64
  bytesUp : Int64
  bytesDown : Int64
deriving DecidableEq, Repr

/-- The connections that were started, numbered from one, and those that have ended, in the order in which they did. -/
structure Log where
  started : List Started
  ended : List Ended
  domains : GoMap Text Text

def Started.entry (id : UInt64) (s : Started) : ConnEntry :=
  ⟨id, s.target, s.domain, s.startedAt, 0, 0, 0, true⟩

def Ended.entry (e : Ended) : ConnEntry :=
  ⟨e.id, e.start.target, e.start.domain, e.start.startedAt, e.endedAt, e.bytesUp, e.bytesDown, false⟩

namespace Log

def new : Log := ⟨[], [], ∅⟩

def start (log : Log) (id : UInt64) : Option Started := if id = 0 then none else log.started[id.toNat - 1]?

/-- The start of a connection that has not ended. -/
def stillOpen (log : Log) (id : UInt64) : Option Started :=
  if id ∈ log.ended.map Ended.id then none else log.start id

def call (log : Log) : Call → Log
  | .track target now =>
    { log with started := log.started ++ [⟨target, (log.domains.lookup (hostOf target)).getD [], now⟩] }
  | .untrack id up down now =>
    { log with ended := log.ended ++ (log.stillOpen id).toList.map fun s => ⟨id, s, now, up, down⟩ }
  | .recordDNS domain ips => { log with domains := GoMap.insertAll log.domains ips domain }

/-- What has ended was started, and ended once. -/
structure WellFormed (log : Log) : Prop where
  begun : ∀ e ∈ log.ended, log.start e.id = some e.start
  once : (log.ended.map Ended.id).Nodup

end Log

def logOf (calls : List Call) : Log := calls.foldl Log.call .new

variable {log : Log} {t : TunDevice} {id : UInt64} {s : Started} {calls : List Call}

theorem start_eq_some (log : Log) (id : UInt64) (s : Started) :
    log.start id = some s ↔ 0 < id.toNat ∧ log.started[id.toNat - 1]? = some s := by
  unfold Log.start
  split
  · next zero => simp [zero]
  · next other =>
    have positive : 0 < id.toNat := Nat.pos_of_ne_zero fun none => other (UInt64.toNat_inj.mp none)
    exact (and_iff_right positive).symm

theorem stillOpen_eq_some :
    log.stillOpen id = some s ↔ id ∉ log.ended.map Ended.id ∧ log.start id = some s := by
  unfold Log.stillOpen
  split
  · next ended => simp [ended]
  · next going => simp [going]

theorem toNat_le_of_start (begun : log.start id = some s) : id.toNat ≤ log.started.length := by
  obtain ⟨positive, found⟩ := (start_eq_some log id s).mp begun
  obtain ⟨inside, -⟩ := List.getElem?_eq_some_iff.mp found
  omega

theorem start_track {next : Log} {new : Started} (grown : next.started = log.started ++ [new])
    (other : id.toNat ≠ log.started.length + 1) : next.start id = log.start id := by
  unfold Log.start
  split
  · rfl
  · next positive =>
    have place : id.toNat - 1 ≠ log.started.length := by
      have := mt UInt64.toNat_inj.mp positive
      rw [UInt64.toNat_zero] at this
      omega
    rw [grown]
    rcases Nat.lt_or_gt_of_ne place with inside | outside
    · exact List.getElem?_append_left inside
    · rw [List.getElem?_eq_none (Nat.le_of_lt outside), List.getElem?_eq_none]
      rw [List.length_append]
      exact outside

theorem untrack_eq_self (none : log.stillOpen id = none) (up down now : Int64) :
    log.call (.untrack id up down now) = log := by
  rw [Log.call, none, Option.toList_none, List.map_nil, List.append_nil]

theorem untrack_eq (going : log.stillOpen id = some s) (up down now : Int64) :
    log.call (.untrack id up down now) = { log with ended := log.ended ++ [⟨id, s, now, up, down⟩] } := by
  rw [Log.call, going]
  rfl

theorem Log.WellFormed.call (sound : log.WellFormed) (call : Call) : (log.call call).WellFormed := by
  cases call with
  | track target now =>
    refine ⟨fun e ended => ?_, sound.once⟩
    have begun := sound.begun e ended
    have known := toNat_le_of_start begun
    rw [← begun]
    exact start_track rfl (by omega)
  | untrack id up down now =>
    cases found : log.stillOpen id with
    | none =>
      rw [untrack_eq_self found]
      exact sound
    | some s =>
      obtain ⟨going, begun⟩ := stillOpen_eq_some.mp found
      rw [untrack_eq found]
      refine ⟨fun e ended => ?_, ?_⟩
      · rcases List.mem_append.mp ended with old | new
        · exact sound.begun e old
        · obtain rfl := List.mem_singleton.mp new
          exact begun
      · rw [List.map_append]
        refine List.nodup_append.mpr ⟨sound.once, List.nodup_singleton _, fun old listed new same => ?_⟩
        rw [List.mem_singleton.mp same]
        rintro rfl
        exact going listed
  | recordDNS domain ips => exact ⟨sound.begun, sound.once⟩

/-! ### The device and its log -/

/-- **The device is what its log says.** -/
structure Refines (t : TunDevice) (log : Log) : Prop where
  connSeq : t.connSeq.toNat = log.started.length
  connTrack : ∀ id, t.connTrack.lookup id = (log.stillOpen id).map (Started.entry id)
  connHistory : t.connHistory = (log.ended.map Ended.entry).rtake maxConnHistory
  rdnsCache : t.rdnsCache = log.domains

theorem refines_new : Refines .new .new := by
  refine ⟨rfl, fun id => ?_, rfl, rfl⟩
  have none : Log.new.stillOpen id = none := by
    rw [Log.stillOpen, Log.start]
    split <;> simp [Log.new]
  rw [none]
  rfl

theorem toNat_connSeq_succ (refines : Refines t log) (few : log.started.length + 1 < UInt64.size) :
    (t.connSeq + 1).toNat = log.started.length + 1 := by
  rw [UInt64.toNat_add, refines.connSeq]
  exact Nat.mod_eq_of_lt few

theorem refines_track (refines : Refines t log) (sound : log.WellFormed)
    (few : log.started.length + 1 < UInt64.size) (target : Text) (now : Int64) :
    Refines (t.trackConn target now).2 (log.call (.track target now)) := by
  have number := toNat_connSeq_succ refines few
  have domain : t.lookupDomain (hostOf target) = (log.domains.lookup (hostOf target)).getD [] := by
    rw [TunDevice.lookupDomain, refines.rdnsCache]
  refine ⟨?_, fun id => ?_, refines.connHistory, refines.rdnsCache⟩
  · rw [Log.call, List.length_append]
    exact number
  · show (t.connTrack.insert (t.connSeq + 1) _).lookup id = _
    rw [GoMap.lookup_insert_ite]
    split
    · next same =>
      subst same
      have fresh : t.connSeq + 1 ∉ log.ended.map Ended.id := by
        intro ended
        obtain ⟨e, listed, named⟩ := List.mem_map.mp ended
        have known := toNat_le_of_start (sound.begun e listed)
        rw [named] at known
        omega
      have opened : (log.call (.track target now)).stillOpen (t.connSeq + 1) =
          some ⟨target, (log.domains.lookup (hostOf target)).getD [], now⟩ := by
        refine stillOpen_eq_some.mpr ⟨fresh, (start_eq_some ..).mpr ⟨by omega, ?_⟩⟩
        rw [number]
        exact List.getElem?_concat_length
      rw [opened, ← domain]
      rfl
    · next other =>
      have elsewhere : id.toNat ≠ log.started.length + 1 := by
        rw [← number]
        exact fun same => other (UInt64.toNat_inj.mp same)
      have same : (log.call (.track target now)).stillOpen id = log.stillOpen id := by
        have begun : (log.call (.track target now)).start id = log.start id := start_track rfl elsewhere
        rw [Log.stillOpen, Log.stillOpen, begun]
        rfl
      rw [refines.connTrack, same]

theorem rtake_append_rtake {α : Type*} (l more : List α) (n : Nat) :
    (l.rtake n ++ more).rtake n = (l ++ more).rtake n := by
  have shorter : min (n - more.reverse.length) n = n - more.reverse.length := Nat.min_eq_left (Nat.sub_le ..)
  simp only [List.rtake_eq_reverse_take_reverse, List.reverse_append, List.reverse_reverse, List.take_append,
    List.take_take, shorter]

theorem cut_eq_rtake (history : List ConnEntry) :
    (if maxConnHistory < history.length then history.drop (history.length - maxConnHistory) else history) =
      history.rtake maxConnHistory := by
  rw [List.rtake]
  split
  · rfl
  · next short => rw [Nat.sub_eq_zero_of_le (Nat.le_of_not_lt short), List.drop_zero]

theorem untrackConn_eq_self (refines : Refines t log) (none : log.stillOpen id = none) (up down now : Int64) :
    t.untrackConn id up down now = t := by
  have untracked : t.connTrack.lookup id = .none := by rw [refines.connTrack, none, Option.map_none]
  simp only [TunDevice.untrackConn, untracked]

theorem refines_untrack (refines : Refines t log) (id : UInt64) (up down now : Int64) :
    Refines (t.untrackConn id up down now) (log.call (.untrack id up down now)) := by
  cases found : log.stillOpen id with
  | none =>
    rw [untrackConn_eq_self refines found, untrack_eq_self found]
    exact refines
  | some s =>
    have tracked : t.connTrack.lookup id = some (s.entry id) := by rw [refines.connTrack, found, Option.map_some]
    simp only [TunDevice.untrackConn, tracked, untrack_eq found]
    refine ⟨refines.connSeq, fun other => ?_, ?_, refines.rdnsCache⟩
    · show (t.connTrack.erase id).lookup other = _
      rw [GoMap.lookup_erase_ite, refines.connTrack]
      split
      · next same =>
        have ended : Log.stillOpen { log with ended := log.ended ++ [⟨id, s, now, up, down⟩] } other = none :=
          if_pos (by simp [same])
        rw [ended, Option.map_none]
      · next different => simp [Log.stillOpen, Log.start, different]
    · show (if _ then _ else _) = _
      rw [cut_eq_rtake, refines.connHistory, rtake_append_rtake, List.map_append]
      rfl

/-- **Every call keeps the device what its log says**, as long as the numbers do not wrap. -/
theorem refines_call (refines : Refines t log) (sound : log.WellFormed) (call : Call)
    (few : log.started.length + connections [call] < UInt64.size) : Refines (t.call call) (log.call call) := by
  cases call with
  | track target now => exact refines_track refines sound few target now
  | untrack id up down now => exact refines_untrack refines id up down now
  | recordDNS domain ips =>
    refine ⟨refines.connSeq, refines.connTrack, refines.connHistory, ?_⟩
    show GoMap.insertAll t.rdnsCache ips domain = GoMap.insertAll log.domains ips domain
    rw [refines.rdnsCache]

/-! ### Call after call -/

theorem length_started_call (log : Log) (call : Call) :
    (log.call call).started.length = log.started.length + connections [call] := by
  cases call with
  | track target now => exact List.length_append
  | untrack id up down now => rfl
  | recordDNS domain ips => rfl

theorem connections_append (calls more : List Call) :
    connections (calls ++ more) = connections calls + connections more := List.countP_append ..

theorem refines_after (calls : List Call) (few : connections calls < UInt64.size) :
    Refines (after calls) (logOf calls) ∧ (logOf calls).WellFormed ∧
      (logOf calls).started.length = connections calls := by
  induction calls using List.reverseRecOn with
  | nil => exact ⟨refines_new, ⟨fun _ none => absurd none List.not_mem_nil, List.nodup_nil⟩, rfl⟩
  | append_singleton calls call ih =>
    rw [connections_append] at few
    obtain ⟨refines, sound, many⟩ := ih (by omega)
    simp only [after, logOf, List.foldl_append, List.foldl_cons, List.foldl_nil]
    refine ⟨refines_call refines sound call (by rw [many]; exact few), sound.call call, ?_⟩
    rw [length_started_call, connections_append]
    exact congrArg (· + _) many

/-! ### What is shown -/

section Shown

variable {visit : List UInt64} (refines : Refines t log) (order : visit.Perm t.connTrack.keys)
include refines order

theorem mem_visit_iff : id ∈ visit ↔ (log.stillOpen id).isSome := by
  rw [order.mem_iff, ← AList.mem_keys, ← AList.lookup_isSome, refines.connTrack, Option.isSome_map]

theorem map_id_visit : (visit.filterMap t.connTrack.lookup).map ConnEntry.id = visit := by
  have named : ∀ id ∈ visit, (t.connTrack.lookup id).map ConnEntry.id = some id := by
    intro id listed
    obtain ⟨s, going⟩ := Option.isSome_iff_exists.mp ((mem_visit_iff refines order).mp listed)
    rw [refines.connTrack, going]
    rfl
  rw [List.map_filterMap, List.filterMap_congr named, List.filterMap_some]

theorem mem_active_iff {e : ConnEntry} : e ∈ visit.filterMap t.connTrack.lookup ↔
    ∃ s, log.stillOpen e.id = some s ∧ e = s.entry e.id := by
  rw [List.mem_filterMap]
  constructor
  · rintro ⟨id, -, found⟩
    rw [refines.connTrack] at found
    obtain ⟨s, going, rfl⟩ := Option.map_eq_some_iff.mp found
    exact ⟨s, going, rfl⟩
  · rintro ⟨s, going, same⟩
    refine ⟨e.id, (mem_visit_iff refines order).mpr (Option.isSome_iff_exists.mpr ⟨s, going⟩), ?_⟩
    rw [refines.connTrack, going, Option.map_some, ← same]

end Shown

theorem map_id_history (refines : Refines t log) :
    t.connHistory.map ConnEntry.id = (log.ended.map Ended.id).rtake maxConnHistory := by
  rw [refines.connHistory, List.rtake, List.rtake, List.map_drop, List.map_map, List.length_map, List.length_map]
  rfl

theorem inactive_history (refines : Refines t log) : ∀ e ∈ t.connHistory, e.active = false := by
  intro e listed
  rw [refines.connHistory, List.rtake] at listed
  obtain ⟨ended, -, rfl⟩ := List.mem_map.mp (List.mem_of_mem_drop listed)
  rfl

/-- **The history is faithful.** After every sequence of calls with fewer than 2^64 connections, and in whatever order
the map is visited: no connection is shown twice, those shown as active are the ones that are open, the others are the
last 500 that have ended, in their order and with their bytes, and to untrack what is not open changes nothing. -/
theorem allConns_faithful (calls : List Call) (few : connections calls < UInt64.size) (visit : List UInt64)
    (order : visit.Perm (after calls).connTrack.keys) :
    let shown := (after calls).allConns visit
    (shown.map ConnEntry.id).Nodup ∧
      (∀ e, e ∈ shown ∧ e.active = true ↔ ∃ s, (logOf calls).stillOpen e.id = some s ∧ e = s.entry e.id) ∧
      shown.filter (fun e => !e.active) = ((logOf calls).ended.map Ended.entry).rtake maxConnHistory ∧
      (shown.filter fun e => !e.active).length = min maxConnHistory (logOf calls).ended.length ∧
      ∀ id up down now, (logOf calls).stillOpen id = none →
        (after calls).untrackConn id up down now = after calls := by
  intro shown
  obtain ⟨refines, sound, -⟩ := refines_after calls few
  have inactive := inactive_history refines
  have active : ∀ e ∈ visit.filterMap (after calls).connTrack.lookup, e.active = true := by
    intro e listed
    obtain ⟨s, -, same⟩ := (mem_active_iff refines order).mp listed
    rw [same]
    rfl
  have ended : shown.filter (fun e => !e.active) = (after calls).connHistory := by
    have first : (after calls).connHistory.filter (fun e => !e.active) = (after calls).connHistory :=
      List.filter_eq_self.mpr fun e listed => by rw [inactive e listed]; rfl
    have second : (visit.filterMap (after calls).connTrack.lookup).filter (fun e => !e.active) = [] :=
      List.filter_eq_nil_iff.mpr fun e listed => by rw [active e listed]; decide
    rw [show shown = _ ++ _ from rfl, List.filter_append, first, second, List.append_nil]
  refine ⟨?_, fun e => ⟨?_, ?_⟩, ended.trans refines.connHistory, ?_, fun id up down now none => ?_⟩
  · have history : ((after calls).connHistory.map ConnEntry.id).Nodup := by
      rw [map_id_history refines]
      exact sound.once.sublist (List.drop_sublist ..)
    have tracked : visit.Nodup := order.nodup_iff.mpr (AList.keys_nodup _)
    rw [show shown = _ ++ _ from rfl, List.map_append, map_id_visit refines order]
    refine List.nodup_append.mpr ⟨history, tracked, fun id old other new same => ?_⟩
    subst same
    obtain ⟨s, going⟩ := Option.isSome_iff_exists.mp ((mem_visit_iff refines order).mp new)
    rw [map_id_history refines] at old
    exact (stillOpen_eq_some.mp going).1 (List.mem_of_mem_drop old)
  · rintro ⟨listed, shows⟩
    rcases List.mem_append.mp listed with old | new
    · rw [inactive e old] at shows
      cases shows
    · exact (mem_active_iff refines order).mp new
  · intro going
    have listed := (mem_active_iff refines order).mpr going
    exact ⟨List.mem_append_right _ listed, active e listed⟩
  · rw [ended, refines.connHistory, List.rtake, List.length_drop, List.length_map]
    omega
  · exact untrackConn_eq_self refines none up down now

/-- Two connections, of which the first ends; an unknown number and a second end of it change nothing. -/
theorem allConns_faithful_two :
    let calls : List Call :=
      [.recordDNS "example.com".toList ["1.2.3.4".toList], .track "1.2.3.4:443".toList 10,
        .track "5.6.7.8:80".toList 11, .untrack 1 100 200 12, .untrack 7 1 1 13, .untrack 1 3 3 14]
    let shown := (after calls).allConns [2]
    shown = [⟨1, "1.2.3.4:443".toList, "example.com".toList, 10, 12, 100, 200, false⟩,
        ⟨2, "5.6.7.8:80".toList, [], 11, 0, 0, 0, true⟩] ∧
      (shown.map ConnEntry.id).Nodup ∧
      (shown.filter fun e => !e.active).length = min maxConnHistory (logOf calls).ended.length := by
  intro calls shown
  obtain ⟨once, -, -, many, -⟩ := allConns_faithful calls (by decide) [2] (by decide +kernel)
  exact ⟨by decide +kernel, once, many⟩

end Ttgo.Client.ConnHistory

/-
**Persistent traffic: `AddBytes`, `flushOnce` and `ResetTraffic`.**

The bytes of a user are counted in `totalsByUser`, and `flushOnce` carries what was counted since its last visit to
the column `traffic_used_bytes`. It reads the counters under `totalsMu`, and calls `AddTraffic` after it has
released the lock. `AddBytes` takes the lock to find the counters only; its additions are atomic, and come between
any two steps of the others. `adminStoreAdapter.ResetTraffic` clears the tracker, and then the column.

* `Sys`, `Event`, `step` — any number of calls of the three, one lock or one atomic access at a time.
* `Ledger` — which `AddBytes` call the bytes come from: those in the counters that no flush has taken, those of a
  delta and those in the store. No step reads it.
* `Stepped`, `stepped_of_step` — the steps, inverted.
-/

import Ttgo.Auth.Store
import Ttgo.Lib.Pool
import Ttgo.Lib.Run
import Ttgo.Server.ConnTracker

namespace Ttgo.Endpoint.Flush

open Ttgo.Auth Ttgo.Lib Ttgo.Server

/-! ### The column -/

/-- `UPDATE users SET traffic_used_bytes = … WHERE username = ?`. -/
def updateTraffic (store : Store) (username : String) (update : UInt64 → UInt64) : Store :=
  match store.lookup username with
  | none => store
  | some row =>
    store.insert username { row with
      lifecycle := { row.lifecycle with trafficUsed := update row.lifecycle.trafficUsed } }

/-- `SQLiteStore.AddTraffic`, where the update succeeds. -/
def addTraffic (store : Store) (username : String) (n : UInt64) : Store :=
  updateTraffic store username (· + n)

/-- `sqliteUserStore.ResetTraffic`, where the update succeeds. -/
def resetTraffic (store : Store) (username : String) : Store := updateTraffic store username fun _ => 0

/-! ### The calls -/

/-- Bytes that an `AddBytes` call added to a counter; the call is named by its index. -/
structure Lot where
  call : Nat
  bytes : Nat
deriving DecidableEq, Repr

/-- An `AddBytes` call: the step it takes next. -/
inductive Add
  /-- The entry named the owner; before `totalsMu.RLock`. -/
  | fetched (owner : String) (bytesIn bytesOut : UInt64)
  /-- It has the counters; before `bytesIn.Add`. -/
  | counting (owner : String) (bytesIn bytesOut : UInt64)
  /-- Before `bytesOut.Add`. -/
  | countingOut (owner : String) (bytesOut : UInt64)
  | done
deriving DecidableEq, Repr

/-- `pending`, with the bytes that the delta is made of. -/
structure Pending where
  name : String
  delta : UInt64
  lots : List Lot
deriving DecidableEq, Repr

/-- The first load of a visit: `tot.bytesIn.Load()`. -/
structure Loaded where
  name : String
  bytesIn : UInt64
  lots : List Lot
deriving DecidableEq, Repr

/-- The loop of `flushOnce` over `totalsByUser`. -/
structure Scan where
  left : List String
  loaded : Option Loaded
  pendings : List Pending
deriving DecidableEq, Repr

/-- The counter that `ResetUserTraffic` clears next. -/
inductive Stage
  | bytesIn
  | bytesOut
  | flushedBytes
deriving DecidableEq, Repr

/-- Who holds `totalsMu` for writing. -/
inductive Lock
  | free
  | flush (scan : Scan)
  /-- The reset of that index. -/
  | reset (index : Nat) (username : String) (stage : Stage)
deriving DecidableEq, Repr

def Lock.isFree : Lock → Bool
  | .free => true
  | _ => false

/-- A `ResetTraffic` call: the step it takes next. -/
inductive ResetPhase
  /-- Before `totalsMu.Lock`. -/
  | called
  /-- It holds the lock. -/
  | clearing
  /-- Before the counters of the entries. -/
  | entries
  /-- Before the store. -/
  | store
  | returned
deriving DecidableEq, Repr

structure Reset where
  username : String
  phase : ResetPhase
deriving DecidableEq, Repr

inductive Entry
  | addTraffic (name : String) (delta : UInt64)
  | reset (name : String)
deriving DecidableEq, Repr

/-- Where the bytes are: in a counter and not yet flushed, or in the store. -/
structure Ledger where
  unflushedIn : String → List Lot
  unflushedOut : String → List Lot
  stored : String → List Lot

structure Sys where
  tracker : ConnTracker
  store : Store
  lock : Lock
  adds : List Add
  /-- The `flushOnce` calls that have released the lock, with the deltas that they have not passed yet. -/
  deliveries : List (List Pending)
  resets : List Reset
  log : List Entry
  ledger : Ledger

def Sys.initial (store : Store) : Sys :=
  ⟨.empty, store, .free, [], [], [], [], ⟨fun _ => [], fun _ => [], fun _ => []⟩⟩

inductive Event
  | register (username : String) (conn : Option NetConn)
  | unregister (username : String) (conn : Option NetConn)
  /-- `AddBytes` is called: the entry is fetched and its counters are raised. -/
  | addBytes (conn : Option NetConn) (bytesIn bytesOut : UInt64)
  /-- The next step of an `AddBytes` call. -/
  | add (index : Nat)
  /-- `flushOnce` takes the lock. -/
  | flushOnce
  /-- The loop comes to a user, and loads `bytesIn`. -/
  | loadIn (username : String)
  /-- It loads `bytesOut`, and compares. -/
  | loadOut
  | unlock
  /-- A `flushOnce` call passes its next delta. -/
  | addTraffic (index : Nat) (fails : Bool)
  /-- `ResetTraffic` is called. -/
  | resetTraffic (username : String)
  /-- The next step of a `ResetTraffic` call that does not hold the lock. -/
  | reset (index : Nat)
  /-- The next step of the one that does. -/
  | clear
deriving DecidableEq, Repr

/-! ### The ledger -/

/-- The bytes of one addition; nothing is added where there are none. -/
def lots (call : Nat) (bytes : UInt64) : List Lot := if bytes = 0 then [] else [⟨call, bytes.toNat⟩]

namespace Ledger

def addIn (l : Ledger) (name : String) (added : List Lot) : Ledger :=
  { l with unflushedIn := Function.update l.unflushedIn name (l.unflushedIn name ++ added) }

def addOut (l : Ledger) (name : String) (added : List Lot) : Ledger :=
  { l with unflushedOut := Function.update l.unflushedOut name (l.unflushedOut name ++ added) }

/-- A flush takes what it loaded. What was added to `bytesIn` since that load stays. -/
def take (l : Ledger) (loaded : Loaded) : Ledger :=
  { l with
    unflushedIn := Function.update l.unflushedIn loaded.name
      ((l.unflushedIn loaded.name).drop loaded.lots.length)
    unflushedOut := Function.update l.unflushedOut loaded.name [] }

def clearIn (l : Ledger) (name : String) : Ledger :=
  { l with unflushedIn := Function.update l.unflushedIn name [] }

def clearOut (l : Ledger) (name : String) : Ledger :=
  { l with unflushedOut := Function.update l.unflushedOut name [] }

def credit (l : Ledger) (p : Pending) : Ledger :=
  { l with stored := Function.update l.stored p.name (l.stored p.name ++ p.lots) }

def clearStored (l : Ledger) (name : String) : Ledger :=
  { l with stored := Function.update l.stored name [] }

end Ledger

/-! ### Steps -/

/-- `AddBytes` up to the lock. -/
def Sys.addBytes (s : Sys) (conn : Option NetConn) (bytesIn bytesOut : UInt64) : Sys :=
  match s.tracker.connEntryFor conn with
  | none => { s with adds := s.adds ++ [.done] }
  | some e =>
    { s with
      tracker := s.tracker.addBytesEntry conn bytesIn bytesOut
      adds := s.adds ++ [.fetched e.username bytesIn bytesOut] }

def Sys.add (s : Sys) (index : Nat) : Option Sys :=
  match s.adds[index]? with
  | some (.fetched owner bytesIn bytesOut) =>
    if s.lock.isFree then
      let found := (s.tracker.totalsByUser.lookup owner).isSome
      some { s with adds := s.adds.set index (if found then .counting owner bytesIn bytesOut else .done) }
    else none
  | some (.counting owner bytesIn bytesOut) =>
    some { s with
      tracker := s.tracker.addBytesTotals owner bytesIn 0
      adds := s.adds.set index (.countingOut owner bytesOut)
      ledger := s.ledger.addIn owner (lots index bytesIn) }
  | some (.countingOut owner bytesOut) =>
    some { s with
      tracker := s.tracker.addBytesTotals owner 0 bytesOut
      adds := s.adds.set index .done
      ledger := s.ledger.addOut owner (lots index bytesOut) }
  | some .done | none => none

/-- The visit of `flushOnce` to a user, from its second load on. -/
def Sys.loadOut (s : Sys) (scan : Scan) (loaded : Loaded) (totals : UserTotals) : Sys :=
  let total := loaded.bytesIn + totals.bytesOut
  let scan := { scan with left := scan.left.erase loaded.name, loaded := none }
  if totals.flushedBytes < total then
    { s with
      tracker := s.tracker.updateTotals loaded.name fun totals => { totals with flushedBytes := total }
      lock := .flush { scan with
        pendings := scan.pendings ++ [⟨loaded.name, total - totals.flushedBytes,
          loaded.lots ++ s.ledger.unflushedOut loaded.name⟩] }
      ledger := s.ledger.take loaded }
  else { s with lock := .flush scan }

/-- `AddTraffic` for a delta. A user without a row gets nothing. -/
def Sys.pass (s : Sys) (index : Nat) (p : Pending) (rest : List Pending) (fails : Bool) : Sys :=
  let stored := !fails && (s.store.lookup p.name).isSome
  { s with
    store := if fails then s.store else addTraffic s.store p.name p.delta
    deliveries := s.deliveries.set index rest
    log := .addTraffic p.name p.delta :: s.log
    ledger := if stored then s.ledger.credit p else s.ledger }

def Stage.cleared (totals : UserTotals) : Stage → UserTotals
  | .bytesIn => { totals with bytesIn := 0 }
  | .bytesOut => { totals with bytesOut := 0 }
  | .flushedBytes => { totals with flushedBytes := 0 }

/-- `ResetUserTraffic` under `totalsMu`. -/
def Sys.clear (s : Sys) (index : Nat) (username : String) : Stage → Sys
  | .bytesIn =>
    { s with
      tracker := s.tracker.updateTotals username (Stage.cleared · .bytesIn)
      lock := .reset index username .bytesOut
      ledger := s.ledger.clearIn username }
  | .bytesOut =>
    { s with
      tracker := s.tracker.updateTotals username (Stage.cleared · .bytesOut)
      lock := .reset index username .flushedBytes
      ledger := s.ledger.clearOut username }
  | .flushedBytes =>
    { s with
      tracker := s.tracker.updateTotals username (Stage.cleared · .flushedBytes)
      lock := .free
      resets := s.resets.set index ⟨username, .entries⟩
      log := .reset username :: s.log }

/-- The loop of `ResetUserTraffic` over the entries. -/
def resetEntries (t : ConnTracker) (username : String) : ConnTracker :=
  { t with
    entries := GoMap.mapValues t.entries fun e =>
      if e.username = username then { e with bytesIn := 0, bytesOut := 0 } else e }

/-- The next step of a `ResetTraffic` call that does not hold the lock. -/
def Sys.reset (s : Sys) (index : Nat) : Option Sys :=
  match s.resets[index]? with
  | some ⟨username, .called⟩ =>
    if s.lock.isFree then
      some { s with
        lock := .reset index username .bytesIn
        resets := s.resets.set index ⟨username, .clearing⟩ }
    else none
  | some ⟨username, .entries⟩ =>
    some { s with
      tracker := resetEntries s.tracker username
      resets := s.resets.set index ⟨username, .store⟩ }
  | some ⟨username, .store⟩ =>
    some { s with
      store := resetTraffic s.store username
      resets := s.resets.set index ⟨username, .returned⟩
      ledger := s.ledger.clearStored username }
  | some ⟨_, .clearing⟩ | some ⟨_, .returned⟩ | none => none

def step (s : Sys) : Event → Option Sys
  | .register username conn =>
    if s.lock.isFree then some { s with tracker := s.tracker.register username conn } else none
  | .unregister username conn => some { s with tracker := s.tracker.unregister username conn }
  | .addBytes conn bytesIn bytesOut => some (s.addBytes conn bytesIn bytesOut)
  | .add index => s.add index
  | .flushOnce =>
    if s.lock.isFree then some { s with lock := .flush ⟨s.tracker.totalsByUser.keys, none, []⟩ } else none
  | .loadIn username =>
    match s.lock, s.tracker.totalsByUser.lookup username with
    | .flush scan, some totals =>
      if scan.loaded = none ∧ username ∈ scan.left then
        some { s with lock := .flush { scan with
          loaded := some ⟨username, totals.bytesIn, s.ledger.unflushedIn username⟩ } }
      else none
    | _, _ => none
  | .loadOut =>
    match s.lock with
    | .flush scan => do
      let loaded ← scan.loaded
      let totals ← s.tracker.totalsByUser.lookup loaded.name
      return s.loadOut scan loaded totals
    | _ => none
  | .unlock =>
    match s.lock with
    | .flush ⟨[], none, pendings⟩ =>
      some { s with lock := .free, deliveries := s.deliveries ++ [pendings] }
    | _ => none
  | .addTraffic index fails =>
    match s.deliveries[index]? with
    | some (p :: rest) => some (s.pass index p rest fails)
    | _ => none
  | .resetTraffic username => some { s with resets := s.resets ++ [⟨username, .called⟩] }
  | .reset index => s.reset index
  | .clear =>
    match s.lock with
    | .reset index username stage => some (s.clear index username stage)
    | _ => none

/-! ### What the longer steps leave alone -/

section Frame

variable (s : Sys) (conn : Option NetConn) (bytesIn bytesOut : UInt64) (scan : Scan) (loaded : Loaded)
  (totals : UserTotals)

@[simp] theorem Sys.addBytes_lock : (s.addBytes conn bytesIn bytesOut).lock = s.lock := by
  unfold Sys.addBytes
  split <;> rfl

@[simp] theorem Sys.addBytes_deliveries : (s.addBytes conn bytesIn bytesOut).deliveries = s.deliveries := by
  unfold Sys.addBytes
  split <;> rfl

@[simp] theorem Sys.addBytes_resets : (s.addBytes conn bytesIn bytesOut).resets = s.resets := by
  unfold Sys.addBytes
  split <;> rfl

@[simp] theorem Sys.addBytes_log : (s.addBytes conn bytesIn bytesOut).log = s.log := by
  unfold Sys.addBytes
  split <;> rfl

@[simp] theorem Sys.addBytes_ledger : (s.addBytes conn bytesIn bytesOut).ledger = s.ledger := by
  unfold Sys.addBytes
  split <;> rfl

@[simp] theorem Sys.loadOut_adds : (s.loadOut scan loaded totals).adds = s.adds := by
  simp only [Sys.loadOut]
  split <;> rfl

@[simp] theorem Sys.loadOut_deliveries : (s.loadOut scan loaded totals).deliveries = s.deliveries := by
  simp only [Sys.loadOut]
  split <;> rfl

@[simp] theorem Sys.loadOut_resets : (s.loadOut scan loaded totals).resets = s.resets := by
  simp only [Sys.loadOut]
  split <;> rfl

@[simp] theorem Sys.loadOut_log : (s.loadOut scan loaded totals).log = s.log := by
  simp only [Sys.loadOut]
  split <;> rfl

@[simp] theorem Sys.loadOut_stored : (s.loadOut scan loaded totals).ledger.stored = s.ledger.stored := by
  simp only [Sys.loadOut]
  split <;> rfl

theorem Sys.loadOut_lock : ∃ pendings,
    (s.loadOut scan loaded totals).lock = .flush ⟨scan.left.erase loaded.name, none, pendings⟩ := by
  simp only [Sys.loadOut]
  split
  · exact ⟨_, rfl⟩
  · exact ⟨_, rfl⟩

@[simp] theorem Sys.loadOut_lock_ne (holder : Nat) (name : String) (stage : Stage) :
    (s.loadOut scan loaded totals).lock ≠ .reset holder name stage := by
  simp only [Sys.loadOut]
  split <;> simp

end Frame

/-! ### Inversion -/

/-- **One step**, inverted. -/
inductive Stepped (s : Sys) : Event → Sys → Prop
  | register (username : String) (conn : Option NetConn) (free : s.lock = .free) :
      Stepped s (.register username conn) { s with tracker := s.tracker.register username conn }
  | unregister (username : String) (conn : Option NetConn) :
      Stepped s (.unregister username conn) { s with tracker := s.tracker.unregister username conn }
  | addBytes (conn : Option NetConn) (bytesIn bytesOut : UInt64) :
      Stepped s (.addBytes conn bytesIn bytesOut) (s.addBytes conn bytesIn bytesOut)
  | find (index : Nat) (owner : String) (bytesIn bytesOut : UInt64) (add : Add) (free : s.lock = .free)
      (stood : s.adds[index]? = some (.fetched owner bytesIn bytesOut)) :
      Stepped s (.add index) { s with adds := s.adds.set index add }
  | countIn (index : Nat) (owner : String) (bytesIn bytesOut : UInt64)
      (stood : s.adds[index]? = some (.counting owner bytesIn bytesOut)) :
      Stepped s (.add index) { s with
        tracker := s.tracker.addBytesTotals owner bytesIn 0
        adds := s.adds.set index (.countingOut owner bytesOut)
        ledger := s.ledger.addIn owner (lots index bytesIn) }
  | countOut (index : Nat) (owner : String) (bytesOut : UInt64)
      (stood : s.adds[index]? = some (.countingOut owner bytesOut)) :
      Stepped s (.add index) { s with
        tracker := s.tracker.addBytesTotals owner 0 bytesOut
        adds := s.adds.set index .done
        ledger := s.ledger.addOut owner (lots index bytesOut) }
  | flushOnce (free : s.lock = .free) :
      Stepped s .flushOnce { s with lock := .flush ⟨s.tracker.totalsByUser.keys, none, []⟩ }
  | loadIn (username : String) (scan : Scan) (totals : UserTotals) (held : s.lock = .flush scan)
      (between : scan.loaded = none) (ahead : username ∈ scan.left)
      (found : s.tracker.totalsByUser.lookup username = some totals) :
      Stepped s (.loadIn username) { s with lock := .flush { scan with
        loaded := some ⟨username, totals.bytesIn, s.ledger.unflushedIn username⟩ } }
  | loadOut (scan : Scan) (loaded : Loaded) (totals : UserTotals) (held : s.lock = .flush scan)
      (begun : scan.loaded = some loaded)
      (found : s.tracker.totalsByUser.lookup loaded.name = some totals) :
      Stepped s .loadOut (s.loadOut scan loaded totals)
  | unlock (pendings : List Pending) (held : s.lock = .flush ⟨[], none, pendings⟩) :
      Stepped s .unlock { s with lock := .free, deliveries := s.deliveries ++ [pendings] }
  | addTraffic (index : Nat) (fails : Bool) (p : Pending) (rest : List Pending)
      (left : s.deliveries[index]? = some (p :: rest)) :
      Stepped s (.addTraffic index fails) (s.pass index p rest fails)
  | resetTraffic (username : String) :
      Stepped s (.resetTraffic username) { s with resets := s.resets ++ [⟨username, .called⟩] }
  | resetLock (index : Nat) (username : String) (stood : s.resets[index]? = some ⟨username, .called⟩)
      (free : s.lock = .free) :
      Stepped s (.reset index) { s with
        lock := .reset index username .bytesIn
        resets := s.resets.set index ⟨username, .clearing⟩ }
  | resetEntries (index : Nat) (username : String) (stood : s.resets[index]? = some ⟨username, .entries⟩) :
      Stepped s (.reset index) { s with
        tracker := resetEntries s.tracker username
        resets := s.resets.set index ⟨username, .store⟩ }
  | resetStore (index : Nat) (username : String) (stood : s.resets[index]? = some ⟨username, .store⟩) :
      Stepped s (.reset index) { s with
        store := Flush.resetTraffic s.store username
        resets := s.resets.set index ⟨username, .returned⟩
        ledger := s.ledger.clearStored username }
  | clear (index : Nat) (username : String) (stage : Stage) (held : s.lock = .reset index username stage) :
      Stepped s .clear (s.clear index username stage)

variable {s next : Sys} {event : Event} {username : String}

theorem isFree_iff {lock : Lock} : lock.isFree = true ↔ lock = .free := by
  cases lock <;> simp [Lock.isFree]

theorem stepped_add {index : Nat} (taken : s.add index = some next) : Stepped s (.add index) next := by
  unfold Sys.add at taken
  split at taken
  · next owner bytesIn bytesOut stood =>
    obtain ⟨free, taken⟩ := Option.ite_none_right_eq_some.mp taken
    cases taken
    exact .find index owner bytesIn bytesOut _ (isFree_iff.mp free) stood
  · next owner bytesIn bytesOut stood =>
    cases taken
    exact .countIn index owner bytesIn bytesOut stood
  · next owner bytesOut stood =>
    cases taken
    exact .countOut index owner bytesOut stood
  · cases taken
  · cases taken

theorem stepped_reset {index : Nat} (taken : s.reset index = some next) :
    Stepped s (.reset index) next := by
  unfold Sys.reset at taken
  split at taken
  · next user stood =>
    obtain ⟨free, taken⟩ := Option.ite_none_right_eq_some.mp taken
    cases taken
    exact .resetLock index user stood (isFree_iff.mp free)
  · next user stood =>
    cases taken
    exact .resetEntries index user stood
  · next user stood =>
    cases taken
    exact .resetStore index user stood
  · cases taken
  · cases taken
  · cases taken

theorem stepped_of_step (taken : step s event = some next) : Stepped s event next := by
  cases event with
  | register user conn =>
    obtain ⟨free, taken⟩ := Option.ite_none_right_eq_some.mp taken
    cases taken
    exact .register user conn (isFree_iff.mp free)
  | unregister user conn =>
    cases taken
    exact .unregister user conn
  | addBytes conn bytesIn bytesOut =>
    cases taken
    exact .addBytes conn bytesIn bytesOut
  | add index => exact stepped_add taken
  | flushOnce =>
    obtain ⟨free, taken⟩ := Option.ite_none_right_eq_some.mp taken
    cases taken
    exact .flushOnce (isFree_iff.mp free)
  | loadIn user =>
    simp only [step] at taken
    split at taken
    · next scan totals held found =>
      obtain ⟨⟨between, ahead⟩, taken⟩ := Option.ite_none_right_eq_some.mp taken
      cases taken
      exact .loadIn user scan totals held between ahead found
    · cases taken
  | loadOut =>
    simp only [step] at taken
    split at taken
    · next scan held =>
      simp only [Option.bind_eq_bind, Option.bind_eq_some_iff, Option.pure_def, Option.some.injEq] at taken
      obtain ⟨loaded, begun, totals, found, rfl⟩ := taken
      exact .loadOut scan loaded totals held begun found
    · cases taken
  | unlock =>
    simp only [step] at taken
    split at taken
    · next pendings held =>
      cases taken
      exact .unlock pendings held
    · cases taken
  | addTraffic index fails =>
    simp only [step] at taken
    split at taken
    · next p rest left =>
      cases taken
      exact .addTraffic index fails p rest left
    · cases taken
  | resetTraffic user =>
    cases taken
    exact .resetTraffic user
  | reset index => exact stepped_reset taken
  | clear =>
    simp only [step] at taken
    split at taken
    · next index user stage held =>
      cases taken
      exact .clear index user stage held
    · cases taken

end Ttgo.Endpoint.Flush

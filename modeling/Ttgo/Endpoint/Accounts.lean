/-
**The account of a user's traffic.**

What `flushOnce` has taken from the counters of a user is `flushedBytes`. It was passed to `AddTraffic`, or is on
its way there, and it was counted before. The two counters are read at different moments, and additions come in
between.

* `counted`, `flushed` — `bytesIn + bytesOut` and `flushedBytes` of a user.
* `passedSince` — what was passed to `AddTraffic` for a user since the last reset of the tracker; `delivered` — since
  the start; `waiting` — the deltas on their way.
* `Accounted`, `accounted_step` — passed and waiting are `flushedBytes`, which is never more than was counted.
* `Visited`, `visited_step` — a loop that no `AddBytes` comes into flushes all that is counted.
* `flush_counts_once` — without a reset, no byte is passed twice, and none is skipped.
-/

import Ttgo.Endpoint.Flusher

namespace Ttgo.Endpoint.Flush

open Ttgo.Auth Ttgo.Lib Ttgo.Server

variable {s next : Sys} {event : Event} {username : String}

/-! ### The counters of a user -/

/-- The counters of a user, zero before the first `Register`. -/
def counters (t : ConnTracker) (username : String) : UserTotals := (t.totalsByUser.lookup username).getD {}

/-- `bytesIn + bytesOut`. -/
def counted (t : ConnTracker) (username : String) : Nat :=
  (counters t username).bytesIn.toNat + (counters t username).bytesOut.toNat

/-- `flushedBytes`. -/
def flushed (t : ConnTracker) (username : String) : Nat := (counters t username).flushedBytes.toNat

section Counters

variable (t : ConnTracker) (user : String)

theorem counters_updateTotals (update : UserTotals → UserTotals) (username : String) :
    counters (t.updateTotals user update) username =
      if username = user ∧ (t.totalsByUser.lookup user).isSome then update (counters t user)
      else counters t username := by
  unfold counters
  rw [ConnTracker.lookup_updateTotals]
  by_cases same : username = user
  · subst same
    cases t.totalsByUser.lookup username <;> simp
  · simp only [same, if_false, false_and]

theorem counted_cleared_le (stage : Stage) (username : String) :
    counted (t.updateTotals user (Stage.cleared · stage)) username ≤ counted t username := by
  rw [counted, counted, counters_updateTotals]
  split
  · next own =>
    rw [own.1]
    cases stage with
    | bytesIn => exact Nat.add_le_add_right (Nat.zero_le _) _
    | bytesOut => exact Nat.add_le_add_left (Nat.zero_le _) _
    | flushedBytes => exact le_refl _
  · exact le_refl _

theorem counters_addBytesTotals (bytesIn bytesOut : UInt64) (username : String) :
    counters (t.addBytesTotals user bytesIn bytesOut) username =
      if username = user ∧ (t.totalsByUser.lookup user).isSome then
        { counters t username with
          bytesIn := (counters t username).bytesIn + bytesIn
          bytesOut := (counters t username).bytesOut + bytesOut }
      else counters t username := by
  rw [ConnTracker.addBytesTotals, counters_updateTotals]
  split
  · next own => rw [own.1]
  · rfl

theorem counters_register (conn : Option NetConn) (username : String) :
    counters (t.register user conn) username = counters t username := by
  cases conn with
  | none => rfl
  | some conn =>
    rw [counters, ConnTracker.lookup_totals_register]
    split
    · next same =>
      subst same
      rfl
    · rfl

theorem counters_unregister (conn : Option NetConn) (username : String) :
    counters (t.unregister user conn) username = counters t username := by
  rw [counters, ConnTracker.totals_unregister, counters]

theorem counters_addBytes (conn : Option NetConn) (bytesIn bytesOut : UInt64) (username : String) :
    counters (s.addBytes conn bytesIn bytesOut).tracker username = counters s.tracker username := by
  unfold Sys.addBytes
  split
  · rfl
  · simp only [counters, ConnTracker.totals_addBytesEntry]

end Counters

/-! ### Passed, and on the way -/

/-- What was passed to `AddTraffic` for the user since the last reset of their counters. -/
def passedSince (username : String) : List Entry → Nat
  | [] => 0
  | .addTraffic name delta :: before =>
    passedSince username before + if name = username then delta.toNat else 0
  | .reset name :: before => if name = username then 0 else passedSince username before

def deltasOf (username : String) (pendings : List Pending) : Nat :=
  (pendings.map fun p => if p.name = username then p.delta.toNat else 0).sum

theorem deltasOf_concat (username : String) (pendings : List Pending) (p : Pending) :
    deltasOf username (pendings ++ [p]) =
      deltasOf username pendings + if p.name = username then p.delta.toNat else 0 := by
  simp [deltasOf]

def Lock.waiting (username : String) : Lock → Nat
  | .flush scan => deltasOf username scan.pendings
  | _ => 0

/-- The deltas of a user that were computed and not yet passed. -/
def Sys.waiting (s : Sys) (username : String) : Nat :=
  s.lock.waiting username + (s.deliveries.map (deltasOf username)).sum

/-- The visit that the holder of the lock is in. -/
def Lock.loaded : Lock → Option Loaded
  | .flush scan => scan.loaded
  | _ => none

/-- The counters of the user are being cleared. -/
def Lock.clears (username : String) : Lock → Bool
  | .reset _ name _ => name = username
  | _ => false

/-- What a step adds to the counters, and whose. -/
def Sys.adding (s : Sys) : Event → Option (String × UInt64)
  | .add index =>
    match s.adds[index]? with
    | some (.counting owner bytesIn _) => some (owner, bytesIn)
    | some (.countingOut owner bytesOut) => some (owner, bytesOut)
    | _ => none
  | _ => none

/-- `bytesIn + bytesOut` stays below `2^64`. -/
def InRange (username : String) (s : Sys) (event : Event) : Prop :=
  ∀ added ∈ s.adding event, added.1 = username → counted s.tracker username + added.2.toNat < 2 ^ 64

/-- The user whose counters a step clears for good. -/
def Sys.cleared (s : Sys) : Event → Option String
  | .clear =>
    match s.lock with
    | .reset _ name .flushedBytes => some name
    | _ => none
  | _ => none

/-- A reset of the user's counters finds no delta of theirs on its way. -/
def CleanReset (username : String) (s : Sys) (event : Event) : Prop :=
  ∀ name ∈ s.cleared event, name = username → s.waiting username = 0

instance (username : String) (s : Sys) (event : Event) : Decidable (InRange username s event) :=
  inferInstanceAs (Decidable (∀ added ∈ s.adding event, _))

instance (username : String) (s : Sys) (event : Event) : Decidable (CleanReset username s event) :=
  inferInstanceAs (Decidable (∀ name ∈ s.cleared event, _))

/-- **The account of a user**: what was passed and what waits is what was flushed, and no more was flushed than was
counted, unless the counters are being cleared. -/
structure Accounted (username : String) (s : Sys) : Prop where
  balance : s.lock.clears username = false →
    passedSince username s.log + s.waiting username = flushed s.tracker username ∧
      flushed s.tracker username ≤ counted s.tracker username
  inRange : counted s.tracker username < 2 ^ 64
  loaded : ∀ l ∈ s.lock.loaded, l.name = username →
    l.bytesIn.toNat ≤ (counters s.tracker username).bytesIn.toNat

theorem accounted_initial (store : Store) : Accounted username (.initial store) :=
  ⟨fun _ => ⟨rfl, le_refl _⟩, Nat.two_pow_pos 64, fun _ none => absurd none (Option.not_mem_none _)⟩

theorem accounted_same (account : Accounted username s)
    (same : counters next.tracker username = counters s.tracker username) (log : next.log = s.log)
    (waits : next.waiting username = s.waiting username)
    (clears : next.lock.clears username = false → s.lock.clears username = false)
    (loaded : ∀ l ∈ next.lock.loaded, l ∈ s.lock.loaded) : Accounted username next := by
  have samePassed : passedSince username next.log = passedSince username s.log := by rw [log]
  refine ⟨fun clear => ?_, ?_, fun l reads => ?_⟩
  · simpa only [samePassed, waits, flushed, counted, same] using account.balance (clears clear)
  · simpa only [counted, same] using account.inRange
  · rw [same]
    exact account.loaded l (loaded l reads)

theorem accounted_count (account : Accounted username s) {t' : ConnTracker} {adds : List Add}
    {ledger : Ledger} (bytesIn : (counters s.tracker username).bytesIn ≤ (counters t' username).bytesIn)
    (more : counted s.tracker username ≤ counted t' username)
    (same : flushed t' username = flushed s.tracker username) (inRange : counted t' username < 2 ^ 64) :
    Accounted username { s with tracker := t', adds, ledger } := by
  refine ⟨fun clear => ?_, inRange, fun l reads name => ?_⟩
  · obtain ⟨balance, bound⟩ := account.balance clear
    exact ⟨balance.trans same.symm, same.le.trans (bound.trans more)⟩
  · exact (account.loaded l reads name).trans (UInt64.le_iff_toNat_le.mp bytesIn)

theorem toNat_add_of_lt {a b : UInt64} (inRange : a.toNat + b.toNat < 2 ^ 64) :
    (a + b).toNat = a.toNat + b.toNat := by
  rw [UInt64.toNat_add, Nat.mod_eq_of_lt inRange]

theorem accounted_add (account : Accounted username s) (owner : String) (bytesIn bytesOut : UInt64)
    (adds : List Add) (ledger : Ledger)
    (room : owner = username →
      counted s.tracker username + (bytesIn.toNat + bytesOut.toNat) < 2 ^ 64) :
    Accounted username
      { s with tracker := s.tracker.addBytesTotals owner bytesIn bytesOut, adds, ledger } := by
  have after := counters_addBytesTotals s.tracker owner bytesIn bytesOut username
  by_cases own : username = owner ∧ (s.tracker.totalsByUser.lookup owner).isSome
  · rw [if_pos own] at after
    have room := room own.1.symm
    unfold counted at room
    have sumIn := toNat_add_of_lt (a := (counters s.tracker username).bytesIn) (b := bytesIn) (by omega)
    have sumOut := toNat_add_of_lt (a := (counters s.tracker username).bytesOut) (b := bytesOut) (by omega)
    refine accounted_count account ?_ ?_ ?_ ?_
    · rw [after, UInt64.le_iff_toNat_le, sumIn]
      omega
    · rw [counted, counted, after, sumIn, sumOut]
      omega
    · rw [flushed, flushed, after]
    · rw [counted, after, sumIn, sumOut]
      omega
  · rw [if_neg own] at after
    refine accounted_count account ?_ ?_ ?_ ?_
    · rw [after]
      exact UInt64.le_refl _
    · rw [counted, counted, after]
    · rw [flushed, flushed, after]
    · rw [counted, after]
      exact account.inRange

theorem accounted_loadOut (account : Accounted username s) {scan : Scan} {loaded : Loaded}
    {totals : UserTotals} (held : s.lock = .flush scan) (begun : scan.loaded = some loaded)
    (found : s.tracker.totalsByUser.lookup loaded.name = some totals) :
    Accounted username (s.loadOut scan loaded totals) := by
  have unclear : s.lock.clears username = false := by rw [held]; rfl
  simp only [Sys.loadOut]
  split
  · next grown =>
    have after := counters_updateTotals s.tracker loaded.name
      (fun old => { old with flushedBytes := loaded.bytesIn + totals.bytesOut }) username
    by_cases own : username = loaded.name
    · subst own
      have row : counters s.tracker loaded.name = totals := by rw [counters, found, Option.getD_some]
      have read := account.loaded loaded (by rw [held]; exact begun) rfl
      have inRange := account.inRange
      obtain ⟨balance, bound⟩ := account.balance unclear
      rw [if_pos ⟨rfl, by rw [found]; rfl⟩, row] at after
      simp only [counted, flushed, row] at read inRange balance bound
      -- what was loaded is part of what is counted, so the sum does not wrap
      have total : (loaded.bytesIn + totals.bytesOut).toNat =
          loaded.bytesIn.toNat + totals.bytesOut.toNat := toNat_add_of_lt (by omega)
      have grows := UInt64.lt_iff_toNat_lt.mp grown
      have delta : (loaded.bytesIn + totals.bytesOut - totals.flushedBytes).toNat =
          (loaded.bytesIn + totals.bytesOut).toNat - totals.flushedBytes.toNat :=
        UInt64.toNat_sub_of_le _ _ (UInt64.le_of_lt grown)
      have waits : s.waiting loaded.name = deltasOf loaded.name scan.pendings +
          (s.deliveries.map (deltasOf loaded.name)).sum := by rw [Sys.waiting, held]; rfl
      refine ⟨fun _ => ?_, ?_, fun _ none => absurd none (Option.not_mem_none _)⟩
      · simp only [Sys.waiting, Lock.waiting, deltasOf_concat, if_true, flushed, counted, after]
        omega
      · simpa only [counted, after] using inRange
    · rw [if_neg fun both => own both.1] at after
      refine accounted_same account after rfl ?_ (fun _ => unclear)
        (fun _ none => absurd none (Option.not_mem_none _))
      simp [Sys.waiting, held, Lock.waiting, deltasOf_concat, Ne.symm own]
  · refine accounted_same account rfl rfl ?_ (fun _ => unclear)
      (fun _ none => absurd none (Option.not_mem_none _))
    simp only [Sys.waiting, held, Lock.waiting]

theorem accounted_pass (account : Accounted username s) {index : Nat} {p : Pending} {rest : List Pending}
    (left : s.deliveries[index]? = some (p :: rest)) (fails : Bool) :
    Accounted username (s.pass index p rest fails) := by
  refine ⟨fun clear => ?_, account.inRange, account.loaded⟩
  obtain ⟨balance, bound⟩ := account.balance clear
  refine ⟨?_, bound⟩
  have moved := sum_map_set left rest (deltasOf username)
  have head : deltasOf username (p :: rest) =
      (if p.name = username then p.delta.toNat else 0) + deltasOf username rest := rfl
  simp only [Sys.pass, passedSince, Sys.waiting] at balance ⊢
  omega

theorem accounted_clear (account : Accounted username s) {index : Nat} {user : String} {stage : Stage}
    (held : s.lock = .reset index user stage) (clean : CleanReset username s .clear) :
    Accounted username (s.clear index user stage) := by
  have waits : ∀ (t : ConnTracker) (lock : Lock) (resets : List Reset) (log : List Entry) (l : Ledger),
      lock.waiting username = 0 →
      Sys.waiting { s with tracker := t, lock, resets, log, ledger := l } username =
        s.waiting username := by
    intro t lock resets log l none
    rw [Sys.waiting, Sys.waiting, held, none]
    rfl
  have unclear : user ≠ username → s.lock.clears username = false := by
    intro other
    rw [held]
    exact decide_eq_false other
  by_cases own : user = username
  · subst own
    cases stage with
    | bytesIn =>
      refine ⟨fun clear => absurd clear (by simp [Sys.clear, Lock.clears]), ?_,
        fun _ none => absurd none (Option.not_mem_none _)⟩
      exact (counted_cleared_le s.tracker user .bytesIn user).trans_lt account.inRange
    | bytesOut =>
      refine ⟨fun clear => absurd clear (by simp [Sys.clear, Lock.clears]), ?_,
        fun _ none => absurd none (Option.not_mem_none _)⟩
      exact (counted_cleared_le s.tracker user .bytesOut user).trans_lt account.inRange
    | flushedBytes =>
      have nothing : s.waiting user = 0 := clean user (by simp [Sys.cleared, held]) rfl
      refine ⟨fun _ => ?_, ?_, fun _ none => absurd none (Option.not_mem_none _)⟩
      · simp only [Sys.clear, passedSince, if_true]
        rw [waits _ _ _ _ _ rfl, nothing]
        simp only [flushed, counted, counters_updateTotals]
        split
        · exact ⟨rfl, Nat.zero_le _⟩
        · next absent =>
          -- without a row there is nothing to clear
          have row : counters s.tracker user = {} := by
            simp only [true_and, Option.not_isSome_iff_eq_none] at absent
            rw [counters, absent, Option.getD_none]
          rw [row]
          exact ⟨rfl, Nat.zero_le _⟩
      · exact (counted_cleared_le s.tracker user .flushedBytes user).trans_lt account.inRange
  · have same : ∀ update, counters (s.tracker.updateTotals user update) username =
        counters s.tracker username := by
      intro update
      rw [counters_updateTotals, if_neg fun both => own both.1.symm]
    cases stage with
    | bytesIn =>
      exact accounted_same account (same _) rfl (waits _ _ _ _ _ rfl) (fun _ => unclear own)
        (fun _ none => absurd none (Option.not_mem_none _))
    | bytesOut =>
      exact accounted_same account (same _) rfl (waits _ _ _ _ _ rfl) (fun _ => unclear own)
        (fun _ none => absurd none (Option.not_mem_none _))
    | flushedBytes =>
      refine ⟨fun _ => ?_, ?_, fun _ none => absurd none (Option.not_mem_none _)⟩
      · have balance := account.balance (unclear own)
        simp only [Sys.clear, passedSince, if_neg own]
        rw [waits _ _ _ _ _ rfl]
        simpa only [flushed, counted, same] using balance
      · simpa only [Sys.clear, counted, same] using account.inRange

theorem accounted_step (inRange : InRange username s event) (clean : CleanReset username s event)
    (account : Accounted username s) (taken : step s event = some next) : Accounted username next := by
  cases stepped_of_step taken with
  | register user conn free =>
    exact accounted_same account (counters_register ..) rfl rfl id (fun _ => id)
  | unregister user conn =>
    exact accounted_same account (counters_unregister ..) rfl rfl id (fun _ => id)
  | addBytes conn bytesIn bytesOut =>
    refine accounted_same account (counters_addBytes ..) (by simp) ?_ ?_ ?_
    · rw [Sys.waiting, Sys.waiting, Sys.addBytes_lock, Sys.addBytes_deliveries]
    · rw [Sys.addBytes_lock]
      exact id
    · rw [Sys.addBytes_lock]
      exact fun _ => id
  | find index owner bytesIn bytesOut add free stood =>
    exact accounted_same account rfl rfl rfl id (fun _ => id)
  | countIn index owner bytesIn bytesOut stood =>
    refine accounted_add account owner bytesIn 0 _ _ fun own => ?_
    exact inRange (owner, bytesIn) (by simp [Sys.adding, stood]) own
  | countOut index owner bytesOut stood =>
    refine accounted_add account owner 0 bytesOut _ _ fun own => ?_
    have room := inRange (owner, bytesOut) (by simp [Sys.adding, stood]) own
    rwa [show (0 : UInt64).toNat = 0 from rfl, Nat.zero_add]
  | flushOnce free =>
    refine accounted_same account rfl rfl ?_ (fun _ => by rw [free]; rfl)
      (fun _ none => absurd none (Option.not_mem_none _))
    rw [Sys.waiting, Sys.waiting, free]
    rfl
  | loadIn user scan totals held between ahead found =>
    refine ⟨fun _ => ?_, account.inRange, ?_⟩
    · have balance := account.balance (by rw [held]; rfl)
      rwa [Sys.waiting, held] at balance
    · rintro l ⟨⟩ rfl
      show totals.bytesIn.toNat ≤ (counters s.tracker user).bytesIn.toNat
      rw [counters, found, Option.getD_some]
  | loadOut scan loaded totals held begun found => exact accounted_loadOut account held begun found
  | unlock pendings held =>
    refine accounted_same account rfl rfl ?_ (fun _ => by rw [held]; rfl)
      (fun _ none => absurd none (Option.not_mem_none _))
    simp [Sys.waiting, held, Lock.waiting, Nat.add_comm]
  | addTraffic index fails p rest left => exact accounted_pass account left fails
  | resetTraffic user => exact accounted_same account rfl rfl rfl id (fun _ => id)
  | resetLock index user stood free =>
    refine accounted_same account rfl rfl ?_ (fun _ => by rw [free]; rfl)
      (fun _ none => absurd none (Option.not_mem_none _))
    rw [Sys.waiting, Sys.waiting, free]
    rfl
  | resetEntries index user stood => exact accounted_same account rfl rfl rfl id (fun _ => id)
  | resetStore index user stood => exact accounted_same account rfl rfl rfl id (fun _ => id)
  | clear index user stage held => exact accounted_clear account held clean

/-! ### Runs without a reset -/

/-- The sum of all deltas ever passed to `AddTraffic` for the user. -/
def delivered (username : String) : List Entry → Nat
  | [] => 0
  | .addTraffic name delta :: before =>
    delivered username before + if name = username then delta.toNat else 0
  | .reset _ :: before => delivered username before

/-- `ResetTraffic` is called. -/
def Event.isReset : Event → Bool
  | .resetTraffic _ => true
  | _ => false

/-- Nothing was reset, and nothing is. -/
structure Unreset (s : Sys) : Prop where
  resets : s.resets = []
  lock : ∀ index name stage, s.lock ≠ .reset index name stage
  log : ∀ name, Entry.reset name ∉ s.log

theorem delivered_eq_passedSince {log : List Entry} (unreset : ∀ name, Entry.reset name ∉ log) :
    delivered username log = passedSince username log := by
  induction log with
  | nil => rfl
  | cons entry log ih =>
    have before := ih fun name member => unreset name (List.mem_cons_of_mem _ member)
    cases entry with
    | addTraffic name delta => rw [delivered, passedSince, before]
    | reset name => exact absurd List.mem_cons_self (unreset name)

theorem unreset_step (plain : event.isReset = false) (unreset : Unreset s)
    (taken : step s event = some next) : Unreset next := by
  obtain ⟨resets, lock, log⟩ := unreset
  cases stepped_of_step taken with
  | register | unregister | find | countIn | countOut => exact ⟨resets, lock, log⟩
  | flushOnce | loadIn | unlock => exact ⟨resets, by simp, log⟩
  | addBytes conn bytesIn bytesOut => exact ⟨by simpa, by simpa, by simpa⟩
  | loadOut scan loaded totals held begun found => exact ⟨by simpa, by simp, by simpa⟩
  | addTraffic index fails p rest left =>
    refine ⟨resets, lock, fun name member => ?_⟩
    rcases List.mem_cons.mp member with same | old
    · cases same
    · exact log name old
  | resetTraffic user => cases plain
  | resetLock index user stood => simp [resets] at stood
  | resetEntries index user stood => simp [resets] at stood
  | resetStore index user stood => simp [resets] at stood
  | clear index user stage held => exact absurd held (lock index user stage)

theorem cleanReset_of_unreset (unreset : Unreset s) : CleanReset username s event := by
  intro name clears
  unfold Sys.cleared at clears
  split at clears
  · split at clears
    · next index name held => exact absurd held (unreset.lock index name _)
    · cases clears
  · cases clears

theorem accounted_run {events : List Event} {start : Sys} (reached : run step start events = some s)
    (plain : ∀ event ∈ events, event.isReset = false)
    (inRange : Along step (InRange username) start events) (account : Accounted username start)
    (unreset : Unreset start) : Accounted username s ∧ Unreset s := by
  have always : Along step (fun _ event => event.isReset = false) start events :=
    along_of_forall fun before event after _ split _ =>
      plain event (split ▸ List.mem_append_right before List.mem_cons_self)
  have kept : ∀ state event next,
      (InRange username state event ∧ event.isReset = false) →
      Accounted username state ∧ Unreset state → step state event = some next →
      Accounted username next ∧ Unreset next := by
    rintro state event next ⟨inRange, plain⟩ ⟨account, unreset⟩ taken
    exact ⟨accounted_step inRange (cleanReset_of_unreset unreset) account taken,
      unreset_step plain unreset taken⟩
  have both := run_invariant kept (along_and inRange always) ⟨account, unreset⟩ reached
  exact both

/-! ### A flush that nothing disturbs -/

/-- No `flushOnce` is under way. -/
def Quiet (s : Sys) : Prop := s.lock = .free ∧ ∀ pendings ∈ s.deliveries, pendings = []

theorem waiting_quiet (quiet : Quiet s) : s.waiting username = 0 := by
  rw [Sys.waiting, quiet.1]
  refine (Nat.zero_add _).trans (List.sum_eq_zero fun number member => ?_)
  obtain ⟨pendings, inside, rfl⟩ := List.mem_map.mp member
  rw [quiet.2 pendings inside]
  rfl

def Event.isFlush : Event → Bool
  | .addBytes .. | .add _ => false
  | _ => true

/-- A loop that came to the user has flushed what is counted for them. -/
def Visited (username : String) (s : Sys) : Prop :=
  match s.lock with
  | .free => flushed s.tracker username = counted s.tracker username
  | .flush scan =>
    (∀ l ∈ scan.loaded, l.name = username → l.bytesIn = (counters s.tracker username).bytesIn) ∧
      (username ∉ scan.left → flushed s.tracker username = counted s.tracker username)
  | .reset .. => True

theorem visited_same (visited : Visited username s) (lock : next.lock = s.lock)
    (same : counters next.tracker username = counters s.tracker username) : Visited username next := by
  unfold Visited at visited ⊢
  rw [lock]
  simpa only [flushed, counted, same] using visited

/-- A visit that loaded what is counted flushes it. -/
theorem flushed_loadOut {scan : Scan} {loaded : Loaded} {totals : UserTotals} (account : Accounted username s)
    (held : s.lock = .flush scan) (found : s.tracker.totalsByUser.lookup loaded.name = some totals)
    (own : loaded.name = username) (read : loaded.bytesIn = (counters s.tracker username).bytesIn) :
    flushed (s.loadOut scan loaded totals).tracker username =
      counted (s.loadOut scan loaded totals).tracker username := by
  obtain ⟨-, bound⟩ := account.balance (by rw [held]; rfl)
  have inRange := account.inRange
  subst own
  have row : counters s.tracker loaded.name = totals := by rw [counters, found, Option.getD_some]
  rw [row] at read
  simp only [counted, flushed, row] at bound inRange
  have total : (loaded.bytesIn + totals.bytesOut).toNat = totals.bytesIn.toNat + totals.bytesOut.toNat := by
    rw [read]
    exact toNat_add_of_lt inRange
  simp only [Sys.loadOut]
  split
  · simp only [flushed, counted, counters_updateTotals, found, Option.isSome_some, and_self, if_true, row]
    exact total
  · next still =>
    have still := Nat.not_lt.mp (mt UInt64.lt_iff_toNat_lt.mpr still)
    simp only [flushed, counted, row]
    omega

theorem counters_loadOut_of_ne {loaded : Loaded} (other : loaded.name ≠ username) (scan : Scan)
    (totals : UserTotals) :
    counters (s.loadOut scan loaded totals).tracker username = counters s.tracker username := by
  simp only [Sys.loadOut]
  split
  · rw [counters_updateTotals, if_neg fun both => other both.1.symm]
  · rfl

theorem visited_loadOut (account : Accounted username s) (visited : Visited username s) {scan : Scan}
    {loaded : Loaded} {totals : UserTotals} (held : s.lock = .flush scan)
    (begun : scan.loaded = some loaded)
    (found : s.tracker.totalsByUser.lookup loaded.name = some totals) :
    Visited username (s.loadOut scan loaded totals) := by
  unfold Visited at visited ⊢
  rw [held] at visited
  obtain ⟨loads, done⟩ := visited
  obtain ⟨pendings, lock⟩ := s.loadOut_lock scan loaded totals
  rw [lock]
  refine ⟨fun _ none => absurd none (Option.not_mem_none _), fun behind => ?_⟩
  by_cases own : loaded.name = username
  · exact flushed_loadOut account held found own (loads loaded begun own)
  · rw [flushed, counted, counters_loadOut_of_ne own]
    exact done (mt (List.mem_erase_of_ne (Ne.symm own)).mpr behind)

/-- Once all that is counted is flushed, a visit finds nothing. -/
theorem still_loadOut {scan : Scan} {loaded : Loaded} {totals : UserTotals} (account : Accounted username s)
    (held : s.lock = .flush scan) (begun : scan.loaded = some loaded)
    (found : s.tracker.totalsByUser.lookup loaded.name = some totals)
    (level : flushed s.tracker username = counted s.tracker username) :
    counters (s.loadOut scan loaded totals).tracker username = counters s.tracker username ∧
      (s.loadOut scan loaded totals).waiting username = s.waiting username := by
  by_cases own : loaded.name = username
  · subst own
    have row : counters s.tracker loaded.name = totals := by rw [counters, found, Option.getD_some]
    have read := account.loaded loaded (by rw [held]; exact begun) rfl
    have inRange := account.inRange
    simp only [counted, flushed, row] at read inRange level
    have total : (loaded.bytesIn + totals.bytesOut).toNat = loaded.bytesIn.toNat + totals.bytesOut.toNat :=
      toNat_add_of_lt (by omega)
    have nothing : ¬ totals.flushedBytes < loaded.bytesIn + totals.bytesOut := by
      rw [UInt64.lt_iff_toNat_lt, total]
      omega
    simp only [Sys.loadOut, if_neg nothing, Sys.waiting, held, Lock.waiting, and_self]
  · refine ⟨counters_loadOut_of_ne own scan totals, ?_⟩
    simp only [Sys.loadOut]
    split <;> simp [Sys.waiting, held, Lock.waiting, deltasOf_concat, own]

theorem visited_step (flush : event.isFlush = true) (unreset : Unreset s) (account : Accounted username s)
    (visited : Visited username s) (taken : step s event = some next) : Visited username next := by
  cases stepped_of_step taken with
  | register user conn free => exact visited_same visited rfl (counters_register ..)
  | unregister user conn => exact visited_same visited rfl (counters_unregister ..)
  | addBytes | find | countIn | countOut => cases flush
  | flushOnce free =>
    refine ⟨fun _ none => absurd none (Option.not_mem_none _), fun absent => ?_⟩
    unfold Visited at visited
    rw [free] at visited
    exact visited
  | loadIn user scan totals held between ahead found =>
    unfold Visited at visited
    rw [held] at visited
    refine ⟨?_, visited.2⟩
    rintro l ⟨⟩ rfl
    show totals.bytesIn = (counters s.tracker user).bytesIn
    rw [counters, found, Option.getD_some]
  | loadOut scan loaded totals held begun found => exact visited_loadOut account visited held begun found
  | unlock pendings held =>
    unfold Visited at visited
    rw [held] at visited
    exact visited.2 List.not_mem_nil
  | addTraffic index fails p rest left => exact visited_same visited rfl rfl
  | resetTraffic user => exact visited_same visited rfl rfl
  | resetLock index user stood => simp [unreset.resets] at stood
  | resetEntries index user stood => simp [unreset.resets] at stood
  | resetStore index user stood => simp [unreset.resets] at stood
  | clear index user stage held => exact absurd held (unreset.lock index user stage)

theorem visited_flushOnce (taken : step s .flushOnce = some next) : Visited username next := by
  cases stepped_of_step taken with
  | flushOnce free =>
    refine ⟨fun _ none => absurd none (Option.not_mem_none _), fun absent => ?_⟩
    have row : counters s.tracker username = {} := by
      rw [counters, AList.lookup_eq_none.mpr absent, Option.getD_none]
    simp only [flushed, counted, row]
    rfl

variable (username) in
/-- **Every byte is flushed once.** In a run without a reset in which the bytes counted for a user stay below
`2^64`, the deltas passed to `AddTraffic` and those on their way are `flushedBytes`; so all that was passed is
`flushedBytes` when no flush is under way, and is never more than `bytesIn + bytesOut`, whether or not
`AddTraffic` fails. After a `flushOnce` that no `AddBytes` comes into, all three are equal. -/
theorem flush_counts_once {store : Store} {events : List Event}
    (reached : run step (.initial store) events = some s)
    (plain : ∀ event ∈ events, event.isReset = false)
    (inRange : Along step (InRange username) (.initial store) events) :
    delivered username s.log + s.waiting username = flushed s.tracker username ∧
      (Quiet s → delivered username s.log = flushed s.tracker username) ∧
      delivered username s.log ≤ counted s.tracker username ∧
      ∀ during s', run step s (.flushOnce :: during) = some s' →
        (∀ event ∈ during, event.isFlush = true ∧ event.isReset = false) → Quiet s' →
        delivered username s'.log = flushed s'.tracker username ∧
          flushed s'.tracker username = counted s'.tracker username := by
  obtain ⟨account, unreset⟩ := accounted_run reached plain inRange (accounted_initial store)
    ⟨rfl, nofun, fun _ => List.not_mem_nil⟩
  have unclear : ∀ {s : Sys}, Unreset s → s.lock.clears username = false := by
    intro s unreset
    cases held : s.lock with
    | free => rfl
    | flush scan => rfl
    | reset index name stage => exact absurd held (unreset.lock index name stage)
  obtain ⟨balance, bound⟩ := account.balance (unclear unreset)
  rw [← delivered_eq_passedSince unreset.log] at balance
  refine ⟨balance, fun quiet => ?_, by omega, fun during s' flushes undisturbed quiet => ?_⟩
  · rwa [waiting_quiet quiet, Nat.add_zero] at balance
  · obtain ⟨begun, taken, rest⟩ := run_cons_eq_some.mp flushes
    have start : Accounted username begun ∧ Unreset begun ∧ Visited username begun :=
      ⟨accounted_step (fun _ adds => by cases adds) (cleanReset_of_unreset unreset) account taken,
        unreset_step rfl unreset taken, visited_flushOnce taken⟩
    have along : Along step (fun _ event => event.isFlush = true ∧ event.isReset = false)
        begun during :=
      along_of_forall fun before event after _ split _ =>
        undisturbed event (split ▸ List.mem_append_right before List.mem_cons_self)
    have kept : ∀ state event next,
        (event.isFlush = true ∧ event.isReset = false) →
        Accounted username state ∧ Unreset state ∧ Visited username state →
        step state event = some next →
        Accounted username next ∧ Unreset next ∧ Visited username next := by
      rintro state event next ⟨flush, plain⟩ ⟨account, unreset, visited⟩ taken
      have still : InRange username state event := by
        intro added adds
        cases event with
        | add index => cases flush
        | _ => cases adds
      exact ⟨accounted_step still (cleanReset_of_unreset unreset) account taken,
        unreset_step plain unreset taken, visited_step flush unreset account visited taken⟩
    obtain ⟨account', unreset', visited⟩ := run_invariant kept along start rest
    obtain ⟨balance', -⟩ := account'.balance (unclear unreset')
    rw [← delivered_eq_passedSince unreset'.log, waiting_quiet quiet, Nat.add_zero] at balance'
    refine ⟨balance', ?_⟩
    unfold Visited at visited
    rwa [quiet.1] at visited

/-- Five bytes are counted for a user, and seven more while `flushOnce` is between its two loads. The store fails. -/
def splitVisit : List Event :=
  [.register "alice" laptop, .addBytes laptop 5 0, .add 0, .add 0, .add 0, .addBytes laptop 7 0, .add 1,
    .flushOnce, .loadIn "alice", .add 1, .loadOut, .add 1, .unlock, .addTraffic 0 true]

/-- The next flush. -/
def nextFlush : List Event := [.loadIn "alice", .loadOut, .unlock, .addTraffic 1 false]

theorem flush_counts_once_splitVisit :
    ∃ s s', run step (.initial ∅) splitVisit = some s ∧ delivered "alice" s.log = 5 ∧
      counted s.tracker "alice" = 12 ∧ run step s (.flushOnce :: nextFlush) = some s' ∧
      delivered "alice" s.log = flushed s.tracker "alice" ∧
      delivered "alice" s'.log = flushed s'.tracker "alice" ∧
      flushed s'.tracker "alice" = counted s'.tracker "alice" := by
  have once := flush_counts_once "alice" (show run step (.initial ∅) splitVisit = some _ from rfl)
    (by decide) (by decide)
  obtain ⟨-, settled, -, all⟩ := once
  exact ⟨_, _, rfl, by decide, by decide, rfl, settled ⟨rfl, by decide⟩,
    all nextFlush _ rfl (by decide) ⟨rfl, by decide⟩⟩

end Ttgo.Endpoint.Flush

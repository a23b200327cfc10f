/-
**The flusher and the end of the program.**

`main` starts the goroutine of `StartTrafficFlusher`, which calls `flushOnce` at every tick, and a last time when its
context is done. `srv.Run` returns after a signal, and the program ends with it, whatever the goroutine is doing.
The signal ends the context of `srv.Run`; the flusher was given another one, `context.Background()`.

* `Ctx`, `Flusher`, `Sys`, `step` — the goroutine, step by step, beside the tracker, the resets and the signal.
* `notFinal_run` — with the context of `main`, the goroutine never comes to its last flush.
* `Mark`, `progress` — how far a tick has come with a user since anything was last counted for them.
* `shutdown_persists` — what was passed to the store when `srv.Run` returns is what was counted, if a tick has read
  it and its `flushOnce` has returned.
-/

import Ttgo.Endpoint.Accounts

namespace Ttgo.Endpoint.Shutdown

open Ttgo.Auth Ttgo.Lib Ttgo.Server
open Ttgo.Endpoint.Flush (Accounted CleanReset InRange Scan accounted_initial accounted_step counted counters
  counters_addBytes counters_register counters_unregister deltasOf flushed passedSince)

/-! ### The goroutine -/

/-- The context that `StartTrafficFlusher` is given. -/
inductive Ctx
  /-- `context.Background()`. -/
  | background
  /-- The context of `signal.NotifyContext`. -/
  | notify
deriving DecidableEq, Repr

/-- `<-ctx.Done()` is ready. -/
def Ctx.done : Ctx → Bool → Bool
  | .background, _ => false
  | .notify, signalled => signalled

def mainCtx : Ctx := .background

/-- The goroutine of `StartTrafficFlusher`; `final` says that it is the flush after `ctx.Done`. -/
inductive Flusher
  | select
  /-- It called `flushOnce`; before `totalsMu.Lock`. -/
  | called (final : Bool)
  /-- It holds the lock. -/
  | scanning (final : Bool)
  /-- It passes the deltas of that index. -/
  | passing (final : Bool) (index : Nat)
  | returned
deriving DecidableEq, Repr

/-- A step of `flushOnce`, taken by the goroutine. No `AddTraffic` fails. -/
def Flusher.flush (s : Flush.Sys) : Flusher → Flush.Event → Option Flusher
  | .called final, .flushOnce => some (.scanning final)
  | .scanning final, .loadIn _ | .scanning final, .loadOut => some (.scanning final)
  | .scanning final, .unlock => some (.passing final s.deliveries.length)
  | .passing final index, .addTraffic place fails =>
    if place = index ∧ fails = false then some (.passing final index) else none
  | _, _ => none

def isFlushOnce : Flush.Event → Bool
  | .flushOnce | .loadIn _ | .loadOut | .unlock | .addTraffic .. => true
  | _ => false

structure Sys where
  traffic : Flush.Sys
  flusher : Flusher
  signalled : Bool
  /-- `srv.Run` has returned, and the program with it. -/
  returned : Bool

def Sys.initial (store : Store) : Sys := ⟨.initial store, .select, false, false⟩

inductive Event
  /-- A step of the tracker, of an `AddBytes` or of a `ResetTraffic`. -/
  | call (event : Flush.Event)
  /-- `<-ticker.C`. -/
  | tick
  /-- `<-ctx.Done()`. -/
  | done
  /-- A step of `flushOnce`. -/
  | flush (event : Flush.Event)
  /-- `flushOnce` returns to the goroutine. -/
  | flushed
  /-- SIGINT or SIGTERM. -/
  | signal
  /-- `srv.Run` returns: its context was done, and `shutdown` is through. -/
  | runReturns
deriving DecidableEq, Repr

/-- The program, with the context that the flusher was given. -/
def step (ctx : Ctx) (s : Sys) (event : Event) : Option Sys :=
  if s.returned then none else
  match event with
  | .call event =>
    if isFlushOnce event then none else (Flush.step s.traffic event).map fun traffic => { s with traffic }
  | .tick => if s.flusher = .select then some { s with flusher := .called false } else none
  | .done =>
    if s.flusher = .select ∧ ctx.done s.signalled then some { s with flusher := .called true } else none
  | .flush event => do
    let flusher ← s.flusher.flush s.traffic event
    let traffic ← Flush.step s.traffic event
    return { s with traffic, flusher }
  | .flushed =>
    match s.flusher with
    | .passing final index =>
      if s.traffic.deliveries[index]? = some [] then
        some { s with flusher := if final then .returned else .select }
      else none
    | _ => none
  | .signal => some { s with signalled := true }
  | .runReturns => if s.signalled then some { s with returned := true } else none

/-- The step of `Flush.step` that a step takes. -/
def Event.ofTraffic : Event → Option Flush.Event
  | .call event | .flush event => some event
  | _ => none

/-- **One step**, inverted. -/
inductive Stepped (ctx : Ctx) (s : Sys) : Event → Sys → Prop
  | call (event : Flush.Event) (traffic : Flush.Sys) (outside : isFlushOnce event = false)
      (moved : Flush.step s.traffic event = some traffic) :
      Stepped ctx s (.call event) { s with traffic }
  | tick (stood : s.flusher = .select) : Stepped ctx s .tick { s with flusher := .called false }
  | done (stood : s.flusher = .select) (ended : ctx.done s.signalled = true) :
      Stepped ctx s .done { s with flusher := .called true }
  | flush (event : Flush.Event) (flusher : Flusher) (traffic : Flush.Sys)
      (goesOn : s.flusher.flush s.traffic event = some flusher)
      (moved : Flush.step s.traffic event = some traffic) :
      Stepped ctx s (.flush event) { s with traffic, flusher }
  | flushed (final : Bool) (index : Nat) (stood : s.flusher = .passing final index)
      (through : s.traffic.deliveries[index]? = some []) :
      Stepped ctx s .flushed { s with flusher := if final then .returned else .select }
  | signal : Stepped ctx s .signal { s with signalled := true }
  | runReturns (signalled : s.signalled = true) : Stepped ctx s .runReturns { s with returned := true }

variable {ctx : Ctx} {s next : Sys} {event : Event} {username : String}

theorem stepped_of_step (taken : step ctx s event = some next) : Stepped ctx s event next := by
  obtain ⟨-, taken⟩ := Option.ite_none_left_eq_some.mp taken
  cases event with
  | call event =>
    obtain ⟨outside, taken⟩ := Option.ite_none_left_eq_some.mp taken
    obtain ⟨traffic, moved, rfl⟩ := Option.map_eq_some_iff.mp taken
    exact .call event traffic (Bool.eq_false_iff.mpr outside) moved
  | tick =>
    obtain ⟨stood, taken⟩ := Option.ite_none_right_eq_some.mp taken
    cases taken
    exact .tick stood
  | done =>
    obtain ⟨⟨stood, ended⟩, taken⟩ := Option.ite_none_right_eq_some.mp taken
    cases taken
    exact .done stood ended
  | flush event =>
    simp only [Option.bind_eq_bind, Option.bind_eq_some_iff, Option.pure_def, Option.some.injEq] at taken
    obtain ⟨flusher, goesOn, traffic, moved, rfl⟩ := taken
    exact .flush event flusher traffic goesOn moved
  | flushed =>
    simp only at taken
    split at taken
    · next final index stood =>
      obtain ⟨through, taken⟩ := Option.ite_none_right_eq_some.mp taken
      cases taken
      exact .flushed final index stood through
    · cases taken
  | signal =>
    cases taken
    exact .signal
  | runReturns =>
    obtain ⟨signalled, taken⟩ := Option.ite_none_right_eq_some.mp taken
    cases taken
    exact .runReturns signalled

/-! ### The last flush -/

/-- The goroutine is in its last flush, or through. -/
def Flusher.isFinal : Flusher → Bool
  | .called final | .scanning final | .passing final _ => final
  | .select => false
  | .returned => true

theorem isFinal_flush {traffic : Flush.Sys} {flusher after : Flusher} {event : Flush.Event}
    (goesOn : flusher.flush traffic event = some after) : after.isFinal = flusher.isFinal := by
  unfold Flusher.flush at goesOn
  split at goesOn
  · cases goesOn
    rfl
  · cases goesOn
    rfl
  · cases goesOn
    rfl
  · cases goesOn
    rfl
  · obtain ⟨-, goesOn⟩ := Option.ite_none_right_eq_some.mp goesOn
    cases goesOn
    rfl
  · cases goesOn

theorem notFinal_step (before : s.flusher.isFinal = false) (taken : step mainCtx s event = some next) :
    next.flusher.isFinal = false := by
  cases stepped_of_step taken with
  | call | signal | runReturns => exact before
  | tick stood => rfl
  | done stood ended => cases ended
  | flush event flusher traffic goesOn moved => exact (isFinal_flush goesOn).trans before
  | flushed final index stood through =>
    rw [stood] at before
    obtain rfl : final = false := before
    rfl

/-- **The last flush never happens**: in no run of `main` does the goroutine come to it. -/
theorem notFinal_run {store : Store} {events : List Event}
    (reached : run (step mainCtx) (.initial store) events = some s) : s.flusher.isFinal = false := by
  have kept : ∀ (s : Sys) event next, s.flusher.isFinal = false → step mainCtx s event = some next →
      next.flusher.isFinal = false := fun _ _ _ before taken => notFinal_step before taken
  have final := run_invariant' kept rfl reached
  exact final

/-! ### The account -/

/-- The steps of the tracker keep the counters in their range, and a reset finds no delta on its way. -/
def Regular (username : String) (s : Sys) (event : Event) : Prop :=
  ∀ taken ∈ event.ofTraffic, InRange username s.traffic taken ∧ CleanReset username s.traffic taken

instance (username : String) (s : Sys) (event : Event) : Decidable (Regular username s event) :=
  inferInstanceAs (Decidable (∀ taken ∈ event.ofTraffic, _))

theorem accounted_program (regular : Regular username s event) (account : Accounted username s.traffic)
    (taken : step ctx s event = some next) : Accounted username next.traffic := by
  cases stepped_of_step taken with
  | tick | done | flushed | signal | runReturns => exact account
  | call event traffic outside moved =>
    obtain ⟨inRange, clean⟩ := regular event rfl
    exact accounted_step inRange clean account moved
  | flush event flusher traffic goesOn moved =>
    obtain ⟨inRange, clean⟩ := regular event rfl
    exact accounted_step inRange clean account moved

/-! ### One goroutine -/

/-- The loop that holds the lock. -/
def scanOf : Flush.Lock → Option Scan
  | .flush scan => some scan
  | _ => none

/-- There is one `flushOnce` at a time: its deltas are passed when the next begins. -/
def Lone (s : Sys) : Prop :=
  match s.flusher with
  | .passing _ index => scanOf s.traffic.lock = none ∧
      ∀ (place : Nat) pendings, s.traffic.deliveries[place]? = some pendings → place ≠ index → pendings = []
  | _ => ∀ pendings ∈ s.traffic.deliveries, pendings = []

/-- The step adds to the counters of the user, or belongs to a reset that is about to clear them or does. -/
def disturbs (username : String) (t : Flush.Sys) : Flush.Event → Bool
  | .add index =>
    match t.adds[index]? with
    | some (.counting owner _ _) | some (.countingOut owner _) => owner = username
    | _ => false
  | .reset index => t.resets[index]? = some ⟨username, .called⟩
  | .clear => t.lock.clears username
  | _ => false

/-- What a step outside `flushOnce` leaves alone. -/
structure Untouched (username : String) (t t' : Flush.Sys) (call : Flush.Event) : Prop where
  deliveries : t'.deliveries = t.deliveries
  scan : scanOf t'.lock = scanOf t.lock
  counters : disturbs username t call = false → counters t'.tracker username = counters t.tracker username
  clears : disturbs username t call = false → t.lock.clears username = false → t'.lock.clears username = false

theorem untouched_call {t t' : Flush.Sys} {call : Flush.Event} (outside : isFlushOnce call = false)
    (moved : Flush.step t call = some t') : Untouched username t t' call := by
  have added : ∀ (owner : String) (bytesIn bytesOut : UInt64), owner ≠ username →
      counters (t.tracker.addBytesTotals owner bytesIn bytesOut) username = counters t.tracker username := by
    intro owner bytesIn bytesOut other
    rw [Flush.counters_addBytesTotals, if_neg fun both => other both.1.symm]
  have updated : ∀ (user : String) update, user ≠ username →
      counters (t.tracker.updateTotals user update) username = counters t.tracker username := by
    intro user update other
    rw [Flush.counters_updateTotals, if_neg fun both => other both.1.symm]
  cases Flush.stepped_of_step moved with
  | register user conn free => exact ⟨rfl, rfl, fun _ => counters_register .., fun _ => id⟩
  | unregister user conn => exact ⟨rfl, rfl, fun _ => counters_unregister .., fun _ => id⟩
  | addBytes conn bytesIn bytesOut => exact ⟨by simp, by simp, fun _ => counters_addBytes .., by simp⟩
  | find | resetTraffic | resetEntries | resetStore => exact ⟨rfl, rfl, fun _ => rfl, fun _ => id⟩
  | countIn index owner bytesIn bytesOut stood =>
    exact ⟨rfl, rfl, fun quiet => added owner _ _ (by simpa [disturbs, stood] using quiet), fun _ => id⟩
  | countOut index owner bytesOut stood =>
    exact ⟨rfl, rfl, fun quiet => added owner _ _ (by simpa [disturbs, stood] using quiet), fun _ => id⟩
  | flushOnce | loadIn | loadOut | unlock | addTraffic => cases outside
  | resetLock index user stood free =>
    refine ⟨rfl, by rw [free]; rfl, fun _ => rfl, fun quiet _ => decide_eq_false ?_⟩
    simpa [disturbs, stood] using quiet
  | clear index user stage held =>
    have other : disturbs username t .clear = false → user ≠ username := by
      simp [disturbs, held, Flush.Lock.clears]
    cases stage with
    | bytesIn | bytesOut =>
      exact ⟨rfl, by rw [held]; rfl, fun quiet => updated user _ (other quiet),
        fun quiet _ => decide_eq_false (other quiet)⟩
    | flushedBytes => exact ⟨rfl, by rw [held]; rfl, fun quiet => updated user _ (other quiet), fun _ _ => rfl⟩

theorem waiting_eq (t : Flush.Sys) (username : String) :
    t.waiting username = ((scanOf t.lock).elim 0 fun scan => deltasOf username scan.pendings) +
      (t.deliveries.map (deltasOf username)).sum := by
  rw [Flush.Sys.waiting]
  cases t.lock <;> rfl

theorem isFlushOnce_of_flush {t : Flush.Sys} {flusher after : Flusher} {event : Flush.Event}
    (goesOn : flusher.flush t event = some after) : isFlushOnce event = true := by
  unfold Flusher.flush at goesOn
  split at goesOn <;> first | rfl | cases goesOn

theorem lone_flush {flusher : Flusher} {traffic : Flush.Sys} {event : Flush.Event} (lone : Lone s)
    (goesOn : s.flusher.flush s.traffic event = some flusher)
    (moved : Flush.step s.traffic event = some traffic) : Lone { s with traffic, flusher } := by
  unfold Lone at lone
  unfold Flusher.flush at goesOn
  split at goesOn
  · next final stood =>
    cases goesOn
    rw [stood] at lone
    cases Flush.stepped_of_step moved
    exact lone
  · next final stood =>
    cases goesOn
    rw [stood] at lone
    cases Flush.stepped_of_step moved
    exact lone
  · next final stood =>
    cases goesOn
    rw [stood] at lone
    cases Flush.stepped_of_step moved with
    | loadOut scan loaded totals held begun found =>
      intro pendings member
      rw [Flush.Sys.loadOut_deliveries] at member
      exact lone pendings member
  · next final stood =>
    cases goesOn
    rw [stood] at lone
    cases Flush.stepped_of_step moved with
    | unlock pendings held =>
      refine ⟨rfl, fun place other there apart => ?_⟩
      rcases pool_get_append there with old | ⟨last, -⟩
      · exact lone other (List.mem_of_getElem? old)
      · exact absurd last apart
  · next final index place fails stood =>
    obtain ⟨⟨same, -⟩, goesOn⟩ := Option.ite_none_right_eq_some.mp goesOn
    cases goesOn
    subst same
    rw [stood] at lone
    cases Flush.stepped_of_step moved with
    | addTraffic index fails p rest left =>
      refine ⟨lone.1, fun place other there apart => ?_⟩
      rcases pool_get_set left there with ⟨same, -⟩ | ⟨-, old⟩
      · exact absurd same apart
      · exact lone.2 place other old apart
  · cases goesOn

theorem Lone.through {final : Bool} {index : Nat} (lone : Lone s) (stood : s.flusher = .passing final index)
    (through : s.traffic.deliveries[index]? = some []) :
    scanOf s.traffic.lock = none ∧ ∀ pendings ∈ s.traffic.deliveries, pendings = [] := by
  unfold Lone at lone
  rw [stood] at lone
  refine ⟨lone.1, fun pendings member => ?_⟩
  obtain ⟨place, there⟩ := List.mem_iff_getElem?.mp member
  by_cases same : place = index
  · subst same
    exact Option.some.inj (there.symm.trans through)
  · exact lone.2 place pendings there same

theorem lone_step (lone : Lone s) (taken : step ctx s event = some next) : Lone next := by
  have before := lone
  unfold Lone at lone
  cases stepped_of_step taken with
  | call event traffic outside moved =>
    have same : Untouched "" s.traffic traffic event := untouched_call outside moved
    unfold Lone
    simpa only [same.deliveries, same.scan] using lone
  | tick stood | done stood ended =>
    rw [stood] at lone
    exact lone
  | flush event flusher traffic goesOn moved => exact lone_flush lone goesOn moved
  | flushed final index stood through =>
    cases final <;> exact (before.through stood through).2
  | signal | runReturns => exact lone

/-! ### How far a tick has come -/

/-- What the goroutine has done with a user since anything was counted for them, or their counters were reset. -/
inductive Mark
  | behind
  /-- It has loaded `bytesIn`. -/
  | entered
  /-- It has loaded both counters. -/
  | read
  /-- That `flushOnce` has returned. -/
  | passed
deriving DecidableEq, Repr

def follow (username : String) (s : Sys) (event : Event) (mark : Mark) : Mark :=
  match event, mark with
  | .call call, mark => if disturbs username s.traffic call then .behind else mark
  | .flush (.loadIn name), .behind => if name = username then .entered else .behind
  | .flush .loadOut, .entered => .read
  | .flushed, .read => .passed
  | _, mark => mark

/-- **How far a tick has come with a user** at the end of a run. -/
def progress (username : String) (store : Store) (events : List Event) : Mark :=
  tally (step mainCtx) (follow username) (.initial store) events .passed

/-- What the mark says. -/
structure Following (username : String) (s : Sys) (mark : Mark) : Prop where
  account : Accounted username s.traffic
  lone : Lone s
  unclear : mark ≠ .behind → s.traffic.lock.clears username = false
  entered : mark = .entered → ∃ scan ∈ scanOf s.traffic.lock, ∃ l ∈ scan.loaded,
    l.name = username ∧ l.bytesIn = (counters s.traffic.tracker username).bytesIn
  level : mark = .read ∨ mark = .passed →
    flushed s.traffic.tracker username = counted s.traffic.tracker username
  passed : mark = .passed → s.traffic.waiting username = 0

variable {mark : Mark}

theorem following_behind (account : Accounted username s.traffic) (lone : Lone s) :
    Following username s .behind :=
  ⟨account, lone, fun other => absurd rfl other, by simp, by simp, by simp⟩

theorem following_read (account : Accounted username s.traffic) (lone : Lone s)
    (unclear : s.traffic.lock.clears username = false)
    (level : flushed s.traffic.tracker username = counted s.traffic.tracker username) :
    Following username s .read :=
  ⟨account, lone, fun _ => unclear, by simp, fun _ => level, by simp⟩

theorem following_passed (account : Accounted username s.traffic) (lone : Lone s)
    (unclear : s.traffic.lock.clears username = false)
    (level : flushed s.traffic.tracker username = counted s.traffic.tracker username)
    (waits : s.traffic.waiting username = 0) : Following username s .passed :=
  ⟨account, lone, fun _ => unclear, by simp, fun _ => level, fun _ => waits⟩

theorem following_call {call : Flush.Event} {traffic : Flush.Sys} (following : Following username s mark)
    (account : Accounted username traffic) (lone : Lone { s with traffic })
    (same : Untouched username s.traffic traffic call) :
    Following username { s with traffic } (follow username s (.call call) mark) := by
  simp only [follow]
  split
  · exact following_behind account lone
  · next quiet =>
    rw [Bool.not_eq_true] at quiet
    have counters := same.counters quiet
    have waits : traffic.waiting username = s.traffic.waiting username := by
      rw [waiting_eq, waiting_eq, same.scan, same.deliveries]
    refine ⟨account, lone, fun known => same.clears quiet (following.unclear known), fun entered => ?_,
      fun level => ?_, fun passed => waits.trans (following.passed passed)⟩
    · rw [same.scan, counters]
      exact following.entered entered
    · rw [flushed, counted, counters]
      exact following.level level

theorem following_loadIn {name : String} {flusher : Flusher} {traffic : Flush.Sys} {scan : Flush.Scan}
    {totals : UserTotals} (following : Following username s mark) (account : Accounted username traffic)
    (lone : Lone { s with traffic, flusher }) (held : s.traffic.lock = .flush scan) (between : scan.loaded = none)
    (found : s.traffic.tracker.totalsByUser.lookup name = some totals)
    (loads : traffic = { s.traffic with lock := .flush { scan with
      loaded := some ⟨name, totals.bytesIn, s.traffic.ledger.unflushedIn name⟩ } }) :
    Following username { s with traffic, flusher } (follow username s (.flush (.loadIn name)) mark) := by
  subst loads
  have waits : ∀ loaded, Flush.Sys.waiting { s.traffic with lock := .flush { scan with loaded } } username =
      s.traffic.waiting username := by
    intro loaded
    rw [waiting_eq, waiting_eq, held]
    rfl
  cases mark with
  | behind =>
    simp only [follow]
    split
    · next own =>
      refine ⟨account, lone, fun _ => rfl, fun _ => ⟨_, rfl, _, rfl, own, ?_⟩, by simp, by simp⟩
      show totals.bytesIn = (counters s.traffic.tracker username).bytesIn
      rw [← own, counters, found, Option.getD_some]
    · exact following_behind account lone
  | entered =>
    obtain ⟨scan', held', l, loaded, -⟩ := following.entered rfl
    rw [held] at held'
    cases held'
    rw [between] at loaded
    cases loaded
  | read => exact following_read account lone rfl (following.level (.inl rfl))
  | passed =>
    exact following_passed account lone rfl (following.level (.inr rfl)) ((waits _).trans (following.passed rfl))

theorem following_loadOut {flusher : Flusher} {scan : Flush.Scan} {loaded : Flush.Loaded} {totals : UserTotals}
    (following : Following username s mark) (account : Accounted username (s.traffic.loadOut scan loaded totals))
    (lone : Lone { s with traffic := s.traffic.loadOut scan loaded totals, flusher })
    (held : s.traffic.lock = .flush scan) (begun : scan.loaded = some loaded)
    (found : s.traffic.tracker.totalsByUser.lookup loaded.name = some totals) :
    Following username { s with traffic := s.traffic.loadOut scan loaded totals, flusher }
      (follow username s (.flush .loadOut) mark) := by
  obtain ⟨pendings, lock⟩ := s.traffic.loadOut_lock scan loaded totals
  have unclear : (s.traffic.loadOut scan loaded totals).lock.clears username = false := by rw [lock]; rfl
  have still := Flush.still_loadOut following.account held begun found
  cases mark with
  | behind => exact following_behind account lone
  | entered =>
    obtain ⟨scan', held', l, isLoaded, own, read⟩ := following.entered rfl
    rw [held] at held'
    cases held'
    cases begun.symm.trans isLoaded
    exact following_read account lone unclear (Flush.flushed_loadOut following.account held found own read)
  | read =>
    obtain ⟨same, -⟩ := still (following.level (.inl rfl))
    refine following_read account lone unclear ?_
    rw [flushed, counted, same]
    exact following.level (.inl rfl)
  | passed =>
    obtain ⟨same, waits⟩ := still (following.level (.inr rfl))
    refine following_passed account lone unclear ?_ (waits.trans (following.passed rfl))
    rw [flushed, counted, same]
    exact following.level (.inr rfl)

theorem following_flush {event : Flush.Event} {flusher : Flusher} {traffic : Flush.Sys}
    (following : Following username s mark) (account : Accounted username traffic)
    (lone : Lone { s with traffic, flusher }) (inside : isFlushOnce event = true)
    (moved : Flush.step s.traffic event = some traffic) :
    Following username { s with traffic, flusher } (follow username s (.flush event) mark) := by
  cases Flush.stepped_of_step moved with
  | flushOnce free =>
    have same : follow username s (.flush .flushOnce) mark = mark := by cases mark <;> rfl
    rw [same]
    refine ⟨account, lone, fun _ => rfl, fun entered => ?_, following.level, fun passed => ?_⟩
    · obtain ⟨scan, held, -⟩ := following.entered entered
      rw [free] at held
      cases held
    · have before := following.passed passed
      rw [waiting_eq, free] at before
      rw [waiting_eq]
      exact before
  | loadIn name scan totals held between ahead found =>
    exact following_loadIn following account lone held between found rfl
  | loadOut scan loaded totals held begun found => exact following_loadOut following account lone held begun found
  | unlock pendings held =>
    have same : follow username s (.flush .unlock) mark = mark := by cases mark <;> rfl
    rw [same]
    refine ⟨account, lone, fun _ => rfl, fun entered => ?_, following.level, fun passed => ?_⟩
    · obtain ⟨scan, held', l, loaded, -⟩ := following.entered entered
      rw [held] at held'
      cases held'
      cases loaded
    · have before := following.passed passed
      rw [waiting_eq, held] at before
      rw [waiting_eq]
      simpa [scanOf, and_comm] using before
  | addTraffic index fails p rest left =>
    have same : follow username s (.flush (.addTraffic index fails)) mark = mark := by cases mark <;> rfl
    rw [same]
    refine ⟨account, lone, following.unclear, following.entered, following.level, fun passed => ?_⟩
    have before := following.passed passed
    have fewer := sum_map_set left rest (deltasOf username)
    have head : deltasOf username (p :: rest) =
        (if p.name = username then p.delta.toNat else 0) + deltasOf username rest := rfl
    simp only [Flush.Sys.pass, Flush.Sys.waiting] at before ⊢
    omega
  | register | unregister | addBytes | find | countIn | countOut | resetTraffic | resetLock | resetEntries
  | resetStore | clear => cases inside

theorem following_step (regular : Regular username s event) (following : Following username s mark)
    (taken : step ctx s event = some next) : Following username next (follow username s event mark) := by
  have account := accounted_program regular following.account taken
  have lone := lone_step following.lone taken
  have ⟨_, _, unclear, entered, level, passed⟩ := following
  cases stepped_of_step taken with
  | call event traffic outside moved => exact following_call following account lone (untouched_call outside moved)
  | tick | done | signal | runReturns => cases mark <;> exact ⟨account, lone, unclear, entered, level, passed⟩
  | flush event flusher traffic goesOn moved =>
    exact following_flush following account lone (isFlushOnce_of_flush goesOn) moved
  | flushed final index stood through =>
    cases mark with
    | read =>
      obtain ⟨free, none⟩ := following.lone.through stood through
      refine following_passed account lone (unclear (by simp)) (level (.inl rfl)) ?_
      rw [waiting_eq, free]
      refine (Nat.zero_add _).trans (List.sum_eq_zero fun number member => ?_)
      obtain ⟨pendings, inside, rfl⟩ := List.mem_map.mp member
      rw [none pendings inside]
      rfl
    | behind | entered | passed => exact ⟨account, lone, unclear, entered, level, passed⟩

/-- **What a shutdown persists.** When `srv.Run` returns after a signal, what was passed to `AddTraffic` for a user
since the last reset is what was counted, if a tick has read the counters since, and its `flushOnce` has returned. -/
theorem shutdown_persists {store : Store} {events : List Event} {returned : Sys}
    (reached : run (step mainCtx) (.initial store) events = some s)
    (regular : Along (step mainCtx) (Regular username) (.initial store) events)
    (passed : progress username store events = .passed)
    (returns : step mainCtx s .runReturns = some returned) :
    passedSince username returned.traffic.log = counted returned.traffic.tracker username := by
  have start : Following username (.initial store) .passed :=
    following_passed (accounted_initial store) (fun _ member => absurd member List.not_mem_nil) rfl rfl rfl
  have kept : ∀ (s : Sys) event next mark, Regular username s event → Following username s mark →
      step mainCtx s event = some next → Following username next (follow username s event mark) :=
    fun _ _ _ _ regular following taken => following_step regular following taken
  have following : Following username s (progress username store events) :=
    tally_invariant kept regular start reached
  have same : returned.traffic = s.traffic := by
    cases stepped_of_step returns with
    | runReturns signalled => rfl
  rw [passed] at following
  obtain ⟨balance, -⟩ := following.account.balance (following.unclear (by simp))
  rw [same, ← following.level (.inr rfl), ← balance, following.passed rfl, Nat.add_zero]

/-- Five bytes are counted for a user; every call has returned. -/
def countedFive : List Event :=
  [.call (.register "alice" laptop), .call (.addBytes laptop 5 0), .call (.add 0), .call (.add 0),
    .call (.add 0)]

def tickFlush : List Event :=
  [.tick, .flush .flushOnce, .flush (.loadIn "alice"), .flush .loadOut, .flush .unlock,
    .flush (.addTraffic 0 false), .flushed]

theorem shutdown_persists_afterTick :
    ∃ s returned, run (step mainCtx) (.initial ∅) (countedFive ++ tickFlush ++ [.signal]) = some s ∧
      step mainCtx s .runReturns = some returned ∧ counted returned.traffic.tracker "alice" = 5 ∧
      passedSince "alice" returned.traffic.log = counted returned.traffic.tracker "alice" :=
  ⟨_, _, rfl, rfl, by decide, shutdown_persists
    (show run (step mainCtx) (.initial ∅) (countedFive ++ tickFlush ++ [.signal]) = some _ from rfl)
    (by decide) (by decide) rfl⟩

/-- The signal comes before the next tick: the bytes are lost. -/
theorem shutdown_loses_traffic :
    ∃ s returned, run (step mainCtx) (.initial ∅) (countedFive ++ [.signal]) = some s ∧
      (∀ add ∈ s.traffic.adds, add = .done) ∧ step mainCtx s .runReturns = some returned ∧
      counted returned.traffic.tracker "alice" = 5 ∧ passedSince "alice" returned.traffic.log = 0 :=
  ⟨_, _, rfl, by decide, rfl, by decide, by decide⟩

end Ttgo.Endpoint.Shutdown

/-
**`ResetTraffic` against a flush on its way.**

A reset clears the tracker and then the column. A delta that `flushOnce` computed before the tracker was cleared is
made of bytes that were counted before, and may reach the store after the column was cleared.

* `Completed` — the `AddBytes` calls that have returned.
* `Sys.progress` — how much of the tracker a reset has cleared; `Clearing` — what it has cleared holds no byte of a
  call that had returned before the reset began.
* `Rid` — no such byte is anywhere.
* `resetTraffic_clean_iff` — after a reset has returned, no such byte reaches the column in any continuation:
  exactly if none of them is in a delta on its way when the column is cleared.
-/

import Ttgo.Endpoint.Accounts

namespace Ttgo.Endpoint.Flush

open Ttgo.Auth Ttgo.Lib Ttgo.Server

/-- The `AddBytes` call has returned. -/
def Completed (s : Sys) (call : Nat) : Prop := s.adds[call]? = some .done

instance (s : Sys) (call : Nat) : Decidable (Completed s call) :=
  inferInstanceAs (Decidable (s.adds[call]? = some .done))

/-- No byte is of an old call. -/
def New (old : Nat → Prop) (lots : List Lot) : Prop := ∀ lot ∈ lots, ¬ old lot.call

/-- The old calls have returned. -/
def Settled (old : Nat → Prop) (s : Sys) : Prop := ∀ call, old call → Completed s call

/-- The lots of a user that the loop of `flushOnce` holds are new. -/
def NewScan (old : Nat → Prop) (username : String) (s : Sys) : Prop :=
  ∀ scan, s.lock = .flush scan →
    (∀ l ∈ scan.loaded, l.name = username → New old l.lots) ∧
      ∀ p ∈ scan.pendings, p.name = username → New old p.lots

/-- The deltas of a user that are on their way are new. -/
def NewDeliveries (old : Nat → Prop) (username : String) (s : Sys) : Prop :=
  ∀ pendings ∈ s.deliveries, ∀ p ∈ pendings, p.name = username → New old p.lots

variable {old : Nat → Prop} {s next : Sys} {event : Event} {username : String} {index : Nat}

theorem new_nil : New old [] := fun _ member => absurd member List.not_mem_nil

theorem new_append {first second : List Lot} (left : New old first) (right : New old second) :
    New old (first ++ second) := fun lot member => (List.mem_append.mp member).elim (left lot) (right lot)

/-! ### Steps -/

theorem completed_set {adds : List Add} {call place : Nat} {stood new : Add}
    (found : adds[place]? = some stood) (unfinished : stood ≠ .done) (done : adds[call]? = some .done) :
    (adds.set place new)[call]? = some .done := by
  rw [List.getElem?_set_ne, done]
  rintro rfl
  rw [found] at done
  exact unfinished (Option.some.inj done)

theorem settled_step (settled : Settled old s) (taken : step s event = some next) : Settled old next := by
  intro call isOld
  have done : s.adds[call]? = some .done := settled call isOld
  cases stepped_of_step taken with
  | register | unregister | flushOnce | loadIn | unlock | addTraffic | resetTraffic | resetLock
  | resetEntries | resetStore => exact done
  | addBytes conn bytesIn bytesOut =>
    have grown : ∀ new, (s.adds ++ [new])[call]? = some .done := fun new => by
      rw [List.getElem?_append_left (List.getElem?_eq_some_iff.mp done).1, done]
    simp only [Completed, Sys.addBytes]
    split <;> exact grown _
  | find place owner bytesIn bytesOut add free stood => exact completed_set stood (by simp) done
  | countIn place owner bytesIn bytesOut stood => exact completed_set stood (by simp) done
  | countOut place owner bytesOut stood => exact completed_set stood (by simp) done
  | loadOut scan loaded totals held begun found => rwa [Completed, Sys.loadOut_adds]
  | clear place user stage held => cases stage <;> exact done

theorem new_lots {place : Nat} {stood : Add} (settled : Settled old s) (found : s.adds[place]? = some stood)
    (unfinished : stood ≠ .done) (bytes : UInt64) : New old (lots place bytes) := by
  intro lot member isOld
  unfold lots at member
  split at member
  · cases member
  · obtain rfl := List.mem_singleton.mp member
    have done : s.adds[place]? = some .done := settled place isOld
    rw [found] at done
    exact unfinished (Option.some.inj done)

theorem new_update {before : String → List Lot} {name : String} {value : List Lot}
    (new : New old (before username)) (written : name = username → New old value) :
    New old (Function.update before name value username) := by
  by_cases own : username = name
  · subst own
    rw [Function.update_self]
    exact written rfl
  · rwa [Function.update_of_ne own]

theorem new_cleared {before : String → List Lot} : New old (Function.update before username [] username) := by
  rw [Function.update_self]
  exact new_nil

theorem newIn_step (settled : Settled old s) (new : New old (s.ledger.unflushedIn username))
    (taken : step s event = some next) : New old (next.ledger.unflushedIn username) := by
  cases stepped_of_step taken with
  | register | unregister | find | countOut | flushOnce | loadIn | unlock | resetTraffic | resetLock
  | resetEntries | resetStore => exact new
  | addBytes conn bytesIn bytesOut => rwa [Sys.addBytes_ledger]
  | countIn place owner bytesIn bytesOut stood =>
    refine new_update new ?_
    rintro rfl
    exact new_append new (new_lots settled stood (by simp) bytesIn)
  | loadOut scan loaded totals held begun found =>
    simp only [Sys.loadOut]
    split
    · refine new_update new ?_
      rintro rfl
      exact fun lot member => new lot (List.mem_of_mem_drop member)
    · exact new
  | addTraffic place fails p rest left =>
    simp only [Sys.pass]
    split <;> exact new
  | clear place user stage held =>
    cases stage with
    | bytesIn => exact new_update new fun _ => new_nil
    | bytesOut => exact new
    | flushedBytes => exact new

theorem newOut_step (settled : Settled old s) (new : New old (s.ledger.unflushedOut username))
    (taken : step s event = some next) : New old (next.ledger.unflushedOut username) := by
  cases stepped_of_step taken with
  | register | unregister | find | countIn | flushOnce | loadIn | unlock | resetTraffic | resetLock
  | resetEntries | resetStore => exact new
  | addBytes conn bytesIn bytesOut => rwa [Sys.addBytes_ledger]
  | countOut place owner bytesOut stood =>
    refine new_update new ?_
    rintro rfl
    exact new_append new (new_lots settled stood (by simp) bytesOut)
  | loadOut scan loaded totals held begun found =>
    simp only [Sys.loadOut]
    split
    · exact new_update new fun _ => new_nil
    · exact new
  | addTraffic place fails p rest left =>
    simp only [Sys.pass]
    split <;> exact new
  | clear place user stage held =>
    cases stage with
    | bytesIn => exact new
    | bytesOut => exact new_update new fun _ => new_nil
    | flushedBytes => exact new

theorem newScan_step (newIn : New old (s.ledger.unflushedIn username))
    (newOut : New old (s.ledger.unflushedOut username)) (new : NewScan old username s)
    (taken : step s event = some next) : NewScan old username next := by
  cases stepped_of_step taken with
  | register | unregister | find | countIn | countOut | resetTraffic | resetEntries | resetStore
  | addTraffic => exact new
  | addBytes conn bytesIn bytesOut => rwa [NewScan, Sys.addBytes_lock]
  | flushOnce free =>
    rintro scan ⟨⟩
    refine ⟨?_, ?_⟩
    · rintro _ ⟨⟩
    · rintro _ ⟨⟩
  | loadIn user scan totals held between ahead found =>
    rintro _ ⟨⟩
    refine ⟨?_, (new scan held).2⟩
    rintro l ⟨⟩ rfl
    exact newIn
  | loadOut scan loaded totals held begun found =>
    simp only [Sys.loadOut]
    split
    · rintro _ ⟨⟩
      refine ⟨?_, fun p member own => ?_⟩
      · rintro _ ⟨⟩
      · rcases List.mem_append.mp member with before | here
        · exact (new scan held).2 p before own
        · obtain rfl := List.mem_singleton.mp here
          cases own
          exact new_append ((new scan held).1 loaded begun rfl) newOut
    · rintro _ ⟨⟩
      refine ⟨?_, (new scan held).2⟩
      rintro _ ⟨⟩
  | unlock pendings held => rintro scan ⟨⟩
  | resetLock place user stood free => rintro scan ⟨⟩
  | clear place user stage held => cases stage <;> rintro scan ⟨⟩

/-! ### Until the column is cleared -/

/-- How many counters of the tracker a reset has cleared. -/
def Stage.number : Stage → Nat
  | .bytesIn => 0
  | .bytesOut => 1
  | .flushedBytes => 2

def ResetPhase.number : ResetPhase → Nat
  | .called | .clearing => 0
  | .entries | .store | .returned => 3

def phaseNumber (resets : List Reset) (index : Nat) : Nat :=
  ((resets[index]?).map fun r => r.phase.number).getD 0

/-- The progress of a reset: the counters that it has cleared, three when it has released the lock. -/
def Sys.progress (s : Sys) (index : Nat) : Nat :=
  match s.lock with
  | .reset holder _ stage => if holder = index then stage.number else phaseNumber s.resets index
  | _ => phaseNumber s.resets index

/-- **A reset of the user on its way**: what it has cleared holds no byte of an old call. -/
structure Clearing (old : Nat → Prop) (username : String) (index : Nat) (s : Sys) : Prop where
  settled : Settled old s
  owner : ∃ phase, s.resets[index]? = some ⟨username, phase⟩
  holder : ∀ name stage, s.lock = .reset index name stage →
    name = username ∧ s.resets[index]? = some ⟨username, .clearing⟩
  newIn : 1 ≤ s.progress index → New old (s.ledger.unflushedIn username)
  newOut : 2 ≤ s.progress index → New old (s.ledger.unflushedOut username)
  newScan : 3 ≤ s.progress index → NewScan old username s

theorem clearing_other (clearing : Clearing old username index s) (taken : step s event = some next)
    (owner : ∃ phase, next.resets[index]? = some ⟨username, phase⟩)
    (holder : ∀ name stage, next.lock = .reset index name stage →
      name = username ∧ next.resets[index]? = some ⟨username, .clearing⟩)
    (still : next.progress index ≤ s.progress index) : Clearing old username index next := by
  refine ⟨settled_step clearing.settled taken, owner, holder, fun far => ?_, fun far => ?_, fun far => ?_⟩
  · exact newIn_step clearing.settled (clearing.newIn (far.trans still)) taken
  · exact newOut_step clearing.settled (clearing.newOut (far.trans still)) taken
  · have far := far.trans still
    exact newScan_step (clearing.newIn (by omega)) (clearing.newOut (by omega)) (clearing.newScan far) taken

theorem clearing_lock (clearing : Clearing old username index s) (taken : step s event = some next)
    (resets : next.resets = s.resets) (before : ∀ holder name stage, s.lock ≠ .reset holder name stage)
    (after : ∀ holder name stage, next.lock ≠ .reset holder name stage) :
    Clearing old username index next := by
  have plain : ∀ {t : Sys}, (∀ holder name stage, t.lock ≠ .reset holder name stage) →
      t.progress index = phaseNumber t.resets index := by
    intro t unlocked
    unfold Sys.progress
    split
    · next holder name stage held => exact absurd held (unlocked holder name stage)
    · rfl
  refine clearing_other clearing taken ?_ (fun name stage held => absurd held (after index name stage)) ?_
  · rw [resets]
    exact clearing.owner
  · rw [plain before, plain after, resets]

theorem clearing_clear (clearing : Clearing old username index s) {name : String} {stage : Stage}
    (held : s.lock = .reset index name stage) (taken : step s .clear = some (s.clear index name stage)) :
    Clearing old username index (s.clear index name stage) := by
  obtain ⟨rfl, stands⟩ := clearing.holder name stage held
  have settled := settled_step clearing.settled taken
  have number : s.progress index = stage.number := by
    rw [Sys.progress, held]
    exact if_pos rfl
  cases stage with
  | bytesIn =>
    refine ⟨settled, clearing.owner, ?_, fun _ => ?_, fun far => ?_, fun far => ?_⟩
    · rintro _ _ ⟨⟩
      exact ⟨rfl, stands⟩
    · exact new_cleared
    · simp [Sys.progress, Sys.clear, Stage.number] at far
    · simp [Sys.progress, Sys.clear, Stage.number] at far
  | bytesOut =>
    refine ⟨settled, clearing.owner, ?_, fun _ => ?_, fun _ => ?_, fun far => ?_⟩
    · rintro _ _ ⟨⟩
      exact ⟨rfl, stands⟩
    · exact newIn_step clearing.settled (clearing.newIn (by rw [number]; rfl)) taken
    · exact new_cleared
    · simp [Sys.progress, Sys.clear, Stage.number] at far
  | flushedBytes =>
    obtain ⟨inside, -⟩ := List.getElem?_eq_some_iff.mp stands
    refine ⟨settled, ⟨.entries, List.getElem?_set_self inside⟩, ?_, fun _ => ?_, fun _ => ?_, fun _ => ?_⟩
    · rintro _ _ ⟨⟩
    · exact newIn_step clearing.settled (clearing.newIn (by rw [number]; decide)) taken
    · exact newOut_step clearing.settled (clearing.newOut (by rw [number]; decide)) taken
    · rintro _ ⟨⟩

theorem progress_same {index : Nat} (lock : next.lock = s.lock)
    (resets : next.resets[index]? = s.resets[index]?) : next.progress index = s.progress index := by
  unfold Sys.progress phaseNumber
  rw [lock, resets]

theorem clearing_same (clearing : Clearing old username index s) (taken : step s event = some next)
    (lock : next.lock = s.lock) (resets : next.resets[index]? = s.resets[index]?) :
    Clearing old username index next := by
  refine clearing_other clearing taken (resets ▸ clearing.owner) ?_ (progress_same lock resets).le
  rw [lock, resets]
  exact clearing.holder

theorem clearing_released (clearing : Clearing old username index s) (taken : step s event = some next)
    {place : Nat} {user : String} {phase phase' : ResetPhase}
    (stood : s.resets[place]? = some ⟨user, phase⟩) (released : phase ≠ .clearing)
    (lock : next.lock = s.lock) (resets : next.resets = s.resets.set place ⟨user, phase'⟩)
    (number : phase'.number = phase.number) : Clearing old username index next := by
  by_cases own : place = index
  · subst own
    obtain ⟨stands, owned⟩ := clearing.owner
    rw [stood] at owned
    cases owned
    have stays : next.resets[place]? = some ⟨username, phase'⟩ := by
      rw [resets]
      exact List.getElem?_set_self (List.getElem?_eq_some_iff.mp stood).1
    have unheld : ∀ name stage, s.lock ≠ .reset place name stage := by
      intro name stage held
      obtain ⟨-, busy⟩ := clearing.holder name stage held
      rw [stood] at busy
      cases busy
      exact released rfl
    refine clearing_other clearing taken ⟨phase', stays⟩ ?_ ?_
    · intro name stage held
      exact absurd (lock.symm.trans held) (unheld name stage)
    · unfold Sys.progress phaseNumber
      rw [lock, stays, stood]
      simp only [Option.map_some, number, le_refl]
  · refine clearing_same clearing taken lock ?_
    rw [resets, List.getElem?_set_ne own]

theorem clearing_foreign (clearing : Clearing old username index s) {place : Nat} {name : String}
    {stage : Stage} (held : s.lock = .reset place name stage) (foreign : place ≠ index)
    (taken : step s .clear = some (s.clear place name stage)) :
    Clearing old username index (s.clear place name stage) := by
  obtain ⟨phase, stands⟩ := clearing.owner
  have resets : (s.resets.set place ⟨name, .entries⟩)[index]? = s.resets[index]? :=
    List.getElem?_set_ne foreign
  have owner : ∃ phase, (s.clear place name stage).resets[index]? = some ⟨username, phase⟩ := by
    cases stage with
    | bytesIn | bytesOut => exact clearing.owner
    | flushedBytes => exact ⟨phase, resets.trans stands⟩
  refine clearing_other clearing taken owner ?_ ?_
  · cases stage with
    | bytesIn | bytesOut =>
      rintro _ _ ⟨⟩
      exact absurd rfl foreign
    | flushedBytes => rintro _ _ ⟨⟩
  · cases stage <;>
      simp only [Sys.progress, Sys.clear, held, if_neg foreign, phaseNumber, resets, le_refl]

theorem clearing_step (clearing : Clearing old username index s) (taken : step s event = some next) :
    Clearing old username index next := by
  have stepped := stepped_of_step taken
  cases stepped with
  | register | unregister | find | countIn | countOut | addTraffic =>
    exact clearing_same clearing taken rfl rfl
  | addBytes conn bytesIn bytesOut => exact clearing_same clearing taken (by simp) (by simp)
  | flushOnce free => exact clearing_lock clearing taken rfl (by simp [free]) (by simp)
  | loadIn user scan totals held between ahead found =>
    exact clearing_lock clearing taken rfl (by simp [held]) (by simp)
  | loadOut scan loaded totals held begun found =>
    exact clearing_lock clearing taken (by simp) (by simp [held]) (by simp)
  | unlock pendings held => exact clearing_lock clearing taken rfl (by simp [held]) (by simp)
  | resetTraffic user =>
    refine clearing_same clearing taken rfl ?_
    obtain ⟨phase, stands⟩ := clearing.owner
    rw [List.getElem?_append_left (List.getElem?_eq_some_iff.mp stands).1]
  | resetLock place user stood free =>
    obtain ⟨phase, stands⟩ := clearing.owner
    by_cases own : place = index
    · subst own
      rw [stood] at stands
      cases stands
      have stays := List.getElem?_set_self (a := (⟨username, .clearing⟩ : Reset))
        (List.getElem?_eq_some_iff.mp stood).1
      refine clearing_other clearing taken ⟨.clearing, stays⟩ ?_ ?_
      · rintro _ _ ⟨⟩
        exact ⟨rfl, stays⟩
      · simp [Sys.progress, Stage.number]
    · have resets : (s.resets.set place ⟨user, .clearing⟩)[index]? = s.resets[index]? :=
        List.getElem?_set_ne own
      refine clearing_other clearing taken ⟨phase, resets.trans stands⟩ ?_ ?_
      · rintro _ _ ⟨⟩
        exact absurd rfl own
      · simp only [Sys.progress, free, if_neg own, phaseNumber, resets, le_refl]
  | resetEntries place user stood =>
    exact clearing_released clearing taken stood (by simp) rfl rfl rfl
  | resetStore place user stood =>
    exact clearing_released clearing taken stood (by simp) rfl rfl rfl
  | clear place user stage held =>
    by_cases own : place = index
    · subst own
      exact clearing_clear clearing held taken
    · exact clearing_foreign clearing held own taken

/-! ### Afterwards -/

/-- **No byte of an old call is anywhere**: not in the counters, not in a delta and not in the column. -/
structure Rid (old : Nat → Prop) (username : String) (s : Sys) : Prop where
  settled : Settled old s
  newIn : New old (s.ledger.unflushedIn username)
  newOut : New old (s.ledger.unflushedOut username)
  newScan : NewScan old username s
  newDeliveries : NewDeliveries old username s
  newStored : New old (s.ledger.stored username)

theorem newDeliveries_step (newScan : NewScan old username s) (new : NewDeliveries old username s)
    (taken : step s event = some next) : NewDeliveries old username next := by
  cases stepped_of_step taken with
  | register | unregister | find | countIn | countOut | flushOnce | loadIn | resetTraffic | resetLock
  | resetEntries | resetStore => exact new
  | addBytes conn bytesIn bytesOut => rwa [NewDeliveries, Sys.addBytes_deliveries]
  | loadOut scan loaded totals held begun found => rwa [NewDeliveries, Sys.loadOut_deliveries]
  | unlock pendings held =>
    intro delivery member
    rcases List.mem_append.mp member with before | here
    · exact new delivery before
    · obtain rfl := List.mem_singleton.mp here
      exact (newScan _ held).2
  | addTraffic place fails p rest left =>
    intro delivery member
    rcases List.mem_or_eq_of_mem_set member with before | rfl
    · exact new delivery before
    · exact fun q inside => new _ (List.mem_of_getElem? left) q (List.mem_cons_of_mem p inside)
  | clear place user stage held => cases stage <;> exact new

theorem newStored_step (newDeliveries : NewDeliveries old username s)
    (new : New old (s.ledger.stored username)) (taken : step s event = some next) :
    New old (next.ledger.stored username) := by
  cases stepped_of_step taken with
  | register | unregister | find | countIn | countOut | flushOnce | loadIn | unlock | resetTraffic
  | resetLock | resetEntries => exact new
  | addBytes conn bytesIn bytesOut => rwa [Sys.addBytes_ledger]
  | loadOut scan loaded totals held begun found => rwa [Sys.loadOut_stored]
  | addTraffic place fails p rest left =>
    simp only [Sys.pass]
    split
    · refine new_update new ?_
      rintro rfl
      exact new_append new (newDeliveries _ (List.mem_of_getElem? left) p List.mem_cons_self rfl)
    · exact new
  | resetStore place user stood => exact new_update new fun _ => new_nil
  | clear place user stage held => cases stage <;> exact new

theorem rid_step (rid : Rid old username s) (taken : step s event = some next) : Rid old username next :=
  { settled := settled_step rid.settled taken
    newIn := newIn_step rid.settled rid.newIn taken
    newOut := newOut_step rid.settled rid.newOut taken
    newScan := newScan_step rid.newIn rid.newOut rid.newScan taken
    newDeliveries := newDeliveries_step rid.newScan rid.newDeliveries taken
    newStored := newStored_step rid.newDeliveries rid.newStored taken }

theorem rid_run {final : Sys} {events : List Event} (rid : Rid old username s)
    (ran : run step s events = some final) : Rid old username final :=
  run_invariant' (fun _ _ _ rid taken => rid_step rid taken) rid ran

/-! ### A reset, from its call to its return -/

/-- The lock is held by a reset that was called. -/
def HolderCalled (s : Sys) : Prop :=
  ∀ holder name stage, s.lock = .reset holder name stage → holder < s.resets.length

theorem holderCalled_step (called : HolderCalled s) (taken : step s event = some next) :
    HolderCalled next := by
  cases stepped_of_step taken with
  | register | unregister | find | countIn | countOut | addTraffic => exact called
  | addBytes conn bytesIn bytesOut => rwa [HolderCalled, Sys.addBytes_lock, Sys.addBytes_resets]
  | flushOnce | loadIn | unlock => rintro _ _ _ ⟨⟩
  | loadOut scan loaded totals held begun found =>
    exact fun holder name stage held => absurd held (s.loadOut_lock_ne scan loaded totals holder name stage)
  | resetTraffic user =>
    intro holder name stage held
    rw [List.length_append]
    exact Nat.lt_add_right _ (called holder name stage held)
  | resetLock place user stood free =>
    rintro _ _ _ ⟨⟩
    rw [List.length_set]
    exact (List.getElem?_eq_some_iff.mp stood).1
  | resetEntries place user stood | resetStore place user stood =>
    intro holder name stage held
    rw [List.length_set]
    exact called holder name stage held
  | clear place user stage held =>
    cases stage with
    | bytesIn =>
      rintro _ _ _ ⟨⟩
      exact called _ _ _ held
    | bytesOut =>
      rintro _ _ _ ⟨⟩
      exact called _ _ _ held
    | flushedBytes => rintro _ _ _ ⟨⟩

theorem clearing_called (called : HolderCalled s) (taken : step s (.resetTraffic username) = some next) :
    Clearing (Completed s) username s.resets.length next := by
  cases taken
  have stands : (s.resets ++ [⟨username, .called⟩])[s.resets.length]? =
      some (⟨username, .called⟩ : Reset) := List.getElem?_concat_length
  have none : ∀ name stage, s.lock ≠ .reset s.resets.length name stage := fun name stage held =>
    absurd (called _ name stage held) (Nat.lt_irrefl _)
  have start : Sys.progress { s with resets := s.resets ++ [⟨username, .called⟩] } s.resets.length = 0 := by
    simp only [Sys.progress, phaseNumber, stands]
    split
    · next holder name stage held =>
      rw [if_neg]
      · rfl
      · rintro rfl
        exact none name stage held
    · rfl
  refine ⟨fun _ done => done, ⟨.called, stands⟩, fun name stage held => absurd held (none name stage), ?_, ?_, ?_⟩
  all_goals
    intro far
    rw [start] at far
    cases far

/-- **The column is cleared**, and no delta of an old call is on its way. -/
theorem rid_of_clearing (clearing : Clearing old username index s)
    (stands : s.resets[index]? = some ⟨username, .store⟩) (newDeliveries : NewDeliveries old username s)
    (taken : step s (.reset index) = some next) : Rid old username next := by
  have released : s.progress index = 3 := by
    unfold Sys.progress phaseNumber
    split
    · next holder name stage held =>
      rw [if_neg, stands]
      · rfl
      · rintro rfl
        obtain ⟨-, busy⟩ := clearing.holder name stage held
        rw [stands] at busy
        cases busy
    · rw [stands]
      rfl
  have newIn := clearing.newIn (by omega)
  have newOut := clearing.newOut (by omega)
  have newScan := clearing.newScan released.ge
  refine ⟨settled_step clearing.settled taken, newIn_step clearing.settled newIn taken,
    newOut_step clearing.settled newOut taken, newScan_step newIn newOut newScan taken,
    newDeliveries_step newScan newDeliveries taken, ?_⟩
  simp only [step, Sys.reset, stands] at taken
  cases taken
  exact new_cleared

theorem lookup_updateTraffic_isSome (store : Store) (name user : String) (update : UInt64 → UInt64) :
    ((updateTraffic store name update).lookup user).isSome = (store.lookup user).isSome := by
  unfold updateTraffic
  split
  · rfl
  · next row found =>
    rw [GoMap.lookup_insert_ite]
    split
    · next same => rw [same, found, Option.isSome_some, Option.isSome_some]
    · rfl

theorem exists_run_stored {p : Pending} {rest : List Pending} :
    ∀ (first : List Pending) {s : Sys}, s.deliveries[index]? = some (first ++ p :: rest) →
      (s.store.lookup p.name).isSome → ∃ events final, run step s events = some final ∧
        ∀ lot ∈ p.lots, lot ∈ final.ledger.stored p.name
  | [], s, left, row => by
    refine ⟨[.addTraffic index false], s.pass index p rest false, ?_, fun lot member => ?_⟩
    · rw [run_cons_eq_some]
      exact ⟨_, by simp only [step, left, List.nil_append], rfl⟩
    · simp only [Sys.pass, row, Bool.not_false, Bool.and_self, if_true, Ledger.credit, Function.update_self]
      exact List.mem_append_right _ member
  | q :: first, s, left, row => by
    have still : ((s.pass index q (first ++ p :: rest) false).store.lookup p.name).isSome :=
      (lookup_updateTraffic_isSome s.store q.name p.name (· + q.delta)).trans row
    obtain ⟨events, final, ran, reaches⟩ :=
      exists_run_stored first (List.getElem?_set_self (List.getElem?_eq_some_iff.mp left).1) still
    refine ⟨.addTraffic index false :: events, final, ?_, reaches⟩
    rw [run_cons_eq_some]
    exact ⟨_, by simp only [step, left, List.cons_append], ran⟩

/-- **A traffic reset is clean exactly if no old delta is on its way.** Whatever else runs during the reset and
after it: the column of the user never includes a byte of an `AddBytes` call that had returned before the reset was
called, if and only if no delta with such a byte waits for its `AddTraffic` when the column is cleared. -/
theorem resetTraffic_clean_iff {store : Store} {before during : List Event} {start called cleared returned : Sys}
    (reached : run step (.initial store) before = some start)
    (calls : step start (.resetTraffic username) = some called)
    (ran : run step called during = some cleared)
    (stands : cleared.resets[start.resets.length]? = some ⟨username, .store⟩)
    (row : (cleared.store.lookup username).isSome)
    (returns : step cleared (.reset start.resets.length) = some returned) :
    (∀ after final, run step returned after = some final →
      ∀ lot ∈ final.ledger.stored username, ¬ Completed start lot.call) ↔
    ∀ pendings ∈ cleared.deliveries, ∀ p ∈ pendings, p.name = username →
      ∀ lot ∈ p.lots, ¬ Completed start lot.call := by
  have holder : HolderCalled start :=
    run_invariant' (fun _ _ _ called taken => holderCalled_step called taken)
      (fun _ _ _ held => by cases held) reached
  have clearing : Clearing (Completed start) username start.resets.length cleared :=
    run_invariant' (fun _ _ _ clearing taken => clearing_step clearing taken)
      (clearing_called holder calls) ran
  constructor
  · intro clean pendings member p inside own lot old
    -- the rest of that flush is passed before anything else happens
    obtain ⟨first, rest, rfl⟩ := List.append_of_mem inside
    obtain ⟨index, left⟩ := List.getElem?_of_mem member
    simp only [step, Sys.reset, stands] at returns
    cases returns
    have still := (lookup_updateTraffic_isSome cleared.store username p.name fun _ => 0).trans (own ▸ row)
    obtain ⟨after, final, delivers, reaches⟩ := exists_run_stored first (s := { cleared with
      store := resetTraffic cleared.store username
      resets := cleared.resets.set start.resets.length ⟨username, .returned⟩
      ledger := cleared.ledger.clearStored username }) left still
    exact clean after final delivers lot (own ▸ reaches lot old)
  · intro none after final delivers
    have rid := rid_of_clearing clearing stands none returns
    exact (rid_run rid delivers).newStored

def oneUser : Store :=
  (∅ : Store).insert "alice" ⟨"secret", 0, ⟨true, 0, 0, 0⟩⟩

/-- Five bytes are counted and flushed; the delta is on its way. -/
def flushedFive : List Event :=
  [.register "alice" laptop, .addBytes laptop 5 0, .add 0, .add 0, .add 0, .flushOnce, .loadIn "alice",
    .loadOut, .unlock]

/-- The reset, up to the store. -/
def resetTracker : List Event := [.reset 0, .clear, .clear, .clear, .reset 0]

theorem resetTraffic_clean_delivered :
    ∃ start called cleared returned,
      run step (.initial oneUser) (flushedFive ++ [.addTraffic 0 false]) = some start ∧
      Completed start 0 ∧ (start.store.getLifecycle "alice").trafficUsed = 5 ∧
      step start (.resetTraffic "alice") = some called ∧ run step called resetTracker = some cleared ∧
      step cleared (.reset 0) = some returned ∧
      ∀ after final, run step returned after = some final →
        ∀ lot ∈ final.ledger.stored "alice", ¬ Completed start lot.call := by
  refine ⟨_, _, _, _, rfl, by decide, by decide, rfl, rfl, rfl, ?_⟩
  refine (resetTraffic_clean_iff
    (show run step (.initial oneUser) (flushedFive ++ [.addTraffic 0 false]) = some _ from rfl)
    rfl (show run step _ resetTracker = some _ from rfl) rfl rfl rfl).mpr ?_
  decide

/-- A flush that has computed its delta passes it after the reset has returned. -/
theorem stale_delta :
    ∃ start called returned final,
      run step (.initial oneUser) flushedFive = some start ∧ Completed start 0 ∧
      step start (.resetTraffic "alice") = some called ∧
      run step called (resetTracker ++ [.reset 0]) = some returned ∧
      (returned.store.getLifecycle "alice").trafficUsed = 0 ∧
      run step returned [.addTraffic 0 false] = some final ∧
      (final.store.getLifecycle "alice").trafficUsed = 5 ∧ final.ledger.stored "alice" = [⟨0, 5⟩] :=
  ⟨_, _, _, _, rfl, by decide, rfl, rfl, by decide, rfl, by decide, by decide⟩

end Ttgo.Endpoint.Flush

/-
**The sockets of a UDP session.**

A socket is opened by `getOrDial` and closed by whoever takes it out of the table: `remove` after a failed write, the
reaper, or `Close`, each under the session's lock. After `Close` the table is gone, and the reaper and the reader of
the stream may still come to the lock.

* `Op` — an operation under the lock; `Dials` — the session, and the flow that each socket was dialed for.
* `Dials.Kept` — the sockets in the table are exactly the open ones, each under its own flow.
* `sockets_kept` — this holds after every sequence of operations, and after `Close` nothing is open any more.
-/

import Ttgo.Udp.Mux
import Ttgo.Lib.Pool

namespace Ttgo.Udp

open Ttgo.Lib

/-! ### The operations -/

inductive Op
  | getOrDial (key : ConnKey) (now : Nat) (dials : Bool)
  | touch (id now : Nat)
  | remove (key : ConnKey)
  | reap (now : Nat)
  | close
deriving DecidableEq, Repr

/-- The session, and the flow that each of its sockets was dialed for. -/
structure Dials where
  session : Session
  flows : List ConnKey

def Dials.new : Dials := ⟨.new, []⟩

/-- One operation; a socket more is one for the flow that was asked for. -/
def Dials.step (idleTimeout : Nat) (d : Dials) : Op → Dials
  | .getOrDial key now dials =>
    let later := (d.session.getOrDial key now dials).2
    ⟨later, if d.session.sockets.length < later.sockets.length then d.flows ++ [key] else d.flows⟩
  | .touch id now => { d with session := d.session.touch id now }
  | .remove key => { d with session := d.session.remove key }
  | .reap now => { d with session := d.session.reap idleTimeout now }
  | .close => { d with session := d.session.close }

def Dials.run (idleTimeout : Nat) (ops : List Op) (d : Dials) : Dials := ops.foldl (Dials.step idleTimeout) d

/-! ### One operation -/

namespace Session

def Open (s : Session) (id : Nat) : Prop := ∃ uc, s.sockets[id]? = some uc ∧ uc.shut = none

theorem any_entries_iff (s : Session) (id : Nat) :
    (s.conns.entries.any fun entry => entry.2 = id) = true ↔ ∃ key, s.conns.lookup key = some id := by
  simp only [List.any_eq_true, decide_eq_true_eq, Sigma.exists]
  refine exists_congr fun key => ⟨?_, fun found => ?_⟩
  · rintro ⟨value, member, rfl⟩
    exact AList.mem_lookup_iff.mpr member
  · exact ⟨id, AList.mem_lookup_iff.mp found, rfl⟩

theorem open_shutWhere {s later : Session} {which : Nat → Bool} {cause : Shut}
    (sockets : later.sockets = shutWhere which cause s.sockets) (id : Nat) :
    later.Open id ↔ s.Open id ∧ which id = false := by
  unfold Open
  rw [sockets, getElem?_shutWhere]
  cases s.sockets[id]? with
  | none => exact ⟨fun ⟨_, found, _⟩ => absurd found.symm (Option.some_ne_none _),
      fun ⟨⟨_, found, _⟩, _⟩ => absurd found.symm (Option.some_ne_none _)⟩
  | some uc => cases chosen : which id <;> cases shut : uc.shut <;> simp [shut]

theorem open_touch (s : Session) (id now other : Nat) : (s.touch id now).Open other ↔ s.Open other := by
  unfold Open touch
  rw [List.getElem?_modify]
  cases s.sockets[other]? with
  | none => rfl
  | some uc =>
    simp only [Option.map_eq_map, Option.map_some, Option.some.injEq, exists_eq_left']
    split
    · rfl
    · rfl

end Session

namespace Dials

/-- **The sockets in the table are the open ones**, each under the flow that it was dialed for. -/
structure Kept (d : Dials) : Prop where
  length : d.flows.length = d.session.sockets.length
  stored : ∀ key id, d.session.conns.lookup key = some id ↔ d.flows[id]? = some key ∧ d.session.Open id
  closed : d.session.closed = true → d.session.conns = ∅

variable {d : Dials} {idleTimeout : Nat}

theorem kept_new : Dials.new.Kept := by
  refine ⟨rfl, fun key id => ⟨fun found => ?_, fun found => ?_⟩, fun closed => ?_⟩
  · cases found
  · cases found.1
  · cases closed

theorem Kept.flow_unique (kept : d.Kept) {key other : ConnKey} {id : Nat}
    (one : d.session.conns.lookup key = some id) (two : d.session.conns.lookup other = some id) : key = other :=
  Option.some.inj (((kept.stored key id).mp one).1.symm.trans ((kept.stored other id).mp two).1)

theorem Kept.shut (kept : d.Kept) {later : Session} {which : Nat → Bool} {cause : Shut}
    (sockets : later.sockets = Session.shutWhere which cause d.session.sockets)
    (left : ∀ key id, later.conns.lookup key = some id ↔ d.session.conns.lookup key = some id ∧ which id = false)
    (closed : later.closed = true → later.conns = ∅) : Kept { d with session := later } := by
  refine ⟨?_, fun key id => ?_, closed⟩
  · rw [sockets, Session.shutWhere, List.length_mapIdx]
    exact kept.length
  · rw [left, Session.open_shutWhere sockets, kept.stored, and_assoc]

theorem Kept.remove (kept : d.Kept) (key : ConnKey) : Kept { d with session := d.session.remove key } := by
  unfold Session.remove
  split
  · exact kept
  · next gone found =>
    refine kept.shut rfl (fun other id => ?_) fun closed => ?_
    · rw [GoMap.lookup_erase_ite, decide_eq_false_iff_not]
      split
      · next same =>
        refine ⟨fun none => (by cases none), fun both => absurd ?_ both.2⟩
        exact Option.some.inj (both.1.symm.trans (same ▸ found))
      · next differs =>
        refine (and_iff_left_of_imp fun stored same => ?_).symm
        exact differs (kept.flow_unique (same ▸ stored) found)
    · rw [kept.closed closed] at found
      cases found

theorem Kept.reap (kept : d.Kept) (idleTimeout now : Nat) :
    Kept { d with session := d.session.reap idleTimeout now } := by
  unfold Session.reap
  split
  · exact kept
  · next isOpen =>
    refine kept.shut rfl (fun key id => ?_) fun closed => absurd closed isOpen
    rw [GoMap.lookup_filterValues, Option.filter_eq_some_iff]
    refine and_congr_right fun stored => ?_
    have listed := (d.session.any_entries_iff id).mpr ⟨key, stored⟩
    rw [listed, Bool.and_true, Bool.not_eq_true']

theorem Kept.close (kept : d.Kept) : Kept { d with session := d.session.close } := by
  refine kept.shut rfl (fun key id => ⟨fun found => (by cases found), fun both => ?_⟩) fun _ => rfl
  have listed := (d.session.any_entries_iff id).mpr ⟨key, both.1⟩
  rw [listed] at both
  cases both.2

theorem Kept.dial (kept : d.Kept) {key : ConnKey} (isOpen : d.session.closed = false)
    (free : d.session.conns.lookup key = none) (now : Nat) :
    Kept ⟨{ d.session with
      conns := d.session.conns.insert key d.session.sockets.length
      sockets := d.session.sockets ++ [⟨key.dst, now, none⟩] }, d.flows ++ [key]⟩ := by
  refine ⟨?_, fun other id => ?_, fun closed => ?_⟩
  · rw [List.length_append, List.length_append, kept.length]
    rfl
  · dsimp only [Session.Open]
    rw [GoMap.lookup_insert_ite]
    by_cases last : id = d.session.sockets.length
    · -- the new place is in no table yet
      subst last
      have unused : d.session.conns.lookup other ≠ some d.session.sockets.length := by
        intro stored
        obtain ⟨uc, found, -⟩ := ((kept.stored _ _).mp stored).2
        rw [List.getElem?_eq_none le_rfl] at found
        cases found
      rw [List.getElem?_concat_length, ← kept.length, List.getElem?_concat_length]
      simp only [Option.some.injEq, exists_eq_left', and_true]
      split
      · next same => exact iff_of_true rfl same.symm
      · next differs => exact iff_of_false (kept.length ▸ unused) (Ne.symm differs)
    · rw [getElem?_concat_of_ne last, getElem?_concat_of_ne (kept.length ▸ last)]
      split
      · next same =>
        refine iff_of_false (fun here => last (Option.some.inj here).symm) fun held => ?_
        have stored := (kept.stored other id).mpr held
        rw [same, free] at stored
        cases stored
      · exact kept.stored other id
  · rw [isOpen] at closed
    cases closed

theorem Kept.step (kept : d.Kept) (op : Op) : (d.step idleTimeout op).Kept := by
  cases op with
  | getOrDial key now dials =>
    unfold Dials.step Session.getOrDial
    dsimp only
    split
    · rw [if_neg (Nat.lt_irrefl _)]
      exact kept
    · next isOpen =>
      split
      · rw [if_neg (Nat.lt_irrefl _)]
        exact kept
      · next free =>
        split
        · rw [if_pos (by rw [List.length_append]; exact Nat.lt_succ_self _)]
          exact kept.dial (Bool.not_eq_true _ ▸ isOpen) free now
        · rw [if_neg (Nat.lt_irrefl _)]
          exact kept
  | touch id now =>
    refine ⟨kept.length.trans (List.length_modify _ _ _).symm, fun key other => ?_, kept.closed⟩
    exact (kept.stored key other).trans (and_congr_right' (d.session.open_touch id now other).symm)
  | remove key => exact kept.remove key
  | reap now => exact kept.reap idleTimeout now
  | close => exact kept.close

theorem Kept.run (kept : d.Kept) (ops : List Op) : (Dials.run idleTimeout ops d).Kept := by
  induction ops generalizing d with
  | nil => exact kept
  | cons op ops ih => exact ih (kept.step op)

/-! ### After `Close` -/

theorem step_closed (closed : d.session.closed = true) (op : Op) :
    (d.step idleTimeout op).session.closed = true ∧
      (d.step idleTimeout op).session.sockets.length = d.session.sockets.length := by
  cases op with
  | getOrDial key now dials =>
    have same : (d.step idleTimeout (.getOrDial key now dials)).session = d.session :=
      congrArg Prod.snd (if_pos closed)
    rw [same]
    exact ⟨closed, rfl⟩
  | touch id now => exact ⟨closed, List.length_modify _ _ _⟩
  | remove key =>
    unfold Dials.step Session.remove
    dsimp only
    split
    · exact ⟨closed, rfl⟩
    · exact ⟨closed, List.length_mapIdx⟩
  | reap now =>
    have same : (d.step idleTimeout (.reap now)).session = d.session := if_pos closed
    rw [same]
    exact ⟨closed, rfl⟩
  | close => exact ⟨rfl, List.length_mapIdx⟩

theorem run_closed (closed : d.session.closed = true) (ops : List Op) :
    (Dials.run idleTimeout ops d).session.closed = true ∧
      (Dials.run idleTimeout ops d).session.sockets.length = d.session.sockets.length := by
  induction ops generalizing d with
  | nil => exact ⟨closed, rfl⟩
  | cons op ops ih =>
    obtain ⟨still, same⟩ := @step_closed d idleTimeout closed op
    obtain ⟨ends, rest⟩ := ih still
    exact ⟨ends, rest.trans same⟩

theorem Kept.not_open (kept : d.Kept) (closed : d.session.closed = true) (id : Nat) : ¬ d.session.Open id := by
  intro isOpen
  obtain ⟨uc, found, shut⟩ := isOpen
  obtain ⟨inside, -⟩ := List.getElem?_eq_some_iff.mp found
  have flow := List.getElem?_eq_getElem (kept.length ▸ inside : id < d.flows.length)
  have stored := (kept.stored _ id).mpr ⟨flow, uc, found, shut⟩
  rw [kept.closed closed] at stored
  cases stored

theorem Kept.open_or_shut (kept : d.Kept) {id : Nat} {uc : UdpConn} (found : d.session.sockets[id]? = some uc) :
    ∃ key, d.flows[id]? = some key ∧
      (uc.shut = none ∧ (∀ other, d.session.conns.lookup other = some id ↔ other = key) ∨
        uc.shut ≠ none ∧ ∀ other, d.session.conns.lookup other ≠ some id) := by
  obtain ⟨inside, -⟩ := List.getElem?_eq_some_iff.mp found
  have flow := List.getElem?_eq_getElem (kept.length ▸ inside : id < d.flows.length)
  have isOpen : d.session.Open id ↔ uc.shut = none := by
    unfold Session.Open
    rw [found]
    simp only [Option.some.injEq, exists_eq_left']
  refine ⟨_, flow, ?_⟩
  have stored (other : ConnKey) := kept.stored other id
  rw [flow, isOpen] at stored
  cases shut : uc.shut with
  | none =>
    refine .inl ⟨rfl, fun other => (stored other).trans ?_⟩
    rw [and_iff_left shut, Option.some.injEq, eq_comm]
  | some cause =>
    refine .inr ⟨Option.some_ne_none cause, fun other listed => ?_⟩
    rw [((stored other).mp listed).2] at shut
    cases shut

theorem run_after_close (idleTimeout : Nat) (before after : List Op) (d : Dials) :
    (Dials.run idleTimeout (before ++ .close :: after) d).session.closed = true ∧
      (Dials.run idleTimeout (before ++ .close :: after) d).session.sockets.length =
        (Dials.run idleTimeout before d).session.sockets.length := by
  have parts : Dials.run idleTimeout (before ++ .close :: after) d =
      Dials.run idleTimeout after ((Dials.run idleTimeout before d).step idleTimeout .close) := by
    rw [Dials.run, List.foldl_append, List.foldl_cons]
    rfl
  rw [parts]
  obtain ⟨closed, same⟩ :=
    @run_closed ((Dials.run idleTimeout before d).step idleTimeout .close) idleTimeout rfl after
  exact ⟨closed, same.trans List.length_mapIdx⟩

end Dials

/-- **No socket is lost or given to two flows.** Each is open and in the table under the flow that it was dialed for,
or closed and not in the table; and once the session is closed all are, and no operation opens another. -/
theorem sockets_kept (idleTimeout : Nat) (ops : List Op) :
    let d := Dials.run idleTimeout ops .new
    (∀ id uc, d.session.sockets[id]? = some uc → ∃ key, d.flows[id]? = some key ∧
      (uc.shut = none ∧ (∀ other, d.session.conns.lookup other = some id ↔ other = key) ∨
        uc.shut ≠ none ∧ ∀ other, d.session.conns.lookup other ≠ some id)) ∧
    (∀ key other id, d.session.conns.lookup key = some id → d.session.conns.lookup other = some id → key = other) ∧
    ∀ before after, ops = before ++ .close :: after →
      (∀ uc ∈ d.session.sockets, uc.shut ≠ none) ∧
        d.session.sockets.length = (Dials.run idleTimeout before .new).session.sockets.length := by
  intro d
  have kept : d.Kept := Dials.kept_new.run ops
  refine ⟨fun id uc found => kept.open_or_shut found, fun key other id one two => kept.flow_unique one two,
    fun before after split => ?_⟩
  obtain ⟨closed, same⟩ := Dials.run_after_close idleTimeout before after .new
  rw [← split] at closed same
  refine ⟨fun uc member shut => ?_, same⟩
  obtain ⟨id, found⟩ := List.mem_iff_getElem?.mp member
  exact kept.not_open closed id ⟨uc, found, shut⟩

end Ttgo.Udp

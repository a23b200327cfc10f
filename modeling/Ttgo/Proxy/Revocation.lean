/-
**Revocation marks.**

A kick marks the connections of a user and closes them two seconds later; until then `ServeHTTP`
answers every new request on them with the reason. `Unregister` clears the mark with the connection's
other state, and it runs at the end of every stream, not only of the last.

* `Sticky` — the mark stays until the connection is closed.
* `ShutOut` — no request that asks `IsRevoked` after the kick gets past it.
* `sticky_iff` — both hold of a run if and only if no stream of the connection is unregistered in it
  before the close.
-/

import Ttgo.Proxy.Handler

namespace Ttgo.Proxy

open Ttgo.Auth Ttgo.Lib Ttgo.Server

/-- `IsRevoked` of a connection that is still open. -/
def Marked (conn : NetConn) (s : Sys) : Prop :=
  conn ∉ s.closed → (s.tracker.isRevoked conn).isSome

def Sticky (conn : NetConn) (s : Sys) (events : List Event) : Prop :=
  Throughout step (Marked conn) s events

/-- While the connection is open, its streams that had not asked `IsRevoked` at `s₀` have not asked
it yet, or are refused. -/
def Barred (conn : NetConn) (s₀ s : Sys) : Prop :=
  conn ∉ s.closed → ∀ (index : Nat) (x : Stream), s.streams[index]? = some x →
    x.conn = some conn →
    (∀ old : Stream, s₀.streams[index]? = some old → old.phase = .arrived) →
    x.phase = .arrived ∨ ∃ reason, x.phase = .refused (.revoked reason)

/-- **No further request is admitted.** -/
def ShutOut (conn : NetConn) (s : Sys) (events : List Event) : Prop :=
  Throughout step (Barred conn s) s events

/-- The stream that a step unregisters. -/
def Sys.unregistering (s : Sys) : Event → Option Stream
  | .act index .unregister => s.streams[index]?
  | _ => none

/-- No stream of the connection is unregistered before the connection is closed. -/
def KeepsMark (conn : NetConn) (s : Sys) (event : Event) : Prop :=
  conn ∉ s.closed → ∀ x ∈ s.unregistering event, x.conn ≠ some conn

instance (conn : NetConn) (s : Sys) (event : Event) : Decidable (KeepsMark conn s event) :=
  inferInstanceAs (Decidable (_ → ∀ x ∈ s.unregistering event, _))

variable {s₀ s next : Sys} {conn : NetConn} {event : Event}

theorem closed_step (taken : step s event = some next) (isClosed : conn ∈ s.closed) :
    conn ∈ next.closed := by
  rcases step_cases taken with ⟨index, action, x, t', x', rfl, found, acted, rfl⟩ | ⟨outer, -⟩
  · exact isClosed
  · exact outer.closed conn isClosed

theorem marked_step (keeps : KeepsMark conn s event) (marked : Marked conn s)
    (taken : step s event = some next) : Marked conn next := by
  intro opened
  have opened : conn ∉ s.closed := mt (closed_step taken) opened
  have marked : (s.tracker.revoked.lookup conn).isSome := marked opened
  show (next.tracker.revoked.lookup conn).isSome
  rcases step_cases taken with ⟨index, action, x, t', x', rfl, found, acted, rfl⟩ | ⟨outer, -⟩
  · refine revoked_act acted ?_ marked
    rintro rfl
    exact keeps opened x found
  · exact outer.revoked conn marked

/-- A stream that has not asked `IsRevoked`, or was refused by it, does not get past it while the
connection is marked. -/
theorem barred_act {t t' : ConnTracker} {x x' : Stream} {action : Action}
    (raw : x.conn = some conn) (marked : (t.isRevoked conn).isSome)
    (barred : x.phase = .arrived ∨ ∃ reason, x.phase = .refused (.revoked reason))
    (acted : x.act t action = some (t', x')) :
    x'.phase = .arrived ∨ ∃ reason, x'.phase = .refused (.revoked reason) := by
  cases acted_of_act acted with
  | isRevoked stood =>
    obtain ⟨reason, found⟩ := Option.isSome_iff_exists.mp marked
    exact .inr ⟨reason, by simp only [raw, found, Stream.afterRevoked]⟩
  | copied dir bytes before stood => simpa using barred
  | copyEnds dir bytes stood => simpa using barred
  | credit dir owner bytes stood => simpa using barred
  | checkExt res stood => simp [stood] at barred
  | isKnown stood => simp [stood] at barred
  | countUser stood => simp [stood] at barred
  | register active stood => simp [stood] at barred
  | tunnelOpened stood => simp [stood] at barred
  | tunnelClosed stood => simp [stood] at barred
  | unregister stood => rcases stood with stood | stood <;> simp [stood] at barred

theorem barred_step (marked : Marked conn s) (barred : Barred conn s₀ s)
    (taken : step s event = some next) : Barred conn s₀ next := by
  intro opened other y reads raw fresh
  have opened : conn ∉ s.closed := mt (closed_step taken) opened
  rcases step_cases taken with ⟨index, action, x, t', x', rfl, found, acted, rfl⟩ | ⟨outer, -⟩
  · rcases pool_get_set found reads with ⟨rfl, rfl⟩ | ⟨-, old⟩
    · have raw : x.conn = some conn := (conn_act acted).symm.trans raw
      exact barred_act raw (marked opened) (barred opened other x found raw fresh) acted
    · exact barred opened other y old raw fresh
  · rcases outer.streams with same | ⟨new, http1, arrived⟩
    · exact barred opened other y (same ▸ reads) raw fresh
    · rw [arrived] at reads
      rcases pool_get_append reads with old | ⟨-, rfl⟩
      · exact barred opened other y old raw fresh
      · exact .inl rfl

theorem not_marked_unregister {index : Nat} {x : Stream} (opened : conn ∉ s.closed)
    (found : s.streams[index]? = some x) (raw : x.conn = some conn)
    (taken : step s (.act index .unregister) = some next) : ¬ Marked conn next := by
  obtain ⟨x', t', new, found', acted, rfl⟩ := step_act taken
  obtain rfl : x = x' := Option.some.inj (found.symm.trans found')
  intro marked
  have held : (t'.revoked.lookup conn).isSome := marked opened
  cases acted_of_act acted with
  | unregister stood =>
    rw [raw, ConnTracker.revoked_unregister, if_pos rfl] at held
    cases held

/-- **Revocation is sticky**, and bars the connection, if and only if none of its streams is
unregistered before it is closed. -/
theorem sticky_iff {events : List Event} {final : Sys} (kicked : (s.tracker.isRevoked conn).isSome)
    (reached : run step s events = some final) :
    (Sticky conn s events ∧ ShutOut conn s events) ↔ Along step (KeepsMark conn) s events := by
  constructor
  · rintro ⟨sticky, -⟩
    refine along_of_forall fun before event after middle split halfway opened x ends raw => ?_
    obtain ⟨next, taken, marked⟩ := sticky.after_step reached split halfway
    obtain ⟨index, rfl, found⟩ : ∃ index, event = .act index .unregister ∧
        middle.streams[index]? = some x := by
      unfold Sys.unregistering at ends
      split at ends
      · exact ⟨_, rfl, ends⟩
      · cases ends
    exact not_marked_unregister opened found raw taken marked
  · intro keeps
    have both : Throughout step (fun m => Marked conn m ∧ Barred conn s m) s events :=
      throughout_invariant (fun _ _ _ keeps inv taken =>
        ⟨marked_step keeps inv.1 taken, barred_step inv.1 inv.2 taken⟩) keeps
        ⟨fun _ => kicked, fun _ index x found _ fresh => .inl (fresh x found)⟩
    exact ⟨fun before after m split halfway => (both before after m split halfway).1,
      fun before after m split halfway => (both before after m split halfway).2⟩

/-- Two streams of one connection are open when their user is kicked. -/
def kicked : List Event :=
  entering 0 laptop "alice" 0 ++ [.act 0 .isKnown, .act 0 .register] ++
    entering 1 laptop "alice" 0 ++ [.act 1 .isKnown, .act 1 .register, .kickUser "alice" "Kicked"]

/-- One of them ends, and a third request comes. -/
def comesBack : List Event :=
  .act 0 .unregister :: entering 2 laptop "alice" 0 ++ [.act 2 .isKnown, .act 2 .register]

/-- **A mark that does not stick**: the connection is open, not revoked any more, and has a new
stream. -/
theorem mark_cleared :
    ∃ s final, run step .initial kicked = some s ∧ s.tracker.isRevoked laptop = some "Kicked" ∧
      run step s comesBack = some final ∧ laptop ∉ final.closed ∧
      final.tracker.isRevoked laptop = none ∧
      (final.streams[2]?).map Stream.phase = some .registered ∧
      ¬ (Sticky laptop s comesBack ∧ ShutOut laptop s comesBack) := by
  refine ⟨_, _, rfl, by decide, rfl, by decide, by decide, by decide, fun both => ?_⟩
  exact absurd (both.1 comesBack [] _ rfl rfl (by decide)) (by decide)

/-- A third request comes while both streams last, and the kick fires. -/
def keepsOut : List Event :=
  [.arrive laptop false, .act 2 .isRevoked, .kickFires 0, .act 0 .unregister]

theorem sticky_keepsOut :
    ∃ s final, run step .initial kicked = some s ∧ (s.tracker.isRevoked laptop).isSome ∧
      run step s keepsOut = some final ∧ Along step (KeepsMark laptop) s keepsOut ∧
      Sticky laptop s keepsOut ∧ ShutOut laptop s keepsOut :=
  ⟨_, _, rfl, by decide, rfl, by decide,
    (sticky_iff (by decide) (show run step _ keepsOut = some _ from rfl)).mpr (by decide)⟩

end Ttgo.Proxy

/-
**Traffic accounting.**

A tunnel copies in both directions; each copy, at its end, calls `AddBytes` with the bytes it moved,
and `AddBytes` finds the user through the connection's entry. The handler may have returned by then,
and the entry may be gone or be another user's.

* `copiedSince` — the bytes that the tunnels of a user copied since the last `ResetUserTraffic`.
* `uncredited` — the bytes on their way: copied, and not added to any total yet.
* `Attributed` — at the end of a copy the entry names the user of the tunnel, and a reset finds
  nothing on its way.
* `metered_step` — total and uncredited bytes together are the meter.
* `totals_eq_copied` — the totals are right once every copy has finished.
-/

import Ttgo.Proxy.Handler

namespace Ttgo.Proxy

open Ttgo.Auth Ttgo.Lib Ttgo.Server

/-! ### The meter -/

/-- What a step adds to the bytes that the user's tunnels copied, and a reset clears. -/
def metered (username : String) (dir : Dir) (s : Sys) (event : Event) (number : Nat) : Nat :=
  match event with
  | .act index (.copied way bytes) =>
    if way = dir ∧ (s.streams[index]?).any (·.user = username) then number + bytes else number
  | .resetUserTraffic user => if user = username then 0 else number
  | _ => number

/-- **The bytes copied** by the user's tunnels in one direction since the last reset. -/
def copiedSince (username : String) (dir : Dir) (events : List Event) : Nat :=
  tally step (metered username dir) .initial events 0

/-- The user's total in one direction. -/
def Dir.total (t : ConnTracker) (username : String) : Dir → UInt64
  | .up => t.totalIn username
  | .down => t.totalOut username

/-! ### Bytes on their way -/

def Copy.uncredited : Copy → Nat
  | .copying bytes | .crediting _ bytes => bytes
  | .idle | .done _ => 0

def Stream.uncredited (username : String) (dir : Dir) (x : Stream) : Nat :=
  if x.user = username then (x.copy dir).uncredited else 0

/-- The bytes that the user's tunnels have copied and not yet added to a total. -/
def uncredited (username : String) (dir : Dir) (streams : List Stream) : Nat :=
  (streams.map (Stream.uncredited username dir)).sum

def Sys.ending (s : Sys) : Event → Option Stream
  | .act index (.copyEnds _) => s.streams[index]?
  | _ => none

def Event.resets : Event → Option String
  | .resetUserTraffic username => some username
  | _ => none

/-- The user that the entry of a raw connection names. -/
def entryOwner (t : ConnTracker) (conn : Option NetConn) : Option String :=
  (t.connEntryFor conn).map ConnEntry.username

/-- **Bytes are attributed**: a copy that ends finds its own user's entry, and a reset finds no bytes
of the user on their way. -/
def Attributed (username : String) (s : Sys) (event : Event) : Prop :=
  (∀ x ∈ s.ending event, (entryOwner s.tracker x.countsOn = some username ↔ x.user = username)) ∧
    ∀ user ∈ event.resets, user = username →
      uncredited username .up s.streams = 0 ∧ uncredited username .down s.streams = 0

instance (username : String) (s : Sys) (event : Event) : Decidable (Attributed username s event) :=
  inferInstanceAs (Decidable ((∀ x ∈ s.ending event, _) ∧ ∀ user ∈ event.resets, _))

/-! ### One stream -/

section Stream

variable {t t' : ConnTracker} {x x' : Stream} {action : Action} {username : String} {dir : Dir}

def Stream.started (x : Stream) : Bool :=
  match x.phase with
  | .tunnelling | .tunnelClosed | .returned => true
  | _ => false

theorem copy_setCopy (new : Copy) (way : Dir) :
    (x.setCopy new way).copy dir = if dir = way then new else x.copy dir := by
  cases way <;> cases dir <;> rfl

/-- The user has a row of totals. -/
def Counted (t : ConnTracker) (username : String) : Prop :=
  (t.totalsByUser.lookup username).isSome

/-- What holds of every stream: it copies only in a tunnel, and a copy in `AddBytes` credits its own
user, who has totals. -/
structure Stream.Sound (t : ConnTracker) (username : String) (dir : Dir) (x : Stream) : Prop where
  idle : x.started = false → x.copy dir = .idle
  owner : ∀ owner bytes, x.copy dir = .crediting owner bytes →
    (owner = username ↔ x.user = username)
  counted : ∀ bytes, x.copy dir = .crediting username bytes → Counted t username

theorem total_of_totals (same : t'.totalsByUser = t.totalsByUser) :
    dir.total t' username = dir.total t username := by
  cases dir <;> simp only [Dir.total, ConnTracker.totalIn, ConnTracker.totalOut, same]

theorem total_register (user : String) (conn : Option NetConn) :
    dir.total (t.register user conn) username = dir.total t username := by
  cases conn with
  | none => rfl
  | some conn =>
    have bytes : ∀ field : UserTotals → UInt64, field {} = 0 →
        (((t.register user (some conn)).totalsByUser.lookup username).map field).getD 0 =
          ((t.totalsByUser.lookup username).map field).getD 0 := by
      intro field zero
      rw [ConnTracker.lookup_totals_register]
      split
      · next same =>
        rw [same]
        cases t.totalsByUser.lookup user <;> simp [zero]
      · rfl
    cases dir with
    | up => exact bytes UserTotals.bytesIn rfl
    | down => exact bytes UserTotals.bytesOut rfl

theorem total_tunnelOpened (conn : Option NetConn) :
    dir.total (t.tunnelOpened conn) username = dir.total t username := by
  unfold ConnTracker.tunnelOpened
  split
  · rfl
  · cases dir <;> simp only [Dir.total, ConnTracker.totalIn, ConnTracker.totalOut,
      ConnTracker.lookup_updateTotals, ConnTracker.totals_setEntry] <;> split
    all_goals first | rfl | (next same => rw [same, Option.map_map]; rfl)

theorem total_addBytesTotals (owner : String) (way : Dir) (bytes : Nat)
    (counted : owner = username → way = dir → Counted t username) :
    dir.total (t.addBytesTotals owner (way.bytesIn bytes) (way.bytesOut bytes)) username =
      dir.total t username + if owner = username ∧ way = dir then UInt64.ofNat bytes else 0 := by
  by_cases same : owner = username
  · subst same
    cases found : t.totalsByUser.lookup owner with
    | none =>
      have other : way ≠ dir := fun same => absurd (counted rfl same) (by simp [Counted, found])
      cases dir <;> simp [Dir.total, ConnTracker.totalIn, ConnTracker.totalOut,
        ConnTracker.addBytesTotals, ConnTracker.lookup_updateTotals, found, other]
    | some totals =>
      cases way <;> cases dir <;>
        simp [Dir.total, ConnTracker.totalIn, ConnTracker.totalOut, ConnTracker.addBytesTotals,
          ConnTracker.lookup_updateTotals, found, Dir.bytesIn, Dir.bytesOut]
  · have other : username ≠ owner := Ne.symm same
    cases dir <;> simp [Dir.total, ConnTracker.totalIn, ConnTracker.totalOut,
      ConnTracker.addBytesTotals, ConnTracker.lookup_updateTotals, other, same]

/-- The bytes that a step of the stream moves for the user. -/
def Stream.moved (username : String) (dir : Dir) (x : Stream) : Action → Nat
  | .copied way bytes => if way = dir ∧ x.user = username then bytes else 0
  | _ => 0

theorem uncredited_idle (idle : x.copy dir = .idle) : x.uncredited username dir = 0 := by
  simp [Stream.uncredited, idle, Copy.uncredited]

theorem uncredited_setCopy (new : Copy) (way : Dir) :
    (x.setCopy new way).uncredited username dir =
      if x.user = username ∧ way = dir then new.uncredited
      else x.uncredited username dir := by
  rw [Stream.uncredited, Stream.uncredited, copy_setCopy, user_setCopy]
  by_cases user : x.user = username
  · by_cases same : way = dir
    · simp only [user, same, and_self, if_true]
    · simp only [user, same, Ne.symm same, and_false, if_true, if_false]
  · simp only [user, false_and, if_false]

theorem balance_still (held : x'.uncredited username dir = x.uncredited username dir)
    (total : dir.total t' username = dir.total t username)
    (still : x.moved username dir action = 0) :
    UInt64.ofNat (x'.uncredited username dir) + dir.total t' username =
      UInt64.ofNat (x.uncredited username dir) + dir.total t username +
        UInt64.ofNat (x.moved username dir action) := by
  rw [held, total, still]
  exact (UInt64.add_zero _).symm

/-- **The balance of one step of a stream**: what it moves is on its way or in the total. -/
theorem balance_act (sound : x.Sound t username dir)
    (attributed : ∀ way, action = .copyEnds way →
      (entryOwner t x.countsOn = some username ↔ x.user = username))
    (acted : x.act t action = some (t', x')) :
    UInt64.ofNat (x'.uncredited username dir) + dir.total t' username =
      UInt64.ofNat (x.uncredited username dir) + dir.total t username +
        UInt64.ofNat (x.moved username dir action) := by
  cases acted_of_act acted with
  | isRevoked stood => exact balance_still rfl rfl rfl
  | checkExt res stood =>
    have idle := sound.idle (by simp only [Stream.started, stood])
    refine balance_still ?_ rfl rfl
    rw [uncredited_idle idle]
    refine uncredited_idle ?_
    exact idle
  | isKnown stood => exact balance_still rfl rfl rfl
  | countUser stood => exact balance_still rfl rfl rfl
  | register active stood => exact balance_still rfl (total_register x.user x.conn) rfl
  | tunnelOpened stood =>
    have idle := sound.idle (by simp only [Stream.started, stood])
    refine balance_still ?_ (total_tunnelOpened x.countsOn) rfl
    rw [uncredited_idle idle]
    cases dir <;> simp [Stream.uncredited, Stream.copy, Copy.uncredited]
  | tunnelClosed stood =>
    exact balance_still rfl (total_of_totals (t.totals_tunnelClosed x.countsOn)) rfl
  | unregister stood =>
    exact balance_still rfl (total_of_totals (t.totals_unregister x.user x.conn)) rfl
  | copied way bytes before stood =>
    by_cases here : x.user = username ∧ way = dir
    · obtain ⟨user, rfl⟩ := here
      rw [uncredited_setCopy]
      simp only [user, Stream.uncredited, stood, Stream.moved, Copy.uncredited, and_self, if_true,
        UInt64.ofNat_add]
      grind
    · refine balance_still ?_ rfl (if_neg (mt And.symm here))
      rw [uncredited_setCopy, if_neg here]
  | copyEnds way bytes stood =>
    refine balance_still ?_ (total_of_totals (t.totals_addBytesEntry ..)) rfl
    rw [uncredited_setCopy]
    by_cases here : x.user = username ∧ way = dir
    · -- the entry is there, since it names the user
      obtain ⟨user, rfl⟩ := here
      obtain ⟨e, found, -⟩ := Option.map_eq_some_iff.mp ((attributed way rfl).mpr user)
      simp only [user, and_self, if_true, found, Copy.afterFetch, Copy.uncredited,
        Stream.uncredited, stood]
    · rw [if_neg here]
  | credit way owner bytes stood =>
    have counted : owner = username → way = dir → Counted t username := by
      rintro rfl rfl
      exact sound.counted bytes stood
    rw [total_addBytesTotals owner way bytes counted, uncredited_setCopy]
    by_cases same : way = dir
    · subst same
      by_cases user : x.user = username
      · have own := (sound.owner owner bytes stood).mpr user
        simp only [user, own, Stream.uncredited, stood, Stream.moved, Copy.uncredited, and_self,
          if_true]
        grind
      · have other := mt (sound.owner owner bytes stood).mp user
        simp [user, other, Stream.moved]
    · simp [same, Stream.moved]

theorem counted_act (counted : Counted t username) (acted : x.act t action = some (t', x')) :
    Counted t' username := by
  have updated : ∀ (user : String) (update : UserTotals → UserTotals) (before : ConnTracker),
      Counted before username → Counted (before.updateTotals user update) username := by
    intro user update before counted
    rw [Counted, ConnTracker.lookup_updateTotals]
    split
    · next same =>
      rw [Option.isSome_map, ← same]
      exact counted
    · exact counted
  cases acted_of_act acted with
  | isRevoked | checkExt | isKnown | countUser | copied => exact counted
  | register active stood =>
    cases raw : x.conn with
    | none => exact counted
    | some conn =>
      rw [Counted, ConnTracker.lookup_totals_register]
      split
      · rfl
      · exact counted
  | tunnelOpened stood =>
    unfold ConnTracker.tunnelOpened
    split
    · exact counted
    · exact updated _ _ _ (by rwa [Counted, ConnTracker.totals_setEntry])
  | tunnelClosed stood => rwa [Counted, ConnTracker.totals_tunnelClosed]
  | unregister stood => rwa [Counted, ConnTracker.totals_unregister]
  | copyEnds way bytes stood => rwa [Counted, ConnTracker.totals_addBytesEntry]
  | credit way owner bytes stood => exact updated _ _ _ counted

theorem sound_still (sound : x.Sound t username dir)
    (grown : Counted t username → Counted t' username)
    (started : x'.started = false → x.started = false)
    (copy : x'.copy dir = x.copy dir) (user : x'.user = x.user) : x'.Sound t' username dir :=
  ⟨fun early => copy.trans (sound.idle (started early)),
    fun owner bytes stood => user ▸ sound.owner owner bytes (copy ▸ stood),
    fun bytes stood => grown (sound.counted bytes (copy ▸ stood))⟩

theorem sound_idle (idle : x'.copy dir = .idle) : x'.Sound t' username dir :=
  ⟨fun _ => idle, fun _ _ stood => absurd stood (by simp [idle]),
    fun _ stood => absurd stood (by simp [idle])⟩

theorem sound_copy (sound : x.Sound t username dir)
    (grown : Counted t username → Counted t' username) {new : Copy} {way : Dir}
    (stood : x.copy way ≠ .idle)
    (plain : ∀ owner bytes, new = .crediting owner bytes →
      (owner = username ↔ x.user = username) ∧ (owner = username → Counted t' username)) :
    (x.setCopy new way).Sound t' username dir := by
  by_cases same : dir = way
  · subst same
    refine ⟨fun early => absurd (sound.idle ?_) stood, fun owner bytes crediting => ?_,
      fun bytes crediting => ?_⟩
    · simpa only [Stream.started, phase_setCopy] using early
    · rw [copy_setCopy, if_pos rfl] at crediting
      rw [user_setCopy]
      exact (plain owner bytes crediting).1
    · rw [copy_setCopy, if_pos rfl] at crediting
      exact (plain username bytes crediting).2 rfl
  · refine sound_still sound grown ?_ ?_ (user_setCopy new way)
    · simp only [Stream.started, phase_setCopy, imp_self]
    · rw [copy_setCopy, if_neg same]

theorem sound_act (sound : x.Sound t username dir)
    (known : entryOwner t x.countsOn = some username → Counted t username)
    (attributed : ∀ way, action = .copyEnds way →
      (entryOwner t x.countsOn = some username ↔ x.user = username))
    (acted : x.act t action = some (t', x')) : x'.Sound t' username dir := by
  have grown : Counted t username → Counted t' username := fun counted => counted_act counted acted
  cases acted_of_act acted with
  | isRevoked stood =>
    exact sound_still sound grown (fun _ => by simp only [Stream.started, stood]) rfl rfl
  | checkExt res stood =>
    exact sound_idle (sound.idle (by simp only [Stream.started, stood]))
  | isKnown stood =>
    exact sound_still sound grown (fun _ => by simp only [Stream.started, stood]) rfl rfl
  | countUser stood =>
    exact sound_still sound grown (fun _ => by simp only [Stream.started, stood]) rfl rfl
  | register active stood =>
    exact sound_still sound grown (fun _ => by simp only [Stream.started, stood]) rfl rfl
  | tunnelOpened stood =>
    refine ⟨nofun, fun _ _ crediting => ?_, fun _ crediting => ?_⟩ <;>
      cases dir <;> cases crediting
  | tunnelClosed stood => exact sound_still sound grown nofun rfl rfl
  | unregister stood => exact sound_still sound grown nofun rfl rfl
  | copied way bytes before stood => exact sound_copy sound grown (by simp [stood]) nofun
  | copyEnds way bytes stood =>
    refine sound_copy sound grown (by simp [stood]) fun owner credited fetched => ?_
    have named : entryOwner t x.countsOn = some owner := by
      unfold Copy.afterFetch at fetched
      split at fetched
      · cases fetched
      · next e found =>
        cases fetched
        rw [entryOwner, found, Option.map_some]
    refine ⟨?_, fun same => grown (known (same ▸ named))⟩
    rw [← attributed way rfl, named, Option.some.injEq]
  | credit way owner bytes stood => exact sound_copy sound grown (by simp [stood]) nofun

end Stream

/-! ### The whole process -/

variable {s next : Sys} {username : String} {dir : Dir} {number : Nat}

/-- **The meter is right**: what the user's tunnels copied is in the total or on its way. -/
structure Metered (username : String) (dir : Dir) (s : Sys) (number : Nat) : Prop where
  balance : UInt64.ofNat (uncredited username dir s.streams) + dir.total s.tracker username =
    UInt64.ofNat number
  sound : ∀ x ∈ s.streams, x.Sound s.tracker username dir
  known : ∀ conn, s.tracker.entryUser conn = some username → Counted s.tracker username

theorem entryOwner_eq (t : ConnTracker) (conn : Option NetConn) :
    entryOwner t conn = conn.bind t.entryUser := by
  cases conn <;> rfl

theorem known_act {t t' : ConnTracker} {x x' : Stream} {action : Action}
    (known : ∀ conn, t.entryUser conn = some username → Counted t username)
    (acted : x.act t action = some (t', x')) (conn : NetConn)
    (named : t'.entryUser conn = some username) : Counted t' username := by
  rcases act_cases acted with ⟨-, -, -, -, -, rfl⟩ | ⟨-, -, -, -, -, rfl⟩ | ⟨-, -, -, views⟩
  · cases raw : x.conn with
    | none => exact known conn (by simpa only [raw, ConnTracker.register] using named)
    | some here =>
      rw [raw, ConnTracker.entryUser_register] at named
      rw [Counted, ConnTracker.lookup_totals_register]
      split at named
      · cases named
        rw [if_pos rfl]
        rfl
      · split
        · rfl
        · exact known conn named
  · refine counted_act (known conn ?_) acted
    cases raw : x.conn with
    | none => simpa only [raw, ConnTracker.unregister] using named
    | some here =>
      rw [raw, ConnTracker.entryUser_unregister, Option.ite_none_left_eq_some] at named
      exact named.2
  · exact counted_act (known conn (by rwa [views.entryUser] at named)) acted

theorem metered_act {index : Nat} {action : Action} {x x' : Stream} {t' : ConnTracker}
    (attributed : Attributed username s (.act index action)) (metered : Metered username dir s number)
    (found : s.streams[index]? = some x) (acted : x.act s.tracker action = some (t', x')) :
    Metered username dir { s with tracker := t', streams := s.streams.set index x' }
      (number + x.moved username dir action) := by
  have member : x ∈ s.streams := List.mem_of_getElem? found
  have ends : ∀ way, action = .copyEnds way →
      (entryOwner s.tracker x.countsOn = some username ↔ x.user = username) := by
    rintro way rfl
    exact attributed.1 x found
  refine ⟨?_, fun y inside => ?_, known_act metered.known acted⟩
  · have local' := balance_act (metered.sound x member) ends acted
    have pool := congrArg UInt64.ofNat (sum_map_set found x' (Stream.uncredited username dir))
    have before := metered.balance
    simp only [UInt64.ofNat_add, uncredited] at pool before ⊢
    grind
  · obtain ⟨other, reads⟩ := List.mem_iff_getElem?.mp inside
    rcases pool_get_set found reads with ⟨-, rfl⟩ | ⟨-, old⟩
    · refine sound_act (metered.sound x member) (fun named => ?_) ends acted
      rw [entryOwner_eq, Option.bind_eq_some_iff] at named
      obtain ⟨conn, -, named⟩ := named
      exact metered.known conn named
    · exact sound_still (metered.sound y (List.mem_of_getElem? old))
        (fun counted => counted_act counted acted) id rfl rfl

theorem metered_still (metered : Metered username dir s number)
    (totals : next.tracker.totalsByUser = s.tracker.totalsByUser)
    (entryUser : ∀ conn, next.tracker.entryUser conn = s.tracker.entryUser conn)
    (streams : next.streams = s.streams ∨ ∃ conn http1,
      next.streams = s.streams ++ [{ conn := conn, http1 := http1 }]) :
    Metered username dir next number := by
  have counted : Counted s.tracker username → Counted next.tracker username := by
    rw [Counted, Counted, totals]
    exact id
  have idle : ∀ (conn : Option NetConn) (http1 : Bool),
      (Stream.mk conn "" 0 .arrived .idle .idle http1).copy dir = .idle := by
    intro conn http1
    cases dir <;> rfl
  refine ⟨?_, fun x member => ?_, fun conn named => counted (metered.known conn ?_)⟩
  · rw [total_of_totals totals, ← metered.balance]
    rcases streams with same | ⟨conn, http1, arrived⟩
    · rw [same]
    · rw [arrived, uncredited, List.map_append, List.sum_append, List.map_singleton,
        List.sum_singleton, uncredited_idle (idle conn http1)]
      rfl
  · have old : x ∈ s.streams → x.Sound next.tracker username dir := fun member =>
      sound_still (metered.sound x member) counted id rfl rfl
    rcases streams with same | ⟨conn, http1, arrived⟩
    · exact old (same ▸ member)
    · rw [arrived, List.mem_append, List.mem_singleton] at member
      rcases member with member | rfl
      · exact old member
      · exact sound_idle (idle conn http1)
  · rwa [entryUser] at named

theorem total_resetUserTraffic (t : ConnTracker) (user : String) :
    dir.total (t.resetUserTraffic user) username =
      if user = username then 0 else dir.total t username := by
  have bytes : ∀ field : UserTotals → UInt64,
      (∀ totals : UserTotals, field { totals with bytesIn := 0, bytesOut := 0, flushedBytes := 0 } = 0) →
      (((t.resetUserTraffic user).totalsByUser.lookup username).map field).getD 0 =
        if user = username then 0 else ((t.totalsByUser.lookup username).map field).getD 0 := by
    intro field zero
    simp only [ConnTracker.resetUserTraffic, ConnTracker.lookup_updateTotals]
    by_cases same : user = username
    · subst same
      cases t.totalsByUser.lookup user <;> simp [zero]
    · simp only [if_neg same, if_neg (Ne.symm same)]
  cases dir with
  | up => exact bytes UserTotals.bytesIn fun _ => rfl
  | down => exact bytes UserTotals.bytesOut fun _ => rfl

theorem counted_resetUserTraffic {t : ConnTracker} (user : String) (counted : Counted t username) :
    Counted (t.resetUserTraffic user) username := by
  rw [Counted]
  simp only [ConnTracker.resetUserTraffic, ConnTracker.lookup_updateTotals]
  split
  · next same =>
    rw [Option.isSome_map, ← same]
    exact counted
  · exact counted

theorem metered_reset {user : String}
    (attributed : Attributed username s (.resetUserTraffic user))
    (metered : Metered username dir s number) :
    Metered username dir { s with tracker := s.tracker.resetUserTraffic user }
      (if user = username then 0 else number) := by
  refine ⟨?_, fun x member => ?_, fun conn named => ?_⟩
  · rw [total_resetUserTraffic]
    by_cases same : user = username
    · obtain ⟨up, down⟩ := attributed.2 user rfl same
      have settled : uncredited username dir s.streams = 0 := by cases dir <;> assumption
      simp only [if_pos same, settled]
      rfl
    · simp only [if_neg same]
      exact metered.balance
  · exact sound_still (metered.sound x member) (counted_resetUserTraffic user) id rfl rfl
  · rw [(s.tracker.sameViews_resetUserTraffic user).entryUser] at named
    exact counted_resetUserTraffic user (metered.known conn named)

theorem metered_act_eq {index : Nat} {action : Action} {x : Stream}
    (found : s.streams[index]? = some x) :
    metered username dir s (.act index action) number = number + x.moved username dir action := by
  cases action with
  | copied way bytes =>
    simp only [metered, found, Option.any_some, decide_eq_true_eq, Stream.moved]
    split <;> rfl
  | _ => rfl

theorem metered_step {event : Event} (attributed : Attributed username s event)
    (inv : Metered username dir s number) (taken : step s event = some next) :
    Metered username dir next (metered username dir s event number) := by
  cases event with
  | act index action =>
    obtain ⟨x, t', x', found, acted, rfl⟩ := step_act taken
    rw [metered_act_eq found]
    exact metered_act attributed inv found acted
  | resetUserTraffic user =>
    cases taken
    exact metered_reset attributed inv
  | arrive conn http1 =>
    obtain ⟨-, taken⟩ := Option.ite_none_left_eq_some.mp taken
    cases taken
    exact metered_still inv rfl (fun _ => rfl) (.inr ⟨conn, http1, rfl⟩)
  | kickUser user reason =>
    cases taken
    exact metered_still inv rfl (fun _ => rfl) (.inl rfl)
  | kickSession user remoteAddr reason =>
    cases taken
    exact metered_still inv (ConnTracker.totals_kickSession ..)
      (fun _ => ConnTracker.entryUser_kickSession ..) (.inl rfl)
  | kickFires index =>
    simp only [step, Option.bind_eq_bind, Option.bind_eq_some_iff, Option.pure_def,
      Option.some.injEq] at taken
    obtain ⟨list, -, rfl⟩ := taken
    exact metered_still inv rfl (fun _ => rfl) (.inl rfl)
  | close conn =>
    cases taken
    exact metered_still inv rfl (fun _ => rfl) (.inl rfl)

/-- The copies of a stream have finished, or its tunnel was never opened. -/
def Stream.Finished (x : Stream) : Prop :=
  ∀ dir, (∀ bytes, x.copy dir ≠ .copying bytes) ∧ ∀ owner bytes, x.copy dir ≠ .crediting owner bytes

theorem uncredited_finished {streams : List Stream}
    (finished : ∀ x ∈ streams, x.user = username → x.Finished) :
    uncredited username dir streams = 0 := by
  refine List.sum_eq_zero fun bytes member => ?_
  obtain ⟨x, inside, rfl⟩ := List.mem_map.mp member
  by_cases user : x.user = username
  · obtain ⟨notCopying, notCrediting⟩ := finished x inside user dir
    rw [Stream.uncredited, if_pos user]
    cases stood : x.copy dir with
    | idle => rfl
    | done => rfl
    | copying bytes => exact absurd stood (notCopying bytes)
    | crediting owner bytes => exact absurd stood (notCrediting owner bytes)
  · rw [Stream.uncredited, if_neg user]

theorem total_eq_copied (dir : Dir) {events : List Event} (reached : run step .initial events = some s)
    (attributed : Along step (Attributed username) .initial events)
    (finished : ∀ x ∈ s.streams, x.user = username → x.Finished)
    (small : copiedSince username dir events < 2 ^ 64) :
    (dir.total s.tracker username).toNat = copiedSince username dir events := by
  have start : Metered username dir .initial 0 :=
    ⟨by cases dir <;> rfl, fun _ member => (nomatch member), fun _ named => (nomatch named)⟩
  have kept : ∀ state event next number, Attributed username state event →
      Metered username dir state number → step state event = some next →
      Metered username dir next (metered username dir state event number) :=
    fun _ _ _ _ => metered_step
  have inv : Metered username dir s (copiedSince username dir events) :=
    tally_invariant kept attributed start reached
  have balance := inv.balance
  rw [uncredited_finished finished] at balance
  have total : dir.total s.tracker username =
      UInt64.ofNat (copiedSince username dir events) := (UInt64.zero_add _).symm.trans balance
  rw [total, UInt64.toNat_ofNat', Nat.mod_eq_of_lt small]

/-- **Traffic accounting loses nothing** in a run that attributes every copy: once the user's copies
have finished, the totals are the bytes copied since the last reset. -/
theorem totals_eq_copied {events : List Event} (reached : run step .initial events = some s)
    (attributed : Along step (Attributed username) .initial events)
    (finished : ∀ x ∈ s.streams, x.user = username → x.Finished)
    (small : ∀ dir, copiedSince username dir events < 2 ^ 64) :
    (s.tracker.totalIn username).toNat = copiedSince username .up events ∧
      (s.tracker.totalOut username).toNat = copiedSince username .down events :=
  ⟨total_eq_copied .up reached attributed finished (small .up),
    total_eq_copied .down reached attributed finished (small .down)⟩

/-- One tunnel that copies five bytes up and seven down. -/
def tunnel : List Event :=
  entering 0 laptop "alice" 0 ++ [.act 0 .isKnown, .act 0 .register, .act 0 .tunnelOpened,
    .act 0 (.copied .up 5), .act 0 (.copied .down 7)]

/-- Its copies end. -/
def tunnelEnds : List Event :=
  [.act 0 (.copyEnds .up), .act 0 (.credit .up), .act 0 (.copyEnds .down), .act 0 (.credit .down)]

/-- The request is cancelled, the handler returns, and then the copies end. -/
def cancelled : List Event :=
  tunnel ++ [.act 0 .tunnelClosed, .act 0 .unregister, .act 0 (.copyEnds .up),
    .act 0 (.copyEnds .down)]

def finishedTunnel (phase : Phase) : Stream := ⟨laptop, "alice", 0, phase, .done 5, .done 7, false⟩

theorem finishedTunnel_finished (phase : Phase) : (finishedTunnel phase).Finished
  | .up => ⟨nofun, nofun⟩
  | .down => ⟨nofun, nofun⟩

/-- **Lost bytes**: every copy has finished, twelve bytes were copied, and none is counted. -/
theorem bytes_lost :
    ∃ s, run step .initial cancelled = some s ∧ s.streams = [finishedTunnel .returned] ∧
      (∀ x ∈ s.streams, x.Finished) ∧ copiedSince "alice" .up cancelled = 5 ∧
      copiedSince "alice" .down cancelled = 7 ∧ s.tracker.totalIn "alice" = 0 ∧
      s.tracker.totalOut "alice" = 0 := by
  refine ⟨_, rfl, rfl, fun x member => ?_, by decide, by decide, by decide, by decide⟩
  obtain rfl := List.mem_singleton.mp member
  exact finishedTunnel_finished .returned

theorem totals_eq_copied_tunnel :
    ∃ s, run step .initial (tunnel ++ tunnelEnds) = some s ∧
      Along step (Attributed "alice") .initial (tunnel ++ tunnelEnds) ∧
      copiedSince "alice" .up (tunnel ++ tunnelEnds) = 5 ∧
      (s.tracker.totalIn "alice").toNat = copiedSince "alice" .up (tunnel ++ tunnelEnds) ∧
      (s.tracker.totalOut "alice").toNat = copiedSince "alice" .down (tunnel ++ tunnelEnds) := by
  refine ⟨_, rfl, by decide, by decide, totals_eq_copied rfl (by decide) (fun x member _ => ?_) ?_⟩
  · obtain rfl := List.mem_singleton.mp member
    exact finishedTunnel_finished .tunnelling
  · rintro (_ | _) <;> decide

end Ttgo.Proxy

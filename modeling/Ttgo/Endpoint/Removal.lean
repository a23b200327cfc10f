/-
**Removing an account.**

`DELETE /api/users/{u}` deletes the row, kicks the user's connections and invalidates the cache. A
request of the user that is under way at the kick registers after it; one that finds the cached entry
between the kick and `Invalidate` is let in; with the file backend the authenticator's `FileStore` still
has the user until it loads the file again; and the end of a stream takes the mark off a connection that
still carries another.

* `Removed` — every open stream of the user is on a revoked connection, and `CheckExt` grants them
  nothing any more.
* `Orderly` — the condition on the steps around the `DELETE` under which the removal is complete.
* `removed_of_orderly` — in an orderly run, `Removed` holds in every state after the `DELETE`.
-/

import Ttgo.Endpoint.System

namespace Ttgo.Endpoint

open Ttgo.Auth Ttgo.Lib Ttgo.Server

/-! ### The claim -/

structure Removed (username : String) (s : Sys) : Prop where
  streams : ∀ x ∈ s.proxy.streams, x.opened = true → x.user = username →
    ∃ conn, x.conn = some conn ∧ (s.proxy.tracker.isRevoked conn).isSome
  refused : ∀ (index : Nat) (now : Int) (x : Proxy.Stream) (password : List UInt8)
    (res : CheckResult), s.proxy.streams[index]? = some x → x.phase = .authenticating →
      s.credentials[index]? = some (some (username, password)) →
      checkResult s index now = some res → res.deny ≠ .none

/-! ### The condition -/

/-- The lookup holds nothing that could be granted. -/
def Barren : LookupPhase → Prop
  | .readCache => True
  | .getPassword hit => hit.bind CacheEntry.served = none
  | .writeCache out => out.notFound = true
  | .returned found => found = none
  | .getMaxDevices _ | .getLifecycle _ => False

instance : ∀ phase, Decidable (Barren phase)
  | .readCache => .isTrue trivial
  | .getPassword hit => inferInstanceAs (Decidable (hit.bind CacheEntry.served = none))
  | .writeCache out => inferInstanceAs (Decidable (out.notFound = true))
  | .returned found => inferInstanceAs (Decidable (found = none))
  | .getMaxDevices _ | .getLifecycle _ => .isFalse id

/-- The stream is between `CheckExt` and `Register`. -/
def admitting (x : Proxy.Stream) : Bool :=
  match x.phase with
  | .checking | .counting | .admitted _ => true
  | _ => false

/-- A request is no obstacle to the kick: it is not on its way to `Register` for the user, and an open
stream of theirs has a raw connection to mark. -/
def Settled (username : String) (x : Proxy.Stream) (call : Lookup.Call) : Prop :=
  (x.phase = .authenticating → call.username = username → Barren call.phase) ∧
    (x.user = username → admitting x = false ∧ (x.opened = true → x.conn.isSome = true))

instance (username : String) (x : Proxy.Stream) (call : Lookup.Call) :
    Decidable (Settled username x call) :=
  inferInstanceAs (Decidable ((_ → _ → _) ∧ (_ → _ ∧ (_ → _))))

/-- The entry that the cache would serve for the user. -/
def cacheServes (cache : Cache) (username : String) : Option CacheEntry :=
  (cache.lookup username).bind CacheEntry.served

/-- `KickUser` has run. -/
def Deletion.afterKick : Deletion → Bool
  | .kicked | .done => true
  | _ => false

/-- The row is gone. -/
def Deletion.begun : Deletion → Bool
  | .deleted | .kicked | .done => true
  | _ => false

/-- The request whose lookup steps. -/
def Event.looksUp : Event → Option Nat
  | .lookup index _ _ => some index
  | _ => none

def Event.unregisters : Event → Option Nat
  | .proxy (.act index .unregister) => some index
  | _ => none

/-- The user whose row is written. -/
def Event.restores : Event → Option String
  | .write username (some _) => some username
  | _ => none

/-- The next step of the lookup is `GetPassword`. -/
def asksPassword : LookupPhase → Bool
  | .getPassword _ => true
  | _ => false

/-- With the file backend, a lookup of the user that asks the `FileStore` after the kick finds it reloaded. -/
def Reloaded (username : String) (s : Sys) (event : Event) : Prop :=
  s.deletion.afterKick = true → s.file.isSome = true → ∀ index ∈ event.looksUp, ∀ call ∈ s.auth.calls[index]?,
    call.username = username → asksPassword call.phase = true → s.auth.store.lookup username = none

instance (username : String) (s : Sys) (event : Event) : Decidable (Reloaded username s event) :=
  inferInstanceAs (Decidable (_ → _ → ∀ index ∈ event.looksUp, _))

/-- **An orderly step.** At the kick every request of the user is settled; between the kick and
`Invalidate` no lookup of theirs finds an entry; after the kick no lookup of theirs asks a `FileStore`
that still has them, and no stream is unregistered from a connection that carries another open stream of
theirs; nobody adds the user again. -/
structure Orderly (username : String) (s : Sys) (event : Event) : Prop where
  kick : event = .delete → s.deletion = .deleted →
    ∀ request ∈ s.proxy.streams.zip s.auth.calls, Settled username request.1 request.2
  cache : ∀ index ∈ event.looksUp, s.deletion = .kicked → ∀ call ∈ s.auth.calls[index]?,
    call.username = username → call.phase = .readCache → cacheServes s.auth.cache username = none
  source : Reloaded username s event
  marks : ∀ index ∈ event.unregisters, s.deletion.afterKick = true →
    ∀ x ∈ s.proxy.streams[index]?, ∀ conn ∈ x.conn,
      conn ∉ Proxy.openConns username (s.proxy.streams.eraseIdx index)
  store : ∀ name ∈ event.restores, s.deletion.begun = true → name ≠ username

instance (username : String) (s : Sys) (event : Event) : Decidable (Orderly username s event) :=
  decidable_of_iff
    ((event = .delete → s.deletion = .deleted →
        ∀ request ∈ s.proxy.streams.zip s.auth.calls, Settled username request.1 request.2) ∧
      (∀ index ∈ event.looksUp, s.deletion = .kicked → ∀ call ∈ s.auth.calls[index]?,
        call.username = username → call.phase = .readCache →
          cacheServes s.auth.cache username = none) ∧
      Reloaded username s event ∧
      (∀ index ∈ event.unregisters, s.deletion.afterKick = true →
        ∀ x ∈ s.proxy.streams[index]?, ∀ conn ∈ x.conn,
          conn ∉ Proxy.openConns username (s.proxy.streams.eraseIdx index)) ∧
      (∀ name ∈ event.restores, s.deletion.begun = true → name ≠ username))
    ⟨fun all => ⟨all.1, all.2.1, all.2.2.1, all.2.2.2.1, all.2.2.2.2⟩,
      fun orderly => ⟨orderly.kick, orderly.cache, orderly.source, orderly.marks, orderly.store⟩⟩

/-! ### Lookups of a user without a row -/

variable {ttl : Int} {username : String} {s next : Sys} {index : Nat}

theorem barren_advance {store : Store} {cache cache' : Cache} {call : Lookup.Call}
    {phase : LookupPhase} {now : Int} {fails : Bool}
    (gone : asksPassword call.phase = true → store.lookup call.username = none)
    (unserved : call.phase = .readCache → cacheServes cache call.username = none)
    (barren : Barren call.phase)
    (advanced : call.advance ttl store cache now fails = some (cache', phase)) :
    Barren phase ∧ (cache' = cache ∨ cacheServes cache' call.username = none) := by
  obtain ⟨user, phase₀⟩ := call
  cases phase₀ with
  | readCache =>
    cases advanced
    have unserved : (cache.lookup user).bind CacheEntry.served = none := unserved rfl
    refine ⟨?_, .inl rfl⟩
    unfold afterCache
    split
    · rfl
    · next entry hit =>
      rw [hit] at unserved
      split
      · exact unserved
      · simpa only [Barren, hit] using unserved
  | getPassword hit =>
    cases advanced
    refine ⟨?_, .inl rfl⟩
    have absent : store.getPassword user = "" := by
      have gone : store.lookup user = none := gone rfl
      simp [Store.getPassword, gone]
    cases fails with
    | true => exact barren
    | false => simp [Lookup.answer, afterPassword, absent, Barren]
  | writeCache out =>
    cases advanced
    have negative : out.served = none := if_pos barren
    refine ⟨negative, .inr ?_⟩
    simp [cacheServes, negative]
  | returned found => cases advanced
  | getMaxDevices out => exact barren.elim
  | getLifecycle out => exact barren.elim

theorem cacheServes_advance {auth : Lookup.Sys} {cache' : Cache} {call : Lookup.Call}
    {phase : LookupPhase} {now : Int} {fails : Bool} (other : call.username ≠ username)
    (advanced : call.advance ttl auth.store auth.cache now fails = some (cache', phase)) :
    cacheServes cache' username = cacheServes auth.cache username := by
  rcases Lookup.advance_cache advanced with rfl | ⟨out, rfl⟩
  · rfl
  · rw [cacheServes, AList.lookup_insert_ne (Ne.symm other)]
    rfl

/-! ### Streams -/

theorem act_forward {t t' : ConnTracker} {x x' : Proxy.Stream} {action : Proxy.Action}
    (other : ∀ res, action ≠ .checkExt res) (acted : x.act t action = some (t', x')) :
    x'.user = x.user ∧ (admitting x' = true → admitting x = true) ∧
      (x'.phase = .authenticating → x.phase = .arrived ∨ x.phase = .authenticating) ∧
      (x'.opened = true → x.opened = true ∨ admitting x = true) := by
  cases Proxy.acted_of_act acted with
  | isRevoked stood =>
    refine ⟨rfl, ?_, fun _ => .inl stood, ?_⟩ <;>
      simp only [Proxy.Stream.afterRevoked, admitting, Proxy.Stream.opened] <;>
      cases t.isRevoked x.conn <;> simp
  | checkExt res stood => exact absurd rfl (other res)
  | isKnown stood =>
    refine ⟨rfl, fun _ => by simp [admitting, stood], fun stands => ?_, fun opened => ?_⟩
    · simp only [Proxy.Stream.afterKnown] at stands
      split_ifs at stands
    · exact .inr (by simp [admitting, stood])
  | countUser stood =>
    refine ⟨rfl, fun _ => by simp [admitting, stood], fun stands => ?_, fun opened => ?_⟩
    · simp only [Proxy.Stream.afterCount] at stands
      split_ifs at stands
    · exact .inr (by simp [admitting, stood])
  | register active stood =>
    refine ⟨rfl, ?_, ?_, fun _ => .inr (by simp [admitting, stood])⟩ <;> rintro ⟨⟩
  | tunnelOpened stood =>
    refine ⟨rfl, ?_, ?_, fun _ => .inl (by simp [Proxy.Stream.opened, stood])⟩ <;> rintro ⟨⟩
  | tunnelClosed stood =>
    refine ⟨rfl, ?_, ?_, fun _ => .inl (by simp [Proxy.Stream.opened, stood])⟩ <;> rintro ⟨⟩
  | unregister stood => refine ⟨rfl, ?_, ?_, ?_⟩ <;> rintro ⟨⟩
  | copied dir bytes before stood =>
    simp only [Proxy.user_setCopy, admitting, Proxy.Stream.opened, Proxy.phase_setCopy]
    exact ⟨trivial, id, .inr, .inl⟩
  | copyEnds dir bytes stood =>
    simp only [Proxy.user_setCopy, admitting, Proxy.Stream.opened, Proxy.phase_setCopy]
    exact ⟨trivial, id, .inr, .inl⟩
  | credit dir owner bytes stood =>
    simp only [Proxy.user_setCopy, admitting, Proxy.Stream.opened, Proxy.phase_setCopy]
    exact ⟨trivial, id, .inr, .inl⟩

theorem checkResult_granted {now : Int} {res : CheckResult}
    (checked : checkResult s index now = some res) (granted : res.deny = .none) :
    ∃ password user entry, s.credentials[index]? = some (some (res.username, password)) ∧
      s.auth.calls[index]? = some ⟨user, .returned (some entry)⟩ := by
  unfold checkResult at checked
  split at checked
  · cases checked
    cases granted
  · next username password user found given called =>
    obtain rfl := Option.some.inj checked
    cases found with
    | none => cases granted
    | some entry =>
      obtain ⟨-, -, named⟩ :=
        (checkEntry_granted_iff username password entry now _).mp ⟨rfl, granted⟩
      exact ⟨password, user, entry, by rw [given, checkFound, named], called⟩
  · cases checked

/-! ### The invariant -/

/-- **The removal so far.** -/
structure Removing (username : String) (s : Sys) : Prop where
  linked : Linked s
  booked : s.proxy.Booked
  gone : s.deletion.begun = true → s.adminStore.lookup username = none
  barren : s.deletion.afterKick = true → ∀ (index : Nat) (x : Proxy.Stream) (call : Lookup.Call),
    s.proxy.streams[index]? = some x → x.phase = .authenticating →
      s.auth.calls[index]? = some call → call.username = username → Barren call.phase
  marked : s.deletion.afterKick = true → ∀ x ∈ s.proxy.streams, x.user = username →
    admitting x = false ∧ (x.opened = true →
      ∃ conn, x.conn = some conn ∧ (s.proxy.tracker.revoked.lookup conn).isSome)
  uncached : s.deletion = .done → cacheServes s.auth.cache username = none

theorem removing_initial (store : Store) (file : Option Store) : Removing username (.initial store file) :=
  ⟨linked_initial store file, Proxy.booked_initial, nofun, nofun, nofun, nofun⟩

theorem not_granted (removing : Removing username s) (kicked : s.deletion.afterKick = true)
    {x : Proxy.Stream} {now : Int} {res : CheckResult} {password : List UInt8}
    (found : s.proxy.streams[index]? = some x) (stood : x.phase = .authenticating)
    (given : s.credentials[index]? = some (some (username, password)))
    (checked : checkResult s index now = some res) : res.deny ≠ .none := by
  intro granted
  obtain ⟨password', user, entry, given', called⟩ := checkResult_granted checked granted
  have name : user = username := by
    have named := removing.linked.names index _ _ given called
    simpa [nameOf] using named
  have barren := removing.barren kicked index x _ found stood called name
  cases barren

theorem marked_act {action : Proxy.Action} {x x' : Proxy.Stream} {t' : ConnTracker}
    (removing : Removing username s) (kicked : s.deletion.afterKick = true)
    (orderly : action = .unregister → ∀ conn ∈ x.conn,
      conn ∉ Proxy.openConns username (s.proxy.streams.eraseIdx index))
    (found : s.proxy.streams[index]? = some x)
    (acted : x.act s.proxy.tracker action = some (t', x'))
    (stepped : x'.user = username → admitting x' = false ∧
      (x'.opened = true → x.user = username ∧ x.opened = true ∧ action ≠ .unregister)) :
    ∀ y ∈ s.proxy.streams.set index x', y.user = username →
      admitting y = false ∧ (y.opened = true →
        ∃ conn, y.conn = some conn ∧ (t'.revoked.lookup conn).isSome) := by
  intro y member user
  obtain ⟨other, reads⟩ := List.mem_iff_getElem?.mp member
  rcases pool_get_set found reads with ⟨rfl, rfl⟩ | ⟨different, old⟩
  · refine ⟨(stepped user).1, fun opened => ?_⟩
    obtain ⟨user, opened, lasts⟩ := (stepped user).2 opened
    obtain ⟨conn, raw, marked⟩ :=
      (removing.marked kicked x (List.mem_of_getElem? found) user).2 opened
    exact ⟨conn, (Proxy.conn_act acted).trans raw,
      Proxy.revoked_act acted (fun same => absurd same lasts) marked⟩
  · have held := removing.marked kicked y (List.mem_of_getElem? old) user
    refine ⟨held.1, fun opened => ?_⟩
    obtain ⟨conn, raw, marked⟩ := held.2 opened
    refine ⟨conn, raw, Proxy.revoked_act acted (fun ends here => ?_) marked⟩
    refine orderly ends conn here (Proxy.mem_openConns.mpr ⟨y, ?_, opened, user, raw⟩)
    exact List.mem_eraseIdx_iff_getElem?.mpr ⟨other, different, old⟩

theorem removing_act {event : Proxy.Event} {action : Proxy.Action} {x x' : Proxy.Stream}
    {t' : ConnTracker} (orderly : Orderly username s (.proxy event))
    (removing : Removing username s) (same : event = .act index action)
    (other : ∀ res, action ≠ .checkExt res) (found : s.proxy.streams[index]? = some x)
    (acted : x.act s.proxy.tracker action = some (t', x'))
    (booked : Proxy.Sys.Booked { s.proxy with
      tracker := t', streams := s.proxy.streams.set index x' }) :
    Removing username { s with proxy := { s.proxy with
      tracker := t', streams := s.proxy.streams.set index x' } } := by
  obtain ⟨user, admits, authenticates, opens⟩ := act_forward other acted
  refine ⟨linked_act removing.linked found acted, booked, removing.gone, fun kicked => ?_,
    fun kicked => ?_, removing.uncached⟩
  · intro at' y call reads stands called name
    rcases pool_get_set found reads with ⟨rfl, rfl⟩ | ⟨-, old⟩
    · rcases authenticates stands with arrived | stood
      · rw [removing.linked.waiting at' x call found arrived called]
        trivial
      · exact removing.barren kicked at' x call found stood called name
    · exact removing.barren kicked at' y call old stands called name
  · refine marked_act removing kicked (fun ends => ?_) found acted fun named => ?_
    · subst ends same
      exact orderly.marks index rfl kicked x found
    · have named : x.user = username := user.symm.trans named
      have held := removing.marked kicked x (List.mem_of_getElem? found) named
      have shut : admitting x = false := held.1
      refine ⟨Bool.eq_false_iff.mpr fun admitting' => ?_, fun opened => ⟨named, ?_, ?_⟩⟩
      · exact absurd (admits admitting') (by simp [shut])
      · exact (opens opened).resolve_right (by simp [shut])
      · rintro rfl
        cases Proxy.acted_of_act acted with
        | unregister stood => cases opened

theorem removing_checkExt {now : Int} {res : CheckResult} {x x' : Proxy.Stream} {t' : ConnTracker}
    (removing : Removing username s) (checked : checkResult s index now = some res)
    (found : s.proxy.streams[index]? = some x)
    (acted : x.act s.proxy.tracker (.checkExt res) = some (t', x'))
    (booked : Proxy.Sys.Booked { s.proxy with
      tracker := t', streams := s.proxy.streams.set index x' }) :
    Removing username { s with proxy := { s.proxy with
      tracker := t', streams := s.proxy.streams.set index x' } } := by
  refine ⟨linked_act removing.linked found acted, booked, removing.gone, fun kicked => ?_,
    fun kicked => ?_, removing.uncached⟩
  · intro at' y call reads stands called name
    rcases pool_get_set found reads with ⟨rfl, rfl⟩ | ⟨-, old⟩
    · cases Proxy.acted_of_act acted with
      | checkExt res stood => exact removing.barren kicked at' x call found stood called name
    · exact removing.barren kicked at' y call old stands called name
  · refine marked_act removing kicked (fun ends => ?_) found acted fun named => ?_
    · cases ends
    cases Proxy.acted_of_act acted with
    | checkExt res stood =>
      have named : res.username = username := named
      have denied : res.deny ≠ .none := by
        intro granted
        obtain ⟨password, user, entry, given, -⟩ := checkResult_granted checked granted
        exact not_granted removing kicked found stood (named ▸ given) checked granted
      simp only [admitting, Proxy.Stream.opened, Proxy.Stream.afterAuth]
      split_ifs with refused nobody
      · exact ⟨rfl, fun opened => by cases opened⟩
      · exact ⟨rfl, fun opened => by cases opened⟩
      · exact absurd ⟨nobody, denied⟩ refused

theorem removing_lookup {now : Int} {fails : Bool} {x : Proxy.Stream} {call : Lookup.Call}
    {cache : Cache} {phase : LookupPhase} (orderly : Orderly username s (.lookup index now fails))
    (removing : Removing username s)
    (found : s.proxy.streams[index]? = some x) (stood : x.phase = .authenticating)
    (reads : s.auth.calls[index]? = some call)
    (advanced : call.advance ttl s.auth.store s.auth.cache now fails = some (cache, phase))
    (linked : Linked { s with auth := { s.auth with
      cache, calls := s.auth.calls.set index { call with phase } } }) :
    Removing username { s with auth := { s.auth with
      cache, calls := s.auth.calls.set index { call with phase } } } := by
  -- what the lookup does if it is one of the user
  have own : s.deletion.afterKick = true → call.username = username →
      Barren phase ∧ (cache = s.auth.cache ∨ cacheServes cache username = none) := by
    rintro kicked rfl
    have begun : s.deletion.begun = true := by
      cases stage : s.deletion <;> simp [stage, Deletion.afterKick, Deletion.begun] at kicked ⊢
    have absent : asksPassword call.phase = true → s.auth.store.lookup call.username = none := by
      intro asks
      cases backend : s.file with
      | none => simpa [Sys.adminStore, backend] using removing.gone begun
      | some file => exact orderly.source kicked (by rw [backend]; rfl) index rfl call reads rfl asks
    refine barren_advance absent (fun first => ?_)
      (removing.barren kicked index x call found stood reads rfl) advanced
    cases stage : s.deletion with
    | kicked => exact orderly.cache index rfl stage call reads rfl first
    | done => exact removing.uncached stage
    | pending => simp [stage, Deletion.afterKick] at kicked
    | notFound => simp [stage, Deletion.afterKick] at kicked
    | deleted => simp [stage, Deletion.afterKick] at kicked
  refine ⟨linked, removing.booked, removing.gone, fun kicked => ?_, removing.marked,
    fun done => ?_⟩
  · intro at' y later reads' stands called name
    rcases pool_get_set reads called with ⟨rfl, rfl⟩ | ⟨-, old⟩
    · exact (own kicked name).1
    · exact removing.barren kicked at' y later reads' stands old name
  · have done : s.deletion = .done := done
    have before := removing.uncached done
    by_cases name : call.username = username
    · rcases (own (by rw [done]; rfl) name).2 with rfl | unserved
      · exact before
      · exact unserved
    · exact (cacheServes_advance name advanced).trans before

theorem cacheServes_none {cache cache' : Cache} (before : cacheServes cache username = none)
    (less : ∀ entry, cache'.lookup username = some entry → cache.lookup username = some entry) :
    cacheServes cache' username = none := by
  cases found : cache'.lookup username with
  | none => rw [cacheServes, found, Option.bind_none]
  | some entry => rwa [cacheServes, found, ← less entry found]

theorem removing_auth {event : Lookup.Event} {auth : Lookup.Sys}
    (orderly : Orderly username s (.auth event)) (removing : Removing username s)
    (only : authOnly event = true) (moved : Lookup.step ttl s.auth event = some auth)
    (linked : Linked { s with auth }) : Removing username { s with auth } := by
  cases event with
  | call name => cases only
  | advance index now fails => cases only
  | storeWrite name row => cases only
  | invalidate name =>
    cases moved
    refine ⟨linked, removing.booked, removing.gone, removing.barren, removing.marked, fun done =>
      cacheServes_none (removing.uncached done) fun entry found => ?_⟩
    have found : (s.auth.cache.erase name).lookup username = some entry := found
    rw [GoMap.lookup_erase_ite, Option.ite_none_left_eq_some] at found
    exact found.2
  | invalidateAll =>
    cases moved
    exact ⟨linked, removing.booked, removing.gone, removing.barren, removing.marked, fun _ => rfl⟩
  | evict now =>
    cases moved
    exact ⟨linked, removing.booked, removing.gone, removing.barren, removing.marked, fun done =>
      cacheServes_none (removing.uncached done) fun entry found => Lookup.lookup_evict found⟩

theorem removing_kick (orderly : Orderly username s .delete) (removing : Removing username s)
    (stage : s.deletion = .deleted) {proxy : Proxy.Sys}
    (kicked : Proxy.step s.proxy (.kickUser username "Account deleted") = some proxy)
    (linked : Linked { s with proxy, deletion := .kicked }) :
    Removing username { s with proxy, deletion := .kicked } := by
  have booked := Proxy.booked_step removing.booked kicked
  cases kicked
  have settled := orderly.kick rfl stage
  have pair : ∀ (index : Nat) (x : Proxy.Stream) (call : Lookup.Call),
      s.proxy.streams[index]? = some x → s.auth.calls[index]? = some call →
        Settled username x call := fun index x call found called =>
    settled (x, call) (List.mem_of_getElem? (List.getElem?_zip_eq_some.mpr ⟨found, called⟩))
  refine ⟨linked, booked, fun _ => removing.gone (by rw [stage]; rfl), fun _ => ?_, fun _ => ?_, nofun⟩
  · intro index x call found stood called name
    exact (pair index x call found called).1 stood name
  · intro x member user
    obtain ⟨index, found⟩ := List.mem_iff_getElem?.mp member
    obtain ⟨inside, -⟩ := List.getElem?_eq_some_iff.mp found
    have found : s.proxy.streams[index]? = some x := found
    have called : index < s.auth.calls.length := removing.linked.calls ▸ inside
    obtain ⟨shut, raw⟩ := (pair index x _ found (List.getElem?_eq_getElem called)).2 user
    refine ⟨shut, fun opened => ?_⟩
    obtain ⟨conn, raw⟩ := Option.isSome_iff_exists.mp (raw opened)
    refine ⟨conn, raw, ?_⟩
    have listed : conn ∈ s.proxy.tracker.conns username :=
      (removing.booked.conns username).mem_iff.mpr
        (Proxy.mem_openConns.mpr ⟨x, List.mem_of_getElem? found, opened, user, raw⟩)
    show ((s.proxy.tracker.kickUser username "Account deleted").1.revoked.lookup conn).isSome
    rw [ConnTracker.revoked_kickUser, if_pos listed]
    rfl

theorem removing_setAdminStore {store : Store} (removing : Removing username s)
    (linked : Linked (s.setAdminStore store))
    (absent : s.deletion.begun = true → store.lookup username = none) :
    Removing username (s.setAdminStore store) := by
  refine ⟨linked, by simpa using removing.booked, fun begun => ?_, ?_, ?_, ?_⟩
  · rw [adminStore_setAdminStore]
    exact absent (by simpa using begun)
  · simpa using removing.barren
  · simpa using removing.marked
  · simpa using removing.uncached

theorem removing_step {event : Event} (orderly : Orderly username s event)
    (removing : Removing username s) (taken : step ttl username s event = some next) :
    Removing username next := by
  have linked := linked_step removing.linked taken
  cases event with
  | arrive conn http1 header =>
    cases step_arrive taken
    have streams : ∀ y ∈ s.proxy.streams ++ [{ conn := conn, http1 := http1 }],
        y ∈ s.proxy.streams ∨ y = { conn := conn, http1 := http1 } := fun y member => by simpa using member
    refine ⟨linked, ⟨fun user => ?_, removing.booked.entry⟩, removing.gone, fun kicked => ?_,
      fun kicked y member user => ?_, removing.uncached⟩
    · rw [Proxy.openConns_arrive]
      exact removing.booked.conns user
    · intro index y call reads stands called name
      rcases pool_get_append called with old | ⟨-, rfl⟩
      · rcases pool_get_append reads with old' | ⟨-, rfl⟩
        · exact removing.barren kicked index y call old' stands old name
        · cases stands
      · trivial
    · rcases streams y member with old | rfl
      · exact removing.marked kicked y old user
      · exact ⟨rfl, fun opened => by cases opened⟩
  | lookup index now fails =>
    obtain ⟨x, call, cache, phase, found, stood, reads, advanced, rfl⟩ := step_lookup taken
    exact removing_lookup orderly removing found stood reads advanced linked
  | checkExt index now =>
    obtain ⟨res, proxy, checked, stepped, rfl⟩ := step_checkExt taken
    have booked := Proxy.booked_step removing.booked stepped
    obtain ⟨x, t', x', found, acted, rfl⟩ := Proxy.step_act stepped
    exact removing_checkExt removing checked found acted booked
  | proxy event =>
    obtain ⟨only, proxy, moved, rfl⟩ := step_proxy taken
    have booked := Proxy.booked_step removing.booked moved
    rcases proxyOnly_cases only moved with ⟨index, action, x, t', x', same, other, found, acted, rfl⟩ |
      ⟨outer, same⟩
    · exact removing_act orderly removing same other found acted booked
    · refine ⟨linked, booked, removing.gone, fun kicked => ?_, fun kicked y member user => ?_,
        removing.uncached⟩
      · simp only [same]
        exact removing.barren kicked
      · have held := removing.marked kicked y (same ▸ member) user
        refine ⟨held.1, fun opened => ?_⟩
        obtain ⟨conn, raw, marked⟩ := held.2 opened
        exact ⟨conn, raw, outer.revoked conn marked⟩
  | auth event =>
    obtain ⟨only, auth, moved, rfl⟩ := step_auth taken
    exact removing_auth orderly removing only moved linked
  | write name row =>
    obtain ⟨store, rfl, rows⟩ := step_write taken
    refine removing_setAdminStore removing linked fun begun => ?_
    cases row with
    | none => rw [rows, Option.elim_none, GoMap.lookup_erase_ite, removing.gone begun, ite_self]
    | some row =>
      rw [rows, Option.elim_some, AList.lookup_insert_ne (Ne.symm (orderly.store name rfl begun))]
      exact removing.gone begun
  | reload users =>
    obtain ⟨backend, rfl⟩ := step_reload taken
    obtain ⟨file, backend⟩ := Option.isSome_iff_exists.mp backend
    refine ⟨linked, removing.booked, fun begun => ?_, removing.barren, removing.marked, removing.uncached⟩
    simpa [Sys.adminStore, backend] using removing.gone begun
  | delete =>
    simp only [step] at taken
    split at taken
    · next stage =>
      split at taken <;> cases taken
      · refine ⟨linked, by simpa using removing.booked, fun _ => ?_, ?_, ?_, ?_⟩
        · exact (congrArg (AList.lookup username) (adminStore_setAdminStore s _)).trans (AList.lookup_erase ..)
        all_goals rintro ⟨⟩
      · refine ⟨linked, removing.booked, ?_, ?_, ?_, ?_⟩ <;> rintro ⟨⟩
    · next stage =>
      obtain ⟨proxy, kicked, rfl⟩ := Option.map_eq_some_iff.mp taken
      exact removing_kick orderly removing stage kicked linked
    · next stage =>
      cases taken
      refine ⟨linked, removing.booked, fun _ => removing.gone (by rw [stage]; rfl),
        fun _ => removing.barren (by rw [stage]; rfl), fun _ => removing.marked (by rw [stage]; rfl),
        fun _ => ?_⟩
      show ((s.auth.cache.erase username).lookup username).bind CacheEntry.served = none
      rw [AList.lookup_erase, Option.bind_none]
    · cases taken
    · cases taken

/-- **Account removal is complete** in every orderly run: in each state after the `DELETE` handler has
answered, the open streams of the user are on revoked connections, and `CheckExt` refuses them. -/
theorem removed_of_orderly {store : Store} {file : Option Store} {events : List Event}
    (reached : run (step ttl username) (.initial store file) events = some s)
    (orderly : Along (step ttl username) (Orderly username) (.initial store file) events)
    (done : s.deletion = .done) : Removed username s := by
  have removing : Removing username s :=
    run_invariant (fun _ _ _ orderly removing taken => removing_step orderly removing taken)
      orderly (removing_initial store file) reached
  have kicked : s.deletion.afterKick = true := by rw [done]; rfl
  exact ⟨fun x member opened user => (removing.marked kicked x member user).2 opened,
    fun index now x password res found stood given checked =>
      not_granted removing kicked found stood given checked⟩

/-! ### A request between the kick and `Invalidate` -/

def aliceStore : Store := (∅ : Store).insert "alice" ⟨"pw", 0, ⟨true, 0, 0, 0⟩⟩

/-- A request of alice arrives and passes `IsRevoked`. -/
def asks (index : Nat) (conn : NetConn) : List Event :=
  [.arrive conn false "Basic YWxpY2U6cHc=", .proxy (.act index .isRevoked)]

/-- A lookup that asks the store. -/
def looksUp (index : Nat) (now : Int) : List Event :=
  [.lookup index now false, .lookup index now false, .lookup index now false,
    .lookup index now false, .lookup index now false]

def enters (index : Nat) (now : Int) : List Event :=
  [.checkExt index now, .proxy (.act index .isKnown), .proxy (.act index .register)]

/-- A connection of alice is open and their entry is cached; the row is deleted and they are kicked;
a second connection is served from the cache; then the cache is invalidated. -/
def lateRequest : List Event :=
  asks 0 laptop ++ looksUp 0 1 ++ enters 0 1 ++ [.delete, .delete] ++
    asks 1 phone ++ [.lookup 1 2 false] ++ enters 1 2 ++ [.delete]

/-- **An account that is not removed**: the answer is sent, and the second connection is open for
alice and not revoked. -/
theorem removal_incomplete :
    ∃ s, run (step 30 "alice") (.initial aliceStore none) lateRequest = some s ∧ s.deletion = .done ∧
      s.proxy.streams[1]? = some ⟨phone, "alice", 0, .registered, .idle, .idle, false⟩ ∧
      s.proxy.tracker.isRevoked phone = none ∧ ¬ Removed "alice" s := by
  refine ⟨_, rfl, by decide, by decide, by decide, fun removed => ?_⟩
  obtain ⟨conn, raw, marked⟩ := removed.streams ⟨phone, "alice", 0, .registered, .idle, .idle, false⟩
    (by decide) rfl rfl
  cases raw
  exact absurd marked (by decide)

/-- With the file backend: the second request comes after `Invalidate`, and asks the store once it has loaded
the file again. -/
def nextRequest : List Event :=
  asks 0 laptop ++ looksUp 0 1 ++ enters 0 1 ++ [.delete, .delete, .delete] ++
    asks 1 phone ++ [.lookup 1 2 false, .reload ∅, .lookup 1 2 false, .lookup 1 2 false]

theorem removed_nextRequest :
    ∃ s, run (step 30 "alice") (.initial aliceStore aliceStore) nextRequest = some s ∧
      Along (step 30 "alice") (Orderly "alice") (.initial aliceStore aliceStore) nextRequest ∧
      s.deletion = .done ∧ (Proxy.openConns "alice" s.proxy.streams) = [laptop] ∧
      checkResult s 1 3 = some { deny := .badCreds } ∧ Removed "alice" s :=
  ⟨_, rfl, by decide, by decide, by decide, by decide,
    removed_of_orderly
      (show run (step 30 "alice") (.initial aliceStore aliceStore) nextRequest = some _ from rfl)
      (by decide) (by decide)⟩

end Ttgo.Endpoint

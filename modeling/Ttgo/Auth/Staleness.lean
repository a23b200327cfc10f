/-
**How old an answer of the cache can be.**

`CheckExt` answers from the cache until an entry runs out. Here calls of `CheckExt`, `Invalidate` and `InvalidateAll`
and ticks of `evictLoop` come one after the other, and rows and clocks change in between. An entry runs out by the
monotonic clock, which only advances; the expiry of an account is compared with the wall clock, which is set at will.

* `plainCheck` — the decision without a cache, on the values of the store.
* `Sys`, `Event`, `step` — the authenticator, its store and the monotonic clock.
* `written` — the entry that a lookup writes; `checkFound_written` — it decides as `plainCheck` does.
* `Backed`, `backed_run` — every entry was written from the store of one moment of the run.
* `checkExt_stale_lt_ttl` — `CheckExt` decides as `plainCheck` on the store of one moment less than the TTL ago, and
  on the current one after `Invalidate`.
-/

import Ttgo.Auth.Lookup

namespace Ttgo.Auth.Staleness

open Ttgo.Lib

/-! ### Without a cache -/

/-- The optional interfaces that the store implements. -/
structure Interfaces where
  deviceLimit : Bool
  lifecycle : Bool
deriving DecidableEq, Repr

/-- What the store says about a user, with no call failing. -/
def Interfaces.answers (has : Interfaces) (store : Store) (username : String) : Answers :=
  store.answers ⟨false, !has.deviceLimit, !has.lifecycle⟩ username

/-- The lifecycle checks on the values themselves. -/
def lifecycleDeny (lifecycle : Lifecycle) (wall : Int) : DenyReason :=
  if lifecycle.enabled = false then .disabled
  else if 0 < lifecycle.expiresAt ∧ lifecycle.expiresAt ≤ unix wall then .expired
  else if 0 < lifecycle.trafficLimit ∧ lifecycle.trafficLimit ≤ lifecycle.trafficUsed then .trafficLimit
  else .none

/-- The decision on a username and a password, from the values of the store. -/
def plainDecide (has : Interfaces) (store : Store) (username : String) (password : List UInt8)
    (wall : Int) : CheckResult :=
  if store.getPassword username = "" ∨ password ≠ bytesOf (store.getPassword username) then
    { deny := .badCreds }
  else
    match if has.lifecycle then lifecycleDeny (store.getLifecycle username) wall else .none with
    | .none => { username, maxDevices := if has.deviceLimit then store.getMaxDevices username else 0 }
    | deny => { username, deny }

/-- **The decision without a cache.** -/
def plainCheck (has : Interfaces) (store : Store) (header : String) (wall : Int) : CheckResult :=
  match parseBasic header with
  | none => { deny := .badCreds }
  | some (username, password) => plainDecide has store username password wall

/-! ### The system -/

structure Sys where
  store : Store
  auth : Authenticator
  /-- The monotonic clock, in nanoseconds. -/
  now : Int

def Sys.initial (store : Store) (cacheTTL now : Int) : Sys := ⟨store, new cacheTTL, now⟩

inductive Event
  /-- A row is written, or deleted. -/
  | storeWrite (username : String) (row : Option Row)
  /-- The monotonic clock advances. -/
  | advance (nanoseconds : Nat)
  /-- A `CheckExt`, with the wall clock that it reads. -/
  | checkExt (header : String) (wall : Int)
  | invalidate (username : String)
  | invalidateAll
  /-- A tick of `evictLoop`. -/
  | evict
deriving DecidableEq, Repr

/-- The clock readings of a `CheckExt`: its lookup is one instant. -/
def Sys.clock (s : Sys) (wall : Int) : Clock := ⟨s.now, s.now, wall⟩

/-- `CheckExt` in a state: its result, and the authenticator after it. -/
def Sys.checkExt (has : Interfaces) (s : Sys) (header : String) (wall : Int) :
    CheckResult × Authenticator :=
  Auth.checkExt s.auth header (has.answers s.store) (s.clock wall)

def step (has : Interfaces) (s : Sys) : Event → Option Sys
  | .storeWrite username (some row) => some { s with store := s.store.insert username row }
  | .storeWrite username none => some { s with store := s.store.erase username }
  | .advance nanoseconds => some { s with now := s.now + nanoseconds }
  | .checkExt header wall => some { s with auth := (s.checkExt has header wall).2 }
  | .invalidate username => some { s with auth := { s.auth with cache := invalidate s.auth.cache username } }
  | .invalidateAll => some { s with auth := { s.auth with cache := ∅ } }
  | .evict => some { s with auth := { s.auth with cache := evict s.auth.cache s.now } }

/-- The user that a `CheckExt` looks up. -/
def Event.looksUp : Event → Option String
  | .checkExt header _ => (parseBasic header).map Prod.fst
  | _ => none

variable {has : Interfaces} {s next : Sys} {event : Event} {username : String}

/-! ### What a lookup writes -/

/-- The entry that a lookup writes at a moment. -/
def written (has : Interfaces) (store : Store) (ttl now : Int) (username : String) : CacheEntry :=
  if store.getPassword username = "" then { notFound := true, cacheExpiresAt := now + ttl }
  else
    let out : CacheEntry :=
      { password := store.getPassword username
        maxDevices := if has.deviceLimit then store.getMaxDevices username else 0 }
    { if has.lifecycle then out.withLifecycle (store.getLifecycle username) else out with
      cacheExpiresAt := now + ttl }

theorem written_cacheExpiresAt (has : Interfaces) (store : Store) (ttl now : Int) (username : String) :
    (written has store ttl now username).cacheExpiresAt = now + ttl := by
  unfold written
  split <;> rfl

theorem askStore_eq (a : Authenticator) (store : Store) (hit : Option CacheEntry) (now : Int) :
    askStore a username hit (has.answers store username) now =
      ((written has store a.ttl now username).served,
        { a with cache := a.cache.insert username (written has store a.ttl now username) }) := by
  obtain ⟨deviceLimit, lifecycle⟩ := has
  by_cases absent : store.getPassword username = ""
  · simp [askStore, Interfaces.answers, Store.answers, written, absent, CacheEntry.served]
  · cases deviceLimit <;> cases lifecycle <;>
      simp [askStore, Interfaces.answers, Store.answers, written, absent, CacheEntry.served,
        CacheEntry.withLifecycle]

theorem checkEntry_eq (password : List UInt8) (entry : CacheEntry) (wall : Int) :
    checkEntry username password entry wall =
      if password ≠ bytesOf entry.password then { deny := .badCreds }
      else
        match if entry.hasLifecycle then lifecycleDeny
            ⟨entry.enabled, entry.expiresAt, entry.trafficLimit, entry.trafficUsed⟩ wall else .none with
        | .none => { username, maxDevices := entry.maxDevices }
        | deny => { username, deny } := by
  unfold checkEntry lifecycleDeny
  by_cases right : password = bytesOf entry.password
  · cases hasLifecycle : entry.hasLifecycle with
    | false => simp [right]
    | true =>
      simp only [right, ne_eq, not_true_eq_false, if_false, true_and, if_true]
      split
      · rfl
      · split
        · rfl
        · split <;> rfl
  · rw [if_pos right, if_pos right]

/-- **An entry decides as the store did when it was written**, with the expiry against the clock of the call. -/
theorem checkFound_written (store : Store) (ttl now wall : Int) (password : List UInt8) :
    checkFound username password (written has store ttl now username).served wall =
      plainDecide has store username password wall := by
  by_cases absent : store.getPassword username = ""
  · simp [written, plainDecide, absent, CacheEntry.served, checkFound]
  · have found : (written has store ttl now username).served = some (written has store ttl now username) := by
      unfold written
      rw [if_neg absent]
      cases has.lifecycle <;> rfl
    rw [found, checkFound, checkEntry_eq]
    unfold written plainDecide
    cases has.lifecycle <;> simp [absent, CacheEntry.withLifecycle]

theorem checkExt_asks {header : String} {password : List UInt8} (wall : Int)
    (parsed : parseBasic header = some (username, password))
    (ranOut : ∀ entry, s.auth.cache.lookup username = some entry → entry.cacheExpiresAt ≤ s.now) :
    s.checkExt has header wall =
      (plainDecide has s.store username password wall,
        { s.auth with cache :=
            s.auth.cache.insert username (written has s.store s.auth.ttl s.now username) }) := by
  unfold Sys.checkExt checkExt lookupEntry
  simp only [parsed, Sys.clock]
  cases hit : s.auth.cache.lookup username with
  | none =>
    simp only [askStore_eq]
    rw [checkFound_written]
  | some entry =>
    simp only [if_neg (Int.not_lt.mpr (ranOut entry hit)), askStore_eq]
    rw [checkFound_written]

theorem checkExt_served {header : String} {password : List UInt8} {entry : CacheEntry} (wall : Int)
    (parsed : parseBasic header = some (username, password))
    (hit : s.auth.cache.lookup username = some entry) (fresh : s.now < entry.cacheExpiresAt) :
    s.checkExt has header wall = (checkFound username password entry.served wall, s.auth) := by
  have served : lookupEntry s.auth username (has.answers s.store username) s.now s.now =
      (entry.served, s.auth) := by
    unfold lookupEntry
    rw [hit]
    exact if_pos fresh
  simp only [Sys.checkExt, checkExt, parsed, Sys.clock, served]

/-! ### Runs -/

theorem lookup_step {entry : CacheEntry} (taken : step has s event = some next)
    (found : next.auth.cache.lookup username = some entry) :
    s.auth.cache.lookup username = some entry ∨
      event.looksUp = some username ∧ entry = written has s.store s.auth.ttl s.now username := by
  cases event with
  | storeWrite user row => cases row <;> (cases taken; exact .inl found)
  | advance nanoseconds =>
    cases taken
    exact .inl found
  | checkExt header wall =>
    cases taken
    cases parsed : parseBasic header with
    | none =>
      simp only [Sys.checkExt, checkExt, parsed] at found
      exact .inl found
    | some credentials =>
      obtain ⟨user, password⟩ := credentials
      by_cases served : ∃ cached, s.auth.cache.lookup user = some cached ∧ s.now < cached.cacheExpiresAt
      · obtain ⟨cached, hit, fresh⟩ := served
        rw [checkExt_served wall parsed hit fresh] at found
        exact .inl found
      · rw [checkExt_asks wall parsed fun cached hit => Int.not_lt.mp fun fresh => served ⟨cached, hit, fresh⟩,
          GoMap.lookup_insert_ite] at found
        split at found
        · next own =>
          cases found
          exact .inr ⟨by simp [Event.looksUp, parsed, own], by rw [own]⟩
        · exact .inl found
  | invalidate user =>
    cases taken
    simp only [invalidate, GoMap.lookup_erase_ite] at found
    split at found
    · cases found
    · exact .inl found
  | invalidateAll =>
    cases taken
    cases found
  | evict =>
    cases taken
    exact .inl (Lookup.lookup_evict found)

theorem ttl_step (taken : step has s event = some next) : next.auth.ttl = s.auth.ttl := by
  cases event with
  | storeWrite user row => cases row <;> (cases taken; rfl)
  | checkExt header wall =>
    cases taken
    unfold Sys.checkExt checkExt lookupEntry
    split
    · rfl
    · dsimp only
      split
      · rw [askStore_eq]
      · split
        · rfl
        · rw [askStore_eq]
  | _ =>
    cases taken
    rfl

theorem now_step (taken : step has s event = some next) : s.now ≤ next.now := by
  cases event with
  | storeWrite user row => cases row <;> (cases taken; exact le_refl _)
  | advance nanoseconds =>
    cases taken
    exact Int.le_add_of_nonneg_right (Int.natCast_nonneg _)
  | _ =>
    cases taken
    exact le_refl _

/-- `m` is a moment of the run. -/
def Moment (has : Interfaces) (start : Sys) (events : List Event) (m : Sys) : Prop :=
  ∃ before after, events = before ++ after ∧ run (step has) start before = some m

/-- **Every entry was written from the store of one moment of the run.** -/
def Backed (has : Interfaces) (start : Sys) (events : List Event) (s : Sys) : Prop :=
  ∀ username entry, s.auth.cache.lookup username = some entry →
    ∃ m, Moment has start events m ∧ m.now ≤ s.now ∧
      entry = written has m.store start.auth.ttl m.now username

theorem backed_run {start : Sys} (empty : start.auth.cache = ∅) {events : List Event}
    (reached : run (step has) start events = some s) :
    s.auth.ttl = start.auth.ttl ∧ Backed has start events s := by
  have kept : ∀ events middle event next, run (step has) start events = some middle →
      middle.auth.ttl = start.auth.ttl ∧ Backed has start events middle →
      step has middle event = some next →
      next.auth.ttl = start.auth.ttl ∧ Backed has start (events ++ [event]) next := by
    rintro events middle event next halfway ⟨ttl, backed⟩ taken
    refine ⟨(ttl_step taken).trans ttl, fun username entry found => ?_⟩
    rcases lookup_step taken found with kept | ⟨-, wrote⟩
    · obtain ⟨m, ⟨before, after, split, stood⟩, earlier, wrote⟩ := backed username entry kept
      refine ⟨m, ⟨before, after ++ [event], ?_, stood⟩, earlier.trans (now_step taken), wrote⟩
      rw [split, List.append_assoc]
    · exact ⟨middle, ⟨events, [event], rfl, halfway⟩, now_step taken, ttl ▸ wrote⟩
  have none : Backed has start [] start := by
    intro username entry found
    rw [empty] at found
    cases found
  have both := run_history kept ⟨rfl, none⟩ reached
  exact both

theorem absent_run {between : List Event} (unasked : ∀ event ∈ between, event.looksUp ≠ some username) :
    ∀ {s final : Sys}, s.auth.cache.lookup username = none → run (step has) s between = some final →
      final.auth.cache.lookup username = none := by
  induction between with
  | nil =>
    rintro s final absent ⟨⟩
    exact absent
  | cons event between ih =>
    intro s final absent ran
    obtain ⟨next, taken, rest⟩ := run_cons_eq_some.mp ran
    refine ih (fun later member => unasked later (List.mem_cons_of_mem event member)) ?_ rest
    rw [Option.eq_none_iff_forall_ne_some]
    intro entry found
    rcases lookup_step taken found with kept | ⟨asked, -⟩
    · rw [absent] at kept
      cases kept
    · exact unasked event List.mem_cons_self asked

/-- **The staleness of the cache is bounded.** With a positive TTL, after any run, every `CheckExt` decides as it
would without a cache on the store of one moment of the run that is less than the TTL ago, with the wall clock of the
call. After `Invalidate`, the next one for that user decides on the current store. -/
theorem checkExt_stale_lt_ttl {store : Store} {cacheTTL start : Int} (positive : 0 < cacheTTL)
    {events : List Event} (reached : run (step has) (.initial store cacheTTL start) events = some s)
    (header : String) (wall : Int) :
    (∃ m, Moment has (.initial store cacheTTL start) events m ∧ s.now - cacheTTL < m.now ∧ m.now ≤ s.now ∧
      (s.checkExt has header wall).1 = plainCheck has m.store header wall) ∧
    ∀ before between username password, events = before ++ .invalidate username :: between →
      (∀ event ∈ between, event.looksUp ≠ some username) →
      parseBasic header = some (username, password) →
        (s.checkExt has header wall).1 = plainCheck has s.store header wall := by
  have ttl : (Sys.initial store cacheTTL start).auth.ttl = cacheTTL := if_neg positive.ne'
  have current : Moment has (.initial store cacheTTL start) events s :=
    ⟨events, [], (List.append_nil _).symm, reached⟩
  constructor
  · cases parsed : parseBasic header with
    | none =>
      refine ⟨s, current, by omega, le_refl _, ?_⟩
      simp only [Sys.checkExt, checkExt, plainCheck, parsed]
    | some credentials =>
      obtain ⟨username, password⟩ := credentials
      by_cases served : ∃ entry, s.auth.cache.lookup username = some entry ∧ s.now < entry.cacheExpiresAt
      · obtain ⟨entry, hit, fresh⟩ := served
        obtain ⟨m, moment, earlier, rfl⟩ := (backed_run rfl reached).2 username entry hit
        have age := fresh
        rw [written_cacheExpiresAt, ttl] at age
        refine ⟨m, moment, by omega, earlier, ?_⟩
        rw [checkExt_served wall parsed hit fresh, checkFound_written, plainCheck, parsed]
      · refine ⟨s, current, by omega, le_refl _, ?_⟩
        rw [checkExt_asks wall parsed fun entry hit => Int.not_lt.mp fun fresh => served ⟨entry, hit, fresh⟩,
          plainCheck, parsed]
  · rintro before between username password rfl unasked parsed
    obtain ⟨middle, -, rest⟩ := run_append_eq_some.mp reached
    obtain ⟨next, taken, after⟩ := run_cons_eq_some.mp rest
    have erased : next.auth.cache.lookup username = none := by
      cases taken
      exact AList.lookup_erase username middle.auth.cache
    have absent := absent_run unasked erased after
    rw [checkExt_asks wall parsed, plainCheck, parsed]
    intro entry found
    rw [absent] at found
    cases found

/-- The header of `alice` with the password `pw`. -/
def alicePw : String := "Basic YWxpY2U6cHc="

/-- A user logs in, and is deleted five nanoseconds later. -/
def deletedUser : List Event := [.checkExt alicePw 0, .storeWrite "alice" none, .advance 5]

theorem checkExt_stale_deleted :
    ∃ s, run (step ⟨true, true⟩) (.initial ((∅ : Store).insert "alice" ⟨"pw", 2, ⟨true, 0, 0, 0⟩⟩) 10 0)
        deletedUser = some s ∧
      (s.checkExt ⟨true, true⟩ alicePw 0).1 = { username := "alice", maxDevices := 2 } ∧
      (plainCheck ⟨true, true⟩ s.store alicePw 0).deny = .badCreds ∧
      ∃ m, Moment ⟨true, true⟩ (.initial ((∅ : Store).insert "alice" ⟨"pw", 2, ⟨true, 0, 0, 0⟩⟩) 10 0)
          deletedUser m ∧ s.now - 10 < m.now ∧ m.now ≤ s.now ∧
        (s.checkExt ⟨true, true⟩ alicePw 0).1 = plainCheck ⟨true, true⟩ m.store alicePw 0 :=
  ⟨_, rfl, by decide +kernel, by decide +kernel,
    (checkExt_stale_lt_ttl (by decide) (show run _ _ deletedUser = some _ from rfl) alicePw 0).1⟩

end Ttgo.Auth.Staleness

/-
**Concurrent lookups and `Invalidate`.**

Any number of `lookupEntry` calls run over one cache and one store. A call gives up the cache lock
between its steps: it reads the cache, asks the store up to three times, and writes the cache. In
between, rows change, other calls step, and an administrator calls `Invalidate`.

* `Sys`, `Event`, `step` — the system; `advance index now fails` is the next step of a call, at a clock
  reading, with a failing store where it asks one.
* `lookup_alone` — a call that nothing interferes with is `lookupEntry`.
* `lookup_evictKey`, `lookup_evict` — what `evictLoop` leaves in the cache.
-/

import Ttgo.Lib.Run
import Ttgo.Lib.Pool
import Ttgo.Auth.Store

namespace Ttgo.Auth.Lookup

open Ttgo.Lib

/-- A running `lookupEntry`. -/
structure Call where
  username : String
  phase : LookupPhase
deriving DecidableEq, Repr

structure Sys where
  store : Store
  cache : Cache
  calls : List Call
deriving DecidableEq

inductive Event
  /-- A row is written, or deleted. -/
  | storeWrite (username : String) (row : Option Row)
  /-- A `CheckExt` for the user starts its lookup. -/
  | call (username : String)
  /-- The next step of a lookup. -/
  | advance (index : Nat) (now : Int) (fails : Bool)
  | invalidate (username : String)
  | invalidateAll
  /-- A tick of `evictLoop`. -/
  | evict (now : Int)
deriving DecidableEq, Repr

/-- What a read gives: nothing if it fails. -/
def answer {α : Type} (fails : Bool) (value : α) : Option α := if fails then none else some value

/-- One step of one lookup: the cache, and where the lookup stands, after it. -/
def Call.advance (ttl : Int) (store : Store) (cache : Cache) (call : Call) (now : Int)
    (fails : Bool) : Option (Cache × LookupPhase) :=
  match call.phase with
  | .readCache => some (cache, afterCache (cache.lookup call.username) now)
  | .getPassword hit =>
    some (cache, afterPassword ttl hit (answer fails (store.getPassword call.username)) now)
  | .getMaxDevices out =>
    some (cache, afterMaxDevices out (answer fails (store.getMaxDevices call.username)))
  | .getLifecycle out =>
    some (cache, afterLifecycle ttl out (answer fails (store.getLifecycle call.username)) now)
  | .writeCache out => some (cache.insert call.username out, .returned out.served)
  | .returned _ => none

def step (ttl : Int) (s : Sys) : Event → Option Sys
  | .storeWrite username (some row) => some { s with store := s.store.insert username row }
  | .storeWrite username none => some { s with store := s.store.erase username }
  | .call username => some { s with calls := s.calls ++ [⟨username, .readCache⟩] }
  | .advance index now fails => do
    let call ← s.calls[index]?
    let (cache, phase) ← call.advance ttl s.store s.cache now fails
    return { s with cache, calls := s.calls.set index { call with phase } }
  | .invalidate username => some { s with cache := invalidate s.cache username }
  | .invalidateAll => some { s with cache := ∅ }
  | .evict now => some { s with cache := evict s.cache now }

variable {ttl : Int} {s next : Sys} {username : String}

theorem step_advance {index : Nat} {now : Int} {fails : Bool}
    (taken : step ttl s (.advance index now fails) = some next) :
    ∃ call cache phase, s.calls[index]? = some call ∧
      call.advance ttl s.store s.cache now fails = some (cache, phase) ∧
      next = { s with cache, calls := s.calls.set index { call with phase } } := by
  simp only [step, Option.bind_eq_bind, Option.bind_eq_some_iff, Option.pure_def,
    Option.some.injEq] at taken
  obtain ⟨call, found, ⟨cache, phase⟩, advanced, rfl⟩ := taken
  exact ⟨call, cache, phase, found, advanced, rfl⟩

theorem advance_cache {call : Call} {cache : Cache} {phase : LookupPhase} {now : Int} {fails : Bool}
    (advanced : call.advance ttl s.store s.cache now fails = some (cache, phase)) :
    cache = s.cache ∨ ∃ out, cache = s.cache.insert call.username out := by
  obtain ⟨user, phase₀⟩ := call
  cases phase₀ with
  | writeCache out =>
    cases advanced
    exact .inr ⟨out, rfl⟩
  | returned found => cases advanced
  | readCache => cases advanced; exact .inl rfl
  | getPassword hit => cases advanced; exact .inl rfl
  | getMaxDevices out => cases advanced; exact .inl rfl
  | getLifecycle out => cases advanced; exact .inl rfl

/-! ### A lookup alone -/

def alone (store : Store) (cache : Cache) (username : String) (phase : LookupPhase) : Sys :=
  ⟨store, cache, [⟨username, phase⟩]⟩

theorem step_alone (store : Store) (cache : Cache) (username : String) (phase : LookupPhase)
    (now : Int) (fails : Bool) :
    step ttl (alone store cache username phase) (.advance 0 now fails) =
      (Call.advance ttl store cache ⟨username, phase⟩ now fails).map fun after =>
        alone store after.1 username after.2 := by
  simp only [step, alone, List.getElem?_cons_zero, Option.bind_eq_bind,
    Option.bind_some, List.set_cons_zero, Option.pure_def, Option.map_eq_bind]
  rfl

theorem run_askStore (a : Authenticator) (store : Store) (username : String)
    (hit : Option CacheEntry) (fails : Failures) (now : Int) :
    ∃ events, run (step a.ttl) (alone store a.cache username (.getPassword hit)) events =
      some (alone store (askStore a username hit (store.answers fails username) now).2.cache username
        (.returned (askStore a username hit (store.answers fails username) now).1)) := by
  by_cases failed : fails.password = true
  · refine ⟨[.advance 0 now true], ?_⟩
    simp [run_cons, step_alone, Call.advance, answer, afterPassword, askStore, Store.answers, failed]
  by_cases absent : store.getPassword username = ""
  · refine ⟨[.advance 0 now false, .advance 0 now false], ?_⟩
    simp [run_cons, step_alone, Call.advance, answer, afterPassword, askStore, Store.answers, failed,
      absent, CacheEntry.served]
  · refine ⟨[.advance 0 now false, .advance 0 now fails.maxDevices, .advance 0 now fails.lifecycle,
      .advance 0 now false], ?_⟩
    cases noLimit : fails.maxDevices <;> cases noLifecycle : fails.lifecycle <;>
    simp [run_cons, step_alone, Call.advance, answer, afterPassword, afterMaxDevices,
      afterLifecycle, askStore, Store.answers, failed, absent, noLimit, noLifecycle,
      CacheEntry.served, CacheEntry.withLifecycle]

/-- **A lookup that nothing interferes with is `lookupEntry`.** -/
theorem lookup_alone (a : Authenticator) (store : Store) (username : String) (fails : Failures)
    (nowRead nowWrite : Int) :
    ∃ events, run (step a.ttl) (alone store a.cache username .readCache) events =
      some (alone store
        (lookupEntry a username (store.answers fails username) nowRead nowWrite).2.cache username
        (.returned (lookupEntry a username (store.answers fails username) nowRead nowWrite).1)) := by
  have read : step a.ttl (alone store a.cache username .readCache) (.advance 0 nowRead false) =
      some (alone store a.cache username (afterCache (a.cache.lookup username) nowRead)) := by
    rw [step_alone]
    rfl
  cases hit : a.cache.lookup username with
  | none =>
    obtain ⟨events, asked⟩ := run_askStore a store username none fails nowWrite
    refine ⟨.advance 0 nowRead false :: events, run_cons_eq_some.mpr ⟨_, read, ?_⟩⟩
    simp only [lookupEntry, hit, afterCache]
    exact asked
  | some entry =>
    by_cases fresh : nowRead < entry.cacheExpiresAt
    · refine ⟨[.advance 0 nowRead false], run_cons_eq_some.mpr ⟨_, read, ?_⟩⟩
      simp only [lookupEntry, hit, afterCache, if_pos fresh, run_nil]
    · obtain ⟨events, asked⟩ := run_askStore a store username (some entry) fails nowWrite
      refine ⟨.advance 0 nowRead false :: events, run_cons_eq_some.mpr ⟨_, read, ?_⟩⟩
      simp only [lookupEntry, hit, afterCache, if_neg fresh]
      exact asked

/-! ### Eviction -/

theorem lookup_evictKey {cache : Cache} {now : Int} {first key : String} {entry : CacheEntry}
    (found : (evictKey now cache first).lookup key = some entry) :
    cache.lookup key = some entry := by
  unfold evictKey at found
  split at found
  · exact found
  · split at found
    · rw [GoMap.lookup_erase_ite] at found
      split at found
      · cases found
      · exact found
    · exact found

theorem lookup_evict {cache : Cache} {now : Int} {key : String} {entry : CacheEntry}
    (found : (evict cache now).lookup key = some entry) : cache.lookup key = some entry := by
  unfold evict at found
  generalize cache.keys = keys at found
  induction keys generalizing cache with
  | nil => exact found
  | cons first keys ih => exact lookup_evictKey (ih found)

end Ttgo.Auth.Lookup

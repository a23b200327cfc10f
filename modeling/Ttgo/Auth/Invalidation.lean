/-
**`Invalidate` against slow lookups.**

An administrator writes a row and then calls `Invalidate`. A lookup that asked the store before the
write may still be on its way to the cache: its write comes after the delete, and the old entry is
served until it runs out.

* `asked` — the answer of the store that a step obtains for a user; `Given` — the answers that
  lookups of the user obtained in a run.
* `Gave given entry` — every value of the entry is one of these answers.
* `Drained` — every lookup that held answers when the row was written has returned.
* `lookup_after_invalidate` — after a drained `Invalidate`, a lookup that starts decides from answers
  given at or after the write.
-/

import Ttgo.Auth.Lookup

namespace Ttgo.Auth.Lookup

open Ttgo.Lib

/-! ### Answers of the store -/

/-- An answer of the store; `none` is an error. -/
inductive Answer
  | password (value : Option String)
  | maxDevices (value : Option Int)
  | lifecycle (value : Option Lifecycle)
deriving DecidableEq, Repr

/-- The answer that a lookup gets from the store where it stands. -/
def askedAt (store : Store) (username : String) (fails : Bool) : LookupPhase → Option Answer
  | .getPassword _ => some (.password (answer fails (store.getPassword username)))
  | .getMaxDevices _ => some (.maxDevices (answer fails (store.getMaxDevices username)))
  | .getLifecycle _ => some (.lifecycle (answer fails (store.getLifecycle username)))
  | _ => none

/-- The answer about `username` that a step obtains, if it asks for one. -/
def asked (username : String) (s : Sys) : Event → Option Answer
  | .advance index _ fails =>
    match s.calls[index]? with
    | none => none
    | some call =>
      if call.username = username then askedAt s.store username fails call.phase else none
  | _ => none

/-- The answers that lookups of the user obtained in a run. -/
def Given (ttl : Int) (username : String) (s : Sys) (events : List Event) (value : Answer) : Prop :=
  Occurs (step ttl) (fun s event => asked username s event = some value) s events

/-- The lifecycle that an entry carries, if `GetLifecycle` gave one. -/
def lifecycleOf (entry : CacheEntry) : Option Lifecycle :=
  if entry.hasLifecycle then
    some ⟨entry.enabled, entry.expiresAt, entry.trafficLimit, entry.trafficUsed⟩
  else none

section Given

variable (given : Answer → Prop)

/-- The device limit of an entry is an answer, zero where the read failed. -/
def GaveLimit (out : CacheEntry) : Prop :=
  ∃ value, given (.maxDevices value) ∧ out.maxDevices = value.getD 0

/-- **Every value of the entry is an answer**: a negative entry stands for an empty password. -/
def Gave (entry : CacheEntry) : Prop :=
  given (.password (some entry.password)) ∧
    if entry.notFound then entry.password = ""
    else GaveLimit given entry ∧ given (.lifecycle (lifecycleOf entry))

/-- What a lookup holds is answers. -/
def Backed : LookupPhase → Prop
  | .getMaxDevices out => given (.password (some out.password)) ∧ out = { password := out.password }
  | .getLifecycle out => given (.password (some out.password)) ∧ GaveLimit given out ∧
      out = { password := out.password, maxDevices := out.maxDevices }
  | .writeCache out => Gave given out
  | _ => True

/-- The result of a lookup rests on answers: an entry is made of them, and nobody is found where
`GetPassword` found nobody or failed. -/
def Decides : Option CacheEntry → Prop
  | some entry => entry.notFound = false ∧ Gave given entry
  | none => given (.password none) ∨ given (.password (some ""))

end Given

variable {given : Answer → Prop} {ttl : Int} {s next : Sys} {username : String}

theorem decides_served {entry : CacheEntry} (gave : Gave given entry) :
    Decides given entry.served := by
  unfold CacheEntry.served
  cases negative : entry.notFound with
  | false => exact ⟨negative, gave⟩
  | true =>
    have empty : entry.password = "" := by
      have := gave.2
      rwa [negative, if_pos rfl] at this
    exact .inr (empty ▸ gave.1)

/-! ### One step of a lookup -/

theorem backed_afterPassword {hit : Option CacheEntry} {value : Option String} {now : Int}
    (obtained : given (.password value)) : Backed given (afterPassword ttl hit value now) := by
  unfold afterPassword
  cases value with
  | none => trivial
  | some password =>
    simp only
    split
    · next empty =>
      subst empty
      exact ⟨obtained, rfl⟩
    · exact ⟨obtained, rfl⟩

theorem backed_afterMaxDevices {out : CacheEntry} {value : Option Int}
    (backed : Backed given (.getMaxDevices out)) (obtained : given (.maxDevices value)) :
    Backed given (afterMaxDevices out value) := by
  obtain ⟨password, shape⟩ := backed
  unfold afterMaxDevices
  cases value with
  | none =>
    refine ⟨password, ⟨none, obtained, ?_⟩, ?_⟩ <;> rw [shape]
    rfl
  | some maxDevices =>
    refine ⟨password, ⟨some maxDevices, obtained, rfl⟩, ?_⟩
    rw [shape]

theorem backed_afterLifecycle {out : CacheEntry} {value : Option Lifecycle} {now : Int}
    (backed : Backed given (.getLifecycle out)) (obtained : given (.lifecycle value)) :
    Backed given (afterLifecycle ttl out value now) := by
  obtain ⟨password, limit, shape⟩ := backed
  have found : out.notFound = false := by rw [shape]
  have unset : out.hasLifecycle = false := by rw [shape]
  unfold afterLifecycle
  cases value with
  | none =>
    refine ⟨password, ?_⟩
    show if out.notFound then _ else _
    rw [found]
    refine ⟨limit, ?_⟩
    show given (.lifecycle (if out.hasLifecycle then _ else _))
    rw [unset]
    exact obtained
  | some lifecycle =>
    refine ⟨password, ?_⟩
    show if out.notFound then _ else _
    rw [found]
    exact ⟨limit, obtained⟩

/-- **One step of a backed lookup** whose answer is among the given ones: it stays backed, and what
it writes is made of answers. -/
theorem advance_backed {call : Call} {cache : Cache} {phase : LookupPhase} {now : Int} {fails : Bool}
    (advanced : call.advance ttl s.store s.cache now fails = some (cache, phase))
    (obtained : ∀ value, askedAt s.store call.username fails call.phase = some value →
      given value)
    (backed : Backed given call.phase) :
    Backed given phase ∧
      (cache = s.cache ∨ ∃ out, Gave given out ∧ cache = s.cache.insert call.username out ∧
        phase = .returned out.served) := by
  obtain ⟨user, phase₀⟩ := call
  cases phase₀ with
  | readCache =>
    cases advanced
    refine ⟨?_, .inl rfl⟩
    unfold afterCache
    split
    · trivial
    · split <;> trivial
  | getPassword hit =>
    cases advanced
    exact ⟨backed_afterPassword (obtained _ rfl), .inl rfl⟩
  | getMaxDevices out =>
    cases advanced
    exact ⟨backed_afterMaxDevices backed (obtained _ rfl), .inl rfl⟩
  | getLifecycle out =>
    cases advanced
    exact ⟨backed_afterLifecycle backed (obtained _ rfl), .inl rfl⟩
  | writeCache out =>
    cases advanced
    exact ⟨trivial, .inr ⟨out, backed, rfl, rfl⟩⟩
  | returned found => cases advanced

/-- Beyond being backed: what a lookup took from the cache, or returned, is made of answers. -/
def Fresh (given : Answer → Prop) : LookupPhase → Prop
  | .getPassword hit => ∀ entry, hit = some entry → Gave given entry
  | .returned found => Decides given found
  | _ => True

theorem advance_fresh {call : Call} {cache : Cache} {phase : LookupPhase} {now : Int} {fails : Bool}
    (advanced : call.advance ttl s.store s.cache now fails = some (cache, phase))
    (obtained : ∀ value, askedAt s.store call.username fails call.phase = some value → given value)
    (cached : ∀ entry, s.cache.lookup call.username = some entry → Gave given entry)
    (backed : Backed given call.phase) (fresh : Fresh given call.phase) : Fresh given phase := by
  obtain ⟨user, phase₀⟩ := call
  cases phase₀ with
  | readCache =>
    cases advanced
    unfold afterCache
    split
    · exact fun _ none => by cases none
    · next entry hit =>
      split
      · exact decides_served (cached entry hit)
      · exact fun other same => cached other same
  | getPassword hit =>
    cases advanced
    have read := obtained _ rfl
    unfold afterPassword
    cases value : answer fails (s.store.getPassword user) with
    | none =>
      rw [value] at read
      cases hit with
      | none => exact .inl read
      | some entry => exact decides_served (fresh entry rfl)
    | some password =>
      simp only
      split <;> trivial
  | getMaxDevices out =>
    cases advanced
    unfold afterMaxDevices
    split <;> trivial
  | getLifecycle out =>
    cases advanced
    unfold afterLifecycle
    split <;> trivial
  | writeCache out =>
    cases advanced
    exact decides_served backed
  | returned found => cases advanced

/-! ### Until `Invalidate` -/

/-- The lookup holds answers of the store that it has not written to the cache. -/
def Holding : LookupPhase → Prop
  | .getMaxDevices _ | .getLifecycle _ | .writeCache _ => True
  | _ => False

theorem backed_of_not_holding {phase : LookupPhase} (idle : ¬ Holding phase) :
    Backed given phase := by
  cases phase with
  | getMaxDevices out => exact absurd trivial idle
  | getLifecycle out => exact absurd trivial idle
  | writeCache out => exact absurd trivial idle
  | readCache => trivial
  | getPassword hit => trivial
  | returned found => trivial

/-- **Drained**: every lookup of the user that held answers at the first state has returned at the
second. -/
def Drained (username : String) (s₀ s₂ : Sys) : Prop :=
  ∀ (index : Nat) (old call : Call), s₀.calls[index]? = some old → old.username = username →
    Holding old.phase → s₂.calls[index]? = some call → ∃ found, call.phase = .returned found

/-- Since `s₀`, every lookup of the user is backed, unless it held answers at `s₀`. -/
def Settling (given : Answer → Prop) (username : String) (s₀ s : Sys) : Prop :=
  ∀ (index : Nat) (call : Call), s.calls[index]? = some call → call.username = username →
    Backed given call.phase ∨ ∃ old : Call, s₀.calls[index]? = some old ∧ old.username = username ∧
      Holding old.phase

theorem settling_self (given : Answer → Prop) (username : String) (s₀ : Sys) :
    Settling given username s₀ s₀ := by
  intro index call found user
  by_cases holding : Holding call.phase
  · exact .inr ⟨call, found, user, holding⟩
  · exact .inl (backed_of_not_holding holding)

/-- The answers that a step obtains for the user are among the given ones. -/
def Obtains (given : Answer → Prop) (username : String) (s : Sys) (event : Event) : Prop :=
  ∀ value, asked username s event = some value → given value

theorem obtained_advance {index : Nat} {call : Call} {now : Int} {fails : Bool}
    (obtains : Obtains given username s (.advance index now fails))
    (found : s.calls[index]? = some call) (user : call.username = username) :
    ∀ value, askedAt s.store call.username fails call.phase = some value → given value := by
  intro value gets
  refine obtains value ?_
  simp only [asked, found, if_pos user]
  rwa [user] at gets

theorem settling_step {s₀ : Sys} {event : Event} (obtains : Obtains given username s event)
    (settling : Settling given username s₀ s) (taken : step ttl s event = some next) :
    Settling given username s₀ next := by
  intro index call found user
  cases event with
  | storeWrite name row =>
    cases row <;> cases taken <;> exact settling index call found user
  | call name =>
    cases taken
    rcases pool_get_append found with old | ⟨-, rfl⟩
    · exact settling index call old user
    · exact .inl trivial
  | advance stepping now fails =>
    obtain ⟨old, cache, phase, oldFound, advanced, rfl⟩ := step_advance taken
    rcases pool_get_set oldFound found with ⟨rfl, rfl⟩ | ⟨-, unchanged⟩
    · rcases settling index old oldFound user with backed | held
      · exact .inl (advance_backed advanced (obtained_advance obtains oldFound user) backed).1
      · exact .inr held
    · exact settling index call unchanged user
  | invalidate name => cases taken; exact settling index call found user
  | invalidateAll => cases taken; exact settling index call found user
  | evict now => cases taken; exact settling index call found user

/-! ### After `Invalidate` -/

/-- The cache and the lookups of the user are made of answers; those from index `start` on have not
taken anything older from the cache. -/
structure Clean (given : Answer → Prop) (username : String) (start : Nat) (s : Sys) : Prop where
  cached : ∀ entry, s.cache.lookup username = some entry → Gave given entry
  backed : ∀ (index : Nat) (call : Call), s.calls[index]? = some call → call.username = username →
    Backed given call.phase
  fresh : ∀ (index : Nat) (call : Call), start ≤ index → s.calls[index]? = some call →
    call.username = username → Fresh given call.phase

theorem clean_step {start : Nat} {event : Event} (obtains : Obtains given username s event)
    (clean : Clean given username start s) (taken : step ttl s event = some next) :
    Clean given username start next := by
  cases event with
  | storeWrite name row =>
    cases row <;> cases taken <;> exact ⟨clean.cached, clean.backed, clean.fresh⟩
  | call name =>
    cases taken
    refine ⟨clean.cached, fun index call found user => ?_, fun index call new found user => ?_⟩
    · rcases pool_get_append found with old | ⟨-, rfl⟩
      · exact clean.backed index call old user
      · trivial
    · rcases pool_get_append found with old | ⟨-, rfl⟩
      · exact clean.fresh index call new old user
      · trivial
  | advance stepping now fails =>
    obtain ⟨old, cache, phase, oldFound, advanced, rfl⟩ := step_advance taken
    -- the cache: a write of another user does not touch the entry, one of the user is backed
    have cached : ∀ entry, cache.lookup username = some entry → Gave given entry := by
      intro entry hit
      by_cases user : old.username = username
      · have backed := clean.backed stepping old oldFound user
        rcases (advance_backed advanced (obtained_advance obtains oldFound user) backed).2 with
          same | ⟨out, gave, written, -⟩
        · exact clean.cached entry (same ▸ hit)
        · rw [written, user, AList.lookup_insert, Option.some.injEq] at hit
          exact hit ▸ gave
      · refine clean.cached entry ?_
        rcases advance_cache advanced with same | ⟨out, written⟩
        · exact same ▸ hit
        · rwa [written, AList.lookup_insert_ne (Ne.symm user)] at hit
    refine ⟨cached, fun index call found user => ?_, fun index call new found user => ?_⟩
    · rcases pool_get_set oldFound found with ⟨rfl, rfl⟩ | ⟨-, unchanged⟩
      · exact (advance_backed advanced (obtained_advance obtains oldFound user)
          (clean.backed index old oldFound user)).1
      · exact clean.backed index call unchanged user
    · rcases pool_get_set oldFound found with ⟨rfl, rfl⟩ | ⟨-, unchanged⟩
      · have user : old.username = username := user
        exact advance_fresh advanced (obtained_advance obtains oldFound user)
          (fun entry hit => clean.cached entry (user ▸ hit)) (clean.backed index old oldFound user)
          (clean.fresh index old new oldFound user)
      · exact clean.fresh index call new unchanged user
  | invalidate name =>
    cases taken
    refine ⟨fun entry hit => ?_, clean.backed, clean.fresh⟩
    rw [invalidate, GoMap.lookup_erase_ite] at hit
    split at hit
    · cases hit
    · exact clean.cached entry hit
  | invalidateAll =>
    cases taken
    exact ⟨fun entry hit => (by cases hit), clean.backed, clean.fresh⟩
  | evict now =>
    cases taken
    exact ⟨fun entry hit => clean.cached entry (lookup_evict hit), clean.backed, clean.fresh⟩

theorem clean_invalidate {s₀ s₂ : Sys} (settling : Settling given username s₀ s₂)
    (drained : Drained username s₀ s₂) :
    Clean given username s₂.calls.length { s₂ with cache := invalidate s₂.cache username } := by
  refine ⟨fun entry hit => ?_, fun index call found user => ?_, fun index call new found _ => ?_⟩
  · have hit : (s₂.cache.erase username).lookup username = some entry := hit
    rw [AList.lookup_erase] at hit
    cases hit
  · rcases settling index call found user with backed | ⟨old, oldFound, oldUser, holding⟩
    · exact backed
    · obtain ⟨result, returned⟩ := drained index old call oldFound oldUser holding found
      rw [returned]
      trivial
  · obtain ⟨inside, -⟩ := List.getElem?_eq_some_iff.mp found
    exact absurd inside (not_lt.mpr new)

/-- **No invalidation is lost when the lookups are drained.** A row is written in `s₀`, `Invalidate`
runs in `s₂`, and every lookup that held answers at the write has returned by then. Then a lookup
that starts later decides from answers that the store gave at or after the write. -/
theorem lookup_after_invalidate {s₀ s₂ s₃ : Sys} {row : Option Row} {between after : List Event}
    (waited : run (step ttl) s₀ (.storeWrite username row :: between) = some s₂)
    (drained : Drained username s₀ s₂)
    (served : run (step ttl) s₂ (.invalidate username :: after) = some s₃)
    {index : Nat} {found : Option CacheEntry} (starts : s₂.calls.length ≤ index)
    (returned : s₃.calls[index]? = some ⟨username, .returned found⟩) :
    Decides (Given ttl username s₀
      ((.storeWrite username row :: between) ++ (.invalidate username :: after))) found := by
  -- the answers of the whole run, from the write on
  let given := Given ttl username s₀
    ((.storeWrite username row :: between) ++ (.invalidate username :: after))
  have obtains : Along (step ttl) (Obtains given username) s₀
      ((.storeWrite username row :: between) ++ (.invalidate username :: after)) :=
    along_occurs fun value s event => asked username s event = some value
  rw [along_append waited] at obtains
  have settling : Settling given username s₀ s₂ :=
    run_invariant (fun _ _ _ holds inv taken => settling_step holds inv taken) obtains.1
      (settling_self given username s₀) waited
  obtain ⟨s₂', invalidated, rest⟩ := run_cons_eq_some.mp served
  cases invalidated
  have clean : Clean given username s₂.calls.length s₃ :=
    run_invariant (fun _ _ _ holds inv taken => clean_step holds inv taken)
      ((along_cons rfl).mp obtains.2).2 (clean_invalidate settling drained) rest
  exact clean.fresh index _ starts returned rfl

/-! ### A slow lookup -/

def storeOf (username password : String) : Store :=
  (∅ : Store).insert username ⟨password, 0, ⟨true, 0, 0, 0⟩⟩

/-- A lookup that has asked the store and stands before its cache write. -/
def slowLookup : List Event :=
  [.call "alice", .advance 0 0 false, .advance 0 0 false, .advance 0 0 false, .advance 0 0 false]

def changePassword : Event := .storeWrite "alice" (some ⟨"new", 0, ⟨true, 0, 0, 0⟩⟩)

/-- The slow lookup writes the cache, and a new one is served from it. -/
def lateWrite : List Event := [.advance 0 1 false, .call "alice", .advance 1 2 false]

/-- A lookup that starts after `Invalidate` and runs to its end. -/
def nextLookup : List Event :=
  [.call "alice", .advance 1 2 false, .advance 1 2 false, .advance 1 2 false, .advance 1 2 false,
    .advance 1 2 false]

def oldEntry : CacheEntry :=
  { password := "old", enabled := true, hasLifecycle := true, cacheExpiresAt := 30 }

def newEntry : CacheEntry :=
  { password := "new", enabled := true, hasLifecycle := true, cacheExpiresAt := 32 }

/-- **An invalidation that is lost**: the new lookup decides on a password that the store did not
give at or after the change. -/
theorem invalidate_lost :
    ∃ s₀ s₂ s₃, run (step 30) ⟨storeOf "alice" "old", ∅, []⟩ slowLookup = some s₀ ∧
      run (step 30) s₀ [changePassword] = some s₂ ∧
      run (step 30) s₂ (.invalidate "alice" :: lateWrite) = some s₃ ∧
      s₂.calls.length ≤ 1 ∧ s₃.calls[1]? = some ⟨"alice", .returned (some oldEntry)⟩ ∧
      ¬ Decides (Given 30 "alice" s₀ ([changePassword] ++ (.invalidate "alice" :: lateWrite)))
        (some oldEntry) := by
  refine ⟨_, _, _, rfl, rfl, rfl, by decide, by decide, fun decided => ?_⟩
  refine not_occurs_of_along ?_ decided.2.1
  decide

/-- The slow lookup returns before `Invalidate`, and the next lookup asks the store. -/
theorem lookup_after_invalidate_drained :
    ∃ s₀ s₂ s₃, run (step 30) ⟨storeOf "alice" "old", ∅, []⟩ slowLookup = some s₀ ∧
      run (step 30) s₀ (changePassword :: [.advance 0 1 false]) = some s₂ ∧
      Drained "alice" s₀ s₂ ∧
      run (step 30) s₂ (.invalidate "alice" :: nextLookup) = some s₃ ∧
      s₂.calls.length ≤ 1 ∧ s₃.calls[1]? = some ⟨"alice", .returned (some newEntry)⟩ ∧
      Decides (Given 30 "alice" s₀
        ((changePassword :: [.advance 0 1 false]) ++ (.invalidate "alice" :: nextLookup)))
        (some newEntry) := by
  have drained : Drained "alice"
      ⟨storeOf "alice" "old", ∅, [⟨"alice", .writeCache oldEntry⟩]⟩
      ⟨storeOf "alice" "new", (∅ : Cache).insert "alice" oldEntry,
        [⟨"alice", .returned (some oldEntry)⟩]⟩ := by
    intro index old call oldFound _ _ found
    cases index with
    | zero =>
      cases found
      exact ⟨_, rfl⟩
    | succ index => cases found
  exact ⟨_, _, _, rfl, rfl, drained, rfl, by decide, by decide,
    lookup_after_invalidate rfl drained rfl (show 1 ≤ 1 from le_rfl) (by decide)⟩

end Ttgo.Auth.Lookup

/-
**Authorization under store errors.**

`lookupEntry` mixes three fallible reads. A failing `GetPassword` denies, but a failing
`GetMaxDevices` leaves the zero value, which means *unlimited*, and a failing `GetLifecycle` leaves
`hasLifecycle` unset, which means *no lifecycle to check*; the mixed entry is cached for the whole
TTL. So a grant from a lookup with failing reads says less than it should.

* `entryOf store username fails` — the entry that a lookup builds under a pattern of failures.
* `FailsClosed` — a grant is only given to a row that is enabled, unexpired and under its limit, and
  carries the stored device limit.
* `checkExt_failsClosed_iff` — from an empty cache, and for all later requests served from the
  cached result: exactly when the calls fail closed.
-/

import Ttgo.Auth.Store

namespace Ttgo.Auth

open Ttgo.Lib

/-- One request: its header, the reads that fail for it, and its clock. -/
structure Request where
  header : String
  fails : Failures
  clock : Clock

/-- `CheckExt` on a request, over a store. -/
def serve (store : Store) (a : Authenticator) (request : Request) : CheckResult × Authenticator :=
  checkExt a request.header (store.answers request.fails) request.clock

/-- The header of the request carries these credentials. -/
def Request.Carries (request : Request) (username : String) (password : List UInt8) : Prop :=
  parseBasic request.header = some (username, password)

/-- `lookupEntry` answers from the cached entry: it has not run out, or `GetPassword` fails. -/
def ServedFromCache (a : Authenticator) (username : String) (request : Request) : Prop :=
  ∃ entry, a.cache.lookup username = some entry ∧
    (request.clock.read < entry.cacheExpiresAt ∨ request.fails.password = true)

/-- **Failing closed**: a grant is for a stored row that is enabled, unexpired and under its traffic
limit, and it carries the row's device limit. -/
def FailsClosed (store : Store) (username : String) (result : CheckResult) (now : Int) : Prop :=
  result.deny = .none → ∃ row, store.lookup username = some row ∧ row.lifecycle.Active now ∧
    result.maxDevices = row.maxDevices

/-! ### The entry of a lookup -/

/-- The entry that a lookup builds for a row under a pattern of failures. -/
def entryOf (row : Row) (fails : Failures) (cacheExpiresAt : Int) : CacheEntry :=
  let out : CacheEntry :=
    { password := row.password, maxDevices := if fails.maxDevices then 0 else row.maxDevices }
  { (if fails.lifecycle then out else out.withLifecycle row.lifecycle) with cacheExpiresAt }

variable {store : Store} {a : Authenticator} {username : String} {row : Row} {fails : Failures}

@[simp] theorem entryOf_password (row : Row) (fails : Failures) (at' : Int) :
    (entryOf row fails at').password = row.password := by
  unfold entryOf
  cases fails.lifecycle <;> rfl

@[simp] theorem entryOf_notFound (row : Row) (fails : Failures) (at' : Int) :
    (entryOf row fails at').notFound = false := by
  unfold entryOf
  cases fails.lifecycle <;> rfl

@[simp] theorem entryOf_maxDevices (row : Row) (fails : Failures) (at' : Int) :
    (entryOf row fails at').maxDevices = if fails.maxDevices then 0 else row.maxDevices := by
  unfold entryOf
  cases fails.lifecycle <;> rfl

theorem entryOf_usable_iff (row : Row) (fails : Failures) (at' now : Int) :
    (entryOf row fails at').Usable now ↔
      (fails.lifecycle = false → row.lifecycle.Active now) := by
  unfold entryOf
  cases fails.lifecycle with
  | false => exact (usable_withLifecycle _ _ _ _).trans ⟨fun h _ => h, fun h => h rfl⟩
  | true => exact ⟨fun _ checked => (by cases checked), fun _ has => (by cases has)⟩

theorem lookupEntry_row (empty : a.cache.lookup username = none)
    (stored : store.lookup username = some row) (hasPassword : row.password ≠ "")
    (readable : fails.password = false) (nowRead nowWrite : Int) :
    lookupEntry a username (store.answers fails username) nowRead nowWrite =
      (some (entryOf row fails (nowWrite + a.ttl)),
        { a with cache := a.cache.insert username (entryOf row fails (nowWrite + a.ttl)) }) := by
  simp only [lookupEntry, empty, askStore, Store.answers, readable, Store.getPassword,
    Store.getMaxDevices, Store.getLifecycle, stored, Option.map_some, Option.getD_some,
    if_neg hasPassword, Bool.false_eq_true, if_false, entryOf]
  cases fails.maxDevices <;> cases fails.lifecycle <;> rfl

theorem lookupEntry_nobody (empty : a.cache.lookup username = none)
    (nobody : fails.password = true ∨ store.getPassword username = "") (nowRead nowWrite : Int) :
    (lookupEntry a username (store.answers fails username) nowRead nowWrite).1 = none ∧
      ∀ entry, (lookupEntry a username (store.answers fails username) nowRead
        nowWrite).2.cache.lookup username = some entry → entry.notFound = true := by
  cases failed : fails.password with
  | true =>
    simp only [lookupEntry, empty, askStore, Store.answers, failed, if_true,
      Option.bind_none, reduceCtorEq, false_implies, implies_true, and_self]
  | false =>
    have noPassword : store.getPassword username = "" := by
      rcases nobody with unreadable | noPassword
      · rw [failed] at unreadable
        cases unreadable
      · exact noPassword
    simp only [lookupEntry, empty, askStore, Store.answers, failed, noPassword,
      Bool.false_eq_true, if_false, if_true, true_and, AList.lookup_insert, Option.some.injEq]
    rintro entry rfl
    rfl

theorem lookupEntry_cached {entry : CacheEntry} (cached : a.cache.lookup username = some entry)
    {answers : Answers} {nowRead : Int} (nowWrite : Int)
    (served : nowRead < entry.cacheExpiresAt ∨ answers.password = none) :
    lookupEntry a username answers nowRead nowWrite = (entry.served, a) := by
  by_cases fresh : nowRead < entry.cacheExpiresAt
  · simp only [lookupEntry, cached, if_pos fresh]
  · simp only [lookupEntry, cached, if_neg fresh, askStore, served.resolve_left fresh,
      Option.bind_some]

/-! ### When a request fails closed -/

/-- What makes a lookup with failing reads fail closed for one request with the right password:
without its lifecycle the row is active anyway, and without its device limit the row is unlimited
or the request is refused. -/
def Harmless (row : Row) (fails : Failures) (now : Int) : Prop :=
  (fails.lifecycle = true → row.lifecycle.Active now) ∧
    (fails.maxDevices = true → row.maxDevices = 0 ∨
      (fails.lifecycle = false ∧ ¬ row.lifecycle.Active now))

theorem failsClosed_badCreds (store : Store) (username : String) (now : Int) :
    FailsClosed store username { deny := .badCreds } now := fun granted => by cases granted

theorem checkEntry_failsClosed_iff (stored : store.lookup username = some row) (fails : Failures)
    (at' now : Int) (password : List UInt8) :
    FailsClosed store username (checkEntry username password (entryOf row fails at') now) now ↔
      (password = bytesOf row.password → Harmless row fails now) := by
  have granted := checkEntry_granted_iff username password (entryOf row fails at') now
  rw [entryOf_password, entryOf_usable_iff] at granted
  constructor
  · intro closed right
    refine ⟨fun noLifecycle => ?_, fun noLimit => ?_⟩
    · have unchecked : fails.lifecycle = false → row.lifecycle.Active now := fun checked => by
        rw [noLifecycle] at checked
        cases checked
      have grant := (granted _).mpr ⟨right, unchecked, rfl⟩
      obtain ⟨row', stored', active, -⟩ := closed (by rw [grant.1])
      rw [stored] at stored'
      cases stored'
      exact active
    · by_cases checked : fails.lifecycle = false ∧ ¬ row.lifecycle.Active now
      · exact .inr checked
      · have usable : fails.lifecycle = false → row.lifecycle.Active now := fun has => by
          by_contra inactive
          exact checked ⟨has, inactive⟩
        have grant := (granted _).mpr ⟨right, usable, rfl⟩
        obtain ⟨row', stored', -, same⟩ := closed (by rw [grant.1])
        rw [stored] at stored'
        cases stored'
        rw [grant.1, entryOf_maxDevices, if_pos noLimit] at same
        exact .inl same.symm
  · intro harmless isGranted
    obtain ⟨right, usable, result⟩ := (granted _).mp ⟨rfl, isGranted⟩
    obtain ⟨lifecycle, limit⟩ := harmless right
    have active : row.lifecycle.Active now := by
      cases failed : fails.lifecycle with
      | true => exact lifecycle failed
      | false => exact usable failed
    refine ⟨row, stored, active, ?_⟩
    rw [result]
    show (entryOf row fails at').maxDevices = row.maxDevices
    rw [entryOf_maxDevices]
    cases failed : fails.maxDevices with
    | false => rfl
    | true =>
      rcases limit failed with unlimited | refused
      · exact unlimited.symm
      · exact absurd active refused.2

/-! ### A run of requests -/

/-- Requests one after the other, each with its result. -/
def serveAll (store : Store) : Authenticator → List Request → List (Request × CheckResult)
  | _, [] => []
  | a, request :: requests =>
    (request, (serve store a request).1) :: serveAll store (serve store a request).2 requests

theorem serve_carries {request : Request} {password : List UInt8}
    (carries : request.Carries username password) :
    serve store a request =
      (checkFound username password (lookupEntry a username (store.answers request.fails username)
          request.clock.read request.clock.write).1 request.clock.check,
        (lookupEntry a username (store.answers request.fails username) request.clock.read
          request.clock.write).2) := by
  have parsed : parseBasic request.header = some (username, password) := carries
  simp only [serve, checkExt, parsed]

theorem serve_cached {request : Request} {password : List UInt8} {entry : CacheEntry}
    (carries : request.Carries username password) (cached : a.cache.lookup username = some entry)
    (served : ServedFromCache a username request) :
    serve store a request =
      (checkFound username password entry.served request.clock.check, a) := by
  obtain ⟨entry', cached', fresh⟩ := served
  rw [cached] at cached'
  cases cached'
  have answered : request.clock.read < entry.cacheExpiresAt ∨
      (store.answers request.fails username).password = none :=
    fresh.imp_right fun failed => by simp only [Store.answers, failed, if_true]
  rw [serve_carries carries, lookupEntry_cached cached request.clock.write answered]

theorem serveAll_cached {requests : List Request}
    (names : ∀ request ∈ requests, ∃ password, request.Carries username password)
    (served : ∀ request ∈ requests, ServedFromCache a username request)
    (holds : Request → CheckResult → Prop) :
    (∀ answered ∈ serveAll store a requests, holds answered.1 answered.2) ↔
      ∀ request ∈ requests, holds request (serve store a request).1 := by
  induction requests with
  | nil => simp [serveAll]
  | cons request requests ih =>
    obtain ⟨password, carries⟩ := names request List.mem_cons_self
    obtain ⟨entry, cached, -⟩ := served request List.mem_cons_self
    have same : (serve store a request).2 = a := by
      rw [serve_cached carries cached (served request List.mem_cons_self)]
    have rest := ih (fun later member => names later (List.mem_cons_of_mem _ member))
      (fun later member => served later (List.mem_cons_of_mem _ member))
    simp only [serveAll, same, List.forall_mem_cons, rest]

theorem carries_iff {request : Request} {username : String} {password : List UInt8}
    (carries : request.Carries username password) (other : List UInt8) :
    request.Carries username other ↔ password = other := by
  have parsed : parseBasic request.header = some (username, password) := carries
  simp only [Request.Carries, parsed, Option.some.injEq, Prod.mk.injEq, true_and]

theorem onEntry_failsClosed_iff {store : Store} {username : String} {row : Row} {fails : Failures}
    {at' : Int} {request : Request} {password : List UInt8}
    (stored : store.lookup username = some row) (carries : request.Carries username password) :
    FailsClosed store username (checkEntry username password (entryOf row fails at')
        request.clock.check) request.clock.check ↔
      (request.Carries username (bytesOf row.password) →
        Harmless row fails request.clock.check) := by
  rw [checkEntry_failsClosed_iff stored, carries_iff carries]

theorem failsClosed_of_nobody {store : Store} (ttl : Int) {username : String} {first : Request}
    {password : List UInt8} (carries : first.Carries username password)
    (nobody : first.fails.password = true ∨ store.getPassword username = "") :
    FailsClosed store username (serve store (new ttl) first).1 first.clock.check ∧
      ∀ request, (∃ password, request.Carries username password) →
        ServedFromCache (serve store (new ttl) first).2 username request →
          FailsClosed store username (serve store (serve store (new ttl) first).2 request).1
            request.clock.check := by
  have empty : (new ttl).cache.lookup username = none := AList.lookup_empty username
  obtain ⟨refused, negative⟩ := lookupEntry_nobody empty nobody first.clock.read first.clock.write
  refine ⟨?_, ?_⟩
  · rw [serve_carries carries, refused]
    exact failsClosed_badCreds _ _ _
  · rintro request ⟨password', carries'⟩ ⟨entry, cached, fresh⟩
    have isNegative : entry.notFound = true := by
      rw [serve_carries carries] at cached
      exact negative entry cached
    rw [serve_cached carries' cached ⟨entry, cached, fresh⟩, CacheEntry.served, if_pos isNegative]
    exact failsClosed_badCreds _ _ _

theorem failsClosed_of_row {store : Store} (ttl : Int) {username : String} {first : Request}
    {password : List UInt8} {row : Row} (carries : first.Carries username password)
    (stored : store.lookup username = some row) (hasPassword : row.password ≠ "")
    (readable : first.fails.password = false) :
    (FailsClosed store username (serve store (new ttl) first).1 first.clock.check ↔
        (first.Carries username (bytesOf row.password) →
          Harmless row first.fails first.clock.check)) ∧
      ∀ request, (∃ password, request.Carries username password) →
        ServedFromCache (serve store (new ttl) first).2 username request →
          (FailsClosed store username (serve store (serve store (new ttl) first).2 request).1
              request.clock.check ↔
            (request.Carries username (bytesOf row.password) →
              Harmless row first.fails request.clock.check)) := by
  have empty : (new ttl).cache.lookup username = none := AList.lookup_empty username
  have looked := lookupEntry_row empty stored hasPassword readable first.clock.read
    first.clock.write
  have cached : (serve store (new ttl) first).2.cache.lookup username =
      some (entryOf row first.fails (first.clock.write + (new ttl).ttl)) := by
    rw [serve_carries carries, looked, AList.lookup_insert]
  refine ⟨?_, ?_⟩
  · rw [← onEntry_failsClosed_iff stored carries, serve_carries carries, looked]
    rfl
  · rintro request ⟨password', carries'⟩ served
    rw [← onEntry_failsClosed_iff stored carries', serve_cached carries' cached served,
      CacheEntry.served, entryOf_notFound]
    rfl

theorem exists_row {store : Store} {username : String} (hasPassword : store.getPassword username ≠ "") :
    ∃ row, store.lookup username = some row ∧ row.password ≠ "" := by
  unfold Store.getPassword at hasPassword
  cases found : store.lookup username with
  | none =>
    rw [found] at hasPassword
    exact absurd rfl hasPassword
  | some row =>
    rw [found] at hasPassword
    exact ⟨row, rfl, hasPassword⟩

/-- **When authorization fails closed under store errors.** From an empty cache, for the request
that fills it and all later ones served from the cached result. -/
theorem checkExt_failsClosed_iff (store : Store) (ttl : Int) (username : String) (first : Request)
    (later : List Request)
    (names : ∀ request ∈ first :: later, ∃ password, request.Carries username password)
    (served : ∀ request ∈ later, ServedFromCache (serve store (new ttl) first).2 username request) :
    (∀ answered ∈ serveAll store (new ttl) (first :: later),
        FailsClosed store username answered.2 answered.1.clock.check) ↔
      (first.fails.password = false → ∀ row, store.lookup username = some row →
        row.password ≠ "" → ∀ request ∈ first :: later,
          request.Carries username (bytesOf row.password) →
            Harmless row first.fails request.clock.check) := by
  obtain ⟨password, carries⟩ := names first List.mem_cons_self
  have laterNames := fun request member => names request (List.mem_cons_of_mem first member)
  simp only [serveAll, List.forall_mem_cons, serveAll_cached laterNames served fun request result =>
    FailsClosed store username result request.clock.check]
  by_cases nobody : first.fails.password = true ∨ store.getPassword username = ""
  · obtain ⟨head, tail⟩ := failsClosed_of_nobody ttl carries nobody
    refine iff_of_true ⟨head, fun request member =>
      tail request (laterNames request member) (served request member)⟩ ?_
    intro readable row stored hasPassword
    rcases nobody with unreadable | noPassword
    · rw [readable] at unreadable
      cases unreadable
    · rw [Store.getPassword, stored, Option.map_some, Option.getD_some] at noPassword
      exact absurd noPassword hasPassword
  · obtain ⟨readable, hasPassword⟩ := not_or.mp nobody
    have readable : first.fails.password = false := by simpa using readable
    obtain ⟨row, stored, hasPassword⟩ := exists_row hasPassword
    obtain ⟨head, tail⟩ := failsClosed_of_row ttl carries stored hasPassword readable
    rw [head]
    constructor
    · rintro ⟨firstHarmless, laterClosed⟩ - row' stored' -
      rw [stored] at stored'
      cases stored'
      exact ⟨firstHarmless, fun request member => (tail request (laterNames request member)
        (served request member)).mp (laterClosed request member)⟩
    · intro harmless
      obtain ⟨firstHarmless, laterHarmless⟩ := harmless readable row stored hasPassword
      exact ⟨firstHarmless, fun request member => (tail request (laterNames request member)
        (served request member)).mpr (laterHarmless request member)⟩

/-! ### A disabled account -/

def suspended : Row := ⟨"pw", 2, ⟨false, 0, 0, 0⟩⟩

def suspendedStore : Store := (∅ : Store).insert "alice" suspended

def aliceRequest (fails : Failures) (now : Int) : Request :=
  ⟨"Basic YWxpY2U6cHc=", fails, ⟨now, now, now⟩⟩

/-- One failing `GetLifecycle` grants the disabled account. -/
theorem checkExt_grants_suspended :
    ¬ ∀ answered ∈ serveAll suspendedStore (new 0) [aliceRequest { lifecycle := true } 0],
      FailsClosed suspendedStore "alice" answered.2 answered.1.clock.check := by
  intro closed
  obtain ⟨row, stored, active, -⟩ := closed _ List.mem_cons_self (by decide)
  have found : suspendedStore.lookup "alice" = some suspended := by decide
  rw [found] at stored
  cases stored
  exact absurd active (by decide)

/-- With all reads of the lookup intact, the cached entry keeps refusing it. -/
theorem checkExt_refuses_suspended :
    suspendedStore.lookup "alice" = some suspended ∧
      ∀ answered ∈ serveAll suspendedStore (new 0)
          [aliceRequest {} 0, aliceRequest { password := true } 5],
        FailsClosed suspendedStore "alice" answered.2 answered.1.clock.check := by
  refine ⟨by decide, (checkExt_failsClosed_iff suspendedStore 0 "alice" (aliceRequest {} 0)
    [aliceRequest { password := true } 5] ?_ ?_).mpr ?_⟩
  · intro request member
    refine ⟨bytesOf "pw", ?_⟩
    have header : request.header = "Basic YWxpY2U6cHc=" := by
      simp only [List.mem_cons, List.not_mem_nil, or_false] at member
      rcases member with rfl | rfl <;> rfl
    rw [Request.Carries, header]
    decide
  · intro request member
    rw [List.mem_singleton] at member
    subst member
    refine ⟨entryOf suspended {} 30000000000, by decide, .inr rfl⟩
  · intro _ row _ _ request _ _
    exact ⟨fun failed => (by cases failed), fun failed => (by cases failed)⟩

end Ttgo.Auth

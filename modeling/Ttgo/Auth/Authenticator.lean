/-
**`Authenticator`: the credential cache and the lifecycle checks.**

`internal/auth/auth.go`. `lookupEntry` is cut at the places where it gives up the cache lock or calls
the store, and the cut is used twice: `lookupEntry` runs the pieces in sequence, and the system of
concurrent lookups interleaves them.

* `LookupPhase` — where a lookup stands and what it holds; `afterCache`, `afterPassword`,
  `afterMaxDevices`, `afterLifecycle` say where each answer takes it.
* `checkEntry` — the decision of `CheckExt` on an entry.
* `checkExt` — one call, from the header to the result.

Clock readings are Unix times in nanoseconds and arguments of the definitions, one per `time.Now()`.
-/

import Ttgo.Lib.GoMap
import Ttgo.Auth.BasicAuth

namespace Ttgo.Auth

open Ttgo.Lib

inductive DenyReason
  | none
  | badCreds
  | disabled
  | expired
  | trafficLimit
deriving DecidableEq, Repr

/-- The text of a reason, as it is sent in `X-Revoke-Reason`. -/
def DenyReason.text : DenyReason → String
  | .none => ""
  | .badCreds => "Invalid credentials"
  | .disabled => "Account disabled"
  | .expired => "Account expired"
  | .trafficLimit => "Traffic limit reached"

/-- `CheckResult`; `maxDevices = 0` is unlimited. -/
structure CheckResult where
  username : String := ""
  maxDevices : Int := 0
  deny : DenyReason := .none
deriving DecidableEq, Repr

/-- What `GetLifecycle` returns. -/
structure Lifecycle where
  enabled : Bool
  expiresAt : Int
  trafficLimit : UInt64
  trafficUsed : UInt64
deriving DecidableEq, Repr

structure CacheEntry where
  password : String := ""
  maxDevices : Int := 0
  enabled : Bool := false
  expiresAt : Int := 0
  trafficLimit : UInt64 := 0
  trafficUsed : UInt64 := 0
  hasLifecycle : Bool := false
  cacheExpiresAt : Int := 0
  notFound : Bool := false
deriving DecidableEq, Repr

abbrev Cache := GoMap String CacheEntry

structure Authenticator where
  ttl : Int
  cache : Cache

/-- `New`: a zero TTL is thirty seconds. -/
def new (cacheTTL : Int) : Authenticator :=
  ⟨if cacheTTL = 0 then 30 * 1000000000 else cacheTTL, ∅⟩

/-! ### The pieces of `lookupEntry` -/

/-- Where a lookup stands: the step it takes next, and what it holds. -/
inductive LookupPhase
  | readCache
  | getPassword (hit : Option CacheEntry)
  | getMaxDevices (out : CacheEntry)
  | getLifecycle (out : CacheEntry)
  | writeCache (out : CacheEntry)
  | returned (found : Option CacheEntry)
deriving DecidableEq, Repr

/-- What a caller gets for an entry: nothing for a negative one. -/
def CacheEntry.served (entry : CacheEntry) : Option CacheEntry :=
  if entry.notFound then none else some entry

/-- After the cache was read: an entry that has not run out is the answer. -/
def afterCache (hit : Option CacheEntry) (now : Int) : LookupPhase :=
  match hit with
  | none => .getPassword none
  | some entry => if now < entry.cacheExpiresAt then .returned entry.served else .getPassword hit

/-- After `GetPassword`: on an error the entry that ran out still serves. -/
def afterPassword (ttl : Int) (hit : Option CacheEntry) (answer : Option String) (now : Int) :
    LookupPhase :=
  match answer with
  | none => .returned (hit.bind CacheEntry.served)
  | some password =>
    if password = "" then .writeCache { notFound := true, cacheExpiresAt := now + ttl }
    else .getMaxDevices { password }

/-- After `GetMaxDevices`: an error leaves the zero value. -/
def afterMaxDevices (out : CacheEntry) (answer : Option Int) : LookupPhase :=
  match answer with
  | none => .getLifecycle out
  | some maxDevices => .getLifecycle { out with maxDevices }

/-- `out` with the fields that `GetLifecycle` fills. -/
def CacheEntry.withLifecycle (out : CacheEntry) (lifecycle : Lifecycle) : CacheEntry :=
  { out with
    enabled := lifecycle.enabled
    expiresAt := lifecycle.expiresAt
    trafficLimit := lifecycle.trafficLimit
    trafficUsed := lifecycle.trafficUsed
    hasLifecycle := true }

/-- After `GetLifecycle`: an error leaves `hasLifecycle` unset. -/
def afterLifecycle (ttl : Int) (out : CacheEntry) (answer : Option Lifecycle) (now : Int) :
    LookupPhase :=
  match answer with
  | none => .writeCache { out with cacheExpiresAt := now + ttl }
  | some lifecycle => .writeCache { out.withLifecycle lifecycle with cacheExpiresAt := now + ttl }

/-! ### A lookup in one go -/

/-- The answers of the store to one lookup; `none` is an error. A store that is no
`DeviceLimitStore` or no `LifecycleStore` leaves the same zero values as an error does. -/
structure Answers where
  password : Option String
  maxDevices : Option Int
  lifecycle : Option Lifecycle

/-- `lookupEntry` once the cache has not served it, with the clock at the write. -/
def askStore (a : Authenticator) (username : String) (hit : Option CacheEntry) (answers : Answers)
    (now : Int) : Option CacheEntry × Authenticator :=
  match answers.password with
  | none => (hit.bind CacheEntry.served, a)
  | some password =>
    if password = "" then
      let absent : CacheEntry := { notFound := true, cacheExpiresAt := now + a.ttl }
      (none, { a with cache := a.cache.insert username absent })
    else
      let out : CacheEntry := { password, maxDevices := answers.maxDevices.getD 0 }
      let out := match answers.lifecycle with
        | none => out
        | some lifecycle => out.withLifecycle lifecycle
      let out := { out with cacheExpiresAt := now + a.ttl }
      (some out, { a with cache := a.cache.insert username out })

/-- `lookupEntry`, with the clock at the cache read and at the write. -/
def lookupEntry (a : Authenticator) (username : String) (answers : Answers) (nowRead nowWrite : Int) :
    Option CacheEntry × Authenticator :=
  match a.cache.lookup username with
  | none => askStore a username none answers nowWrite
  | some entry =>
    if nowRead < entry.cacheExpiresAt then (entry.served, a)
    else askStore a username (some entry) answers nowWrite

/-! ### The decision -/

/-- `[]byte(s)`. -/
def bytesOf (s : String) : List UInt8 := s.toUTF8.data.toList

/-- `time.Now().Unix()`. -/
def unix (now : Int) : Int := now / 1000000000

/-- The checks of `CheckExt` on the entry it was given. -/
def checkEntry (username : String) (password : List UInt8) (entry : CacheEntry) (now : Int) :
    CheckResult :=
  if password ≠ bytesOf entry.password then { deny := .badCreds }
  else if entry.hasLifecycle ∧ entry.enabled = false then { username, deny := .disabled }
  else if entry.hasLifecycle ∧ 0 < entry.expiresAt ∧ entry.expiresAt ≤ unix now then
    { username, deny := .expired }
  else if entry.hasLifecycle ∧ 0 < entry.trafficLimit ∧ entry.trafficLimit ≤ entry.trafficUsed then
    { username, deny := .trafficLimit }
  else { username, maxDevices := entry.maxDevices }

/-- The result of `CheckExt` for what the lookup gave it. -/
def checkFound (username : String) (password : List UInt8) (found : Option CacheEntry) (now : Int) :
    CheckResult :=
  match found with
  | none => { deny := .badCreds }
  | some entry => checkEntry username password entry now

/-- The clock readings of one call: at the cache read, at the write and at the expiry check. -/
structure Clock where
  read : Int
  write : Int
  check : Int

/-- `CheckExt`: the result, and the authenticator after the call. `answers` is what the store says
about a username during the call. -/
def checkExt (a : Authenticator) (header : String) (answers : String → Answers) (clock : Clock) :
    CheckResult × Authenticator :=
  match parseBasic header with
  | none => ({ deny := .badCreds }, a)
  | some (username, password) =>
    let looked := lookupEntry a username (answers username) clock.read clock.write
    (checkFound username password looked.1 clock.check, looked.2)

def invalidate (cache : Cache) (username : String) : Cache := cache.erase username

/-- One key of `evictLoop`: an entry that has run out goes. -/
def evictKey (now : Int) (cache : Cache) (key : String) : Cache :=
  match cache.lookup key with
  | none => cache
  | some entry => if entry.cacheExpiresAt < now then cache.erase key else cache

/-- One tick of `evictLoop`. -/
def evict (cache : Cache) (now : Int) : Cache := cache.keys.foldl (evictKey now) cache

/-! ### What a decision says about its entry -/

/-- The lifecycle of an entry lets a request through at the given time. -/
def CacheEntry.Usable (entry : CacheEntry) (now : Int) : Prop :=
  entry.hasLifecycle = true → entry.enabled = true ∧
    ¬ (0 < entry.expiresAt ∧ entry.expiresAt ≤ unix now) ∧
    ¬ (0 < entry.trafficLimit ∧ entry.trafficLimit ≤ entry.trafficUsed)

/-- **A grant**: the password is the entry's, its lifecycle lets the request through, and the result
carries its device limit. -/
theorem checkEntry_granted_iff (username : String) (password : List UInt8) (entry : CacheEntry)
    (now : Int) (result : CheckResult) :
    checkEntry username password entry now = result ∧ result.deny = .none ↔
      password = bytesOf entry.password ∧ entry.Usable now ∧
        result = { username, maxDevices := entry.maxDevices } := by
  unfold checkEntry CacheEntry.Usable
  constructor
  · rintro ⟨rfl, granted⟩
    split at granted
    · cases granted
    next right =>
    split at granted
    · cases granted
    next enabled =>
    split at granted
    · cases granted
    next unexpired =>
    split at granted
    · cases granted
    next underLimit =>
    rw [if_neg right, if_neg enabled, if_neg unexpired, if_neg underLimit]
    refine ⟨not_not.mp right, fun has => ⟨?_, ?_, ?_⟩, rfl⟩
    · simpa [has] using enabled
    · exact fun past => unexpired ⟨has, past⟩
    · exact fun beyond => underLimit ⟨has, beyond⟩
  · rintro ⟨right, usable, rfl⟩
    rw [if_neg (not_not.mpr right), if_neg, if_neg, if_neg]
    · exact ⟨rfl, rfl⟩
    · exact fun beyond => (usable beyond.1).2.2 beyond.2
    · exact fun past => (usable past.1).2.1 past.2
    · rintro ⟨has, disabled⟩
      rw [(usable has).1] at disabled
      cases disabled

theorem checkFound_username (username : String) (password : List UInt8) (found : Option CacheEntry)
    (now : Int) : (checkFound username password found now).username = "" ∨
      (checkFound username password found now).username = username := by
  unfold checkFound
  split
  · exact .inl rfl
  · unfold checkEntry
    repeat' split
    · exact .inl rfl
    all_goals exact .inr rfl

theorem checkExt_username {a : Authenticator} {header : String} {answers : String → Answers}
    {clock : Clock} (named : (checkExt a header answers clock).1.username ≠ "") :
    ∃ password, parseBasic header = some ((checkExt a header answers clock).1.username, password) := by
  unfold checkExt at named ⊢
  cases parsed : parseBasic header with
  | none =>
    rw [parsed] at named
    exact absurd rfl named
  | some credentials =>
    obtain ⟨username, password⟩ := credentials
    rw [parsed] at named
    have same := (checkFound_username username password _ clock.check).resolve_left named
    exact ⟨password, congrArg (fun name => some (name, password)) same.symm⟩

end Ttgo.Auth

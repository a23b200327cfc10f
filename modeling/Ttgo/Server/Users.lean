/-
**`POST /api/users`, and the log-in of the user that it creates.**

`StartAdminAPI` of `internal/server/adminapi.go`: the handler refuses an empty username and an empty password, adds
the user to the store and sets what else the request names. The errors of those settings are dropped.

* `AdminUserStore` — the store behind the handler; `sqliteStore` — the one over the SQLite table.
* `postUsers` — the handler, from the decoded body to the response.
* `createUser_credentials_iff` — a created user logs in, and as nobody else, exactly if the username has no colon and
  no entry of the cache refuses them.
-/

import Ttgo.Admin.Migrate
import Ttgo.Auth.Credentials

namespace Ttgo.Server.Users

open Ttgo.Lib Ttgo.Auth Ttgo.Admin

/-! ### The store -/

/-- `AdminLifecycle`, as far as the handler calls it; an error leaves the store as it is. -/
structure AdminLifecycle (S : Type) where
  setExpiresAt : S → String → Int → S
  setTrafficLimit : S → String → UInt64 → S

/-- `AdminUserStore`, as far as the handler calls it. -/
structure AdminUserStore (S : Type) where
  add : S → String → String → Except Text S
  setMaxDevices : S → String → Int → S
  lifecycle : Option (AdminLifecycle S)

/-- `UPDATE users SET … WHERE username = ?` on the columns of the lifecycle. -/
def updateLifecycle (store : Store) (username : String) (update : Lifecycle → Lifecycle) : Store :=
  match store.lookup username with
  | none => store
  | some row => store.insert username { row with lifecycle := update row.lifecycle }

/-- `sqliteUserStore`. A limit of `2^63` or more is no value of SQL, and `Exec` fails. -/
def sqliteStore (env : Env) : AdminUserStore Store where
  add store username password :=
    match addUser store username password with
    | none => .error (addError env username)
    | some added => .ok added
  setMaxDevices store username n := (Admin.setMaxDevices store username n).getD store
  lifecycle := some
    { setExpiresAt := fun store username expiresAt => updateLifecycle store username ({ · with expiresAt })
      setTrafficLimit := fun store username trafficLimit =>
        if trafficLimit.toNat < 2 ^ 63 then updateLifecycle store username ({ · with trafficLimit }) else store }

/-! ### The handler -/

/-- The body of the request. -/
structure CreateUser where
  username : String
  password : String
  maxDevices : Int := 0
  expiresAt : Int := 0
  trafficLimit : UInt64 := 0
deriving DecidableEq, Repr

structure Response where
  status : Nat
  body : Text
deriving DecidableEq, Repr

/-- `http.Error`: the text and a newline. -/
def httpError (status : Nat) (text : Text) : Response := ⟨status, text ++ ['\n']⟩

/-- The answer to a request that was carried out; the encoder ends it with a newline. -/
def created : Response := ⟨200, "\x7b\"status\":\"created\"\x7d\n".toList⟩

variable {S : Type}

def configure (db : AdminUserStore S) (store : S) (req : CreateUser) : S :=
  let store := if 0 < req.maxDevices then db.setMaxDevices store req.username req.maxDevices else store
  match db.lifecycle with
  | none => store
  | some lc =>
    let store := if 0 < req.expiresAt then lc.setExpiresAt store req.username req.expiresAt else store
    if 0 < req.trafficLimit then lc.setTrafficLimit store req.username req.trafficLimit else store

/-- `POST /api/users`: the response, and the store after it. `body` is what the JSON decoder gives. -/
def postUsers (db : AdminUserStore S) (store : Option S) (body : Except Text CreateUser) :
    Response × Option S :=
  match store with
  | none => (httpError 503 "user store unavailable".toList, none)
  | some store =>
    match body with
    | .error err => (httpError 400 err, some store)
    | .ok req =>
      if req.username = "" ∨ req.password = "" then
        (httpError 400 "username and password required".toList, some store)
      else
        match db.add store req.username req.password with
        | .error err => (httpError 409 err, some store)
        | .ok added => (created, some (configure db added req))

theorem postUsers_created {db : AdminUserStore S} {store : S} {req : CreateUser} {after : Option S}
    (accepted : postUsers db (some store) (.ok req) = (created, after)) :
    req.username ≠ "" ∧ req.password ≠ "" ∧
      ∃ added, db.add store req.username req.password = .ok added ∧ after = some (configure db added req) := by
  simp only [postUsers] at accepted
  split at accepted
  · exact absurd (congrArg (fun answer => answer.1.status) accepted) (by simp [created, httpError])
  · next filled =>
    rw [not_or] at filled
    refine ⟨filled.1, filled.2, ?_⟩
    split at accepted
    · exact absurd (congrArg (fun answer => answer.1.status) accepted) (by simp [created, httpError])
    · next added done => exact ⟨added, done, (congrArg Prod.snd accepted).symm⟩

/-! ### The log-in -/

/-- The user gets in: an entry of the cache that is still served says so too. -/
def LetsIn (auth : Authenticator) (clock : Clock) (username password : String) : Prop :=
  ∀ entry ∈ auth.cache.lookup username, clock.read < entry.cacheExpiresAt →
    entry.notFound = false ∧ entry.password = password ∧ entry.Usable clock.check

theorem checkEntry_logsIn_iff {username password : String} {entry : CacheEntry} {now : Int} :
    ((checkEntry username (bytesOf password) entry now).username = username ∧
        (checkEntry username (bytesOf password) entry now).deny = .none) ↔
      entry.password = password ∧ entry.Usable now := by
  constructor
  · rintro ⟨-, granted⟩
    obtain ⟨same, usable, -⟩ := (checkEntry_granted_iff _ _ _ _ _).mp ⟨rfl, granted⟩
    exact ⟨(bytesOf_injective same).symm, usable⟩
  · rintro ⟨rfl, usable⟩
    have granted := (checkEntry_granted_iff username _ entry now _).mpr ⟨rfl, usable, rfl⟩
    rw [granted.1]
    exact ⟨rfl, rfl⟩

theorem logsIn_iff {auth : Authenticator} {clock : Clock} {username password header : String}
    (filled : password ≠ "") (parsed : parseBasic header = some (username, bytesOf password)) :
    (∀ answers, (answers username).password = some password →
        (∀ lifecycle ∈ (answers username).lifecycle, lifecycle.Active clock.check) →
          (checkExt auth header answers clock).1.username = username ∧
            (checkExt auth header answers clock).1.deny = .none) ↔
      LetsIn auth clock username password := by
  simp only [checkExt, parsed]
  constructor
  · intro logsIn entry cached live
    have served := logsIn (fun _ => ⟨some password, none, none⟩) rfl (fun _ none => absurd none (by simp))
    simp only [lookupEntry, Option.mem_def.mp cached, if_pos live, CacheEntry.served] at served
    split at served
    · exact absurd served.2 (by simp [checkFound])
    · next known => exact ⟨Bool.eq_false_iff.mpr known, checkEntry_logsIn_iff.mp served⟩
  · intro letsIn answers secret active
    have asked : ∀ hit, (checkFound username (bytesOf password)
          (askStore auth username hit (answers username) clock.write).1 clock.check).username = username ∧
        (checkFound username (bytesOf password)
          (askStore auth username hit (answers username) clock.write).1 clock.check).deny = .none := by
      intro hit
      obtain ⟨entry, found, same, -, usable⟩ := askStore_of_password secret filled hit clock.write
      rw [found]
      exact checkEntry_logsIn_iff.mpr ⟨same, usable _ active⟩
    unfold lookupEntry
    split
    · exact asked none
    · next entry cached =>
      split
      · next live =>
        obtain ⟨known, right⟩ := letsIn entry cached live
        rw [CacheEntry.served, if_neg (Bool.eq_false_iff.mp known)]
        exact checkEntry_logsIn_iff.mpr right
      · exact asked (some entry)

/-- **Who a created user is.** For every store, every request that is accepted and every state of the cache: the
header that the client builds is read as the username and the password of the request, names nobody else, and logs in
where the store has that password, if and only if the username has no colon and no entry of the cache that is still
served refuses the user. -/
theorem createUser_credentials_iff {db : AdminUserStore S} {store : S} {req : CreateUser} {after : Option S}
    (accepted : postUsers db (some store) (.ok req) = (created, after)) (auth : Authenticator) (clock : Clock) :
    (parseBasic (authBasic req.username req.password) = some (req.username, bytesOf req.password) ∧
      (∀ answers,
        (checkExt auth (authBasic req.username req.password) answers clock).1.username ∈ ["", req.username]) ∧
      ∀ answers, (answers req.username).password = some req.password →
        (∀ lifecycle ∈ (answers req.username).lifecycle, lifecycle.Active clock.check) →
          (checkExt auth (authBasic req.username req.password) answers clock).1.username = req.username ∧
            (checkExt auth (authBasic req.username req.password) answers clock).1.deny = .none) ↔
      ':' ∉ req.username.toList ∧ LetsIn auth clock req.username req.password := by
  obtain ⟨-, filled, -⟩ := postUsers_created accepted
  rw [← parseBasic_authBasic_iff req.username req.password]
  refine ⟨fun ⟨parsed, _, logsIn⟩ => ⟨parsed, (logsIn_iff filled parsed).mp logsIn⟩,
    fun ⟨parsed, letsIn⟩ => ⟨parsed, ?_, (logsIn_iff filled parsed).mpr letsIn⟩⟩
  intro answers
  by_cases named : (checkExt auth (authBasic req.username req.password) answers clock).1.username = ""
  · rw [named]
    exact List.mem_cons_self
  · obtain ⟨password, read⟩ := checkExt_username named
    rw [parsed] at read
    obtain ⟨same, -⟩ := Prod.mk.inj (Option.some.inj read)
    rw [← same]
    exact List.mem_cons_of_mem _ List.mem_cons_self

/-- A table with one user, whose password has a colon. -/
def aliceOnly : Store := (∅ : Store).insert "alice" ⟨"x:y", 0, defaultLifecycle⟩

/-- An environment; nothing below depends on it. -/
def anyEnv : Env := ⟨fun _ => false, fun _ => .ok [], [], fun _ => [], fun _ => ∅⟩

theorem createUser_credentials_bob :
    ∃ store', postUsers (sqliteStore anyEnv) (some aliceOnly) (.ok ⟨"bob", "p:w", 0, 0, 0⟩) =
        (created, some store') ∧
      (checkExt (new 60) (authBasic "bob" "p:w") (store'.answers {}) ⟨0, 1, 2⟩).1.username = "bob" := by
  have accepted : ∃ store', postUsers (sqliteStore anyEnv) (some aliceOnly) (.ok ⟨"bob", "p:w", 0, 0, 0⟩) =
      (created, some store') ∧ (store'.answers {} "bob").password = some "p:w" ∧
        (store'.answers {} "bob").lifecycle = some defaultLifecycle := ⟨_, rfl, rfl, rfl⟩
  obtain ⟨store', accepted, secret, lifecycle⟩ := accepted
  obtain ⟨-, -, logsIn⟩ := (createUser_credentials_iff accepted (new 60) ⟨0, 1, 2⟩).mpr
    ⟨by decide, fun entry cached => absurd cached (by simp [new])⟩
  refine ⟨store', accepted, (logsIn _ secret fun given some => ?_).1⟩
  rw [lifecycle] at some
  cases some
  decide

/-- The user `alice:x` with the password `y` is created, and logs in as `alice`. -/
theorem created_user_is_another :
    ∃ store', postUsers (sqliteStore anyEnv) (some aliceOnly) (.ok ⟨"alice:x", "y", 0, 0, 0⟩) =
        (created, some store') ∧
      parseBasic (authBasic "alice:x" "y") = some ("alice", bytesOf "x:y") ∧
      (checkExt (new 0) (authBasic "alice:x" "y") (store'.answers {}) ⟨0, 0, 0⟩).1 = { username := "alice" } :=
  ⟨_, rfl, by decide +kernel, by decide +kernel⟩

end Ttgo.Server.Users

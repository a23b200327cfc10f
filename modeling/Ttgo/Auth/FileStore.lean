/-
**`FileStore`: users from `credentials.toml`.**

`internal/auth/store/file.go` keeps a map from usernames to passwords and device limits; a later entry of
the file replaces an earlier one with the same username. The store has no lifecycles.

* `reload` — the map of the entries; `lookup_reload` — the last entry of a username counts.
* `checkUser` — `CheckExt` for the credentials of a header, over a store that is asked for the first time;
  `checkUser_eq` — what it grants; `granted_eq_iff` — when two stores grant the same.
-/

import Mathlib.Data.List.Induction
import Ttgo.Auth.Store

namespace Ttgo.Auth

open Ttgo.Lib

/-! ### The store -/

structure Client where
  username : String
  password : String
  maxDevices : Int
deriving DecidableEq, Repr

structure FileEntry where
  password : String
  maxDevices : Int
deriving DecidableEq, Repr

/-- `reload`, once the file is decoded. -/
def reload (clients : List Client) : GoMap String FileEntry :=
  clients.foldl (fun users c => users.insert c.username ⟨c.password, c.maxDevices⟩) ∅

/-- The answers of the store to one lookup; a user that is not there is the zero value. -/
def fileAnswers (users : GoMap String FileEntry) (username : String) : Answers where
  password := some (((users.lookup username).map FileEntry.password).getD "")
  maxDevices := some (((users.lookup username).map FileEntry.maxDevices).getD 0)
  lifecycle := none

def lastOf (clients : List Client) (username : String) : Option Client :=
  clients.reverse.find? fun c => c.username = username

def firstOf (clients : List Client) (username : String) : Option Client :=
  clients.find? fun c => c.username = username

theorem lookup_reload (clients : List Client) (username : String) :
    (reload clients).lookup username =
      (lastOf clients username).map fun c => ⟨c.password, c.maxDevices⟩ := by
  induction clients using List.reverseRecOn with
  | nil => rfl
  | append_singleton clients c ih =>
    rw [reload, List.foldl_concat, GoMap.lookup_insert_ite, lastOf, List.reverse_concat, List.find?_cons]
    by_cases same : c.username = username
    · rw [if_pos same.symm]
      simp [same]
    · rw [if_neg (Ne.symm same)]
      simpa [same, reload, lastOf] using ih

theorem firstOf_eq_none_iff (clients : List Client) (username : String) :
    firstOf clients username = none ↔ lastOf clients username = none := by
  simp [firstOf, lastOf]

/-! ### What a store grants -/

/-- `CheckExt` for the credentials of a header, where nothing is cached yet. -/
def checkUser (ttl : Int) (clock : Clock) (answers : Answers) (username : String)
    (password : List UInt8) : CheckResult :=
  checkFound username password
    (lookupEntry (new ttl) username answers clock.read clock.write).1 clock.check

theorem checkExt_eq_checkUser {ttl : Int} {clock : Clock} {answers : String → Answers}
    {header username : String} {password : List UInt8}
    (parsed : parseBasic header = some (username, password)) :
    (checkExt (new ttl) header answers clock).1 =
      checkUser ttl clock (answers username) username password := by
  rw [checkExt, parsed]
  rfl

/-- What is granted for a password and a limit of a store. -/
def granted (username secret : String) (limit : Int) (password : List UInt8) : CheckResult :=
  if secret = "" ∨ password ≠ bytesOf secret then { deny := .badCreds }
  else { username, maxDevices := limit }

/-- What the store is asked for, once it has a password: the cache has no part in it. -/
theorem askStore_of_password {a : Authenticator} {username secret : String} {answers : Answers}
    (secrets : answers.password = some secret) (present : secret ≠ "") (hit : Option CacheEntry) (now : Int) :
    ∃ entry, (askStore a username hit answers now).1 = some entry ∧ entry.password = secret ∧
      entry.maxDevices = answers.maxDevices.getD 0 ∧
      ∀ check, (∀ lifecycle ∈ answers.lifecycle, lifecycle.Active check) → entry.Usable check := by
  simp only [askStore, secrets, if_neg present]
  refine ⟨_, rfl, ?_⟩
  cases answers.lifecycle with
  | none => exact ⟨rfl, rfl, fun _ _ has => absurd has (by simp)⟩
  | some given => exact ⟨rfl, rfl, fun _ active => (usable_withLifecycle _ _ _ _).mpr (active given rfl)⟩

theorem checkUser_eq {ttl : Int} {clock : Clock} {answers : Answers} {username secret : String}
    {password : List UInt8} {limit : Int} (secrets : answers.password = some secret)
    (limits : answers.maxDevices = some limit)
    (active : secret ≠ "" → ∀ lifecycle ∈ answers.lifecycle, lifecycle.Active clock.check) :
    checkUser ttl clock answers username password = granted username secret limit password := by
  unfold granted
  show checkFound username password (askStore (new ttl) username none answers clock.write).1 clock.check = _
  by_cases absent : secret = ""
  · rw [if_pos (.inl absent)]
    simp [askStore, secrets, absent, checkFound]
  obtain ⟨entry, found, same, limited, usable⟩ :=
    askStore_of_password secrets absent none clock.write
  rw [found]
  show checkEntry username password entry clock.check = _
  by_cases right : password = bytesOf secret
  · rw [if_neg (by simp [absent, right])]
    refine ((checkEntry_granted_iff _ _ _ _ _).mpr ⟨same ▸ right, usable _ (active absent), ?_⟩).1
    rw [limited, limits]
    rfl
  · rw [if_pos (.inr right)]
    exact if_pos (same ▸ right)

theorem bytesOf_injective : Function.Injective bytesOf := by
  intro first second same
  have bytes : first.toUTF8 = second.toUTF8 := by
    rw [ByteArray.ext_iff, ← Array.toList_inj]
    exact same
  exact String.toByteArray_inj.mp bytes

theorem granted_eq_iff {username secret secret' : String} {limit limit' : Int} :
    (∀ password, granted username secret limit password = granted username secret' limit' password) ↔
      secret = secret' ∧ (secret ≠ "" → limit = limit') := by
  constructor
  · intro same
    by_cases absent : secret = ""
    · refine ⟨?_, fun present => absurd absent present⟩
      by_contra other
      have present : secret' ≠ "" := fun none => other (absent.trans none.symm)
      have clash := same (bytesOf secret')
      rw [granted, granted, if_pos (.inl absent), if_neg (by simp [present])] at clash
      exact absurd (congrArg CheckResult.deny clash) (by simp)
    · have grant := same (bytesOf secret)
      rw [granted, if_neg (by simp [absent]), granted] at grant
      split at grant
      · exact absurd (congrArg CheckResult.deny grant) (by simp)
      · next right =>
        rw [not_or, not_not] at right
        exact ⟨bytesOf_injective right.2, fun _ => congrArg CheckResult.maxDevices grant⟩
  · rintro ⟨rfl, limits⟩ password
    by_cases absent : secret = ""
    · rw [granted, granted, if_pos (.inl absent), if_pos (.inl absent)]
    · rw [limits absent]

end Ttgo.Auth

/-
**The user store, as the authenticator sees it.**

A store that implements `UserStore`, `DeviceLimitStore` and `LifecycleStore` (`SQLiteStore` of
`internal/auth/store/sqlite.go`): a table of rows, and three reads that each may fail. A user without
a row has an empty password, no device limit and a disabled lifecycle.
-/

import Ttgo.Auth.Authenticator

namespace Ttgo.Auth

open Ttgo.Lib

/-- A row of `users`. -/
structure Row where
  password : String
  maxDevices : Int
  lifecycle : Lifecycle
deriving DecidableEq, Repr

abbrev Store := GoMap String Row

namespace Store

variable (store : Store) (username : String)

/-- `GetPassword`, where the query succeeds. -/
def getPassword : String := ((store.lookup username).map Row.password).getD ""

/-- `GetMaxDevices`, where the query succeeds. -/
def getMaxDevices : Int := ((store.lookup username).map Row.maxDevices).getD 0

/-- `GetLifecycle`, where the query succeeds. -/
def getLifecycle : Lifecycle := ((store.lookup username).map Row.lifecycle).getD ⟨false, 0, 0, 0⟩

end Store

/-- Which of the three reads of a lookup fail. -/
structure Failures where
  password : Bool := false
  maxDevices : Bool := false
  lifecycle : Bool := false
deriving DecidableEq, Repr

/-- The answers of the store to one lookup under a pattern of failures. -/
def Store.answers (store : Store) (fails : Failures) (username : String) : Answers where
  password := if fails.password then none else some (store.getPassword username)
  maxDevices := if fails.maxDevices then none else some (store.getMaxDevices username)
  lifecycle := if fails.lifecycle then none else some (store.getLifecycle username)

/-- The account is enabled, unexpired and under its traffic limit at the given time. -/
def Lifecycle.Active (lifecycle : Lifecycle) (now : Int) : Prop :=
  lifecycle.enabled = true ∧ ¬ (0 < lifecycle.expiresAt ∧ lifecycle.expiresAt ≤ unix now) ∧
    ¬ (0 < lifecycle.trafficLimit ∧ lifecycle.trafficLimit ≤ lifecycle.trafficUsed)

instance (lifecycle : Lifecycle) (now : Int) : Decidable (lifecycle.Active now) :=
  inferInstanceAs (Decidable (_ ∧ _))

theorem usable_withLifecycle (out : CacheEntry) (lifecycle : Lifecycle) (cacheExpiresAt now : Int) :
    ({ out.withLifecycle lifecycle with cacheExpiresAt } : CacheEntry).Usable now ↔
      lifecycle.Active now :=
  ⟨fun usable => usable rfl, fun active _ => active⟩

end Ttgo.Auth

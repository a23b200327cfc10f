/-
**The limits of a user that `POST /api/users` creates.**

The handler of `internal/server/adminapi.go` drops the errors of the calls that set the limits, over the stores that
`cmd/endpoint/main.go` puts behind it.

* `adminStore` — the file store and the SQLite store, as the handler sees them.
* `StoredUser.limits` — the password and the limits that are stored of a user.
* `created_limits_iff` — a created user has what was asked for, exactly if none of those calls fails.
-/

import Ttgo.Server.Backend

namespace Ttgo.Server.Users

open Ttgo.Lib Ttgo.Auth
open Ttgo.Admin hiding loadCreds
open Ttgo.Admin.CredsFile (Decoder saveCreds readable kept)
open Ttgo.Admin.FileUsers (fileUsers loadCreds)

/-! ### The stores -/

/-- `Add` of a store; `fault` is the error of the file system or the database, if there is one. -/
def Backend.add (decoder : Decoder) (env : Env) (fault : Option Text) (username password : String) :
    Backend → Except Text Backend
  | .file content =>
    match fileCall decoder env (fault.map .refused) content (.add username password) with
    | (next, .ok ()) => .ok (.file next)
    | (_, .error err) => .error err
  | .sqlite rows =>
    match fault with
    | some err => .error (addError { env with constraint := err } username)
    | none =>
      match addUser rows username password with
      | none => .error (addError env username)
      | some added => .ok (.sqlite added)

/-- `adminStoreAdapter`: it implements `AdminLifecycle` for both stores. -/
def adminStore (decoder : Decoder) (env : Env) (fault : Option Text) (faults : StoreFaults) :
    AdminUserStore Backend where
  add store username password := store.add decoder env fault username password
  setMaxDevices store username n := (store.set decoder env faults username (.maxDevices (.ofInt n))).1
  lifecycle := some
    { setExpiresAt := fun store username time => (store.set decoder env faults username (.expiresAt (.ofInt time))).1
      setTrafficLimit := fun store username limit => (store.set decoder env faults username (.trafficLimit limit)).1 }

/-! ### The limits -/

/-- What is stored of a user, as far as the request names it. -/
structure Limits where
  password : String
  maxDevices : Int
  expiresAt : Int
  trafficLimit : UInt64
deriving DecidableEq, Repr

/-- An entry of the file has no expiry and no traffic limit. -/
def entryLimits (entry : Client) : Limits := ⟨entry.password, entry.maxDevices, 0, 0⟩

def rowLimits (row : Row) : Limits :=
  ⟨row.password, row.maxDevices, row.lifecycle.expiresAt, row.lifecycle.trafficLimit⟩

/-- The last entry of a user is the one that is served. -/
def StoredUser.limits : StoredUser → Option Limits
  | .file entries => (entries.bind List.getLast?).map entryLimits
  | .sqlite row => row.map rowLimits

/-- **What was asked for.** -/
@[mk_iff]
structure Limits.Grants (limits : Limits) (req : CreateUser) : Prop where
  password : limits.password = req.password
  maxDevices : 0 < req.maxDevices → limits.maxDevices = req.maxDevices
  expiresAt : 0 < req.expiresAt → limits.expiresAt = req.expiresAt
  trafficLimit : 0 < req.trafficLimit → limits.trafficLimit = req.trafficLimit

def Granted (req : CreateUser) (stored : StoredUser) : Prop := ∃ limits ∈ stored.limits, limits.Grants req

/-- The numbers of the request are numbers of Go. -/
structure InRange (req : CreateUser) : Prop where
  maxDevices : req.maxDevices < 2 ^ 63
  expiresAt : req.expiresAt < 2 ^ 63

/-! ### The condition -/

/-- The call succeeds at the file, or has written all that was asked for when it fails. -/
def FileGrants (decoder : Decoder) (req : CreateUser) : Option Fault → Prop
  | none => True
  | some (.refused _) => False
  | some (.cut _ left) => Granted req (.file (fileUser decoder req.username (some left)))

/-- **The calls that have to succeed.** A table takes every limit below `2^63`; a file takes no expiry and no traffic
limit, and it has to be readable with the new entry. -/
def CanGrant (decoder : Decoder) (faults : StoreFaults) (req : CreateUser) : Backend → Prop
  | .sqlite _ =>
    (0 < req.maxDevices → sqliteRefuses faults (.maxDevices (.ofInt req.maxDevices)) = false) ∧
      (0 < req.expiresAt → sqliteRefuses faults (.expiresAt (.ofInt req.expiresAt)) = false) ∧
      (0 < req.trafficLimit → sqliteRefuses faults (.trafficLimit req.trafficLimit) = false)
  | .file content =>
    (∀ entries, loadCreds decoder content = .ok entries →
        AllReadable (entries ++ [⟨req.username, req.password, 0⟩])) ∧
      (0 < req.maxDevices → FileGrants decoder req (faults (.maxDevices (.ofInt req.maxDevices)))) ∧
      req.expiresAt ≤ 0 ∧ req.trafficLimit = 0

variable {decoder : Decoder} {env : Env} {fault : Option Text} {faults : StoreFaults} {req : CreateUser}
  {rows : Store} {row : Row} {content : Option Text} {username : String} {setting : Setting}

/-! ### The table -/

/-- A call whose error is dropped, if it is made at all. -/
def trySqlite (env : Env) (faults : StoreFaults) (username : String) (asked : Prop) [Decidable asked]
    (setting : Setting) (rows : Store) : Store :=
  if asked then (sqliteSet env faults username rows setting).1 else rows

theorem lookup_trySqlite (env : Env) (faults : StoreFaults) (asked : Prop) [Decidable asked] (setting : Setting)
    (found : rows.lookup username = some row) :
    (trySqlite env faults username asked setting rows).lookup username =
      some (if asked ∧ sqliteRefuses faults setting = false then setting.update row else row) := by
  unfold trySqlite
  by_cases made : asked
  · rw [if_pos made]
    rcases sqliteSet_cases env faults username rows setting with
      ⟨⟨err, fails⟩, refused | missing⟩ | ⟨row', found', accepted, done⟩
    · rw [fails, if_neg (by simp [refused]), found]
    · cases found.symm.trans missing
    · cases found.symm.trans found'
      rw [done, if_pos ⟨made, accepted⟩, AList.lookup_insert]
  · rw [if_neg made, if_neg fun both => made both.1, found]

theorem configure_sqlite (rows : Store) :
    configure (adminStore decoder env fault faults) (.sqlite rows) req =
      .sqlite (trySqlite env faults req.username (0 < req.trafficLimit) (.trafficLimit req.trafficLimit)
        (trySqlite env faults req.username (0 < req.expiresAt) (.expiresAt (.ofInt req.expiresAt))
          (trySqlite env faults req.username (0 < req.maxDevices) (.maxDevices (.ofInt req.maxDevices)) rows))) := by
  unfold configure adminStore trySqlite
  by_cases devices : 0 < req.maxDevices <;> by_cases time : 0 < req.expiresAt <;>
    by_cases limit : 0 < req.trafficLimit <;> simp only [devices, time, limit, if_true, if_false] <;> rfl

theorem rowLimits_updates (password : String) (devices time limit : Prop) [Decidable devices] [Decidable time]
    [Decidable limit] (n expiresAt : Int64) (trafficLimit : UInt64) :
    let first : Row := if devices then (Setting.maxDevices n).update ⟨password, 0, defaultLifecycle⟩
      else ⟨password, 0, defaultLifecycle⟩
    let second := if time then (Setting.expiresAt expiresAt).update first else first
    rowLimits (if limit then (Setting.trafficLimit trafficLimit).update second else second) =
      ⟨password, if devices then n.toInt else 0, if time then expiresAt.toInt else 0,
        if limit then trafficLimit else 0⟩ := by
  by_cases devices <;> by_cases time <;> by_cases limit <;> simp only [*, if_true, if_false] <;> rfl

theorem granted_iff {α : Type*} {asked : Prop} [Decidable asked] {refused : Bool} {stored value zero : α}
    (same : asked → stored = value) (differs : asked → zero ≠ value) :
    (asked → (if asked ∧ refused = false then stored else zero) = value) ↔ (asked → refused = false) := by
  refine forall_congr' fun given => ?_
  cases refused with
  | false => simp [given, same given]
  | true => simp [differs given]

theorem toInt_ofInt_of_pos {n : Int} (positive : 0 < n) (bound : n < 2 ^ 63) : (Int64.ofInt n).toInt = n :=
  Int64.toInt_ofInt_of_le (by omega) bound

theorem granted_row_iff (row : Row) : Granted req (.sqlite (some row)) ↔ (rowLimits row).Grants req := by
  simp [Granted, StoredUser.limits]

theorem granted_sqlite_iff (decoder : Decoder) (env : Env) (fault : Option Text) (faults : StoreFaults)
    (ranged : InRange req) (found : rows.lookup req.username = some ⟨req.password, 0, defaultLifecycle⟩) :
    Granted req ((configure (adminStore decoder env fault faults) (.sqlite rows) req).user decoder req.username) ↔
      CanGrant decoder faults req (.sqlite rows) := by
  have devices := lookup_trySqlite env faults (0 < req.maxDevices) (.maxDevices (.ofInt req.maxDevices)) found
  have time := lookup_trySqlite env faults (0 < req.expiresAt) (.expiresAt (.ofInt req.expiresAt)) devices
  have limit := lookup_trySqlite env faults (0 < req.trafficLimit) (.trafficLimit req.trafficLimit) time
  rw [configure_sqlite, Backend.user, limit, granted_row_iff, rowLimits_updates, Limits.grants_iff, and_iff_right rfl]
  refine and_congr (granted_iff (fun asked => ?_) fun asked => asked.ne) (and_congr
    (granted_iff (fun asked => ?_) fun asked => asked.ne) (granted_iff (fun _ => rfl) fun asked => ?_))
  · exact toInt_ofInt_of_pos asked ranged.maxDevices
  · exact toInt_ofInt_of_pos asked ranged.expiresAt
  · exact UInt64.ne_of_lt asked

/-! ### The file -/

theorem configure_file (content : Option Text) :
    configure (adminStore decoder env fault faults) (.file content) req =
      .file (if 0 < req.maxDevices then
        (fileSet decoder env faults req.username content (.maxDevices (.ofInt req.maxDevices))).1 else content) := by
  unfold configure adminStore
  by_cases devices : 0 < req.maxDevices <;> by_cases time : 0 < req.expiresAt <;>
    by_cases limit : 0 < req.trafficLimit <;> simp only [devices, time, limit, if_true, if_false] <;> rfl

theorem granted_file {entries : Option (List Client)} (granted : Granted req (.file entries)) :
    req.expiresAt ≤ 0 ∧ req.trafficLimit = 0 := by
  obtain ⟨limits, stored, grants⟩ := granted
  obtain ⟨entry, -, rfl⟩ := Option.map_eq_some_iff.mp stored
  refine ⟨not_lt.mp fun asked => asked.ne (grants.expiresAt asked), ?_⟩
  by_contra asked
  exact asked (grants.trafficLimit (UInt64.pos_iff_ne_zero.mpr asked)).symm

theorem granted_entry_iff (entry : Client) :
    Granted req (.file (some [entry])) ↔ (entry.password = req.password ∧
      (0 < req.maxDevices → entry.maxDevices = req.maxDevices)) ∧ req.expiresAt ≤ 0 ∧ req.trafficLimit = 0 := by
  constructor
  · intro granted
    have none := granted_file granted
    obtain ⟨_, ⟨⟩, grants⟩ := granted
    exact ⟨⟨grants.password, grants.maxDevices⟩, none⟩
  · rintro ⟨⟨password, devices⟩, time, limit⟩
    refine ⟨entryLimits entry, rfl, password, devices, fun asked => absurd asked (not_lt.mpr time), fun asked => ?_⟩
    rw [limit] at asked
    cases asked

theorem held_added {entries : List Client} (wide : Char → Bool) (loads : loadCreds decoder content = .ok entries)
    (fresh : ∀ c ∈ entries, c.username ≠ username) {password : String}
    (reads : AllReadable (entries ++ [⟨username, password, 0⟩])) :
    Held decoder username (some (saveCreds wide (entries ++ [⟨username, password, 0⟩]))) (entries.map kept)
      ⟨username, password, 0⟩ [] := by
  have bounds : ∀ c ∈ entries ++ [⟨username, password, 0⟩], c.maxDevices < 2 ^ 63 :=
    List.forall_mem_append.mpr ⟨maxDevices_loaded loads, by simp⟩
  refine ⟨?_, List.forall_mem_map.mpr fresh, rfl⟩
  rw [loadCreds, CredsFile.decode_saveCreds decoder wide reads bounds, List.map_append]
  rfl

theorem granted_held_iff {before : List Client} (env : Env) (faults : StoreFaults)
    (bound : req.maxDevices < 2 ^ 63)
    (held : Held decoder req.username content before ⟨req.username, req.password, 0⟩ [])
    (reads : AllReadable (before ++ [⟨req.username, req.password, req.maxDevices⟩])) :
    Granted req (.file (fileUser decoder req.username (if 0 < req.maxDevices then
        (fileSet decoder env faults req.username content (.maxDevices (.ofInt req.maxDevices))).1 else content))) ↔
      (0 < req.maxDevices → FileGrants decoder req (faults (.maxDevices (.ofInt req.maxDevices)))) ∧
        req.expiresAt ≤ 0 ∧ req.trafficLimit = 0 := by
  by_cases devices : 0 < req.maxDevices
  · rw [if_pos devices, held.set env faults rfl, forall_prop_of_true devices]
    rcases faults (.maxDevices (.ofInt req.maxDevices)) with _ | (err | ⟨err, left⟩)
    · have named : (⟨req.username, req.password, req.maxDevices⟩ : Client).username = req.username := rfl
      rw [writeFile, Setting.edit, toInt_ofInt_of_pos devices bound, held.fileUser_saved env.wide named bound,
        if_pos reads, FileGrants, true_and]
      exact (granted_entry_iff _).trans (and_iff_right ⟨rfl, fun _ => max_eq_left devices.le⟩)
    · rw [writeFile, held.fileUser_eq, FileGrants, false_and, iff_false]
      exact fun granted => devices.ne (((granted_entry_iff _).mp granted).1.2 devices)
    · exact ⟨fun granted => ⟨granted, granted_file granted⟩, And.left⟩
  · rw [if_neg devices, held.fileUser_eq, forall_prop_of_false devices, true_and]
    exact (granted_entry_iff _).trans (and_iff_right ⟨rfl, fun asked => absurd asked devices⟩)

theorem granted_file_iff (fault : Option Text) (faults : StoreFaults) (env : Env) (ranged : InRange req)
    {entries : List Client} (loads : loadCreds decoder content = .ok entries)
    (fresh : ∀ c ∈ entries, c.username ≠ req.username) :
    Granted req ((configure (adminStore decoder env fault faults)
        (.file (some (saveCreds env.wide (entries ++ [⟨req.username, req.password, 0⟩])))) req).user decoder
          req.username) ↔ CanGrant decoder faults req (.file content) := by
  have reads_iff : (∀ entries, loadCreds decoder content = .ok entries →
      AllReadable (entries ++ [⟨req.username, req.password, 0⟩])) ↔
        AllReadable (entries ++ [⟨req.username, req.password, 0⟩]) := by
    refine ⟨fun all => all entries loads, fun reads other same => ?_⟩
    cases loads.symm.trans same
    exact reads
  rw [configure_file, CanGrant, reads_iff, Backend.user]
  by_cases reads : AllReadable (entries ++ [⟨req.username, req.password, 0⟩])
  · rw [and_iff_right reads]
    refine granted_held_iff env faults ranged.maxDevices (held_added env.wide loads fresh reads) ?_
    obtain ⟨old, new⟩ := List.forall_mem_append.mp reads
    have same : readable ⟨req.username, req.password, 0⟩ = true := new _ List.mem_cons_self
    exact List.forall_mem_append.mpr ⟨List.forall_mem_map.mpr old, List.forall_mem_singleton.mpr same⟩
  · have bounds : ∀ c ∈ entries ++ [⟨req.username, req.password, 0⟩], c.maxDevices < 2 ^ 63 :=
      List.forall_mem_append.mpr ⟨maxDevices_loaded loads, by simp⟩
    obtain ⟨err, fails⟩ := fileSet_of_not_held env faults (.maxDevices (.ofInt req.maxDevices))
      (not_held_of_unreadable decoder req.username env.wide bounds reads)
    have stored : fileUser decoder req.username
        (some (saveCreds env.wide (entries ++ [⟨req.username, req.password, 0⟩]))) = none := by
      rw [fileUser, load_saved decoder env.wide bounds, if_neg reads]
      rfl
    rw [fails, ite_self, stored]
    refine iff_of_false ?_ fun all => reads all.1
    rintro ⟨_, ⟨⟩, -⟩

/-! ### The created user -/

theorem add_file {password : String} {added : Backend}
    (adds : Backend.add decoder env fault username password (.file content) = .ok added) :
    ∃ entries, loadCreds decoder content = .ok entries ∧ (∀ c ∈ entries, c.username ≠ username) ∧
      added = .file (some (saveCreds env.wide (entries ++ [⟨username, password, 0⟩]))) := by
  cases fault with
  | some err => cases adds
  | none =>
    have called : fileCall decoder env none content (.add username password) =
        (fileUsers decoder env.wide).call content (.add username password) := rfl
    cases loads : loadCreds decoder content with
    | error err =>
      have fails : (fileUsers decoder env.wide).call content (.add username password) = _ :=
        Cell.call_of_load_error loads _
      rw [Backend.add, Option.map_none, called, fails] at adds
      cases adds
    | ok entries =>
      by_cases known : (entries.any fun e => e.username = username) = true
      · have fails : (fileUsers decoder env.wide).call content (.add username password) = _ :=
          Cell.call_of_edit_error loads (if_pos known)
        rw [Backend.add, Option.map_none, called, fails] at adds
        cases adds
      · have done : (fileUsers decoder env.wide).call content (.add username password) = _ :=
          Cell.call_of_edit loads (if_neg known)
        rw [Backend.add, Option.map_none, called, done] at adds
        refine ⟨entries, rfl, fun c member same => known ?_, (Except.ok.inj adds).symm⟩
        exact List.any_eq_true.mpr ⟨c, member, decide_eq_true same⟩

theorem add_sqlite (decoder : Decoder) {password : String} {added : Backend}
    (adds : Backend.add decoder env fault username password (.sqlite rows) = .ok added) :
    ∃ next : Store, next.lookup username = some ⟨password, 0, defaultLifecycle⟩ ∧ added = .sqlite next := by
  cases fault with
  | some err => cases adds
  | none =>
    cases known : rows.lookup username with
    | some row =>
      simp only [Backend.add, addUser, known] at adds
      cases adds
    | none =>
      simp only [Backend.add, addUser, known] at adds
      exact ⟨_, AList.lookup_insert rows, (Except.ok.inj adds).symm⟩

/-- **The limits of a created user.** For every store, every request that is answered with `created`, and whichever
calls fail: the stored user has the password and every limit that was asked for, if and only if the store takes each
of them. -/
theorem created_limits_iff {decoder : Decoder} {env : Env} {fault : Option Text} {faults : StoreFaults}
    {store : Backend} {req : CreateUser} {after : Option Backend} (ranged : InRange req)
    (accepted : postUsers (adminStore decoder env fault faults) (some store) (.ok req) = (created, after)) :
    (∃ next ∈ after, Granted req (next.user decoder req.username)) ↔ CanGrant decoder faults req store := by
  obtain ⟨-, -, added, adds, rfl⟩ := postUsers_created accepted
  have only : (∃ next ∈ some (configure (adminStore decoder env fault faults) added req),
      Granted req (next.user decoder req.username)) ↔
        Granted req ((configure (adminStore decoder env fault faults) added req).user decoder req.username) := by
    simp
  rw [only]
  cases store with
  | file content =>
    obtain ⟨entries, loads, fresh, rfl⟩ := add_file adds
    exact granted_file_iff fault faults env ranged loads fresh
  | sqlite rows =>
    obtain ⟨next, found, rfl⟩ := add_sqlite decoder adds
    exact granted_sqlite_iff decoder env fault faults ranged found

/-- A request with every limit, at a table. -/
theorem created_limits_bob :
    ∃ after, postUsers (adminStore CredsFile.plainDecoder anyEnv none fun _ => none) (some (.sqlite ∅))
        (.ok ⟨"bob", "pw", 2, 100, 4096⟩) = (created, after) ∧
      ∃ next ∈ after, Granted ⟨"bob", "pw", 2, 100, 4096⟩ (next.user CredsFile.plainDecoder "bob") := by
  have accepted : postUsers (adminStore CredsFile.plainDecoder anyEnv none fun _ => none) (some (.sqlite ∅))
      (.ok ⟨"bob", "pw", 2, 100, 4096⟩) = (created, _) := rfl
  exact ⟨_, accepted, (created_limits_iff ⟨by decide, by decide⟩ accepted).mpr
    ⟨fun _ => rfl, fun _ => rfl, fun _ => rfl⟩⟩

/-- **A limit that is dropped.** At a file, a user with an expiry is created, and has none. -/
theorem created_without_limit :
    ∃ after, postUsers (adminStore CredsFile.plainDecoder anyEnv none fun _ => none) (some (.file none))
        (.ok ⟨"bob", "pw", 0, 100, 0⟩) = (created, some after) ∧
      (after.user CredsFile.plainDecoder "bob").limits = some ⟨"pw", 0, 0, 0⟩ ∧
      ¬Granted ⟨"bob", "pw", 0, 100, 0⟩ (after.user CredsFile.plainDecoder "bob") := by
  have stored : fileUser CredsFile.plainDecoder "bob" (some (saveCreds anyEnv.wide [⟨"bob", "pw", 0⟩])) =
      some [⟨"bob", "pw", 0⟩] :=
    (held_added anyEnv.wide (show loadCreds CredsFile.plainDecoder none = .ok [] from rfl) (by simp)
      (by decide)).fileUser_eq
  refine ⟨.file (some (saveCreds anyEnv.wide [⟨"bob", "pw", 0⟩])), rfl, ?_, ?_⟩
  · rw [Backend.user, stored]
    rfl
  · rw [Backend.user, stored, granted_entry_iff]
    decide

end Ttgo.Server.Users

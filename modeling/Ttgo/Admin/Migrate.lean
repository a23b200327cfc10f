/-
**`doMigrate`: users from `credentials.toml` into SQLite.**

`internal/admin/migrate.go` reads the entries of `credentials.toml`, inserts them one by one into the
table of the SQLite file, and points `vpn.toml` there. An entry whose username the table already has is
skipped.

* `migrateEntry`, `migrate` — the loop; `doMigrate` — the function, with its log.
* `lookup_migrate` — the first entry of a username counts, where the file store goes by the last.
* `Unambiguous` — the two entries say the same.
* `migration_preserves_iff` — the patched configuration selects the SQLite store, and the grants are the
  same exactly if the entries are unambiguous.
-/

import Ttgo.Auth.FileStore
import Ttgo.Admin.StorePatch

namespace Ttgo.Admin

open Ttgo.Lib Ttgo.Lib.Toml Ttgo.Auth Ttgo.Endpoint Ttgo.Admin.StorePatch

/-! ### The user table -/

/-- What the columns that an `INSERT` does not name hold. -/
def defaultLifecycle : Lifecycle := ⟨true, 0, 0, 0⟩

/-- `Add`: the `INSERT` fails where the username has a row. -/
def addUser (store : Auth.Store) (username password : String) : Option Auth.Store :=
  match store.lookup username with
  | some _ => none
  | none => some (store.insert username ⟨password, 0, defaultLifecycle⟩)

/-- `SetMaxDevices`: an error where the `UPDATE` changed no row. -/
def setMaxDevices (store : Auth.Store) (username : String) (n : Int) : Option Auth.Store :=
  (store.lookup username).map fun row => store.insert username { row with maxDevices := n }

/-! ### The loop -/

/-- What the environment decides: the characters that `%q` prints, how a text decodes to entries, the
error of the driver for a repeated username, the errors of the file operations, and the tables of the
PostgreSQL servers. -/
structure Env where
  wide : Char → Bool
  decodeCreds : Text → Except Text (List Client)
  constraint : Text
  describe : FileError → Text
  postgres : Text → Auth.Store

/-- The error of `Add`. -/
def addError (env : Env) (username : String) : Text :=
  "user ".toList ++ quote env.wide username.toList ++ " already exists or DB error: ".toList ++
    env.constraint

structure Migration where
  store : Auth.Store
  migrated : Nat := 0
  skipped : Nat := 0
  log : List Text := []

/-- One turn of the loop. -/
def migrateEntry (env : Env) (m : Migration) (e : Client) : Migration :=
  match addUser m.store e.username e.password with
  | none =>
    { m with
      skipped := m.skipped + 1
      log := m.log ++ ["  SKIP ".toList ++ e.username.toList ++ ": ".toList ++ addError env e.username] }
  | some added =>
    if 0 < e.maxDevices then
      { store := (setMaxDevices added e.username e.maxDevices).getD added
        migrated := m.migrated + 1
        skipped := m.skipped
        log := m.log ++ ["  OK   ".toList ++ e.username.toList ++ " (max_devices=".toList ++
          itoa e.maxDevices ++ ")".toList] }
    else
      { m with
        store := added
        migrated := m.migrated + 1
        log := m.log ++ ["  OK   ".toList ++ e.username.toList] }

def migrate (env : Env) (store : Auth.Store) (entries : List Client) : Migration :=
  entries.foldl (migrateEntry env) { store }

/-! ### The function -/

/-- The files, and the SQLite databases by their DSN. -/
structure World where
  files : Files
  databases : GoMap Text Auth.Store

/-- What fails: opening the database, with its error, and the file operations of the patch. -/
structure MigrateFaults where
  openDB : Option Text := none
  patch : Faults := {}

/-- What `showResult` is given. -/
structure Shown where
  lines : List Text
  isErr : Bool
deriving DecidableEq, Repr

/-- `loadCreds`: a file that does not exist has no entries. -/
def loadCreds (env : Env) (files : Files) (path : Text) : Except Text (List Client) :=
  match files.lookup (String.ofList path) with
  | none => .ok []
  | some data => env.decodeCreds data

/-- The DSN that `NewSQLiteStore` opens. -/
def openedDSN (dsn : Text) : Text := if dsn = [] then "users.db".toList else dsn

def World.database (world : World) (dsn : Text) : Auth.Store := (world.databases.lookup dsn).getD ∅

/-- The end of `doMigrate`, from the patch on. -/
def finishMigrate (env : Env) (world : World) (faults : MigrateFaults) (vpnPath : String)
    (targetDSN : Text) (patchVPN : Bool) (log : List Text) : World × Shown :=
  if patchVPN then
    let log := log ++ ["Patching ".toList ++ vpnPath.toList ++ " ...".toList]
    let patched := patchVPNStoreType env.wide world.files faults.patch vpnPath
      ⟨"sqlite".toList, targetDSN, []⟩
    match patched.1 with
    | some err =>
      ({ world with files := patched.2 },
        ⟨log ++ ["ERROR patching vpn.toml: ".toList ++ env.describe err], true⟩)
    | none =>
      ({ world with files := patched.2 },
        ⟨log ++ ["  store_type = \"sqlite\"".toList,
          "  store_dsn  = ".toList ++ quote env.wide targetDSN, [], "Migration complete!".toList,
          "Restart or send SIGHUP to apply new store settings.".toList], false⟩)
  else (world, ⟨log ++ [[], "Migration complete!".toList], false⟩)

/-- `doMigrate`: the world after it, and what is shown. -/
def doMigrate (env : Env) (world : World) (faults : MigrateFaults) (vpnPath : String)
    (srcCredPath targetDSN : Text) (patchVPN : Bool) : World × Shown :=
  let log := ["Reading users from ".toList ++ srcCredPath ++ " ...".toList]
  match loadCreds env world.files srcCredPath with
  | .error err => (world, ⟨log ++ ["ERROR: ".toList ++ err], true⟩)
  | .ok entries =>
    let log := log ++ ["Found ".toList ++ itoa entries.length ++ " user(s)".toList,
      "Opening SQLite: ".toList ++ targetDSN ++ " ...".toList]
    match faults.openDB with
    | some err => (world, ⟨log ++ ["ERROR: ".toList ++ err], true⟩)
    | none =>
      let m := migrate env (world.database (openedDSN targetDSN)) entries
      let log := log ++ m.log ++ ["Migrated: ".toList ++ itoa m.migrated ++
        ", Skipped (duplicates): ".toList ++ itoa m.skipped]
      let world := { world with databases := world.databases.insert (openedDSN targetDSN) m.store }
      finishMigrate env world faults vpnPath targetDSN patchVPN log

/-- What the store that the endpoint opens answers. A file store whose file cannot be decoded is
empty. -/
def storeAnswers (env : Env) (world : World) (selected : Selected) (username : String) : Answers :=
  match selected with
  | .sqlite dsn => (world.database dsn).answers {} username
  | .postgres dsn => (env.postgres dsn).answers {} username
  | .file path =>
    match (world.files.lookup (String.ofList path)).map env.decodeCreds with
    | some (.ok entries) => fileAnswers (reload entries) username
    | _ => fileAnswers ∅ username

/-! ### The first entry and the last -/

variable {env : Env} {entries : List Client}

/-- The row that an entry becomes: a limit is only set if it is positive. -/
def rowOf (e : Client) : Row := ⟨e.password, max e.maxDevices 0, defaultLifecycle⟩

theorem lookup_migrateEntry (m : Migration) (e : Client) (username : String) :
    (migrateEntry env m e).store.lookup username =
      (m.store.lookup username).or (if e.username = username then some (rowOf e) else none) := by
  unfold migrateEntry addUser
  cases known : m.store.lookup e.username with
  | some row =>
    by_cases same : e.username = username
    · subst same
      rw [known]
      rfl
    · rw [if_neg same, Option.or_none]
  | none =>
    have inserted : ∀ row : Row, (m.store.insert e.username row).lookup username =
        (m.store.lookup username).or (if e.username = username then some row else none) := by
      intro row
      rw [GoMap.lookup_insert_ite]
      by_cases same : e.username = username
      · subst same
        rw [if_pos rfl, if_pos rfl, known, Option.none_or]
      · rw [if_neg (Ne.symm same), if_neg same, Option.or_none]
    dsimp only
    split
    · next positive =>
      have row : rowOf e = ⟨e.password, e.maxDevices, defaultLifecycle⟩ := by
        rw [rowOf, max_eq_left positive.le]
      rw [setMaxDevices, AList.lookup_insert, Option.map_some, Option.getD_some, AList.insert_insert, row]
      exact inserted _
    · next limitless =>
      have row : rowOf e = ⟨e.password, 0, defaultLifecycle⟩ := by
        rw [rowOf, max_eq_right (not_lt.mp limitless)]
      rw [row]
      exact inserted _

theorem lookup_migrate (m : Migration) (username : String) :
    (entries.foldl (migrateEntry env) m).store.lookup username =
      (m.store.lookup username).or ((firstOf entries username).map rowOf) := by
  induction entries generalizing m with
  | nil => rw [List.foldl_nil, firstOf, List.find?_nil, Option.map_none, Option.or_none]
  | cons e entries ih =>
    rw [List.foldl_cons, ih, lookup_migrateEntry, Option.or_assoc]
    by_cases same : e.username = username
    · simp [firstOf, same]
    · simp [firstOf, same]

/-- The first and the last entry of a username have one password and, unless it is empty, one limit,
where a negative limit is none. -/
def Unambiguous (entries : List Client) : Prop :=
  ∀ first ∈ entries, ∀ last ∈ entries, firstOf entries first.username = some first →
    lastOf entries first.username = some last →
    first.password = last.password ∧ (last.password ≠ "" → last.maxDevices = max first.maxDevices 0)

instance (entries : List Client) : Decidable (Unambiguous entries) :=
  inferInstanceAs (Decidable (∀ first ∈ entries, ∀ last ∈ entries, _ → _ → _))

/-! ### What the two stores grant -/

/-- What is granted by the first entry of a username, with a negative limit as none. -/
def firstGrant (entries : List Client) (username : String) (password : List UInt8) : CheckResult :=
  granted username (((firstOf entries username).map Client.password).getD "")
    (((firstOf entries username).map fun e => max e.maxDevices 0).getD 0) password

/-- What is granted by the last entry of a username. -/
def lastGrant (entries : List Client) (username : String) (password : List UInt8) : CheckResult :=
  granted username (((lastOf entries username).map Client.password).getD "")
    (((lastOf entries username).map Client.maxDevices).getD 0) password

theorem checkUser_file (entries : List Client) (ttl : Int) (clock : Clock) (username : String)
    (password : List UInt8) :
    checkUser ttl clock (fileAnswers (reload entries) username) username password =
      lastGrant entries username password := by
  refine checkUser_eq ?_ ?_ fun _ lifecycle given => by cases given
  · simp only [fileAnswers, lookup_reload, Option.map_map]
    rfl
  · simp only [fileAnswers, lookup_reload, Option.map_map]
    rfl

theorem defaultLifecycle_active (now : Int) : defaultLifecycle.Active now :=
  ⟨rfl, fun past => absurd past.1 (by decide), fun beyond => absurd beyond.1 (by decide)⟩

theorem checkUser_migrated {store : Auth.Store}
    (rows : ∀ username, store.lookup username = (firstOf entries username).map rowOf)
    (ttl : Int) (clock : Clock) (username : String) (password : List UInt8) :
    checkUser ttl clock (store.answers {} username) username password =
      firstGrant entries username password := by
  refine checkUser_eq ?_ ?_ fun present lifecycle given => ?_
  · simp only [Store.answers, Store.getPassword, rows, Option.map_map]
    rfl
  · simp only [Store.answers, Store.getMaxDevices, rows, Option.map_map]
    rfl
  · cases entry : firstOf entries username with
    | none =>
      rw [entry] at present
      exact absurd rfl present
    | some first =>
      simp only [Store.answers, Store.getLifecycle, rows, entry] at given
      cases given
      exact defaultLifecycle_active clock.check

theorem firstGrant_eq_lastGrant_iff :
    (∀ username password, firstGrant entries username password = lastGrant entries username password) ↔
      Unambiguous entries := by
  simp only [firstGrant, lastGrant, granted_eq_iff]
  constructor
  · intro same first inFirst last inLast isFirst isLast
    have agreed := same first.username
    rw [isFirst, isLast] at agreed
    obtain ⟨secrets, limits⟩ : first.password = last.password ∧
      (first.password ≠ "" → max first.maxDevices 0 = last.maxDevices) := agreed
    exact ⟨secrets, fun present => (limits (secrets ▸ present)).symm⟩
  · intro unambiguous username
    cases isFirst : firstOf entries username with
    | none =>
      rw [(firstOf_eq_none_iff entries username).mp isFirst]
      exact ⟨rfl, fun _ => rfl⟩
    | some first =>
      cases isLast : lastOf entries username with
      | none =>
        rw [(firstOf_eq_none_iff entries username).mpr isLast] at isFirst
        cases isFirst
      | some last =>
        obtain rfl : first.username = username :=
          of_decide_eq_true (List.find?_some (p := fun c : Client => decide (c.username = username)) isFirst)
        obtain ⟨secrets, limits⟩ := unambiguous first (List.mem_of_find?_eq_some isFirst) last
          (List.mem_reverse.mp (List.mem_of_find?_eq_some isLast)) isFirst isLast
        exact ⟨secrets, fun present => (limits (secrets ▸ present)).symm⟩

/-! ### The migration -/

variable {world : World} {faults : MigrateFaults} {vpnPath : String} {src dsn : Text}

theorem doMigrate_completed {data : Text} (found : world.files.lookup vpnPath = some data)
    (parsed : loadCreds env world.files src = .ok entries)
    (completed : (doMigrate env world faults vpnPath src dsn true).2.isErr = false) :
    (doMigrate env world faults vpnPath src dsn true).1 =
      ⟨world.files.insert vpnPath (patchedText env.wide data "sqlite".toList dsn),
        world.databases.insert (openedDSN dsn)
          (migrate env (world.database (openedDSN dsn)) entries).store⟩ := by
  unfold doMigrate at completed ⊢
  rw [parsed] at completed ⊢
  dsimp only at completed ⊢
  cases opened : faults.openDB with
  | some err =>
    rw [opened] at completed
    cases completed
  | none =>
    rw [opened] at completed
    unfold finishMigrate at completed ⊢
    rw [if_pos rfl] at completed ⊢
    dsimp only at completed ⊢
    split at completed
    · cases completed
    · next patched =>
      dsimp only
      rw [files_patched found patched]

theorem database_migrated (empty : world.database (openedDSN dsn) = ∅) (username : String) :
    (migrate env (world.database (openedDSN dsn)) entries).store.lookup username =
      (firstOf entries username).map rowOf := by
  rw [migrate, lookup_migrate, empty]
  rfl

theorem storeAnswers_file (parsed : loadCreds env world.files src = .ok entries) (username : String) :
    storeAnswers env world (.file src) username = fileAnswers (reload entries) username := by
  unfold loadCreds at parsed
  unfold storeAnswers
  dsimp only
  cases found : world.files.lookup (String.ofList src) with
  | none =>
    rw [found] at parsed
    cases parsed
    rfl
  | some data =>
    rw [found] at parsed
    dsimp only at parsed
    rw [Option.map_some, parsed]

/-- **A completed migration of a file that the patch understands**: the configuration selects the SQLite
store under the DSN, and every username and password gets the same decision and device limit as from the
file store exactly if the entries are unambiguous. -/
theorem migration_preserves_iff {Rest : Type} (decoder : Decoder Rest) {data : Text} {config : Config Rest}
    (found : world.files.lookup vpnPath = some data) (loaded : load decoder data = some config)
    (parsed : loadCreds env world.files src = .ok entries)
    (empty : world.database (openedDSN dsn) = ∅) (readable : ∀ c ∈ dsn, isReadable c)
    (effective : Effective decoder data "sqlite".toList dsn)
    (completed : (doMigrate env world faults vpnPath src dsn true).2.isErr = false) :
    ∃ patched config', (doMigrate env world faults vpnPath src dsn true).1.files.lookup vpnPath =
        some patched ∧
      load decoder patched = some config' ∧ buildStore config' = .sqlite (openedDSN dsn) ∧
      ((∀ ttl clock username password,
          checkUser ttl clock (storeAnswers env (doMigrate env world faults vpnPath src dsn true).1
              (buildStore config') username) username password =
            checkUser ttl clock (storeAnswers env world (.file src) username) username password) ↔
        Unambiguous entries) := by
  have after := doMigrate_completed found parsed completed
  have settled : ∀ c ∈ "sqlite".toList ++ dsn, isReadable c := by
    intro c member
    rcases List.mem_append.mp member with inType | inDSN
    · exact List.all_eq_true.mp (show "sqlite".toList.all isReadable by decide) c inType
    · exact readable c inDSN
  have selected : load decoder (patchedText env.wide data "sqlite".toList dsn) = some _ :=
    load_patched_of_effective settled loaded effective
  refine ⟨_, _, ?_, selected, ?_, ?_⟩
  · rw [after, AList.lookup_insert]
  · rfl
  have sqlite : ∀ ttl clock username password,
      checkUser ttl clock (storeAnswers env (doMigrate env world faults vpnPath src dsn true).1
          (.sqlite (openedDSN dsn)) username) username password =
        firstGrant entries username password := by
    rw [after]
    refine checkUser_migrated fun username => ?_
    rw [World.database, AList.lookup_insert, Option.getD_some, database_migrated empty]
  have file : ∀ ttl clock username password,
      checkUser ttl clock (storeAnswers env world (.file src) username) username password =
        lastGrant entries username password := by
    intro ttl clock username password
    rw [storeAnswers_file parsed, checkUser_file]
  rw [← firstGrant_eq_lastGrant_iff]
  constructor
  · intro same username password
    have agreed := same 0 ⟨0, 0, 0⟩ username password
    rw [file] at agreed
    exact (sqlite 0 ⟨0, 0, 0⟩ username password).symm.trans agreed
  · intro same ttl clock username password
    rw [file]
    exact (sqlite ttl clock username password).trans (same username password)

/-- An environment in which `credentials.toml` decodes to the given entries. -/
def decoding (entries : List Client) : Env where
  wide := fun _ => true
  decodeCreds := fun _ => .ok entries
  constraint := "constraint failed: UNIQUE constraint failed: users.username (1555)".toList
  describe := fun _ => []
  postgres := fun _ => ∅

/-- A `vpn.toml` and a `credentials.toml`, and no databases. -/
def installed (vpn : String) : World :=
  ⟨((∅ : Files).insert "credentials.toml" []).insert "vpn.toml" vpn.toList, ∅⟩

/-- A migration of the two files. -/
def migrated (entries : List Client) (vpn : String) (dsn : Text) : World × Shown :=
  doMigrate (decoding entries) (installed vpn) {} "vpn.toml" "credentials.toml".toList dsn true

/-- The store that the endpoint goes on with. -/
def loadedAfter (entries : List Client) (vpn : String) (dsn : Text) : Option Selected :=
  (((migrated entries vpn dsn).1.files.lookup "vpn.toml").bind (load plainDecoder)).map buildStore

def oneUser : List Client := [⟨"alice", "old", 2⟩]

def sectionedToml : String := "auth_failure_status_code = 407\n\n[admin]\n"

theorem migration_preserves_alice :
    Unambiguous oneUser ∧ (migrated oneUser sectionedToml "users.db".toList).2.isErr = false ∧
    ∃ patched config', (migrated oneUser sectionedToml "users.db".toList).1.files.lookup "vpn.toml" =
        some patched ∧
      load plainDecoder patched = some config' ∧ buildStore config' = .sqlite "users.db".toList ∧
      ((∀ ttl clock username password,
          checkUser ttl clock (storeAnswers (decoding oneUser)
              (migrated oneUser sectionedToml "users.db".toList).1 (buildStore config') username)
              username password =
            checkUser ttl clock (storeAnswers (decoding oneUser) (installed sectionedToml)
              (.file "credentials.toml".toList) username) username password) ↔
        Unambiguous oneUser) := by
  obtain ⟨config, loaded⟩ : ∃ config, load plainDecoder sectionedToml.toList = some config :=
    Option.isSome_iff_exists.mp (by decide +kernel)
  have completed : (migrated oneUser sectionedToml "users.db".toList).2.isErr = false := by decide +kernel
  have found : (installed sectionedToml).files.lookup "vpn.toml" = some sectionedToml.toList := by
    decide +kernel
  have parsed : loadCreds (decoding oneUser) (installed sectionedToml).files "credentials.toml".toList =
      .ok oneUser := by
    rw [loadCreds, show (installed sectionedToml).files.lookup
      (String.ofList "credentials.toml".toList) = some [] by decide +kernel]
    rfl
  have effective : Effective plainDecoder sectionedToml.toList "sqlite".toList "users.db".toList :=
    ⟨[["auth_failure_status_code = 407".toList]], [[[]], ["[admin]".toList], [[]]], by decide +kernel,
      by decide +kernel, by decide +kernel⟩
  have readable : "users.db".toList.all isReadable := by decide
  exact ⟨by decide, completed, migration_preserves_iff plainDecoder found loaded parsed rfl
    (List.all_eq_true.mp readable) effective completed⟩

/-- A password that a second entry has changed. -/
def repeatedUser : List Client := [⟨"alice", "old", 2⟩, ⟨"alice", "new", 3⟩]

/-- **Completed migrations that change who gets in.** A username with two entries keeps the first, where
the file store went by the last. In a file that ends in a section, the new keys come to stand there, and
the endpoint goes on with the file store. A DSN with a control character makes the file unreadable. -/
theorem migration_changes_grants :
    ((migrated repeatedUser sectionedToml "users.db".toList).2.isErr = false ∧
      loadedAfter repeatedUser sectionedToml "users.db".toList = some (.sqlite "users.db".toList) ∧
      checkUser 0 ⟨0, 0, 0⟩ (storeAnswers (decoding repeatedUser) (installed sectionedToml)
        (.file "credentials.toml".toList) "alice") "alice" (bytesOf "new") =
          { username := "alice", maxDevices := 3 } ∧
      checkUser 0 ⟨0, 0, 0⟩ (storeAnswers (decoding repeatedUser)
        (migrated repeatedUser sectionedToml "users.db".toList).1 (.sqlite "users.db".toList) "alice") "alice"
          (bytesOf "new") = { deny := .badCreds }) ∧
    ((load plainDecoder "[admin]\n".toList).map buildStore = some (.file []) ∧
      (migrated oneUser "[admin]\n" "users.db".toList).2.isErr = false ∧
      loadedAfter oneUser "[admin]\n" "users.db".toList = some (.file [])) ∧
    ((migrated oneUser sectionedToml ['\x07']).2.isErr = false ∧
      loadedAfter oneUser sectionedToml ['\x07'] = none) := by
  decide +kernel

end Ttgo.Admin

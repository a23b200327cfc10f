/-
**The SQLite user store of the admin tool, and the file store.**

`sqliteUserStore` of `internal/admin/userstore.go` runs one statement a call. `NewSQLiteStore` creates the table with
three columns; `List` selects four more, which only the endpoint's own store creates.

* `Table` — the columns and the rows; a statement that names a column which is not there fails.
* `newSQLiteStore`, `sqliteCall`, `sqliteList` — the constructor and the calls.
* `Mirrors` — the rows are the users of a map; `sqliteCall_of_apply` — the calls are the operations on it.
* `Agree` — the two stores succeed and fail alike, and list the same users; `agree_iff_of_mirrors` — they do, but for
  `List` on a table without the columns.
-/

import Ttgo.Admin.FileUsers
import Ttgo.Admin.Migrate

namespace Ttgo.Admin.Backends

open Ttgo.Lib Ttgo.Lib.Toml Ttgo.Auth Ttgo.Admin.CredsFile Ttgo.Admin.FileUsers

/-! ### The table -/

inductive Column where
  | username
  | password
  | maxDevices
  | enabled
  | expiresAt
  | trafficLimitBytes
  | trafficUsedBytes
deriving DecidableEq, Repr

def Column.name : Column → Text
  | .username => "username".toList
  | .password => "password".toList
  | .maxDevices => "max_devices".toList
  | .enabled => "enabled".toList
  | .expiresAt => "expires_at".toList
  | .trafficLimitBytes => "traffic_limit_bytes".toList
  | .trafficUsedBytes => "traffic_used_bytes".toList

/-- The table `users`; what a row has in a column that is not there is not read. -/
structure Table where
  columns : List Column
  rows : Auth.Store

/-- A statement fails with the first column that it names and the table does not have. -/
def Table.exec {α : Type} (table : Table) (named : List Column) (effect : Except Text α) : Except Text α :=
  match named.find? (· ∉ table.columns) with
  | some column => .error ("SQL logic error: no such column: ".toList ++ column.name ++ " (1)".toList)
  | none => effect

/-- `NewSQLiteStore`: `CREATE TABLE IF NOT EXISTS`, and `ALTER TABLE ... ADD COLUMN max_devices`, which fails where
the column is there. -/
def newSQLiteStore : Option Table → Table
  | none => ⟨[.username, .password, .maxDevices], ∅⟩
  | some table =>
    if .maxDevices ∈ table.columns then table else { table with columns := table.columns ++ [.maxDevices] }

/-! ### The calls -/

/-- `UPDATE` or `DELETE` of the row of a username: an error where no row changed. -/
def changeRow (env : Env) (table : Table) (named : List Column) (username : String)
    (rows : Option Auth.Store) : Table × Except Text Unit :=
  match table.exec named (.ok ()) with
  | .error err => (table, .error err)
  | .ok () =>
    match rows with
    | none => (table, .error (userError env.wide username " not found"))
    | some rows => ({ table with rows }, .ok ())

def sqliteAdd (env : Env) (table : Table) (username password : String) : Table × Except Text Unit :=
  match table.exec [.username, .password] (.ok ()) with
  | .error err =>
    (table, .error ("user ".toList ++ quote env.wide username.toList ++ " already exists or DB error: ".toList ++ err))
  | .ok () =>
    match Admin.addUser table.rows username password with
    | none => (table, .error (addError env username))
    | some rows => ({ table with rows }, .ok ())

def sqliteDelete (env : Env) (table : Table) (username : String) : Table × Except Text Unit :=
  changeRow env table [.username] username
    ((table.rows.lookup username).map fun _ => table.rows.erase username)

def sqliteChangePassword (env : Env) (table : Table) (username password : String) : Table × Except Text Unit :=
  changeRow env table [.password, .username] username
    ((table.rows.lookup username).map fun row => table.rows.insert username { row with password })

def sqliteSetMaxDevices (env : Env) (table : Table) (username : String) (n : Int) : Table × Except Text Unit :=
  changeRow env table [.maxDevices, .username] username (Admin.setMaxDevices table.rows username n)

def sqliteCall (env : Env) (table : Table) : UserOp → Table × Except Text Unit
  | .add username password => sqliteAdd env table username password
  | .delete username => sqliteDelete env table username
  | .changePassword username password => sqliteChangePassword env table username password
  | .setMaxDevices username n => sqliteSetMaxDevices env table username n

def selected : List Column :=
  [.username, .password, .maxDevices, .enabled, .expiresAt, .trafficLimitBytes, .trafficUsedBytes]

/-- The user of a row. -/
def entryOf (row : Row) : FileEntry := ⟨row.password, row.maxDevices⟩

/-- `List`, in the order of the usernames. Of the entries it returns the fields that the file store has too. -/
def sqliteList (table : Table) : Except Text (List Client) :=
  table.exec selected
    (.ok ((table.rows.entries.map fun row => client (row.1, entryOf row.2)).mergeSort
      fun first second => first.username ≤ second.username))

/-! ### The rows are the users of a map -/

variable {env : Env} {table : Table} {map next : UserMap} {op : UserOp} {named : List Column} {username : String}
  {decoder : Decoder} {file : Option Text}

theorem exec_of_subset {α : Type} {effect : Except Text α} (known : named ⊆ table.columns) :
    table.exec named effect = effect := by
  have none : named.find? (· ∉ table.columns) = none := by
    rw [List.find?_eq_none]
    intro column member
    simpa using known member
  rw [Table.exec, none]

theorem exec_of_missing {α : Type} {effect : Except Text α} (missing : ¬ named ⊆ table.columns) :
    ∃ err, table.exec named effect = .error err := by
  cases found : named.find? (· ∉ table.columns) with
  | some column => exact ⟨_, by rw [Table.exec, found]⟩
  | none =>
    refine absurd (fun column member => ?_) missing
    simpa using List.find?_eq_none.mp found column member

/-- The table has the columns of the constructor, and its rows are the users of the map. -/
structure Mirrors (table : Table) (map : UserMap) : Prop where
  columns : [Column.username, .password, .maxDevices] ⊆ table.columns
  rows : ∀ username, (table.rows.lookup username).map entryOf = map.lookup username

theorem mirrors_new : Mirrors (newSQLiteStore none) .empty :=
  ⟨fun _ member => member, fun _ => rfl⟩

theorem Mirrors.exec_eq (mirrors : Mirrors table map) {α : Type} {effect : Except Text α}
    (simple : named ⊆ [.username, .password, .maxDevices]) : table.exec named effect = effect :=
  exec_of_subset fun _ member => mirrors.columns (simple member)

theorem Mirrors.changeRow_eq (mirrors : Mirrors table map) (rows : Option Auth.Store)
    (simple : named ⊆ [.username, .password, .maxDevices]) :
    changeRow env table named username rows =
      rows.elim (table, .error (userError env.wide username " not found")) fun rows =>
        ({ table with rows }, .ok ()) := by
  unfold changeRow
  rw [mirrors.exec_eq simple]
  cases rows with
  | none => rfl
  | some rows => rfl

theorem Mirrors.exists_row (mirrors : Mirrors table map) (present : username ∈ map.keys) :
    ∃ row, table.rows.lookup username = some row := by
  refine Option.ne_none_iff_exists'.mp fun absent => ?_
  have reads := mirrors.rows username
  rw [absent] at reads
  exact OrderedMap.lookup_eq_none_iff.mp reads.symm present

theorem Mirrors.update (mirrors : Mirrors table map) {row new : Row} {change : FileEntry → FileEntry}
    (found : table.rows.lookup username = some row) (changed : entryOf new = change (entryOf row))
    (modified : map.modify username change = some next) :
    Mirrors { table with rows := table.rows.insert username new } next := by
  refine ⟨mirrors.columns, fun other => ?_⟩
  rw [OrderedMap.lookup_modify modified, GoMap.lookup_insert_ite, ← mirrors.rows, ← mirrors.rows, found]
  split
  · exact congrArg some changed
  · rfl

theorem Mirrors.lookup_eq_none (mirrors : Mirrors table map) :
    table.rows.lookup username = none ↔ username ∉ map.keys := by
  rw [← OrderedMap.lookup_eq_none_iff, ← mirrors.rows, Option.map_eq_none_iff]

theorem sqliteCall_of_apply_none (env : Env) (mirrors : Mirrors table map) (unapplied : op.apply map = none) :
    ∃ err, sqliteCall env table op = (table, .error err) := by
  cases op with
  | add username password =>
    obtain ⟨row, found⟩ := mirrors.exists_row (OrderedMap.add_eq_none_iff.mp unapplied)
    refine ⟨addError env username, ?_⟩
    rw [sqliteCall, sqliteAdd, mirrors.exec_eq (by simp)]
    simp only [Admin.addUser, found]
  | delete username =>
    have absent := mirrors.lookup_eq_none.mpr (OrderedMap.delete_eq_none_iff.mp unapplied)
    refine ⟨userError env.wide username " not found", ?_⟩
    rw [sqliteCall, sqliteDelete, mirrors.changeRow_eq _ (by simp), absent]
    rfl
  | changePassword username password =>
    have absent := mirrors.lookup_eq_none.mpr (OrderedMap.modify_eq_none_iff.mp unapplied)
    refine ⟨userError env.wide username " not found", ?_⟩
    rw [sqliteCall, sqliteChangePassword, mirrors.changeRow_eq _ (by simp), absent]
    rfl
  | setMaxDevices username n =>
    have absent := mirrors.lookup_eq_none.mpr (OrderedMap.modify_eq_none_iff.mp unapplied)
    refine ⟨userError env.wide username " not found", ?_⟩
    rw [sqliteCall, sqliteSetMaxDevices, mirrors.changeRow_eq _ (by simp), Admin.setMaxDevices, absent]
    rfl

theorem sqliteCall_of_apply (env : Env) (mirrors : Mirrors table map) (applied : op.apply map = some next) :
    ∃ rows, sqliteCall env table op = ({ table with rows }, .ok ()) ∧ Mirrors { table with rows } next := by
  cases op with
  | add username password =>
    obtain ⟨absent, -⟩ := OrderedMap.add_eq_some_iff.mp applied
    refine ⟨table.rows.insert username ⟨password, 0, defaultLifecycle⟩, ?_, mirrors.columns, fun other => ?_⟩
    · rw [sqliteCall, sqliteAdd, mirrors.exec_eq (by simp)]
      simp only [Admin.addUser, mirrors.lookup_eq_none.mpr absent]
    · rw [OrderedMap.lookup_add applied, GoMap.lookup_insert_ite, ← mirrors.rows]
      split
      · rfl
      · rfl
  | delete username =>
    obtain ⟨row, found⟩ := mirrors.exists_row (OrderedMap.delete_eq_some_iff.mp applied).1
    refine ⟨table.rows.erase username, ?_, mirrors.columns, fun other => ?_⟩
    · rw [sqliteCall, sqliteDelete, mirrors.changeRow_eq _ (by simp), found]
      rfl
    · rw [OrderedMap.lookup_delete applied, GoMap.lookup_erase_ite, ← mirrors.rows]
      split
      · rfl
      · rfl
  | changePassword username password =>
    obtain ⟨row, found⟩ := mirrors.exists_row (OrderedMap.modify_eq_some_iff.mp applied).1
    refine ⟨table.rows.insert username { row with password }, ?_, mirrors.update found rfl applied⟩
    rw [sqliteCall, sqliteChangePassword, mirrors.changeRow_eq _ (by simp), found]
    rfl
  | setMaxDevices username n =>
    obtain ⟨row, found⟩ := mirrors.exists_row (OrderedMap.modify_eq_some_iff.mp applied).1
    refine ⟨table.rows.insert username { row with maxDevices := n }, ?_, mirrors.update found rfl applied⟩
    rw [sqliteCall, sqliteSetMaxDevices, mirrors.changeRow_eq _ (by simp), Admin.setMaxDevices, found]
    rfl

theorem mem_sqliteList (mirrors : Mirrors table map) (known : selected ⊆ table.columns) :
    ∃ users, sqliteList table = .ok users ∧ ∀ c, c ∈ clients map ↔ c ∈ users := by
  refine ⟨_, exec_of_subset known, fun c => ?_⟩
  rw [List.mem_mergeSort, clients, List.mem_map, List.mem_map]
  constructor
  · rintro ⟨⟨username, entry⟩, member, rfl⟩
    have reads := (mirrors.rows username).trans (OrderedMap.lookup_eq_some_iff.mpr member)
    obtain ⟨row, found, rfl⟩ := Option.map_eq_some_iff.mp reads
    exact ⟨⟨username, row⟩, AList.mem_lookup_iff.mp found, rfl⟩
  · rintro ⟨⟨username, row⟩, member, rfl⟩
    have found : table.rows.lookup username = some row := AList.mem_lookup_iff.mpr member
    have reads := mirrors.rows username
    rw [found] at reads
    exact ⟨(username, entryOf row), OrderedMap.lookup_eq_some_iff.mp reads.symm, rfl⟩

/-! ### The two stores -/

inductive Request where
  | op (op : UserOp)
  | list

/-- Two lists of users are the same set, or both stores fail. -/
def SameUsers : Except Text (List Client) → Except Text (List Client) → Prop
  | .ok users, .ok users' => ∀ c, c ∈ users ↔ c ∈ users'
  | .error _, .error _ => True
  | _, _ => False

/-- **The two stores agree**: they succeed and fail at the same requests, and list the same users. -/
def Agree (decoder : Decoder) (env : Env) : Option Text → Table → List Request → Prop
  | _, _, [] => True
  | file, table, .op op :: requests =>
    ((fileUsers decoder env.wide).call file op).2.isOk = (sqliteCall env table op).2.isOk ∧
      Agree decoder env ((fileUsers decoder env.wide).call file op).1 (sqliteCall env table op).1 requests
  | file, table, .list :: requests =>
    SameUsers (FileUsers.loadCreds decoder file) (sqliteList table) ∧ Agree decoder env file table requests

/-- A text that is not empty, of printable ASCII characters. -/
def isPrintable (text : String) : Bool :=
  text ≠ "" ∧ text.toList.all fun c => ' ' ≤ c ∧ c ≤ '~'

/-- The texts of a request are printable and its limit is not negative. -/
def Request.plain : Request → Bool
  | .op (.add username password) | .op (.changePassword username password) =>
    isPrintable username && isPrintable password
  | .op (.delete username) => isPrintable username
  | .op (.setMaxDevices username n) => isPrintable username && decide (0 ≤ n ∧ n < 2 ^ 63)
  | .list => true

theorem isReadable_of_printable {text : String} (printable : isPrintable text = true) :
    ∀ d ∈ text.toList, isReadable d = true := by
  obtain ⟨-, inside⟩ := of_decide_eq_true printable
  intro d member
  have range : ' ' ≤ d ∧ d ≤ '~' := of_decide_eq_true (List.all_eq_true.mp inside d member)
  have lower : 32 ≤ d.toNat := range.1
  have upper : d.toNat ≤ 126 := range.2
  have uncontrolled : isControl d = false := by
    simp only [isControl, decide_eq_false_iff_not]
    omega
  simp [isReadable, uncontrolled]

theorem plain_op (plain : (Request.op op).plain = true) :
    op.inRange = true ∧ ∀ d ∈ op.written, isReadable d = true := by
  cases op with
  | add username password =>
    obtain ⟨first, second⟩ := Bool.and_eq_true_iff.mp plain
    exact ⟨rfl, List.forall_mem_append.mpr ⟨isReadable_of_printable first, isReadable_of_printable second⟩⟩
  | delete username => exact ⟨rfl, fun _ member => absurd member List.not_mem_nil⟩
  | changePassword username password =>
    exact ⟨rfl, isReadable_of_printable (Bool.and_eq_true_iff.mp plain).2⟩
  | setMaxDevices username n =>
    exact ⟨(Bool.and_eq_true_iff.mp plain).2, fun _ member => absurd member List.not_mem_nil⟩

theorem agree_iff_of_mirrors {requests : List Request} (represents : Represents decoder file map)
    (mirrors : Mirrors table map) (plain : ∀ request ∈ requests, request.plain = true) :
    Agree decoder env file table requests ↔ selected ⊆ table.columns ∨ .list ∉ requests := by
  induction requests generalizing file table map with
  | nil => simp [Agree]
  | cons request requests ih =>
    obtain ⟨first, later⟩ := List.forall_mem_cons.mp plain
    cases request with
    | op op =>
      obtain ⟨ranged, clean⟩ := plain_op first
      have rest : Request.list ∉ .op op :: requests ↔ .list ∉ requests := by simp
      rw [Agree, rest]
      cases applied : op.apply map with
      | none =>
        obtain ⟨err, fails⟩ := sqliteCall_of_apply_none env mirrors applied
        rw [call_of_apply_none represents applied, fails, ih represents mirrors later]
        exact and_iff_right rfl
      | some next =>
        obtain ⟨rows, succeeds, mirrors'⟩ := sqliteCall_of_apply env mirrors applied
        rw [call_of_apply represents applied, succeeds,
          ih (represents_call represents applied ranged clean) mirrors' later]
        exact and_iff_right rfl
    | list =>
      rw [Agree, ih represents mirrors later, represents.loads]
      by_cases known : selected ⊆ table.columns
      · obtain ⟨users, listed, same⟩ := mem_sqliteList mirrors known
        rw [listed]
        exact ⟨fun _ => .inl known, fun _ => ⟨same, .inl known⟩⟩
      · obtain ⟨err, fails⟩ := exec_of_missing known
        rw [sqliteList, fails]
        simp [SameUsers, known]

/-- **A file store and a SQLite store that are both new agree exactly as long as no users are listed.** -/
theorem agree_iff (decoder : Decoder) (env : Env) (requests : List Request)
    (plain : ∀ request ∈ requests, request.plain = true) :
    Agree decoder env none (newSQLiteStore none) requests ↔ .list ∉ requests := by
  rw [agree_iff_of_mirrors (represents_missing decoder) mirrors_new plain]
  exact or_iff_right (by decide)

theorem agree_unlisted : Agree plainDecoder (decoding []) none (newSQLiteStore none)
    [.op (.add "alice" "a"), .op (.add "alice" "b"), .op (.setMaxDevices "alice" 3), .op (.delete "bob"),
      .op (.changePassword "alice" "c")] :=
  (agree_iff plainDecoder (decoding []) _ (by decide)).mpr (by simp)

/-- `List` on the new stores: the file store has no users, and the table has no column `enabled`. -/
theorem not_agree_list :
    sqliteList (newSQLiteStore none) = .error "SQL logic error: no such column: enabled (1)".toList ∧
      ¬ Agree plainDecoder (decoding []) none (newSQLiteStore none) [.list] :=
  ⟨by decide, fun agree => agree.1⟩

end Ttgo.Admin.Backends

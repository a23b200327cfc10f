/-
**The two stores behind the admin API.**

`adminStoreAdapter` of `cmd/endpoint/main.go` wraps the file store or the SQLite store of `internal/admin`. It has the
lifecycle methods for both, and for the file store they return an error.

* `Setting` — a store call that changes one field of a user.
* `Backend.set` — the call at a store, with the errors of the files and the driver given.
* `Backend.user` — what is stored of a user: the rows of the file with the name, or the row of the table.
* `sqliteSet_cases` — a call at the table.
* `load_saved` — a file that was written is read back, or not at all.
* `Held`, `Held.set` — a call at the file edits the first entry of the user.
-/

import Ttgo.Admin.FileReload
import Ttgo.Lib.GoFile
import Ttgo.Server.Users

namespace Ttgo.Server.Users

open Ttgo.Lib Ttgo.Auth
open Ttgo.Admin hiding loadCreds
open Ttgo.Admin.CredsFile (Decoder saveCreds readable kept)
open Ttgo.Admin.FileUsers (fileUsers loadCreds userError UserOp)

/-! ### The calls -/

/-- A call that changes one field. -/
inductive Setting
  | password (password : String)
  | maxDevices (n : Int64)
  | enabled (enabled : Bool)
  | expiresAt (expiresAt : Int64)
  | trafficLimit (limit : UInt64)
  | resetTraffic
deriving DecidableEq, Repr

/-- The field that a call changes. -/
inductive Field
  | password
  | maxDevices
  | enabled
  | expiresAt
  | trafficLimit
  | trafficUsed
deriving DecidableEq, Repr

namespace Setting

def field : Setting → Field
  | password _ => .password
  | maxDevices _ => .maxDevices
  | enabled _ => .enabled
  | expiresAt _ => .expiresAt
  | trafficLimit _ => .trafficLimit
  | resetTraffic => .trafficUsed

def isLifecycle : Setting → Bool
  | password _ | maxDevices _ => false
  | _ => true

def highBit : Setting → Bool
  | trafficLimit limit => 2 ^ 63 ≤ limit.toNat
  | _ => false

/-- The `UPDATE` of a row. -/
def update (row : Row) : Setting → Row
  | password given => { row with password := given }
  | maxDevices n => { row with maxDevices := n.toInt }
  | enabled on => { row with lifecycle := { row.lifecycle with enabled := on } }
  | expiresAt time => { row with lifecycle := { row.lifecycle with expiresAt := time.toInt } }
  | trafficLimit limit => { row with lifecycle := { row.lifecycle with trafficLimit := limit } }
  | resetTraffic => { row with lifecycle := { row.lifecycle with trafficUsed := 0 } }

end Setting

inductive Backend
  | file (content : Option Text)
  | sqlite (rows : Store)

/-- How a call fails at the file system or the database. -/
abbrev Fault := WriteFault Text

/-- The calls that fail. -/
abbrev StoreFaults := Setting → Option Fault

def highBitError : Text :=
  "sql: converting argument $1 type: uint64 values with high bit set are not supported".toList

/-- `UPDATE users SET … WHERE username = ?`; a statement that fails changes nothing. -/
def sqliteSet (env : Env) (faults : StoreFaults) (username : String) (rows : Store) (setting : Setting) :
    Store × Except Text Unit :=
  match faults setting with
  | some fault => (rows, .error fault.err)
  | none =>
    if setting.highBit then (rows, .error highBitError)
    else
      match rows.lookup username with
      | none => (rows, .error (userError env.wide username " not found"))
      | some row => (rows.insert username (setting.update row), .ok ())

/-- A call of the file store. -/
def fileCall (decoder : Decoder) (env : Env) (fault : Option Fault) (content : Option Text) (op : UserOp) :
    Option Text × Except Text Unit :=
  match fault with
  | none => (fileUsers decoder env.wide).call content op
  | some (.refused err) => (content, .error err)
  | some (.cut err left) =>
    match (fileUsers decoder env.wide).call content op with
    | (_, .ok ()) => (some left, .error err)
    | (_, .error earlier) => (content, .error earlier)

def notSupported : Text := "not supported for file store".toList

def fileSet (decoder : Decoder) (env : Env) (faults : StoreFaults) (username : String) (content : Option Text)
    (setting : Setting) : Option Text × Except Text Unit :=
  match setting with
  | .password password => fileCall decoder env (faults setting) content (.changePassword username password)
  | .maxDevices n => fileCall decoder env (faults setting) content (.setMaxDevices username n.toInt)
  | .enabled _ | .expiresAt _ | .trafficLimit _ | .resetTraffic => (content, .error notSupported)

def Backend.set (decoder : Decoder) (env : Env) (faults : StoreFaults) (username : String) :
    Backend → Setting → Backend × Except Text Unit
  | .file content, setting => (fileSet decoder env faults username content setting).map .file id
  | .sqlite rows, setting => (sqliteSet env faults username rows setting).map .sqlite id

/-! ### What is stored -/

/-- What is stored of a user; a file that does not load has nothing. -/
inductive StoredUser
  | file (entries : Option (List Client))
  | sqlite (row : Option Row)
deriving DecidableEq, Repr

def entriesOf (username : String) (entries : List Client) : List Client :=
  entries.filter fun entry => entry.username = username

def fileUser (decoder : Decoder) (username : String) (content : Option Text) : Option (List Client) :=
  (loadCreds decoder content).toOption.map (entriesOf username)

def Backend.user (decoder : Decoder) (username : String) : Backend → StoredUser
  | .file content => .file (fileUser decoder username content)
  | .sqlite rows => .sqlite (rows.lookup username)

/-! ### The table -/

def sqliteRefuses (faults : StoreFaults) (setting : Setting) : Bool := (faults setting).isSome || setting.highBit

theorem sqliteSet_cases (env : Env) (faults : StoreFaults) (username : String) (rows : Store) (setting : Setting) :
    (∃ err, sqliteSet env faults username rows setting = (rows, .error err)) ∧
        (sqliteRefuses faults setting = true ∨ rows.lookup username = none) ∨
      ∃ row, rows.lookup username = some row ∧ sqliteRefuses faults setting = false ∧
        sqliteSet env faults username rows setting = (rows.insert username (setting.update row), .ok ()) := by
  unfold sqliteRefuses sqliteSet
  cases faults setting with
  | some fault => exact .inl ⟨⟨_, rfl⟩, .inl rfl⟩
  | none =>
    cases high : setting.highBit with
    | true => exact .inl ⟨⟨_, rfl⟩, .inl rfl⟩
    | false =>
      cases rows.lookup username with
      | none => exact .inl ⟨⟨_, rfl⟩, .inr rfl⟩
      | some row => exact .inr ⟨row, rfl, rfl, rfl⟩

/-! ### The file -/

variable {decoder : Decoder} {env : Env} {faults : StoreFaults} {username : String} {content : Option Text}
  {entries before after : List Client} {entry : Client} {setting : Setting}

/-- Every name and password comes back from the file. -/
def AllReadable (entries : List Client) : Prop := ∀ c ∈ entries, readable c = true

instance (entries : List Client) : Decidable (AllReadable entries) := inferInstanceAs (Decidable (∀ c ∈ entries, _))

theorem maxDevices_loaded (loads : loadCreds decoder content = .ok entries) :
    ∀ c ∈ entries, c.maxDevices < 2 ^ 63 := by
  intro c member
  cases content with
  | none =>
    rw [← Except.ok.inj loads] at member
    cases member
  | some text => exact (of_decide_eq_true (decoder.ranged loads c member)).2

theorem load_saved (decoder : Decoder) (wide : Char → Bool) (bound : ∀ c ∈ entries, c.maxDevices < 2 ^ 63) :
    (loadCreds decoder (some (saveCreds wide entries))).toOption =
      if AllReadable entries then some (entries.map kept) else none := by
  split
  · next reads =>
    rw [loadCreds, CredsFile.decode_saveCreds decoder wide reads bound]
    rfl
  · next unreadable =>
    obtain ⟨c, bad⟩ := not_forall.mp unreadable
    obtain ⟨member, marked⟩ := Classical.not_imp.mp bad
    obtain ⟨err, refused⟩ := CredsFile.decode_saveCreds_eq_error decoder wide
      ⟨c, member, Bool.not_eq_true _ ▸ marked⟩
    rw [loadCreds, refused]
    rfl

theorem kept_kept (c : Client) : kept (kept c) = kept c := by
  rw [kept, kept, max_eq_left (le_max_right c.maxDevices 0)]

theorem map_kept_eq_iff (entries : List Client) : entries.map kept = entries ↔ ∀ c ∈ entries, kept c = c := by
  conv_lhs => rhs; rw [← List.map_id entries]
  exact List.map_inj_left

theorem clientLines_kept (wide : Char → Bool) (c : Client) :
    CredsFile.clientLines wide (kept c) = CredsFile.clientLines wide c := by
  unfold CredsFile.clientLines kept
  by_cases positive : 0 < c.maxDevices
  · rw [max_eq_left positive.le]
  · rw [max_eq_right (not_lt.mp positive), if_neg (lt_irrefl 0), if_neg positive]

theorem saveCreds_kept (wide : Char → Bool) (before : List Client) (entry : Client) (after : List Client) :
    saveCreds wide (before.map kept ++ entry :: after.map kept) = saveCreds wide (before ++ entry :: after) := by
  simp only [saveCreds, List.flatMap_append, List.flatMap_cons, List.flatMap_map, clientLines_kept]

/-- The entry after a call. -/
def Setting.edit (entry : Client) : Setting → Client
  | .password given => { entry with password := given }
  | .maxDevices n => { entry with maxDevices := n.toInt }
  | _ => entry

theorem Setting.username_edit (setting : Setting) (entry : Client) :
    (setting.edit entry).username = entry.username := by
  cases setting <;> rfl

theorem Setting.maxDevices_edit (setting : Setting) (bound : entry.maxDevices < 2 ^ 63) :
    (setting.edit entry).maxDevices < 2 ^ 63 := by
  cases setting with
  | maxDevices n => exact n.toInt_lt
  | password | enabled | expiresAt | trafficLimit | resetTraffic => exact bound

/-- The file has these entries, and this one is the first of the user. -/
structure Held (decoder : Decoder) (username : String) (content : Option Text) (before : List Client) (entry : Client)
    (after : List Client) : Prop where
  loads : loadCreds decoder content = .ok (before ++ entry :: after)
  others : ∀ c ∈ before, c.username ≠ username
  named : entry.username = username

theorem fileSet_of_not_held (env : Env) (faults : StoreFaults) (setting : Setting)
    (absent : ∀ before entry after, ¬Held decoder username content before entry after) :
    ∃ err, fileSet decoder env faults username content setting = (content, .error err) := by
  have fails (op : UserOp) (change : Client → Client)
      (edits : FileUsers.edit env.wide op = FileUsers.editUser env.wide username change) (fault : Option Fault) :
      ∃ err, fileCall decoder env fault content op = (content, .error err) := by
    have called : ∃ err, (fileUsers decoder env.wide).call content op = (content, .error err) := by
      cases loads : loadCreds decoder content with
      | error err => exact ⟨err, Cell.call_of_load_error loads op⟩
      | ok entries =>
        refine ⟨userError env.wide username " not found", Cell.call_of_edit_error loads ?_⟩
        cases found : FileUsers.editFirst username change entries with
        | none => exact (congrFun edits entries).trans (by rw [FileUsers.editUser, found])
        | some edited =>
          obtain ⟨before, entry, after, rfl, -, others, named⟩ := FileReload.editFirst_eq_some found
          exact absurd ⟨loads, others, named⟩ (absent before entry after)
    obtain ⟨err, called⟩ := called
    rcases fault with _ | (first | ⟨first, left⟩)
    · exact ⟨err, called⟩
    · exact ⟨first, rfl⟩
    · exact ⟨err, by rw [fileCall, called]⟩
  cases setting with
  | password given => exact fails (.changePassword username given) ({ · with password := given }) rfl _
  | maxDevices n => exact fails (.setMaxDevices username n.toInt) ({ · with maxDevices := n.toInt }) rfl _
  | enabled | expiresAt | trafficLimit | resetTraffic => exact ⟨notSupported, rfl⟩

theorem not_held_of_unreadable (decoder : Decoder) (username : String) (wide : Char → Bool)
    (bound : ∀ c ∈ entries, c.maxDevices < 2 ^ 63) (unreadable : ¬AllReadable entries)
    (before : List Client) (entry : Client) (after : List Client) :
    ¬Held decoder username (some (saveCreds wide entries)) before entry after := by
  intro held
  have loads := load_saved decoder wide bound
  rw [if_neg unreadable, held.loads] at loads
  cases loads

namespace Held

theorem bound_entry (held : Held decoder username content before entry after) : entry.maxDevices < 2 ^ 63 :=
  maxDevices_loaded held.loads entry (List.mem_append_right _ List.mem_cons_self)

theorem bound_changed (held : Held decoder username content before entry after) {changed : Client}
    (bound : changed.maxDevices < 2 ^ 63) : ∀ c ∈ before ++ changed :: after, c.maxDevices < 2 ^ 63 := by
  have old := maxDevices_loaded held.loads
  simp only [List.forall_mem_append, List.forall_mem_cons] at old ⊢
  exact ⟨old.1, bound, old.2.2⟩

theorem entriesOf_eq (held : Held decoder username content before entry after) :
    entriesOf username (before ++ entry :: after) = entry :: entriesOf username after := by
  have none : entriesOf username before = [] :=
    List.filter_eq_nil_iff.mpr fun c member => by simpa using held.others c member
  have mine : entriesOf username (entry :: after) = entry :: entriesOf username after :=
    List.filter_cons_of_pos (by simpa using held.named)
  rw [entriesOf, List.filter_append]
  exact congrArg₂ (· ++ ·) none mine

theorem fileUser_eq (held : Held decoder username content before entry after) :
    fileUser decoder username content = some (entry :: entriesOf username after) := by
  rw [fileUser, held.loads]
  exact congrArg some held.entriesOf_eq

theorem editFirst_eq (held : Held decoder username content before entry after) (change : Client → Client) :
    FileUsers.editFirst username change (before ++ entry :: after) = some (before ++ change entry :: after) := by
  have others := held.others
  have named := held.named
  clear held
  induction before with
  | nil => exact if_pos named
  | cons first before ih =>
    obtain ⟨differs, others⟩ := List.forall_mem_cons.mp others
    rw [List.cons_append, FileUsers.editFirst, if_neg differs, ih others]
    rfl

/-- **A call at the file** writes it anew, with the first entry of the user changed. -/
theorem set (held : Held decoder username content before entry after) (env : Env) (faults : StoreFaults)
    (own : setting.isLifecycle = false) :
    fileSet decoder env faults username content setting =
      writeFile content (saveCreds env.wide (before ++ setting.edit entry :: after)) (faults setting) := by
  have done (fault : Option Fault) (op : UserOp) (change : Client → Client)
      (edits : FileUsers.edit env.wide op = FileUsers.editUser env.wide username change) :
      fileCall decoder env fault content op =
        writeFile content (saveCreds env.wide (before ++ change entry :: after)) fault := by
    have edited : FileUsers.edit env.wide op (before ++ entry :: after) = .ok (before ++ change entry :: after) := by
      rw [edits, FileUsers.editUser, held.editFirst_eq]
    have called : (fileUsers decoder env.wide).call content op =
        (some (saveCreds env.wide (before ++ change entry :: after)), .ok ()) := Cell.call_of_edit held.loads edited
    rcases fault with _ | (err | ⟨err, left⟩)
    · exact called
    · rfl
    · rw [fileCall, called]
      rfl
  cases setting with
  | password given => exact done _ (.changePassword username given) ({ · with password := given }) rfl
  | maxDevices n => exact done _ (.setMaxDevices username n.toInt) ({ · with maxDevices := n.toInt }) rfl
  | enabled | expiresAt | trafficLimit | resetTraffic => cases own

theorem next (held : Held decoder username content before entry after) (wide : Char → Bool) {changed : Client}
    (named : changed.username = entry.username) (bound : changed.maxDevices < 2 ^ 63)
    (reads : AllReadable (before ++ changed :: after)) :
    Held decoder username (some (saveCreds wide (before ++ changed :: after))) (before.map kept) (kept changed)
      (after.map kept) := by
  refine ⟨?_, List.forall_mem_map.mpr held.others, named.trans held.named⟩
  rw [loadCreds, CredsFile.decode_saveCreds decoder wide reads (held.bound_changed bound), List.map_append,
    List.map_cons]

theorem fileUser_saved (held : Held decoder username content before entry after) (wide : Char → Bool)
    {changed : Client} (named : changed.username = entry.username) (bound : changed.maxDevices < 2 ^ 63) :
    fileUser decoder username (some (saveCreds wide (before ++ changed :: after))) =
      if AllReadable (before ++ changed :: after) then
        some (kept changed :: (entriesOf username after).map kept)
      else none := by
  split
  · next reads =>
    rw [(held.next wide named bound reads).fileUser_eq, entriesOf, entriesOf, List.filter_map]
    rfl
  · next unreadable =>
    rw [fileUser, load_saved decoder wide (held.bound_changed bound), if_neg unreadable]
    rfl

end Held

end Ttgo.Server.Users

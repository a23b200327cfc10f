/-
**The file user store of the admin tool.**

`fileUserStore` of `internal/admin/userstore.go` loads `credentials.toml`, edits the entries and writes the whole file
anew. What it is for is an ordered map from usernames to passwords and limits.

* `addUser`, `deleteUser`, `changePassword`, `setMaxDevices` — the edits of the entries, with their errors.
* `fileUsers` — the file as a cell that is read, modified and written.
* `UserMap`, `UserOp.apply` — the ordered map and the operations on it.
* `edit_clients` — on the entries of a map, an edit is the operation.
* `keeps_iff` — calls keep to the map as long as what they write is readable.
* `ordered_of_undisturbed` — concurrent calls, where none saves over another.
-/

import Mathlib.Data.List.Permutation
import Ttgo.Admin.CredsFile
import Ttgo.Lib.OrderedMap
import Ttgo.Lib.ReadModifyWrite

namespace Ttgo.Admin.FileUsers

open Ttgo.Lib Ttgo.Lib.Toml Ttgo.Auth Ttgo.Admin.CredsFile

/-! ### The edits -/

/-- A call of the store. -/
inductive UserOp where
  | add (username password : String)
  | delete (username : String)
  | changePassword (username password : String)
  | setMaxDevices (username : String) (n : Int)
deriving DecidableEq, Repr

def userError (wide : Char → Bool) (username : String) (what : String) : Text :=
  "user ".toList ++ quote wide username.toList ++ what.toList

def addUser (wide : Char → Bool) (username password : String) (entries : List Client) :
    Except Text (List Client) :=
  if entries.any fun e => e.username = username then .error (userError wide username " already exists")
  else .ok (entries ++ [⟨username, password, 0⟩])

def deleteUser (wide : Char → Bool) (username : String) (entries : List Client) : Except Text (List Client) :=
  let filtered := entries.filter fun e => e.username ≠ username
  if filtered.length = entries.length then .error (userError wide username " not found") else .ok filtered

/-- The first entry of a username, changed in its place. -/
def editFirst (username : String) (change : Client → Client) : List Client → Option (List Client)
  | [] => none
  | e :: rest =>
    if e.username = username then some (change e :: rest) else (editFirst username change rest).map (e :: ·)

/-- The loop that `changePassword` and `SetMaxDevices` have in common. -/
def editUser (wide : Char → Bool) (username : String) (change : Client → Client) (entries : List Client) :
    Except Text (List Client) :=
  match editFirst username change entries with
  | none => .error (userError wide username " not found")
  | some edited => .ok edited

def changePassword (wide : Char → Bool) (username newPassword : String) : List Client → Except Text (List Client) :=
  editUser wide username fun e => { e with password := newPassword }

def setMaxDevices (wide : Char → Bool) (username : String) (n : Int) : List Client → Except Text (List Client) :=
  editUser wide username fun e => { e with maxDevices := n }

def edit (wide : Char → Bool) : UserOp → List Client → Except Text (List Client)
  | .add username password => addUser wide username password
  | .delete username => deleteUser wide username
  | .changePassword username password => changePassword wide username password
  | .setMaxDevices username n => setMaxDevices wide username n

/-! ### The file -/

/-- `loadCreds`: a file that does not exist has no entries. -/
def loadCreds (decode : Text → Except Text (List Client)) : Option Text → Except Text (List Client)
  | none => .ok []
  | some text => decode text

/-- The file and the calls on it. -/
def fileUsers (decode : Text → Except Text (List Client)) (wide : Char → Bool) :
    Cell (Option Text) (List Client) UserOp Text where
  load := loadCreds decode
  edit := edit wide
  store entries := some (saveCreds wide entries)

/-! ### The map -/

abbrev UserMap := OrderedMap String FileEntry

def UserOp.apply : UserOp → UserMap → Option UserMap
  | .add username password, map => map.add username ⟨password, 0⟩
  | .delete username, map => map.delete username
  | .changePassword username password, map => map.modify username fun entry => { entry with password }
  | .setMaxDevices username n, map => map.modify username fun entry => { entry with maxDevices := n }

def client (user : String × FileEntry) : Client := ⟨user.1, user.2.password, user.2.maxDevices⟩

def clients (map : UserMap) : List Client := map.entries.map client

def step (map : UserMap) (op : UserOp) : Option UserMap := some ((op.apply map).getD map)

def UserOp.written : UserOp → Text
  | .add username password => username.toList ++ password.toList
  | .changePassword _ password => password.toList
  | .delete _ | .setMaxDevices _ _ => []

/-- The limit that a call sets is an `int` that is not negative. -/
def UserOp.inRange : UserOp → Bool
  | .setMaxDevices _ n => 0 ≤ n ∧ n < 2 ^ 63
  | _ => true

variable {decoder : Decoder} {wide : Char → Bool} {map next : UserMap} {op : UserOp} {ops : List UserOp}
  {file : Option Text} {entries : List Client} {username : String}

theorem username_mem_clients (map : UserMap) (username : String) :
    (clients map).any (fun e => e.username = username) = true ↔ username ∈ map.keys := by
  rw [clients, List.any_map, List.any_eq_true, OrderedMap.mem_keys_iff]
  constructor
  · rintro ⟨user, member, same⟩
    exact ⟨user.2, of_decide_eq_true same ▸ member⟩
  · rintro ⟨entry, member⟩
    exact ⟨(username, entry), member, decide_eq_true rfl⟩

theorem editFirst_clients {change : Client → Client} {change' : FileEntry → FileEntry}
    (same : ∀ user, change (client user) = client (user.1, change' user.2)) :
    ∀ users : List (String × FileEntry), (users.map Prod.fst).Nodup →
      editFirst username change (users.map client) =
        if username ∈ users.map Prod.fst then
          some ((OrderedMap.modifyEntries username change' users).map client)
        else none := by
  intro users distinct
  induction users with
  | nil => rfl
  | cons user users ih =>
    rw [List.map_cons, List.nodup_cons] at distinct
    obtain ⟨fresh, distinct⟩ := distinct
    rw [List.map_cons, List.map_cons, editFirst, OrderedMap.modifyEntries_cons]
    by_cases here : user.1 = username
    · subst here
      rw [OrderedMap.modifyEntries_of_notMem fresh, if_pos List.mem_cons_self, if_pos rfl, same]
      exact if_pos rfl
    · have elsewhere : (client user).username ≠ username := here
      rw [if_neg elsewhere, ih distinct, if_neg here]
      by_cases later : username ∈ users.map Prod.fst
      · rw [if_pos later, if_pos (List.mem_cons_of_mem _ later)]
        rfl
      · rw [if_neg later, if_neg (List.not_mem_cons_of_ne_of_not_mem (Ne.symm here) later)]
        rfl

theorem editUser_clients {change : Client → Client} {change' : FileEntry → FileEntry}
    (same : ∀ user, change (client user) = client (user.1, change' user.2)) (map : UserMap) :
    editUser wide username change (clients map) = (map.modify username change').elim
      (.error (userError wide username " not found")) fun next => .ok (clients next) := by
  rw [editUser, clients, editFirst_clients same map.entries map.distinct, OrderedMap.modify, OrderedMap.keys]
  by_cases present : username ∈ map.entries.map Prod.fst
  · rw [if_pos present, if_pos present]
    rfl
  · rw [if_neg present, if_neg present]
    rfl

/-- The error of a call whose operation does not apply. -/
def UserOp.refusal (wide : Char → Bool) : UserOp → Text
  | .add username _ => userError wide username " already exists"
  | .delete username | .changePassword username _ | .setMaxDevices username _ =>
    userError wide username " not found"

/-- **On the entries of a map, an edit is the operation.** -/
theorem edit_clients (wide : Char → Bool) (op : UserOp) (map : UserMap) :
    edit wide op (clients map) =
      (op.apply map).elim (.error (op.refusal wide)) fun next => .ok (clients next) := by
  cases op with
  | add username password =>
    show addUser wide username password (clients map) = (map.add username _).elim _ _
    rw [addUser, OrderedMap.add]
    by_cases present : username ∈ map.keys
    · rw [if_pos ((username_mem_clients map username).mpr present), dif_neg (not_not_intro present)]
      rfl
    · rw [if_neg (mt (username_mem_clients map username).mp present), dif_pos present]
      simp [clients, client]
  | delete username =>
    show deleteUser wide username (clients map) = (map.delete username).elim _ _
    have filtered : (clients map).filter (fun e => e.username ≠ username) =
        (map.entries.filter fun entry => entry.1 ≠ username).map client := by
      rw [clients, List.filter_map]
      rfl
    have whole : (map.entries.filter fun entry => entry.1 ≠ username).length = map.entries.length ↔
        username ∉ map.keys := by
      rw [List.length_filter_eq_length_iff, OrderedMap.mem_keys_iff]
      constructor
      · rintro others ⟨entry, member⟩
        simpa using others _ member
      · intro absent entry member
        exact decide_eq_true fun same => absent ⟨entry.2, same ▸ member⟩
    rw [deleteUser, OrderedMap.delete]
    rw [filtered, List.length_map, clients, List.length_map]
    by_cases present : username ∈ map.keys
    · rw [if_neg (mt whole.mp (not_not_intro present)), if_pos present]
      rfl
    · rw [if_pos (whole.mpr present), if_neg present]
      rfl
  | changePassword username password => exact editUser_clients (fun _ => rfl) map
  | setMaxDevices username n => exact editUser_clients (fun _ => rfl) map

/-! ### One call -/

/-- A limit that comes back as it is. -/
def Limited (c : Client) : Prop := 0 ≤ c.maxDevices ∧ c.maxDevices < 2 ^ 63

/-- The file holds the users of the map. -/
structure Represents (decoder : Decoder) (file : Option Text) (map : UserMap) : Prop where
  loads : loadCreds decoder file = .ok (clients map)
  reads : ∀ c ∈ clients map, readable c = true
  limited : ∀ c ∈ clients map, Limited c

theorem represents_missing (decoder : Decoder) : Represents decoder none .empty := by
  refine ⟨rfl, ?_, ?_⟩
  · exact fun _ member => absurd member List.not_mem_nil
  · exact fun _ member => absurd member List.not_mem_nil

theorem represents_saved (decoder : Decoder) (wide : Char → Bool) (reads : ∀ c ∈ clients map, readable c = true)
    (limited : ∀ c ∈ clients map, Limited c) :
    Represents decoder (some (saveCreds wide (clients map))) map := by
  refine ⟨?_, reads, limited⟩
  have same : (clients map).map kept = clients map := by
    refine (List.map_congr_left fun c member => ?_).trans (List.map_id _)
    rw [kept, max_eq_left (limited c member).1]
    rfl
  rw [loadCreds, decode_saveCreds decoder wide reads fun c member => (limited c member).2, same]

section Users

variable {holds : Client → Prop}

theorem forall_clients : (∀ c ∈ clients map, holds c) ↔
    ∀ username entry, map.lookup username = some entry → holds (client (username, entry)) := by
  simp only [clients, List.forall_mem_map, OrderedMap.lookup_eq_some_iff, Prod.forall]

theorem forall_clients_add {entry : FileEntry} (added : map.add username entry = some next)
    (each : ∀ c ∈ clients map, holds c) : (∀ c ∈ clients next, holds c) ↔ holds (client (username, entry)) := by
  obtain ⟨-, entries⟩ := OrderedMap.add_eq_some_iff.mp added
  rw [clients, entries, List.map_append, List.map_singleton, List.forall_mem_append, List.forall_mem_singleton]
  exact ⟨fun both => both.2, fun new => ⟨each, new⟩⟩

theorem forall_clients_delete (deleted : map.delete username = some next) (each : ∀ c ∈ clients map, holds c) :
    ∀ c ∈ clients next, holds c := by
  rw [forall_clients] at each ⊢
  intro other entry reads
  rw [OrderedMap.lookup_delete deleted] at reads
  split at reads
  · cases reads
  · exact each other entry reads

theorem forall_clients_modify {change : FileEntry → FileEntry} (modified : map.modify username change = some next)
    (each : ∀ c ∈ clients map, holds c) :
    (∀ c ∈ clients next, holds c) ↔
      ∀ entry, map.lookup username = some entry → holds (client (username, change entry)) := by
  rw [forall_clients] at each ⊢
  simp only [OrderedMap.lookup_modify modified]
  constructor
  · intro after entry reads
    exact after username (change entry) (by rw [if_pos rfl, reads]; rfl)
  · intro changed other entry reads
    split at reads
    · next same =>
      obtain ⟨old, found, rfl⟩ := Option.map_eq_some_iff.mp reads
      exact same ▸ changed old found
    · exact each other entry reads

end Users

theorem readable_apply (applied : op.apply map = some next) (reads : ∀ c ∈ clients map, readable c = true) :
    (∀ c ∈ clients next, readable c = true) ↔ ∀ d ∈ op.written, isReadable d = true := by
  cases op with
  | add username password =>
    rw [forall_clients_add applied reads, readable, List.all_eq_true]
    rfl
  | delete username => exact ⟨fun _ _ => by simp [UserOp.written], fun _ => forall_clients_delete applied reads⟩
  | changePassword username password =>
    obtain ⟨entry, present⟩ := OrderedMap.mem_keys_iff.mp (OrderedMap.modify_eq_some_iff.mp applied).1
    have found := OrderedMap.lookup_eq_some_iff.mpr present
    have before := readable_iff.mp (forall_clients.mp reads username entry found)
    rw [forall_clients_modify applied reads]
    simp only [found, Option.some.injEq, forall_eq', readable_iff]
    exact ⟨fun after => List.all_eq_true.mp after.2, fun clean => ⟨before.1, List.all_eq_true.mpr clean⟩⟩
  | setMaxDevices username n =>
    refine ⟨fun _ _ => by simp [UserOp.written], fun _ => (forall_clients_modify applied reads).mpr ?_⟩
    intro entry found
    exact forall_clients.mp reads username entry found

theorem limited_apply (applied : op.apply map = some next) (ranged : op.inRange = true)
    (limited : ∀ c ∈ clients map, Limited c) : ∀ c ∈ clients next, Limited c := by
  cases op with
  | add username password =>
    have zero : (0 : Int) ≤ 0 ∧ (0 : Int) < 2 ^ 63 := by decide
    exact (forall_clients_add applied limited).mpr zero
  | delete username => exact forall_clients_delete applied limited
  | changePassword username password =>
    refine (forall_clients_modify applied limited).mpr fun entry found => ?_
    exact forall_clients.mp limited username entry found
  | setMaxDevices username n =>
    have range : 0 ≤ n ∧ n < 2 ^ 63 := of_decide_eq_true ranged
    exact (forall_clients_modify applied limited).mpr fun _ _ => range

theorem call_of_apply_none (represents : Represents decoder file map) (unapplied : op.apply map = none) :
    (fileUsers decoder wide).call file op = (file, .error (op.refusal wide)) := by
  have edits := edit_clients wide op map
  rw [unapplied] at edits
  exact Cell.call_of_edit_error represents.loads edits

theorem call_of_apply (represents : Represents decoder file map) (applied : op.apply map = some next) :
    (fileUsers decoder wide).call file op = (some (saveCreds wide (clients next)), .ok ()) := by
  have edits := edit_clients wide op map
  rw [applied] at edits
  exact Cell.call_of_edit represents.loads edits

/-- **One call**: what it writes is read back if it is readable. -/
theorem represents_call (represents : Represents decoder file map) (applied : op.apply map = some next)
    (ranged : op.inRange = true) (clean : ∀ d ∈ op.written, isReadable d = true) :
    Represents decoder (some (saveCreds wide (clients next))) next :=
  represents_saved decoder wide ((readable_apply applied represents.reads).mpr clean)
    (limited_apply applied ranged represents.limited)

/-! ### Sequences of calls -/

/-- Calls keep to the map: one that succeeds has the effect of its operation, one that fails leaves the file, and
`List` afterwards returns the map. -/
def Keeps (decoder : Decoder) (wide : Char → Bool) : Option Text → UserMap → List UserOp → Prop
  | file, map, [] => loadCreds decoder file = .ok (clients map)
  | file, map, op :: ops =>
    match (fileUsers decoder wide).call file op with
    | (file', .ok ()) => ∃ next, op.apply map = some next ∧ Keeps decoder wide file' next ops
    | (file', .error _) => file' = file ∧ Keeps decoder wide file map ops

/-- A call that applies to the map writes characters that TOML has escapes for. -/
def WritesReadable (map : UserMap) (op : UserOp) : Prop :=
  (op.apply map).isSome = true → ∀ d ∈ op.written, isReadable d = true

instance (map : UserMap) (op : UserOp) : Decidable (WritesReadable map op) :=
  decidable_of_iff ((op.apply map).isSome = true → op.written.all isReadable = true)
    (imp_congr_right fun _ => List.all_eq_true)

theorem not_keeps_of_unreadable {err : Text} (unloaded : loadCreds decoder file = .error err) (map : UserMap)
    (ops : List UserOp) : ¬ Keeps decoder wide file map ops := by
  induction ops with
  | nil =>
    intro loads
    rw [Keeps, unloaded] at loads
    cases loads
  | cons op ops ih =>
    rw [Keeps, Cell.call_of_load_error unloaded]
    exact fun keeps => ih keeps.2

theorem keeps_iff_of_represents (represents : Represents decoder file map)
    (ranged : ∀ op ∈ ops, op.inRange = true) :
    Keeps decoder wide file map ops ↔ Along step WritesReadable map ops := by
  induction ops generalizing file map with
  | nil => exact ⟨fun _ => trivial, fun _ => represents.loads⟩
  | cons op ops ih =>
    obtain ⟨ranged, later⟩ := List.forall_mem_cons.mp ranged
    rw [Keeps]
    cases applied : op.apply map with
    | none =>
      have stays : step map op = some map := by rw [step, applied]; rfl
      have clean : WritesReadable map op := fun applies => by simp [applied] at applies
      rw [along_cons stays, call_of_apply_none represents applied, ← ih represents later]
      exact ⟨fun keeps => ⟨clean, keeps.2⟩, fun along => ⟨rfl, along.2⟩⟩
    | some next =>
      have moves : step map op = some next := by rw [step, applied]; rfl
      have clean : WritesReadable map op ↔ ∀ d ∈ op.written, isReadable d = true := by
        rw [WritesReadable, applied]
        exact forall_prop_of_true rfl
      rw [along_cons moves, call_of_apply represents applied, clean]
      simp only [Option.some.injEq, exists_eq_left']
      by_cases reads : ∀ d ∈ op.written, isReadable d = true
      · rw [ih (represents_call represents applied ranged reads) later]
        exact ⟨fun along => ⟨reads, along⟩, fun both => both.2⟩
      · -- the file is refused from here on
        refine ⟨fun keeps => absurd keeps ?_, fun both => absurd both.1 reads⟩
        have unreadable : ∃ c ∈ clients next, readable c = false := by
          simpa using mt (readable_apply applied represents.reads).mp reads
        obtain ⟨err, refused⟩ := decode_saveCreds_eq_error decoder wide unreadable
        have unloaded : loadCreds decoder (some (saveCreds wide (clients next))) = .error err := refused
        exact not_keeps_of_unreadable unloaded next ops

/-- **Calls keep to the map exactly as long as what they write is readable.** -/
theorem keeps_iff (decoder : Decoder) (wide : Char → Bool) (ops : List UserOp)
    (ranged : ∀ op ∈ ops, op.inRange = true) :
    Keeps decoder wide none .empty ops ↔ Along step WritesReadable .empty ops :=
  keeps_iff_of_represents (represents_missing decoder) ranged

theorem keeps_alice : Keeps plainDecoder (fun _ => true) none .empty
    [.add "alice" "old", .changePassword "alice" "new \t\"é", .setMaxDevices "alice" 3, .delete "bob"] :=
  (keeps_iff plainDecoder (fun _ => true) _ (by decide)).mpr (by decide)

/-- A bell in a password: `%q` writes an escape that TOML does not have. -/
theorem not_keeps_bell : ¬ Keeps plainDecoder (fun _ => true) none .empty [.add "alice" "\x07"] := by
  rw [keeps_iff_of_represents (represents_missing plainDecoder) (by decide)]
  decide

/-! ### Concurrent calls -/

/-- **No update is lost** where every call that writes does so while the file still holds the entries that it
loaded. -/
theorem ordered_of_undisturbed (decode : Text → Except Text (List Client)) (wide : Char → Bool)
    (shared : Shared (Option Text) (List Client) UserOp Text) (events : List SharedEvent)
    {final : Shared (Option Text) (List Client) UserOp Text}
    (waiting : ∀ call ∈ shared.calls, call.phase = .waiting)
    (alone : Along (Shared.step (fileUsers decode wide)) (Shared.Undisturbed (fileUsers decode wide)) shared events)
    (ran : run (Shared.step (fileUsers decode wide)) shared events = some final) :
    Shared.Ordered (fileUsers decode wide) shared.content final := by
  refine Shared.exists_order (fun call member => ?_) alone ran
  rw [SharedCall.succeeded, waiting call member]

def twoAdds : Shared (Option Text) (List Client) UserOp Text :=
  ⟨none, [{ op := .add "alice" "a" }, { op := .add "bob" "b" }]⟩

/-- One after the other, both are in the file. -/
theorem ordered_twoAdds :
    ∃ final, run (Shared.step (fileUsers plainDecoder fun _ => true)) twoAdds
        [.load 0, .save 0, .load 1, .save 1] = some final ∧
      loadCreds plainDecoder final.content = .ok [⟨"alice", "a", 0⟩, ⟨"bob", "b", 0⟩] ∧
      Shared.Ordered (fileUsers plainDecoder fun _ => true) none final := by
  refine ⟨⟨some (saveCreds (fun _ => true) [⟨"alice", "a", 0⟩, ⟨"bob", "b", 0⟩]),
    [⟨.add "alice" "a", .finished (.ok ())⟩, ⟨.add "bob" "b", .finished (.ok ())⟩]⟩, rfl, rfl,
    ordered_of_undisturbed plainDecoder (fun _ => true) twoAdds [.load 0, .save 0, .load 1, .save 1] ?_ ?_ rfl⟩
  · simp [twoAdds]
  · refine (along_cons rfl).mpr ⟨trivial, (along_cons rfl).mpr ⟨?_, (along_cons rfl).mpr
      ⟨trivial, (along_cons rfl).mpr ⟨?_, trivial⟩⟩⟩⟩
    · rintro _ _ _ ⟨⟩ -
      rfl
    · rintro _ _ _ ⟨⟩ -
      rfl

/-- **Both calls load the file before either saves**: both succeed, and only one of the users is in the file. -/
theorem lost_update :
    ∃ final, run (Shared.step (fileUsers plainDecoder fun _ => true)) twoAdds
        [.load 0, .load 1, .save 0, .save 1] = some final ∧
      final.calls.all SharedCall.succeeded = true ∧
      loadCreds plainDecoder final.content = .ok [⟨"bob", "b", 0⟩] ∧
      ¬ Shared.Ordered (fileUsers plainDecoder fun _ => true) none final := by
  refine ⟨⟨some (saveCreds (fun _ => true) [⟨"bob", "b", 0⟩]), [⟨.add "alice" "a", .finished (.ok ())⟩,
    ⟨.add "bob" "b", .finished (.ok ())⟩]⟩, rfl, rfl, rfl, ?_⟩
  rintro ⟨order, same, reached⟩
  -- in either order both users are in the file
  rcases List.perm_pair.mp same with rfl | rfl
  · have both : (fileUsers plainDecoder fun _ => true).sequence none [.add "alice" "a", .add "bob" "b"] =
      some (some (saveCreds (fun _ => true) [⟨"alice", "a", 0⟩, ⟨"bob", "b", 0⟩])) := rfl
    exact absurd (both.symm.trans reached) (by decide)
  · have both : (fileUsers plainDecoder fun _ => true).sequence none [.add "bob" "b", .add "alice" "a"] =
      some (some (saveCreds (fun _ => true) [⟨"bob", "b", 0⟩, ⟨"alice", "a", 0⟩])) := rfl
    exact absurd (both.symm.trans reached) (by decide)

end Ttgo.Admin.FileUsers

/-
**The endpoint reads what the admin tool wrote.**

`FileStore.reload` of `internal/auth/store/file.go` decodes `credentials.toml` every ten seconds and replaces its map;
where the file does not decode it keeps the map that it has.

* `reloaded` — the map after a reload.
* `Served` — what the endpoint is to answer after an edit; `served_iff` — when it does. The admin tool edits the first
  entry of a user and the endpoint reads the last, and writing the file anew drops negative limits.
* `Disk` — a file that is truncated and written again while it is reloaded; `fromVersion_of_whole` — the map is that
  of a whole version, where no reload reads a part.
-/

import Ttgo.Admin.FileUsers

namespace Ttgo.Admin.FileReload

open Ttgo.Lib Ttgo.Lib.Toml Ttgo.Auth Ttgo.Admin.CredsFile Ttgo.Admin.FileUsers

/-! ### The store of the endpoint -/

abbrev Users := GoMap String FileEntry

def getPassword (users : Users) (username : String) : String :=
  ((users.lookup username).map FileEntry.password).getD ""

def getMaxDevices (users : Users) (username : String) : Int :=
  ((users.lookup username).map FileEntry.maxDevices).getD 0

/-- The map after a reload of what was decoded. -/
def reloaded (users : Users) : Except Text (List Client) → Users
  | .ok clients => reload clients
  | .error _ => users

/-! ### The last entry after an edit -/

variable {entries edited before after : List Client} {username other : String} {c : Client}

theorem lastOf_append (before after : List Client) (username : String) :
    lastOf (before ++ after) username = (lastOf after username).or (lastOf before username) := by
  rw [lastOf, List.reverse_append, List.find?_append]
  rfl

theorem lastOf_cons (c : Client) (after : List Client) (username : String) :
    lastOf (c :: after) username =
      (lastOf after username).or (if c.username = username then some c else none) := by
  rw [← List.singleton_append, lastOf_append]
  congr 1
  by_cases same : c.username = username
  · simp [lastOf, same]
  · simp [lastOf, same]

theorem lastOf_eq_none_iff : lastOf entries username = none ↔ ∀ c ∈ entries, c.username ≠ username := by
  simp [lastOf]

theorem username_lastOf (found : lastOf entries username = some c) : c ∈ entries ∧ c.username = username := by
  refine ⟨List.mem_reverse.mp (List.mem_of_find?_eq_some found), ?_⟩
  simpa using List.find?_some found

theorem lastOf_map_kept (entries : List Client) (username : String) :
    lastOf (entries.map kept) username = (lastOf entries username).map kept := by
  rw [lastOf, ← List.map_reverse, List.find?_map]
  rfl

theorem editFirst_eq_some {change : Client → Client} (found : editFirst username change entries = some edited) :
    ∃ before c after, entries = before ++ c :: after ∧ edited = before ++ change c :: after ∧
      (∀ d ∈ before, d.username ≠ username) ∧ c.username = username := by
  induction entries generalizing edited with
  | nil => cases found
  | cons first rest ih =>
    rw [editFirst] at found
    split at found
    · next same =>
      cases found
      exact ⟨[], first, rest, rfl, rfl, fun _ member => absurd member List.not_mem_nil, same⟩
    · next differs =>
      obtain ⟨_, later, rfl⟩ := Option.map_eq_some_iff.mp found
      obtain ⟨before, c, after, rfl, rfl, others, same⟩ := ih later
      exact ⟨first :: before, c, after, rfl, rfl, List.forall_mem_cons.mpr ⟨differs, others⟩, same⟩

/-! ### Edits of one user -/

/-- The calls that change one user. -/
inductive UserEdit where
  | changePassword (username password : String)
  | setMaxDevices (username : String) (n : Int)
  | delete (username : String)
deriving DecidableEq, Repr

def UserEdit.op : UserEdit → UserOp
  | .changePassword username password => .changePassword username password
  | .setMaxDevices username n => .setMaxDevices username n
  | .delete username => .delete username

def UserEdit.user : UserEdit → String
  | .changePassword username _ | .setMaxDevices username _ | .delete username => username

def Answered (users : Users) : UserEdit → Prop
  | .changePassword username password => getPassword users username = password
  | .setMaxDevices username n => getMaxDevices users username = n
  | .delete username => getPassword users username = ""

/-- **What the endpoint is to answer after an edit**: the new value, and the old values of every other user. -/
def Served (edit : UserEdit) (users users' : Users) : Prop :=
  Answered users' edit ∧ ∀ other ≠ edit.user,
    getPassword users' other = getPassword users other ∧ getMaxDevices users' other = getMaxDevices users other

/-- The entries without the first one of a user. -/
def others (username : String) (entries : List Client) : List Client :=
  entries.eraseP fun c => c.username = username

def RewritesReadable (entries : List Client) : UserEdit → Prop
  | .changePassword username password =>
    readable ⟨username, password, 0⟩ = true ∧ ∀ c ∈ others username entries, readable c = true
  | .setMaxDevices _ _ => ∀ c ∈ entries, readable c = true
  | .delete username => ∀ c ∈ entries, c.username ≠ username → readable c = true

/-- The entry that the endpoint reads gets the value, or has it. -/
def ReadsEdited (entries : List Client) : UserEdit → Prop
  | .changePassword username password => (∀ c ∈ others username entries, c.username ≠ username) ∨
      ∃ c ∈ lastOf entries username, c.password = password
  | .setMaxDevices username n => (∀ c ∈ others username entries, c.username ≠ username) ∨
      ∃ c ∈ lastOf entries username, max c.maxDevices 0 = n
  | .delete _ => True

def OthersLimited (entries : List Client) (username : String) : Prop :=
  ∀ other ≠ username, ∀ c ∈ lastOf entries other, 0 ≤ c.maxDevices

theorem getPassword_reload (entries : List Client) (username : String) :
    getPassword (reload entries) username = ((lastOf entries username).map Client.password).getD "" := by
  rw [getPassword, lookup_reload, Option.map_map]
  rfl

theorem getMaxDevices_reload (entries : List Client) (username : String) :
    getMaxDevices (reload entries) username = ((lastOf entries username).map Client.maxDevices).getD 0 := by
  rw [getMaxDevices, lookup_reload, Option.map_map]
  rfl

section Edited

variable {change : Client → Client}

theorem others_append (before after : List Client) (clean : ∀ d ∈ before, d.username ≠ username)
    (same : c.username = username) : others username (before ++ c :: after) = before ++ after := by
  rw [others, List.eraseP_append_right _ (by simpa using clean), List.eraseP_cons_of_pos (by simpa using same)]

theorem editUser_eq_ok {wide : Char → Bool} (found : editUser wide username change entries = .ok edited) :
    editFirst username change entries = some edited := by
  rw [editUser] at found
  split at found
  · cases found
  · next first =>
    cases found
    exact first

theorem lastOf_edited_ne (found : editFirst username change entries = some edited)
    (keeps : ∀ c, (change c).username = c.username) (differs : other ≠ username) :
    lastOf edited other = lastOf entries other := by
  obtain ⟨before, c, after, rfl, rfl, -, same⟩ := editFirst_eq_some found
  rw [lastOf_append, lastOf_append, lastOf_cons, lastOf_cons, keeps, same, if_neg (Ne.symm differs),
    if_neg (Ne.symm differs)]

theorem lastOf_edited (found : editFirst username change entries = some edited)
    (keeps : ∀ c, (change c).username = c.username) :
    (∀ d ∈ others username entries, d.username ≠ username) ∧
        lastOf edited username = (lastOf entries username).map change ∨
      ¬ (∀ d ∈ others username entries, d.username ≠ username) ∧
        lastOf edited username = lastOf entries username := by
  obtain ⟨before, c, after, rfl, rfl, clean, same⟩ := editFirst_eq_some found
  rw [others_append before after clean same, List.forall_mem_append]
  have first : lastOf before username = none := lastOf_eq_none_iff.mpr clean
  rw [lastOf_append, lastOf_append, lastOf_cons, lastOf_cons, keeps, if_pos same, if_pos same, first]
  cases later : lastOf after username with
  | none => exact .inl ⟨⟨clean, lastOf_eq_none_iff.mp later⟩, rfl⟩
  | some d =>
    refine .inr ⟨fun alone => ?_, rfl⟩
    obtain ⟨member, same'⟩ := username_lastOf later
    exact alone.2 d member same'

theorem exists_lastOf (found : editFirst username change entries = some edited) :
    ∃ last, lastOf entries username = some last := by
  obtain ⟨before, c, after, rfl, -, -, same⟩ := editFirst_eq_some found
  refine Option.ne_none_iff_exists'.mp fun absent => ?_
  exact lastOf_eq_none_iff.mp absent c (by simp) same

theorem field_edited {α : Type} {value : α} (found : editFirst username change entries = some edited)
    (keeps : ∀ c, (change c).username = c.username) (field : Client → α) (sets : ∀ c, field (change c) = value) :
    ∃ last, lastOf edited username = some last ∧ (field last = value ↔
      (∀ d ∈ others username entries, d.username ≠ username) ∨ ∃ c ∈ lastOf entries username, field c = value) := by
  obtain ⟨last, present⟩ := exists_lastOf found
  rcases lastOf_edited found keeps with ⟨alone, reads⟩ | ⟨repeated, reads⟩
  · exact ⟨change last, by rw [reads, present]; rfl, fun _ => .inl alone, fun _ => sets last⟩
  · exact ⟨last, reads.trans present, by simp [repeated, present]⟩

end Edited

section Edits

variable {wide : Char → Bool} {call : UserEdit}

theorem deleteUser_eq_ok (found : deleteUser wide username entries = .ok edited) :
    edited = entries.filter fun c => c.username ≠ username := by
  rw [deleteUser] at found
  split at found
  · cases found
  · cases found
    rfl

theorem lastOf_delete_ne (entries : List Client) (differs : other ≠ username) :
    lastOf (entries.filter fun c => c.username ≠ username) other = lastOf entries other := by
  rw [lastOf, ← List.filter_reverse, List.find?_filter, lastOf]
  congr 1
  funext c
  by_cases same : c.username = other
  · simp [same, differs]
  · simp [same]

theorem lastOf_edit_ne (found : edit wide call.op entries = .ok edited) (differs : other ≠ call.user) :
    lastOf edited other = lastOf entries other := by
  cases call with
  | changePassword username password =>
    have first := editUser_eq_ok found
    exact lastOf_edited_ne first (fun _ => rfl) differs
  | setMaxDevices username n =>
    have first := editUser_eq_ok found
    exact lastOf_edited_ne first (fun _ => rfl) differs
  | delete username =>
    rw [deleteUser_eq_ok found]
    exact lastOf_delete_ne entries differs

theorem readable_edit (found : edit wide call.op entries = .ok edited) :
    (∀ d ∈ edited, readable d = true) ↔ RewritesReadable entries call := by
  cases call with
  | changePassword username password =>
    obtain ⟨before, c, after, rfl, rfl, clean, same⟩ := editFirst_eq_some (editUser_eq_ok found)
    subst same
    rw [RewritesReadable, others_append before after clean rfl]
    simp only [List.forall_mem_append, List.forall_mem_cons, readable]
    tauto
  | setMaxDevices username n =>
    obtain ⟨before, c, after, rfl, rfl, -, -⟩ := editFirst_eq_some (editUser_eq_ok found)
    simp only [RewritesReadable, List.forall_mem_append, List.forall_mem_cons, readable]
  | delete username =>
    rw [deleteUser_eq_ok found, RewritesReadable]
    simp only [List.mem_filter, decide_eq_true_eq, and_imp]

theorem maxDevices_edit (found : edit wide call.op entries = .ok edited) (ranged : call.op.inRange = true)
    (bound : ∀ c ∈ entries, c.maxDevices < 2 ^ 63) : ∀ c ∈ edited, c.maxDevices < 2 ^ 63 := by
  cases call with
  | changePassword username password =>
    obtain ⟨before, c, after, rfl, rfl, -, -⟩ := editFirst_eq_some (editUser_eq_ok found)
    simpa only [List.forall_mem_append, List.forall_mem_cons] using bound
  | setMaxDevices username n =>
    obtain ⟨before, c, after, rfl, rfl, -, -⟩ := editFirst_eq_some (editUser_eq_ok found)
    have range : 0 ≤ n ∧ n < 2 ^ 63 := of_decide_eq_true ranged
    simp only [List.forall_mem_append, List.forall_mem_cons] at bound ⊢
    exact ⟨bound.1, range.2, bound.2.2⟩
  | delete username =>
    rw [deleteUser_eq_ok found]
    exact fun c member => bound c (List.mem_of_mem_filter member)

theorem answered_edit (found : edit wide call.op entries = .ok edited) (ranged : call.op.inRange = true) :
    Answered (reload (edited.map kept)) call ↔ ReadsEdited entries call := by
  cases call with
  | changePassword username password =>
    obtain ⟨last, present, reads⟩ :=
      field_edited (editUser_eq_ok found) (fun _ => rfl) Client.password fun _ => rfl
    rw [Answered, getPassword_reload, lastOf_map_kept, present]
    exact reads
  | setMaxDevices username n =>
    have range : 0 ≤ n ∧ n < 2 ^ 63 := of_decide_eq_true ranged
    obtain ⟨last, present, reads⟩ :=
      field_edited (editUser_eq_ok found) (fun _ => rfl) (fun c => max c.maxDevices 0) fun _ => max_eq_left range.1
    rw [Answered, getMaxDevices_reload, lastOf_map_kept, present]
    exact reads
  | delete username =>
    refine ⟨fun _ => trivial, fun _ => ?_⟩
    have gone : lastOf (entries.filter fun c => c.username ≠ username) username = none :=
      lastOf_eq_none_iff.mpr fun c member => of_decide_eq_true (List.mem_filter.mp member).2
    rw [Answered, getPassword_reload, lastOf_map_kept, deleteUser_eq_ok found, gone]
    rfl

theorem others_edit (found : edit wide call.op entries = .ok edited) :
    (∀ other ≠ call.user,
      getPassword (reload (edited.map kept)) other = getPassword (reload entries) other ∧
        getMaxDevices (reload (edited.map kept)) other = getMaxDevices (reload entries) other) ↔
      OthersLimited entries call.user := by
  refine forall₂_congr fun other differs => ?_
  rw [getPassword_reload, getPassword_reload, getMaxDevices_reload, getMaxDevices_reload, lastOf_map_kept,
    lastOf_edit_ne found differs]
  cases lastOf entries other with
  | none => simp
  | some c => simp [kept]

end Edits

/-- **When the endpoint answers as the edit says**: the written file is readable, no other user has a negative limit,
and the entry that the endpoint reads is the edited one; or the file is refused and the answer was there before. -/
theorem served_iff (decoder : Decoder) (wide : Char → Bool) (text : Text) {entries : List Client}
    (parsed : decoder.decode text = .ok entries) (call : UserEdit) (ranged : call.op.inRange = true)
    {file : Option Text} (succeeded : (fileUsers decoder wide).call (some text) call.op = (file, .ok ())) :
    Served call (reload entries) (reloaded (reload entries) (FileUsers.loadCreds decoder file)) ↔
      (RewritesReadable entries call ∧ OthersLimited entries call.user ∧ ReadsEdited entries call) ∨
      (¬ RewritesReadable entries call ∧ Answered (reload entries) call) := by
  have loads : (fileUsers decoder wide).load (some text) = .ok entries := parsed
  cases found : edit wide call.op entries with
  | error err =>
    rw [Cell.call_of_edit_error loads found] at succeeded
    cases succeeded
  | ok edited =>
    rw [Cell.call_of_edit loads found] at succeeded
    cases succeeded
    have bound : ∀ c ∈ entries, c.maxDevices < 2 ^ 63 := fun c member =>
      (of_decide_eq_true (decoder.ranged parsed c member)).2
    show Served call _ (reloaded _ (decoder.decode (saveCreds wide edited))) ↔ _
    by_cases reads : RewritesReadable entries call
    · have back := decode_saveCreds decoder wide ((readable_edit found).mpr reads) (maxDevices_edit found ranged bound)
      rw [back, reloaded, Served, answered_edit found ranged, others_edit found]
      tauto
    · have unreadable : ∃ c ∈ edited, readable c = false := by
        simpa using mt (readable_edit found).mp reads
      obtain ⟨err, refused⟩ := decode_saveCreds_eq_error decoder wide unreadable
      rw [refused, reloaded, Served]
      simp [reads]

def onceToml : Text := "[[client]]\nusername = \"u\"\npassword = \"old\"\n".toList

theorem served_once :
    Served (.changePassword "u" "new") (reload [⟨"u", "old", 0⟩])
      (reloaded (reload [⟨"u", "old", 0⟩]) (FileUsers.loadCreds plainDecoder
        (some (saveCreds (fun _ => true) [⟨"u", "new", 0⟩])))) := by
  have parsed : plainDecoder.decode onceToml = .ok [⟨"u", "old", 0⟩] := rfl
  have succeeded : (fileUsers plainDecoder fun _ => true).call (some onceToml) (.changePassword "u" "new") =
      (some (saveCreds (fun _ => true) [⟨"u", "new", 0⟩]), .ok ()) := Cell.call_of_edit parsed rfl
  refine (served_iff plainDecoder (fun _ => true) onceToml parsed (.changePassword "u" "new") rfl succeeded).mpr
    (.inl ⟨⟨by decide, by decide⟩, ?_, .inl (by decide)⟩)
  intro other _ c found
  have nonnegative : ∀ c ∈ ([⟨"u", "old", 0⟩] : List Client), 0 ≤ c.maxDevices := by decide
  exact nonnegative c (username_lastOf found).1

def repeatedToml : Text :=
  ("[[client]]\nusername = \"u\"\npassword = \"first\"\n" ++
    "[[client]]\nusername = \"u\"\npassword = \"last\"\n").toList

/-- **The first entry is changed, and the last one is read.** -/
theorem not_served_repeated :
    ∃ entries file, plainDecoder.decode repeatedToml = .ok entries ∧
      (fileUsers plainDecoder fun _ => true).call (some repeatedToml) (.changePassword "u" "new") =
        (file, .ok ()) ∧
      getPassword (reloaded (reload entries) (FileUsers.loadCreds plainDecoder file)) "u" = "last" ∧
      ¬ Served (.changePassword "u" "new") (reload entries)
        (reloaded (reload entries) (FileUsers.loadCreds plainDecoder file)) := by
  have parsed : plainDecoder.decode repeatedToml = .ok [⟨"u", "first", 0⟩, ⟨"u", "last", 0⟩] := rfl
  have back : FileUsers.loadCreds plainDecoder (some (saveCreds (fun _ => true) [⟨"u", "new", 0⟩, ⟨"u", "last", 0⟩])) =
      .ok [⟨"u", "new", 0⟩, ⟨"u", "last", 0⟩] := decode_saveCreds plainDecoder _ (by decide) (by decide)
  have succeeded : (fileUsers plainDecoder fun _ => true).call (some repeatedToml) (.changePassword "u" "new") =
      (some (saveCreds (fun _ => true) [⟨"u", "new", 0⟩, ⟨"u", "last", 0⟩]), .ok ()) := Cell.call_of_edit parsed rfl
  have reads : getPassword (reloaded (reload [⟨"u", "first", 0⟩, ⟨"u", "last", 0⟩])
      (.ok [⟨"u", "new", 0⟩, ⟨"u", "last", 0⟩])) "u" = "last" := rfl
  rw [← back] at reads
  refine ⟨_, _, parsed, succeeded, reads, ?_⟩
  rintro ⟨answered, -⟩
  exact absurd (reads.symm.trans answered) (by decide)

/-! ### Reloads while the file is written -/

def utf8 (text : Text) : List UInt8 := bytesOf (String.ofList text)

/-- `toml.DecodeFile` on the bytes of the file, which have to be UTF-8. -/
def decodeBytes (decode : Text → Except Text (List Client)) (content : List UInt8) : Except Text (List Client) :=
  match (ByteArray.mk content.toArray).utf8Decode? with
  | none => .error "invalid UTF-8 byte".toList
  | some text => decode text.toList

theorem decodeBytes_utf8 (decode : Text → Except Text (List Client)) (text : Text) :
    decodeBytes decode (utf8 text) = decode text := by
  have bytes : ByteArray.mk (utf8 text).toArray = text.utf8Encode := by simp [utf8, bytesOf]
  rw [decodeBytes, bytes, List.utf8Decode?_utf8Encode]

/-- The file, what the last `saveCreds` writes into it, the versions that were complete, and the map of the
endpoint. -/
structure Disk where
  content : List UInt8
  target : List UInt8
  versions : List (List UInt8)
  users : Users

/-- `os.WriteFile` truncates the file and writes it from the front; the endpoint reloads it in between. -/
inductive DiskEvent where
  | save (entries : List Client)
  | write (count : Nat)
  | reload

namespace Disk

variable {decode : Text → Except Text (List Client)} {wide : Char → Bool} {disk next final : Disk} {event : DiskEvent}

/-- A version that stands in the file as a whole is complete. -/
def settle (disk : Disk) : Disk :=
  if disk.content = disk.target then { disk with versions := disk.versions ++ [disk.target] } else disk

def step (decode : Text → Except Text (List Client)) (wide : Char → Bool) (disk : Disk) : DiskEvent → Option Disk
  | .save entries => some (settle { disk with content := [], target := utf8 (saveCreds wide entries) })
  | .write count =>
    if disk.content.length < count ∧ count ≤ disk.target.length then
      some (settle { disk with content := disk.target.take count })
    else none
  | .reload => some { disk with users := reloaded disk.users (decodeBytes decode disk.content) }

/-- The endpoint after it loaded a complete file. -/
def start (version : List UInt8) (clients : List Client) : Disk :=
  ⟨version, version, [version], reload clients⟩

/-- The map is that of a complete version. -/
def FromVersion (decode : Text → Except Text (List Client)) (disk : Disk) : Prop :=
  ∃ version ∈ disk.versions, ∃ clients, decodeBytes decode version = .ok clients ∧ disk.users = reload clients

/-- A reload finds the whole version, or what does not decode. -/
def ReadsWhole (decode : Text → Except Text (List Client)) (disk : Disk) : DiskEvent → Prop
  | .reload => disk.content = disk.target ∨ ∃ err, decodeBytes decode disk.content = .error err
  | _ => True

/-- The map is that of a complete version, and a whole file is one. -/
structure Settled (decode : Text → Except Text (List Client)) (disk : Disk) : Prop where
  loaded : FromVersion decode disk
  complete : disk.content = disk.target → disk.target ∈ disk.versions

theorem fromVersion_settle (loaded : FromVersion decode disk) : Settled decode disk.settle := by
  obtain ⟨version, member, clients, decoded, same⟩ := loaded
  unfold settle
  split
  · exact ⟨⟨version, List.mem_append_left _ member, clients, decoded, same⟩, fun _ => by simp⟩
  · next torn => exact ⟨⟨version, member, clients, decoded, same⟩, fun whole => absurd whole torn⟩

theorem settled_step (whole : ReadsWhole decode disk event) (settled : Settled decode disk)
    (taken : step decode wide disk event = some next) : Settled decode next := by
  obtain ⟨loaded, complete⟩ := settled
  cases event with
  | save entries =>
    cases taken
    exact fromVersion_settle loaded
  | write count =>
    rw [step] at taken
    split at taken
    · cases taken
      exact fromVersion_settle loaded
    · cases taken
  | reload =>
    cases taken
    refine ⟨?_, complete⟩
    cases decoded : decodeBytes decode disk.content with
    | error err => exact loaded
    | ok clients =>
      rcases whole with whole | ⟨err, refused⟩
      · exact ⟨disk.target, complete whole, clients, whole ▸ decoded, rfl⟩
      · rw [decoded] at refused
        cases refused

/-- **The map is always that of a complete version**, where no reload reads a part of one. -/
theorem fromVersion_of_whole (decode : Text → Except Text (List Client)) (wide : Char → Bool) (version : List UInt8)
    {clients : List Client}
    (decoded : decodeBytes decode version = .ok clients) (events : List DiskEvent)
    (whole : Along (step decode wide) (ReadsWhole decode) (start version clients) events)
    (ran : run (step decode wide) (start version clients) events = some final) : FromVersion decode final := by
  have settled : Settled decode (start version clients) :=
    ⟨⟨version, List.mem_singleton_self _, clients, decoded, rfl⟩, fun _ => List.mem_singleton_self _⟩
  exact (run_invariant (fun _ _ _ whole settled taken => settled_step whole settled taken) whole settled ran).loaded

def oneUser : List UInt8 := utf8 (saveCreds (fun _ => true) [⟨"alice", "a", 0⟩])

theorem decodeBytes_oneUser : decodeBytes plainDecoder oneUser = .ok [⟨"alice", "a", 0⟩] :=
  (decodeBytes_utf8 _ _).trans (decode_saveCreds plainDecoder _ (by decide) (by decide))

theorem fromVersion_written :
    ∃ final, run (step plainDecoder fun _ => true) (start oneUser [⟨"alice", "a", 0⟩])
        [.save [⟨"alice", "b", 0⟩], .write 46, .reload] = some final ∧
      getPassword final.users "alice" = "b" ∧ FromVersion plainDecoder final := by
  let target := utf8 (saveCreds (fun _ => true) [⟨"alice", "b", 0⟩])
  have decoded : decodeBytes plainDecoder target = .ok [⟨"alice", "b", 0⟩] :=
    (decodeBytes_utf8 _ _).trans (decode_saveCreds plainDecoder _ (by decide) (by decide))
  have written : run (step plainDecoder fun _ => true) (start oneUser [⟨"alice", "a", 0⟩])
      [.save [⟨"alice", "b", 0⟩], .write 46] =
      some ⟨target, target, [oneUser, target], reload [⟨"alice", "a", 0⟩]⟩ := rfl
  have ran : run (step plainDecoder fun _ => true) (start oneUser [⟨"alice", "a", 0⟩])
      [.save [⟨"alice", "b", 0⟩], .write 46, .reload] =
      some ⟨target, target, [oneUser, target], reload [⟨"alice", "b", 0⟩]⟩ := by
    refine run_append_eq_some.mpr ⟨_, written, ?_⟩
    rw [run_cons, step, decoded]
    rfl
  refine ⟨_, ran, rfl, fromVersion_of_whole plainDecoder (fun _ => true) oneUser decodeBytes_oneUser _ ?_ ran⟩
  exact (along_cons rfl).mpr ⟨trivial, (along_cons rfl).mpr ⟨trivial, (along_cons rfl).mpr ⟨.inl rfl, trivial⟩⟩⟩

/-- **A reload between the truncation and the write**: the map is empty. -/
theorem not_fromVersion_truncated :
    ∃ final, run (step plainDecoder fun _ => true) (start oneUser [⟨"alice", "a", 0⟩])
        [.save [⟨"alice", "b", 0⟩], .reload] = some final ∧
      final.users = ∅ ∧ ¬ FromVersion plainDecoder final := by
  refine ⟨⟨[], utf8 (saveCreds (fun _ => true) [⟨"alice", "b", 0⟩]), [oneUser], ∅⟩, rfl, rfl, ?_⟩
  rintro ⟨version, member, clients, decoded, same⟩
  rw [List.mem_singleton.mp member, decodeBytes_oneUser] at decoded
  cases decoded
  exact absurd (congrArg (AList.lookup "alice") same) (by decide)

end Disk

end Ttgo.Admin.FileReload

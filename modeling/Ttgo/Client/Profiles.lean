/-
**The profiles of the client application.**

`ProfileStore` of `internal/client/profile.go` keeps the profiles as files of one directory, and `Enroll` of
`internal/client/enroll.go` stores there what the enroll server sends. Each of the writers checks what it writes by
itself. A write can fail: before it has begun, or with a part of it in the file.

* `Env` — the TOML decoder, and the digests that give profiles and enroll URLs their names.
* `check` — what `ImportContent` and `WriteContent` ask of a content.
* `perform` — one operation: the state after it, and what it reports.
* `Usable` — what the application has written is a profile with a username and an address.
* `Harmless` — an answer of the enroll server that replaces a profile is one, and no write is cut off midway.
* `usable_iff` — runs of operations keep to profiles and refuse everything else exactly if every operation is harmless.
-/

import Ttgo.Lib.GoFile
import Ttgo.Lib.GoMap
import Ttgo.Lib.GoURL
import Ttgo.Lib.Run

namespace Ttgo.Client.Profiles

open Ttgo.Lib
open Ttgo.Lib.GoURL (Bytes byte ascii slash)

/-! ### Names of files -/

def ext (name : Bytes) : Bytes :=
  let last := name.reverse.takeWhile fun b => b ≠ byte '.' ∧ b ≠ slash
  if (name.reverse.drop last.length).head? = some (byte '.') then byte '.' :: last.reverse else []

/-- `strings.TrimSuffix(name, filepath.Ext(name))`. -/
def trimExt (name : Bytes) : Bytes := name.take (name.length - (ext name).length)

/-- What `sanitizeFilename` makes of a byte. The bytes that are not ASCII belong to no character that it keeps. -/
def sanitizeByte (b : UInt8) : Option UInt8 :=
  if byte 'a' ≤ b ∧ b ≤ byte 'z' ∨ byte 'A' ≤ b ∧ b ≤ byte 'Z' ∨ byte '0' ≤ b ∧ b ≤ byte '9' ∨
      b ∈ ascii "-_." then some b
  else if b = byte ' ' then some (byte '-')
  else none

def sanitizeFilename (name : Bytes) : Bytes := name.filterMap sanitizeByte

def profileNameFromURL (url : Bytes) : Bytes :=
  ascii "enroll-" ++ (((url.rdropWhile (· = slash)).splitOn slash).getLastD []).take 8

/-! ### The store -/

/-- `ProfileTOML`, as far as it is looked at. -/
structure ProfileTOML where
  hostname : Bytes := []
  username : Bytes := []
  addresses : List Bytes := []
deriving DecidableEq, Repr

structure Env where
  /-- `toml.Unmarshal`. -/
  unmarshal : Bytes → Except Text ProfileTOML
  /-- The identifier of a profile, from the digest of its path. -/
  idOf : Bytes → Bytes
  /-- The file of an enroll URL, from its digest. -/
  enrollStateFile : Bytes → Bytes
  /-- `json.Unmarshal` of an error of the enroll server: its code and its message. -/
  enrollError : Bytes → Text × Text

/-- The directory of the profiles and that of the enroll states. -/
structure State where
  files : GoMap Bytes Bytes
  enrolled : GoMap Bytes Bytes
  /-- The paths that the application has written to. -/
  written : List Bytes

/-- A file that `List` loads. -/
def isListed (env : Env) (files : GoMap Bytes Bytes) (path : Bytes) : Bool :=
  match files.lookup path with
  | none => false
  | some data => (ascii ".toml").isSuffixOf (path.map fun b => if byte 'A' ≤ b ∧ b ≤ byte 'Z' then b + 32 else b) &&
      (env.unmarshal data).toBool

/-- `Get`: the profile with the identifier. Where two have the same, it is one of them. -/
def isFound (env : Env) (files : GoMap Bytes Bytes) (id : Bytes) : Option Bytes → Bool
  | some path => isListed env files path && env.idOf path = id
  | none => files.keys.all fun path => !(isListed env files path && env.idOf path = id)

abbrev Fault := WriteFault Bytes

def State.put (state : State) (path data : Bytes) : State :=
  { state with files := state.files.insert path data, written := path :: state.written }

/-- `os.WriteFile`. -/
def State.write (state : State) (path data : Bytes) : Option Fault → State × Except Text Unit
  | none => (state.put path data, .ok ())
  | some (.refused err) => (state, .error err)
  | some (.cut err left) => (state.put path left, .error err)

/-- What `ImportContent` and `WriteContent` check. -/
def check (env : Env) (data : Bytes) : Except Text ProfileTOML :=
  match env.unmarshal data with
  | .error err => .error ("invalid TOML: ".toList ++ err)
  | .ok doc =>
    if doc.username = [] ∨ doc.addresses = [] then
      .error "profile must have endpoint.username and endpoint.addresses".toList
    else .ok doc

structure EnrollResult where
  ok : Bool := false
  profileID : Bytes := []
  error : Text := []
  message : Text := []
  revoked : Bool := false
deriving DecidableEq, Repr

inductive Result
  | profile (id path : Bytes)
  | done
  | enroll (result : EnrollResult)
deriving DecidableEq, Repr

structure Performed where
  state : State
  result : Except Text Result

def targetOf (files : GoMap Bytes Bytes) (filename : Bytes) (now : Int) : Bytes :=
  let sanitized := sanitizeFilename (trimExt filename)
  let name := if sanitized = [] then ascii "profile" else sanitized
  if (files.lookup (name ++ ascii ".toml")).isSome then
    name ++ ascii "-" ++ (itoa now).map byte ++ ascii ".toml"
  else name ++ ascii ".toml"

/-- `ImportContent`: the identifier and the path of the profile. -/
def importContent (env : Env) (state : State) (data filename : Bytes) (now : Int) (fault : Option Fault) :
    State × Except Text (Bytes × Bytes) :=
  match check env data with
  | .error err => (state, .error err)
  | .ok _ =>
    let target := targetOf state.files filename now
    (state.write target data fault).map id fun wrote => wrote.map fun _ => (env.idOf target, target)

def notFound (id : Bytes) : Text := "profile ".toList ++ id.map (fun b => Char.ofNat b.toNat) ++ " not found".toList

/-- `WriteContent`; `found` is what `Get` gives. -/
def writeContent (env : Env) (state : State) (id content : Bytes) (found : Option Bytes) (fault : Option Fault) :
    Performed :=
  match found with
  | none => ⟨state, .error (notFound id)⟩
  | some path =>
    match check env content with
    | .error err => ⟨state, .error err⟩
    | .ok _ =>
      let (next, wrote) := state.write path content fault
      ⟨next, wrote.map fun _ => .done⟩

/-- `Delete`. -/
def deleteProfile (state : State) (id : Bytes) (found : Option Bytes) (fault : Option Fault) : Performed :=
  match found, fault with
  | none, _ => ⟨state, .error (notFound id)⟩
  | some path, none => ⟨{ state with files := state.files.erase path }, .ok .done⟩
  | some _, some fault => ⟨state, .error fault.err⟩

/-! ### Enrolling -/

/-- `findEnrolledProfileID`; no identifier is the empty string. -/
def findEnrolledProfileID (env : Env) (state : State) (url : Bytes) : Bytes :=
  (state.enrolled.lookup (env.enrollStateFile url)).getD []

/-- `saveEnrollState`. Its error is dropped; where the write fails, `kept` is what is read of the file afterwards. -/
def saveEnrollState (env : Env) (state : State) (url id : Bytes) (kept : Option Bytes) : State :=
  { state with enrolled := state.enrolled.insert (env.enrollStateFile url) (kept.getD id) }

def removeEnrollState (env : Env) (state : State) (url : Bytes) (kept : Option Bytes) : State :=
  match kept with
  | none => { state with enrolled := state.enrolled.erase (env.enrollStateFile url) }
  | some id => { state with enrolled := state.enrolled.insert (env.enrollStateFile url) id }

structure Disk where
  /-- At the file of the profile. -/
  fault : Option Fault := none
  /-- At the enroll state. -/
  kept : Option Bytes := none
deriving DecidableEq, Repr

/-- `handleEnrollSuccess`; `found` is the profile that was enrolled before, if it is still there. The error of
its own write is dropped. -/
def handleEnrollSuccess (env : Env) (state : State) (url configData : Bytes) (found : Option Bytes) (now : Int)
    (disk : Disk) : Performed :=
  match env.unmarshal configData with
  | .error err => ⟨state, .error ("parse config: ".toList ++ err)⟩
  | .ok doc =>
    let name := if doc.hostname ≠ [] then doc.hostname else profileNameFromURL url
    let existingID := findEnrolledProfileID env state url
    match found with
    | some path =>
      ⟨saveEnrollState env (state.write path configData disk.fault).1 url existingID disk.kept,
        .ok (.enroll { ok := true, profileID := existingID })⟩
    | none =>
      match importContent env state configData (name ++ ascii ".toml") now disk.fault with
      | (left, .error err) => ⟨left, .error ("save profile: ".toList ++ err)⟩
      | (next, .ok (id, _)) =>
        ⟨saveEnrollState env next url id disk.kept, .ok (.enroll { ok := true, profileID := id })⟩

/-- The body is read up to this length. -/
def maxBody : Nat := 256 * 1024

/-- What `Enroll` does with an answer. -/
def enrollAnswer (env : Env) (state : State) (url : Bytes) (status : Nat) (body : Bytes) (found : Option Bytes)
    (now : Int) (disk : Disk) : Performed :=
  let apiErr := env.enrollError (body.take maxBody)
  if status = 200 then handleEnrollSuccess env state url (body.take maxBody) found now disk
  else if status = 429 then
    ⟨state, .ok (.enroll { error := "rate_limit".toList
                           message := "Слишком частые запросы, повторите позже".toList })⟩
  else if status = 403 ∨ status = 404 then
    let id := findEnrolledProfileID env state url
    let left := if id = [] then state else (deleteProfile state id found disk.fault).state
    ⟨removeEnrollState env left url disk.kept,
      .ok (.enroll { revoked := true, error := apiErr.1, message := apiErr.2 })⟩
  else if 500 ≤ status then
    ⟨state, .ok (.enroll { error := "server_error".toList
                           message := "Сервер вернул ".toList ++ itoa status ++
                             ", используем существующий конфиг".toList })⟩
  else ⟨state, .ok (.enroll { error := apiErr.1, message := apiErr.2 })⟩

/-! ### The operations -/

/-- `found` is the profile that `Get` finds, and `answer` the status and the body, or the error
of the request. -/
inductive Op
  | importContent (data filename : Bytes) (now : Int) (fault : Option Fault)
  | writeContent (id content : Bytes) (found : Option Bytes) (fault : Option Fault)
  | delete (id : Bytes) (found : Option Bytes) (fault : Option Fault)
  | enroll (url : Bytes) (answer : Except Text (Nat × Bytes)) (found : Option Bytes) (now : Int) (disk : Disk)

def isEnrolled (env : Env) (state : State) (url : Bytes) (found : Option Bytes) : Bool :=
  let id := findEnrolledProfileID env state url
  if id = [] then found = none else isFound env state.files id found

/-- **One operation**, if `found` is what is found. -/
def perform (env : Env) (state : State) : Op → Option Performed
  | .importContent data filename now fault =>
    let (next, imported) := importContent env state data filename now fault
    some ⟨next, imported.map fun (id, path) => .profile id path⟩
  | .writeContent id content found fault =>
    if isFound env state.files id found then some (writeContent env state id content found fault) else none
  | .delete id found fault =>
    if isFound env state.files id found then some (deleteProfile state id found fault) else none
  | .enroll _ (.error err) _ _ _ => some ⟨state, .error err⟩
  | .enroll url (.ok (status, body)) found now disk =>
    if isEnrolled env state url found then some (enrollAnswer env state url status body found now disk) else none

def step (env : Env) (state : State) (op : Op) : Option State := (perform env state op).map Performed.state

/-- What an operation asks to write. -/
def Op.content : Op → Option Bytes
  | importContent data _ _ _ => some data
  | writeContent _ content _ _ => some content
  | delete _ _ _ => none
  | enroll _ (.error _) _ _ _ => none
  | enroll _ (.ok (status, body)) _ _ _ => if status = 200 then some (body.take maxBody) else none

/-- A content that parses, with a username and an address. -/
def IsProfile (env : Env) (data : Bytes) : Prop :=
  ∃ doc, env.unmarshal data = .ok doc ∧ doc.username ≠ [] ∧ doc.addresses ≠ []

/-- **Every file that the application has written is a profile.** -/
def Usable (env : Env) (state : State) : Prop :=
  ∀ path ∈ state.written, ∀ data ∈ state.files.lookup path, IsProfile env data

/-- **A content that is no profile** is refused with an error, and nothing changes. -/
def Refuses (env : Env) (state : State) (op : Op) : Prop :=
  ∀ data ∈ op.content, ¬IsProfile env data →
    ∀ done ∈ perform env state op, done.state = state ∧ ∃ err, done.result = .error err

/-- A write that is cut off leaves a profile all the same. -/
def Fault.harmless (env : Env) : Option Fault → Prop
  | some (.cut _ left) => IsProfile env left
  | _ => True

/-- What the operation would replace a profile by without a check is one, and a write that is cut off leaves one. -/
def Harmless (env : Env) : Op → Prop
  | .importContent data _ _ fault => IsProfile env data → Fault.harmless env fault
  | .writeContent _ content found fault => found.isSome → IsProfile env content → Fault.harmless env fault
  | .delete _ _ _ | .enroll _ (.error _) _ _ _ => True
  | .enroll _ (.ok (status, body)) found _ disk =>
    status = 200 →
      (found.isSome → (env.unmarshal (body.take maxBody)).toBool → IsProfile env (body.take maxBody)) ∧
      (IsProfile env (body.take maxBody) → Fault.harmless env disk.fault)

variable {env : Env} {state next : State} {op : Op} {data path : Bytes}

/-! ### One step -/

theorem check_cases (env : Env) (data : Bytes) :
    (∃ err, check env data = .error err) ∧ ¬IsProfile env data ∨
      (∃ doc, check env data = .ok doc) ∧ IsProfile env data := by
  unfold check IsProfile
  cases env.unmarshal data with
  | error err => exact .inl ⟨⟨_, rfl⟩, by rintro ⟨_, ⟨⟩, -⟩⟩
  | ok doc =>
    dsimp only
    split
    · next empty =>
      refine .inl ⟨⟨_, rfl⟩, ?_⟩
      rintro ⟨_, ⟨⟩, username, addresses⟩
      exact empty.elim username addresses
    · next filled => exact .inr ⟨⟨doc, rfl⟩, doc, rfl, not_or.mp filled⟩

theorem importContent_cases (env : Env) (state : State) (data filename : Bytes) (now : Int) (fault : Option Fault) :
    (∃ err, importContent env state data filename now fault = (state, .error err)) ∧ ¬IsProfile env data ∨
      (∃ target imported, importContent env state data filename now fault =
        ((state.write target data fault).1, imported)) ∧ IsProfile env data := by
  unfold importContent
  rcases check_cases env data with ⟨⟨err, refused⟩, no⟩ | ⟨⟨doc, passed⟩, profile⟩
  · rw [refused]
    exact .inl ⟨⟨err, rfl⟩, no⟩
  · rw [passed]
    exact .inr ⟨⟨_, _, rfl⟩, profile⟩

theorem usable_congr {other : State} (files : next.files = other.files) (written : next.written = other.written) :
    Usable env next ↔ Usable env other := by
  rw [Usable, Usable, files, written]

theorem usable_put (usable : Usable env state) : Usable env (state.put path data) ↔ IsProfile env data := by
  constructor
  · intro kept
    exact kept path List.mem_cons_self data (AList.lookup_insert _)
  · intro profile at_ member stored found
    rw [State.put, GoMap.lookup_insert_ite] at found
    split at found
    · cases found
      exact profile
    · next differs => exact usable at_ ((List.mem_cons.mp member).resolve_left differs) stored found

theorem usable_write {fault : Option Fault} (usable : Usable env state) (profile : IsProfile env data) :
    Usable env (state.write path data fault).1 ↔ Fault.harmless env fault := by
  rcases fault with _ | err | ⟨err, left⟩
  · exact iff_of_true ((usable_put usable).mpr profile) trivial
  · exact iff_of_true usable trivial
  · exact usable_put usable

/-- **What an operation can do**: refuse, leave the profiles or remove one, or write what it was given. -/
inductive Outcome (env : Env) (state : State) (op : Op) (done : Performed) : Prop
  | refused {err : Text} (same : done = ⟨state, .error err⟩) (harmless : Harmless env op)
  | kept (asked : op.content = none) (written : done.state.written = state.written)
      (files : ∀ path data, done.state.files.lookup path = some data → state.files.lookup path = some data)
      (harmless : Harmless env op)
  | wrote {path data : Bytes} {fault : Option Fault} (asked : op.content = some data)
      (files : done.state.files = (state.write path data fault).1.files)
      (written : done.state.written = (state.write path data fault).1.written)
      (accepted : IsProfile env data ∨ ∃ result, done.result = .ok result)
      (harmless : Harmless env op ↔ IsProfile env data ∧ Fault.harmless env fault)

/-- **One operation keeps the profiles usable, and refuses what is none, exactly if it is harmless.** -/
theorem Outcome.harmless_iff {done : Performed} (outcome : Outcome env state op done)
    (performs : perform env state op = some done) (usable : Usable env state) :
    Usable env done.state ∧ Refuses env state op ↔ Harmless env op := by
  cases outcome with
  | refused same harmless =>
    subst same
    refine iff_of_true ⟨usable, ?_⟩ harmless
    intro data asked no done' performs'
    cases performs.symm.trans performs'
    exact ⟨rfl, _, rfl⟩
  | kept asked written files harmless =>
    refine iff_of_true ⟨?_, ?_⟩ harmless
    · intro path member data found
      exact usable path (written ▸ member) data (files path data found)
    · intro data asked'
      cases asked.symm.trans asked'
  | @wrote path data fault asked files written accepted harmless =>
    rw [harmless, usable_congr files written]
    constructor
    · rintro ⟨after, refuses⟩
      have profile : IsProfile env data := by
        by_contra no
        obtain ⟨-, err, failed⟩ := refuses data asked no done performs
        obtain ⟨result, ok⟩ := accepted.resolve_left no
        cases ok.symm.trans failed
      exact ⟨profile, (usable_write usable profile).mp after⟩
    · rintro ⟨profile, cut⟩
      refine ⟨(usable_write usable profile).mpr cut, ?_⟩
      intro data' asked' no
      cases asked.symm.trans asked'
      exact absurd profile no

theorem Outcome.wrote_profile {done : Performed} {fault : Option Fault} (asked : op.content = some data)
    (harmless : Harmless env op ↔ (IsProfile env data → Fault.harmless env fault)) (profile : IsProfile env data)
    (files : done.state.files = (state.write path data fault).1.files)
    (written : done.state.written = (state.write path data fault).1.written) : Outcome env state op done :=
  .wrote asked files written (.inl profile) (by rw [harmless, forall_prop_of_true profile, and_iff_right profile])

theorem lookup_of_erase {files : GoMap Bytes Bytes} (removed : Bytes) (path data : Bytes)
    (found : (files.erase removed).lookup path = some data) : files.lookup path = some data := by
  rw [GoMap.lookup_erase_ite] at found
  split at found
  · cases found
  · exact found

theorem deleteProfile_kept (state : State) (id : Bytes) (found : Option Bytes) (fault : Option Fault) :
    (deleteProfile state id found fault).state.written = state.written ∧
      ∀ path data, (deleteProfile state id found fault).state.files.lookup path = some data →
        state.files.lookup path = some data := by
  cases found with
  | none => exact ⟨rfl, fun _ _ found => found⟩
  | some path =>
    cases fault with
    | none => exact ⟨rfl, lookup_of_erase path⟩
    | some fault => exact ⟨rfl, fun _ _ found => found⟩

theorem outcome_importContent (env : Env) (state : State) (data filename : Bytes) (now : Int) (fault : Option Fault)
    {done : Performed} (performs : perform env state (.importContent data filename now fault) = some done) :
    Outcome env state (.importContent data filename now fault) done := by
  rw [perform] at performs
  rcases importContent_cases env state data filename now fault with
    ⟨⟨err, refused⟩, no⟩ | ⟨⟨target, imported, wrote⟩, profile⟩
  · rw [refused] at performs
    cases performs
    exact .refused rfl fun profile => absurd profile no
  · rw [wrote] at performs
    cases performs
    exact .wrote_profile rfl .rfl profile rfl rfl

theorem outcome_writeContent (env : Env) (state : State) (id content : Bytes) (found : Option Bytes)
    (fault : Option Fault) :
    Outcome env state (.writeContent id content found fault) (writeContent env state id content found fault) := by
  cases found with
  | none => exact .refused rfl fun isSome => absurd isSome Bool.false_ne_true
  | some path =>
    unfold writeContent
    rcases check_cases env content with ⟨⟨err, refused⟩, no⟩ | ⟨⟨doc, passed⟩, profile⟩
    · simp only [refused]
      exact .refused rfl fun _ profile => absurd profile no
    · simp only [passed]
      exact .wrote_profile rfl (forall_prop_of_true rfl) profile rfl rfl

theorem outcome_handleEnrollSuccess (env : Env) (state : State) (url body : Bytes) (found : Option Bytes) (now : Int)
    (disk : Disk) :
    Outcome env state (.enroll url (.ok (200, body)) found now disk)
      (handleEnrollSuccess env state url (body.take maxBody) found now disk) := by
  have asked : (Op.enroll url (.ok (200, body)) found now disk).content = some (body.take maxBody) := rfl
  have harmless_iff : Harmless env (.enroll url (.ok (200, body)) found now disk) ↔
      (found.isSome → (env.unmarshal (body.take maxBody)).toBool → IsProfile env (body.take maxBody)) ∧
        (IsProfile env (body.take maxBody) → Fault.harmless env disk.fault) := forall_prop_of_true rfl
  revert asked harmless_iff
  generalize Op.enroll url (.ok (200, body)) found now disk = op
  generalize body.take maxBody = data
  intro asked harmless_iff
  unfold handleEnrollSuccess
  cases read : env.unmarshal data with
  | error err =>
    have no : ¬IsProfile env data := by
      rintro ⟨_, parsed, -⟩
      cases read.symm.trans parsed
    refine .refused rfl (harmless_iff.mpr ⟨fun _ parses => ?_, fun profile => absurd profile no⟩)
    rw [read] at parses
    cases parses
  | ok doc =>
    dsimp only
    generalize (if doc.hostname ≠ [] then doc.hostname else profileNameFromURL url) ++ ascii ".toml" = filename
    cases found with
    | some path =>
      refine .wrote asked rfl rfl (.inr ⟨_, rfl⟩) (harmless_iff.trans ?_)
      have parses : (env.unmarshal data).toBool := by rw [read]; rfl
      constructor
      · rintro ⟨filled, cut⟩
        have profile := filled rfl parses
        exact ⟨profile, cut profile⟩
      · rintro ⟨profile, cut⟩
        exact ⟨fun _ _ => profile, fun _ => cut⟩
    | none =>
      rcases importContent_cases env state data filename now disk.fault with
        ⟨⟨err, refused⟩, no⟩ | ⟨⟨target, imported, wrote⟩, profile⟩
      · simp only [refused]
        refine .refused rfl (harmless_iff.mpr ⟨fun isSome => ?_, fun profile => absurd profile no⟩)
        exact absurd isSome Bool.false_ne_true
      · simp only [wrote]
        have harmless := harmless_iff.trans (and_iff_right fun _ _ => profile)
        cases imported with
        | error err => exact .wrote_profile asked harmless profile rfl rfl
        | ok created => exact .wrote_profile asked harmless profile rfl rfl

theorem outcome_enrollAnswer (env : Env) (state : State) (url : Bytes) (status : Nat) (body : Bytes)
    (found : Option Bytes) (now : Int) (disk : Disk) :
    Outcome env state (.enroll url (.ok (status, body)) found now disk)
      (enrollAnswer env state url status body found now disk) := by
  by_cases success : status = 200
  · subst success
    exact outcome_handleEnrollSuccess env state url body found now disk
  have asked : (Op.enroll url (.ok (status, body)) found now disk).content = none := if_neg success
  have harmless : Harmless env (.enroll url (.ok (status, body)) found now disk) := fun is => absurd is success
  have same {result : Except Text Result} :
      Outcome env state (.enroll url (.ok (status, body)) found now disk) ⟨state, result⟩ :=
    .kept asked rfl (fun _ _ stored => stored) harmless
  unfold enrollAnswer
  simp only [if_neg success]
  split
  · exact same
  split
  · -- The device was revoked.
    have removed (left : State) : (removeEnrollState env left url disk.kept).written = left.written ∧
        (removeEnrollState env left url disk.kept).files = left.files := by
      unfold removeEnrollState
      cases disk.kept <;> exact ⟨rfl, rfl⟩
    have kept := deleteProfile_kept state (findEnrolledProfileID env state url) found disk.fault
    split
    · refine .kept asked (removed state).1 (fun path data stored => ?_) harmless
      rwa [(removed state).2] at stored
    · refine .kept asked ((removed _).1.trans kept.1) (fun path data stored => ?_) harmless
      rw [(removed _).2] at stored
      exact kept.2 path data stored
  split
  · exact same
  · exact same

theorem outcome_perform {done : Performed} (performs : perform env state op = some done) :
    Outcome env state op done := by
  cases op with
  | importContent data filename now fault => exact outcome_importContent env state data filename now fault performs
  | writeContent id content found fault =>
    obtain ⟨-, performs⟩ := Option.ite_none_right_eq_some.mp performs
    cases performs
    exact outcome_writeContent env state id content found fault
  | delete id found fault =>
    obtain ⟨-, performs⟩ := Option.ite_none_right_eq_some.mp performs
    cases performs
    have kept := deleteProfile_kept state id found fault
    exact .kept rfl kept.1 kept.2 trivial
  | enroll url answer found now disk =>
    rcases answer with err | ⟨status, body⟩
    · cases performs
      exact .refused rfl trivial
    · obtain ⟨-, performs⟩ := Option.ite_none_right_eq_some.mp performs
      cases performs
      exact outcome_enrollAnswer env state url status body found now disk

/-! ### Runs -/

/-- **Runs keep the profiles usable and refuse what is none exactly if every operation is harmless.** -/
theorem usable_iff {env : Env} {start final : State} {ops : List Op} (usable : Usable env start)
    (reached : run (step env) start ops = some final) :
    Throughout (step env) (Usable env) start ops ∧ Along (step env) (Refuses env) start ops ↔
      Along (step env) (fun _ op => Harmless env op) start ops := by
  refine throughout_and_along_iff ?_ usable reached
  intro state op next usable taken
  obtain ⟨done, performs, rfl⟩ := Option.map_eq_some_iff.mp taken
  exact (outcome_perform performs).harmless_iff performs usable

def aliceToml : Bytes := ascii "[endpoint]\nusername = \"alice\"\naddresses = [\"192.0.2.1:443\"]\n"

def alice : ProfileTOML := { username := ascii "alice", addresses := [ascii "192.0.2.1:443"] }

/-- A decoder that reads this profile and the empty document. -/
def sample : Env where
  unmarshal data :=
    if data = [] then .ok {} else if data = aliceToml then .ok alice else .error "expected key".toList
  idOf path := path
  enrollStateFile url := url
  enrollError _ := ([], [])

def fresh : State := ⟨∅, ∅, []⟩

def enrollURL : Bytes := ascii "https://192.0.2.1/enroll/token"

def enrolledPath : Bytes := ascii "enroll-token.toml"

def enrollTwice (later : Bytes) : List Op :=
  [.enroll enrollURL (.ok (200, aliceToml)) none 0 {}, .enroll enrollURL (.ok (200, later)) (some enrolledPath) 1 {}]

theorem isProfile_aliceToml : IsProfile sample (aliceToml.take maxBody) :=
  ⟨alice, by decide +kernel, by decide +kernel, by decide +kernel⟩

theorem usable_iff_sameAnswer : ∃ final, run (step sample) fresh (enrollTwice aliceToml) = some final ∧
    Throughout (step sample) (Usable sample) fresh (enrollTwice aliceToml) ∧
    Along (step sample) (Refuses sample) fresh (enrollTwice aliceToml) := by
  have enabled : (run (step sample) fresh (enrollTwice aliceToml)).isSome := by decide +kernel
  obtain ⟨final, reached⟩ := Option.isSome_iff_exists.mp enabled
  refine ⟨final, reached, (usable_iff (by rintro _ ⟨⟩) reached).mpr ?_⟩
  have harmless (found : Option Bytes) (now : Int) :
      Harmless sample (.enroll enrollURL (.ok (200, aliceToml)) found now {}) :=
    fun _ => ⟨fun _ _ => isProfile_aliceToml, fun _ => trivial⟩
  refine along_of_forall fun before op after middle split _ => ?_
  have member : op ∈ enrollTwice aliceToml := split ▸ List.mem_append_right before List.mem_cons_self
  rw [enrollTwice, List.mem_pair] at member
  rcases member with rfl | rfl
  · exact harmless none 0
  · exact harmless (some enrolledPath) 1

/-- **A profile is lost**: the second answer of the server is empty, which is TOML, and `Enroll` reports success. -/
theorem profile_emptied :
    ∃ final, run (step sample) fresh (enrollTwice []) = some final ∧
      final.files.lookup enrolledPath = some [] ∧ ¬Usable sample final ∧
      ((step sample fresh (.enroll enrollURL (.ok (200, aliceToml)) none 0 {})).bind fun enrolled =>
        perform sample enrolled (.enroll enrollURL (.ok (200, [])) (some enrolledPath) 1 {})).map Performed.result =
          some (.ok (.enroll { ok := true, profileID := enrolledPath })) := by
  have stored : (run (step sample) fresh (enrollTwice [])).map (fun final =>
      (final.files.lookup enrolledPath, decide (enrolledPath ∈ final.written))) = some (some [], true) := by
    decide +kernel
  obtain ⟨final, reached, stored⟩ := Option.map_eq_some_iff.mp stored
  obtain ⟨emptied, written⟩ := Prod.ext_iff.mp stored
  refine ⟨final, reached, emptied, fun usable => ?_, by decide +kernel⟩
  obtain ⟨_, ⟨⟩, username, -⟩ := usable enrolledPath (of_decide_eq_true written) [] emptied
  exact username rfl

end Ttgo.Client.Profiles

/-
**What `ImportContent` writes over.**

`ImportContent` of `internal/client/profile.go` takes the name of a new file from the name that it is given, and where
that file is there already, another one with the time in seconds. Whether the other one is there as well is not asked.

* `profileName` — the name without an extension; `targetOf_eq` — the file that is written.
* `CreatesNew` — a call that succeeds creates one new file of the directory, and changes no other.
* `FreshFallback` — where the plain name is taken, the one with the time is not.
* `imports_create_new_iff` — in every run of operations, the one exactly if the other.
-/

import Ttgo.Client.Profiles

namespace Ttgo.Client.Profiles

open Ttgo.Lib
open Ttgo.Lib.GoURL (Bytes byte ascii slash)

/-! ### The name -/

/-- The name of the profile, without the extension. -/
def profileName (filename : Bytes) : Bytes :=
  if sanitizeFilename (trimExt filename) = [] then ascii "profile" else sanitizeFilename (trimExt filename)

def plainFile (filename : Bytes) : Bytes := profileName filename ++ ascii ".toml"

def stampedFile (filename : Bytes) (now : Int) : Bytes :=
  profileName filename ++ ascii "-" ++ (itoa now).map byte ++ ascii ".toml"

theorem targetOf_eq (files : GoMap Bytes Bytes) (filename : Bytes) (now : Int) :
    targetOf files filename now =
      if (files.lookup (plainFile filename)).isSome then stampedFile filename now else plainFile filename := rfl

/-- A file directly in the directory: the path has no other part, and is none of `.` and `..`. -/
def IsInside (path : Bytes) : Prop := slash ∉ path ∧ ascii ".toml" <:+ path

theorem slash_notMem_sanitizeFilename (name : Bytes) : slash ∉ sanitizeFilename name := by
  intro member
  obtain ⟨b, -, kept⟩ := List.mem_filterMap.mp member
  unfold sanitizeByte at kept
  split at kept
  · next allowed =>
    cases kept
    exact absurd allowed (by decide)
  · obtain ⟨-, dash⟩ := Option.ite_none_right_eq_some.mp kept
    exact absurd dash (by decide)

theorem slash_notMem_profileName (filename : Bytes) : slash ∉ profileName filename := by
  unfold profileName
  split
  · decide
  · exact slash_notMem_sanitizeFilename _

theorem slash_notMem_itoa (n : Int) : slash ∉ (itoa n).map byte := by
  intro member
  obtain ⟨c, written, same⟩ := List.mem_map.mp member
  rcases mem_itoa written with rfl | digit
  · exact absurd same (by decide)
  · have code : c.toNat % 256 = 47 := by
      have number := congrArg UInt8.toNat same
      rwa [byte, UInt8.toNat_ofNat'] at number
    have bounds : 48 ≤ c.toNat ∧ c.toNat ≤ 57 := by
      simpa [Char.isDigit, UInt32.le_iff_toNat_le] using digit
    omega

theorem isInside_targetOf (files : GoMap Bytes Bytes) (filename : Bytes) (now : Int) :
    IsInside (targetOf files filename now) := by
  have extension : slash ∉ ascii ".toml" := by decide
  have dash : slash ∉ ascii "-" := by decide
  rw [targetOf_eq]
  split
  · refine ⟨?_, List.suffix_append ..⟩
    simp only [stampedFile, List.mem_append, not_or]
    exact ⟨⟨⟨slash_notMem_profileName filename, dash⟩, slash_notMem_itoa now⟩, extension⟩
  · refine ⟨?_, List.suffix_append ..⟩
    simp only [plainFile, List.mem_append, not_or]
    exact ⟨slash_notMem_profileName filename, extension⟩

/-! ### One call -/

/-- **A call that succeeds** creates one new file directly in the directory, and leaves all others as they are. -/
def CreatesNew (env : Env) (state : State) : Op → Prop
  | .importContent data filename now fault =>
    ∀ next id path, importContent env state data filename now fault = (next, .ok (id, path)) →
      IsInside path ∧ state.files.lookup path = none ∧ next.files.lookup path = some data ∧
        ∀ other, other ≠ path → next.files.lookup other = state.files.lookup other
  | _ => True

/-- Where the plain name is taken, the one with the time is not; of calls that write a profile. -/
def FreshFallback (env : Env) (state : State) : Op → Prop
  | .importContent data filename now fault =>
    IsProfile env data → fault = none → (state.files.lookup (plainFile filename)).isSome →
      state.files.lookup (stampedFile filename now) = none
  | _ => True

variable {env : Env} {state : State}

theorem lookup_targetOf_iff (files : GoMap Bytes Bytes) (filename : Bytes) (now : Int) :
    files.lookup (targetOf files filename now) = none ↔
      ((files.lookup (plainFile filename)).isSome → files.lookup (stampedFile filename now) = none) := by
  rw [targetOf_eq]
  by_cases taken : (files.lookup (plainFile filename)).isSome = true
  · rw [if_pos taken]
    exact ⟨fun free _ => free, fun free => free taken⟩
  · rw [if_neg taken]
    exact iff_of_true (Option.not_isSome_iff_eq_none.mp taken) fun is => absurd is taken

theorem importContent_eq_ok {data filename : Bytes} {now : Int} {fault : Option Fault} {next : State}
    {id path : Bytes} :
    importContent env state data filename now fault = (next, .ok (id, path)) ↔
      IsProfile env data ∧ fault = none ∧ path = targetOf state.files filename now ∧ id = env.idOf path ∧
        next = state.put path data := by
  unfold importContent
  rcases check_cases env data with ⟨⟨err, refused⟩, no⟩ | ⟨⟨doc, passed⟩, profile⟩
  · rw [refused]
    exact iff_of_false (by simp) fun whole => no whole.1
  · rw [passed]
    rcases fault with _ | err | ⟨err, left⟩
    · constructor
      · intro imported
        cases imported
        exact ⟨profile, rfl, rfl, rfl, rfl⟩
      · rintro ⟨-, -, rfl, rfl, rfl⟩
        rfl
    · exact iff_of_false (by simp [State.write, Except.map]) (by simp)
    · exact iff_of_false (by simp [State.write, Except.map]) (by simp)

theorem createsNew_iff_freshFallback (env : Env) (state : State) (op : Op) :
    CreatesNew env state op ↔ FreshFallback env state op := by
  cases op with
  | writeContent | delete | enroll => exact Iff.rfl
  | importContent data filename now fault =>
    constructor
    · intro creates profile written
      have imported : importContent env state data filename now fault = (_, .ok (_, _)) :=
        importContent_eq_ok.mpr ⟨profile, written, rfl, rfl, rfl⟩
      exact (lookup_targetOf_iff ..).mp (creates _ _ _ imported).2.1
    · intro free next id path imported
      obtain ⟨profile, written, rfl, -, rfl⟩ := importContent_eq_ok.mp imported
      refine ⟨isInside_targetOf .., (lookup_targetOf_iff ..).mpr (free profile written), AList.lookup_insert _, ?_⟩
      intro other differs
      exact AList.lookup_insert_ne differs

/-! ### Runs -/

/-- **Imports never overwrite**, in exactly those runs in which the name with the time is free whenever it is
needed. -/
theorem imports_create_new_iff (env : Env) (start : State) (ops : List Op) :
    Along (step env) (CreatesNew env) start ops ↔ Along (step env) (FreshFallback env) start ops := by
  have same : CreatesNew env = FreshFallback env := by
    funext state op
    exact propext (createsNew_iff_freshFallback env state op)
  rw [same]

/-- A second profile. -/
def bobToml : Bytes := ascii "[endpoint]\nusername = \"bob\"\naddresses = [\"192.0.2.2:443\"]\n"

def bob : ProfileTOML := { username := ascii "bob", addresses := [ascii "192.0.2.2:443"] }

def sampleOfTwo : Env where
  unmarshal data :=
    if data = aliceToml then .ok alice else if data = bobToml then .ok bob else .error "expected key".toList
  idOf path := path
  enrollStateFile url := url
  enrollError _ := ([], [])

def importHome (data : Bytes) : Op := .importContent data (ascii "home.toml") 1700000000 none

/-- Three files of one name are imported in one second: the third replaces the second. -/
theorem third_import_overwrites :
    ((run (step sampleOfTwo) fresh [importHome aliceToml, importHome bobToml]).map fun s =>
        s.files.lookup (ascii "home-1700000000.toml")) = some (some bobToml) ∧
      ((run (step sampleOfTwo) fresh [importHome aliceToml, importHome bobToml, importHome aliceToml]).map fun s =>
        s.files.lookup (ascii "home-1700000000.toml")) = some (some aliceToml) ∧
      ¬ Along (step sampleOfTwo) (CreatesNew sampleOfTwo) fresh
        [importHome aliceToml, importHome bobToml, importHome aliceToml] := by
  have stamped : ((run (step sampleOfTwo) fresh [importHome aliceToml, importHome bobToml]).map fun s =>
      s.files.lookup (ascii "home-1700000000.toml")) = some (some bobToml) := by decide +kernel
  have plain : ((run (step sampleOfTwo) fresh [importHome aliceToml, importHome bobToml]).map fun s =>
      s.files.lookup (plainFile (ascii "home.toml"))) = some (some aliceToml) := by decide +kernel
  refine ⟨stamped, by decide +kernel, fun along => ?_⟩
  obtain ⟨second, reached, taken⟩ := Option.map_eq_some_iff.mp stamped
  have split : Along (step sampleOfTwo) (CreatesNew sampleOfTwo) fresh
      ([importHome aliceToml, importHome bobToml] ++ [importHome aliceToml]) := along
  have third : CreatesNew sampleOfTwo second (importHome aliceToml) := ((along_append reached).mp split).2.1
  have profile : IsProfile sampleOfTwo aliceToml := ⟨alice, by decide +kernel, by decide +kernel, by decide +kernel⟩
  rw [reached, Option.map_some, Option.some.injEq] at plain
  have free := (createsNew_iff_freshFallback _ _ _).mp third profile rfl (by rw [plain]; rfl)
  have name : stampedFile (ascii "home.toml") 1700000000 = ascii "home-1700000000.toml" := by decide +kernel
  rw [name, taken] at free
  cases free

end Ttgo.Client.Profiles

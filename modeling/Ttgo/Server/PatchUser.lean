/-
**`PATCH /api/users/{u}`.**

`StartAdminAPI` of `internal/server/adminapi.go`: the handler makes one store call for each field of the request,
answers with an error at the first that fails, and drops the cached credentials of the user after the last.

* `patchUser` — the handler, from the decoded body to the response, the store and the cache.
* `AllOrNothing` — a request that is answered with an error leaves the user as they were, and one that changes the
  user drops their cached credentials.
* `allOrNothing_iff` — a request is, exactly if what it writes before the first call that fails is stored already.
-/

import Ttgo.Lib.UntilFailure
import Ttgo.Server.Backend

namespace Ttgo.Server.Users

open Ttgo.Lib Ttgo.Auth
open Ttgo.Admin hiding loadCreds
open Ttgo.Admin.CredsFile (Decoder saveCreds readable kept)
open Ttgo.Admin.FileUsers (fileUsers loadCreds)

/-! ### The handler -/

/-- The body of the request; every field is optional. -/
structure PatchUser where
  password : Option String := none
  maxDevices : Option Int64 := none
  enabled : Option Bool := none
  expiresAt : Option Int64 := none
  trafficLimit : Option UInt64 := none
  resetTraffic : Option Bool := none
deriving DecidableEq, Repr

namespace PatchUser

/-- The calls that every store has. -/
def own (req : PatchUser) : List Setting :=
  (req.password.map Setting.password).toList ++ (req.maxDevices.map Setting.maxDevices).toList

def lifecycle (req : PatchUser) : List Setting :=
  (req.enabled.map Setting.enabled).toList ++ (req.expiresAt.map Setting.expiresAt).toList ++
    (req.trafficLimit.map Setting.trafficLimit).toList ++ if req.resetTraffic = some true then [.resetTraffic] else []

def settings (req : PatchUser) : List Setting := req.own ++ req.lifecycle

end PatchUser

/-- The answer to a request that was carried out. -/
def updated : Response := ⟨200, "\x7b\"status\":\"updated\"\x7d\n".toList⟩

/-- What the handler leaves. -/
structure Patched where
  response : Response
  backend : Option Backend
  cache : Cache
  /-- The reasons for which the connections of the user are closed. -/
  kicked : List Text := []

/-- The calls of a request. The adapter implements `AdminLifecycle` for every store. -/
def patch (decoder : Decoder) (env : Env) (faults : StoreFaults) (username : String) (backend : Backend)
    (cache : Cache) (req : PatchUser) : Patched :=
  let done := carry (Backend.set decoder env faults username) req.settings backend
  let kicked := if Setting.enabled false ∈ done.made then ["Account disabled".toList] else []
  match done.failed with
  | some (setting, err) => ⟨httpError (if setting.isLifecycle then 400 else 404) err, some done.state, cache, kicked⟩
  | none => ⟨updated, some done.state, invalidate cache username, kicked⟩

/-- `PATCH /api/users/{username}`. `body` is what the JSON decoder gives. -/
def patchUser (decoder : Decoder) (env : Env) (faults : StoreFaults) (username : String) (backend : Option Backend)
    (cache : Cache) (body : Except Text PatchUser) : Patched :=
  match backend with
  | none => { response := httpError 503 "user store unavailable".toList, backend, cache }
  | some store =>
    if username = "" then { response := httpError 400 "username required".toList, backend, cache }
    else
      match body with
      | .error err => { response := httpError 400 err, backend, cache }
      | .ok req => patch decoder env faults username store cache req

/-- **All or nothing.** An error leaves the user as they were, and a change drops their cached credentials. -/
def AllOrNothing (decoder : Decoder) (username : String) (backend : Option Backend) (done : Patched) : Prop :=
  (done.response.status ≠ 200 → done.backend.map (·.user decoder username) = backend.map (·.user decoder username)) ∧
    (done.backend.map (·.user decoder username) ≠ backend.map (·.user decoder username) →
      done.cache.lookup username = none)

/-! ### The calls that fail -/

/-- What a failing write leaves in the file. -/
def Fault.left : Fault → Option Text
  | .refused _ => none
  | .cut _ left => some left

/-- The calls that the file refuses, and what a failing write leaves. `spoiled` says that the file cannot be read
once it has the new password. -/
def fileRefuses (faults : StoreFaults) (spoiled : Bool) : Setting → Option (Option Text)
  | .password given => (faults (.password given)).map Fault.left
  | .maxDevices n => if spoiled then some none else (faults (.maxDevices n)).map Fault.left
  | .enabled _ | .expiresAt _ | .trafficLimit _ | .resetTraffic => some none

/-- The file has no entry that comes back differently, and the call writes what the first entry has. -/
def FileCurrent (username : String) (before : List Client) (entry : Client) (after : List Client) (setting : Setting) :
    Prop :=
  AllReadable (before ++ entry :: after) ∧ (∀ c ∈ entriesOf username (before ++ entry :: after), kept c = c) ∧
    kept (setting.edit entry) = entry

/-- The file cannot be read once it has the new password. -/
def Spoiled (before : List Client) (entry : Client) (after : List Client) (req : PatchUser) : Prop :=
  ∃ given ∈ req.password, ¬AllReadable (before ++ { entry with password := given } :: after)

instance (before after : List Client) (entry : Client) (req : PatchUser) :
    Decidable (Spoiled before entry after req) := inferInstanceAs (Decidable (∃ given ∈ req.password, _))

/-- The calls before the first that is refused write what is there already; if that is a write that fails, what it
leaves is good. -/
def Excused (refuses : Setting → Option (Option Text)) (current : Setting → Prop) (good : Text → Prop)
    (settings : List Setting) : Prop :=
  (settings.findSome? refuses = some none →
      ∀ setting ∈ settings.takeWhile (fun setting => (refuses setting).isNone), current setting) ∧
    ∀ left, settings.findSome? refuses = some (some left) → good left

/-- The same for the file of which `entry` is the first entry of the user. -/
abbrev FileExcused (decoder : Decoder) (faults : StoreFaults) (username : String) (content : Option Text)
    (before : List Client) (entry : Client) (after : List Client) (spoiled : Bool) : List Setting → Prop :=
  Excused (fileRefuses faults spoiled) (FileCurrent username before entry after)
    fun left => fileUser decoder username (some left) = fileUser decoder username content

/-- **What a request may write before it fails.** The calls before the first that is refused write what is stored
already; a write that fails at the file leaves the entries of the user. -/
def Harmless (decoder : Decoder) (faults : StoreFaults) (username : String) (req : PatchUser) : Backend → Prop
  | .sqlite rows => ∀ row ∈ rows.lookup username, (∃ setting ∈ req.settings, sqliteRefuses faults setting = true) →
      ∀ setting ∈ req.settings.takeWhile (fun setting => !sqliteRefuses faults setting), setting.update row = row
  | .file content => ∀ before entry after, Held decoder username content before entry after →
      FileExcused decoder faults username content before entry after (decide (Spoiled before entry after req))
        req.settings

variable {decoder : Decoder} {env : Env} {faults : StoreFaults} {username : String} {content : Option Text}
  {before after : List Client} {entry : Client} {req : PatchUser} {rows : Store} {row : Row}

/-! ### The table -/

theorem fields_settings (req : PatchUser) : (req.settings.map Setting.field).Nodup := by
  obtain ⟨password, maxDevices, enabled, expiresAt, trafficLimit, resetTraffic⟩ := req
  simp only [PatchUser.settings, PatchUser.own, PatchUser.lifecycle]
  cases password <;> cases maxDevices <;> cases enabled <;> cases expiresAt <;> cases trafficLimit <;>
    by_cases given : resetTraffic = some true <;> simp [given, Setting.field]

theorem update_comm {first second : Setting} (differs : first.field ≠ second.field) (row : Row) :
    second.update (first.update row) = first.update (second.update row) := by
  cases first <;> cases second <;> first | rfl | exact absurd rfl differs

theorem update_again (row : Row) (setting : Setting) : setting.update (setting.update row) = setting.update row := by
  cases setting <;> rfl

theorem sqlite_made (env : Env) (faults : StoreFaults) (settings : List Setting)
    (found : rows.lookup username = some row) :
    (carry (sqliteSet env faults username) settings rows).made =
        settings.takeWhile (fun setting => !sqliteRefuses faults setting) ∧
      ((carry (sqliteSet env faults username) settings rows).failed = none ↔
        ∀ setting ∈ settings, sqliteRefuses faults setting = false) := by
  apply carry_static (fun rows => ∃ row, rows.lookup username = some row)
  · rintro rows setting ⟨row, found⟩ refused
    rcases sqliteSet_cases env faults username rows setting with ⟨⟨err, fails⟩, -⟩ | ⟨_, -, accepted, -⟩
    · exact ⟨rows, err, fails⟩
    · rw [refused] at accepted
      cases accepted
  · rintro rows setting ⟨row, found⟩ accepted
    rcases sqliteSet_cases env faults username rows setting with ⟨-, refused | missing⟩ | ⟨row, -, -, done⟩
    · rw [accepted] at refused
      cases refused
    · rw [found] at missing
      cases missing
    · exact ⟨_, done, setting.update row, AList.lookup_insert rows⟩
  · exact ⟨row, found⟩

theorem lookup_carry (env : Env) (faults : StoreFaults) (username : String) (settings : List Setting) (rows : Store) :
    (carry (sqliteSet env faults username) settings rows).state.lookup username =
      (carry (sqliteSet env faults username) settings rows).made.foldl
        (fun stored setting => stored.map setting.update) (rows.lookup username) := by
  apply carry_view (fun rows : Store => rows.lookup username)
  · intro rows setting next done
    rcases sqliteSet_cases env faults username rows setting with ⟨⟨err, fails⟩, -⟩ | ⟨row, found, -, updates⟩
    · rw [fails] at done
      cases done
    · obtain ⟨rfl, -⟩ := Prod.mk.inj (updates.symm.trans done)
      rw [AList.lookup_insert, found]
      rfl
  · intro rows setting next err fails
    rcases sqliteSet_cases env faults username rows setting with ⟨⟨_, same⟩, -⟩ | ⟨_, -, -, updates⟩
    · obtain ⟨rfl, -⟩ := Prod.mk.inj (same.symm.trans fails)
      rfl
    · rw [updates] at fails
      cases fails

/-- **The table** keeps the row exactly if the calls that are made write what it has. -/
theorem lookup_patched_iff (env : Env) (faults : StoreFaults) (req : PatchUser)
    (found : rows.lookup username = some row) :
    (carry (sqliteSet env faults username) req.settings rows).state.lookup username = some row ↔
      ∀ setting ∈ req.settings.takeWhile (fun setting => !sqliteRefuses faults setting), setting.update row = row := by
  have distinct := (fields_settings req).sublist
    ((List.takeWhile_sublist fun setting => !sqliteRefuses faults setting).map Setting.field)
  rw [lookup_carry, (sqlite_made env faults req.settings found).1, found,
    foldl_eq_self_iff Setting.field ?_ ?_ distinct]
  · exact forall₂_congr fun setting _ => Option.some_inj
  · rintro first second differs (_ | row)
    · rfl
    · exact congrArg some (update_comm differs row)
  · rintro (_ | row) setting
    · rfl
    · exact congrArg some (update_again row setting)

/-! ### The file -/

section Excused

variable {refuses : Setting → Option (Option Text)} {current : Setting → Prop} {good : Text → Prop}
  {setting : Setting} {settings : List Setting} {left : Text}

theorem excused_nil : Excused refuses current good [] :=
  ⟨fun _ _ member => absurd member List.not_mem_nil, fun _ found => by cases found⟩

theorem excused_cons_none (accepted : refuses setting = none) :
    Excused refuses current good (setting :: settings) ↔
      (settings.findSome? refuses = some none → current setting) ∧ Excused refuses current good settings := by
  unfold Excused
  rw [List.findSome?_cons_of_isNone (by rw [accepted]; rfl), List.takeWhile_cons_of_pos (by rw [accepted]; rfl),
    List.forall_mem_cons, forall_and, and_assoc]

theorem excused_cons_refused (refused : refuses setting = some none) :
    Excused refuses current good (setting :: settings) := by
  unfold Excused
  rw [List.findSome?_cons, refused, List.takeWhile_cons_of_neg (by rw [refused]; exact Bool.false_ne_true)]
  exact ⟨fun _ _ member => absurd member List.not_mem_nil, fun _ cut => by cases cut⟩

theorem excused_cons_cut (cut : refuses setting = some (some left)) :
    Excused refuses current good (setting :: settings) ↔ good left := by
  unfold Excused
  rw [List.findSome?_cons, cut]
  constructor
  · exact fun excused => excused.2 left rfl
  · rintro kept
    refine ⟨fun other => ?_, fun _ same => ?_⟩
    · cases other
    · cases same
      exact kept

end Excused

/-- If one of the calls fails, this is what is stored of the user. -/
def Leaves (decoder : Decoder) (env : Env) (faults : StoreFaults) (username : String) (user : Option (List Client))
    (settings : List Setting) (content : Option Text) : Prop :=
  (carry (fileSet decoder env faults username) settings content).failed ≠ none →
    fileUser decoder username (carry (fileSet decoder env faults username) settings content).state = user

section Leaves

variable {user : Option (List Client)} {setting : Setting} {settings : List Setting} {next : Option Text} {err : Text}

theorem leaves_cons_ok (done : fileSet decoder env faults username content setting = (next, .ok ())) :
    Leaves decoder env faults username user (setting :: settings) content ↔
      Leaves decoder env faults username user settings next := by
  unfold Leaves
  rw [carry_cons_ok done]

theorem leaves_cons_error (fails : fileSet decoder env faults username content setting = (next, .error err)) :
    Leaves decoder env faults username user (setting :: settings) content ↔ fileUser decoder username next = user := by
  unfold Leaves
  rw [carry_cons_error fails]
  exact ⟨fun leaves => leaves (Option.some_ne_none _), fun same _ => same⟩

theorem leaves_of_not_held (absent : ∀ before entry after, ¬Held decoder username content before entry after) :
    Leaves decoder env faults username (fileUser decoder username content) settings content := by
  cases settings with
  | nil => exact fun failed => absurd rfl failed
  | cons setting settings =>
    obtain ⟨err, fails⟩ := fileSet_of_not_held env faults setting absent
    exact (leaves_cons_error fails).mpr rfl

theorem isLifecycle_of_mem (member : setting ∈ req.lifecycle) : setting.isLifecycle = true := by
  simp only [PatchUser.lifecycle, List.mem_append, Option.mem_toList, Option.map_eq_some_iff] at member
  rcases member with ((⟨_, -, rfl⟩ | ⟨_, -, rfl⟩) | ⟨_, -, rfl⟩) | reset
  · rfl
  · rfl
  · rfl
  · split at reset
    · cases List.mem_singleton.mp reset
      rfl
    · cases reset

theorem leaves_lifecycle_iff (req : PatchUser) (spoiled : Bool) {current : Setting → Prop} {good : Text → Prop} :
    Leaves decoder env faults username user req.lifecycle content ↔
      (req.lifecycle.findSome? (fileRefuses faults spoiled) = some none → fileUser decoder username content = user) ∧
        Excused (fileRefuses faults spoiled) current good req.lifecycle := by
  cases settings : req.lifecycle with
  | nil => exact iff_of_true (fun failed => absurd rfl failed) ⟨fun found => (by cases found), excused_nil⟩
  | cons setting settings =>
    have lifecycle := isLifecycle_of_mem (show setting ∈ req.lifecycle from settings ▸ List.mem_cons_self)
    have refused : fileRefuses faults spoiled setting = some none ∧
        fileSet decoder env faults username content setting = (content, .error notSupported) := by
      cases setting <;> first | exact ⟨rfl, rfl⟩ | cases lifecycle
    rw [leaves_cons_error refused.2, List.findSome?_cons, refused.1, and_iff_left (excused_cons_refused refused.1)]
    exact ⟨fun same _ => same, fun same => same rfl⟩

end Leaves

namespace Held

variable {setting : Setting} {settings : List Setting}

/-- **An entry that is written** is what was stored, exactly if it comes back so. -/
theorem fileUser_saved_iff (held : Held decoder username content before entry after) (wide : Char → Bool)
    {changed : Client} (named : changed.username = entry.username) (bound : changed.maxDevices < 2 ^ 63) :
    fileUser decoder username (some (saveCreds wide (before ++ changed :: after))) =
        fileUser decoder username content ↔
      AllReadable (before ++ entry :: after) ∧ (∀ c ∈ entriesOf username (before ++ entry :: after), kept c = c) ∧
        kept changed = entry := by
  rw [held.fileUser_saved wide named bound, held.fileUser_eq, held.entriesOf_eq, List.forall_mem_cons]
  by_cases comes : kept changed = entry
  · have same : AllReadable (before ++ changed :: after) ↔ AllReadable (before ++ entry :: after) := by
      simp only [AllReadable, List.forall_mem_append, List.forall_mem_cons, ← comes]
      rfl
    have still : kept entry = entry := by rw [← comes, kept_kept]
    rw [← same, and_iff_left comes, and_iff_right still, comes]
    split
    · next reads => rw [Option.some_inj, List.cons_inj_right, map_kept_eq_iff, and_iff_right reads]
    · next unreadable => exact iff_of_false (Option.some_ne_none _).symm fun both => unreadable both.1
  · refine iff_of_false (fun stored => comes ?_) fun all => comes all.2.2
    split at stored
    · exact (List.cons.inj (Option.some.inj stored)).1
    · cases stored

theorem leaves_cons_iff (held : Held decoder username content before entry after) (own : setting.isLifecycle = false)
    {spoiled : Bool} (refusal : fileRefuses faults spoiled setting = (faults setting).map Fault.left)
    (later : faults setting = none →
      (Leaves decoder env faults username (fileUser decoder username content) settings
          (some (saveCreds env.wide (before ++ setting.edit entry :: after))) ↔
        (settings.findSome? (fileRefuses faults spoiled) = some none →
            FileCurrent username before entry after setting) ∧
          FileExcused decoder faults username content before entry after spoiled settings)) :
    Leaves decoder env faults username (fileUser decoder username content) (setting :: settings) content ↔
      FileExcused decoder faults username content before entry after spoiled (setting :: settings) := by
  have call := held.set env faults own
  rcases fault : faults setting with _ | (err | ⟨err, left⟩) <;> rw [fault] at call refusal
  · exact (leaves_cons_ok call).trans ((later fault).trans (excused_cons_none refusal).symm)
  · exact iff_of_true ((leaves_cons_error call).mpr rfl) (excused_cons_refused refusal)
  · rw [leaves_cons_error call, FileExcused, excused_cons_cut refusal]

theorem fileUser_edited_iff (held : Held decoder username content before entry after) (wide : Char → Bool)
    (setting : Setting) :
    fileUser decoder username (some (saveCreds wide (before ++ setting.edit entry :: after))) =
        fileUser decoder username content ↔ FileCurrent username before entry after setting :=
  held.fileUser_saved_iff wide (setting.username_edit entry) (setting.maxDevices_edit held.bound_entry)

theorem fileUser_both_iff (held : Held decoder username content before entry after) (wide : Char → Bool)
    (given : String) (n : Int64) :
    fileUser decoder username (some (saveCreds wide
        (before ++ (Setting.maxDevices n).edit ((Setting.password given).edit entry) :: after))) =
        fileUser decoder username content ↔
      FileCurrent username before entry after (.password given) ∧
        FileCurrent username before entry after (.maxDevices n) := by
  have both : kept ((Setting.maxDevices n).edit ((Setting.password given).edit entry)) = entry ↔
      kept ((Setting.password given).edit entry) = entry ∧ kept ((Setting.maxDevices n).edit entry) = entry := by
    obtain ⟨name, secret, limit⟩ := entry
    simp only [Setting.edit, kept, Client.mk.injEq, true_and]
    constructor
    · rintro ⟨rfl, rfl⟩
      exact ⟨⟨rfl, max_eq_left (le_max_right _ _)⟩, rfl⟩
    · rintro ⟨⟨rfl, -⟩, limit⟩
      exact ⟨rfl, limit⟩
  have saved := held.fileUser_saved_iff wide
    (show ((Setting.maxDevices n).edit ((Setting.password given).edit entry)).username = entry.username from rfl)
    n.toInt_lt
  rw [saved, both]
  unfold FileCurrent
  tauto

theorem leaves_second_iff (held : Held decoder username content before entry after) {given : String}
    (password : req.password = some given) (n : Int64) :
    Leaves decoder env faults username (fileUser decoder username content) (.maxDevices n :: req.lifecycle)
        (some (saveCreds env.wide (before ++ (Setting.password given).edit entry :: after))) ↔
      ((.maxDevices n :: req.lifecycle).findSome? (fileRefuses faults (decide (Spoiled before entry after req))) =
          some none → FileCurrent username before entry after (.password given)) ∧
        FileExcused decoder faults username content before entry after (decide (Spoiled before entry after req))
          (.maxDevices n :: req.lifecycle) := by
  have named := (Setting.password given).username_edit entry
  have bound := (Setting.password given).maxDevices_edit held.bound_entry
  have first := held.fileUser_edited_iff env.wide (.password given)
  by_cases reads : AllReadable (before ++ (Setting.password given).edit entry :: after)
  · have clean : ¬Spoiled before entry after req := by
      rintro ⟨_, same, spoilt⟩
      cases password.symm.trans same
      exact spoilt reads
    have call : fileSet decoder env faults username _ (.maxDevices n) = _ :=
      (held.next env.wide named bound reads).set env faults rfl
    have refusal : fileRefuses faults false (.maxDevices n) = (faults (.maxDevices n)).map Fault.left := rfl
    rw [decide_eq_false clean]
    rcases fault : faults (.maxDevices n) with _ | (err | ⟨err, left⟩) <;> rw [fault] at call refusal
    · have second := held.fileUser_both_iff env.wide given n
      rw [leaves_cons_ok call, saveCreds_kept, leaves_lifecycle_iff req false, FileExcused, excused_cons_none refusal,
        List.findSome?_cons_of_isNone (by rw [refusal]; rfl)]
      rw [← and_assoc, ← forall_and, ← second]
      rfl
    · rw [leaves_cons_error call, first, and_iff_left (excused_cons_refused refusal), List.findSome?_cons, refusal]
      exact ⟨fun current _ => current, fun current => current rfl⟩
    · rw [leaves_cons_error call, FileExcused, excused_cons_cut refusal, List.findSome?_cons, refusal]
      exact (and_iff_right fun other => by cases other).symm
  · have spoilt : Spoiled before entry after req := ⟨given, password, reads⟩
    have refusal : fileRefuses faults true (.maxDevices n) = some none := rfl
    have absent := not_held_of_unreadable decoder username env.wide (held.bound_changed bound) reads
    obtain ⟨err, fails⟩ := fileSet_of_not_held env faults (.maxDevices n) absent
    rw [decide_eq_true spoilt, leaves_cons_error fails, first, and_iff_left (excused_cons_refused refusal),
      List.findSome?_cons, refusal]
    exact ⟨fun current _ => current, fun current => current rfl⟩

theorem leaves_iff (held : Held decoder username content before entry after) (req : PatchUser) :
    Leaves decoder env faults username (fileUser decoder username content) req.settings content ↔
      FileExcused decoder faults username content before entry after (decide (Spoiled before entry after req))
        req.settings := by
  have alone (setting : Setting) (own : setting.isLifecycle = false) {spoiled : Bool}
      (refusal : fileRefuses faults spoiled setting = (faults setting).map Fault.left) :
      Leaves decoder env faults username (fileUser decoder username content) (setting :: req.lifecycle) content ↔
        FileExcused decoder faults username content before entry after spoiled (setting :: req.lifecycle) := by
    refine held.leaves_cons_iff own refusal fun _ => ?_
    rw [leaves_lifecycle_iff req spoiled, held.fileUser_edited_iff]
  unfold PatchUser.settings PatchUser.own
  cases password : req.password with
  | none =>
    have clean : ¬Spoiled before entry after req := by
      rintro ⟨given, member, -⟩
      rw [password] at member
      cases member
    rw [decide_eq_false clean]
    cases req.maxDevices with
    | none =>
      refine (leaves_lifecycle_iff req false).trans (and_iff_right fun _ => rfl)
    | some n => exact alone (.maxDevices n) rfl rfl
  | some given =>
    cases req.maxDevices with
    | none => exact alone (.password given) rfl rfl
    | some n => exact held.leaves_cons_iff rfl rfl fun _ => held.leaves_second_iff password n

end Held

/-! ### The handler, all or nothing -/

theorem allOrNothing_patch (decoder : Decoder) (env : Env) (faults : StoreFaults) (username : String)
    (backend : Backend) (cache : Cache) (req : PatchUser) :
    AllOrNothing decoder username (some backend) (patch decoder env faults username backend cache req) ↔
      ((carry (Backend.set decoder env faults username) req.settings backend).failed ≠ none →
        (carry (Backend.set decoder env faults username) req.settings backend).state.user decoder username =
          backend.user decoder username) := by
  unfold AllOrNothing patch
  generalize carry (Backend.set decoder env faults username) req.settings backend = done
  obtain ⟨state, made, failed⟩ := done
  cases failed with
  | none =>
    refine iff_of_true ⟨fun bad => absurd rfl bad, fun _ => ?_⟩ fun bad => absurd rfl bad
    exact AList.lookup_erase username cache
  | some failure =>
    have status : (if failure.1.isLifecycle then 400 else 404) ≠ 200 := by split <;> decide
    constructor
    · exact fun whole _ => Option.some.inj (whole.1 status)
    · intro same
      have unchanged := congrArg some (same (Option.some_ne_none _))
      exact ⟨fun _ => unchanged, fun changed => absurd unchanged changed⟩

theorem harmless_file_iff (content : Option Text) (req : PatchUser) :
    Leaves decoder env faults username (fileUser decoder username content) req.settings content ↔
      Harmless decoder faults username req (.file content) := by
  constructor
  · exact fun leaves before entry after held => (held.leaves_iff req).mp leaves
  · intro harmless
    by_cases known : ∃ before entry after, Held decoder username content before entry after
    · obtain ⟨before, entry, after, held⟩ := known
      exact (held.leaves_iff req).mpr (harmless before entry after held)
    · exact leaves_of_not_held fun before entry after held => known ⟨before, entry, after, held⟩

theorem harmless_sqlite_iff (decoder : Decoder) (rows : Store) (req : PatchUser) :
    ((carry (sqliteSet env faults username) req.settings rows).failed ≠ none →
        (carry (sqliteSet env faults username) req.settings rows).state.lookup username = rows.lookup username) ↔
      Harmless decoder faults username req (.sqlite rows) := by
  cases found : rows.lookup username with
  | some row =>
    have refused : (∃ setting ∈ req.settings, sqliteRefuses faults setting = true) ↔
        (carry (sqliteSet env faults username) req.settings rows).failed ≠ none := by
      rw [Ne, (sqlite_made env faults req.settings found).2]
      push Not
      exact exists_congr fun setting => and_congr_right fun _ => Bool.ne_false_iff.symm
    rw [lookup_patched_iff env faults req found, ← refused]
    constructor
    · intro kept row' same
      cases found.symm.trans same
      exact kept
    · exact fun harmless => harmless row found
  | none =>
    refine iff_of_true (fun failed => ?_) fun row same => by cases found.symm.trans same
    cases settings : req.settings with
    | nil => exact found
    | cons setting settings =>
      rcases sqliteSet_cases env faults username rows setting with ⟨⟨err, fails⟩, -⟩ | ⟨row, same, -⟩
      · rw [carry_cons_error fails]
        exact found
      · cases found.symm.trans same

theorem harmless_iff (decoder : Decoder) (env : Env) (faults : StoreFaults) (username : String) (store : Backend)
    (req : PatchUser) :
    ((carry (Backend.set decoder env faults username) req.settings store).failed ≠ none →
        (carry (Backend.set decoder env faults username) req.settings store).state.user decoder username =
          store.user decoder username) ↔ Harmless decoder faults username req store := by
  cases store with
  | file content =>
    have image : carry (Backend.set decoder env faults username) req.settings (.file content) = _ :=
      carry_image (fileSet decoder env faults username) (fun _ _ => rfl) req.settings content
    rw [image, ← harmless_file_iff]
    exact imp_congr_right fun _ => StoredUser.file.injEq _ _ ▸ Iff.rfl
  | sqlite rows =>
    have image : carry (Backend.set decoder env faults username) req.settings (.sqlite rows) = _ :=
      carry_image (sqliteSet env faults username) (fun _ _ => rfl) req.settings rows
    rw [image, ← harmless_sqlite_iff]
    exact imp_congr_right fun _ => StoredUser.sqlite.injEq _ _ ▸ Iff.rfl

/-- **When a request is all or nothing.** For every store, user, cache and request, and whichever calls fail: an error
leaves the user as they were, and a change drops their cached credentials, if and only if the request writes nothing
new before the first call that fails. -/
theorem allOrNothing_iff (decoder : Decoder) (env : Env) (faults : StoreFaults) (username : String)
    (backend : Option Backend) (cache : Cache) (body : Except Text PatchUser) :
    AllOrNothing decoder username backend (patchUser decoder env faults username backend cache body) ↔
      ∀ store ∈ backend, ∀ req, username ≠ "" → body = .ok req → Harmless decoder faults username req store := by
  have kept (done : Patched) (same : done.backend = backend) : AllOrNothing decoder username backend done := by
    rw [AllOrNothing, same]
    exact ⟨fun _ => rfl, fun changed => absurd rfl changed⟩
  cases backend with
  | none => exact iff_of_true (kept _ rfl) fun _ none => by cases none
  | some store =>
    by_cases empty : username = ""
    · refine iff_of_true (kept _ ?_) fun _ _ _ filled => absurd empty filled
      exact congrArg Patched.backend (if_pos empty)
    · cases body with
      | error err =>
        refine iff_of_true (kept _ ?_) fun _ _ _ _ decoded => by cases decoded
        exact congrArg Patched.backend (if_neg empty)
      | ok req =>
        have done : patchUser decoder env faults username (some store) cache (.ok req) =
            patch decoder env faults username store cache req := if_neg empty
        rw [done, allOrNothing_patch, harmless_iff]
        constructor
        · intro harmless other same req' _ decoded
          cases same
          cases decoded
          exact harmless
        · exact fun harmless => harmless store rfl req empty rfl

/-! ### A password that is changed by a request that fails -/

theorem patch_password_enabled (held : Held decoder username content before entry after) (env : Env) (given : String)
    (on : Bool) (cache : Cache) :
    patch decoder env (fun _ => none) username (.file content) cache { password := some given, enabled := some on } =
      { response := httpError 400 notSupported
        backend := some (.file (some (saveCreds env.wide (before ++ { entry with password := given } :: after))))
        cache } := by
  have call : fileSet decoder env (fun _ => none) username content (.password given) = _ := held.set env _ rfl
  have first : Backend.set decoder env (fun _ => none) username (.file content) (.password given) = _ :=
    congrArg (Prod.map Backend.file id) call
  have calls : carry (Backend.set decoder env (fun _ => none) username) [.password given, .enabled on]
      (.file content) = _ := carry_cons_ok first
  rw [patch, PatchUser.settings, PatchUser.own, PatchUser.lifecycle]
  simp only [Option.map_some, Option.map_none, Option.toList_some, Option.toList_none, List.append_nil,
    List.singleton_append, reduceCtorEq, if_false]
  rw [calls]
  rfl

def aliceEntry : Client := ⟨"alice", "old", 0⟩

def aliceFile : Option Text := some (saveCreds anyEnv.wide [aliceEntry])

theorem held_alice : Held CredsFile.plainDecoder "alice" aliceFile [] aliceEntry [] :=
  ⟨CredsFile.decode_saveCreds CredsFile.plainDecoder _ (by decide) (by decide), by decide, rfl⟩

def aliceCached : Cache := (∅ : Cache).insert "alice" { password := "old" }

/-- **Half a request.** It changes the password, is answered with an error, and leaves the old password in the
cache. -/
theorem half_patched :
    ∃ done, patchUser CredsFile.plainDecoder anyEnv (fun _ => none) "alice" (some (.file aliceFile)) aliceCached
        (.ok { password := some "new", enabled := some false }) = done ∧
      done.response = httpError 400 notSupported ∧
      (Backend.file aliceFile).user CredsFile.plainDecoder "alice" = .file (some [aliceEntry]) ∧
      done.backend.map (·.user CredsFile.plainDecoder "alice") = some (.file (some [⟨"alice", "new", 0⟩])) ∧
      done.cache.lookup "alice" = some { password := "old" } ∧
      ¬AllOrNothing CredsFile.plainDecoder "alice" (some (.file aliceFile)) done := by
  have now : (Backend.file aliceFile).user CredsFile.plainDecoder "alice" = .file (some [aliceEntry]) :=
    congrArg StoredUser.file held_alice.fileUser_eq
  have later : fileUser CredsFile.plainDecoder "alice" (some (saveCreds anyEnv.wide [⟨"alice", "new", 0⟩])) =
      some [⟨"alice", "new", 0⟩] := held_alice.fileUser_saved anyEnv.wide rfl (by decide)
  refine ⟨_, rfl, ?_⟩
  rw [patchUser, if_neg (by decide), patch_password_enabled held_alice]
  refine ⟨rfl, now, congrArg (some ∘ StoredUser.file) later, rfl, fun whole => ?_⟩
  have same : fileUser CredsFile.plainDecoder "alice" _ = fileUser CredsFile.plainDecoder "alice" aliceFile :=
    StoredUser.file.inj (Option.some.inj (whole.1 (by decide)))
  exact absurd (later.symm.trans (same.trans held_alice.fileUser_eq)) (by decide)

end Ttgo.Server.Users

/-
**The settings of the client application.**

`SettingsStore` of `internal/client/settings.go` has a lock for `Load` and a lock for `Save`. `AddExclusion` and
`ConnectProfile` of `cmd/ttclient/app.go` load the settings, change a field and save them all, and the user interface,
the hotkeys and the automatic connection call them at the same time.

* `Codec` — the JSON text of the settings; `load` — `Load`, with its defaults.
* `step` — any interleaving of the calls; `Load` and `Save` may fail, and `ConnectProfile` drops their errors.
* `Undisturbed` — no error is dropped, and a call saves while the file still has the settings that it loaded.
* `Sys.Kept` — what the calls that are done have asked for is in the file.
* `settings_kept` — undisturbed calls lose nothing.
-/

import Ttgo.Client.RouteManager
import Ttgo.Lib.GoFile
import Ttgo.Lib.Pool
import Ttgo.Lib.Run

namespace Ttgo.Client.Settings

open Ttgo.Lib

/-! ### The store -/

structure GlobalSettings where
  lastProfileID : String := ""
  bypassDomains : Bool := false
  globalExclusions : List String := []
  language : String := ""
  autoConnect : Bool := false
  enableAdBlock : Bool := false
  theme : String := ""
  upstreamDNS : String := ""
  routingMode : String := ""
deriving DecidableEq, Repr

/-- `json.MarshalIndent` and `json.Unmarshal`. -/
structure Codec (Data : Type) where
  marshal : GlobalSettings → Data
  unmarshal : Data → Except String GlobalSettings
  unmarshal_marshal : ∀ settings, unmarshal (marshal settings) = .ok settings

variable {Data : Type} {codec : Codec Data}

/-- `Load` of the file, if there is one. -/
def load (codec : Codec Data) : Option Data → Except String GlobalSettings
  | none => .ok { language := "en", autoConnect := true }
  | some data => (codec.unmarshal data).map fun settings =>
    if settings.language = "" then { settings with language := "en" } else settings

theorem language_of_load {file : Option Data} {settings : GlobalSettings} (loads : load codec file = .ok settings) :
    settings.language ≠ "" := by
  cases file with
  | none =>
    cases loads
    decide
  | some data =>
    rw [load] at loads
    cases decoded : codec.unmarshal data with
    | error err =>
      rw [decoded] at loads
      cases loads
    | ok read =>
      rw [decoded] at loads
      cases loads
      dsimp only
      split
      · show "en" ≠ ""
        decide
      · next given => exact given

theorem load_marshal {settings : GlobalSettings} (given : settings.language ≠ "") :
    load codec (some (codec.marshal settings)) = .ok settings := by
  rw [load, codec.unmarshal_marshal]
  exact congrArg Except.ok (if_neg given)

/-! ### The calls -/

inductive Op
  | addExclusion (domain : String)
  | connectProfile (id : String)
deriving DecidableEq, Repr

/-- What the call changes. -/
def Op.edit (settings : GlobalSettings) : Op → GlobalSettings
  | .addExclusion domain =>
    { settings with globalExclusions := settings.globalExclusions ++ [trimmed domain], bypassDomains := true }
  | .connectProfile id => { settings with lastProfileID := id }

inductive Phase
  | waiting
  | loaded (settings : GlobalSettings)
  /-- `ConnectProfile` is done with the settings, and connects. -/
  | connecting
  | returned (ok : Bool)
deriving DecidableEq, Repr

structure Call where
  op : Op
  phase : Phase := .waiting
deriving DecidableEq, Repr

structure Sys (Data : Type) where
  file : Option Data
  calls : List Call

inductive Event (Data : Type)
  | call (op : Op)
  /-- A call that fails before it comes to the settings: no store, no such profile, a revoked device. -/
  | refuse (index : Nat)
  | load (index : Nat) (readError : Option String)
  | save (index : Nat) (fault : Option (WriteFault Data))
  | connect (index : Nat) (ok : Bool)

/-- `Load`, where `os.ReadFile` may fail. -/
def loadFile (codec : Codec Data) (file : Option Data) : Option String → Except String GlobalSettings
  | some readError => .error readError
  | none => load codec file

/-- Up to the settings. `AddExclusion` refuses a blank domain, and has nothing to do if the domain is there;
`ConnectProfile` drops an error and goes on without the settings. -/
def Op.load (loaded : Except String GlobalSettings) : Op → Phase
  | .addExclusion domain =>
    if trimmed domain = "" then .returned false
    else
      match loaded with
      | .error _ => .returned false
      | .ok settings => if trimmed domain ∈ settings.globalExclusions then .returned true else .loaded settings
  | .connectProfile _ =>
    match loaded with
    | .error _ => .connecting
    | .ok settings => .loaded settings

/-- After `Save`: `ConnectProfile` drops its error. -/
def Op.saved (fault : Option (WriteFault Data)) : Op → Phase
  | .addExclusion _ => .returned fault.isNone
  | .connectProfile _ => .connecting

def step (codec : Codec Data) (s : Sys Data) : Event Data → Option (Sys Data)
  | .call op => some { s with calls := s.calls ++ [{ op }] }
  | .refuse index =>
    match s.calls[index]? with
    | some ⟨op, .waiting⟩ => some { s with calls := s.calls.set index ⟨op, .returned false⟩ }
    | _ => none
  | .load index readError =>
    match s.calls[index]? with
    | some ⟨op, .waiting⟩ =>
      some { s with calls := s.calls.set index ⟨op, op.load (loadFile codec s.file readError)⟩ }
    | _ => none
  | .save index fault =>
    match s.calls[index]? with
    | some ⟨op, .loaded settings⟩ =>
      some ⟨(writeFile s.file (codec.marshal (op.edit settings)) fault).1, s.calls.set index ⟨op, op.saved fault⟩⟩
    | _ => none
  | .connect index ok =>
    match s.calls[index]? with
    | some ⟨.connectProfile id, .connecting⟩ =>
      some { s with calls := s.calls.set index ⟨.connectProfile id, .returned ok⟩ }
    | _ => none

variable {s s' : Sys Data} {event : Event Data} {events : List (Event Data)}

/-- **One step**, inverted. -/
inductive Stepped (codec : Codec Data) (s : Sys Data) : Event Data → Sys Data → Prop
  | call (op : Op) : Stepped codec s (.call op) { s with calls := s.calls ++ [{ op }] }
  | refuse (index : Nat) (op : Op) (found : s.calls[index]? = some ⟨op, .waiting⟩) :
      Stepped codec s (.refuse index) { s with calls := s.calls.set index ⟨op, .returned false⟩ }
  | load (index : Nat) (readError : Option String) (op : Op) (found : s.calls[index]? = some ⟨op, .waiting⟩) :
      Stepped codec s (.load index readError)
        { s with calls := s.calls.set index ⟨op, op.load (loadFile codec s.file readError)⟩ }
  | save (index : Nat) (fault : Option (WriteFault Data)) (op : Op) (settings : GlobalSettings)
      (found : s.calls[index]? = some ⟨op, .loaded settings⟩) :
      Stepped codec s (.save index fault)
        ⟨(writeFile s.file (codec.marshal (op.edit settings)) fault).1, s.calls.set index ⟨op, op.saved fault⟩⟩
  | connect (index : Nat) (ok : Bool) (id : String)
      (found : s.calls[index]? = some ⟨.connectProfile id, .connecting⟩) :
      Stepped codec s (.connect index ok) { s with calls := s.calls.set index ⟨.connectProfile id, .returned ok⟩ }

theorem stepped_of_step (taken : step codec s event = some s') : Stepped codec s event s' := by
  cases event with
  | call op =>
    cases taken
    exact .call op
  | refuse index | load index readError | save index fault | connect index ok =>
    rw [step] at taken
    split at taken
    · next found =>
      cases taken
      constructor
      exact found
    · cases taken

/-! ### What the file keeps -/

/-- The call has changed the settings, or has found them as they should be. -/
def Call.Saved : Call → Prop
  | ⟨.addExclusion _, phase⟩ => phase = .returned true
  | ⟨.connectProfile _, phase⟩ => phase = .connecting ∨ phase = .returned true

/-- The settings have what the call asked for; of several profiles, one of those that were asked for. -/
def Sys.Has (s : Sys Data) (settings : GlobalSettings) : Op → Prop
  | .addExclusion domain => trimmed domain ∈ settings.globalExclusions
  | .connectProfile _ => ∃ call ∈ s.calls, call.op = .connectProfile settings.lastProfileID

/-- **The file has what every call asked for** that is done with the settings. -/
def Sys.Kept (codec : Codec Data) (s : Sys Data) : Prop :=
  ∀ call ∈ s.calls, call.Saved → ∃ settings, load codec s.file = .ok settings ∧ s.Has settings call.op

/-- `ConnectProfile` gets the settings; a call saves while the file still has the settings that it loaded, and the
file is written. -/
def Undisturbed (codec : Codec Data) (s : Sys Data) : Event Data → Prop
  | .load index readError => ∀ id, s.calls[index]? = some ⟨.connectProfile id, .waiting⟩ →
      ∃ settings, loadFile codec s.file readError = .ok settings
  | .save index fault => fault = none ∧
      ∀ op settings, s.calls[index]? = some ⟨op, .loaded settings⟩ → load codec s.file = .ok settings
  | _ => True

theorem Sys.has_edit {settings : GlobalSettings} {op : Op} {phase : Phase} (listed : ⟨op, phase⟩ ∈ s.calls) :
    s.Has (op.edit settings) op := by
  cases op with
  | addExclusion domain => exact List.mem_append_right _ (List.mem_singleton_self _)
  | connectProfile id => exact ⟨_, listed, rfl⟩

theorem Sys.Has.edit {settings : GlobalSettings} {op : Op} (has : s.Has settings op) {other : Op}
    {phase : Phase} (listed : ⟨other, phase⟩ ∈ s.calls) : s.Has (other.edit settings) op := by
  cases op with
  | addExclusion domain =>
    cases other with
    | addExclusion => exact List.mem_append_left _ has
    | connectProfile => exact has
  | connectProfile id =>
    cases other with
    | addExclusion => exact has
    | connectProfile last => exact ⟨_, listed, rfl⟩

theorem Sys.Has.mono {settings : GlobalSettings} {op : Op} (has : s.Has settings op)
    (calls : ∀ call ∈ s.calls, ∃ later ∈ s'.calls, later.op = call.op) : s'.Has settings op := by
  cases op with
  | addExclusion domain => exact has
  | connectProfile id =>
    obtain ⟨last, listed, same⟩ := has
    obtain ⟨later, still, alike⟩ := calls last listed
    exact ⟨later, still, alike.trans same⟩

section Moved

variable {calls : List Call} {index : Nat} {op : Op} {old new : Phase} (found : calls[index]? = some ⟨op, old⟩)
include found

theorem mem_moved : ⟨op, new⟩ ∈ calls.set index ⟨op, new⟩ := by
  obtain ⟨inside, -⟩ := List.getElem?_eq_some_iff.mp found
  exact List.mem_of_getElem? (List.getElem?_set_self inside)

theorem ops_moved : ∀ call ∈ calls, ∃ later ∈ calls.set index ⟨op, new⟩, later.op = call.op := by
  intro call member
  obtain ⟨place, there⟩ := List.mem_iff_getElem?.mp member
  by_cases same : index = place
  · subst same
    cases found.symm.trans there
    exact ⟨_, mem_moved found, rfl⟩
  · exact ⟨call, List.mem_of_getElem? ((List.getElem?_set_ne same).trans there), rfl⟩

theorem mem_of_mem_moved {call : Call} (member : call ∈ calls.set index ⟨op, new⟩) :
    call ∈ calls ∨ call = ⟨op, new⟩ := by
  obtain ⟨place, there⟩ := List.mem_iff_getElem?.mp member
  rcases pool_get_set found there with ⟨-, rfl⟩ | ⟨-, before⟩
  · exact .inr rfl
  · exact .inl (List.mem_of_getElem? before)

end Moved

/-- A call that goes on and leaves the file alone. -/
theorem Sys.Kept.moved {index : Nat} {op : Op} {old new : Phase} (kept : s.Kept codec)
    (found : s.calls[index]? = some ⟨op, old⟩)
    (saved : Call.Saved ⟨op, new⟩ → ∃ settings, load codec s.file = .ok settings ∧ s.Has settings op) :
    Sys.Kept codec { s with calls := s.calls.set index ⟨op, new⟩ } := by
  intro call member done
  have before : ∃ settings, load codec s.file = .ok settings ∧ s.Has settings call.op := by
    rcases mem_of_mem_moved found member with listed | rfl
    · exact kept call listed done
    · exact saved done
  obtain ⟨settings, loads, has⟩ := before
  exact ⟨settings, loads, has.mono (ops_moved found)⟩

/-- A call that is done when it has loaded: the domain was there. -/
theorem has_of_load {op : Op} {readError : Option String}
    (gets : ∀ id, op = .connectProfile id → ∃ settings, loadFile codec s.file readError = .ok settings)
    (saved : Call.Saved ⟨op, op.load (loadFile codec s.file readError)⟩) :
    ∃ settings, load codec s.file = .ok settings ∧ s.Has settings op := by
  cases op with
  | addExclusion domain =>
    simp only [Call.Saved, Op.load] at saved
    split at saved
    · cases saved
    · split at saved
      · cases saved
      · next settings loads =>
        split at saved
        · next present =>
          cases readError with
          | some err => cases loads
          | none => exact ⟨settings, loads, present⟩
        · cases saved
  | connectProfile id =>
    obtain ⟨settings, loads⟩ := gets id rfl
    simp [Call.Saved, Op.load, loads] at saved

theorem Sys.Kept.step (kept : s.Kept codec) (undisturbed : Undisturbed codec s event)
    (taken : step codec s event = some s') : s'.Kept codec := by
  cases stepped_of_step taken with
  | call op =>
    intro other member saved
    rcases List.mem_append.mp member with old | new
    · obtain ⟨settings, loads, has⟩ := kept other old saved
      exact ⟨settings, loads, has.mono fun call member => ⟨call, List.mem_append_left _ member, rfl⟩⟩
    · cases List.mem_singleton.mp new
      cases op <;> simp [Call.Saved] at saved
  | refuse index op found =>
    refine kept.moved found fun saved => ?_
    cases op <;> simp [Call.Saved] at saved
  | load index readError op found =>
    exact kept.moved found (has_of_load fun id same => undisturbed id (same ▸ found))
  | connect index ok id found =>
    exact kept.moved found fun _ => kept _ (List.mem_of_getElem? found) (.inl rfl)
  | save index fault op settings found =>
    obtain ⟨rfl, unchanged⟩ := undisturbed
    have loads := unchanged op settings found
    have saved : load codec (some (codec.marshal (op.edit settings))) = .ok (op.edit settings) := by
      refine load_marshal ?_
      have given := language_of_load loads
      cases op with
      | addExclusion | connectProfile => exact given
    intro other member done
    refine ⟨_, saved, ?_⟩
    rcases mem_of_mem_moved found member with old | rfl
    · obtain ⟨before, same, has⟩ := kept other old done
      cases loads.symm.trans same
      exact Sys.Has.edit (has.mono (ops_moved found)) (mem_moved found)
    · exact Sys.has_edit member

/-- **No update is lost** while calls save what they have loaded: when all have returned, the file has every domain and
the profile of one of the connections. -/
theorem settings_kept (codec : Codec Data) {file : Option Data}
    (reached : run (step codec) ⟨file, []⟩ events = some s)
    (undisturbed : Along (step codec) (Undisturbed codec) ⟨file, []⟩ events)
    (successful : ∀ call ∈ s.calls, call.phase = .returned true) :
    (∀ domain phase, ⟨.addExclusion domain, phase⟩ ∈ s.calls →
      ∃ settings, load codec s.file = .ok settings ∧ trimmed domain ∈ settings.globalExclusions) ∧
    ∀ id phase, ⟨.connectProfile id, phase⟩ ∈ s.calls →
      ∃ settings, load codec s.file = .ok settings ∧
        ∃ last, ⟨.connectProfile last, .returned true⟩ ∈ s.calls ∧ settings.lastProfileID = last := by
  have kept : s.Kept codec :=
    run_invariant (fun _ _ _ quiet held taken => held.step quiet taken) undisturbed
      (fun call member => absurd member List.not_mem_nil) reached
  refine ⟨fun domain phase member => kept _ member (successful _ member), fun id phase member => ?_⟩
  obtain ⟨settings, loads, ⟨op, done⟩, listed, rfl⟩ := kept _ member (.inr (successful _ member))
  cases successful _ listed
  exact ⟨settings, loads, _, listed, rfl⟩

def Codec.plain : Codec GlobalSettings := ⟨id, .ok, fun _ => rfl⟩

def oneByOne : List (Event GlobalSettings) :=
  [.call (.addExclusion " example.org"), .load 0 none, .save 0 none, .call (.connectProfile "home"), .load 1 none,
    .save 1 none, .connect 1 true]

theorem settings_kept_oneByOne :
    ∃ s, run (step .plain) ⟨none, []⟩ oneByOne = some s ∧
      (∃ settings, load .plain s.file = .ok settings ∧ "example.org" ∈ settings.globalExclusions) ∧
      ∃ settings, load .plain s.file = .ok settings ∧
        ∃ last, ⟨.connectProfile last, .returned true⟩ ∈ s.calls ∧ settings.lastProfileID = last := by
  have undisturbed : Along (step .plain) (Undisturbed .plain) ⟨none, []⟩ oneByOne := by
    refine ⟨trivial, fun id found => ⟨_, rfl⟩, ⟨rfl, fun op settings found => ?_⟩, trivial, fun id found => ⟨_, rfl⟩,
      ⟨rfl, fun op settings found => ?_⟩, trivial, trivial⟩
    · cases found
      rfl
    · cases found
      rfl
  have reached : ∃ s, run (step .plain) ⟨none, []⟩ oneByOne = some s ∧
      (∀ call ∈ s.calls, call.phase = .returned true) ∧
      ⟨.addExclusion " example.org", .returned true⟩ ∈ s.calls ∧ ⟨.connectProfile "home", .returned true⟩ ∈ s.calls :=
    ⟨_, rfl, by decide, by decide, by decide⟩
  obtain ⟨s, reached, successful, added, connected⟩ := reached
  obtain ⟨domains, profiles⟩ := settings_kept .plain reached undisturbed successful
  obtain ⟨settings, loads, listed⟩ := domains _ _ added
  have blank : trimmed " example.org" = "example.org" := by decide +kernel
  rw [blank] at listed
  exact ⟨s, reached, ⟨settings, loads, listed⟩, profiles _ _ connected⟩

/-- Both calls load before either saves: both have succeeded, and the domain is gone. -/
theorem settings_lost :
    ∃ s, run (step .plain) ⟨none, []⟩ [.call (.addExclusion "example.org"), .call (.connectProfile "home"),
        .load 0 none, .load 1 none, .save 0 none, .save 1 none, .connect 1 true] = some s ∧
      (∀ call ∈ s.calls, call.phase = .returned true) ∧ ⟨.addExclusion "example.org", .returned true⟩ ∈ s.calls ∧
      ¬ ∃ settings, load .plain s.file = .ok settings ∧ trimmed "example.org" ∈ settings.globalExclusions := by
  refine ⟨_, rfl, by decide, by decide, ?_⟩
  rintro ⟨settings, loads, listed⟩
  cases loads
  exact absurd listed List.not_mem_nil

end Ttgo.Client.Settings

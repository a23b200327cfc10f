/-
**The life of a client, from call to call.**

`Connect` and `Disconnect` of `internal/client/client.go` hold `c.mu` from beginning to end, so the calls on a client
form a sequence. Each has its own machine: what fails in one call need not fail in the next.

* `Life` — the fields of the client, the machine, and every TUN device ever opened with the number of its closes.
* `Life.connect`, `Life.disconnect` — the two calls.
* `connect_erase` — without the devices, `Life.connect` is `connect`.
* `Outcome` — how a `Connect` ends: refused, failed with its device closed, or up with a device of its own.
* `Life.Sound` — the state, the three fields and the devices agree.
* `lifecycle_sound` — they do after every sequence of calls.
-/

import Ttgo.Client.Connect
import Ttgo.Lib.Pool

namespace Ttgo.Client

open Ttgo.Lib

/-! ### The calls -/

/-- A TUN device that was opened. -/
structure Device where
  name : String
  closes : Nat
deriving DecidableEq, Repr

def Device.close (device : Device) : Device := { device with closes := device.closes + 1 }

structure Life where
  client : ClientState
  world : World
  devices : List Device
  /-- The device of `c.tun`. -/
  current : Option Nat

def Life.new (world : World) : Life := ⟨⟨.disconnected, "", none, none, none, ⟨"", []⟩⟩, world, [], none⟩

def Life.closeDevice (l : Life) (name : String) (index : Nat) : Life :=
  { l with world := l.world.closeTun name, devices := l.devices.modify index Device.close }

/-- `OpenTUN`. What follows `tun.CreateTUN` (the name, the stack and its addresses) may fail as well, and closes the
device then. -/
def Life.openTUN (m : Machine) (setup : Option String) (l : Life) : Except (String × Life) (String × Nat × Life) :=
  match m.createTUN with
  | .error cause => .error (cause, l)
  | .ok name =>
    match l.world.os.openTun name with
    | none => .error ("device or resource busy", l)
    | some os =>
      let opened := { l with world := { l.world with os }, devices := l.devices ++ [⟨name, 0⟩] }
      match setup with
      | some cause => .error (cause, opened.closeDevice name l.devices.length)
      | none => .ok (name, l.devices.length, opened)

/-- `setState(StateError, …)` and the error. -/
def Life.failed (p : Platform) (cfg : Config) (err : ConnectError) (l : Life) : Option ConnectError × Life :=
  (some err, { l with client := { l.client with state := .error, errStr := err.status p, cfg } })

def Life.connect (p : Platform) (m : Machine) (setup : Option String) (cfg : Config) (l : Life) :
    Option ConnectError × Life :=
  if l.client.busy then (some (.already l.client.state), l)
  else
    match m.splitHostPort cfg.endpoint with
    | .error cause => l.failed p cfg (.dialer cause)
    | .ok _ =>
      match m.checkAuth with
      | some cause => l.failed p cfg (.auth cause)
      | none =>
        match l.openTUN m setup with
        | .error (cause, l) => l.failed p cfg (.tun cause)
        | .ok (name, index, l) =>
          match newRouteManager p m name cfg with
          | .error cause => (l.closeDevice name index).failed p cfg (.routes cause)
          | .ok r =>
            let installed := install p m r l.world
            match installed.1 with
            | some err =>
              ({ l with world := installed.2.2 }.closeDevice name index).failed p cfg (.install err)
            | none =>
              let up : ClientState :=
                { state := .connected, errStr := "", dialer := some cfg.endpoint, tun := some name
                  routes := some installed.2.1, cfg := cfg }
              (none, { l with client := up, world := installed.2.2, current := some index })

/-- `Disconnect`, where closing the device may fail. -/
def Life.disconnect (p : Platform) (m : Machine) (closeErr : Option String) (l : Life) : Option String × Life :=
  if l.client.state = .disconnected then (none, l)
  else
    let restored : List String × World := match l.client.routes with
      | none => ([], l.world)
      | some r =>
        let done := restore p m r l.world
        (done.1.toList.map ("routes: " ++ ·), done.2.2)
    let l := { l with world := restored.2 }
    let closed : List String × Life := match l.client.tun, l.current with
      | some name, some index => (closeErr.toList.map ("tun: " ++ ·), l.closeDevice name index)
      | _, _ => ([], l)
    let errs := restored.1 ++ closed.1
    let down : ClientState :=
      { state := .disconnected, errStr := "", dialer := none, tun := none, routes := none, cfg := l.client.cfg }
    (if errs = [] then none else some ("disconnect errors: [" ++ " ".intercalate errs ++ "]"),
      { closed.2 with client := down, current := none })

/-- **`Life.connect` is `connect`**, with a record of the devices. -/
theorem connect_erase (p : Platform) (m : Machine) (cfg : Config) (l : Life) :
    connect p m cfg l.client l.world =
      ((l.connect p m none cfg).1, (l.connect p m none cfg).2.client, (l.connect p m none cfg).2.world) := by
  unfold connect Life.connect
  split
  · rfl
  · unfold acquire openTUN Life.openTUN
    cases m.splitHostPort cfg.endpoint with
    | error cause => rfl
    | ok pair =>
      cases m.checkAuth with
      | some cause => rfl
      | none =>
        cases m.createTUN with
        | error cause => rfl
        | ok name =>
          dsimp only
          cases l.world.os.openTun name with
          | none => rfl
          | some os =>
            dsimp only
            cases made : newRouteManager p m name cfg with
            | error cause => rfl
            | ok r =>
              obtain ⟨-, ip, -, rfl⟩ := newRouteManager_eq_ok_iff.mp made
              dsimp only
              generalize install p m _ _ = done
              obtain ⟨_ | err, r, w⟩ := done
              · rfl
              · rfl

/-! ### One call -/

variable {p : Platform} {m : Machine} {setup : Option String} {cfg : Config} {l : Life}

inductive Outcome (l : Life) : Life → Prop
  | refused (busy : l.client.busy) : Outcome l l
  /-- A device that was opened has been closed. -/
  | failed (idle : ¬ l.client.busy) (errStr : String) (cfg : Config) (world : World) (opened : List Device)
      (closed : ∀ device ∈ opened, device.closes = 1) :
      Outcome l ⟨{ l.client with state := .error, errStr, cfg }, world, l.devices ++ opened, l.current⟩
  | up (idle : ¬ l.client.busy) (name : String) (endpoint : String) (r : RouteManager) (cfg : Config) (world : World) :
      Outcome l ⟨⟨.connected, "", some endpoint, some name, some r, cfg⟩, world, l.devices ++ [⟨name, 0⟩],
        some l.devices.length⟩

theorem devices_closeNew (devices : List Device) (device : Device) :
    (devices ++ [device]).modify devices.length Device.close = devices ++ [device.close] := by
  induction devices with
  | nil => rfl
  | cons first devices ih => exact congrArg (first :: ·) ih

theorem outcome_connect (p : Platform) (m : Machine) (setup : Option String) (cfg : Config) (l : Life) :
    Outcome l (l.connect p m setup cfg).2 := by
  unfold Life.connect Life.openTUN
  split
  · next busy => exact .refused busy
  next idle =>
  have untouched (err : ConnectError) : Outcome l (l.failed p cfg err).2 := by
    have failed := Outcome.failed idle (err.status p) cfg l.world [] (List.forall_mem_nil _)
    rwa [List.append_nil] at failed
  have closed (name : String) (err : ConnectError) (world : World) :
      Outcome l ((Life.closeDevice { l with world, devices := l.devices ++ [⟨name, 0⟩] } name l.devices.length).failed
        p cfg err).2 := by
    unfold Life.closeDevice
    rw [devices_closeNew]
    exact .failed idle (err.status p) cfg _ [⟨name, 1⟩] (List.forall_mem_singleton.mpr rfl)
  cases m.splitHostPort cfg.endpoint with
  | error cause => exact untouched _
  | ok pair =>
    cases m.checkAuth with
    | some cause => exact untouched _
    | none =>
      cases m.createTUN with
      | error cause => exact untouched _
      | ok name =>
        dsimp only
        cases l.world.os.openTun name with
        | none => exact untouched _
        | some os =>
          cases setup with
          | some cause => exact closed name _ _
          | none =>
            dsimp only
            cases newRouteManager p m name cfg with
            | error cause => exact closed name _ _
            | ok r =>
              dsimp only
              split
              · exact closed name _ _
              · exact .up idle name cfg.endpoint _ cfg _

/-! ### Call after call -/

/-- The state, the three fields and the devices agree. -/
structure Life.Sound (l : Life) : Prop where
  connected : l.client.state = .connected →
    l.client.dialer.isSome ∧ l.client.routes.isSome ∧ ∃ index device, l.current = some index ∧
      l.devices[index]? = some device ∧ l.client.tun = some device.name ∧ device.closes = 0
  otherwise : l.client.state ≠ .connected →
    l.client.dialer = none ∧ l.client.tun = none ∧ l.client.routes = none ∧ l.current = none ∧
      (l.client.state = .disconnected ∨ l.client.state = .error)
  /-- Every other device has been closed once. -/
  closed : ∀ index device, l.devices[index]? = some device → l.current ≠ some index → device.closes = 1

theorem sound_new (world : World) : (Life.new world).Sound :=
  ⟨State.noConfusion, fun _ => ⟨rfl, rfl, rfl, rfl, .inl rfl⟩, fun _ _ found => by cases found⟩

theorem Life.Sound.connect (sound : l.Sound) (p : Platform) (m : Machine) (setup : Option String) (cfg : Config) :
    (l.connect p m setup cfg).2.Sound := by
  have outcome := outcome_connect p m setup cfg l
  generalize (l.connect p m setup cfg).2 = after at outcome
  cases outcome with
  | refused busy => exact sound
  | failed idle errStr cfg world opened closed =>
    obtain ⟨dialer, tun, routes, current, -⟩ := sound.otherwise (mt .inl idle)
    refine ⟨State.noConfusion, fun _ => ⟨dialer, tun, routes, current, .inr rfl⟩, fun index device found other => ?_⟩
    rw [List.getElem?_append] at found
    split at found
    · exact sound.closed index device found other
    · exact closed device (List.mem_of_getElem? found)
  | up idle name endpoint r cfg world =>
    have current := (sound.otherwise (mt .inl idle)).2.2.2.1
    have last : (l.devices ++ [⟨name, 0⟩])[l.devices.length]? = some ⟨name, 0⟩ := List.getElem?_concat_length
    refine ⟨fun _ => ⟨rfl, rfl, _, _, rfl, last, rfl, rfl⟩, fun down => absurd rfl down,
      fun index device found other => ?_⟩
    rcases pool_get_append found with old | ⟨rfl, rfl⟩
    · refine sound.closed index device old ?_
      rw [current]
      exact (Option.some_ne_none index).symm
    · exact absurd rfl other

theorem Life.Sound.disconnect (sound : l.Sound) (p : Platform) (m : Machine) (closeErr : Option String) :
    (l.disconnect p m closeErr).2.Sound := by
  unfold Life.disconnect
  split
  · exact sound
  by_cases up : l.client.state = .connected
  · obtain ⟨-, -, current, opened, stands, found, tun, unclosed⟩ := sound.connected up
    dsimp only
    rw [tun, stands]
    refine ⟨State.noConfusion, fun _ => ⟨rfl, rfl, rfl, rfl, .inl rfl⟩, fun index device listed _ => ?_⟩
    -- the current device is closed now, and the others were before
    have before : (l.devices.modify current Device.close)[index]? = some device := listed
    rw [List.getElem?_modify] at before
    obtain ⟨old, held, rfl⟩ := Option.map_eq_some_iff.mp before
    split
    · next same =>
      subst same
      cases found.symm.trans held
      exact congrArg (· + 1) unclosed
    · next other =>
      refine sound.closed index old held ?_
      rw [stands]
      exact fun same => other (Option.some.inj same)
  · obtain ⟨-, tun, -, current, -⟩ := sound.otherwise up
    dsimp only
    rw [tun, current]
    refine ⟨State.noConfusion, fun _ => ⟨rfl, rfl, rfl, rfl, .inl rfl⟩, fun index device listed _ => ?_⟩
    refine sound.closed index device listed ?_
    rw [current]
    exact (Option.some_ne_none index).symm

/-- A call on the client, each on the machine as it then is; between the calls the machine may change. -/
inductive Call
  | connect (m : Machine) (setup : Option String) (cfg : Config)
  | disconnect (m : Machine) (closeErr : Option String)
  | elapse (world : World)

def Life.call (p : Platform) (l : Life) : Call → Life
  | .connect m setup cfg => (l.connect p m setup cfg).2
  | .disconnect m closeErr => (l.disconnect p m closeErr).2
  | .elapse world => { l with world }

theorem Life.Sound.call (sound : l.Sound) (p : Platform) (call : Call) : (l.call p call).Sound := by
  cases call with
  | connect m setup cfg => exact sound.connect p m setup cfg
  | disconnect m closeErr => exact sound.disconnect p m closeErr
  | elapse world => exact ⟨sound.connected, sound.otherwise, sound.closed⟩

theorem Life.Sound.calls (sound : l.Sound) (p : Platform) (calls : List Call) :
    (calls.foldl (Life.call p) l).Sound := by
  induction calls generalizing l with
  | nil => exact sound
  | cons call calls ih => exact ih (sound.call p call)

/-- **The lifecycle of a client.** -/
theorem lifecycle_sound (p : Platform) (world : World) (calls : List Call) :
    let l := calls.foldl (Life.call p) (Life.new world)
    (l.client.state = .connected ↔ l.client.dialer.isSome ∧ l.client.tun.isSome ∧ l.client.routes.isSome) ∧
      (l.client.state ≠ .connected → l.client.dialer = none ∧ l.client.tun = none ∧ l.client.routes = none ∧
        (l.client.state = .disconnected ∨ l.client.state = .error)) ∧
      (∀ index device, l.devices[index]? = some device →
        if l.client.state = .connected ∧ l.current = some index then
          device.closes = 0 ∧ l.client.tun = some device.name
        else device.closes = 1) ∧
      (l.client.state = .connected → ∀ m setup cfg, l.connect p m setup cfg = (some (.already .connected), l)) := by
  intro l
  have sound : l.Sound := (sound_new world).calls p calls
  refine ⟨⟨fun up => ?_, fun set => ?_⟩, fun down => ?_, fun index device found => ?_, fun up m setup cfg => ?_⟩
  · obtain ⟨dialer, routes, _, device, _, _, tun, _⟩ := sound.connected up
    rw [tun]
    exact ⟨dialer, rfl, routes⟩
  · by_contra down
    rw [(sound.otherwise down).1] at set
    exact Bool.false_ne_true set.1
  · obtain ⟨dialer, tun, routes, -, state⟩ := sound.otherwise down
    exact ⟨dialer, tun, routes, state⟩
  · split
    · next up =>
      obtain ⟨-, -, _, _, stands, held, tun, closes⟩ := sound.connected up.1
      cases stands.symm.trans up.2
      cases held.symm.trans found
      exact ⟨closes, tun⟩
    · next other =>
      refine sound.closed index device found fun stands => ?_
      refine other ⟨?_, stands⟩
      by_contra down
      rw [(sound.otherwise down).2.2.2.1] at stands
      cases stands
  · unfold Life.connect
    rw [if_pos (.inl up), up]

end Ttgo.Client

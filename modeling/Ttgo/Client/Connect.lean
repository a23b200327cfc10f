/-
**`Connect`: what a failed attempt leaves on the machine.**

`Client.Connect` of `internal/client/client.go` puts up the dialer, the TUN device and the routes,
"and cleans up after itself if something fails": it closes the device and the dialer, and does not
undo what `Install` had done.

* `acquire` — the steps before `Install`, each with its own clean-up.
* `connect` — the whole call.
* `Unchanged` — the route table and the DNS servers are what they were.
* `GetsToSplit` — what it takes to come to the halves of the default route.
* `connect_unchanged_iff` — a failed `Connect` leaves the machine as it was unless it gets there and
  a half is refused; the route to the endpoint is then left behind.
-/

import Ttgo.Client.Install

namespace Ttgo.Client

open Ttgo.Lib

/-! ### The call -/

inductive State
  | disconnected
  | connecting
  | connected
  | error
deriving DecidableEq, Repr

def State.text : State → String
  | .disconnected => "disconnected"
  | .connecting => "connecting"
  | .connected => "connected"
  | .error => "error"

/-- The settings that `Connect` itself reads; what the others decide is the answer of `checkAuth`. -/
structure Config where
  endpoint : String
  exclusions : List String
deriving DecidableEq, Repr

/-- The fields of `Client`. -/
structure ClientState where
  state : State
  errStr : String
  /-- The endpoint of the dialer. -/
  dialer : Option String
  /-- The name of the TUN device. -/
  tun : Option String
  routes : Option RouteManager
  cfg : Config
deriving DecidableEq, Repr

inductive ConnectError
  | already (state : State)
  | dialer (cause : String)
  | auth (cause : String)
  | tun (cause : String)
  | routes (cause : String)
  | install (err : InstallError)
deriving DecidableEq, Repr

/-- The label of the step that sets the device's address. -/
def Platform.setAddress : Platform → String
  | .darwin => "ifconfig: "
  | .windows => "set tun address: "
  | .other => ""

/-- What the state shows of the error. -/
def ConnectError.status (p : Platform) : ConnectError → String
  | .already state => "already " ++ state.text
  | .dialer cause => "endpoint: " ++ cause
  | .auth cause => "auth: " ++ cause
  | .tun cause => "tun: " ++ cause
  | .routes cause => "routes: " ++ cause
  | .install err => "routes install: " ++ err.text p.setAddress

/-- `NewRouteManager`: the endpoint's first IPv4 address. -/
def newRouteManager (p : Platform) (m : Machine) (tunName : String) (cfg : Config) :
    Except String RouteManager :=
  if p = .other then .error "RouteManager: platform not yet supported"
  else
    match m.splitHostPort cfg.endpoint with
    | .error cause => .error cause
    | .ok (host, _) =>
      match m.lookupIP host with
      | .error cause => .error ("resolve " ++ host ++ ": " ++ cause)
      | .ok ips =>
        match ips.find? IP.v4 with
        | none => .error ("no IPv4 for " ++ host)
        | some ip => .ok { tunName, endpointIP := ip.text, exclusions := cfg.exclusions }

def openTUN (m : Machine) (w : World) : Except String (String × World) :=
  match m.createTUN with
  | .error cause => .error cause
  | .ok name =>
    match w.os.openTun name with
    | none => .error "device or resource busy"
    | some os => .ok (name, { w with os })

/-- `tunDev.Close`. -/
def World.closeTun (w : World) (name : String) : World := { w with os := w.os.closeTun name }

/-- The steps before `Install`; one that fails takes back the ones before it. -/
def acquire (p : Platform) (m : Machine) (cfg : Config) (w : World) :
    Except (ConnectError × World) (RouteManager × World) :=
  match m.splitHostPort cfg.endpoint with
  | .error cause => .error (.dialer cause, w)
  | .ok _ =>
    match m.checkAuth with
    | some cause => .error (.auth cause, w)
    | none =>
      match openTUN m w with
      | .error cause => .error (.tun cause, w)
      | .ok (name, opened) =>
        match newRouteManager p m name cfg with
        | .error cause => .error (.routes cause, opened.closeTun name)
        | .ok r => .ok (r, opened)

def ClientState.busy (c : ClientState) : Prop := c.state = .connected ∨ c.state = .connecting

instance (c : ClientState) : Decidable c.busy := inferInstanceAs (Decidable (_ ∨ _))

def connect (p : Platform) (m : Machine) (cfg : Config) (c : ClientState) (w : World) :
    Option ConnectError × ClientState × World :=
  if c.busy then (some (.already c.state), c, w)
  else
    let failed := fun err => { c with state := .error, errStr := ConnectError.status p err, cfg }
    match acquire p m cfg w with
    | .error (err, left) => (some err, failed err, left)
    | .ok (r, opened) =>
      let installed := install p m r opened
      match installed.1 with
      | some err =>
        (some (.install err), failed (.install err), installed.2.2.closeTun r.tunName)
      | none =>
        let up : ClientState :=
          { state := .connected, errStr := "", dialer := some cfg.endpoint, tun := some r.tunName
            routes := some installed.2.1, cfg := cfg }
        (none, up, installed.2.2)

/-! ### What is left -/

/-- The route table and the DNS servers are what they were. -/
structure Unchanged (before after : OS) : Prop where
  routes : ∀ dest, after.routes.lookup dest = before.routes.lookup dest
  dns : ∀ service, after.dns.lookup service = before.dns.lookup service

theorem Unchanged.refl (os : OS) : Unchanged os os := ⟨fun _ => rfl, fun _ => rfl⟩

theorem lookup_closeTun_gateway {os : OS} {dest : Dest} {gateway : String} (name : String)
    (routed : os.routes.lookup dest = some (.gateway gateway)) :
    (os.closeTun name).routes.lookup dest = some (.gateway gateway) := by
  show (os.routes.filterValues _).lookup dest = _
  rw [GoMap.lookup_filterValues, routed]
  rfl

theorem unchanged_closeTun {before opened : OS} {name : String} (new : name ∉ before.devices)
    (routes : opened.routes = before.routes) (dns : opened.dns = before.dns) :
    Unchanged before (opened.closeTun name) := by
  refine ⟨fun dest => ?_, fun service => congrArg (·.lookup service) dns⟩
  show (opened.routes.filterValues _).lookup dest = _
  rw [GoMap.lookup_filterValues, routes]
  cases route : before.routes.lookup dest with
  | none => rfl
  | some via =>
    have other : via ≠ .device name := by
      rintro rfl
      exact new (before.attached dest name route)
    exact Option.filter_some_pos (by simpa using other)

/-- A device was opened, and nothing else happened. -/
structure Opened (m : Machine) (w : World) (name : String) (opened : World) : Prop where
  created : m.createTUN = .ok name
  new : name ∉ w.os.devices
  present : name ∈ opened.os.devices
  routes : opened.os.routes = w.os.routes
  dns : opened.os.dns = w.os.dns
  ran : opened.ran = w.ran

theorem openTUN_eq_ok {m : Machine} {w opened : World} {name : String}
    (done : openTUN m w = .ok (name, opened)) : Opened m w name opened := by
  unfold openTUN at done
  split at done
  · cases done
  · next created =>
    unfold OS.openTun at done
    split at done
    · cases done
    · next os opens =>
      cases done
      split at opens
      · cases opens
      · next new =>
        cases opens
        exact ⟨created, new, List.mem_cons_self, rfl, rfl, rfl⟩

theorem exists_openTUN {m : Machine} {w : World} {name : String} (created : m.createTUN = .ok name)
    (new : name ∉ w.os.devices) : ∃ opened, openTUN m w = .ok (name, opened) := by
  unfold openTUN OS.openTun
  rw [created]
  dsimp only
  rw [if_neg new]
  exact ⟨_, rfl⟩

/-- The address that `NewRouteManager` finds for the endpoint. -/
def endpointIP (m : Machine) (cfg : Config) : Option String :=
  match m.splitHostPort cfg.endpoint with
  | .error _ => none
  | .ok (host, _) =>
    match m.lookupIP host with
    | .error _ => none
    | .ok ips => (ips.find? IP.v4).map IP.text

theorem newRouteManager_eq_ok_iff {p : Platform} {m : Machine} {name : String} {cfg : Config}
    {r : RouteManager} :
    newRouteManager p m name cfg = .ok r ↔ p ≠ .other ∧ ∃ ip, endpointIP m cfg = some ip ∧
      r = { tunName := name, endpointIP := ip, exclusions := cfg.exclusions } := by
  unfold newRouteManager endpointIP
  by_cases other : p = .other
  · rw [if_pos other]
    exact ⟨nofun, fun all => absurd other all.1⟩
  · rw [if_neg other]
    rcases m.splitHostPort cfg.endpoint with cause | ⟨host, port⟩
    · simp [other]
    · dsimp only
      rcases m.lookupIP host with cause | ips
      · simp [other]
      · dsimp only
        cases ips.find? IP.v4 with
        | none => simp [other]
        | some ip => simp [other, eq_comm]

structure Acquires (p : Platform) (m : Machine) (cfg : Config) (w : World) (name ip : String) :
    Prop where
  auth : m.checkAuth = none
  created : m.createTUN = .ok name
  new : name ∉ w.os.devices
  supported : p ≠ .other
  endpoint : endpointIP m cfg = some ip

theorem acquire_eq_ok {p : Platform} {m : Machine} {cfg : Config} {w opened : World}
    {r : RouteManager} (acquired : acquire p m cfg w = .ok (r, opened)) :
    Acquires p m cfg w r.tunName r.endpointIP ∧ Opened m w r.tunName opened ∧
      r.exclusions = cfg.exclusions := by
  unfold acquire at acquired
  repeat' split at acquired
  all_goals cases acquired
  next auth _ _ _ made opens =>
    obtain ⟨supported, ip, endpoint, rfl⟩ := newRouteManager_eq_ok_iff.1 made
    have opened := openTUN_eq_ok opens
    exact ⟨⟨auth, opened.created, opened.new, supported, endpoint⟩, opened, rfl⟩

theorem exists_acquire {p : Platform} {m : Machine} {cfg : Config} {w : World} {name ip : String}
    (acquires : Acquires p m cfg w name ip) :
    ∃ r opened, acquire p m cfg w = .ok (r, opened) ∧ r.tunName = name ∧ r.endpointIP = ip := by
  obtain ⟨opened, opens⟩ := exists_openTUN acquires.created acquires.new
  have made := newRouteManager_eq_ok_iff.2
    ⟨acquires.supported, ip, acquires.endpoint, (rfl : _ = RouteManager.mk name ip ..)⟩
  have endpoint := acquires.endpoint
  unfold endpointIP at endpoint
  unfold acquire
  cases split : m.splitHostPort cfg.endpoint with
  | error cause =>
    rw [split] at endpoint
    cases endpoint
  | ok pair =>
    dsimp only
    rw [acquires.auth, opens]
    dsimp only
    rw [made]
    exact ⟨_, _, rfl, rfl, rfl⟩

theorem unchanged_of_acquire_error {p : Platform} {m : Machine} {cfg : Config} {w left : World}
    {err : ConnectError} (failed : acquire p m cfg w = .error (err, left)) :
    Unchanged w.os left.os := by
  unfold acquire at failed
  repeat' split at failed
  all_goals cases failed
  · exact .refl _
  · exact .refl _
  · exact .refl _
  · next opens _ _ _ =>
    have opened := openTUN_eq_ok opens
    exact unchanged_closeTun opened.new opened.routes opened.dns

section Outcome

variable {p : Platform} {m : Machine} {r : RouteManager} {w opened : World}

theorem unchanged_of_prepare_error (supported : p ≠ .other) (fresh : Opened m w r.tunName opened)
    (failed : (prepare p m r opened).1.isSome) :
    Unchanged w.os ((prepare p m r opened).2.2.closeTun r.tunName).os := by
  have same := (prepared_prepare supported m r opened).failed failed
  refine unchanged_closeTun fresh.new ?_ ?_
  · rw [same, fresh.routes]
  · rw [same, fresh.dns]

theorem changed_of_prepared (supported : p ≠ .other) (fresh : Opened m w r.tunName opened)
    (ready : (prepare p m r opened).1 = none) (name : String) (halves : List Dest) :
    ¬ Unchanged w.os
      ((addHalves m name halves (prepare p m r opened).2.2).2.closeTun r.tunName).os := by
  intro unchanged
  obtain ⟨_, _, dest, gateway, free, routed⟩ := (prepared_prepare supported m r opened).ready ready
  have kept := (extends_addHalves m name halves _).routes _ _ routed
  have left := (lookup_closeTun_gateway r.tunName kept).symm.trans (unchanged.routes dest)
  rw [← fresh.routes, free] at left
  cases left

theorem addHalves_of_prepared (supported : p ≠ .other) (fresh : Opened m w r.tunName opened)
    (ready : (prepare p m r opened).1 = none) :
    (addHalves m (prepare p m r opened).2.1.tunName p.halves (prepare p m r opened).2.2).1 = none ↔
      SplitFree p m r.exclusions w := by
  obtain ⟨name, extend, _⟩ := (prepared_prepare supported m r opened).ready ready
  have bypasses := (prepare_spec supported m r fresh.present).2 ready
  rw [addHalves_eq_none_iff (by rw [name, extend.devices]; exact fresh.present) (halves_nodup p),
    splitAccepted_iff bypasses]
  unfold SplitFree bypassStart
  rw [fresh.ran, fresh.routes]

theorem install_unchanged_iff (supported : p ≠ .other) (fresh : Opened m w r.tunName opened) :
    ((install p m r opened).1.isSome →
        Unchanged w.os ((install p m r opened).2.2.closeTun r.tunName).os) ↔
      (Prepares p m r.tunName r.endpointIP w → SplitFree p m r.exclusions w) := by
  have prepares : (prepare p m r opened).1 = none ↔ Prepares p m r.tunName r.endpointIP w := by
    rw [(prepare_spec supported m r fresh.present).1]
    constructor
    · rintro ⟨gateway, index, address, endpoint, free⟩
      exact ⟨gateway, index, fresh.ran ▸ address, fresh.ran ▸ endpoint, fresh.routes ▸ free⟩
    · rintro ⟨gateway, index, address, endpoint, free⟩
      exact ⟨gateway, index, fresh.ran.symm ▸ address, fresh.ran.symm ▸ endpoint,
        fresh.routes.symm ▸ free⟩
  rw [← prepares]
  cases prepared : (prepare p m r opened).1 with
  | some err =>
    rw [install_of_prepare_error prepared]
    have failed := unchanged_of_prepare_error supported fresh (by rw [prepared]; rfl)
    exact ⟨fun _ ok => absurd ok (Option.some_ne_none _), fun _ _ => failed⟩
  | none =>
    -- the endpoint has its route now, so only an `Install` that succeeds will do
    rw [← addHalves_of_prepared supported fresh prepared]
    cases split : (addHalves m (prepare p m r opened).2.1.tunName p.halves
        (prepare p m r opened).2.2).1 with
    | none =>
      rw [install_of_split prepared split]
      exact ⟨fun _ _ => rfl, fun _ failed => by cases failed⟩
    | some err =>
      rw [install_of_split_error prepared split]
      have changed := changed_of_prepared supported fresh prepared
        (prepare p m r opened).2.1.tunName p.halves
      exact ⟨fun unchanged => absurd (unchanged rfl) changed,
        fun accepted => absurd (accepted rfl) (Option.some_ne_none _)⟩

end Outcome

/-- What it takes for `Connect` to come to the halves of the default route. -/
def GetsToSplit (p : Platform) (m : Machine) (cfg : Config) (c : ClientState) (w : World) : Prop :=
  ¬ c.busy ∧ ∃ name ip, Acquires p m cfg w name ip ∧ Prepares p m name ip w

/-- **A failed `Connect` leaves the machine as it was, unless it gets to the halves of the default
route and one of them is refused.** -/
theorem connect_unchanged_iff (p : Platform) (m : Machine) (cfg : Config) (c : ClientState)
    (w : World) :
    ((connect p m cfg c w).1.isSome → Unchanged w.os (connect p m cfg c w).2.2.os) ↔
      (GetsToSplit p m cfg c w → SplitFree p m cfg.exclusions w) := by
  unfold connect GetsToSplit
  by_cases busy : c.busy
  · rw [if_pos busy]
    exact ⟨fun _ gets => absurd busy gets.1, fun _ _ => .refl _⟩
  rw [if_neg busy]
  cases acquired : acquire p m cfg w with
  | error failed =>
    refine ⟨fun _ gets => ?_, fun _ _ => unchanged_of_acquire_error acquired⟩
    obtain ⟨_, name, ip, acquires, _⟩ := gets
    obtain ⟨_, _, found, _⟩ := exists_acquire acquires
    rw [acquired] at found
    cases found
  | ok done =>
    obtain ⟨r, opened⟩ := done
    obtain ⟨acquires, fresh, exclusions⟩ := acquire_eq_ok acquired
    have gets : (¬ c.busy ∧ ∃ name ip, Acquires p m cfg w name ip ∧ Prepares p m name ip w) ↔
        Prepares p m r.tunName r.endpointIP w := by
      refine ⟨fun gets => ?_, fun prepares => ⟨busy, _, _, acquires, prepares⟩⟩
      obtain ⟨_, name, ip, others, prepares⟩ := gets
      obtain ⟨r', opened', found, rfl, rfl⟩ := exists_acquire others
      rw [acquired] at found
      cases found
      exact prepares
    rw [gets, ← exclusions, ← install_unchanged_iff acquires.supported fresh]
    dsimp only
    cases (install p m r opened).1 with
    | none =>
      exact iff_of_true (fun failed => absurd failed Bool.false_ne_true)
        fun failed => absurd failed Bool.false_ne_true
    | some err => exact Iff.rfl

/-- A Mac on Wi-Fi where the sixth command fails, the one for the first half. -/
def wifiMac : Machine where
  fails n := n = 5
  errText _ := "route: File exists"
  defaultRoute := .ok ("192.168.1.1", "en0")
  tunIndex _ := .error ""
  networkServiceForIface _ := "Wi-Fi"
  defaultNetAdapter := ""
  readDNS dns service := (dns.lookup service).getD []
  splitHostPort _ := .ok ("vpn", "443")
  parseCIDR _ := none
  parseIP _ := none
  lookupIP _ := .ok [⟨"203.0.113.7", true⟩]
  checkAuth := none
  createTUN := .ok "utun4"

def wifiBefore : World where
  os := { routes := ∅, devices := [], dns := AList.singleton "Wi-Fi" ["192.168.1.1"]
          attached := nofun }
  ran := 0

def idleClient : ClientState where
  state := .disconnected
  errStr := ""
  dialer := none
  tun := none
  routes := none
  cfg := ⟨"", []⟩

/-- The first half is refused: `Connect` reports it, and the route to the endpoint and the tunnel's
DNS server stay. -/
theorem connect_leaves_route :
    let done := connect .darwin wifiMac ⟨"vpn:443", []⟩ idleClient wifiBefore
    done.1 = some (.install (.splitDefault (.net "0.0.0.0/1") "route: File exists")) ∧
      wifiBefore.os.routes.lookup (.host "203.0.113.7") = none ∧
      done.2.2.os.routes.lookup (.host "203.0.113.7") = some (.gateway "192.168.1.1") ∧
      done.2.2.os.dns.lookup "Wi-Fi" = some ["10.99.0.1"] ∧
      ¬ (done.1.isSome → Unchanged wifiBefore.os done.2.2.os) := by
  refine ⟨by decide, by decide, by decide, by decide, fun unchanged => ?_⟩
  have same := (unchanged (by decide)).routes (.host "203.0.113.7")
  revert same
  decide

end Ttgo.Client

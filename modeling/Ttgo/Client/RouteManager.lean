/-
**`RouteManager`: the route table and DNS servers of the machine.**

`internal/client/route_darwin.go` and `route_windows.go`: `Install` sends the machine's traffic into
the TUN device with a run of external commands, and `Restore` takes it back. A command changes its own
item or fails without effect; which commands fail is a parameter.

* `OS` — the route table, the TUN devices that are open, and the DNS servers of each service. A
  destination that has a route cannot be given another, and a route into a device goes with it.
* `World.exec` — one external command; `Machine` — everything else that `Install` asks for.
* `prepareDarwin`, `prepareWindows` — `Install` up to the exclusions on the two platforms, with their
  own checks and destinations; `bypassAll` is the part whose failures are only logged.
* `install` — the whole of it, with the two halves of the default route at the end.
* `addDynamicHostBypassBatch` — the host routes that the DNS relay asks for later.
* `restore` — guarded by `installed`, which only a complete `Install` sets.
-/

import Ttgo.Lib.GoMap
import Ttgo.Lib.GoStrings

namespace Ttgo.Client

open Ttgo.Lib

/-! ### The machine -/

/-- A destination, as the commands of the platform name it. -/
inductive Dest
  | host (ip : String)
  | net (cidr : String)
  | subnet (ip mask : String)
deriving DecidableEq, Repr

def Dest.text : Dest → String
  | .host ip => ip
  | .net cidr => cidr
  | .subnet ip _ => ip ++ "/1"

inductive Platform
  | darwin
  | windows
  | other
deriving DecidableEq, Repr

/-- Where a route leads. -/
inductive Via
  | gateway (ip : String)
  | device (name : String)
deriving DecidableEq, Repr

structure OS where
  routes : GoMap Dest Via
  /-- The TUN devices that are open. -/
  devices : List String
  /-- The DNS servers of each network service; none are those of DHCP. -/
  dns : GoMap String (List String)
  /-- A route into a device goes when the device does. -/
  attached : ∀ dest name, routes.lookup dest = some (.device name) → name ∈ devices

namespace OS

/-- `route add`: a destination that has a route is not given another. -/
def addRoute (dest : Dest) (gateway : String) (os : OS) : Option OS :=
  if (os.routes.lookup dest).isSome then none
  else
    some { os with
      routes := os.routes.insert dest (.gateway gateway)
      attached := by
        intro other name into
        rw [GoMap.lookup_insert_ite] at into
        split at into
        · cases into
        · exact os.attached other name into }

/-- `route add` into a device. -/
def addTunRoute (dest : Dest) (name : String) (os : OS) : Option OS :=
  if present : name ∈ os.devices then
    if (os.routes.lookup dest).isSome then none
    else
      some { os with
        routes := os.routes.insert dest (.device name)
        attached := by
          intro other device into
          rw [GoMap.lookup_insert_ite] at into
          split at into
          · cases into; exact present
          · exact os.attached other device into }
  else none

/-- `route delete`, of the routes that pass the test. -/
def deleteRoute (dest : Dest) (test : Via → Bool) (os : OS) : Option OS :=
  if (os.routes.lookup dest).any test then
    some { os with
      routes := os.routes.erase dest
      attached := by
        intro other name into
        rw [GoMap.lookup_erase_ite] at into
        split at into
        · cases into
        · exact os.attached other name into }
  else none

/-- `networksetup -setdnsservers`, `netsh … set dnsservers`. -/
def setDNS (service : String) (servers : List String) (os : OS) : Option OS :=
  some { os with dns := os.dns.insert service servers }

/-- `netsh … add dnsservers`. -/
def addDNS (service server : String) (os : OS) : Option OS :=
  some { os with dns := os.dns.insert service ((os.dns.lookup service).getD [] ++ [server]) }

/-- `ifconfig utunX …`, `netsh … set address`: the address is the device's own. -/
def setAddress (name : String) (os : OS) : Option OS := if name ∈ os.devices then some os else none

/-- `tun.CreateTUN`: a name that is taken is refused. -/
def openTun (name : String) (os : OS) : Option OS :=
  if name ∈ os.devices then none
  else
    some { os with
      devices := name :: os.devices
      attached := fun dest device into => List.mem_cons_of_mem _ (os.attached dest device into) }

/-- The TUN device is closed, and its routes go with it. -/
def closeTun (name : String) (os : OS) : OS :=
  { os with
    routes := os.routes.filterValues (· ≠ .device name)
    devices := os.devices.filter (· ≠ name)
    attached := by
      intro dest device into
      rw [GoMap.lookup_filterValues, Option.filter_eq_some_iff] at into
      refine List.mem_filter.2 ⟨os.attached dest device into.1, ?_⟩
      simpa using into.2 }

end OS

/-- A parsed network. -/
structure IPNet where
  text : String
  ip : String
  mask : String
deriving DecidableEq, Repr

structure IP where
  text : String
  v4 : Bool
deriving DecidableEq, Repr

/-- What the machine answers. -/
structure Machine where
  /-- Which commands fail, by their number, and with what text. -/
  fails : Nat → Bool
  errText : Nat → String
  defaultRoute : Except String (String × String)
  tunIndex : String → Except String String
  networkServiceForIface : String → String
  defaultNetAdapter : String
  /-- `getDNSForService`, `getDNSForAdapter`. -/
  readDNS : GoMap String (List String) → String → List String
  splitHostPort : String → Except String (String × String)
  parseCIDR : String → Option IPNet
  parseIP : String → Option IP
  lookupIP : String → Except String (List IP)
  checkAuth : Option String
  createTUN : Except String String

/-- The machine's state and the number of commands that were run. -/
structure World where
  os : OS
  ran : Nat

/-- `run`: the error of the command, if any. -/
def World.exec (m : Machine) (w : World) (command : OS → Option OS) : Option String × World :=
  match if m.fails w.ran then none else command w.os with
  | none => (some (m.errText w.ran), { w with ran := w.ran + 1 })
  | some os => (none, ⟨os, w.ran + 1⟩)

/-! ### `Install` -/

structure RouteManager where
  tunName : String
  endpointIP : String
  origGateway : String := ""
  origIface : String := ""
  /-- `origDNSService`, on Windows `origDNSAdapter`. -/
  origDNSService : String := ""
  origDNSServers : List String := []
  tunIndex : String := ""
  dnsBypass : List String := []
  exclusions : List String
  hostBypass : List String := []
  netBypass : List String := []
  installed : Bool := false
deriving DecidableEq, Repr

inductive InstallError
  | defaultRoute (cause : String)
  | tunIndex (cause : String)
  | tunAddress (cause : String)
  | endpointRoute (cause : String)
  | splitDefault (half : Dest) (cause : String)
deriving DecidableEq, Repr

/-- The text of the error; the step that sets the address differs by platform. -/
def InstallError.text (setAddress : String) : InstallError → String
  | .defaultRoute cause => "get default route: " ++ cause
  | .tunIndex cause => "get tun index: " ++ cause
  | .tunAddress cause => setAddress ++ cause
  | .endpointRoute cause => "route add endpoint: " ++ cause
  | .splitDefault half cause => "route add " ++ half.text ++ ": " ++ cause

/-- The address of the other end of the TUN device, and the DNS server of the tunnel. -/
def peer : String := "10.99.0.1"

def publicDNS : List String := ["1.1.1.1", "8.8.8.8"]

/-- Host routes through the gateway; the ones that could be added. -/
def addHosts (m : Machine) (host : String → Dest) (gateway : String) :
    List String → World → List String × World
  | [], w => ([], w)
  | ip :: ips, w =>
    let added := w.exec m (OS.addRoute (host ip) gateway)
    let rest := addHosts m host gateway ips added.2
    (if added.1.isNone then ip :: rest.1 else rest.1, rest.2)

/-- Host bypasses for the IPv4 addresses among these. -/
def bypassHosts (m : Machine) (host : String → Dest) (gateway : String) (ips : List IP)
    (r : RouteManager) (w : World) : RouteManager × World :=
  let added := addHosts m host gateway ((ips.filter IP.v4).map IP.text) w
  ({ r with hostBypass := r.hostBypass ++ added.1 }, added.2)

def bypassNet (m : Machine) (dest : IPNet → Dest) (gateway : String) (net : IPNet)
    (r : RouteManager) (w : World) : RouteManager × World :=
  let added := w.exec m (OS.addRoute (dest net) gateway)
  (if added.1.isNone then { r with netBypass := r.netBypass ++ [net.text] } else r, added.2)

def bypassDomain (m : Machine) (host : String → Dest) (gateway exc : String) (r : RouteManager)
    (w : World) : RouteManager × World :=
  match m.lookupIP exc with
  | .error _ => (r, w)
  | .ok ips => bypassHosts m host gateway ips r w

def trimmed (exc : String) : String := String.ofList (trimSpace exc.toList)

/-- One exclusion on macOS: an address that is not IPv4 is skipped. -/
def excludeDarwin (m : Machine) (gateway exc : String) (r : RouteManager) (w : World) :
    RouteManager × World :=
  if trimmed exc = "" then (r, w)
  else
    match m.parseCIDR (trimmed exc), m.parseIP (trimmed exc) with
    | some net, _ => bypassNet m (.net ·.text) gateway net r w
    | none, some ip => bypassHosts m .host gateway [ip] r w
    | none, none => bypassDomain m .host gateway (trimmed exc) r w

/-- A host on Windows. -/
def hostWindows (ip : String) : Dest := .subnet ip "255.255.255.255"

/-- One exclusion on Windows: an address that is not IPv4 is looked up as a name. -/
def excludeWindows (m : Machine) (gateway exc : String) (r : RouteManager) (w : World) :
    RouteManager × World :=
  if trimmed exc = "" then (r, w)
  else
    match m.parseCIDR (trimmed exc), m.parseIP (trimmed exc) with
    | some net, _ => bypassNet m (fun net => .subnet net.ip net.mask) gateway net r w
    | none, some ⟨ip, true⟩ => bypassHosts m hostWindows gateway [⟨ip, true⟩] r w
    | none, _ => bypassDomain m hostWindows gateway (trimmed exc) r w

def excludeAll (exclude : String → RouteManager → World → RouteManager × World) :
    List String → RouteManager → World → RouteManager × World
  | [], r, w => (r, w)
  | exc :: excs, r, w =>
    let done := exclude exc r w
    excludeAll exclude excs done.1 done.2

/-- The DNS override, whose failure is only logged. -/
def overrideDNS (m : Machine) (service : String) (r : RouteManager) (w : World) :
    RouteManager × World :=
  if service = "" then ({ r with origDNSService := service }, w)
  else
    ({ r with origDNSService := service, origDNSServers := m.readDNS w.os.dns service },
      (w.exec m (OS.setDNS service [peer])).2)

/-- The halves of the default route, up to the first that fails. -/
def addHalves (m : Machine) (name : String) : List Dest → World → Option InstallError × World
  | [], w => (none, w)
  | half :: halves, w =>
    let added := w.exec m (OS.addTunRoute half name)
    match added.1 with
    | some cause => (some (.splitDefault half cause), added.2)
    | none => addHalves m name halves added.2

/-- The steps of `Install` whose failures are only logged: DNS override and bypass routes. -/
def bypassAll (m : Machine) (host : String → Dest) (service : String)
    (exclude : String → RouteManager → World → RouteManager × World) (r : RouteManager) (w : World) :
    RouteManager × World :=
  let overridden := overrideDNS m service r w
  let bypass := addHosts m host r.origGateway publicDNS overridden.2
  let r := { overridden.1 with dnsBypass := overridden.1.dnsBypass ++ bypass.1 }
  excludeAll exclude r.exclusions r bypass.2

/-- `Install` from the endpoint's route to the exclusions. -/
def prepareBypass (m : Machine) (host : String → Dest) (service : String)
    (exclude : String → RouteManager → World → RouteManager × World) (r : RouteManager) (w : World) :
    Option InstallError × RouteManager × World :=
  let endpoint := w.exec m (OS.addRoute (host r.endpointIP) r.origGateway)
  match endpoint.1 with
  | some cause => (some (.endpointRoute cause), r, endpoint.2)
  | none => (none, bypassAll m host service exclude r endpoint.2)

/-- `Install` from the device's address to the exclusions. -/
def prepareDevice (m : Machine) (host : String → Dest) (service : String)
    (exclude : String → RouteManager → World → RouteManager × World) (r : RouteManager) (w : World) :
    Option InstallError × RouteManager × World :=
  let address := w.exec m (OS.setAddress r.tunName)
  match address.1 with
  | some cause => (some (.tunAddress cause), r, address.2)
  | none => prepareBypass m host service exclude r address.2

def prepareDarwin (m : Machine) (r : RouteManager) (w : World) :
    Option InstallError × RouteManager × World :=
  match m.defaultRoute with
  | .error cause => (some (.defaultRoute cause), r, w)
  | .ok (gateway, iface) =>
    let r := { r with origGateway := gateway, origIface := iface }
    prepareDevice m .host (m.networkServiceForIface iface) (excludeDarwin m gateway) r w

def prepareWindows (m : Machine) (r : RouteManager) (w : World) :
    Option InstallError × RouteManager × World :=
  match m.defaultRoute with
  | .error cause => (some (.defaultRoute cause), r, w)
  | .ok (gateway, iface) =>
    let r := { r with origGateway := gateway, origIface := iface }
    match m.tunIndex r.tunName with
    | .error cause => (some (.tunIndex cause), r, w)
    | .ok index =>
      let r := { r with tunIndex := index }
      prepareDevice m hostWindows m.defaultNetAdapter (excludeWindows m gateway) r w

/-- `Install` up to the exclusions. -/
def prepare : Platform → Machine → RouteManager → World → Option InstallError × RouteManager × World
  | .darwin => prepareDarwin
  | .windows => prepareWindows
  | .other => fun _ r w => (none, r, w)

/-- The halves of the default route. -/
def Platform.halves : Platform → List Dest
  | .darwin => [.net "0.0.0.0/1", .net "128.0.0.0/1"]
  | .windows => [.subnet "0.0.0.0" "128.0.0.0", .subnet "128.0.0.0" "128.0.0.0"]
  | .other => []

def install (p : Platform) (m : Machine) (r : RouteManager) (w : World) :
    Option InstallError × RouteManager × World :=
  let prepared := prepare p m r w
  match prepared.1 with
  | some err => (some err, prepared.2)
  | none =>
    let split := addHalves m prepared.2.1.tunName p.halves prepared.2.2
    match split.1 with
    | some err => (some err, prepared.2.1, split.2)
    | none => (none, { prepared.2.1 with installed := true }, split.2)

/-! ### Routes for the answers of DNS -/

/-- One address of a batch: only IPv4, and only if it has no bypass yet. -/
def addDynamicHost (m : Machine) (host : String → Dest) (ip : IP) (r : RouteManager) (w : World) :
    RouteManager × World :=
  if !ip.v4 ∨ ip.text ∈ r.hostBypass then (r, w)
  else
    let added := w.exec m (OS.addRoute (host ip.text) r.origGateway)
    (if added.1.isNone then { r with hostBypass := r.hostBypass ++ [ip.text] } else r, added.2)

def addDynamicHosts (m : Machine) (host : String → Dest) :
    List IP → RouteManager → World → RouteManager × World
  | [], r, w => (r, w)
  | ip :: ips, r, w =>
    let done := addDynamicHost m host ip r w
    addDynamicHosts m host ips done.1 done.2

def addDynamicHostBypassBatch (m : Machine) (host : String → Dest) (ips : List IP) (r : RouteManager)
    (w : World) : RouteManager × World :=
  if ips = [] ∨ r.origGateway = "" then (r, w) else addDynamicHosts m host ips r w

/-! ### `Restore` -/

/-- Commands whose errors are collected under a label. -/
def execAll (m : Machine) : List (String × (OS → Option OS)) → World → List String × World
  | [], w => ([], w)
  | (label, command) :: commands, w =>
    let ran := w.exec m command
    let rest := execAll m commands ran.2
    ((ran.1.map (label ++ ·)).toList ++ rest.1, rest.2)

def restoreDarwin (r : RouteManager) : List (String × (OS → Option OS)) :=
  Platform.darwin.halves.map (fun half =>
      ("delete " ++ half.text ++ ": ", OS.deleteRoute half (· = .device r.tunName))) ++
    [("delete endpoint route: ", OS.deleteRoute (.host r.endpointIP) fun _ => true)] ++
    (if r.origDNSService = "" then [] else
      [("restore dns " ++ r.origDNSService ++ ": ", OS.setDNS r.origDNSService r.origDNSServers)]) ++
    r.dnsBypass.map (fun ip =>
      ("delete dns route " ++ ip ++ ": ", OS.deleteRoute (.host ip) fun _ => true)) ++
    r.hostBypass.map (fun ip =>
      ("delete host bypass " ++ ip ++ ": ", OS.deleteRoute (.host ip) fun _ => true)) ++
    r.netBypass.map (fun net =>
      ("delete net bypass " ++ net ++ ": ", OS.deleteRoute (.net net) fun _ => true))

/-- The commands of `Restore` on Windows whose errors are reported. -/
def restoreWindows (r : RouteManager) : List (String × (OS → Option OS)) :=
  Platform.windows.halves.map (fun half =>
      ("delete " ++ half.text ++ ": ", OS.deleteRoute half fun _ => true)) ++
    [("delete endpoint route: ", OS.deleteRoute (hostWindows r.endpointIP) fun _ => true)]

/-- The commands of `Restore` on Windows whose errors are dropped. -/
def restoreWindowsSilent (m : Machine) (r : RouteManager) : List (OS → Option OS) :=
  (if r.origDNSService = "" then [] else
    match r.origDNSServers with
    | [] => [OS.setDNS r.origDNSService []]
    | first :: others =>
      OS.setDNS r.origDNSService [first] :: others.map (OS.addDNS r.origDNSService)) ++
    r.dnsBypass.map (fun ip => OS.deleteRoute (hostWindows ip) fun _ => true) ++
    r.hostBypass.map (fun ip => OS.deleteRoute (hostWindows ip) fun _ => true) ++
    (r.netBypass.filterMap m.parseCIDR).map
      (fun net => OS.deleteRoute (.subnet net.ip net.mask) fun _ => true)

/-- The commands of `Restore`: the errors that it reports, and what is left. -/
def restoreRun : Platform → Machine → RouteManager → World → List String × World
  | .darwin, m, r, w => execAll m (restoreDarwin r) w
  | .windows, m, r, w =>
    let reported := execAll m (restoreWindows r) w
    (reported.1, (execAll m ((restoreWindowsSilent m r).map ("", ·)) reported.2).2)
  | .other, _, _, w => ([], w)

def restore (p : Platform) (m : Machine) (r : RouteManager) (w : World) :
    Option String × RouteManager × World :=
  if r.installed then
    let done := restoreRun p m r w
    (if done.1 = [] then none else some ("restore routes: " ++ "; ".intercalate done.1),
      { r with installed := false, dnsBypass := [], hostBypass := [], netBypass := [] }, done.2)
  else (none, r, w)

end Ttgo.Client

/-
**`Install`, and then `Restore`.**

On macOS the manager has a list for each kind of route that it adds besides the endpoint's: the public DNS servers,
the excluded hosts and those of DNS answers, the excluded networks. An address is put in a list when its `route add`
has succeeded, and that command refuses a destination that has a route.

* `Undo` — what a command of `Restore` takes back; `restoreDarwin_eq` — the commands are these.
* `RouteManager.split`, `RouteManager.bypasses` — the routes that the manager has added.
* `Noted` — a step of `Install`, or a batch of DNS answers, adds to the table what it adds to the lists.
* `Installed` — what a complete `Install` leaves; `installed_install` — it does.
* `install_restore` — a `Restore` brings back the table and the DNS servers, whatever was added in between.
* `recoverDNS` — what the next start does after a crash; `recovered_blocks_install` — it is not enough.
-/

import Ttgo.Client.Connect
import Ttgo.Lib.Ledger

namespace Ttgo.Client

open Ttgo.Lib
open scoped List

/-! ### The commands of `Restore` -/

/-- What a command of `Restore` takes back. -/
inductive Undo
  | half (dest : Dest) (name : String)
  | endpoint (ip : String)
  | dns (service : String) (servers : List String)
  | dnsRoute (ip : String)
  | host (ip : String)
  | net (cidr : String)
deriving DecidableEq, Repr

namespace Undo

/-- The label of the command's error. -/
def label : Undo → String
  | half dest _ => "delete " ++ dest.text ++ ": "
  | endpoint _ => "delete endpoint route: "
  | dns service _ => "restore dns " ++ service ++ ": "
  | dnsRoute ip => "delete dns route " ++ ip ++ ": "
  | host ip => "delete host bypass " ++ ip ++ ": "
  | net cidr => "delete net bypass " ++ cidr ++ ": "

def command : Undo → OS → Option OS
  | half dest name => OS.deleteRoute dest (· = .device name)
  | dns service servers => OS.setDNS service servers
  | endpoint ip | dnsRoute ip | host ip => OS.deleteRoute (.host ip) fun _ => true
  | net cidr => OS.deleteRoute (.net cidr) fun _ => true

/-- The route that is deleted, if it is one of a manager with this gateway. -/
def route (gateway : String) : Undo → Option (Dest × Via)
  | half dest name => some (dest, .device name)
  | dns _ _ => none
  | endpoint ip | dnsRoute ip | host ip => some (.host ip, .gateway gateway)
  | net cidr => some (.net cidr, .gateway gateway)

/-- The DNS servers after the command. -/
def settle (servers : GoMap String (List String)) : Undo → GoMap String (List String)
  | dns service given => servers.insert service given
  | _ => servers

end Undo

def RouteManager.undoDNS (r : RouteManager) : List Undo :=
  if r.origDNSService = "" then [] else [.dns r.origDNSService r.origDNSServers]

/-- The commands before those for the hosts and the networks. -/
def RouteManager.undoFirst (r : RouteManager) : List Undo :=
  Platform.darwin.halves.map (.half · r.tunName) ++ [.endpoint r.endpointIP] ++ r.undoDNS ++
    r.dnsBypass.map .dnsRoute

def RouteManager.undos (r : RouteManager) : List Undo :=
  r.undoFirst ++ r.hostBypass.map .host ++ r.netBypass.map .net

theorem restoreDarwin_eq (r : RouteManager) :
    restoreDarwin r = r.undos.map fun undo => (undo.label, undo.command) := by
  unfold restoreDarwin RouteManager.undos RouteManager.undoFirst RouteManager.undoDNS
  by_cases service : r.origDNSService = ""
  · simp only [if_pos service, List.map_append, List.map_map]
    rfl
  · simp only [if_neg service, List.map_append, List.map_map]
    rfl

/-! ### The ledger -/

variable {m : Machine} {w : World} {base : GoMap Dest Via} {owed : List (Dest × Via)} {r : RouteManager}

def owedBy (gateway : String) (undos : List Undo) : List (Dest × Via) := undos.filterMap (Undo.route gateway)

@[simp] theorem owedBy_append (gateway : String) (undos others : List Undo) :
    owedBy gateway (undos ++ others) = owedBy gateway undos ++ owedBy gateway others :=
  List.filterMap_append

theorem owedBy_cons (gateway : String) (undo : Undo) (undos : List Undo) :
    owedBy gateway (undo :: undos) = (undo.route gateway).toList ++ owedBy gateway undos := by
  unfold owedBy
  rw [List.filterMap_cons]
  cases undo.route gateway with
  | none => rfl
  | some route => rfl

@[simp] theorem owedBy_undoDNS (gateway : String) (r : RouteManager) : owedBy gateway r.undoDNS = [] := by
  unfold RouteManager.undoDNS
  split
  · rfl
  · rfl

theorem owedBy_hosts (gateway : String) (ips : List String) :
    owedBy gateway (ips.map .host) = ips.map fun ip => (.host ip, .gateway gateway) := by
  simp [owedBy, List.filterMap_map, Function.comp_def, Undo.route]

/-- The routes past the tunnel that the manager has added. -/
def RouteManager.bypasses (r : RouteManager) : List (Dest × Via) :=
  owedBy r.origGateway
    ([.endpoint r.endpointIP] ++ r.dnsBypass.map .dnsRoute ++ r.hostBypass.map .host ++ r.netBypass.map .net)

/-- Its routes into the tunnel. -/
def RouteManager.split (r : RouteManager) : List (Dest × Via) :=
  Platform.darwin.halves.map fun half => (half, .device r.tunName)

theorem owedBy_undos (r : RouteManager) : owedBy r.origGateway r.undos = r.split ++ r.bypasses := by
  simp only [RouteManager.undos, RouteManager.undoFirst, RouteManager.bypasses, owedBy_append, owedBy_undoDNS,
    List.append_assoc, List.nil_append]
  rfl

/-- More routes in the lists. -/
def RouteManager.note (r : RouteManager) (dns hosts nets : List String) : RouteManager :=
  { r with dnsBypass := r.dnsBypass ++ dns, hostBypass := r.hostBypass ++ hosts, netBypass := r.netBypass ++ nets }

/-- Their entries in the ledger. -/
def noteRoutes (gateway : String) (dns hosts nets : List String) : List (Dest × Via) :=
  owedBy gateway (dns.map .dnsRoute ++ hosts.map .host ++ nets.map .net)

theorem note_note (r : RouteManager) (dns hosts nets dns' hosts' nets' : List String) :
    (r.note dns hosts nets).note dns' hosts' nets' = r.note (dns ++ dns') (hosts ++ hosts') (nets ++ nets') := by
  simp [RouteManager.note]

theorem note_nil (r : RouteManager) : r.note [] [] [] = r := by
  simp [RouteManager.note]

theorem bypasses_note (r : RouteManager) (dns hosts nets : List String) :
    (noteRoutes r.origGateway dns hosts nets ++ r.bypasses).Perm (r.note dns hosts nets).bypasses := by
  refine List.perm_iff_count.mpr fun route => ?_
  simp only [noteRoutes, RouteManager.bypasses, RouteManager.note, owedBy_append, List.map_append, List.count_append]
  omega

theorem extended_exec_addRoute (m : Machine) (extended : Extended base owed w.os.routes) (dest : Dest)
    (gateway : String) :
    Extended base ((if (w.exec m (OS.addRoute dest gateway)).1.isNone then [(dest, .gateway gateway)] else []) ++
        owed) (w.exec m (OS.addRoute dest gateway)).2.os.routes := by
  rcases exec_cases m w (OS.addRoute dest gateway) with ⟨ran, -⟩ | ⟨os, ran, -, added⟩
  · rw [ran]
    exact extended
  · rw [ran]
    unfold OS.addRoute at added
    split at added
    · cases added
    · next free =>
      cases added
      exact extended.insert (Option.not_isSome_iff_eq_none.mp free) _

theorem dns_exec_addRoute (m : Machine) (w : World) (dest : Dest) (gateway : String) :
    (w.exec m (OS.addRoute dest gateway)).2.os.dns = w.os.dns := by
  rcases exec_cases m w (OS.addRoute dest gateway) with ⟨ran, -⟩ | ⟨os, ran, -, added⟩
  · rw [ran]
  · rw [ran]
    unfold OS.addRoute at added
    split at added
    · cases added
    · cases added
      rfl

theorem extended_addHosts (m : Machine) (gateway : String) (ips : List String)
    (extended : Extended base owed w.os.routes) :
    Extended base ((addHosts m .host gateway ips w).1.map (fun ip => (.host ip, .gateway gateway)) ++ owed)
      (addHosts m .host gateway ips w).2.os.routes := by
  induction ips generalizing w owed with
  | nil => exact extended
  | cons ip ips ih =>
    have rest := ih (extended_exec_addRoute m extended (.host ip) gateway)
    rw [addHosts]
    dsimp only
    split
    · next ok =>
      rw [if_pos ok] at rest
      exact rest.perm List.perm_middle
    · next failed =>
      rw [if_neg failed] at rest
      exact rest

theorem dns_addHosts (m : Machine) (gateway : String) (ips : List String) (w : World) :
    (addHosts m .host gateway ips w).2.os.dns = w.os.dns := by
  induction ips generalizing w with
  | nil => rfl
  | cons ip ips ih => exact (ih _).trans (dns_exec_addRoute m w _ gateway)

/-! ### The steps -/

/-- A step adds to the lists of the manager what it adds to the table, and changes nothing else. -/
structure Noted (before after : RouteManager × World) (dns hosts nets : List String) : Prop where
  lists : after.1 = before.1.note dns hosts nets
  servers : after.2.os.dns = before.2.os.dns
  routes : ∀ {base owed}, Extended base owed before.2.os.routes →
    Extended base (noteRoutes before.1.origGateway dns hosts nets ++ owed) after.2.os.routes

/-- A step whose additions are all noted. -/
def Faithful (before after : RouteManager × World) : Prop := ∃ dns hosts nets, Noted before after dns hosts nets

theorem Faithful.refl (done : RouteManager × World) : Faithful done done :=
  ⟨[], [], [], (note_nil _).symm, rfl, id⟩

theorem Faithful.trans {first second third : RouteManager × World} (one : Faithful first second)
    (two : Faithful second third) : Faithful first third := by
  obtain ⟨dns, hosts, nets, one⟩ := one
  obtain ⟨dns', hosts', nets', two⟩ := two
  refine ⟨dns ++ dns', hosts ++ hosts', nets ++ nets', ?_, two.servers.trans one.servers, fun extended => ?_⟩
  · rw [two.lists, one.lists, note_note]
  · have both := two.routes (one.routes extended)
    rw [one.lists] at both
    refine both.perm (List.perm_iff_count.mpr fun route => ?_)
    simp only [noteRoutes, RouteManager.note, owedBy_append, List.map_append, List.count_append]
    omega

theorem Faithful.origGateway {before after : RouteManager × World} (step : Faithful before after) :
    after.1.origGateway = before.1.origGateway := by
  obtain ⟨_, _, _, step⟩ := step
  rw [step.lists]
  rfl

theorem faithful_addHosts (m : Machine) {gateway : String} (same : r.origGateway = gateway) (w : World)
    (ips : List String) :
    Faithful (r, w) ({ r with dnsBypass := r.dnsBypass ++ (addHosts m .host gateway ips w).1 },
      (addHosts m .host gateway ips w).2) := by
  subst same
  refine ⟨(addHosts m .host r.origGateway ips w).1, [], [], by simp [RouteManager.note],
    dns_addHosts m r.origGateway ips w, fun extended => ?_⟩
  have added := extended_addHosts m r.origGateway ips extended
  rw [← owedBy_hosts] at added
  simpa [noteRoutes, owedBy, List.filterMap_map, Function.comp_def, Undo.route] using added

theorem faithful_bypassHosts (m : Machine) (ips : List IP) (r : RouteManager) (w : World) :
    Faithful (r, w) (bypassHosts m .host r.origGateway ips r w) := by
  refine ⟨[], (addHosts m .host r.origGateway ((ips.filter IP.v4).map IP.text) w).1, [],
    by simp [RouteManager.note, bypassHosts], dns_addHosts m r.origGateway _ w, fun extended => ?_⟩
  have added := extended_addHosts m r.origGateway ((ips.filter IP.v4).map IP.text) extended
  rw [← owedBy_hosts] at added
  simpa [noteRoutes, bypassHosts] using added

theorem faithful_addRoute (m : Machine) (dest : Dest) (hosts nets : List String) (r : RouteManager) (w : World)
    (entry : noteRoutes r.origGateway [] hosts nets = [(dest, .gateway r.origGateway)]) :
    Faithful (r, w)
      (if (w.exec m (OS.addRoute dest r.origGateway)).1.isNone then r.note [] hosts nets else r,
        (w.exec m (OS.addRoute dest r.origGateway)).2) := by
  have dns := dns_exec_addRoute m w dest r.origGateway
  by_cases ok : (w.exec m (OS.addRoute dest r.origGateway)).1.isNone
  · rw [if_pos ok]
    refine ⟨[], hosts, nets, rfl, dns, fun extended => ?_⟩
    have added := extended_exec_addRoute m extended dest r.origGateway
    rwa [if_pos ok, ← entry] at added
  · rw [if_neg ok]
    refine ⟨[], [], [], (note_nil r).symm, dns, fun extended => ?_⟩
    have added := extended_exec_addRoute m extended dest r.origGateway
    rwa [if_neg ok] at added

theorem faithful_bypassNet (m : Machine) (net : IPNet) (r : RouteManager) (w : World) :
    Faithful (r, w) (bypassNet m (.net ·.text) r.origGateway net r w) := by
  have step := faithful_addRoute m (.net net.text) [] [net.text] r w rfl
  simpa [RouteManager.note, bypassNet] using step

theorem faithful_addDynamicHost (m : Machine) (ip : IP) (r : RouteManager) (w : World) :
    Faithful (r, w) (addDynamicHost m .host ip r w) := by
  unfold addDynamicHost
  split
  · exact .refl _
  · have step := faithful_addRoute m (.host ip.text) [ip.text] [] r w rfl
    simpa [RouteManager.note] using step

theorem faithful_addDynamicHosts (m : Machine) (ips : List IP) (r : RouteManager) (w : World) :
    Faithful (r, w) (addDynamicHosts m .host ips r w) := by
  induction ips generalizing r w with
  | nil => exact .refl _
  | cons ip ips ih =>
    rw [addDynamicHosts]
    exact (faithful_addDynamicHost m ip r w).trans (ih _ _)

theorem faithful_addDynamicHostBypassBatch (m : Machine) (ips : List IP) (r : RouteManager) (w : World) :
    Faithful (r, w) (addDynamicHostBypassBatch m .host ips r w) := by
  unfold addDynamicHostBypassBatch
  split
  · exact .refl _
  · exact faithful_addDynamicHosts m ips r w

theorem faithful_excludeDarwin (m : Machine) (exc : String) (r : RouteManager) (w : World) :
    Faithful (r, w) (excludeDarwin m r.origGateway exc r w) := by
  unfold excludeDarwin
  split
  · exact .refl _
  · split
    · exact faithful_bypassNet m _ r w
    · exact faithful_bypassHosts m _ r w
    · unfold bypassDomain
      split
      · exact .refl _
      · exact faithful_bypassHosts m _ r w

theorem faithful_excludeAll (m : Machine) {gateway : String} (excs : List String) (done : RouteManager × World)
    (same : done.1.origGateway = gateway) :
    Faithful done (excludeAll (excludeDarwin m gateway) excs done.1 done.2) := by
  induction excs generalizing done with
  | nil => exact .refl _
  | cons exc excs ih =>
    subst same
    have first := faithful_excludeDarwin m exc done.1 done.2
    exact first.trans (ih (excludeDarwin m done.1.origGateway exc done.1 done.2) first.origGateway)

theorem overrideDNS_origGateway (m : Machine) (service : String) (r : RouteManager) (w : World) :
    (overrideDNS m service r w).1.origGateway = r.origGateway := by
  unfold overrideDNS
  split
  · rfl
  · rfl

theorem faithful_bypassAll (m : Machine) (service : String) (r : RouteManager) (w : World) :
    Faithful (overrideDNS m service r w) (bypassAll m .host service (excludeDarwin m r.origGateway) r w) := by
  have gateway := overrideDNS_origGateway m service r w
  exact (faithful_addHosts m gateway _ publicDNS).trans (faithful_excludeAll m _ (_, _) gateway)

/-! ### The end of `Install` -/

theorem extended_addHalves {name : String} {halves : List Dest}
    (extended : Extended base owed w.os.routes) (ok : (addHalves m name halves w).1 = none) :
    Extended base (halves.map (fun half => (half, .device name)) ++ owed) (addHalves m name halves w).2.os.routes ∧
      (addHalves m name halves w).2.os.dns = w.os.dns := by
  induction halves generalizing w owed with
  | nil => exact ⟨extended, rfl⟩
  | cons half halves ih =>
    rw [addHalves] at ok ⊢
    rcases exec_cases m w (OS.addTunRoute half name) with ⟨ran, -⟩ | ⟨os, ran, -, added⟩
    · rw [ran] at ok
      cases ok
    · rw [ran] at ok ⊢
      unfold OS.addTunRoute at added
      split at added
      · split at added
        · cases added
        · next free =>
          cases added
          obtain ⟨rest, dns⟩ := ih (extended.insert (Option.not_isSome_iff_eq_none.mp free) _) ok
          exact ⟨rest.perm List.perm_middle, dns⟩
      · cases added

/-- What is on the machine besides what was there: these routes, those in the lists of the manager, and the DNS
servers of the service that it overrides. -/
structure Tracked (m : Machine) (before : OS) (others : List (Dest × Via)) (r : RouteManager) (os : OS) : Prop where
  routes : Extended before.routes (others ++ r.bypasses) os.routes
  servers : (∀ dns service, m.readDNS dns service = (dns.lookup service).getD []) → r.origDNSService ≠ "" →
    r.origDNSServers = (before.dns.lookup r.origDNSService).getD []
  dns : ∀ service, service ≠ r.origDNSService ∨ service = "" → os.dns.lookup service = before.dns.lookup service

variable {before : OS} {others : List (Dest × Via)}

theorem Tracked.faithful {done after : RouteManager × World} (tracked : Tracked m before others done.1 done.2.os)
    (step : Faithful done after) : Tracked m before others after.1 after.2.os := by
  obtain ⟨r', w'⟩ := after
  obtain ⟨dns, hosts, nets, lists, same, routes⟩ := step
  cases lists
  refine ⟨(routes tracked.routes).perm ?_, tracked.servers, fun service other => ?_⟩
  · calc
      noteRoutes done.1.origGateway dns hosts nets ++ (others ++ done.1.bypasses)
      _ ~ others ++ (noteRoutes done.1.origGateway dns hosts nets ++ done.1.bypasses) :=
        List.perm_append_comm_assoc _ _ _
      _ ~ others ++ (done.1.note dns hosts nets).bypasses :=
        (bypasses_note done.1 dns hosts nets).append_left others
  · rw [same]
    exact tracked.dns service other

theorem tracked_overrideDNS (service : String) (routes : Extended before.routes r.bypasses w.os.routes)
    (dns : w.os.dns = before.dns) :
    Tracked m before [] (overrideDNS m service r w).1 (overrideDNS m service r w).2.os := by
  unfold overrideDNS
  split
  · next none => exact ⟨routes, fun _ some => absurd none some, fun other _ => congrArg (·.lookup other) dns⟩
  · next some =>
    rcases exec_cases m w (OS.setDNS service [peer]) with ⟨ran, -⟩ | ⟨os, ran, -, set⟩
    · rw [ran]
      exact ⟨routes, fun exact _ => by rw [exact, dns], fun other _ => congrArg (·.lookup other) dns⟩
    · rw [ran]
      cases set
      refine ⟨routes, fun exact _ => by rw [exact, dns], fun other differs => ?_⟩
      rw [← dns]
      exact AList.lookup_insert_ne (differs.elim id fun blank => blank ▸ Ne.symm some)

theorem tracked_prepareDarwin {tunName endpointIP : String} {exclusions : List String}
    (ok : (prepareDarwin m { tunName, endpointIP, exclusions } w).1 = none) :
    Tracked m w.os [] (prepareDarwin m { tunName, endpointIP, exclusions } w).2.1
      (prepareDarwin m { tunName, endpointIP, exclusions } w).2.2.os := by
  unfold prepareDarwin at ok ⊢
  split at ok
  · cases ok
  next gateway iface _ =>
  unfold prepareDevice at ok ⊢
  dsimp only at ok ⊢
  have address := exec_setAddress_os m w tunName
  split at ok
  · cases ok
  unfold prepareBypass at ok ⊢
  dsimp only at ok ⊢
  generalize (w.exec m (OS.setAddress tunName)).2 = set at address ok ⊢
  have added := extended_exec_addRoute m (.refl set.os.routes) (.host endpointIP) gateway
  have dns := dns_exec_addRoute m set (.host endpointIP) gateway
  split at ok
  · cases ok
  next done =>
    rw [done, address] at added
    rw [address] at dns
    let started : RouteManager := { tunName, endpointIP, exclusions, origGateway := gateway, origIface := iface }
    let endpoint := (set.exec m (OS.addRoute (.host endpointIP) gateway)).2
    have override : Tracked m w.os [] (overrideDNS m (m.networkServiceForIface iface) started endpoint).1 _ :=
      tracked_overrideDNS _ added dns
    exact override.faithful (faithful_bypassAll m (m.networkServiceForIface iface) started endpoint)

/-- What a complete `Install` leaves. -/
structure Installed (m : Machine) (before : OS) (r : RouteManager) (os : OS) : Prop where
  installed : r.installed = true
  tracked : Tracked m before r.split r os

theorem installed_install {tunName endpointIP : String} {exclusions : List String}
    (ok : (install .darwin m { tunName, endpointIP, exclusions } w).1 = none) :
    Installed m w.os (install .darwin m { tunName, endpointIP, exclusions } w).2.1
      (install .darwin m { tunName, endpointIP, exclusions } w).2.2.os := by
  generalize new : ({ tunName, endpointIP, exclusions } : RouteManager) = r at ok ⊢
  cases prepared : (prepare .darwin m r w).1 with
  | some err =>
    rw [install_of_prepare_error prepared] at ok
    cases ok
  | none =>
    have tracked := tracked_prepareDarwin (new ▸ prepared)
    rw [new] at tracked
    cases split : (addHalves m (prepare .darwin m r w).2.1.tunName Platform.darwin.halves
        (prepare .darwin m r w).2.2).1 with
    | some err =>
      rw [install_of_split_error prepared split] at ok
      cases ok
    | none =>
      rw [install_of_split prepared split]
      obtain ⟨routes, still⟩ := extended_addHalves tracked.routes split
      exact ⟨rfl, routes, tracked.servers, fun service other => still ▸ tracked.dns service other⟩

theorem Installed.faithful {done after : RouteManager × World} (done' : Installed m before done.1 done.2.os)
    (step : Faithful done after) : Installed m before after.1 after.2.os := by
  have tracked := done'.tracked.faithful step
  obtain ⟨_, _, _, step⟩ := step
  refine ⟨?_, ?_⟩
  · rw [step.lists]
    exact done'.installed
  · rw [step.lists] at tracked ⊢
    exact tracked

/-- `AddDynamicHostBypassBatch`, call after call. -/
def addBatches (m : Machine) (batches : List (List IP)) (done : RouteManager × World) : RouteManager × World :=
  batches.foldl (fun done ips => addDynamicHostBypassBatch m .host ips done.1 done.2) done

theorem Installed.addBatches {done : RouteManager × World} (installed : Installed m before done.1 done.2.os)
    (batches : List (List IP)) :
    Installed m before (addBatches m batches done).1 (addBatches m batches done).2.os := by
  induction batches generalizing done with
  | nil => exact installed
  | cons ips batches ih =>
    have step := faithful_addDynamicHostBypassBatch m ips done.1 done.2
    exact ih (installed.faithful step)

/-! ### `Restore` -/

theorem deleteRoute_extended {dest : Dest} {via : Via} {test : Via → Bool} {os : OS}
    (extended : Extended base ((dest, via) :: owed) os.routes) (passes : test via = true) :
    ∃ left, os.deleteRoute dest test = some left ∧ Extended base owed left.routes ∧ left.dns = os.dns := by
  have present := extended.present (dest, via) List.mem_cons_self
  unfold OS.deleteRoute
  rw [if_pos (by rw [present]; exact passes)]
  exact ⟨_, rfl, extended.erase, rfl⟩

theorem command_undo {gateway : String} {os : OS} (undo : Undo)
    (extended : Extended base ((undo.route gateway).toList ++ owed) os.routes) :
    ∃ left, undo.command os = some left ∧ Extended base owed left.routes ∧ left.dns = undo.settle os.dns := by
  cases undo with
  | half dest name => exact deleteRoute_extended extended (decide_eq_true rfl)
  | dns service servers => exact ⟨_, rfl, extended, rfl⟩
  | endpoint ip => exact deleteRoute_extended extended rfl
  | dnsRoute ip => exact deleteRoute_extended extended rfl
  | host ip => exact deleteRoute_extended extended rfl
  | net cidr => exact deleteRoute_extended extended rfl

theorem exec_undo {gateway : String} (undo : Undo) (runs : m.fails w.ran = false)
    (extended : Extended base ((undo.route gateway).toList ++ owed) w.os.routes) :
    ∃ os, w.exec m undo.command = (none, ⟨os, w.ran + 1⟩) ∧ Extended base owed os.routes ∧
      os.dns = undo.settle w.os.dns := by
  obtain ⟨os, done, left⟩ := command_undo undo extended
  refine ⟨os, ?_, left⟩
  unfold World.exec
  rw [runs, if_neg Bool.false_ne_true, done]

theorem execAll_undos {gateway : String} (undos : List Undo) (runs : ∀ n ≥ w.ran, m.fails n = false)
    (extended : Extended base (owedBy gateway undos ++ owed) w.os.routes) :
    let done := execAll m (undos.map fun undo => (undo.label, undo.command)) w
    done.1 = [] ∧ Extended base owed done.2.os.routes ∧ done.2.os.dns = undos.foldl Undo.settle w.os.dns := by
  induction undos generalizing w with
  | nil => exact ⟨rfl, extended, rfl⟩
  | cons undo undos ih =>
    have first : Extended base ((undo.route gateway).toList ++ (owedBy gateway undos ++ owed)) w.os.routes := by
      rwa [owedBy_cons, List.append_assoc] at extended
    obtain ⟨os, ran, left, dns⟩ := exec_undo undo (runs w.ran le_rfl) first
    have rest := @ih ⟨os, w.ran + 1⟩ (fun n later => runs n (Nat.le_of_succ_le later)) left
    obtain ⟨errs, routes, servers⟩ := rest
    rw [List.map_cons, execAll, ran]
    exact ⟨errs, routes, servers.trans (congrArg (undos.foldl Undo.settle) dns)⟩

theorem settle_undos (r : RouteManager) (servers : GoMap String (List String)) :
    r.undos.foldl Undo.settle servers =
      if r.origDNSService = "" then servers else servers.insert r.origDNSService r.origDNSServers := by
  have routes (kind : String → Undo) (same : ∀ dns ip, (kind ip).settle dns = dns) (ips : List String)
      (dns : GoMap String (List String)) : (ips.map kind).foldl Undo.settle dns = dns := by
    rw [List.foldl_map]
    exact List.foldl_fixed' (same dns) ips
  unfold RouteManager.undos RouteManager.undoFirst RouteManager.undoDNS
  rw [List.foldl_append, routes .net fun _ _ => rfl, List.foldl_append, routes .host fun _ _ => rfl,
    List.foldl_append, routes .dnsRoute fun _ _ => rfl, List.foldl_append]
  split
  · rfl
  · rfl

theorem Installed.restore (installed : Installed m before r w.os)
    (exact : ∀ dns service, m.readDNS dns service = (dns.lookup service).getD [])
    (runs : ∀ n ≥ w.ran, m.fails n = false) :
    (restore .darwin m r w).1 = none ∧
      (∀ dest, (restore .darwin m r w).2.2.os.routes.lookup dest = before.routes.lookup dest) ∧
      ∀ service, ((restore .darwin m r w).2.2.os.dns.lookup service).getD [] =
        (before.dns.lookup service).getD [] := by
  obtain ⟨up, tracked⟩ := installed
  have owed : Extended before.routes (owedBy r.origGateway r.undos ++ []) w.os.routes := by
    rw [owedBy_undos, List.append_nil]
    exact tracked.routes
  obtain ⟨errs, routes, dns⟩ := execAll_undos r.undos runs owed
  rw [← restoreDarwin_eq] at errs routes dns
  unfold Client.restore restoreRun
  rw [if_pos up]
  dsimp only
  rw [if_pos errs]
  refine ⟨rfl, Extended.nil_iff.mp routes, fun service => ?_⟩
  rw [dns, settle_undos]
  split
  · next blank =>
    have other : service ≠ r.origDNSService ∨ service = "" := by
      rw [blank]
      exact ne_or_eq service ""
    rw [tracked.dns service other]
  · next named =>
    rw [GoMap.lookup_insert_ite]
    split
    · next same =>
      rw [same]
      exact tracked.servers exact named
    · next differs => rw [tracked.dns service (.inl differs)]

/-- **`Install` and then `Restore` is the identity.** -/
theorem install_restore (m : Machine) (w : World) (tunName endpointIP : String) (exclusions : List String)
    (batches : List (List IP)) (exact : ∀ dns service, m.readDNS dns service = (dns.lookup service).getD [])
    (ok : (install .darwin m { tunName, endpointIP, exclusions } w).1 = none)
    (runs : ∀ n ≥ (addBatches m batches (install .darwin m { tunName, endpointIP, exclusions } w).2).2.ran,
      m.fails n = false) :
    let added := addBatches m batches (install .darwin m { tunName, endpointIP, exclusions } w).2
    let done := restore .darwin m added.1 added.2
    done.1 = none ∧ (∀ dest, done.2.2.os.routes.lookup dest = w.os.routes.lookup dest) ∧
      ∀ service, (done.2.2.os.dns.lookup service).getD [] = (w.os.dns.lookup service).getD [] :=
  ((installed_install ok).addBatches batches).restore exact runs

/-- A Mac on Wi-Fi where the route for `1.1.1.1` is refused. -/
def roamingMac : Machine := { wifiMac with fails := fun n => n = 3 }

/-- `8.8.8.8` has a route, and the TUN device is open. -/
def wifiOpened : World where
  os := ((wifiBefore.os.addRoute (.host "8.8.8.8") "192.168.1.254").bind (OS.openTun "utun4")).getD wifiBefore.os
  ran := 0

/-- One public DNS server is refused, the other has a route already, and so has the excluded name: of the routes past
the tunnel only the endpoint's and that of one answer are added, and both go. -/
theorem install_restore_wifi :
    let up := install .darwin roamingMac
      { tunName := "utun4", endpointIP := "203.0.113.7", exclusions := ["vpn"] } wifiOpened
    let added := addBatches roamingMac
      [[⟨"198.51.100.9", true⟩, ⟨"2001:db8::9", false⟩], [⟨"198.51.100.9", true⟩]] up.2
    let done := restore .darwin roamingMac added.1 added.2
    up.1 = none ∧ added.1.dnsBypass = [] ∧ added.1.hostBypass = ["198.51.100.9"] ∧ done.1 = none ∧
      (∀ dest, done.2.2.os.routes.lookup dest = wifiOpened.os.routes.lookup dest) ∧
      ∀ service, (done.2.2.os.dns.lookup service).getD [] = (wifiOpened.os.dns.lookup service).getD [] := by
  refine ⟨by decide, by decide, by decide, install_restore _ _ _ _ _ _ (fun _ _ => rfl) (by decide) ?_⟩
  intro n later
  have late : 4 ≤ n := le_trans (by decide) later
  exact decide_eq_false (by omega)

/-! ### After a crash -/

/-- The process has died, and with it the device and the routes into it. -/
def crash (r : RouteManager) (w : World) : World := { w with os := w.os.closeTun r.tunName }

/-- The destinations that `cleanupStaleRoutes` deletes. -/
def staleRoutes : List Dest := Platform.darwin.halves ++ publicDNS.map Dest.host

/-- The errors of the commands are dropped. -/
def cleanupStaleRoutes (m : Machine) (w : World) : World :=
  (execAll m (staleRoutes.map fun dest => ("", OS.deleteRoute dest fun _ => true)) w).2

/-- `RecoverDNS` at the next start, where `scutil --dns` names these servers. -/
def recoverDNS (m : Machine) (servers : List String) (w : World) : World :=
  if servers.any fun server => "10.99.0.".toList.isPrefixOf server.toList then
    -- `findActiveDNSService`
    let service := dnsService .darwin m
    cleanupStaleRoutes m (if service = "" then w else (w.exec m (OS.setDNS service [])).2)
  else w

theorem lookup_deleteAll {dest : Dest} (dests : List Dest) (apart : dest ∉ dests) :
    (execAll m (dests.map fun dest => ("", OS.deleteRoute dest fun _ => true)) w).2.os.routes.lookup dest =
      w.os.routes.lookup dest := by
  induction dests generalizing w with
  | nil => rfl
  | cons first rest ih =>
    obtain ⟨different, others⟩ := List.ne_and_not_mem_of_not_mem_cons apart
    refine (ih others).trans ?_
    rcases exec_cases m w (OS.deleteRoute first fun _ => true) with ⟨ran, _⟩ | ⟨os, ran, _, deleted⟩
    · rw [ran]
    · rw [ran]
      obtain ⟨-, same⟩ := Option.ite_none_right_eq_some.mp deleted
      cases same
      rw [GoMap.lookup_erase_ite, if_neg different]

theorem lookup_recoverDNS (servers : List String) {dest : Dest}
    (apart : dest ∉ staleRoutes) :
    (recoverDNS m servers w).os.routes.lookup dest = w.os.routes.lookup dest := by
  unfold recoverDNS
  split
  · refine (lookup_deleteAll _ apart).trans ?_
    split
    · rfl
    · rcases exec_cases m w (OS.setDNS (dnsService .darwin m) []) with ⟨ran, _⟩ | ⟨os, ran, _, set⟩
      · rw [ran]
      · rw [ran, ← Option.some.inj set]
  · rfl

theorem gateway_of_bypass {entry : Dest × Via} (member : entry ∈ r.bypasses) : entry.2 = .gateway r.origGateway := by
  obtain ⟨undo, listed, route⟩ := List.mem_filterMap.mp member
  simp only [List.mem_append, List.mem_singleton, List.mem_map] at listed
  obtain ((rfl | ⟨ip, -, rfl⟩) | ⟨ip, -, rfl⟩) | ⟨net, -, rfl⟩ := listed
  all_goals
    cases route
    rfl

theorem Installed.apart {os : OS} (installed : Installed m before r os) {entry : Dest × Via}
    (member : entry ∈ r.bypasses) : entry.1 ∉ Platform.darwin.halves := by
  intro half
  have distinct := installed.tracked.routes.distinct
  rw [List.map_append, List.nodup_append] at distinct
  have split : entry.1 ∈ r.split.map Prod.fst := List.mem_map.mpr ⟨_, List.mem_map_of_mem half, rfl⟩
  exact distinct.2.2 _ split _ (List.mem_map_of_mem member) rfl

/-- **`RecoverDNS` leaves the routes past the tunnel**, but for those of the public DNS servers. So after a crash no
`Install` for the same endpoint succeeds. -/
theorem recovered_blocks_install (m next later : Machine) (w : World) (tunName endpointIP : String)
    (exclusions : List String) (batches : List (List IP)) (servers : List String)
    (ok : (install .darwin m { tunName, endpointIP, exclusions } w).1 = none) :
    let added := addBatches m batches (install .darwin m { tunName, endpointIP, exclusions } w).2
    let recovered := recoverDNS next servers (crash added.1 added.2)
    (∀ entry ∈ added.1.bypasses, entry.1 ∉ publicDNS.map Dest.host →
      recovered.os.routes.lookup entry.1 = some entry.2) ∧
    ∀ (again : RouteManager) (now : World), again.endpointIP = added.1.endpointIP → again.endpointIP ∉ publicDNS →
      again.tunName ∈ now.os.devices → now.os.routes = recovered.os.routes →
        (install .darwin later again now).1 ≠ none := by
  intro added recovered
  have installed : Installed m w.os added.1 added.2.os := (installed_install ok).addBatches batches
  have kept : ∀ entry ∈ added.1.bypasses, entry.1 ∉ publicDNS.map Dest.host →
      recovered.os.routes.lookup entry.1 = some entry.2 := by
    intro entry member apart
    have present := installed.tracked.routes.present entry (List.mem_append_right _ member)
    rw [lookup_recoverDNS servers (List.not_mem_append (installed.apart member) apart)]
    show (GoMap.filterValues _ _).lookup entry.1 = _
    rw [GoMap.lookup_filterValues, present, gateway_of_bypass member]
    rfl
  refine ⟨kept, fun again now same apart opened routes done => ?_⟩
  cases prepared : (prepare .darwin later again now).1 with
  | some err =>
    rw [install_of_prepare_error prepared] at done
    cases done
  | none =>
    have free := ((prepare_spec Platform.noConfusion later again opened).1.mp prepared).free
    rw [routes, same] at free
    have outside : Dest.host added.1.endpointIP ∉ publicDNS.map Dest.host := by simpa [same] using apart
    cases free.symm.trans (kept (.host added.1.endpointIP, .gateway added.1.origGateway) List.mem_cons_self outside)

theorem recovered_blocks_install_wifi :
    let up := install .darwin roamingMac { tunName := "utun4", endpointIP := "203.0.113.7", exclusions := [] }
      wifiOpened
    let recovered := recoverDNS roamingMac [peer] (crash up.2.1 up.2.2)
    ∃ os, recovered.os.openTun "utun4" = some os ∧ (install .darwin roamingMac
      { tunName := "utun4", endpointIP := "203.0.113.7", exclusions := [] } ⟨os, recovered.ran⟩).1 ≠ none := by
  intro up recovered
  refine ⟨_, rfl, ?_⟩
  exact (recovered_blocks_install roamingMac roamingMac roamingMac wifiOpened "utun4" "203.0.113.7" [] [] [peer]
    (by decide)).2 _ _ (by decide) (by decide) (by decide) rfl

end Ttgo.Client

/-
**What `Install` leaves on the machine.**

`Install` runs its commands one after the other and returns at the first failure that it does not only
log. Up to the endpoint's route such a failure leaves nothing; after it the endpoint has a route.

* `exec_cases` — one command: it fails without effect, or it does what it does.
* `Extends`, `Bypassed` — what the steps between the endpoint's route and the halves keep.
* `Prepared` — what `Install` up to the halves leaves (`prepared_prepare`).
* `Ran` — which destinations are still free after a list of `route add`s.
* `addHalves_eq_none_iff` — when the halves are accepted.
* `prepare_spec`, `splitAccepted_iff` — when `Install` comes to the halves, and when they are accepted
  then, in terms of what it is given.
-/

import Ttgo.Client.RouteManager

namespace Ttgo.Client

open Ttgo.Lib

/-! ### What a command does -/

theorem exec_cases (m : Machine) (w : World) (command : OS → Option OS) :
    (w.exec m command = (some (m.errText w.ran), ⟨w.os, w.ran + 1⟩) ∧
        (m.fails w.ran = true ∨ command w.os = none)) ∨
      ∃ os, w.exec m command = (none, ⟨os, w.ran + 1⟩) ∧ m.fails w.ran = false ∧
        command w.os = some os := by
  unfold World.exec
  by_cases fails : m.fails w.ran
  · rw [if_pos fails]
    exact .inl ⟨rfl, .inl fails⟩
  · rw [if_neg fails]
    cases ran : command w.os with
    | none => exact .inl ⟨rfl, .inr rfl⟩
    | some os => exact .inr ⟨os, rfl, by simpa using fails, rfl⟩

/-- Nothing that the machine had is lost, and its devices are the same. -/
structure Extends (before after : OS) : Prop where
  devices : after.devices = before.devices
  routes : ∀ dest via, before.routes.lookup dest = some via → after.routes.lookup dest = some via

namespace Extends

theorem refl (os : OS) : Extends os os := ⟨rfl, fun _ _ route => route⟩

theorem trans {first second third : OS} (one : Extends first second) (two : Extends second third) :
    Extends first third :=
  ⟨two.devices.trans one.devices, fun dest via route => two.routes dest via (one.routes dest via route)⟩

theorem insert {os after : OS} {dest : Dest} {via : Via} (free : os.routes.lookup dest = none)
    (devices : after.devices = os.devices) (routes : after.routes = os.routes.insert dest via) :
    Extends os after := by
  refine ⟨devices, fun other leads route => ?_⟩
  rw [routes, GoMap.lookup_insert_ite, if_neg, route]
  rintro rfl
  rw [free] at route
  cases route

end Extends

theorem addRoute_eq_some {dest : Dest} {gateway : String} {os after : OS}
    (added : OS.addRoute dest gateway os = some after) :
    os.routes.lookup dest = none ∧ after.routes.lookup dest = some (.gateway gateway) ∧
      Extends os after := by
  unfold OS.addRoute at added
  split at added
  · cases added
  · next free =>
    cases added
    have free := Option.not_isSome_iff_eq_none.1 free
    exact ⟨free, AList.lookup_insert _, .insert free rfl rfl⟩

theorem lookup_addRoute_eq_none {dest other : Dest} {gateway : String} {os after : OS}
    (added : OS.addRoute dest gateway os = some after) :
    after.routes.lookup other = none ↔ other ≠ dest ∧ os.routes.lookup other = none := by
  unfold OS.addRoute at added
  split at added
  · cases added
  · cases added
    show (os.routes.insert dest _).lookup other = none ↔ _
    rw [GoMap.lookup_insert_ite]
    by_cases same : other = dest
    · rw [if_pos same]
      exact ⟨nofun, fun all => absurd same all.1⟩
    · rw [if_neg same]
      exact ⟨fun free => ⟨same, free⟩, fun all => all.2⟩

theorem addTunRoute_eq_some_iff {dest : Dest} {name : String} {os : OS}
    (present : name ∈ os.devices) :
    (OS.addTunRoute dest name os).isSome ↔ os.routes.lookup dest = none := by
  unfold OS.addTunRoute
  rw [dif_pos present]
  cases os.routes.lookup dest <;> simp

theorem addTunRoute_eq_some {dest : Dest} {name : String} {os after : OS}
    (added : OS.addTunRoute dest name os = some after) :
    os.routes.lookup dest = none ∧ after.routes = os.routes.insert dest (.device name) ∧
      Extends os after := by
  unfold OS.addTunRoute at added
  split at added
  · split at added
    · cases added
    · next free =>
      cases added
      have free := Option.not_isSome_iff_eq_none.1 free
      exact ⟨free, rfl, .insert free rfl rfl⟩
  · cases added

theorem extends_exec (m : Machine) (w : World) {command : OS → Option OS}
    (extend : ∀ os after, command os = some after → Extends os after) :
    Extends w.os (w.exec m command).2.os := by
  rcases exec_cases m w command with ⟨ran, _⟩ | ⟨os, ran, _, done⟩
  · rw [ran]; exact .refl _
  · rw [ran]; exact extend _ _ done

theorem extends_exec_addRoute (m : Machine) (w : World) (dest : Dest) (gateway : String) :
    Extends w.os (w.exec m (OS.addRoute dest gateway)).2.os :=
  extends_exec m w fun _ _ added => (addRoute_eq_some added).2.2

/-! ### What `Install` leaves -/

/-- What the steps between the endpoint's route and the halves keep. -/
structure Bypassed (before after : RouteManager × World) : Prop where
  tunName : after.1.tunName = before.1.tunName
  installed : after.1.installed = before.1.installed
  extend : Extends before.2.os after.2.os

theorem Bypassed.refl (done : RouteManager × World) : Bypassed done done := ⟨rfl, rfl, .refl _⟩

theorem Bypassed.trans {first second third : RouteManager × World} (one : Bypassed first second)
    (two : Bypassed second third) : Bypassed first third :=
  ⟨two.tunName.trans one.tunName, two.installed.trans one.installed, one.extend.trans two.extend⟩

section Steps

variable (m : Machine) (host : String → Dest) (gateway : String) (r : RouteManager) (w : World)

theorem extends_addHosts (ips : List String) :
    Extends w.os (addHosts m host gateway ips w).2.os := by
  induction ips generalizing w with
  | nil => exact .refl _
  | cons ip ips ih => exact (extends_exec_addRoute m w _ _).trans (ih _)

theorem bypassed_bypassHosts (ips : List IP) :
    Bypassed (r, w) (bypassHosts m host gateway ips r w) :=
  ⟨rfl, rfl, extends_addHosts m host gateway w _⟩

theorem bypassed_bypassNet (dest : IPNet → Dest) (net : IPNet) :
    Bypassed (r, w) (bypassNet m dest gateway net r w) := by
  refine ⟨?_, ?_, extends_exec_addRoute m w _ _⟩
  · simp only [bypassNet]; split <;> rfl
  · simp only [bypassNet]; split <;> rfl

theorem bypassed_bypassDomain (exc : String) :
    Bypassed (r, w) (bypassDomain m host gateway exc r w) := by
  unfold bypassDomain
  split
  · exact .refl _
  · exact bypassed_bypassHosts m host gateway r w _

omit r w in
theorem bypassed_excludeDarwin (exc : String) (r : RouteManager) (w : World) :
    Bypassed (r, w) (excludeDarwin m gateway exc r w) := by
  unfold excludeDarwin
  split
  · exact .refl _
  · split
    · exact bypassed_bypassNet m gateway r w _ _
    · exact bypassed_bypassHosts m _ gateway r w _
    · exact bypassed_bypassDomain m _ gateway r w _

omit r w in
theorem bypassed_excludeWindows (exc : String) (r : RouteManager) (w : World) :
    Bypassed (r, w) (excludeWindows m gateway exc r w) := by
  unfold excludeWindows
  split
  · exact .refl _
  · split
    · exact bypassed_bypassNet m gateway r w _ _
    · exact bypassed_bypassHosts m _ gateway r w _
    · exact bypassed_bypassDomain m _ gateway r w _

theorem bypassed_excludeAll {exclude : String → RouteManager → World → RouteManager × World}
    (each : ∀ exc r w, Bypassed (r, w) (exclude exc r w)) (excs : List String) :
    Bypassed (r, w) (excludeAll exclude excs r w) := by
  induction excs generalizing r w with
  | nil => exact .refl _
  | cons exc excs ih => exact (each exc r w).trans (ih _ _)

theorem bypassed_overrideDNS (service : String) :
    Bypassed (r, w) (overrideDNS m service r w) := by
  unfold overrideDNS
  split
  · exact ⟨rfl, rfl, .refl _⟩
  · refine ⟨rfl, rfl, extends_exec m w fun os after set => ?_⟩
    cases set
    exact ⟨rfl, fun _ _ route => route⟩

theorem bypassed_bypassAll {exclude : String → RouteManager → World → RouteManager × World}
    (each : ∀ exc r w, Bypassed (r, w) (exclude exc r w)) (service : String) :
    Bypassed (r, w) (bypassAll m host service exclude r w) := by
  have overridden := bypassed_overrideDNS m r w service
  have hosts := extends_addHosts m host r.origGateway (overrideDNS m service r w).2 publicDNS
  have noted : Bypassed (overrideDNS m service r w) ({ (overrideDNS m service r w).1 with
      dnsBypass := (overrideDNS m service r w).1.dnsBypass ++
        (addHosts m host r.origGateway publicDNS (overrideDNS m service r w).2).1 },
      (addHosts m host r.origGateway publicDNS (overrideDNS m service r w).2).2) := ⟨rfl, rfl, hosts⟩
  exact overridden.trans (noted.trans (bypassed_excludeAll _ _ each _))

end Steps

/-- **`Install` up to the halves.** An error leaves the machine as it was; otherwise the endpoint has
a route that it did not have. -/
structure Prepared (r : RouteManager) (w : World)
    (done : Option InstallError × RouteManager × World) : Prop where
  installed : done.2.1.installed = r.installed
  failed : done.1.isSome → done.2.2.os = w.os
  ready : done.1 = none → done.2.1.tunName = r.tunName ∧ Extends w.os done.2.2.os ∧
    ∃ dest gateway, w.os.routes.lookup dest = none ∧
      done.2.2.os.routes.lookup dest = some (.gateway gateway)

theorem prepared_prepareBypass {exclude : String → RouteManager → World → RouteManager × World}
    (each : ∀ exc r w, Bypassed (r, w) (exclude exc r w)) (m : Machine) (host : String → Dest)
    (service : String) (r : RouteManager) (w : World) :
    Prepared r w (prepareBypass m host service exclude r w) := by
  unfold prepareBypass
  rcases exec_cases m w (OS.addRoute (host r.endpointIP) r.origGateway) with
    ⟨ran, _⟩ | ⟨os, ran, _, added⟩
  · rw [ran]
    exact ⟨rfl, fun _ => rfl, nofun⟩
  · rw [ran]
    obtain ⟨free, routed, extend⟩ := addRoute_eq_some added
    -- everything from here on only adds to what the endpoint's route made of the machine
    have later := bypassed_bypassAll m host r ⟨os, w.ran + 1⟩ each service
    exact ⟨later.installed, nofun, fun _ => ⟨later.tunName, extend.trans later.extend, _, _, free,
      later.extend.routes _ _ routed⟩⟩

theorem exec_setAddress_os (m : Machine) (w : World) (name : String) :
    (w.exec m (OS.setAddress name)).2.os = w.os := by
  rcases exec_cases m w (OS.setAddress name) with ⟨ran, _⟩ | ⟨os, ran, _, set⟩
  · rw [ran]
  · rw [ran]
    unfold OS.setAddress at set
    split at set
    · exact (Option.some.inj set).symm
    · cases set

theorem Prepared.of_same {r noted : RouteManager} {w ran : World}
    {done : Option InstallError × RouteManager × World} (prepared : Prepared noted ran done)
    (tunName : noted.tunName = r.tunName) (installed : noted.installed = r.installed)
    (same : ran.os = w.os) : Prepared r w done := by
  refine ⟨prepared.installed.trans installed, fun err => (prepared.failed err).trans same,
    fun ok => ?_⟩
  obtain ⟨name, extend, fresh⟩ := prepared.ready ok
  rw [same] at extend fresh
  exact ⟨name.trans tunName, extend, fresh⟩

theorem prepared_prepareDevice {exclude : String → RouteManager → World → RouteManager × World}
    (each : ∀ exc r w, Bypassed (r, w) (exclude exc r w)) (m : Machine) (host : String → Dest)
    (service : String) (r : RouteManager) (w : World) :
    Prepared r w (prepareDevice m host service exclude r w) := by
  have same := exec_setAddress_os m w r.tunName
  unfold prepareDevice
  dsimp only
  split
  · exact ⟨rfl, fun _ => same, nofun⟩
  · exact (prepared_prepareBypass each m host service r _).of_same rfl rfl same

theorem prepared_prepareDarwin (m : Machine) (r : RouteManager) (w : World) :
    Prepared r w (prepareDarwin m r w) := by
  unfold prepareDarwin
  split
  · exact ⟨rfl, fun _ => rfl, nofun⟩
  · exact (prepared_prepareDevice (bypassed_excludeDarwin m _) m _ _ _ w).of_same rfl rfl rfl

theorem prepared_prepareWindows (m : Machine) (r : RouteManager) (w : World) :
    Prepared r w (prepareWindows m r w) := by
  unfold prepareWindows
  split
  · exact ⟨rfl, fun _ => rfl, nofun⟩
  · dsimp only
    split
    · exact ⟨rfl, fun _ => rfl, nofun⟩
    · exact (prepared_prepareDevice (bypassed_excludeWindows m _) m _ _ _ w).of_same rfl rfl rfl

theorem prepared_prepare {p : Platform} (supported : p ≠ .other) (m : Machine) (r : RouteManager)
    (w : World) : Prepared r w (prepare p m r w) := by
  cases p with
  | darwin => exact prepared_prepareDarwin m r w
  | windows => exact prepared_prepareWindows m r w
  | other => exact absurd rfl supported

theorem extends_addHalves (m : Machine) (name : String) (halves : List Dest) (w : World) :
    Extends w.os (addHalves m name halves w).2.os := by
  induction halves generalizing w with
  | nil => exact .refl _
  | cons half halves ih =>
    have added : Extends w.os (w.exec m (OS.addTunRoute half name)).2.os :=
      extends_exec m w fun _ _ added => (addTunRoute_eq_some added).2.2
    unfold addHalves
    dsimp only
    split
    · exact added
    · exact added.trans (ih _)

/-- The commands for the halves will not fail, and none of them has a route yet. -/
def SplitAccepted (m : Machine) (halves : List Dest) (w : World) : Prop :=
  (∀ i < halves.length, m.fails (w.ran + i) = false) ∧
    ∀ half ∈ halves, w.os.routes.lookup half = none

instance (m : Machine) (halves : List Dest) (w : World) : Decidable (SplitAccepted m halves w) :=
  inferInstanceAs (Decidable (_ ∧ _))

theorem splitAccepted_cons {m : Machine} {half : Dest} {halves : List Dest} {w : World}
    {os : OS} {via : Via} (different : half ∉ halves)
    (routes : os.routes = w.os.routes.insert half via) :
    SplitAccepted m (half :: halves) w ↔
      m.fails w.ran = false ∧ w.os.routes.lookup half = none ∧
        SplitAccepted m halves ⟨os, w.ran + 1⟩ := by
  have elsewhere : ∀ other ∈ halves, os.routes.lookup other = w.os.routes.lookup other := by
    intro other member
    rw [routes, AList.lookup_insert_ne (ne_of_mem_of_not_mem member different)]
  constructor
  · rintro ⟨run, free⟩
    refine ⟨run 0 (Nat.zero_lt_succ _), free _ List.mem_cons_self, fun i bound => ?_,
      fun other member => ?_⟩
    · rw [Nat.add_right_comm]
      exact run (i + 1) (Nat.succ_lt_succ bound)
    · refine (elsewhere other member).trans ?_
      exact free other (List.mem_cons_of_mem _ member)
  · rintro ⟨first, free, rest⟩
    refine ⟨fun i bound => ?_, fun other member => ?_⟩
    · cases i with
      | zero => exact first
      | succ i =>
        have run := rest.1 i (Nat.lt_of_succ_lt_succ bound)
        rwa [Nat.add_right_comm] at run
    · rcases List.mem_cons.1 member with rfl | member
      · exact free
      · rw [← elsewhere other member]
        exact rest.2 other member

theorem addHalves_eq_none_iff {m : Machine} {name : String} {halves : List Dest} {w : World}
    (present : name ∈ w.os.devices) (different : halves.Nodup) :
    (addHalves m name halves w).1 = none ↔ SplitAccepted m halves w := by
  induction halves generalizing w with
  | nil => exact ⟨fun _ => ⟨nofun, nofun⟩, fun _ => rfl⟩
  | cons half halves ih =>
    obtain ⟨fresh, different⟩ := List.nodup_cons.1 different
    unfold addHalves
    rcases exec_cases m w (OS.addTunRoute half name) with ⟨ran, why⟩ | ⟨os, ran, runs, added⟩
    · rw [ran]
      refine ⟨nofun, fun accepted => ?_⟩
      rcases why with fails | refused
      · have runs := accepted.1 0 (Nat.zero_lt_succ _)
        rw [Nat.add_zero, fails] at runs
        cases runs
      · have free := (addTunRoute_eq_some_iff present).2 (accepted.2 half List.mem_cons_self)
        rw [refused] at free
        cases free
    · rw [ran]
      obtain ⟨free, routes, extend⟩ := addTunRoute_eq_some added
      rw [splitAccepted_cons fresh routes]
      have present : name ∈ os.devices := extend.devices ▸ present
      exact (ih (w := ⟨os, w.ran + 1⟩) present different).trans
        ⟨fun accepted => ⟨runs, free, accepted⟩, fun all => all.2.2⟩

theorem halves_nodup (p : Platform) : p.halves.Nodup := by
  cases p <;> decide

/-! ### The commands between the endpoint's route and the halves -/

/-- `Install` has run a `route add` for each of these destinations, in this order: it had a route
already, or the command failed, or it has one now. -/
structure Ran (m : Machine) (dests : List Dest) (w done : World) : Prop where
  ran : done.ran = w.ran + dests.length
  free : ∀ dest, done.os.routes.lookup dest = none ↔ w.os.routes.lookup dest = none ∧
    ∀ i, dests[i]? = some dest → m.fails (w.ran + i) = true

namespace Ran

variable {m : Machine} {w middle done : World}

theorem nil : Ran m [] w w :=
  ⟨rfl, fun _ => ⟨fun free => ⟨free, fun _ found => by cases found⟩, fun all => all.1⟩⟩

theorem cons {dest : Dest} {dests : List Dest} {gateway : String}
    (rest : Ran m dests (w.exec m (OS.addRoute dest gateway)).2 done) :
    Ran m (dest :: dests) w done := by
  have shift : (∀ other, (∀ i, (dest :: dests)[i]? = some other → m.fails (w.ran + i) = true) ↔
      (dest = other → m.fails w.ran = true) ∧
        ∀ i, dests[i]? = some other → m.fails (w.ran + 1 + i) = true) := by
    intro other
    constructor
    · refine fun all => ⟨fun same => all 0 (congrArg some same), fun i found => ?_⟩
      rw [Nat.add_right_comm]
      exact all (i + 1) found
    · rintro ⟨first, later⟩ (- | i) found
      · exact first (Option.some.inj found)
      · have failed := later i found
        rwa [Nat.add_right_comm] at failed
  rcases exec_cases m w (OS.addRoute dest gateway) with ⟨ran, why⟩ | ⟨os, ran, runs, added⟩
  · rw [ran] at rest
    refine ⟨rest.ran.trans (Nat.add_right_comm _ _ _), fun other => ?_⟩
    rw [rest.free, shift]
    refine ⟨fun all => ⟨all.1, fun same => ?_, all.2⟩, fun all => ⟨all.1, all.2.2⟩⟩
    rcases why with fails | refused
    · exact fails
    · subst same
      rw [OS.addRoute, all.1] at refused
      cases refused
  · rw [ran] at rest
    obtain ⟨free, routed, extend⟩ := addRoute_eq_some added
    refine ⟨rest.ran.trans (Nat.add_right_comm _ _ _), fun other => ?_⟩
    rw [rest.free, shift, lookup_addRoute_eq_none added, runs]
    constructor
    · rintro ⟨⟨different, none⟩, later⟩
      exact ⟨none, fun same => absurd same.symm different, later⟩
    · rintro ⟨none, first, later⟩
      exact ⟨⟨fun same => absurd (first same.symm) Bool.false_ne_true, none⟩, later⟩

theorem append {first second : List Dest} (one : Ran m first w middle)
    (two : Ran m second middle done) : Ran m (first ++ second) w done := by
  refine ⟨?_, fun dest => ?_⟩
  · rw [two.ran, one.ran, List.length_append, Nat.add_assoc]
  · rw [two.free, one.free, and_assoc, and_congr_right_iff]
    intro _
    constructor
    · rintro ⟨early, late⟩ i found
      rw [List.getElem?_append] at found
      split at found
      · exact early i found
      · next beyond =>
        have failed := late _ found
        rwa [one.ran, Nat.add_assoc, Nat.add_sub_cancel' (Nat.not_lt.1 beyond)] at failed
    · refine fun all => ⟨fun i found => all i ?_, fun i found => ?_⟩
      · rw [List.getElem?_append_left (List.getElem?_eq_some_iff.1 found).1, found]
      · rw [one.ran, Nat.add_assoc]
        refine all (first.length + i) ?_
        rw [List.getElem?_append_right (Nat.le_add_right _ _), Nat.add_sub_cancel_left, found]

end Ran

/-- The host routes that an exclusion that is a name asks for. -/
def domainDests (m : Machine) (host : String → Dest) (exc : String) : List Dest :=
  match m.lookupIP exc with
  | .error _ => []
  | .ok ips => ((ips.filter IP.v4).map IP.text).map host

def exclusionDests (p : Platform) (m : Machine) (exc : String) : List Dest :=
  if trimmed exc = "" then []
  else
    match p, m.parseCIDR (trimmed exc), m.parseIP (trimmed exc) with
    | .darwin, some net, _ => [.net net.text]
    | .darwin, none, some ip => if ip.v4 then [.host ip.text] else []
    | .darwin, none, none => domainDests m .host (trimmed exc)
    | .windows, some net, _ => [.subnet net.ip net.mask]
    | .windows, none, some ⟨ip, true⟩ => [hostWindows ip]
    | .windows, none, _ => domainDests m hostWindows (trimmed exc)
    | .other, _, _ => []

section Steps

variable (m : Machine) (host : String → Dest) (gateway : String) (r : RouteManager) (w : World)

theorem ran_addHosts (ips : List String) :
    Ran m (ips.map host) w (addHosts m host gateway ips w).2 := by
  induction ips generalizing w with
  | nil => exact .nil
  | cons ip ips ih => exact .cons (ih _)

theorem ran_bypassDomain (exc : String) :
    Ran m (domainDests m host exc) w (bypassDomain m host gateway exc r w).2 := by
  unfold domainDests bypassDomain
  cases m.lookupIP exc with
  | error cause => exact .nil
  | ok ips => exact ran_addHosts m host gateway w _

theorem ran_bypassNet (dest : IPNet → Dest) (net : IPNet) :
    Ran m [dest net] w (bypassNet m dest gateway net r w).2 := .cons .nil

omit r w in
theorem ran_excludeDarwin (exc : String) (r : RouteManager) (w : World) :
    Ran m (exclusionDests .darwin m exc) w (excludeDarwin m gateway exc r w).2 := by
  unfold exclusionDests excludeDarwin
  split
  · exact .nil
  · cases m.parseCIDR (trimmed exc) with
    | some net => exact ran_bypassNet m gateway r w (fun net => .net net.text) net
    | none =>
      cases m.parseIP (trimmed exc) with
      | none => exact ran_bypassDomain m .host gateway r w _
      | some ip =>
        have added := ran_addHosts m .host gateway w ((([ip]).filter IP.v4).map IP.text)
        obtain ⟨text, v4⟩ := ip
        cases v4
        · exact added
        · exact added

omit r w in
theorem ran_excludeWindows (exc : String) (r : RouteManager) (w : World) :
    Ran m (exclusionDests .windows m exc) w (excludeWindows m gateway exc r w).2 := by
  unfold exclusionDests excludeWindows
  split
  · exact .nil
  · cases m.parseCIDR (trimmed exc) with
    | some net => exact ran_bypassNet m gateway r w (fun net => .subnet net.ip net.mask) net
    | none =>
      rcases m.parseIP (trimmed exc) with - | ⟨text, v4⟩
      · exact ran_bypassDomain m hostWindows gateway r w _
      · cases v4
        · exact ran_bypassDomain m hostWindows gateway r w _
        · exact ran_addHosts m hostWindows gateway w [text]

theorem ran_excludeAll {exclude : String → RouteManager → World → RouteManager × World}
    {dests : String → List Dest} (each : ∀ exc r w, Ran m (dests exc) w (exclude exc r w).2)
    (excs : List String) : Ran m (excs.flatMap dests) w (excludeAll exclude excs r w).2 := by
  induction excs generalizing r w with
  | nil => exact .nil
  | cons exc excs ih =>
    rw [List.flatMap_cons]
    exact (each exc r w).append (ih _ _)

end Steps

/-! ### `Install` from what it is given -/

def Platform.host : Platform → String → Dest
  | .windows => hostWindows
  | .darwin | .other => .host

/-- The service whose DNS servers are overridden. -/
def dnsService (p : Platform) (m : Machine) : String :=
  match p, m.defaultRoute with
  | .darwin, .ok (_, iface) => m.networkServiceForIface iface
  | .windows, .ok _ => m.defaultNetAdapter
  | _, _ => ""

/-- The routes around the tunnel that `Install` asks for, in order. -/
def bypassDests (p : Platform) (m : Machine) (exclusions : List String) : List Dest :=
  publicDNS.map p.host ++ exclusions.flatMap (exclusionDests p m)

/-- The number of the first of their commands: after the address, the endpoint and the override. -/
def bypassStart (p : Platform) (m : Machine) (w : World) : Nat :=
  w.ran + 2 + if dnsService p m = "" then 0 else 1

theorem exec_setDNS (m : Machine) (w : World) (service : String) (servers : List String) :
    (w.exec m (OS.setDNS service servers)).2.ran = w.ran + 1 ∧
      (w.exec m (OS.setDNS service servers)).2.os.routes = w.os.routes := by
  rcases exec_cases m w (OS.setDNS service servers) with ⟨ran, _⟩ | ⟨os, ran, _, set⟩
  · rw [ran]; exact ⟨rfl, rfl⟩
  · rw [ran]; cases set; exact ⟨rfl, rfl⟩

theorem overrideDNS_spec (m : Machine) (service : String) (r : RouteManager) (w : World) :
    (overrideDNS m service r w).2.ran = w.ran + (if service = "" then 0 else 1) ∧
      (overrideDNS m service r w).2.os.routes = w.os.routes ∧
      (overrideDNS m service r w).1.exclusions = r.exclusions := by
  unfold overrideDNS
  split
  · exact ⟨rfl, rfl, rfl⟩
  · obtain ⟨ran, routes⟩ := exec_setDNS m w service [peer]
    exact ⟨ran, routes, rfl⟩

/-- The state before the halves, from the one before the endpoint's route. -/
structure Bypasses (m : Machine) (endpoint : Dest) (service : String) (dests : List Dest)
    (w done : World) : Prop where
  ran : done.ran = w.ran + 1 + (if service = "" then 0 else 1) + dests.length
  free : ∀ dest, dest ≠ endpoint → (done.os.routes.lookup dest = none ↔
    w.os.routes.lookup dest = none ∧ ∀ i, dests[i]? = some dest →
      m.fails (w.ran + 1 + (if service = "" then 0 else 1) + i) = true)

theorem exec_setAddress (m : Machine) {w : World} {name : String} (present : name ∈ w.os.devices) :
    ((w.exec m (OS.setAddress name)).1 = none ↔ m.fails w.ran = false) ∧
      (w.exec m (OS.setAddress name)).2 = ⟨w.os, w.ran + 1⟩ := by
  have set : OS.setAddress name w.os = some w.os := if_pos present
  rcases exec_cases m w (OS.setAddress name) with ⟨ran, fails | refused⟩ | ⟨os, ran, runs, done⟩
  · rw [ran, fails]
    exact ⟨iff_of_false (Option.some_ne_none _) (Bool.false_ne_true ·.symm), rfl⟩
  · rw [set] at refused
    cases refused
  · rw [ran]
    cases set.symm.trans done
    exact ⟨iff_of_true rfl runs, rfl⟩

theorem spec_of_error {err : InstallError} {ready later : Prop} (unready : ¬ ready) :
    (some err = none ↔ ready) ∧ (some err = none → later) :=
  ⟨iff_of_false (Option.some_ne_none _) unready, fun ok => absurd ok (Option.some_ne_none _)⟩

section Bypass

variable {exclude : String → RouteManager → World → RouteManager × World} {dests : String → List Dest}
  {m : Machine} (each : ∀ exc r w, Ran m (dests exc) w (exclude exc r w).2) (host : String → Dest)
  (service : String) (r : RouteManager) (w : World)

include each

theorem ran_bypassAll :
    Ran m (publicDNS.map host ++ r.exclusions.flatMap dests) (overrideDNS m service r w).2
      (bypassAll m host service exclude r w).2 := by
  rw [← (overrideDNS_spec m service r w).2.2]
  exact (ran_addHosts m host r.origGateway _ publicDNS).append (ran_excludeAll m _ _ each _)

theorem bypasses_bypassAll {endpoint : Dest} {gateway : String} {os : OS}
    (added : OS.addRoute endpoint gateway w.os = some os) :
    Bypasses m endpoint service (publicDNS.map host ++ r.exclusions.flatMap dests) w
      (bypassAll m host service exclude r ⟨os, w.ran + 1⟩).2 := by
  obtain ⟨count, routes, -⟩ := overrideDNS_spec m service r ⟨os, w.ran + 1⟩
  have all := ran_bypassAll each host service r ⟨os, w.ran + 1⟩
  refine ⟨?_, fun dest other => ?_⟩
  · rw [all.ran, count]
  · rw [all.free, routes, count, lookup_addRoute_eq_none added]
    exact ⟨fun held => ⟨held.1.2, held.2⟩, fun held => ⟨⟨other, held.1⟩, held.2⟩⟩

theorem prepareBypass_spec :
    ((prepareBypass m host service exclude r w).1 = none ↔
      m.fails w.ran = false ∧ w.os.routes.lookup (host r.endpointIP) = none) ∧
    ((prepareBypass m host service exclude r w).1 = none →
      Bypasses m (host r.endpointIP) service (publicDNS.map host ++ r.exclusions.flatMap dests) w
        (prepareBypass m host service exclude r w).2.2) := by
  unfold prepareBypass
  rcases exec_cases m w (OS.addRoute (host r.endpointIP) r.origGateway) with
    ⟨ran, why⟩ | ⟨os, ran, runs, added⟩
  · rw [ran]
    refine ⟨⟨fun ok => ?_, fun all => ?_⟩, fun ok => ?_⟩
    · cases ok
    · rcases why with fails | refused
      · rw [fails] at all
        cases all.1
      · rw [OS.addRoute, all.2] at refused
        cases refused
    · cases ok
  · rw [ran]
    exact ⟨⟨fun _ => ⟨runs, (addRoute_eq_some added).1⟩, fun _ => rfl⟩,
      fun _ => bypasses_bypassAll each host service r w added⟩

theorem prepareDevice_spec (present : r.tunName ∈ w.os.devices) :
    ((prepareDevice m host service exclude r w).1 = none ↔
      m.fails w.ran = false ∧ m.fails (w.ran + 1) = false ∧
        w.os.routes.lookup (host r.endpointIP) = none) ∧
    ((prepareDevice m host service exclude r w).1 = none →
      Bypasses m (host r.endpointIP) service (publicDNS.map host ++ r.exclusions.flatMap dests)
        ⟨w.os, w.ran + 1⟩ (prepareDevice m host service exclude r w).2.2) := by
  obtain ⟨accepted, later⟩ := exec_setAddress m present
  unfold prepareDevice
  dsimp only
  cases address : (w.exec m (OS.setAddress r.tunName)).1 with
  | some cause =>
    refine spec_of_error fun all => ?_
    rw [accepted.2 all.1] at address
    cases address
  | none =>
    dsimp only
    rw [later]
    obtain ⟨ready, bypasses⟩ := prepareBypass_spec each host service r ⟨w.os, w.ran + 1⟩
    exact ⟨ready.trans ⟨fun both => ⟨accepted.1 address, both⟩, fun all => all.2⟩, bypasses⟩

end Bypass

/-- What `Install` needs to come to the halves. -/
structure Prepares (p : Platform) (m : Machine) (tunName endpointIP : String) (w : World) :
    Prop where
  gateway : ∃ route, m.defaultRoute = .ok route
  index : p = .windows → ∃ index, m.tunIndex tunName = .ok index
  address : m.fails w.ran = false
  endpoint : m.fails (w.ran + 1) = false
  free : w.os.routes.lookup (p.host endpointIP) = none

theorem prepareDarwin_spec (m : Machine) (r : RouteManager) {w : World}
    (present : r.tunName ∈ w.os.devices) :
    ((prepareDarwin m r w).1 = none ↔ Prepares .darwin m r.tunName r.endpointIP w) ∧
      ((prepareDarwin m r w).1 = none → Bypasses m (.host r.endpointIP) (dnsService .darwin m)
        (bypassDests .darwin m r.exclusions) ⟨w.os, w.ran + 1⟩ (prepareDarwin m r w).2.2) := by
  unfold prepareDarwin
  cases route : m.defaultRoute with
  | error cause =>
    refine spec_of_error fun prepares => ?_
    obtain ⟨_, found⟩ := prepares.gateway
    rw [route] at found
    cases found
  | ok found =>
    obtain ⟨gateway, iface⟩ := found
    obtain ⟨ready, bypasses⟩ := prepareDevice_spec (ran_excludeDarwin m gateway) .host
      (m.networkServiceForIface iface) { r with origGateway := gateway, origIface := iface } w
      present
    have service : dnsService .darwin m = m.networkServiceForIface iface := by
      simp only [dnsService, route]
    refine ⟨ready.trans ⟨fun all => ?_, fun prepares => ?_⟩, fun ok => service ▸ bypasses ok⟩
    · exact ⟨⟨_, route⟩, fun windows => (by cases windows), all.1, all.2.1, all.2.2⟩
    · exact ⟨prepares.address, prepares.endpoint, prepares.free⟩

theorem prepareWindows_spec (m : Machine) (r : RouteManager) {w : World}
    (present : r.tunName ∈ w.os.devices) :
    ((prepareWindows m r w).1 = none ↔ Prepares .windows m r.tunName r.endpointIP w) ∧
      ((prepareWindows m r w).1 = none →
        Bypasses m (hostWindows r.endpointIP) (dnsService .windows m)
          (bypassDests .windows m r.exclusions) ⟨w.os, w.ran + 1⟩ (prepareWindows m r w).2.2) := by
  unfold prepareWindows
  cases route : m.defaultRoute with
  | error cause =>
    refine spec_of_error fun prepares => ?_
    obtain ⟨_, found⟩ := prepares.gateway
    rw [route] at found
    cases found
  | ok found =>
    obtain ⟨gateway, iface⟩ := found
    dsimp only
    cases index : m.tunIndex r.tunName with
    | error cause =>
      refine spec_of_error fun prepares => ?_
      obtain ⟨_, found⟩ := prepares.index rfl
      rw [index] at found
      cases found
    | ok number =>
      obtain ⟨ready, bypasses⟩ := prepareDevice_spec (ran_excludeWindows m gateway) hostWindows
        m.defaultNetAdapter
        { r with origGateway := gateway, origIface := iface, tunIndex := number } w present
      have service : dnsService .windows m = m.defaultNetAdapter := by
        simp only [dnsService, route]
      refine ⟨ready.trans ⟨fun all => ?_, fun prepares => ?_⟩, fun ok => service ▸ bypasses ok⟩
      · exact ⟨⟨_, route⟩, fun _ => ⟨_, index⟩, all.1, all.2.1, all.2.2⟩
      · exact ⟨prepares.address, prepares.endpoint, prepares.free⟩

/-- **When `Install` comes to the halves**, and how it finds the machine then. -/
theorem prepare_spec {p : Platform} (supported : p ≠ .other) (m : Machine) (r : RouteManager)
    {w : World} (present : r.tunName ∈ w.os.devices) :
    ((prepare p m r w).1 = none ↔ Prepares p m r.tunName r.endpointIP w) ∧
      ((prepare p m r w).1 = none → Bypasses m (p.host r.endpointIP) (dnsService p m)
        (bypassDests p m r.exclusions) ⟨w.os, w.ran + 1⟩ (prepare p m r w).2.2) := by
  cases p with
  | darwin => exact prepareDarwin_spec m r present
  | windows => exact prepareWindows_spec m r present
  | other => exact absurd rfl supported

/-- The commands for the halves do not fail, and no half has a route by then: it had none before,
and no bypass that was accepted was for it. -/
def SplitFree (p : Platform) (m : Machine) (exclusions : List String) (w : World) : Prop :=
  (∀ i < p.halves.length,
      m.fails (bypassStart p m w + (bypassDests p m exclusions).length + i) = false) ∧
    ∀ half ∈ p.halves, w.os.routes.lookup half = none ∧
      ∀ i, (bypassDests p m exclusions)[i]? = some half → m.fails (bypassStart p m w + i) = true

theorem host_notMem_halves {p : Platform} (ip : String) : ∀ half ∈ p.halves, half ≠ p.host ip := by
  cases p <;> simp [Platform.halves, Platform.host, hostWindows]

theorem splitAccepted_iff {p : Platform} {m : Machine} {ip : String} {exclusions : List String}
    {w done : World} (bypasses : Bypasses m (p.host ip) (dnsService p m)
      (bypassDests p m exclusions) ⟨w.os, w.ran + 1⟩ done) :
    SplitAccepted m p.halves done ↔ SplitFree p m exclusions w := by
  unfold SplitAccepted SplitFree
  rw [bypasses.ran]
  refine and_congr Iff.rfl (forall₂_congr fun half member => ?_)
  exact bypasses.free half (host_notMem_halves ip half member)

section Install

variable {p : Platform} {m : Machine} {r : RouteManager} {w : World} {err : InstallError}

theorem install_of_prepare_error (failed : (prepare p m r w).1 = some err) :
    install p m r w = (some err, (prepare p m r w).2) := by
  unfold install
  simp only [failed]

theorem install_of_split_error (ready : (prepare p m r w).1 = none)
    (failed : (addHalves m (prepare p m r w).2.1.tunName p.halves (prepare p m r w).2.2).1 =
      some err) :
    install p m r w = (some err, (prepare p m r w).2.1,
      (addHalves m (prepare p m r w).2.1.tunName p.halves (prepare p m r w).2.2).2) := by
  unfold install
  simp only [ready, failed]

theorem install_of_split (ready : (prepare p m r w).1 = none)
    (split : (addHalves m (prepare p m r w).2.1.tunName p.halves (prepare p m r w).2.2).1 = none) :
    install p m r w = (none, { (prepare p m r w).2.1 with installed := true },
      (addHalves m (prepare p m r w).2.1.tunName p.halves (prepare p m r w).2.2).2) := by
  unfold install
  simp only [ready, split]

end Install

end Ttgo.Client

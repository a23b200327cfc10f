/-
**`Disconnect` while DNS answers still come in.**

`Client.Disconnect` runs `Restore` and closes the TUN device. The relay goroutines of the device call
`AddDynamicHostBypassBatch` meanwhile: it holds `r.mu` and puts an address in `hostBypass` after its `route add` has
succeeded. On macOS `Restore` does not take `r.mu`, and nothing tells a batch that `Restore` has begun.

* `step` — `Restore` command by command, and each batch address by address, in any order.
* `Sys.remaining` — what `Restore` still is to undo; `Sys.late` — what it has not seen.
* `Accounted` — the routes on the machine are those that were there, and the ones accounted for so.
* `disconnect_clean_iff` — nothing is left behind exactly if no address is put in the list after `Restore` has read it.
-/

import Ttgo.Client.Restore
import Ttgo.Lib.Run
import Ttgo.Lib.Pool

namespace Ttgo.Client.Disconnect

open Ttgo.Lib
open scoped List

/-! ### The calls -/

/-- The loops of `Restore`: the last two read their list when they begin. -/
inductive Stage
  | first
  | hosts
  | nets
deriving DecidableEq, Repr

/-- Where `Disconnect` is. -/
inductive Closing
  | up
  | undoing (stage : Stage) (todo : List Undo)
  | restored
  | closed
deriving DecidableEq, Repr

/-- Where a call of `AddDynamicHostBypassBatch` is. -/
inductive Batch
  | waiting (ips : List IP)
  | looping (ips : List IP)
  | adding (ip : String) (ips : List IP)
  /-- The route is there, and not yet in `hostBypass`. -/
  | added (ip : String) (ips : List IP)
  | returned
deriving DecidableEq, Repr

structure Sys where
  os : OS
  r : RouteManager
  closing : Closing
  /-- `r.mu` is held. -/
  mu : Bool
  batches : List Batch
  /-- The addresses put in `hostBypass` after `Restore` has read it. -/
  late : List String

/-- After `Install`. -/
def Sys.start (r : RouteManager) (os : OS) : Sys := ⟨os, r, .up, false, [], []⟩

inductive Event
  | call (ips : List IP)
  | lock (index : Nat)
  /-- The head of the loop, where an address may be skipped; the lock goes with the last one. -/
  | next (index : Nat)
  | add (index : Nat) (refused : Bool)
  | record (index : Nat)
  | disconnect
  | undo
  | readHosts
  | readNets
  | clear
  | close
deriving DecidableEq, Repr

/-- `Restore` has not come to its loop over `hostBypass`. -/
def Closing.unread : Closing → Bool
  | .up | .undoing .first _ => true
  | _ => false

def Sys.set (s : Sys) (index : Nat) (batch : Batch) : Sys := { s with batches := s.batches.set index batch }

/-- The head of the loop over the addresses of a batch. -/
def Sys.next (s : Sys) (index : Nat) : List IP → Sys
  | [] => { s.set index .returned with mu := false }
  | ip :: ips =>
    if !ip.v4 ∨ ip.text ∈ s.r.hostBypass then s.set index (.looping ips) else s.set index (.adding ip.text ips)

/-- `route add`. -/
def Sys.add (s : Sys) (index : Nat) (ip : String) (ips : List IP) (refused : Bool) : Sys :=
  match if refused then none else s.os.addRoute (.host ip) s.r.origGateway with
  | none => s.set index (.looping ips)
  | some os => { s.set index (.added ip ips) with os }

/-- The address is put in `hostBypass`. -/
def Sys.record (s : Sys) (index : Nat) (ip : String) (ips : List IP) : Sys :=
  { s.set index (.looping ips) with
    r := { s.r with hostBypass := s.r.hostBypass ++ [ip] }
    late := if s.closing.unread then s.late else s.late ++ [ip] }

def Sys.batchStep (s : Sys) (index : Nat) : Batch → Event → Option Sys
  | .waiting ips, .lock _ => if s.mu then none else some { s.set index (.looping ips) with mu := true }
  | .looping ips, .next _ => some (s.next index ips)
  | .adding ip ips, .add _ refused => some (s.add index ip ips refused)
  | .added ip ips, .record _ => some (s.record index ip ips)
  | _, _ => none

/-- The step of `Disconnect`. A command of `Restore` that fails is only reported. -/
def Sys.closeStep (s : Sys) : Closing → Event → Option Sys
  | .up, .disconnect =>
    some (if s.r.installed then
      { s with r := { s.r with installed := false }, closing := .undoing .first s.r.undoFirst }
    else { s with closing := .restored })
  | .undoing stage (undo :: todo), .undo =>
    some { s with os := (undo.command s.os).getD s.os, closing := .undoing stage todo }
  | .undoing .first [], .readHosts => some { s with closing := .undoing .hosts (s.r.hostBypass.map .host) }
  | .undoing .hosts [], .readNets => some { s with closing := .undoing .nets (s.r.netBypass.map .net) }
  | .undoing .nets [], .clear =>
    some { s with r := { s.r with dnsBypass := [], hostBypass := [], netBypass := [] }, closing := .restored }
  | .restored, .close => some { s with os := s.os.closeTun s.r.tunName, closing := .closed }
  | _, _ => none

def step (s : Sys) (event : Event) : Option Sys :=
  match event with
  | .call ips =>
    let batch := if ips = [] ∨ s.r.origGateway = "" then .returned else .waiting ips
    some { s with batches := s.batches ++ [batch] }
  | .lock index | .next index | .add index _ | .record index =>
    (s.batches[index]?).bind (s.batchStep index · event)
  | _ => s.closeStep s.closing event

variable {s s' : Sys} {event : Event} {events : List Event} {before : OS}

/-- **One step**, inverted. -/
inductive Stepped (s : Sys) : Event → Sys → Prop
  | call (ips : List IP) (batch : Batch) (new : batch = .returned ∨ batch = .waiting ips) :
      Stepped s (.call ips) { s with batches := s.batches ++ [batch] }
  | lock (index : Nat) (ips : List IP) (found : s.batches[index]? = some (.waiting ips)) :
      Stepped s (.lock index) { s.set index (.looping ips) with mu := true }
  | next (index : Nat) (ips : List IP) (found : s.batches[index]? = some (.looping ips)) :
      Stepped s (.next index) (s.next index ips)
  | add (index : Nat) (ip : String) (ips : List IP) (refused : Bool)
      (found : s.batches[index]? = some (.adding ip ips)) :
      Stepped s (.add index refused) (s.add index ip ips refused)
  | record (index : Nat) (ip : String) (ips : List IP) (found : s.batches[index]? = some (.added ip ips)) :
      Stepped s (.record index) (s.record index ip ips)
  | close (event : Event) (next : Sys) (taken : s.closeStep s.closing event = some next) : Stepped s event next

theorem stepped_of_step (taken : step s event = some s') : Stepped s event s' := by
  cases event with
  | call ips =>
    cases taken
    refine .call ips _ ?_
    split
    · exact .inl rfl
    · exact .inr rfl
  | lock index =>
    obtain ⟨batch, found, rest⟩ := Option.bind_eq_some_iff.mp taken
    cases batch with
    | waiting ips =>
      obtain ⟨-, same⟩ := Option.ite_none_left_eq_some.mp rest
      cases same
      exact .lock index ips found
    | looping | adding | added | returned => cases rest
  | next index =>
    obtain ⟨batch, found, rest⟩ := Option.bind_eq_some_iff.mp taken
    cases batch with
    | looping ips =>
      cases rest
      exact .next index ips found
    | waiting | adding | added | returned => cases rest
  | add index refused =>
    obtain ⟨batch, found, rest⟩ := Option.bind_eq_some_iff.mp taken
    cases batch with
    | adding ip ips =>
      cases rest
      exact .add index ip ips refused found
    | waiting | looping | added | returned => cases rest
  | record index =>
    obtain ⟨batch, found, rest⟩ := Option.bind_eq_some_iff.mp taken
    cases batch with
    | added ip ips =>
      cases rest
      exact .record index ip ips found
    | waiting | looping | adding | returned => cases rest
  | disconnect | undo | readHosts | readNets | clear | close => exact .close _ _ taken

/-! ### The account -/

def Closing.todo (r : RouteManager) : Closing → List Undo
  | .up => r.undos
  | .undoing .first todo => todo ++ r.hostBypass.map .host ++ r.netBypass.map .net
  | .undoing .hosts todo => todo ++ r.netBypass.map .net
  | .undoing .nets todo => todo
  | .restored | .closed => []

/-- The address whose route a batch has added and not recorded. -/
def Batch.pending : Batch → Option String
  | .added ip _ => some ip
  | _ => none

/-- The addresses that are not in the list that `Restore` reads. -/
def Sys.unseen (s : Sys) : List String := s.batches.filterMap Batch.pending ++ s.late

/-- What would have to be undone: what `Restore` will, and the rest. -/
def Sys.undos (s : Sys) : List Undo := s.closing.todo s.r ++ s.unseen.map .host

/-- The routes of the manager. -/
def Sys.ledger (s : Sys) : List (Dest × Via) := owedBy s.r.origGateway s.undos

/-- What was there before, without the routes into the device once it is closed. -/
def Sys.base (s : Sys) (before : OS) : GoMap Dest Via :=
  if s.closing = .closed then before.routes.filterValues (· ≠ .device s.r.tunName) else before.routes

/-- **The account.** -/
structure Accounted (before : OS) (s : Sys) : Prop where
  installed : s.closing = .up → s.r.installed = true
  routes : Extended (s.base before) s.ledger s.os.routes

theorem accounted_start {m : Machine} {r : RouteManager} {os : OS} (installed : Installed m before r os) :
    Accounted before (Sys.start r os) := by
  refine ⟨fun _ => installed.installed, ?_⟩
  have routes := installed.tracked.routes
  rw [← owedBy_undos] at routes
  refine routes.perm (.of_eq ?_)
  exact congrArg (owedBy _) (List.append_nil r.undos).symm

theorem Accounted.of_perm (accounted : Accounted before s) (closing : s'.closing = s.closing)
    (gateway : s'.r.origGateway = s.r.origGateway) (name : s'.r.tunName = s.r.tunName)
    (installed : s'.r.installed = s.r.installed) (os : s'.os = s.os) (same : s.undos ~ s'.undos) :
    Accounted before s' := by
  refine ⟨fun up => ?_, ?_⟩
  · rw [installed]
    exact accounted.installed (closing ▸ up)
  · have routes := accounted.routes.perm (same.filterMap (Undo.route s.r.origGateway))
    unfold Sys.base Sys.ledger at *
    rw [closing, name, gateway, os]
    exact routes

theorem undos_set {index : Nat} {old new : Batch} (found : s.batches[index]? = some old)
    (same : new.pending = old.pending) : s.undos ~ (s.set index new).undos := by
  obtain ⟨rest, first, second⟩ := filterMap_set found new Batch.pending
  rw [same] at second
  exact (((first.trans second.symm).append_right s.late).map Undo.host).append_left _

theorem Accounted.call {batch : Batch} (accounted : Accounted before s) (idle : batch.pending = none) :
    Accounted before { s with batches := s.batches ++ [batch] } := by
  refine accounted.of_perm rfl rfl rfl rfl rfl (.of_eq ?_)
  unfold Sys.undos Sys.unseen
  rw [List.filterMap_append, List.filterMap_cons, idle, List.filterMap_nil, List.append_nil]

theorem Accounted.next {index : Nat} {ips : List IP} (accounted : Accounted before s)
    (found : s.batches[index]? = some (.looping ips)) : Accounted before (s.next index ips) := by
  unfold Sys.next
  split
  · exact accounted.of_perm rfl rfl rfl rfl rfl (undos_set found rfl)
  · split
    · exact accounted.of_perm rfl rfl rfl rfl rfl (undos_set found rfl)
    · exact accounted.of_perm rfl rfl rfl rfl rfl (undos_set found rfl)

theorem Accounted.add {index : Nat} {ip : String} {ips : List IP} (accounted : Accounted before s)
    (found : s.batches[index]? = some (.adding ip ips)) (refused : Bool) :
    Accounted before (s.add index ip ips refused) := by
  unfold Sys.add
  split
  · exact accounted.of_perm rfl rfl rfl rfl rfl (undos_set found rfl)
  · next os added =>
    obtain ⟨-, added⟩ := Option.ite_none_left_eq_some.mp added
    obtain ⟨free, same⟩ := Option.ite_none_left_eq_some.mp added
    cases same
    refine ⟨accounted.installed, ?_⟩
    obtain ⟨rest, first, second⟩ := filterMap_set found (.added ip ips) Batch.pending
    have inserted := accounted.routes.insert (Option.not_isSome_iff_eq_none.mp free) (.gateway s.r.origGateway)
    refine inserted.perm ?_
    have grown : .host ip :: s.undos ~ { s.set index (.added ip ips) with os := s.os }.undos := by
      refine List.perm_iff_count.mpr fun undo => ?_
      have before := (first.map Undo.host).count_eq undo
      have after := (second.map Undo.host).count_eq undo
      simp only [Batch.pending, Option.toList_none, Option.toList_some, List.nil_append, List.cons_append,
        List.map_cons, List.count_cons] at before after
      simp only [Sys.undos, Sys.unseen, Sys.set, List.map_append, List.count_append, List.count_cons] at *
      omega
    exact grown.filterMap (Undo.route s.r.origGateway)

theorem todo_record (r : RouteManager) (ip : String) (closing : Closing) :
    (if closing.unread then [Undo.host ip] else []) ++ closing.todo r ~
      closing.todo { r with hostBypass := r.hostBypass ++ [ip] } := by
  have inserted (todo : List Undo) : [Undo.host ip] ++ (todo ++ r.hostBypass.map .host ++ r.netBypass.map .net) ~
      todo ++ (r.hostBypass ++ [ip]).map .host ++ r.netBypass.map .net := by
    refine List.perm_iff_count.mpr fun undo => ?_
    simp only [List.map_append, List.map_cons, List.map_nil, List.count_append]
    omega
  cases closing with
  | up => exact inserted r.undoFirst
  | undoing stage todo =>
    cases stage with
    | first => exact inserted todo
    | hosts | nets => exact .refl _
  | restored | closed => exact .refl _

/-- **The address is put in the list**: `Restore` reads it, or it is late. -/
theorem Accounted.record {index : Nat} {ip : String} {ips : List IP} (accounted : Accounted before s)
    (found : s.batches[index]? = some (.added ip ips)) : Accounted before (s.record index ip ips) := by
  refine accounted.of_perm rfl rfl rfl rfl rfl (List.perm_iff_count.mpr fun undo => ?_)
  obtain ⟨rest, first, second⟩ := filterMap_set found (.looping ips) Batch.pending
  have before := (first.map Undo.host).count_eq undo
  have after := (second.map Undo.host).count_eq undo
  have listed := (todo_record s.r ip s.closing).count_eq undo
  simp only [Batch.pending, Option.toList_none, Option.toList_some, List.nil_append, List.map_append] at before after
  unfold Sys.undos Sys.unseen Sys.record Sys.set
  dsimp only
  cases unread : s.closing.unread with
  | true =>
    rw [if_pos unread] at listed
    simp only [if_pos, List.map_append, List.map_cons, List.map_nil, List.count_append] at *
    omega
  | false =>
    rw [if_neg (by rw [unread]; exact Bool.false_ne_true)] at listed
    simp only [Bool.false_eq_true, if_false, List.map_append, List.map_cons, List.map_nil, List.count_append,
      List.nil_append] at *
    omega

theorem base_eq (isOpen : s.closing ≠ .closed) (before : OS) : s.base before = before.routes := if_neg isOpen

theorem Accounted.undo {stage : Stage} {undo : Undo} {todo : List Undo} (accounted : Accounted before s)
    (doing : s.closing = .undoing stage (undo :: todo)) :
    Accounted before { s with os := (undo.command s.os).getD s.os, closing := .undoing stage todo } := by
  refine ⟨fun up => Closing.noConfusion up, ?_⟩
  have routes := accounted.routes
  rw [base_eq (by rw [doing]; exact Closing.noConfusion)] at routes
  rw [base_eq Closing.noConfusion]
  have owed : s.ledger = (undo.route s.r.origGateway).toList ++
      Sys.ledger { s with os := (undo.command s.os).getD s.os, closing := .undoing stage todo } := by
    unfold Sys.ledger Sys.undos
    rw [doing]
    cases stage with
    | first | hosts | nets => exact owedBy_cons _ _ _
  rw [owed] at routes
  obtain ⟨left, done, kept, -⟩ := command_undo undo routes
  rw [done]
  exact kept

theorem Accounted.read {r : RouteManager} {was closing : Closing} (accounted : Accounted before s)
    (stands : s.closing = was) (wasOpen : was ≠ .closed) (down : closing ≠ .up) (isOpen : closing ≠ .closed)
    (gateway : r.origGateway = s.r.origGateway) (same : closing.todo r = was.todo s.r) :
    Accounted before { s with r, closing } := by
  subst stands
  refine ⟨fun up => absurd up down, ?_⟩
  have routes := accounted.routes
  rw [base_eq wasOpen] at routes
  rw [base_eq isOpen]
  unfold Sys.ledger Sys.undos at *
  rw [← gateway, ← same] at routes
  exact routes

theorem Accounted.closeTun (accounted : Accounted before s) (restored : s.closing = .restored) :
    Accounted before { s with os := s.os.closeTun s.r.tunName, closing := .closed } := by
  refine ⟨fun up => Closing.noConfusion up, ?_⟩
  have routes := accounted.routes
  rw [base_eq (by rw [restored]; exact Closing.noConfusion)] at routes
  have same : Sys.ledger { s with os := s.os.closeTun s.r.tunName, closing := .closed } = s.ledger := by
    unfold Sys.ledger Sys.undos
    rw [restored]
    rfl
  rw [same, Sys.base, if_pos rfl]
  refine Extended.filterValues routes fun entry member => ?_
  have gateways : entry ∈ owedBy s.r.origGateway (s.unseen.map .host) := by
    unfold Sys.ledger Sys.undos at member
    rw [restored] at member
    exact member
  rw [owedBy_hosts] at gateways
  obtain ⟨ip, -, rfl⟩ := List.mem_map.mp gateways
  rfl

theorem Accounted.close {closing : Closing} (accounted : Accounted before s) (stands : s.closing = closing)
    (taken : s.closeStep closing event = some s') : Accounted before s' := by
  unfold Sys.closeStep at taken
  split at taken
  · rw [if_pos (accounted.installed stands)] at taken
    cases taken
    exact accounted.read stands Closing.noConfusion Closing.noConfusion Closing.noConfusion rfl rfl
  · cases taken
    exact accounted.undo stands
  · cases taken
    exact accounted.read stands Closing.noConfusion Closing.noConfusion Closing.noConfusion rfl rfl
  · cases taken
    exact accounted.read stands Closing.noConfusion Closing.noConfusion Closing.noConfusion rfl rfl
  · cases taken
    exact accounted.read stands Closing.noConfusion Closing.noConfusion Closing.noConfusion rfl rfl
  · cases taken
    exact accounted.closeTun stands
  · cases taken

theorem Accounted.step (accounted : Accounted before s) (taken : step s event = some s') : Accounted before s' := by
  cases stepped_of_step taken with
  | call ips batch new =>
    refine accounted.call ?_
    rcases new with rfl | rfl
    · rfl
    · rfl
  | lock index ips found => exact accounted.of_perm rfl rfl rfl rfl rfl (undos_set found rfl)
  | next index ips found => exact accounted.next found
  | add index ip ips refused found => exact accounted.add found refused
  | record index ip ips found => exact accounted.record found
  | close _ _ closes => exact accounted.close rfl closes

/-! ### What is left -/

/-- An address is put in the list only as long as `Restore` has not read it. -/
def InTime (s : Sys) : Event → Prop
  | .record _ => s.closing.unread = true
  | _ => True

instance (s : Sys) : (event : Event) → Decidable (InTime s event)
  | .record _ => inferInstanceAs (Decidable (_ = true))
  | .call _ | .lock _ | .next _ | .add _ _ | .disconnect | .undo | .readHosts | .readNets | .clear | .close =>
    .isTrue trivial

theorem late_closeStep {closing : Closing} (taken : s.closeStep closing event = some s') :
    s'.late = s.late ∧ InTime s event := by
  unfold Sys.closeStep at taken
  split at taken
  · split at taken
    · cases taken
      exact ⟨rfl, trivial⟩
    · cases taken
      exact ⟨rfl, trivial⟩
  all_goals
    cases taken
    try exact ⟨rfl, trivial⟩

theorem late_step (taken : step s event = some s') : s'.late ≠ [] ↔ s.late ≠ [] ∨ ¬ InTime s event := by
  have other (same : s'.late = s.late) (inTime : InTime s event) : s'.late ≠ [] ↔ s.late ≠ [] ∨ ¬ InTime s event := by
    rw [same, or_iff_left (not_not.mpr inTime)]
  cases stepped_of_step taken with
  | call | lock => exact other rfl trivial
  | next index ips =>
    refine other ?_ trivial
    unfold Sys.next
    split
    · rfl
    · split
      · rfl
      · rfl
  | add index ip ips refused =>
    refine other ?_ trivial
    unfold Sys.add
    split
    · rfl
    · rfl
  | record index ip ips =>
    unfold Sys.record
    dsimp only [InTime]
    split
    · next unread => rw [or_iff_left (not_not.mpr unread)]
    · next read => exact iff_of_true (by simp) (.inr read)
  | close _ _ closes =>
    obtain ⟨same, inTime⟩ := late_closeStep closes
    exact other same inTime

def Sys.Finished (s : Sys) : Prop := s.closing = .closed ∧ ∀ batch ∈ s.batches, batch = .returned

/-- The machine has no route that it did not have before. -/
def Clean (before : OS) (s : Sys) : Prop :=
  ∀ dest via, s.os.routes.lookup dest = some via → before.routes.lookup dest = some via

theorem Accounted.clean_iff (accounted : Accounted before s) (finished : s.Finished) :
    Clean before s ↔ s.late = [] := by
  obtain ⟨closed, returned⟩ := finished
  have idle : s.batches.filterMap Batch.pending = [] := by
    refine List.filterMap_eq_nil_iff.mpr fun batch member => ?_
    rw [returned batch member]
    rfl
  have routes := accounted.routes
  unfold Sys.ledger Sys.undos Sys.unseen Sys.base at routes
  rw [idle, closed, if_pos rfl] at routes
  constructor
  · intro clean
    cases late : s.late with
    | nil => rfl
    | cons ip ips =>
      -- the route of a late address is there, and was not before
      have listed : (Dest.host ip, Via.gateway s.r.origGateway) ∈
          owedBy s.r.origGateway (Closing.closed.todo s.r ++ ([] ++ s.late).map .host) := by
        rw [late]
        exact List.mem_cons_self
      have old := clean _ _ (routes.present _ listed)
      have new := routes.new _ listed
      rw [GoMap.lookup_filterValues, old] at new
      cases new
  · intro none dest via routed
    rw [none] at routes
    rw [Extended.nil_iff.mp routes dest, GoMap.lookup_filterValues, Option.filter_eq_some_iff] at routed
    exact routed.1

/-- **No route of the manager is left when all calls have returned, exactly if no address was put in the list after
`Restore` had read it.** -/
theorem disconnect_clean_iff {m : Machine} {r : RouteManager} {os : OS} (installed : Installed m before r os)
    (reached : run step (Sys.start r os) events = some s) (finished : s.Finished) :
    Clean before s ↔ Along step InTime (Sys.start r os) events := by
  have accounted : Accounted before s :=
    run_invariant' (fun _ _ _ held taken => held.step taken) (accounted_start installed) reached
  have recorded := recorded_iff_occurs (fun _ _ _ (_ : True) _ => trivial) (fun _ _ _ _ taken => late_step taken)
    trivial reached
  rw [accounted.clean_iff finished, along_iff_not_occurs, ← not_iff_not, not_not, ← ne_eq, recorded]
  exact or_iff_right fun late => late rfl

def wifiUp : RouteManager × World :=
  (install .darwin roamingMac { tunName := "utun4", endpointIP := "203.0.113.7", exclusions := ["vpn"] } wifiOpened).2

/-- A batch of one address, from its first step to its last. -/
def oneAnswer : List Event := [.call [⟨"198.51.100.9", true⟩], .lock 0, .next 0, .add 0 false, .record 0, .next 0]

/-- `Restore` until it reads the list of hosts. -/
def restoreFirst : List Event := [.disconnect, .undo, .undo, .undo, .undo]

/-- An answer that comes in time: its route is deleted with the others. -/
theorem disconnect_clean_wifi :
    ∃ s, run step (Sys.start wifiUp.1 wifiUp.2.os)
        (restoreFirst ++ oneAnswer ++ [.readHosts, .undo, .readNets, .clear, .close]) = some s ∧ s.Finished ∧
      (Clean wifiOpened.os s ↔ Along step InTime (Sys.start wifiUp.1 wifiUp.2.os)
        (restoreFirst ++ oneAnswer ++ [.readHosts, .undo, .readNets, .clear, .close])) ∧
      Along step InTime (Sys.start wifiUp.1 wifiUp.2.os)
        (restoreFirst ++ oneAnswer ++ [.readHosts, .undo, .readNets, .clear, .close]) := by
  have installed : Installed roamingMac wifiOpened.os wifiUp.1 wifiUp.2.os := installed_install (by decide)
  have finished : ∃ s, run step (Sys.start wifiUp.1 wifiUp.2.os)
      (restoreFirst ++ oneAnswer ++ [.readHosts, .undo, .readNets, .clear, .close]) = some s ∧ s.Finished :=
    ⟨_, rfl, rfl, by decide⟩
  obtain ⟨s, reached, done⟩ := finished
  exact ⟨s, reached, done, disconnect_clean_iff installed reached done, by decide⟩

/-- An answer that comes while `Restore` is past the hosts: its route stays. -/
theorem disconnect_leaves_route :
    ∃ s, run step (Sys.start wifiUp.1 wifiUp.2.os)
        (restoreFirst ++ [.readHosts] ++ oneAnswer ++ [.readNets, .clear, .close]) = some s ∧ s.Finished ∧
      wifiOpened.os.routes.lookup (.host "198.51.100.9") = none ∧
      s.os.routes.lookup (.host "198.51.100.9") = some (.gateway "192.168.1.1") ∧ ¬ Clean wifiOpened.os s := by
  refine ⟨_, rfl, ⟨rfl, by decide⟩, by decide, by decide, fun clean => ?_⟩
  have old := clean (.host "198.51.100.9") (.gateway "192.168.1.1") (by decide)
  revert old
  decide

end Ttgo.Client.Disconnect

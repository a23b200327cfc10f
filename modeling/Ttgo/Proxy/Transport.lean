/-
**Admission over HTTP/2 and over HTTP/3.**

The decisions of `ServeHTTP` read the raw connection and the random of the `ClientHello` from the context of the
request, and only the listener of HTTP/2 puts them there.

* `admitRequest` — `ServeHTTP` up to `Register`, against one state of the tracker; `admitRequest_run` — these are
  steps of the process.
* `admission` — the decision, with the rules.
* `kickUser_conns_iff` — `KickUser` reaches the connections that carry an open stream of the user, in every run.
* `Parity` — a request gets the same decision over both transports, and if it is admitted over HTTP/3,
  `KickUser` reaches it.
* `parity_iff` — that is so exactly for the requests that both transports refuse, for the same reason.
-/

import Ttgo.Proxy.Dispatch

namespace Ttgo.Proxy

open Ttgo.Auth Ttgo.Lib Ttgo.Rules Ttgo.Server

/-! ### The decision -/

/-- The device limit: the count that was compared with it, if one was. -/
def checkDevices (t : ConnTracker) (res : CheckResult) (conn : Option NetConn) :
    Except Refusal (Option Nat) :=
  if (0 < res.maxDevices ∧ conn.isSome) ∧ t.isKnown conn = false then
    if res.maxDevices ≤ t.countUser res.username then
      .error (.deviceLimit (t.countUser res.username) res.maxDevices)
    else .ok (some (t.countUser res.username))
  else .ok none

/-- `ServeHTTP` up to `Register`. -/
def admitRequest (t : ConnTracker) (res : CheckResult) (conn : Option NetConn) : Except Refusal (Option Nat) :=
  match t.isRevoked conn with
  | some reason => .error (.revoked reason)
  | none =>
    if res.username ≠ "" ∧ res.deny ≠ .none then .error (.denied res.deny)
    else if res.username = "" then .error .unauthenticated
    else checkDevices t res conn

variable {s : Sys} {t : ConnTracker} {res : CheckResult} {conn : Option NetConn}

/-! ### As steps of the process -/

/-- Where the handler stands then. -/
def admitPhase : Except Refusal (Option Nat) → Phase
  | .error refusal => .refused refusal
  | .ok active => .admitted active

/-- A stream takes steps that leave the tracker alone. -/
inductive Stream.Decides (t : ConnTracker) : Stream → List Action → Stream → Prop
  | done (x : Stream) : Decides t x [] x
  | act {x y final : Stream} {actions : List Action} (action : Action)
      (acted : x.act t action = some (t, y)) (rest : Decides t y actions final) :
      Decides t x (action :: actions) final

theorem run_decides {x final : Stream} {actions : List Action}
    (decides : Stream.Decides s.tracker x actions final) :
    run step { s with streams := s.streams ++ [x] } (actions.map (.act s.streams.length)) =
      some { s with streams := s.streams ++ [final] } := by
  induction decides with
  | done x => rfl
  | act action acted rest ih =>
    refine run_cons_eq_some.mpr ⟨_, ?_, ih⟩
    simp only [step, List.getElem?_concat_length, Option.bind_eq_bind, Option.bind_some, acted,
      Option.pure_def, List.set_append_right _ _ (Nat.le_refl _), Nat.sub_self, List.set_cons_zero]

/-- The device limit, for a stream that `CheckExt` has let through. -/
theorem decides_devices (t : ConnTracker) {x : Stream} (checking : x.phase = .checking) (user : x.user = res.username)
    (limit : x.maxDevices = res.maxDevices) :
    ∃ actions, x.Decides t actions { x with phase := admitPhase (checkDevices t res x.conn) } := by
  have known : x.act t .isKnown = some (t, { x with phase := x.afterKnown (t.isKnown x.conn) }) := by
    simp [Stream.act, checking]
  unfold checkDevices
  rw [← user, ← limit]
  by_cases limited : (0 < x.maxDevices ∧ x.conn.isSome) ∧ t.isKnown x.conn = false
  · have counting : x.afterKnown (t.isKnown x.conn) = .counting := by
      rw [Stream.afterKnown, if_pos limited.1, limited.2]
      rfl
    rw [counting] at known
    rw [if_pos limited, apply_ite admitPhase]
    exact ⟨_, .act .isKnown known (.act .countUser rfl (.done _))⟩
  · have admitted : x.afterKnown (t.isKnown x.conn) = .admitted none := by
      unfold Stream.afterKnown
      split
      · next asked => rw [if_pos (by simpa [asked] using limited)]
      · rfl
    rw [admitted] at known
    rw [if_neg limited]
    exact ⟨_, .act .isKnown known (.done _)⟩

/-- **The decision is a run of the process**: a request arrives, and nothing happens but its own steps. -/
theorem admitRequest_run (s : Sys) (res : CheckResult) (http1 : Bool) (fresh : ¬ ∃ c ∈ conn, c ∈ s.closed) :
    ∃ (actions : List Action) (x : Stream), run step s (.arrive conn http1 :: actions.map (.act s.streams.length)) =
        some { s with streams := s.streams ++ [x] } ∧
      x.conn = conn ∧ x.phase = admitPhase (admitRequest s.tracker res conn) := by
  let arrived : Stream := { conn := conn, http1 := http1 }
  have asked : arrived.act s.tracker .isRevoked =
      some (s.tracker, { arrived with phase := Stream.afterRevoked (s.tracker.isRevoked conn) }) := rfl
  have decides : ∃ actions x, Stream.Decides s.tracker arrived actions x ∧ x.conn = conn ∧
      x.phase = admitPhase (admitRequest s.tracker res conn) := by
    unfold admitRequest
    cases revoked : s.tracker.isRevoked conn with
    | some reason =>
      rw [revoked] at asked
      exact ⟨_, _, .act _ asked (.done _), rfl, rfl⟩
    | none =>
      rw [revoked] at asked
      let checked : Stream := { arrived with
        user := res.username, maxDevices := res.maxDevices, phase := Stream.afterAuth res }
      have passes {actions : List Action} {x : Stream} (rest : checked.Decides s.tracker actions x) :
          arrived.Decides s.tracker (.isRevoked :: .checkExt res :: actions) x :=
        .act _ asked (.act (.checkExt res) rfl rest)
      by_cases denied : res.username ≠ "" ∧ res.deny ≠ .none
      · refine ⟨_, _, passes (.done _), rfl, ?_⟩
        simp only [checked, Stream.afterAuth, if_pos denied, admitPhase]
      · by_cases nobody : res.username = ""
        · refine ⟨_, _, passes (.done _), rfl, ?_⟩
          simp only [checked, Stream.afterAuth, if_neg denied, if_pos nobody, admitPhase]
        · have checking : checked.phase = .checking := by
            simp only [checked, Stream.afterAuth, if_neg denied, if_neg nobody]
          obtain ⟨actions, decides⟩ := decides_devices s.tracker checking rfl rfl
          refine ⟨_, _, passes decides, rfl, ?_⟩
          simp only [if_neg denied, if_neg nobody]
          rfl
  obtain ⟨actions, x, decides, same, phase⟩ := decides
  exact ⟨actions, x, run_cons_eq_some.mpr ⟨_, if_neg fresh, run_decides decides⟩, same, phase⟩

/-! ### With the rules -/

inductive Admission
  | refused (refusal : Refusal)
  /-- The rules say no. -/
  | forbidden
  | admitted
deriving DecidableEq, Repr

/-- The decision on a request: revocation, credentials, device limit and rules. -/
def admission (t : ConnTracker) (res : CheckResult) (rules : List Rule) (r : Request) (ctx : Context) :
    Admission :=
  match admitRequest t res ctx.rawConn with
  | .error refusal => .refused refusal
  | .ok _ => if allow rules (remoteIP r) ctx.random then .admitted else .forbidden

/-- **`KickUser` reaches the raw connections that carry an open stream of the user, and no others**, whatever the
handlers have done until then. -/
theorem kickUser_conns_iff {events : List Event} (reached : run step .initial events = some s)
    (username reason : String) (raw : NetConn) :
    raw ∈ (s.tracker.kickUser username reason).2 ↔
      ∃ x ∈ s.streams, x.opened = true ∧ x.user = username ∧ x.conn = some raw :=
  ((booked_run reached).conns username).mem_iff.trans mem_openConns

theorem kickUser_conns_iff_alice :
    ∃ s, run step .initial (entering 0 laptop "alice" 0 ++ [.act 0 .isKnown, .act 0 .register]) = some s ∧
      laptop ∈ (s.tracker.kickUser "alice" "").2 := by
  obtain ⟨s, reached, carried⟩ :
      ∃ s, run step .initial (entering 0 laptop "alice" 0 ++ [.act 0 .isKnown, .act 0 .register]) = some s ∧
        ∃ x ∈ s.streams, x.opened = true ∧ x.user = "alice" ∧ x.conn = some laptop :=
    ⟨_, rfl, _, List.mem_singleton_self _, rfl, rfl, rfl⟩
  exact ⟨s, reached, (kickUser_conns_iff reached "alice" "" laptop).mpr carried⟩

/-! ### The two transports -/

/-- A request gets the same decision over HTTP/3 as over HTTP/2, where it comes on the connection `conn`
that begins with the bytes `hello`, and if HTTP/3 admits it, `KickUser` reaches it. -/
structure Parity (t : ConnTracker) (res : CheckResult) (rules : List Rule) (r : Request) (conn : NetConn)
    (hello : List UInt8) : Prop where
  same : admission t res rules r http3Context = admission t res rules r (connContext conn hello)
  reached : admission t res rules r http3Context = .admitted → ∀ reason, ∃ raw ∈ http3Context.rawConn,
    raw ∈ ((t.register res.username http3Context.rawConn).kickUser res.username reason).2

variable {rules : List Rule} {r : Request} {raw : NetConn} {hello : List UInt8}

theorem admission_http3 : admission t res rules r http3Context =
    if res.username ≠ "" ∧ res.deny ≠ .none then .refused (.denied res.deny)
    else if res.username = "" then .refused .unauthenticated
    else if allow rules (remoteIP r) [] then .admitted else .forbidden := by
  have unlimited : checkDevices t res none = .ok none := if_neg (by simp)
  unfold admission admitRequest
  simp only [http3Context, ConnTracker.isRevoked, unlimited]
  by_cases denied : res.username ≠ "" ∧ res.deny ≠ .none
  · rw [if_pos denied, if_pos denied]
  · rw [if_neg denied, if_neg denied]
    by_cases nobody : res.username = ""
    · rw [if_pos nobody, if_pos nobody]
    · rw [if_neg nobody, if_neg nobody]
      rfl

theorem admission_http2 (unrevoked : t.isRevoked (some raw) = none)
    (entitled : res.username ≠ "" ∧ res.deny = .none) :
    admission t res rules r (connContext raw hello) =
      if 0 < res.maxDevices ∧ t.isKnown (some raw) = false ∧ res.maxDevices ≤ t.countUser res.username
      then .refused (.deviceLimit (t.countUser res.username) res.maxDevices)
      else if allow rules (remoteIP r) (extractClientRandom hello) then .admitted else .forbidden := by
  unfold admission admitRequest checkDevices
  simp only [connContext, unrevoked, entitled, ne_eq, not_true_eq_false, and_false, if_false,
    Option.isSome_some, and_true]
  by_cases asked : 0 < res.maxDevices ∧ t.isKnown (some raw) = false
  · rw [if_pos asked]
    by_cases full : res.maxDevices ≤ t.countUser res.username
    · rw [if_pos full, if_pos ⟨asked.1, asked.2, full⟩]
    · rw [if_neg full, if_neg fun hit => full hit.2.2]
      rfl
  · rw [if_neg asked, if_neg fun hit => asked ⟨hit.1, hit.2.1⟩]
    rfl

theorem parity_iff_unadmitted : Parity t res rules r raw hello ↔
    admission t res rules r http3Context = admission t res rules r (connContext raw hello) ∧
      admission t res rules r http3Context ≠ .admitted := by
  constructor
  · rintro ⟨same, reached⟩
    refine ⟨same, fun admitted => ?_⟩
    obtain ⟨found, has, -⟩ := reached admitted ""
    cases has
  · rintro ⟨same, unadmitted⟩
    exact ⟨same, fun admitted => absurd admitted unadmitted⟩

/-- **Parity of the transports.** A request gets the same decision over HTTP/3 as over HTTP/2 and is
reached by `KickUser` if HTTP/3 admits it, exactly if its connection over HTTP/2 is not revoked and its
credentials are refused, or the device limit is not reached and the rules refuse the address both without
a random and with that of the connection. -/
theorem parity_iff : Parity t res rules r raw hello ↔
    t.isRevoked (some raw) = none ∧
      ((res.username = "" ∨ res.deny ≠ .none) ∨
        ¬ (0 < res.maxDevices ∧ t.isKnown (some raw) = false ∧
            res.maxDevices ≤ t.countUser res.username) ∧
          allow rules (remoteIP r) [] = false ∧
          allow rules (remoteIP r) (extractClientRandom hello) = false) := by
  rw [parity_iff_unadmitted]
  cases revoked : t.isRevoked (some raw) with
  | some reason =>
    refine iff_of_false ?_ (fun unrevoked => by cases unrevoked.1)
    rintro ⟨same, -⟩
    have refused : admission t res rules r (connContext raw hello) = .refused (.revoked reason) := by
      simp only [admission, admitRequest, connContext, revoked]
    rw [refused, admission_http3] at same
    split_ifs at same <;> cases same
  | none =>
    by_cases entitled : res.username ≠ "" ∧ res.deny = .none
    · have passed : ¬ (res.username = "" ∨ res.deny ≠ .none) :=
        not_or.mpr ⟨entitled.1, not_not.mpr entitled.2⟩
      rw [admission_http2 revoked entitled, admission_http3, if_neg fun denied => denied.2 entitled.2,
        if_neg entitled.1, or_iff_right passed]
      cases allow rules (remoteIP r) [] with
      | true => simp
      | false => split_ifs <;> simp_all
    · refine iff_of_true ?_ ⟨rfl, .inl ?_⟩
      · rw [admission_http3]
        simp only [admission, admitRequest, connContext, revoked]
        by_cases nobody : res.username = ""
        · simp [nobody]
        · simp [nobody, show res.deny ≠ .none from fun none => entitled ⟨nobody, none⟩]
      · exact (not_and_or.mp entitled).imp not_not.mp id

/-- A user with one device, and a rule against the clients whose random begins with the byte 7. -/
def oneDevice : CheckResult := { username := "alice", maxDevices := 1 }

def noSevens : List Rule := [⟨none, some ⟨[7], none, by simp⟩, .deny⟩]

/-- The first bytes of a connection whose random begins with the byte 7. -/
def sevens : List UInt8 := [22, 3, 1, 0, 38, 1, 0, 0, 34, 3, 3] ++ List.replicate 32 7

def toWeb : Request := ⟨"192.0.2.9:443".toList, [], "192.0.2.2:4000".toList, []⟩

/-- Over HTTP/3 neither the device limit nor the rule is applied, and `KickUser` finds no connection. -/
theorem admitted_unlimited :
    let busy := ConnTracker.empty.register "alice" (some laptop)
    admission busy oneDevice [] toWeb (connContext phone []) = .refused (.deviceLimit 1 1) ∧
      admission busy oneDevice [] toWeb http3Context = .admitted ∧
      admission .empty oneDevice noSevens toWeb (connContext phone sevens) = .forbidden ∧
      admission .empty oneDevice noSevens toWeb http3Context = .admitted ∧
      ((ConnTracker.empty.register "alice" http3Context.rawConn).kickUser "alice" "").2 = [] ∧
      ¬ Parity .empty oneDevice [] toWeb phone [] := by
  refine ⟨by decide, by decide, by decide, by decide, by decide, fun parity => ?_⟩
  obtain ⟨raw, has, -⟩ := parity.reached (by decide) ""
  cases has

end Ttgo.Proxy

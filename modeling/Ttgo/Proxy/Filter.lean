/-
**The rules and the credentials of a request.**

`ServeHTTP` of `internal/proxy/handler.go` from its beginning to the pseudo-hosts: the revocation, `CheckExt`, the
device limit, `Register`, and only then the rules.

* `serveHTTP` — the whole decision on one `Proxy-Authorization` header, with what it leaves behind: whether the store
  was asked, the cache, whether the connection was registered.
* `FiltersFirst` — a client that the rules refuse learns nothing about credentials and leaves nothing behind.
* `filtersFirst_iff` — that holds of the connections that were revoked, and of no other that the rules refuse.
-/

import Mathlib.Data.Set.Finite.Basic
import Ttgo.Auth.Credentials
import Ttgo.Proxy.Transport

namespace Ttgo.Proxy

open Ttgo.Auth Ttgo.Lib Ttgo.Rules Ttgo.Server

/-! ### One request -/

/-- `lookupEntry` goes on to the store. -/
def asksStore (a : Authenticator) (header : String) (now : Int) : Bool :=
  match parseBasic header with
  | none => false
  | some (username, _) =>
    match a.cache.lookup username with
    | none => true
    | some entry => entry.cacheExpiresAt ≤ now

theorem checkExt_of_not_asksStore {a : Authenticator} {header : String} {clock : Clock}
    (unasked : asksStore a header clock.read = false) (answers answers' : String → Answers) :
    checkExt a header answers clock = checkExt a header answers' clock ∧
      (checkExt a header answers clock).2 = a := by
  unfold asksStore at unasked
  unfold checkExt
  cases parsed : parseBasic header with
  | none => exact ⟨rfl, rfl⟩
  | some credentials =>
    obtain ⟨username, password⟩ := credentials
    rw [parsed] at unasked
    dsimp only at unasked ⊢
    unfold lookupEntry
    cases found : a.cache.lookup username with
    | none => simp [found] at unasked
    | some entry =>
      have live : clock.read < entry.cacheExpiresAt := by simpa [found] using unasked
      simp only [if_pos live, and_self]

/-- What the handler has that does not change from request to request. -/
structure Setup where
  rules : List Rule
  muxes : Muxes
  authFailureCode : Int

/-- What a request is given, but for its header: the state of the process, the answers of the store and the clock. -/
structure Scene where
  tracker : ConnTracker
  auth : Authenticator
  answers : String → Answers
  clock : Clock

/-- What becomes of a request, and what it leaves behind. -/
structure Outcome where
  served : Served
  asked : Bool
  cache : Cache
  registered : Bool

/-- `ServeHTTP` on a CONNECT request, up to the handler of its target. -/
def serveHTTP (h : Setup) (scene : Scene) (ctx : Context) (r : Request) (header : String) : Outcome :=
  match scene.tracker.isRevoked ctx.rawConn with
  | some reason =>
    ⟨.error (Refusal.response h.authFailureCode (.revoked reason)), false, scene.auth.cache, false⟩
  | none =>
    let checked := checkExt scene.auth header scene.answers scene.clock
    let asked := asksStore scene.auth header scene.clock.read
    match admitRequest scene.tracker checked.1 ctx.rawConn with
    | .error refusal => ⟨.error (refusal.response h.authFailureCode), asked, checked.2.cache, false⟩
    | .ok _ => ⟨dispatch h.muxes h.rules ctx r, asked, checked.2.cache, ctx.rawConn.isSome⟩

/-! ### A client that the rules refuse -/

/-- A request leaves nothing behind. -/
structure Traceless (scene : Scene) (outcome : Outcome) : Prop where
  asked : outcome.asked = false
  cache : outcome.cache = scene.auth.cache
  registered : outcome.registered = false

/-- **The rules come first**: if they refuse the client, then whatever the header says, the response is the same and
nothing is left behind. -/
def FiltersFirst (h : Setup) (scene : Scene) (ctx : Context) (r : Request) : Prop :=
  allow h.rules (remoteIP r) ctx.random = false → ∀ header header',
    (serveHTTP h scene ctx r header).served = (serveHTTP h scene ctx r header').served ∧
    Traceless scene (serveHTTP h scene ctx r header) ∧ Traceless scene (serveHTTP h scene ctx r header')

theorem exists_uncached (cache : Cache) :
    ∃ username : String, ':' ∉ username.toList ∧ cache.lookup username = none := by
  have injective : Function.Injective fun n : Nat => String.ofList (List.replicate n 'a') := by
    intro n m same
    have lists : List.replicate n 'a' = List.replicate m 'a' := by simpa using congrArg String.toList same
    simpa using congrArg List.length lists
  obtain ⟨username, ⟨n, rfl⟩, fresh⟩ :=
    (Set.infinite_range_of_injective injective).exists_notMem_finset cache.keys.toFinset
  refine ⟨_, ?_, AList.lookup_eq_none.mpr fun member => fresh (List.mem_toFinset.mpr member)⟩
  simp [List.mem_replicate]

variable {scene : Scene} {ctx : Context}

theorem serveHTTP_asks (h : Setup) (r : Request) (unrevoked : scene.tracker.isRevoked ctx.rawConn = none)
    {username : String} (clean : ':' ∉ username.toList) (fresh : scene.auth.cache.lookup username = none)
    (password : String) : (serveHTTP h scene ctx r (authBasic username password)).asked = true := by
  have asks : asksStore scene.auth (authBasic username password) scene.clock.read = true := by
    rw [asksStore, parseBasic_authBasic clean]
    simp only [fresh]
  rw [serveHTTP, unrevoked]
  dsimp only
  split
  · exact asks
  · exact asks

/-- **The rules come first exactly on a connection that was revoked**, of those that the rules refuse. -/
theorem filtersFirst_iff (h : Setup) (scene : Scene) (ctx : Context) (r : Request) :
    FiltersFirst h scene ctx r ↔
      allow h.rules (remoteIP r) ctx.random = true ∨ scene.tracker.isRevoked ctx.rawConn ≠ none := by
  constructor
  · intro first
    by_contra neither
    obtain ⟨refused, unrevoked⟩ := not_or.mp neither
    obtain ⟨username, clean, fresh⟩ := exists_uncached scene.auth.cache
    have asked := serveHTTP_asks h r (not_not.mp unrevoked) clean fresh ""
    have unasked := (first (Bool.eq_false_of_not_eq_true refused) (authBasic username "") "").2.1.asked
    rw [asked] at unasked
    cases unasked
  · intro either refused header header'
    have revoked := either.resolve_left (by simp [refused])
    obtain ⟨reason, found⟩ := Option.ne_none_iff_exists'.mp revoked
    have outcome : ∀ header, serveHTTP h scene ctx r header =
        ⟨.error (Refusal.response h.authFailureCode (.revoked reason)), false, scene.auth.cache, false⟩ := by
      intro header
      rw [serveHTTP, found]
    rw [outcome, outcome]
    exact ⟨rfl, ⟨rfl, rfl, rfl⟩, ⟨rfl, rfl, rfl⟩⟩

def closedSetup : Setup := ⟨[⟨none, none, .deny⟩], ⟨true, true⟩, 407⟩

def oneUserScene : Scene where
  tracker := .empty
  auth := new 0
  answers username := if username = "alice" then ⟨some "a", some 0, none⟩ else ⟨some "", some 0, none⟩
  clock := ⟨0, 0, 0⟩

/-- **A client that the rules refuse can tell right credentials from wrong ones**: a `403` for the first, a `407` for
the others. Both ask the store, and the first is registered. -/
theorem refused_client_learns :
    let right := serveHTTP closedSetup oneUserScene (connContext phone []) toWeb (authBasic "alice" "a")
    let wrong := serveHTTP closedSetup oneUserScene (connContext phone []) toWeb (authBasic "alice" "b")
    allow closedSetup.rules (remoteIP toWeb) (connContext phone []).random = false ∧
      right.served = .error ⟨403, [], "Forbidden\n"⟩ ∧ right.asked = true ∧ right.registered = true ∧
      wrong.served = .error ⟨407, [proxyAuthenticate], "Proxy Authentication Required\n"⟩ ∧ wrong.asked = true ∧
      ¬ FiltersFirst closedSetup oneUserScene (connContext phone []) toWeb := by
  have clean : ':' ∉ "alice".toList := by decide
  have refused : allow closedSetup.rules (remoteIP toWeb) (connContext phone []).random = false := by decide
  have asked : ∀ password, (serveHTTP closedSetup oneUserScene (connContext phone []) toWeb
      (authBasic "alice" password)).asked = true := serveHTTP_asks closedSetup toWeb rfl clean rfl
  refine ⟨refused, ?_, asked "a", ?_, ?_, asked "b", fun first => ?_⟩
  · simp only [serveHTTP, checkExt, parseBasic_authBasic clean]
    decide
  · simp only [serveHTTP, checkExt, parseBasic_authBasic clean]
    decide
  · simp only [serveHTTP, checkExt, parseBasic_authBasic clean]
    decide
  · have unasked := (first refused (authBasic "alice" "a") "").2.1.asked
    rw [asked] at unasked
    cases unasked

end Ttgo.Proxy

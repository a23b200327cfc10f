/-
**Whose address the rules see.**

`remoteIP` takes the address of a client from the first entry of `X-Forwarded-For`, and from the TCP peer only where
that names none. Every header of a request is written by the client.

* `Header`, `Incoming` — a request with its headers; `SameButHeaders` — two requests of one connection, with the same
  target and credentials.
* `forwarded`, `peerIP` — the address that a header names, and the one of the peer.
* `separates` — two addresses that differ are told apart by a rule.
* `rules_headers_iff` — two requests that differ in their headers get the same decision of every list of rules:
  exactly if both headers lead to one address.
-/

import Ttgo.Lib.GoHost
import Ttgo.Proxy.Dispatch
import Ttgo.Rules.Meaning

namespace Ttgo.Proxy

open Ttgo.Lib Ttgo.Rules Ttgo.Server

/-! ### Requests with headers -/

/-- `http.Header`, by canonical keys. -/
abbrev Header := GoMap Text (List Text)

/-- `Header.Get`: the first value of a key, empty without one. -/
def Header.get (h : Header) (key : Text) : Text := ((h.lookup key).getD []).headD []

def proxyAuthorizationKey : Text := "Proxy-Authorization".toList

def xForwardedForKey : Text := "X-Forwarded-For".toList

/-- A request as it arrives. -/
structure Incoming where
  host : Text
  urlHost : Text
  remoteAddr : Text
  header : Header

/-- What `ServeHTTP` reads of it after `Register`. -/
def Incoming.request (r : Incoming) : Request :=
  ⟨r.host, r.urlHost, r.remoteAddr, Header.get r.header xForwardedForKey⟩

/-- Two requests on one connection, with the same target and the same credentials. Their other headers are any. -/
structure SameButHeaders (first second : Incoming) : Prop where
  remoteAddr : first.remoteAddr = second.remoteAddr
  host : first.host = second.host
  urlHost : first.urlHost = second.urlHost
  credentials : Header.get first.header proxyAuthorizationKey = Header.get second.header proxyAuthorizationKey

/-! ### The two sources of the address -/

/-- The address that a value of `X-Forwarded-For` names, if it names one. -/
def forwarded (xForwardedFor : Text) : Option IP :=
  if xForwardedFor = [] then none else parseIP (trimSpace (xForwardedFor.takeWhile (· ≠ ',')))

/-- The address of the TCP peer. -/
def peerIP (remoteAddr : Text) : IP :=
  match splitHostPort remoteAddr with
  | some (host, _) => (parseIP host).getD []
  | none => []

theorem remoteIP_eq (r : Request) : remoteIP r = (forwarded r.xForwardedFor).getD (peerIP r.remoteAddr) := by
  unfold remoteIP
  cases named : forwarded r.xForwardedFor with
  | none =>
    rw [forwarded] at named
    simp only [named, Option.getD_none]
    rfl
  | some ip =>
    rw [forwarded] at named
    simp only [named, Option.getD_some]

/-- The address that the header of a request leads to: the one that it names, or the peer's. -/
def Incoming.origin (r : Incoming) : IP :=
  (forwarded (Header.get r.header xForwardedForKey)).getD (peerIP r.remoteAddr)

theorem origin_cases (r : Incoming) : r.origin = [] ∨ ∃ text, parseIP text = some r.origin := by
  have peer : peerIP r.remoteAddr = [] ∨ ∃ text, parseIP text = some (peerIP r.remoteAddr) := by
    unfold peerIP
    split
    · next host port _ =>
      cases parsed : parseIP host with
      | none => exact .inl rfl
      | some ip => exact .inr ⟨host, parsed⟩
    · exact .inl rfl
  unfold Incoming.origin
  cases named : forwarded (Header.get r.header xForwardedForKey) with
  | none => exact peer
  | some ip =>
    obtain ⟨-, parsed⟩ := Option.ite_none_left_eq_some.mp named
    exact .inr ⟨_, parsed⟩

/-! ### Rules that tell addresses apart -/

variable (wide : Char → Bool)

def denyHost (text : Text) (addr : IP) : RuleView := ⟨hostCIDR text addr, [], "deny".toList⟩

/-- **Two addresses that differ are told apart**: the rule that denies the first lets the second in. -/
theorem separates {text : Text} {ip other : IP} (parsed : parseIP text = some ip)
    (wider : other = [] ∨ other.length = 16) (differ : ip ≠ other) :
    ∃ views, ∃ rules : List (Compiled wide), compileViews wide 0 views = .ok rules ∧
      ∀ random, allowed rules ip random = false ∧ allowed rules other random = true := by
  obtain ⟨addr, read, widened⟩ := Option.bind_eq_some_iff.mp parsed
  obtain ⟨-, length⟩ := parseAddr_eq_some read
  have network : compileCIDR wide (hostCIDR text addr) = .ok (some ⟨addr, List.replicate addr.length 255⟩) := by
    rw [compileCIDR, if_neg (by simp [hostCIDR]), parseCIDR_hostCIDR read]
  have compiled := compile_eq_ok_of (v := denyHost text addr) network rfl rfl
  refine ⟨[denyHost text addr], [⟨_, _, compiled⟩], compileViews_cons_eq_ok.mpr ⟨_, compiled, [], rfl, rfl⟩, ?_⟩
  intro random
  have inside := (contains_host_iff length (.inr (length_of_to16 widened))).mpr widened
  have outside : IPNet.contains ⟨addr, List.replicate addr.length 255⟩ other = false := by
    rw [Bool.eq_false_iff, ne_eq, contains_host_iff length wider, widened, Option.some.injEq]
    exact differ
  simp [allowed, allow, Rule.matchIP, Rule.matchRandom, inside, outside]

/-! ### The decision -/

/-- The answer to a request that the rules deny. -/
def forbidden : Served := .error (httpError 403 "Forbidden")

theorem dispatch_eq_forbidden_iff (muxes : Muxes) (rules : List Rule) (ctx : Context) (r : Request) :
    dispatch muxes rules ctx r = forbidden ↔ allow rules (remoteIP r) ctx.random = false := by
  have served : ∀ mux unavailable answer, answer ≠ forbidden →
      onSession mux unavailable ctx answer ≠ forbidden := by
    intro mux unavailable answer other
    unfold onSession
    split
    · simp [forbidden, httpError]
    · split
      · simp [forbidden, httpError]
      · exact other
  unfold dispatch
  cases decision : allow rules (remoteIP r) ctx.random with
  | false => exact ⟨fun _ => rfl, fun _ => rfl⟩
  | true =>
    simp only [Bool.not_true, Bool.false_eq_true, if_false, reduceCtorEq, iff_false]
    split
    · simp [forbidden]
    · split
      · exact served _ _ _ (by simp [forbidden])
      · split
        · exact served _ _ _ (by simp [forbidden])
        · split <;> simp [forbidden]

/-- **What the headers of a request can decide.** Two requests on one connection, with the same target and the same
credentials, get the same decision of every list of rules, if and only if their headers lead to the same address. -/
theorem rules_headers_iff (muxes : Muxes) (ctx : Context) {first second : Incoming}
    (same : SameButHeaders first second) :
    (∀ views (rules : List (Compiled wide)), compileViews wide 0 views = .ok rules →
      (dispatch muxes (rules.map Compiled.rule) ctx first.request = forbidden ↔
        dispatch muxes (rules.map Compiled.rule) ctx second.request = forbidden)) ↔
      (forwarded (Header.get first.header xForwardedForKey)).getD (peerIP first.remoteAddr) =
        (forwarded (Header.get second.header xForwardedForKey)).getD (peerIP first.remoteAddr) := by
  have one : remoteIP first.request = first.origin := remoteIP_eq first.request
  have two : remoteIP second.request = second.origin := remoteIP_eq second.request
  have lengths : ∀ r : Incoming, r.origin = [] ∨ r.origin.length = 16 := by
    intro r
    refine (origin_cases r).imp_right ?_
    rintro ⟨text, parsed⟩
    obtain ⟨addr, -, widened⟩ := Option.bind_eq_some_iff.mp parsed
    exact length_of_to16 widened
  have condition : (forwarded (Header.get first.header xForwardedForKey)).getD (peerIP first.remoteAddr) =
      (forwarded (Header.get second.header xForwardedForKey)).getD (peerIP first.remoteAddr) ↔
      first.origin = second.origin := by
    rw [Incoming.origin, Incoming.origin, ← same.remoteAddr]
  rw [condition]
  simp only [dispatch_eq_forbidden_iff, one, two]
  constructor
  · intro steady
    by_contra differ
    -- one of the two is an address, and a rule denies that one alone
    rcases origin_cases first with none | ⟨text, parsed⟩
    · rcases origin_cases second with none' | ⟨text, parsed⟩
      · exact differ (none.trans none'.symm)
      · obtain ⟨views, rules, accepted, apart⟩ := separates wide parsed (lengths first) (Ne.symm differ)
        have answer := (steady views rules accepted).mpr (apart ctx.random).1
        exact absurd ((apart ctx.random).2.symm.trans answer) (by decide)
    · obtain ⟨views, rules, accepted, apart⟩ := separates wide parsed (lengths second) differ
      have answer := (steady views rules accepted).mp (apart ctx.random).1
      exact absurd ((apart ctx.random).2.symm.trans answer) (by decide)
  · intro origin views rules accepted
    rw [origin]

/-- The header of a user, with a value of `X-Forwarded-For`. -/
def withForwarded (value : Text) : Header :=
  ((∅ : Header).insert proxyAuthorizationKey ["Basic YWxpY2U6cHc=".toList]).insert xForwardedForKey [value]

def fromPeer (header : Header) : Incoming :=
  ⟨"example.com:443".toList, [], "203.0.113.9:5000".toList, header⟩

theorem sameButHeaders_fromPeer (value value' : Text) :
    SameButHeaders (fromPeer (withForwarded value)) (fromPeer (withForwarded value')) := by
  have authorization : ∀ value, Header.get (withForwarded value) proxyAuthorizationKey =
      "Basic YWxpY2U6cHc=".toList := by
    intro value
    have other : proxyAuthorizationKey ≠ xForwardedForKey := by decide
    rw [Header.get, withForwarded, AList.lookup_insert_ne other, AList.lookup_insert]
    rfl
  exact ⟨rfl, rfl, rfl, (authorization value).trans (authorization value').symm⟩

theorem rules_headers_ownAddress :
    SameButHeaders (fromPeer (withForwarded [])) (fromPeer (withForwarded "203.0.113.9, 10.0.0.1".toList)) ∧
    ∀ views (rules : List (Compiled fun _ => false)), compileViews (fun _ => false) 0 views = .ok rules →
      (dispatch ⟨true, true⟩ (rules.map Compiled.rule) {} (fromPeer (withForwarded [])).request = forbidden ↔
        dispatch ⟨true, true⟩ (rules.map Compiled.rule) {}
          (fromPeer (withForwarded "203.0.113.9, 10.0.0.1".toList)).request = forbidden) :=
  ⟨sameButHeaders_fromPeer .., (rules_headers_iff (fun _ => false) ⟨true, true⟩ {}
    (sameButHeaders_fromPeer ..)).mpr (by decide +kernel)⟩

/-- A rule denies the network of the peer; the header of another address lets the peer in. -/
theorem header_evades_rule :
    SameButHeaders (fromPeer (withForwarded [])) (fromPeer (withForwarded "198.51.100.1".toList)) ∧
    ∃ rules : List (Compiled fun _ => false),
      compileViews (fun _ => false) 0 [⟨"203.0.113.0/24".toList, [], "deny".toList⟩] = .ok rules ∧
      dispatch ⟨true, true⟩ (rules.map Compiled.rule) {} (fromPeer (withForwarded [])).request = forbidden ∧
      dispatch ⟨true, true⟩ (rules.map Compiled.rule) {}
        (fromPeer (withForwarded "198.51.100.1".toList)).request = .tunnel "example.com:443".toList :=
  ⟨sameButHeaders_fromPeer .., _, rfl, by decide +kernel, by decide +kernel⟩

end Ttgo.Proxy

/-
**What a registered request gets.**

The part of `ServeHTTP` after `Register`: the rules, the pseudo-hosts, and for any other target the TCP tunnel
up to its dial (`handleTCPTunnel`, `serveHTTP1Tunnel`). The resolver answers the check of the target, and
the dialer resolves the target again.

* `remoteIP`, `resolveIP` — the two addresses that the proxy decides by.
* `dispatch` — the switch over the pseudo-hosts.
* `handleTCPTunnel` — the check, the dial and the answer; `Opening.dialed` is the address that a
  connection was opened to.
* `private_undialed_iff` — whatever the dialer does with its answer, no private address is connected to:
  exactly if the check sees a private address, or the response cannot be hijacked, or the dialer's answer
  has no private address.
-/

import Ttgo.Lib.GoNet
import Ttgo.Proxy.Handler
import Ttgo.Rules.Engine
import Ttgo.Server.Listener
import Ttgo.Server.PrivateNet

namespace Ttgo.Proxy

open Ttgo.Lib Ttgo.Rules Ttgo.Server

/-! ### The request -/

structure Request where
  host : Text
  urlHost : Text
  remoteAddr : Text
  /-- The first `X-Forwarded-For` header, empty without one. -/
  xForwardedFor : Text
deriving DecidableEq, Repr

def Request.target (r : Request) : Text := if r.host = [] then r.urlHost else r.host

/-- `remoteIP`, nil for an address that does not parse. -/
def remoteIP (r : Request) : IP :=
  let forwarded :=
    if r.xForwardedFor = [] then none else parseIP (trimSpace (r.xForwardedFor.takeWhile (· ≠ ',')))
  match forwarded with
  | some ip => ip
  | none =>
    match splitHostPort r.remoteAddr with
    | some (host, _) => (parseIP host).getD []
    | none => []

/-! ### The pseudo-hosts -/

structure Muxes where
  udp : Bool
  icmp : Bool
deriving DecidableEq, Repr

inductive Served
  | error (response : Response)
  /-- `_check`: a bare `200`. -/
  | ok
  | udp
  | icmp
  | p2p
  | tunnel (target : Text)
deriving DecidableEq, Repr

/-- A multiplexer serves the stream on the session of its connection. -/
def onSession (mux : Bool) (unavailable : String) (ctx : Context) (served : Served) : Served :=
  if !mux then .error (httpError 503 unavailable)
  else if !ctx.session then .error (httpError 500 "no session")
  else served

/-- `ServeHTTP` after `Register`. -/
def dispatch (muxes : Muxes) (rules : List Rule) (ctx : Context) (r : Request) : Served :=
  if !allow rules (remoteIP r) ctx.random then .error (httpError 403 "Forbidden")
  else if r.target = "_check".toList then .ok
  else if r.target = "_udp2".toList then onSession muxes.udp "UDP not available" ctx .udp
  else if r.target = "_icmp".toList then onSession muxes.icmp "ICMP not available" ctx .icmp
  else if r.target = "_p2p".toList then .p2p
  else .tunnel r.target

/-! ### The TCP tunnel -/

structure Options where
  allowPrivateNet : Bool
deriving DecidableEq, Repr

structure Writer where
  protoMajor : Nat
  /-- It is an `http.Hijacker`. -/
  hijacker : Bool
  /-- `Hijack` succeeds. -/
  hijacks : Bool
deriving DecidableEq, Repr

/-- What `LookupIP` answers; `none` is an error. -/
abbrev Lookup := Text → Option (List IP)

def resolveIP (lookup : Lookup) (host : Text) : Option IP :=
  match parseIP host with
  | some ip => some ip
  | none =>
    match lookup host with
    | some (ip :: _) => some ip
    | some [] | none => none

def checkedHost (target : Text) : Text :=
  match splitHostPort target with
  | some (host, _) => if host = [] then target else host
  | none => target

inductive Answer
  | error (response : Response)
  /-- `WriteHeader(200)`. -/
  | ok
  /-- The `200` on a connection that was hijacked. -/
  | established
  /-- `Hijack` failed. -/
  | nothing
deriving DecidableEq, Repr

/-- What became of a tunnel, and where a connection was opened to. -/
structure Opening where
  answer : Answer
  dialed : Option IP
deriving DecidableEq, Repr

def cannotConnect (target : Text) : Opening :=
  ⟨.error (httpError 502 ("cannot connect to " ++ String.ofList target)), none⟩

/-- `serveHTTP1Tunnel`; `dialed` is what `DialContext` returns, `none` for an error. -/
def serveHTTP1Tunnel (w : Writer) (dialed : Option IP) (target : Text) : Opening :=
  if !w.hijacker then ⟨.error (httpError 500 "hijack not supported"), none⟩
  else
    match dialed with
    | none => cannotConnect target
    | some ip => ⟨if w.hijacks then .established else .nothing, some ip⟩

def handleTCPTunnel (opts : Options) (lookup : Lookup) (w : Writer) (dialed : Option IP)
    (target : Text) : Opening :=
  if !opts.allowPrivateNet && (resolveIP lookup (checkedHost target)).any isPrivateIP then
    ⟨.error (httpError 403 (String.ofList target ++ " is a private address")), none⟩
  else if w.protoMajor = 1 then serveHTTP1Tunnel w dialed target
  else
    match dialed with
    | none => cannotConnect target
    | some ip => ⟨.ok, some ip⟩

/-! ### Private targets -/

variable {opts : Options} {lookup : Lookup} {w : Writer} {target host : Text} {dialed : Option IP}
  {ip : IP}

theorem resolveIP_eq_some_iff : resolveIP lookup host = some ip ↔
    parseIP host = some ip ∨ parseIP host = none ∧ ∃ rest, lookup host = some (ip :: rest) := by
  unfold resolveIP
  cases parseIP host with
  | some literal => simp
  | none =>
    simp only [reduceCtorEq, true_and, false_or]
    cases lookup host with
    | none => simp
    | some answer =>
      cases answer with
      | nil => simp
      | cons first rest => simp [and_comm, eq_comm]

theorem dialed_serveHTTP1Tunnel :
    (serveHTTP1Tunnel w dialed target).dialed = if w.hijacker = false then none else dialed := by
  unfold serveHTTP1Tunnel
  cases w.hijacker with
  | false => rfl
  | true => cases dialed <;> rfl

theorem dialed_handleTCPTunnel (shut : opts.allowPrivateNet = false) :
    (handleTCPTunnel opts lookup w dialed target).dialed =
      if (resolveIP lookup (checkedHost target)).any isPrivateIP ∨
        w.protoMajor = 1 ∧ w.hijacker = false then none else dialed := by
  unfold handleTCPTunnel
  rw [shut, Bool.not_false, Bool.true_and]
  by_cases blocked : (resolveIP lookup (checkedHost target)).any isPrivateIP = true
  · rw [if_pos blocked, if_pos (.inl blocked)]
  · rw [if_neg blocked]
    by_cases old : w.protoMajor = 1
    · rw [if_pos old, dialed_serveHTTP1Tunnel]
      simp only [blocked, old, true_and, Bool.false_eq_true, false_or]
    · rw [if_neg old, if_neg (by simp [blocked, old])]
      cases dialed <;> rfl

/-- **Private targets over TCP.** The dialer may connect to any address of its own answer. It connects
to no private one, whichever it takes: exactly if the target is a private literal or the first address
that the check got for it is private, or the request is of HTTP/1 and cannot be hijacked, or the answer
to the dialer has no private address. -/
theorem private_undialed_iff (shut : opts.allowPrivateNet = false) (answer : List IP) :
    (∀ dialed, (∀ ip ∈ dialed, ip ∈ answer) →
      ∀ ip ∈ (handleTCPTunnel opts lookup w dialed target).dialed, isPrivateIP ip = false) ↔
      (∃ ip, isPrivateIP ip = true ∧ (parseIP (checkedHost target) = some ip ∨
        parseIP (checkedHost target) = none ∧ ∃ rest, lookup (checkedHost target) = some (ip :: rest))) ∨
      (w.protoMajor = 1 ∧ w.hijacker = false) ∨ ∀ ip ∈ answer, isPrivateIP ip = false := by
  have checked : (∃ ip, isPrivateIP ip = true ∧ (parseIP (checkedHost target) = some ip ∨
        parseIP (checkedHost target) = none ∧ ∃ rest, lookup (checkedHost target) = some (ip :: rest))) ↔
      (resolveIP lookup (checkedHost target)).any isPrivateIP = true := by
    simp only [← resolveIP_eq_some_iff, Option.any_eq_true, and_comm]
  rw [checked, ← or_assoc]
  constructor
  · intro unreached
    by_contra reachable
    obtain ⟨undecided, found⟩ := not_or.mp reachable
    refine found fun ip member => unreached (some ip) ?_ ip ?_
    · rintro other ⟨⟩
      exact member
    · rw [dialed_handleTCPTunnel shut, if_neg undecided]
      rfl
  · intro safe dialed within ip opened
    rw [dialed_handleTCPTunnel shut] at opened
    split at opened
    · cases opened
    · next undecided => exact (safe.resolve_left undecided) ip (within ip opened)

/-- A name whose only address is private is refused, whatever the dialer would get for it. -/
theorem private_undialed_intranet :
    (⟨false⟩ : Options).allowPrivateNet = false ∧
      ∀ dialed, (∀ ip ∈ dialed, ip ∈ [[10, 0, 0, 1], [192, 0, 2, 1]]) →
        ∀ ip ∈ (handleTCPTunnel ⟨false⟩ (fun _ => some [[10, 0, 0, 1]]) ⟨2, false, false⟩ dialed
          "intranet:22".toList).dialed, isPrivateIP ip = false :=
  ⟨rfl, (private_undialed_iff rfl _).mpr (.inl ⟨[10, 0, 0, 1], by decide, .inr ⟨by decide, [], rfl⟩⟩)⟩

/-- The loopback address is dialed for a name that the check resolves to a public address, for one of
which the check takes the first of two addresses, and for one that the check cannot resolve. -/
theorem private_dialed :
    isPrivateIP [127, 0, 0, 1] = true ∧
      ∀ lookup ∈ [some [[192, 0, 2, 1]], some [[192, 0, 2, 1], [127, 0, 0, 1]], none],
        handleTCPTunnel ⟨false⟩ (fun _ => lookup) ⟨2, false, false⟩ (some [127, 0, 0, 1])
            "intranet:22".toList = ⟨.ok, some [127, 0, 0, 1]⟩ ∧
          handleTCPTunnel ⟨false⟩ (fun _ => lookup) ⟨1, true, true⟩ (some [127, 0, 0, 1])
            "intranet:22".toList = ⟨.established, some [127, 0, 0, 1]⟩ := by
  decide

end Ttgo.Proxy

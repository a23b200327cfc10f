/-
**The servers of the endpoint, and SIGHUP.**

`internal/server/server.go`: `Run` wraps the handler of the hosts with an `Alt-Svc` header where QUIC is enabled and
hands it to both servers. `sighupLoop` builds the handler of the new hosts and hands it, as it is, to the HTTP/2 server
alone.

* `buildMux`, `wrapHandler` — the handlers: which requests are pings, and the header.
* `start` — `New` and `Run`; `reload` — one turn of `sighupLoop`.
* `AnswersAs` — two processes answer every request alike, over both protocols.
* `answersAs_iff` — a reload is a restart exactly where QUIC is disabled.
-/

import Ttgo.Lib.GoMap
import Ttgo.Lib.GoNet

namespace Ttgo.Server.Reload

open Ttgo.Lib

/-! ### Handlers -/

structure TLSHost where
  hostname : Text
  certChainPath : Text
  privateKeyPath : Text
deriving DecidableEq, Repr

/-- `hosts.toml`, as far as the servers read it. -/
structure HostsConfig where
  mainHosts : List TLSHost
  pingHosts : List TLSHost

inductive Method where
  | connect
  | get
  | other (name : Text)
deriving DecidableEq, Repr

structure HttpRequest where
  method : Method
  host : Text
  path : Text
deriving DecidableEq, Repr

/-- Who answers a request. -/
inductive Decision where
  /-- `ServeMux` itself, such as with a redirect to a clean path. -/
  | mux (answer : Text)
  | ping
  | vpn
deriving DecidableEq, Repr

structure Answer where
  altSvc : Option Text
  decision : Decision
deriving DecidableEq, Repr

abbrev Handler := HttpRequest → Answer

/-- `buildMux`; `serveMux` is what `ServeMux` answers itself, for the pattern `/`. -/
def buildMux (serveMux : HttpRequest → Option Text) (hosts : HostsConfig) : Handler := fun r =>
  if r.method = .connect then ⟨none, .vpn⟩
  else
    match serveMux r with
    | some answer => ⟨none, .mux answer⟩
    | none =>
      let host := ((splitHostPort r.host).map Prod.fst).getD r.host
      if host ∈ hosts.pingHosts.map TLSHost.hostname ∧ r.method = .get then ⟨none, .ping⟩ else ⟨none, .vpn⟩

/-- `WrapHandler`: the header is set before the handler runs. -/
def wrapHandler (handler : Handler) (port : Text) : Handler :=
  if port = [] then handler
  else fun r => { handler r with altSvc := some ("h3=\"".toList ++ port ++ "\"; ma=86400".toList) }

/-! ### The process -/

/-- What stands on the disk: what `LoadHosts` makes of `hosts.toml`, and what `LoadX509KeyPair` makes of the files of
a certificate. -/
structure Files (Cert : Type) where
  hosts : Except Text HostsConfig
  keyPair : Text → Text → Except Text Cert

/-- `vpn.toml`, as far as the servers read it. -/
structure Config where
  listenAddress : Text
  quic : Bool

/-- A running process. -/
structure Process (Cert : Type) where
  certs : GoMap Text Cert
  h2 : Handler
  h3 : Option Handler

variable {Cert : Type} {serveMux : HttpRequest → Option Text} {cfg : Config}

/-- `TLSManager.Load`. -/
def loadCerts (keyPair : Text → Text → Except Text Cert) (hosts : List TLSHost) : Except Text (GoMap Text Cert) :=
  hosts.foldlM (fun certs h => do
    match keyPair h.certChainPath h.privateKeyPath with
    | .error err => .error ("load cert for ".toList ++ h.hostname ++ ": ".toList ++ err)
    | .ok cert => .ok (certs.insert h.hostname cert)) ∅

/-- What `New` and `sighupLoop` load. -/
def loadHosts (files : Files Cert) : Except Text (HostsConfig × GoMap Text Cert) :=
  match files.hosts with
  | .error err => .error err
  | .ok hosts =>
    match loadCerts files.keyPair hosts.mainHosts with
    | .error err => .error err
    | .ok certs => .ok (hosts, certs)

def altPort (cfg : Config) : Text :=
  let port := ((splitHostPort cfg.listenAddress).map Prod.snd).getD []
  ':' :: (if port = [] then "443".toList else port)

/-- The handler that `Run` hands to the servers. -/
def served (cfg : Config) (handler : Handler) : Handler :=
  if cfg.quic then wrapHandler handler (altPort cfg) else handler

/-- `New` and `Run`. -/
def start (serveMux : HttpRequest → Option Text) (cfg : Config) (files : Files Cert) : Except Text (Process Cert) :=
  match loadHosts files with
  | .error err => .error err
  | .ok (hosts, certs) =>
    let handler := served cfg (buildMux serveMux hosts)
    .ok ⟨certs, handler, if cfg.quic then some handler else none⟩

/-- One turn of `sighupLoop`: on an error everything stays. -/
def reload (serveMux : HttpRequest → Option Text) (server : Process Cert) (files : Files Cert) : Process Cert :=
  match loadHosts files with
  | .error _ => server
  | .ok (hosts, certs) => { server with certs, h2 := buildMux serveMux hosts }

/-! ### Reload and restart -/

/-- Both servers answer every request as those of the other process do. -/
structure AnswersAs (server fresh : Process Cert) : Prop where
  h2 : ∀ r, server.h2 r = fresh.h2 r
  h3 : ∀ r, server.h3.map (· r) = fresh.h3.map (· r)

theorem buildMux_altSvc (hosts : HostsConfig) (r : HttpRequest) : (buildMux serveMux hosts r).altSvc = none := by
  unfold buildMux
  split
  · rfl
  · split
    · rfl
    · dsimp only
      split
      · rfl
      · rfl

theorem served_altSvc (quic : cfg.quic = true) (handler : Handler) (r : HttpRequest) :
    ((served cfg handler) r).altSvc ≠ none := by
  have port : altPort cfg ≠ [] := by simp [altPort]
  rw [served, if_pos quic, wrapHandler, if_neg port]
  simp

theorem start_eq_ok {files : Files Cert} {server : Process Cert} (started : start serveMux cfg files = .ok server) :
    ∃ hosts certs, loadHosts files = .ok (hosts, certs) ∧
      server = ⟨certs, served cfg (buildMux serveMux hosts),
        if cfg.quic then some (served cfg (buildMux serveMux hosts)) else none⟩ := by
  unfold start at started
  split at started
  · cases started
  · next hosts certs loaded =>
    cases started
    exact ⟨hosts, certs, loaded, rfl⟩

theorem reload_of_loadHosts {files : Files Cert} {hosts : HostsConfig} {certs : GoMap Text Cert}
    (loaded : loadHosts files = .ok (hosts, certs)) (server : Process Cert) :
    reload serveMux server files = { server with certs, h2 := buildMux serveMux hosts } := by
  rw [reload, loaded]

theorem h3_reloads (server : Process Cert) (reloads : List (Files Cert)) :
    (reloads.foldl (reload serveMux) server).h3 = server.h3 := by
  induction reloads generalizing server with
  | nil => rfl
  | cons files reloads ih =>
    rw [List.foldl_cons, ih, reload]
    split
    · rfl
    · rfl

/-- **A reload is a restart exactly where QUIC is disabled**, whatever was reloaded before. -/
theorem answersAs_iff (serveMux : HttpRequest → Option Text) (cfg : Config) (old new : Files Cert)
    {server fresh : Process Cert} (started : start serveMux cfg old = .ok server) (earlier : List (Files Cert))
    (restarted : start serveMux cfg new = .ok fresh) :
    AnswersAs (reload serveMux (earlier.foldl (reload serveMux) server) new) fresh ↔ cfg.quic = false := by
  obtain ⟨hosts, certs, loaded, rfl⟩ := start_eq_ok restarted
  obtain ⟨_, _, -, rfl⟩ := start_eq_ok started
  rw [reload_of_loadHosts loaded]
  constructor
  · rintro ⟨same, -⟩
    by_contra quic
    have header := congrArg Answer.altSvc (same ⟨.connect, [], []⟩)
    rw [buildMux_altSvc] at header
    exact served_altSvc (by simpa using quic) _ _ header.symm
  · intro plain
    have unwrapped : ∀ handler, served cfg handler = handler := fun _ => if_neg (by simp [plain])
    refine ⟨fun r => (congrFun (unwrapped _) r).symm, fun r => ?_⟩
    rw [h3_reloads]
    simp [plain]

/-- A disk whose certificates all load, with ping hosts of the given names. -/
def pinging (names : List Text) : Files Unit where
  hosts := .ok ⟨[], names.map fun name => ⟨name, [], []⟩⟩
  keyPair _ _ := .ok ()

def pingProcess (cfg : Config) (names : List Text) : Process Unit :=
  let handler := served cfg (buildMux (fun _ => none) ⟨[], names.map fun name => ⟨name, [], []⟩⟩)
  ⟨∅, handler, if cfg.quic then some handler else none⟩

theorem answersAs_plain :
    AnswersAs (reload (fun _ => none) (pingProcess ⟨"0.0.0.0:443".toList, false⟩ []) (pinging ["ping".toList]))
      (pingProcess ⟨"0.0.0.0:443".toList, false⟩ ["ping".toList]) :=
  (answersAs_iff (fun _ => none) ⟨"0.0.0.0:443".toList, false⟩ (pinging []) (pinging ["ping".toList]) rfl [] rfl).mpr
    rfl

/-- **With QUIC**, after a reload HTTP/2 has lost the header and HTTP/3 still has the old ping hosts. -/
theorem reload_loses_altSvc :
    let cfg : Config := ⟨"0.0.0.0:443".toList, true⟩
    let reloaded := reload (fun _ => none) (pingProcess cfg []) (pinging ["ping".toList])
    let fresh := pingProcess cfg ["ping".toList]
    let r : HttpRequest := ⟨.get, "ping".toList, "/".toList⟩
    start (fun _ => none) cfg (pinging []) = .ok (pingProcess cfg []) ∧
      start (fun _ => none) cfg (pinging ["ping".toList]) = .ok fresh ∧
      fresh.h2 r = ⟨some "h3=\":443\"; ma=86400".toList, .ping⟩ ∧ reloaded.h2 r = ⟨none, .ping⟩ ∧
      fresh.h3.map (· r) = some ⟨some "h3=\":443\"; ma=86400".toList, .ping⟩ ∧
      reloaded.h3.map (· r) = some ⟨some "h3=\":443\"; ma=86400".toList, .vpn⟩ ∧ ¬ AnswersAs reloaded fresh := by
  refine ⟨rfl, rfl, by decide, by decide, by decide, by decide, fun same => ?_⟩
  exact absurd (same.h2 ⟨.get, "ping".toList, "/".toList⟩) (by decide)

end Ttgo.Server.Reload

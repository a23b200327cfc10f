/-
**The endpoint: requests, lookups and `DELETE /api/users/{u}`.**

The streams of `ServeHTTP` and the lookups of the authenticator, in one process. A request asks
`IsRevoked`, runs its lookup one lock at a time, decides with `CheckExt` and goes on to `Register`;
the admin API deletes the user in three steps of its own: the store, the tracker, the cache. With a
database the admin API and the authenticator have one table; with the file backend the admin API edits
`credentials.toml`, and the `FileStore` of the authenticator loads it every ten seconds.

* `Sys` — both systems; request `index` is the stream and the lookup of that index.
* `Sys.adminStore` — what the admin API deletes from; `reload` — a tick of `watchLoop`.
* `checkResult` — what `CheckExt` returns to a request, once its lookup has returned.
* `Deletion`, `step` — the `DELETE` handler, interleaved with everything else.
* `Linked` — the lookup of a request belongs to the user of its header, and has not begun before the
  request passes `IsRevoked`.
-/

import Ttgo.Auth.Lookup
import Ttgo.Proxy.Handler

namespace Ttgo.Endpoint

open Ttgo.Auth Ttgo.Lib Ttgo.Server

/-- Where the `DELETE` handler stands. -/
inductive Deletion
  | pending
  /-- The store has no such user: `404`. -/
  | notFound
  | deleted
  | kicked
  /-- `{"status": "deleted"}` is sent. -/
  | done
deriving DecidableEq, Repr

structure Sys where
  auth : Lookup.Sys
  proxy : Proxy.Sys
  /-- The parsed `Proxy-Authorization` header of each request. -/
  credentials : List (Option (String × List UInt8))
  deletion : Deletion
  /-- `credentials.toml`, with the file backend. -/
  file : Option Store
  /-- The users that it has had so far. -/
  listed : List String

def Sys.initial (store : Store) (file : Option Store) : Sys :=
  ⟨⟨store, ∅, []⟩, .initial, [], .pending, file, (file.getD ∅).keys⟩

/-- The store that the admin API works on. -/
def Sys.adminStore (s : Sys) : Store := s.file.getD s.auth.store

def Sys.setAdminStore (s : Sys) (store : Store) : Sys :=
  match s.file with
  | some _ => { s with file := some store, listed := s.listed ++ store.keys }
  | none => { s with auth := { s.auth with store } }

inductive Event
  | arrive (conn : Option NetConn) (http1 : Bool) (header : String)
  /-- The next step of the lookup of a request. -/
  | lookup (index : Nat) (now : Int) (fails : Bool)
  /-- `CheckExt` returns. -/
  | checkExt (index : Nat) (now : Int)
  /-- Any other step of a stream or of the tracker. -/
  | proxy (event : Proxy.Event)
  /-- Any other step of the cache. -/
  | auth (event : Lookup.Event)
  /-- Somebody else writes or deletes a user. -/
  | write (name : String) (row : Option Row)
  /-- `FileStore.reload` takes over what it has decoded: the file as it was at some moment, or, where it was being
  written, parts of it. -/
  | reload (users : Store)
  /-- The next step of the `DELETE` handler. -/
  | delete
deriving DecidableEq

def nameOf (credentials : Option (String × List UInt8)) : String :=
  (credentials.map Prod.fst).getD ""

def checkResult (s : Sys) (index : Nat) (now : Int) : Option CheckResult :=
  match s.credentials[index]?, s.auth.calls[index]? with
  | some none, _ => some { deny := .badCreds }
  | some (some (username, password)), some ⟨_, .returned found⟩ =>
    some (checkFound username password found now)
  | _, _ => none

/-- Steps of the tracker that have no event of their own here. -/
def proxyOnly : Proxy.Event → Bool
  | .arrive .. | .act _ (.checkExt _) => false
  | _ => true

/-- Steps of the cache that have no event of their own here. -/
def authOnly : Lookup.Event → Bool
  | .call _ | .advance .. | .storeWrite .. => false
  | _ => true

def step (ttl : Int) (username : String) (s : Sys) : Event → Option Sys
  | .arrive conn http1 header => do
    let proxy ← Proxy.step s.proxy (.arrive conn http1)
    let credentials := parseBasic header
    let auth ← Lookup.step ttl s.auth (.call (nameOf credentials))
    return { s with proxy, auth, credentials := s.credentials ++ [credentials] }
  | .lookup index now fails => do
    let x ← s.proxy.streams[index]?
    -- a header that does not parse is refused without a lookup
    if x.phase = .authenticating ∧ (s.credentials[index]?).join.isSome then
      let auth ← Lookup.step ttl s.auth (.advance index now fails)
      return { s with auth }
    else none
  | .checkExt index now => do
    let res ← checkResult s index now
    let proxy ← Proxy.step s.proxy (.act index (.checkExt res))
    return { s with proxy }
  | .proxy event =>
    if proxyOnly event then (Proxy.step s.proxy event).map fun proxy => { s with proxy } else none
  | .auth event =>
    if authOnly event then (Lookup.step ttl s.auth event).map fun auth => { s with auth } else none
  | .write name (some row) => some (s.setAdminStore (s.adminStore.insert name row))
  | .write name none => some (s.setAdminStore (s.adminStore.erase name))
  | .reload users =>
    if s.file.isSome ∧ users.keys ⊆ s.listed then some { s with auth := { s.auth with store := users } } else none
  | .delete =>
    match s.deletion with
    | .pending =>
      if (s.adminStore.lookup username).isSome then
        some { s.setAdminStore (s.adminStore.erase username) with deletion := .deleted }
      else some { s with deletion := .notFound }
    | .deleted =>
      (Proxy.step s.proxy (.kickUser username "Account deleted")).map fun proxy =>
        { s with proxy, deletion := .kicked }
    | .kicked =>
      (Lookup.step ttl s.auth (.invalidate username)).map fun auth =>
        { s with auth, deletion := .done }
    | .notFound | .done => none

variable {ttl : Int} {username : String} {s next : Sys} {index : Nat} {now : Int}

/-! ### Inversion -/

theorem step_arrive {conn : Option NetConn} {http1 : Bool} {header : String}
    (taken : step ttl username s (.arrive conn http1 header) = some next) :
    next = { s with
      proxy := { s.proxy with streams := s.proxy.streams ++ [{ conn := conn, http1 := http1 }] }
      auth := { s.auth with
        calls := s.auth.calls ++ [⟨nameOf (parseBasic header), .readCache⟩] }
      credentials := s.credentials ++ [parseBasic header] } := by
  simp only [step, Option.bind_eq_bind, Option.bind_eq_some_iff, Option.pure_def,
    Option.some.injEq] at taken
  obtain ⟨proxy, arrived, auth, called, rfl⟩ := taken
  obtain ⟨-, arrived⟩ := Option.ite_none_left_eq_some.mp arrived
  cases arrived
  cases called
  rfl

theorem step_lookup {fails : Bool} (taken : step ttl username s (.lookup index now fails) = some next) :
    ∃ x call cache phase, s.proxy.streams[index]? = some x ∧ x.phase = .authenticating ∧
      s.auth.calls[index]? = some call ∧
      call.advance ttl s.auth.store s.auth.cache now fails = some (cache, phase) ∧
      next = { s with auth := { s.auth with
        cache, calls := s.auth.calls.set index { call with phase } } } := by
  simp only [step, Option.bind_eq_bind, Option.bind_eq_some_iff, Option.pure_def] at taken
  obtain ⟨x, found, taken⟩ := taken
  obtain ⟨⟨stood, -⟩, auth, stepped, taken⟩ := by
    simpa only [Option.ite_none_right_eq_some, Option.bind_eq_some_iff] using taken
  obtain ⟨call, cache, phase, reads, advanced, rfl⟩ := Lookup.step_advance stepped
  cases taken
  exact ⟨x, call, cache, phase, found, stood, reads, advanced, rfl⟩

theorem step_checkExt (taken : step ttl username s (.checkExt index now) = some next) :
    ∃ res proxy, checkResult s index now = some res ∧
      Proxy.step s.proxy (.act index (.checkExt res)) = some proxy ∧ next = { s with proxy } := by
  simp only [step, Option.bind_eq_bind, Option.bind_eq_some_iff, Option.pure_def,
    Option.some.injEq] at taken
  obtain ⟨res, checked, proxy, acted, rfl⟩ := taken
  exact ⟨res, proxy, checked, acted, rfl⟩

theorem step_proxy {event : Proxy.Event} (taken : step ttl username s (.proxy event) = some next) :
    proxyOnly event = true ∧ ∃ proxy, Proxy.step s.proxy event = some proxy ∧
      next = { s with proxy } := by
  obtain ⟨only, taken⟩ := Option.ite_none_right_eq_some.mp taken
  obtain ⟨proxy, moved, rfl⟩ := Option.map_eq_some_iff.mp taken
  exact ⟨only, proxy, moved, rfl⟩

theorem step_auth {event : Lookup.Event} (taken : step ttl username s (.auth event) = some next) :
    authOnly event = true ∧ ∃ auth, Lookup.step ttl s.auth event = some auth ∧
      next = { s with auth } := by
  obtain ⟨only, taken⟩ := Option.ite_none_right_eq_some.mp taken
  obtain ⟨auth, moved, rfl⟩ := Option.map_eq_some_iff.mp taken
  exact ⟨only, auth, moved, rfl⟩

theorem step_reload {users : Store} (taken : step ttl username s (.reload users) = some next) :
    s.file.isSome = true ∧ next = { s with auth := { s.auth with store := users } } := by
  obtain ⟨⟨backend, -⟩, taken⟩ := Option.ite_none_right_eq_some.mp taken
  exact ⟨backend, (Option.some.inj taken).symm⟩

theorem step_write {name : String} {row : Option Row}
    (taken : step ttl username s (.write name row) = some next) :
    ∃ store, next = s.setAdminStore store ∧
      store = row.elim (s.adminStore.erase name) (s.adminStore.insert name) := by
  cases row <;> exact ⟨_, (Option.some.inj taken).symm, rfl⟩

section AdminStore

variable (s : Sys) (store : Store)

@[simp] theorem proxy_setAdminStore : (s.setAdminStore store).proxy = s.proxy := by
  unfold Sys.setAdminStore
  split <;> rfl

@[simp] theorem credentials_setAdminStore : (s.setAdminStore store).credentials = s.credentials := by
  unfold Sys.setAdminStore
  split <;> rfl

@[simp] theorem deletion_setAdminStore : (s.setAdminStore store).deletion = s.deletion := by
  unfold Sys.setAdminStore
  split <;> rfl

@[simp] theorem calls_setAdminStore : (s.setAdminStore store).auth.calls = s.auth.calls := by
  unfold Sys.setAdminStore
  split <;> rfl

@[simp] theorem cache_setAdminStore : (s.setAdminStore store).auth.cache = s.auth.cache := by
  unfold Sys.setAdminStore
  split <;> rfl

@[simp] theorem adminStore_setAdminStore : (s.setAdminStore store).adminStore = store := by
  unfold Sys.setAdminStore
  split
  · rfl
  · next none => simp [Sys.adminStore, none]

end AdminStore

theorem proxyOnly_cases {event : Proxy.Event} {p p' : Proxy.Sys} (only : proxyOnly event = true)
    (taken : Proxy.step p event = some p') :
    (∃ index action x tracker new, event = .act index action ∧ (∀ res, action ≠ .checkExt res) ∧
        p.streams[index]? = some x ∧ x.act p.tracker action = some (tracker, new) ∧
        p' = { p with tracker, streams := p.streams.set index new }) ∨
      (Proxy.Outer p p' ∧ p'.streams = p.streams) := by
  rcases Proxy.step_cases taken with ⟨index, action, x, tracker, new, rfl, found, acted, rfl⟩ |
    ⟨outer, -, same⟩
  · refine .inl ⟨index, action, x, tracker, new, rfl, ?_, found, acted, rfl⟩
    rintro res rfl
    cases only
  · refine .inr ⟨outer, same ?_⟩
    rintro conn http1 rfl
    cases only

/-! ### Streams and their lookups -/

/-- **A request is one stream and one lookup.** -/
structure Linked (s : Sys) : Prop where
  calls : s.auth.calls.length = s.proxy.streams.length
  credentials : s.credentials.length = s.proxy.streams.length
  names : ∀ (index : Nat) (given : Option (String × List UInt8)) (call : Lookup.Call),
    s.credentials[index]? = some given → s.auth.calls[index]? = some call →
      call.username = nameOf given
  waiting : ∀ (index : Nat) (x : Proxy.Stream) (call : Lookup.Call),
    s.proxy.streams[index]? = some x → x.phase = .arrived → s.auth.calls[index]? = some call →
      call.phase = .readCache

theorem linked_initial (store : Store) (file : Option Store) : Linked (.initial store file) :=
  ⟨rfl, rfl, fun _ _ _ found => (nomatch found), fun _ _ _ found => (nomatch found)⟩

theorem arrived_of_act {t t' : ConnTracker} {x x' : Proxy.Stream} {action : Proxy.Action}
    (acted : x.act t action = some (t', x')) (stands : x'.phase = .arrived) : x.phase = .arrived := by
  cases Proxy.acted_of_act acted with
  | isRevoked stood => exact stood
  | checkExt res stood =>
    simp only [Proxy.Stream.afterAuth] at stands
    split_ifs at stands
  | isKnown stood =>
    simp only [Proxy.Stream.afterKnown] at stands
    split_ifs at stands
  | countUser stood =>
    simp only [Proxy.Stream.afterCount] at stands
    split_ifs at stands
  | register active stood => cases stands
  | tunnelOpened stood => cases stands
  | tunnelClosed stood => cases stands
  | unregister stood => cases stands
  | copied dir bytes before stood => simpa using stands
  | copyEnds dir bytes stood => simpa using stands
  | credit dir owner bytes stood => simpa using stands

theorem linked_act {action : Proxy.Action} {x x' : Proxy.Stream} {t' : ConnTracker}
    (linked : Linked s) (found : s.proxy.streams[index]? = some x)
    (acted : x.act s.proxy.tracker action = some (t', x')) :
    Linked { s with proxy := { s.proxy with
      tracker := t', streams := s.proxy.streams.set index x' } } := by
  refine ⟨by simpa using linked.calls, by simpa using linked.credentials, linked.names,
    fun other y call reads stands called => ?_⟩
  rcases pool_get_set found reads with ⟨rfl, rfl⟩ | ⟨-, old⟩
  · exact linked.waiting other x call found (arrived_of_act acted stands) called
  · exact linked.waiting other y call old stands called

theorem linked_same (linked : Linked s) (streams : next.proxy.streams = s.proxy.streams)
    (calls : next.auth.calls = s.auth.calls) (credentials : next.credentials = s.credentials) :
    Linked next := by
  refine ⟨?_, ?_, ?_, ?_⟩
  · rw [calls, streams]; exact linked.calls
  · rw [credentials, streams]; exact linked.credentials
  · rw [credentials, calls]; exact linked.names
  · rw [streams, calls]; exact linked.waiting

theorem linked_step {event : Event} (linked : Linked s)
    (taken : step ttl username s event = some next) : Linked next := by
  cases event with
  | arrive conn http1 header =>
    cases step_arrive taken
    refine ⟨by simp [linked.calls], by simp [linked.credentials], fun at' given call reads called => ?_,
      fun at' x call reads stands called => ?_⟩
    · have lengths := linked.calls.trans linked.credentials.symm
      rcases pool_get_append reads with old | ⟨rfl, rfl⟩ <;>
        rcases pool_get_append called with old' | ⟨same, rfl⟩
      · exact linked.names at' given call old old'
      · rw [same, lengths] at old
        simp at old
      · rw [← lengths] at old'
        simp at old'
      · rfl
    · rcases pool_get_append called with old | ⟨-, rfl⟩
      · rcases pool_get_append reads with old' | ⟨same, -⟩
        · exact linked.waiting at' x call old' stands old
        · rw [same, ← linked.calls] at old
          simp at old
      · rfl
  | lookup index now fails =>
    obtain ⟨x, call, cache, phase, found, stood, reads, -, rfl⟩ := step_lookup taken
    refine ⟨by simpa using linked.calls, linked.credentials, fun at' given later reads' called => ?_,
      fun at' y later reads' stands called => ?_⟩
    · rcases pool_get_set reads called with ⟨rfl, rfl⟩ | ⟨-, old⟩
      · exact linked.names at' given call reads' reads
      · exact linked.names at' given later reads' old
    · rcases pool_get_set reads called with ⟨rfl, rfl⟩ | ⟨-, old⟩
      · rw [found] at reads'
        cases reads'
        rw [stood] at stands
        cases stands
      · exact linked.waiting at' y later reads' stands old
  | checkExt index now =>
    obtain ⟨res, proxy, -, stepped, rfl⟩ := step_checkExt taken
    obtain ⟨x, t', x', found, acted, rfl⟩ := Proxy.step_act stepped
    exact linked_act linked found acted
  | proxy event =>
    obtain ⟨only, proxy, moved, rfl⟩ := step_proxy taken
    rcases proxyOnly_cases only moved with ⟨index, action, x, t', x', rfl, -, found, acted, rfl⟩ |
      ⟨-, same⟩
    · exact linked_act linked found acted
    · exact linked_same linked same rfl rfl
  | auth event =>
    obtain ⟨only, auth, moved, rfl⟩ := step_auth taken
    refine linked_same linked rfl ?_ rfl
    cases event with
    | call name => cases only
    | advance index now fails => cases only
    | storeWrite name row => cases only
    | invalidate name => cases moved; rfl
    | invalidateAll => cases moved; rfl
    | evict now => cases moved; rfl
  | write name row =>
    obtain ⟨store, rfl, -⟩ := step_write taken
    exact linked_same linked (by simp) (by simp) (by simp)
  | reload users =>
    obtain ⟨-, rfl⟩ := step_reload taken
    exact linked_same linked rfl rfl rfl
  | delete =>
    simp only [step] at taken
    split at taken
    · split at taken <;> cases taken <;> exact linked_same linked (by simp) (by simp) (by simp)
    · cases taken; exact linked_same linked rfl rfl rfl
    · cases taken; exact linked_same linked rfl rfl rfl
    · cases taken
    · cases taken

end Ttgo.Endpoint

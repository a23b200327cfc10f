/-
**The user that a request of an admin client names.**

`AdminClient` of `internal/admin/apiclient.go` puts the names into a query as they are. The web client of
`web/src/api.ts` percent-encodes them into the path. `StartAdminAPI` of `internal/server/adminapi.go` decodes the
query, and splits the path after it was decoded. The requests carry the token that `authMW` asks for, and the address
of the server has no path of its own.

* `serve` — the handlers that name a user, from the target of a request.
* `AdminClient.post` — a request of the Go client, with the redirects that it follows.
* `ClientRequest` — the requests that are looked at, and the handler's answer to each.
* `exact_iff` — the handler acts on exactly the user that a request names, if and only if the name needs no escapes
  (for the Go client) or has no slash (for the web client).
-/

import Ttgo.Lib.GoURL
import Ttgo.Server.Users

namespace Ttgo.Server.AdminClients

open Ttgo.Lib Ttgo.Lib.GoURL Ttgo.Server.Users

/-! ### The server -/

inductive Method
  | post
  | delete
  | patch
deriving DecidableEq, Repr

/-- What a handler does to a user. -/
inductive Action
  | kickUser (username reason : Bytes)
  | kickSession (username remoteAddr reason : Bytes)
  | deleteUser (username : Bytes)
  | patchUser (username : Bytes)
deriving DecidableEq, Repr

def Action.username : Action → Bytes
  | kickUser username _ | kickSession username _ _ | deleteUser username | patchUser username => username

inductive Reply
  | acted (action : Action)
  /-- A temporary redirect. -/
  | moved (location : Bytes)
  | answered (response : Response)
  /-- What names no user. -/
  | elsewhere
deriving DecidableEq, Repr

def methodNotAllowed : Reply := .answered (httpError 405 "method not allowed".toList)

def usernameRequired : Reply := .answered (httpError 400 "username required".toList)

/-- A reason, or the one that is meant by none. -/
def reasonOr (query fallback : Bytes) : Bytes :=
  let reason := get (ascii "reason") query
  if reason = [] then fallback else reason

def suspended : Bytes := ascii "Account suspended by administrator"

/-- `POST /users/kick`. -/
def usersKick (method : Method) (query : Bytes) : Reply :=
  if method ≠ .post then methodNotAllowed
  else
    let username := get (ascii "username") query
    if username = [] then usernameRequired else .acted (.kickUser username (reasonOr query suspended))

def sessionsKick (method : Method) (query : Bytes) : Reply :=
  if method ≠ .post then methodNotAllowed
  else
    let username := get (ascii "username") query
    let remote := get (ascii "remote_addr") query
    if username = [] ∨ remote = [] then .answered (httpError 400 "username and remote_addr required".toList)
    else .acted (.kickSession username remote (reasonOr query (ascii "Session terminated by administrator")))

/-- `/api/users/{username}[/…]`, from the parts of the decoded path. -/
def actOn (method : Method) (username : Bytes) (rest : List Bytes) (query : Bytes) : Reply :=
  if rest = [ascii "kick"] then
    if method = .post then .acted (.kickUser username (reasonOr query suspended)) else methodNotAllowed
  else
    match method with
    | .delete => .acted (.deleteUser username)
    | .patch => .acted (.patchUser username)
    | .post => methodNotAllowed

/-- `path` is what stands behind `/api/users/`, decoded. -/
def apiUser (hasStore : Bool) (method : Method) (path query : Bytes) : Reply :=
  if hasStore then
    match path.splitOn slash with
    | [] => usernameRequired
    | username :: rest => if username = [] then usernameRequired else actOn method username rest query
  else .answered (httpError 503 "user store unavailable".toList)

def usersPath : Bytes := ascii "/api/users/"

def dispatch (hasStore : Bool) (method : Method) (path decoded query : Bytes) : Reply :=
  if path = ascii "/users/kick" then usersKick method query
  else if path = ascii "/sessions/kick" then .moved (ascii "/api/sessions/kick?" ++ hexEscapeNonASCII query)
  else if path = ascii "/api/sessions/kick" then sessionsKick method query
  else if usersPath.isPrefixOf path then apiUser hasStore method (decoded.drop usersPath.length) query
  else .elsewhere

/-- What is done with a target. The multiplexer looks at the path as it was sent, the handler at the decoded one. -/
def serve (hasStore : Bool) (method : Method) (target : Bytes) : Reply :=
  match unescape false (cut (byte '?') target).1 with
  | none => .elsewhere
  | some decoded =>
    if cleanPath (cut (byte '?') target).1 = (cut (byte '?') target).1 then
      dispatch hasStore method (cut (byte '?') target).1 decoded (cut (byte '?') target).2
    else .elsewhere

/-! ### The clients -/

/-- A byte that `url.Parse` refuses. -/
def isControl (b : UInt8) : Bool := b < 32 || b = 127

/-- `http.NewRequest`: the target that is sent. What stands behind a `#` is not. -/
def newRequest (path : Bytes) : Option Bytes :=
  if (cut hashMark path).1.any isControl then none
  else (unescape false (cut hashMark path).2).map fun _ => (cut hashMark path).1

/-- `AdminClient.post`. A request line with a blank in its target reaches no handler. -/
def AdminClient.post (hasStore : Bool) : Nat → Bytes → Option Reply
  | 0, _ => none
  | requests + 1, path =>
    match newRequest path with
    | none => none
    | some target =>
      if byte ' ' ∈ target then none
      else
        match serve hasStore .post target with
        | .moved location => AdminClient.post hasStore requests location
        | reply => some reply

/-- `http.DefaultClient` makes this many requests. -/
def maxRequests : Nat := 10

/-- The bytes that `encodeURIComponent` keeps. -/
def isKept (b : UInt8) : Bool :=
  (byte 'a' ≤ b && b ≤ byte 'z') || (byte 'A' ≤ b && b ≤ byte 'Z') || (byte '0' ≤ b && b ≤ byte '9') ||
    (ascii "-_.!~*'()").contains b

def encodeURIComponent (text : String) : Bytes := escape true isKept (Auth.bytesOf text)

/-- The requests that name a user. -/
inductive ClientRequest
  | kickUser (username : Bytes)
  | kickSession (username remoteAddr : Bytes)
  | webDeleteUser (username : String)
  | webPatchUser (username : String)
  | webKickUser (username : String)

namespace ClientRequest

def query : ClientRequest → Bytes
  | kickUser username => ascii "username=" ++ username
  | kickSession username remoteAddr => ascii "username=" ++ username ++ ascii "&remote_addr=" ++ remoteAddr
  | webDeleteUser _ | webPatchUser _ | webKickUser _ => []

/-- What the handler does that receives the request, if one does. -/
def reply (hasStore : Bool) (request : ClientRequest) : Option Reply :=
  match request with
  | kickUser _ => AdminClient.post hasStore maxRequests (ascii "/users/kick?" ++ request.query)
  | kickSession _ _ => AdminClient.post hasStore maxRequests (ascii "/sessions/kick?" ++ request.query)
  | webDeleteUser username => some (serve hasStore .delete (usersPath ++ encodeURIComponent username))
  | webPatchUser username => some (serve hasStore .patch (usersPath ++ encodeURIComponent username))
  | webKickUser username => some (serve hasStore .post (usersPath ++ encodeURIComponent username ++ ascii "/kick"))

def username : ClientRequest → Bytes
  | kickUser username | kickSession username _ => username
  | webDeleteUser username | webPatchUser username | webKickUser username => Auth.bytesOf username

/-- The action that is asked for. -/
def asked (reason : Bytes) : ClientRequest → Action
  | kickUser username => .kickUser username reason
  | kickSession username remoteAddr => .kickSession username remoteAddr reason
  | webDeleteUser username => .deleteUser (Auth.bytesOf username)
  | webPatchUser username => .patchUser (Auth.bytesOf username)
  | webKickUser username => .kickUser (Auth.bytesOf username) reason

/-- **The handler that receives the request** acts on exactly the user that it names. -/
def Exact (hasStore : Bool) (request : ClientRequest) : Prop :=
  ∀ reply ∈ request.reply hasStore, ∃ reason, reply = .acted (request.asked reason)

end ClientRequest

/-- A query that is sent and received: no control byte and no blank in front of a `#`, and behind it only escapes that
can be read. -/
def Sendable (query : Bytes) : Prop :=
  (∀ b ∈ (cut hashMark query).1, isControl b = false ∧ b ≠ byte ' ') ∧ (unescape false (cut hashMark query).2).isSome

/-- **The names that reach the right user.** -/
def ClientRequest.Addressable (hasStore : Bool) (request : ClientRequest) : Prop :=
  match request with
  | kickUser username => Sendable request.query → Plain username
  | kickSession username remoteAddr => Sendable request.query → Plain username ∧ Plain remoteAddr ∧ remoteAddr ≠ []
  | webDeleteUser username | webPatchUser username | webKickUser username =>
    hasStore = true ∧ slash ∉ Auth.bytesOf username

/-! ### The Go client -/

variable {hasStore : Bool} {front query username remoteAddr : Bytes} {requests : Nat}

def IsStart (front : Bytes) : Prop := ∀ b ∈ front, b ≠ hashMark ∧ isControl b = false ∧ b ≠ byte ' '

instance (front : Bytes) : Decidable (IsStart front) :=
  decidable_of_iff (front.all (fun b => decide (b ≠ hashMark ∧ isControl b = false ∧ b ≠ byte ' ')) = true)
    (List.all_eq_true.trans (forall₂_congr fun _ _ => decide_eq_true_iff))

theorem post_of_sendable (start : IsStart front) (sendable : Sendable query) :
    AdminClient.post hasStore (requests + 1) (front ++ query) =
      match serve hasStore .post (front ++ (cut hashMark query).1) with
      | .moved location => AdminClient.post hasStore requests location
      | reply => some reply := by
  obtain ⟨fine, reads⟩ := sendable
  obtain ⟨_, reads⟩ := Option.isSome_iff_exists.mp reads
  have cuts := cut_append_left (fun member => (start hashMark member).1 rfl) query
  have whole : ∀ b ∈ front ++ (cut hashMark query).1, isControl b = false ∧ b ≠ byte ' ' :=
    List.forall_mem_append.mpr ⟨fun b member => (start b member).2, fine⟩
  have sent : newRequest (front ++ query) = some (front ++ (cut hashMark query).1) := by
    have noControl : (front ++ (cut hashMark query).1).any isControl = false :=
      List.any_eq_false.mpr fun b member => by rw [(whole b member).1]; exact Bool.false_ne_true
    rw [newRequest, cuts, noControl, reads]
    rfl
  rw [AdminClient.post, sent]
  exact if_neg fun blank => (whole _ blank).2 rfl

theorem post_of_not_sendable (start : IsStart front) (lost : ¬Sendable query) :
    AdminClient.post hasStore (requests + 1) (front ++ query) = none := by
  have cuts := cut_append_left (fun member => (start hashMark member).1 rfl) query
  rw [AdminClient.post, newRequest, cuts]
  by_cases control : (front ++ (cut hashMark query).1).any isControl = true
  · rw [if_pos control]
  · rw [if_neg control]
    cases reads : unescape false (cut hashMark query).2 with
    | none => rfl
    | some fragment =>
      refine if_pos ?_
      by_contra noBlank
      refine lost ⟨fun b member => ⟨?_, fun blank => noBlank ?_⟩, by rw [reads]; rfl⟩
      · rw [List.any_eq_true] at control
        exact Bool.eq_false_iff.mpr fun bad => control ⟨b, List.mem_append_right _ member, bad⟩
      · exact List.mem_append_right _ (blank ▸ member)

theorem serve_eq {target path query decoded : Bytes} (method : Method)
    (cuts : cut (byte '?') target = (path, query)) (reads : unescape false path = some decoded)
    (clean : cleanPath path = path) : serve hasStore method target = dispatch hasStore method path decoded query := by
  rw [serve, cuts, reads]
  exact if_pos clean

/-- `front` asks with a query for a path of the server. -/
def Queries (front path : Bytes) : Prop :=
  front = path ++ [byte '?'] ∧ byte '?' ∉ path ∧ percent ∉ path ∧ cleanPath path = path

instance (front path : Bytes) : Decidable (Queries front path) := inferInstanceAs (Decidable (_ ∧ _))

theorem serve_query {front path : Bytes} (queries : Queries front path) (hasStore : Bool) (query : Bytes) :
    serve hasStore .post (front ++ query) = dispatch hasStore .post path path query := by
  obtain ⟨asks, single, plain, clean⟩ := queries
  rw [asks, List.append_assoc]
  exact serve_eq .post (cut_append single query) (unescape_own plain) clean

theorem serve_usersKick (query : Bytes) :
    serve hasStore .post (ascii "/users/kick?" ++ query) = usersKick .post query := by
  have queries : Queries (ascii "/users/kick?") (ascii "/users/kick") := by decide
  rw [serve_query queries, dispatch, if_pos rfl]

theorem serve_sessionsKick (query : Bytes) :
    serve hasStore .post (ascii "/sessions/kick?" ++ query) =
      .moved (ascii "/api/sessions/kick?" ++ hexEscapeNonASCII query) := by
  have queries : Queries (ascii "/sessions/kick?") (ascii "/sessions/kick") := by decide
  rw [serve_query queries, dispatch, if_neg (by decide), if_pos rfl]

theorem serve_apiSessionsKick (query : Bytes) :
    serve hasStore .post (ascii "/api/sessions/kick?" ++ query) = sessionsKick .post query := by
  have queries : Queries (ascii "/api/sessions/kick?") (ascii "/api/sessions/kick") := by decide
  rw [serve_query queries, dispatch, if_neg (by decide), if_neg (by decide), if_pos rfl]

theorem usersKick_post (query : Bytes) :
    usersKick .post query =
      if get (ascii "username") query = [] then usernameRequired
      else .acted (.kickUser (get (ascii "username") query) (reasonOr query suspended)) := rfl

theorem sessionsKick_post (query : Bytes) :
    sessionsKick .post query =
      if get (ascii "username") query = [] ∨ get (ascii "remote_addr") query = [] then
        .answered (httpError 400 "username and remote_addr required".toList)
      else .acted (.kickSession (get (ascii "username") query) (get (ascii "remote_addr") query)
        (reasonOr query (ascii "Session terminated by administrator"))) := rfl

theorem post_usersKick (sendable : Sendable query) :
    AdminClient.post hasStore (requests + 1) (ascii "/users/kick?" ++ query) =
      some (usersKick .post (cut hashMark query).1) := by
  rw [post_of_sendable (by decide) sendable, serve_usersKick, usersKick_post]
  by_cases missing : get (ascii "username") (cut hashMark query).1 = []
  · simp only [if_pos missing]
    rfl
  · simp only [if_neg missing]

theorem isControl_of_range {b : UInt8} (range : byte '0' ≤ b ∧ b ≤ byte 'f') :
    isControl b = false ∧ b ≠ byte ' ' := by
  have low : ¬b < 32 := UInt8.not_lt.mpr (UInt8.le_trans (by decide) range.1)
  refine ⟨?_, fun same => ?_⟩
  · simp only [isControl, decide_eq_false low, Bool.false_or, decide_eq_false_iff_not]
    rintro rfl
    exact absurd range.2 (by decide)
  · rw [same] at range
    exact absurd range.1 (by decide)

theorem sendable_hexEscape (sendable : Sendable query) :
    Sendable (hexEscapeNonASCII (cut hashMark query).1) ∧
      (cut hashMark (hexEscapeNonASCII (cut hashMark query).1)).1 = hexEscapeNonASCII (cut hashMark query).1 := by
  have absent : hashMark ∉ hexEscapeNonASCII (cut hashMark query).1 := by
    rw [(show IsMark hashMark by decide).mem_hexEscape]
    exact notMem_fst_cut hashMark query
  refine ⟨?_, fst_cut absent⟩
  rw [Sendable, cut_of_notMem absent]
  refine ⟨fun b member => ?_, rfl⟩
  rcases mem_escape member with ⟨inside, -⟩ | rfl | ⟨digit, reads⟩
  · exact sendable.1 b inside
  · decide
  · exact isControl_of_range (range_of_unhex reads)

theorem post_sessionsKick (sendable : Sendable query) :
    AdminClient.post hasStore (requests + 2) (ascii "/sessions/kick?" ++ query) =
      some (sessionsKick .post (hexEscapeNonASCII (cut hashMark query).1)) := by
  obtain ⟨again, whole⟩ := sendable_hexEscape sendable
  have first : AdminClient.post hasStore (requests + 2) (ascii "/sessions/kick?" ++ query) =
      AdminClient.post hasStore (requests + 1)
        (ascii "/api/sessions/kick?" ++ hexEscapeNonASCII (cut hashMark query).1) := by
    rw [post_of_sendable (by decide) sendable, serve_sessionsKick]
  rw [first, post_of_sendable (by decide) again, whole, serve_apiSessionsKick, sessionsKick_post]
  by_cases missing : get (ascii "username") (hexEscapeNonASCII (cut hashMark query).1) = [] ∨
      get (ascii "remote_addr") (hexEscapeNonASCII (cut hashMark query).1) = []
  · simp only [if_pos missing]
  · simp only [if_neg missing]

theorem query_kickUser (username : Bytes) :
    (ClientRequest.kickUser username).query = pair (ascii "username") username := by
  have key : ascii "username=" = ascii "username" ++ [equals] := by decide
  rw [ClientRequest.query, key, List.append_assoc]
  rfl

theorem query_kickSession (username remoteAddr : Bytes) :
    (ClientRequest.kickSession username remoteAddr).query =
      pair (ascii "username") username ++ ampersand :: pair (ascii "remote_addr") remoteAddr := by
  have key : ascii "username=" = ascii "username" ++ [equals] := by decide
  have key' : ascii "&remote_addr=" = ampersand :: (ascii "remote_addr" ++ [equals]) := by decide
  rw [ClientRequest.query, key, key', pair, pair]
  simp only [List.append_assoc, List.cons_append, List.nil_append]

theorem ClientRequest.exact_of_lost {request : ClientRequest} (lost : request.reply hasStore = none) :
    request.Exact hasStore := by
  intro reply member
  rw [lost] at member
  cases member

theorem exact_kickUser_iff (hasStore : Bool) (filled : username ≠ []) :
    (ClientRequest.kickUser username).Exact hasStore ↔ (ClientRequest.kickUser username).Addressable hasStore := by
  have start : IsStart (ascii "/users/kick?") := by decide
  by_cases sendable : Sendable (ClientRequest.kickUser username).query
  · have replied : (ClientRequest.kickUser username).reply hasStore = _ := post_usersKick sendable
    rw [ClientRequest.Exact, replied, ClientRequest.Addressable, forall_prop_of_true sendable,
      ← get_one_iff (show IsKey (ascii "username") by decide) filled, query_kickUser, usersKick_post]
    generalize cut hashMark (pair (ascii "username") username) = sent
    constructor
    · intro exact
      obtain ⟨reason, acted⟩ := exact _ rfl
      split at acted
      · cases acted
      · exact (Action.kickUser.inj (Reply.acted.inj acted)).1
    · rintro same _ ⟨⟩
      rw [same, if_neg filled]
      exact ⟨_, rfl⟩
  · have lost : (ClientRequest.kickUser username).reply hasStore = none := post_of_not_sendable start sendable
    exact iff_of_true (ClientRequest.exact_of_lost lost) fun sent => absurd sent sendable

theorem exact_kickSession_iff (hasStore : Bool) (filled : username ≠ []) (remoteAddr : Bytes) :
    (ClientRequest.kickSession username remoteAddr).Exact hasStore ↔
      (ClientRequest.kickSession username remoteAddr).Addressable hasStore := by
  have start : IsStart (ascii "/sessions/kick?") := by decide
  by_cases sendable : Sendable (ClientRequest.kickSession username remoteAddr).query
  · have replied : (ClientRequest.kickSession username remoteAddr).reply hasStore = _ := post_sessionsKick sendable
    rw [ClientRequest.Exact, replied, ClientRequest.Addressable, forall_prop_of_true sendable, query_kickSession,
      sessionsKick_post, get_hexEscape, get_hexEscape]
    by_cases empty : remoteAddr = []
    · refine iff_of_false (fun exact => ?_) fun plain => plain.2.2 empty
      obtain ⟨reason, acted⟩ := exact _ rfl
      split at acted
      · cases acted
      · next given =>
        exact given (.inr ((Action.kickSession.inj (Reply.acted.inj acted)).2.1.trans empty))
    · rw [and_iff_left empty, ← get_two_iff (show IsKey (ascii "username") by decide)
        (show IsKey (ascii "remote_addr") by decide) (by decide) filled empty]
      generalize cut hashMark (pair (ascii "username") username ++ _) = sent
      constructor
      · intro exact
        obtain ⟨reason, acted⟩ := exact _ rfl
        split at acted
        · cases acted
        · obtain ⟨user, remote, -⟩ := Action.kickSession.inj (Reply.acted.inj acted)
          exact ⟨user, remote⟩
      · rintro ⟨user, remote⟩ _ ⟨⟩
        rw [user, remote, if_neg (not_or.mpr ⟨filled, empty⟩)]
        exact ⟨_, rfl⟩
  · have lost : (ClientRequest.kickSession username remoteAddr).reply hasStore = none :=
      post_of_not_sendable start sendable
    exact iff_of_true (ClientRequest.exact_of_lost lost) fun sent => absurd sent sendable

/-! ### The web client -/

variable {text : String} {rest : Bytes} {method : Method}

theorem isKept_percent : isKept percent = false := by decide

theorem notMem_encodeURIComponent {mark : UInt8} (lost : isKept mark = false) (plain : mark ≠ percent)
    (digit : unhex mark = none) (text : String) : mark ∉ encodeURIComponent text := by
  intro member
  rcases mem_escape member with ⟨-, kept⟩ | same | ⟨value, reads⟩
  · cases lost.symm.trans kept
  · exact plain same
  · cases digit.symm.trans reads

theorem isName_encodeURIComponent (named : Auth.bytesOf text ∉ [[], ascii ".", ascii ".."]) :
    IsName (encodeURIComponent text) := by
  have back : unescape false (encodeURIComponent text) = some (Auth.bytesOf text) := by
    have whole := unescape_escape true isKept_percent (Auth.bytesOf text) []
    rwa [List.append_nil, show unescape false [] = some [] from rfl, Option.map_some, List.append_nil] at whole
  have differs {other : Bytes} (own : unescape false other = some other)
      (listed : other ∈ [[], ascii ".", ascii ".."]) : encodeURIComponent text ≠ other := by
    intro same
    rw [same, own] at back
    exact named (Option.some.inj back ▸ listed)
  exact ⟨differs rfl (by decide), differs (by decide) (by decide), differs (by decide) (by decide),
    notMem_encodeURIComponent (by decide) (by decide) (by decide) text⟩

/-- A path behind the name of a user. -/
structure IsRest (more : List Bytes) : Prop where
  names : ∀ part ∈ more, IsName part
  single : byte '?' ∉ rooted more
  plain : percent ∉ rooted more

/-- **A request of the web client** reaches the handler of users with the decoded name. -/
theorem serve_web (named : Auth.bytesOf text ∉ [[], ascii ".", ascii ".."]) (hasStore : Bool) (method : Method)
    {more : List Bytes} (is : IsRest more) :
    serve hasStore method (usersPath ++ encodeURIComponent text ++ rooted more) =
      apiUser hasStore method (Auth.bytesOf text ++ rooted more) [] := by
  have single : byte '?' ∉ usersPath ++ encodeURIComponent text ++ rooted more := by
    simp only [List.mem_append, not_or]
    exact ⟨⟨by decide, notMem_encodeURIComponent (by decide) (by decide) (by decide) text⟩, is.single⟩
  have reads : unescape false (usersPath ++ encodeURIComponent text ++ rooted more) =
      some (usersPath ++ (Auth.bytesOf text ++ rooted more)) := by
    rw [List.append_assoc, unescape_append_plain (by decide), encodeURIComponent, unescape_escape true isKept_percent,
      unescape_own is.plain]
    rfl
  have parts : usersPath ++ encodeURIComponent text ++ rooted more =
      rooted (ascii "api" :: ascii "users" :: encodeURIComponent text :: more) := by
    have start : usersPath = slash :: ascii "api" ++ (slash :: ascii "users" ++ [slash]) := by decide
    rw [start, rooted, rooted, List.flatMap_cons, List.flatMap_cons, List.flatMap_cons]
    simp only [List.append_assoc, List.cons_append, List.nil_append]
  have clean : cleanPath (usersPath ++ encodeURIComponent text ++ rooted more) =
      usersPath ++ encodeURIComponent text ++ rooted more := by
    rw [parts]
    refine cleanPath_rooted (List.cons_ne_nil _ _) ?_
    simp only [List.forall_mem_cons]
    exact ⟨by decide, by decide, isName_encodeURIComponent named, is.names⟩
  rw [serve_eq method (cut_of_notMem single) reads clean]
  have starts : usersPath.isPrefixOf (usersPath ++ encodeURIComponent text ++ rooted more) = true := by
    rw [ List.isPrefixOf_iff_prefix, List.append_assoc]
    exact List.prefix_append _ _
  have other {path : Bytes} (elsewhere : usersPath.isPrefixOf path = false) :
      usersPath ++ encodeURIComponent text ++ rooted more ≠ path := by
    rintro rfl
    cases elsewhere.symm.trans starts
  rw [dispatch, if_neg (other (by decide)), if_neg (other (by decide)), if_neg (other (by decide)), if_pos starts,
    List.drop_left]

theorem username_actOn {name : Bytes} {parts : List Bytes} {action : Action}
    (acted : actOn method name parts query = .acted action) : action.username = name := by
  unfold actOn at acted
  split at acted
  · split at acted
    · rw [← Reply.acted.inj acted]
      rfl
    · cases acted
  · cases method with
    | delete =>
      rw [← Reply.acted.inj acted]
      rfl
    | patch =>
      rw [← Reply.acted.inj acted]
      rfl
    | post => cases acted

theorem apiUser_acted {path : Bytes} {action : Action}
    (acted : apiUser hasStore method path query = .acted action) : hasStore = true ∧ slash ∉ action.username := by
  unfold apiUser at acted
  split at acted
  · next available =>
    refine ⟨available, ?_⟩
    split at acted
    · cases acted
    · next name parts split =>
      split at acted
      · cases acted
      · rw [username_actOn acted]
        exact notMem_of_mem_splitOn (split ▸ List.mem_cons_self)
  · cases acted

theorem exact_web_iff (method : Method) {request : ClientRequest} {more : List Bytes} (is : IsRest more)
    (named : Auth.bytesOf text ∉ [[], ascii ".", ascii ".."])
    (replied : request.reply hasStore =
      some (serve hasStore method (usersPath ++ encodeURIComponent text ++ rooted more)))
    (done : ∃ reason, actOn method (Auth.bytesOf text) more [] = .acted (request.asked reason))
    (asks : ∀ reason, (request.asked reason).username = Auth.bytesOf text) :
    request.Exact hasStore ↔ hasStore = true ∧ slash ∉ Auth.bytesOf text := by
  rw [ClientRequest.Exact, replied, serve_web named hasStore method is]
  constructor
  · intro exact
    obtain ⟨reason, acted⟩ := exact _ rfl
    rw [← asks reason]
    exact apiUser_acted acted
  · rintro ⟨available, clean⟩ reply member
    have split := splitOn_rooted (fun part member => (is.names part member).2.2.2) clean
    obtain ⟨reason, done⟩ := done
    refine ⟨reason, ?_⟩
    rw [← Option.some.inj member, apiUser, split, if_pos available, ← done]
    exact if_neg fun empty => named (by rw [empty]; exact List.mem_cons_self)

/-- **Who a request of an admin client reaches.** For every name that is not empty, `.` or `..`, and every request that
the clients build: the handler that receives it acts on exactly the user, and the address, that were named, if and
only if the Go client was given plain texts, or the web client a name without a slash. -/
theorem exact_iff (hasStore : Bool) (request : ClientRequest)
    (named : request.username ∉ [[], ascii ".", ascii ".."]) :
    request.Exact hasStore ↔ request.Addressable hasStore := by
  have filled : request.username ≠ [] := fun empty => named (by rw [empty]; exact List.mem_cons_self)
  have nothing : IsRest [] := ⟨fun _ member => absurd member List.not_mem_nil, by decide, by decide⟩
  have alone (text : String) :
      usersPath ++ encodeURIComponent text ++ rooted [] = usersPath ++ encodeURIComponent text := List.append_nil _
  cases request with
  | kickUser username => exact exact_kickUser_iff hasStore filled
  | kickSession username remoteAddr => exact exact_kickSession_iff hasStore filled remoteAddr
  | webDeleteUser username =>
    refine exact_web_iff .delete nothing named ?_ ⟨[], ?_⟩ fun _ => rfl
    · rw [alone, ClientRequest.reply]
    · rw [actOn, if_neg (by decide), ClientRequest.asked]
  | webPatchUser username =>
    refine exact_web_iff .patch nothing named ?_ ⟨[], ?_⟩ fun _ => rfl
    · rw [alone, ClientRequest.reply]
    · rw [actOn, if_neg (by decide), ClientRequest.asked]
  | webKickUser username =>
    have kick : IsRest [ascii "kick"] := ⟨by decide, by decide, by decide⟩
    have path : ascii "/kick" = rooted [ascii "kick"] := by decide
    refine exact_web_iff .post kick named ?_ ⟨reasonOr [] suspended, ?_⟩ fun _ => rfl
    · rw [ClientRequest.reply, path]
    · rw [actOn, if_pos rfl, if_pos rfl, ClientRequest.asked]

theorem exact_plainNames :
    (ClientRequest.kickSession (ascii "bob@home") (ascii "[::1]:5000")).Exact true ∧
      (ClientRequest.webDeleteUser "50%+1 #2").Exact true :=
  ⟨(exact_iff true (.kickSession (ascii "bob@home") (ascii "[::1]:5000")) (by decide)).mpr fun _ => by decide,
    (exact_iff true (.webDeleteUser "50%+1 #2") (by decide)).mpr ⟨rfl, by decide⟩⟩

/-- **Another user.** The Go client asks for `alice#1`, and `alice` is kicked; the web client asks for `alice/1`, and
`alice` is deleted. -/
theorem another_user :
    (ClientRequest.kickUser (ascii "alice#1")).reply true = some (.acted (.kickUser (ascii "alice") suspended)) ∧
      (ClientRequest.webDeleteUser "alice/1").reply true = some (.acted (.deleteUser (ascii "alice"))) ∧
      ¬(ClientRequest.kickUser (ascii "alice#1")).Exact true ∧
      ¬(ClientRequest.webDeleteUser "alice/1").Exact true := by
  have kicked : (ClientRequest.kickUser (ascii "alice#1")).reply true =
      some (.acted (.kickUser (ascii "alice") suspended)) := by decide +kernel
  have deleted : (ClientRequest.webDeleteUser "alice/1").reply true =
      some (.acted (.deleteUser (ascii "alice"))) := by decide +kernel
  refine ⟨kicked, deleted, fun exact => ?_, fun exact => ?_⟩
  · obtain ⟨_, same⟩ := exact _ kicked
    exact absurd (Action.kickUser.inj (Reply.acted.inj same)).1 (by decide)
  · obtain ⟨_, same⟩ := exact _ deleted
    exact absurd (Action.deleteUser.inj (Reply.acted.inj same)) (by decide)

end Ttgo.Server.AdminClients

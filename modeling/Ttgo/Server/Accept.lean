/-
**`randomListener.Accept`.**

`internal/server/listener.go`: `Accept` takes the next connection and reads the first 43 bytes of it before it returns;
a connection that ends before that is closed, and the loop takes the next one. There is no deadline.

* `Peer` — a connection with the bytes that arrive on it, and whether its end is seen.
* `readAtLeast`, `accept` — one call; `accepted` — what repeated calls return.
* `servesAll_iff` — every connection that delivers its bytes is returned exactly if no silent one comes before it.
-/

import Ttgo.Server.Listener

namespace Ttgo.Server

/-! ### The peers -/

def tlsMinClientHelloLen : Nat := 43

structure Peer where
  conn : NetConn
  /-- All the bytes that ever arrive. -/
  data : List UInt8
  /-- The peer closes the connection, or it breaks. -/
  closes : Bool
deriving DecidableEq, Repr

namespace Peer

def delivers (peer : Peer) : Bool := tlsMinClientHelloLen ≤ peer.data.length

/-- The connection stays open and its bytes do not come. -/
def silent (peer : Peer) : Bool := !peer.delivers && !peer.closes

end Peer

/-! ### The listener -/

inductive ReadResult where
  | full (buf : List UInt8)
  | failed
  | blocked
deriving DecidableEq, Repr

/-- `io.ReadAtLeast` into a buffer of that length. -/
def readAtLeast (peer : Peer) (length : Nat) : ReadResult :=
  if length ≤ peer.data.length then .full (peer.data.take length)
  else if peer.closes then .failed
  else .blocked

structure RandomConn where
  conn : NetConn
  buf : List UInt8
  random : List UInt8
deriving DecidableEq, Repr

/-- `Accept` on the connections that come in: what it returns and those that are still to come; `none` where it does
not return. -/
def accept : List Peer → Option (RandomConn × List Peer)
  | [] => none
  | peer :: rest =>
    match readAtLeast peer tlsMinClientHelloLen with
    | .full buf => some (⟨peer.conn, buf, extractClientRandom buf⟩, rest)
    | .failed => accept rest
    | .blocked => none

/-- What so many calls return, one after the other. -/
def accepted : Nat → List Peer → List RandomConn
  | 0, _ => []
  | calls + 1, peers =>
    match accept peers with
    | none => []
    | some (conn, rest) => conn :: accepted calls rest

/-! ### Every connection that delivers is returned -/

/-- Some call returns every connection that delivers its bytes. -/
def ServesAll (peers : List Peer) : Prop :=
  ∀ peer ∈ peers, peer.delivers = true → ∃ calls, ∃ conn ∈ accepted calls peers, conn.conn = peer.conn

variable {peer : Peer} {rest peers : List Peer}

theorem accept_delivers (delivers : peer.delivers = true) (rest : List Peer) :
    ∃ conn, conn.conn = peer.conn ∧ accept (peer :: rest) = some (conn, rest) := by
  have enough : tlsMinClientHelloLen ≤ peer.data.length := of_decide_eq_true delivers
  exact ⟨_, rfl, by rw [accept, readAtLeast, if_pos enough]⟩

theorem accept_closes (short : peer.delivers = false) (closes : peer.closes = true) (rest : List Peer) :
    accept (peer :: rest) = accept rest := by
  have missing : ¬ tlsMinClientHelloLen ≤ peer.data.length := of_decide_eq_false short
  rw [accept, readAtLeast, if_neg missing, if_pos closes]

theorem accept_silent (silent : peer.silent = true) (rest : List Peer) : accept (peer :: rest) = none := by
  simp only [Peer.silent, Bool.and_eq_true, Bool.not_eq_true'] at silent
  have missing : ¬ tlsMinClientHelloLen ≤ peer.data.length := of_decide_eq_false silent.1
  rw [accept, readAtLeast, if_neg missing, if_neg (by simp [silent.2])]

theorem accepted_congr {other : List Peer} (same : accept peers = accept other) (calls : Nat) :
    accepted calls peers = accepted calls other := by
  cases calls with
  | zero => rfl
  | succ calls => rw [accepted, accepted, same]

theorem servesAll_delivers (delivers : peer.delivers = true) (fresh : ∀ other ∈ rest, other.conn ≠ peer.conn) :
    ServesAll (peer :: rest) ↔ ServesAll rest := by
  obtain ⟨first, named, taken⟩ := accept_delivers delivers rest
  have after : ∀ calls, accepted (calls + 1) (peer :: rest) = first :: accepted calls rest := by
    intro calls
    rw [accepted, taken]
  constructor
  · intro serves other member delivers'
    obtain ⟨calls, conn, returned, same⟩ := serves other (List.mem_cons_of_mem _ member) delivers'
    cases calls with
    | zero => cases returned
    | succ calls =>
      rw [after] at returned
      rcases List.mem_cons.mp returned with rfl | returned
      · exact absurd (same.symm.trans named) (fresh other member)
      · exact ⟨calls, conn, returned, same⟩
  · intro serves other member delivers'
    rcases List.mem_cons.mp member with rfl | member
    · exact ⟨1, first, by simp [after], named⟩
    · obtain ⟨calls, conn, returned, same⟩ := serves other member delivers'
      exact ⟨calls + 1, conn, by simp [after, returned], same⟩

theorem servesAll_closes (short : peer.delivers = false) (closes : peer.closes = true) :
    ServesAll (peer :: rest) ↔ ServesAll rest := by
  have same := accepted_congr (accept_closes short closes rest)
  unfold ServesAll
  simp only [List.forall_mem_cons, short, Bool.false_eq_true, false_implies, true_and, same]

theorem servesAll_silent (silent : peer.silent = true) :
    ServesAll (peer :: rest) ↔ ∀ other ∈ rest, other.delivers = false := by
  have nothing : ∀ calls, accepted calls (peer :: rest) = [] := by
    intro calls
    cases calls with
    | zero => rfl
    | succ calls => rw [accepted, accept_silent silent]
  have short : peer.delivers = false := by
    simp only [Peer.silent, Bool.and_eq_true, Bool.not_eq_true'] at silent
    exact silent.1
  unfold ServesAll
  simp [nothing, short]

/-- **Every connection that delivers its bytes is returned exactly if no silent one comes before it.** -/
theorem servesAll_iff (peers : List Peer) (distinct : (peers.map Peer.conn).Nodup) :
    ServesAll peers ↔ peers.Pairwise fun earlier later => earlier.silent = true → later.delivers = false := by
  induction peers with
  | nil => simp [ServesAll]
  | cons peer rest ih =>
    rw [List.map_cons, List.nodup_cons] at distinct
    obtain ⟨fresh, distinct⟩ := distinct
    rw [List.pairwise_cons, ← ih distinct]
    cases silent : peer.silent with
    | true =>
      rw [servesAll_silent silent]
      constructor
      · intro none
        refine ⟨fun other member _ => none other member, fun other member delivers => ?_⟩
        rw [none other member] at delivers
        cases delivers
      · exact fun both other member => both.1 other member rfl
    | false =>
      have alone : ∀ other ∈ rest, false = true → other.delivers = false := fun _ _ absurd => by cases absurd
      rw [and_iff_right alone]
      cases delivers : peer.delivers with
      | true =>
        refine servesAll_delivers delivers fun other member same => ?_
        exact fresh (same ▸ List.mem_map_of_mem member)
      | false =>
        refine servesAll_closes delivers ?_
        simpa [Peer.silent, delivers] using silent

/-- A connection that stays open and on which nothing arrives. -/
def mute (fd : Nat) : Peer := ⟨⟨fd, "192.0.2.1:1000"⟩, [], false⟩

def scanner (fd : Nat) : Peer := ⟨⟨fd, "192.0.2.2:1000"⟩, [], true⟩

/-- A connection on which a `ClientHello` arrives. -/
def caller (fd : Nat) : Peer := ⟨⟨fd, "192.0.2.3:1000"⟩, 0x16 :: List.replicate 60 1, false⟩

theorem servesAll_behind_scanner : ServesAll [scanner 1, caller 2, mute 3] :=
  (servesAll_iff [scanner 1, caller 2, mute 3] (by decide)).mpr (by decide)

/-- **A connection on which nothing arrives holds up the next one**: no call returns it. -/
theorem not_servesAll_behind_mute : (∀ calls, accepted calls [mute 1, caller 2] = []) ∧
    ¬ ServesAll [mute 1, caller 2] := by
  have nothing : ∀ calls, accepted calls [mute 1, caller 2] = [] := by
    intro calls
    cases calls with
    | zero => rfl
    | succ calls => rfl
  refine ⟨nothing, fun serves => ?_⟩
  obtain ⟨calls, conn, returned, -⟩ := serves (caller 2) (by decide) (by decide)
  rw [nothing] at returned
  cases returned

end Ttgo.Server

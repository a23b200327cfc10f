/-
**Peeking at a connection.**

`randomListener.Accept` of `internal/server/listener.go` reads the first 43 bytes of a connection, in whatever pieces
they arrive, and `randomConn.Read` gives them back before it reads on. The reads after it are to see the stream as if
nobody had looked at it.

* `RandomConn`, `RandomConn.read`, `accept` — the code, over the pieces of a connection.
* `RandomConn.left` — what is still to be read; `left_read` — a `Read` returns what stands in front of it.
* `whole_reads` — the same for any number of reads.
* `accept_eq_ok_iff` — when a connection is returned.
* `reads_transparent` — what any `Read` calls return, and what is left, are the stream.
* `accept_refines` — without its pieces, this is `accept` on the peers.
-/

import Ttgo.Lib.Reader
import Ttgo.Lib.Run
import Ttgo.Server.Accept

namespace Ttgo.Server.Peek

open Ttgo.Lib Reader

variable {ε : Type}

/-! ### The code -/

/-- A TCP connection: what its `Read` calls are going to see. -/
abbrev Conn (ε : Type) := List (Piece UInt8 ε)

structure RandomConn (ε : Type) where
  conn : Conn ε
  buf : List UInt8
  pos : Nat
  random : List UInt8
deriving DecidableEq, Repr

/-- `Read` into a buffer of that size. -/
def RandomConn.read (size : Nat) (c : RandomConn ε) : Option (Piece UInt8 ε × RandomConn ε) :=
  if c.pos < c.buf.length then
    let bytes := (c.buf.drop c.pos).take size
    some (⟨bytes, none⟩, { c with pos := c.pos + bytes.length })
  else (Reader.read size c.conn).map fun (result, conn) => (result, { c with conn })

/-- `Accept`, on what the inner `Accept` is going to return; nothing where it does not return. -/
def accept (unexpected : ε → ε) :
    List (Except ε (Conn ε)) → Option (Except ε (RandomConn ε) × List (Except ε (Conn ε)))
  | [] => none
  | .error err :: rest => some (.error err, rest)
  | .ok conn :: rest =>
    match Reader.readAtLeast unexpected tlsMinClientHelloLen [] conn with
    | none => none
    -- the connection is closed, and the loop goes on
    | some (.error _, _) => accept unexpected rest
    | some (.ok buf, conn) => some (.ok ⟨conn, buf, 0, extractClientRandom buf⟩, rest)

/-! ### What is still to be read -/

variable {c c' : RandomConn ε} {result : Piece UInt8 ε} {size : Nat} {unexpected : ε → ε} {conn : Conn ε}
  {incoming more rest : List (Except ε (Conn ε))}

/-- The rest of the buffer, and then that of the connection. -/
def RandomConn.left (c : RandomConn ε) : List UInt8 := c.buf.drop c.pos ++ stream c.conn

/-- **A `Read` returns what stands in front**, from the buffer or from the connection. -/
theorem left_read (returns : c.read size = some (result, c')) :
    c.left = result.bytes ++ c'.left ∧ result.bytes.length ≤ size := by
  unfold RandomConn.read at returns
  split at returns
  · cases returns
    refine ⟨?_, List.length_take_le ..⟩
    have parts := List.prefix_iff_eq_append.mp (List.take_prefix size (c.buf.drop c.pos))
    rw [RandomConn.left, RandomConn.left, ← List.append_assoc, ← List.drop_drop, parts]
  · next past =>
    obtain ⟨⟨piece, conn⟩, reads, same⟩ := Option.map_eq_some_iff.mp returns
    cases same
    have empty : c.buf.drop c.pos = [] := List.drop_eq_nil_of_le (Nat.le_of_not_lt past)
    obtain ⟨front, fits⟩ := stream_read reads
    refine ⟨?_, fits⟩
    rw [RandomConn.left, RandomConn.left, empty, List.nil_append, List.nil_append, front]

/-- One `Read` after others, with the bytes that were returned. -/
def step (s : RandomConn ε × List UInt8) (size : Nat) : Option (RandomConn ε × List UInt8) :=
  (s.1.read size).map fun (result, c) => (c, s.2 ++ result.bytes)

/-- What was returned and what is left are a stream. -/
def Whole (bytes : List UInt8) (s : RandomConn ε × List UInt8) : Prop := s.2 ++ s.1.left = bytes

theorem whole_step {bytes : List UInt8} {s next : RandomConn ε × List UInt8} (whole : Whole bytes s)
    (taken : step s size = some next) : Whole bytes next := by
  obtain ⟨⟨result, c'⟩, returns, rfl⟩ := Option.map_eq_some_iff.mp taken
  show s.2 ++ result.bytes ++ c'.left = bytes
  rw [List.append_assoc, ← (left_read returns).1]
  exact whole

/-- **Whatever the reads are**, what they return and what is left are what there was to be read. -/
theorem whole_reads {sizes : List Nat} {out : List UInt8} (reads : run step (c, []) sizes = some (c', out)) :
    Whole c.left (c', out) := by
  have start : Whole c.left (c, []) := List.nil_append _
  exact run_invariant' (fun _ _ _ whole taken => whole_step whole taken) start reads

/-! ### What is returned -/

theorem length_accept {returned : Except ε (RandomConn ε)}
    (done : accept unexpected incoming = some (returned, rest)) : rest.length < incoming.length := by
  induction incoming with
  | nil => cases done
  | cons first incoming ih =>
    cases first with
    | error err =>
      cases done
      exact Nat.lt_succ_self _
    | ok conn =>
      rw [accept] at done
      split at done
      · cases done
      · exact Nat.lt_trans (ih done) (Nat.lt_succ_self _)
      · cases done
        exact Nat.lt_succ_self _

theorem accept_eq_ok_iff : accept unexpected (.ok conn :: more) = some (.ok c, more) ↔
    ∃ buf left, Reader.readAtLeast unexpected tlsMinClientHelloLen [] conn = some (.ok buf, left) ∧
      c = ⟨left, buf, 0, extractClientRandom buf⟩ := by
  rw [accept]
  split
  · next blocked => simp [blocked]
  · next err left failed =>
    constructor
    · intro later
      exact absurd (length_accept later) (lt_irrefl _)
    · rintro ⟨buf, left', full, -⟩
      cases failed.symm.trans full
  · next buf left full =>
    constructor
    · intro returned
      cases returned
      exact ⟨buf, left, full, rfl⟩
    · rintro ⟨buf', left', full', rfl⟩
      cases full.symm.trans full'
      rfl

/-- **Peeking is transparent.** `Accept` returns a connection exactly if its 43 bytes come before an error; and then,
for all `Read` calls with buffers of any sizes, the bytes that they return are the beginning of the stream, and what is
left is all the rest of it. -/
theorem reads_transparent (unexpected : ε → ε) (conn : Conn ε) (more : List (Except ε (Conn ε))) :
    ((∃ c, accept unexpected (.ok conn :: more) = some (.ok c, more)) ↔ intact tlsMinClientHelloLen conn = true) ∧
      ∀ c, accept unexpected (.ok conn :: more) = some (.ok c, more) →
        c.buf = (stream conn).take tlsMinClientHelloLen ∧
        ∀ sizes c' out, run step (c, []) sizes = some (c', out) →
          out <+: stream conn ∧ out ++ c'.left = stream conn := by
  refine ⟨?_, fun c accepted => ?_⟩
  · have succeeds : (∃ buf left, Reader.readAtLeast unexpected tlsMinClientHelloLen [] conn = some (.ok buf, left)) ↔
        intact tlsMinClientHelloLen conn = true := readAtLeast_ok_iff (Nat.zero_le _)
    simp only [← succeeds, accept_eq_ok_iff]
    exact ⟨fun ⟨_, buf, left, full, _⟩ => ⟨buf, left, full⟩, fun ⟨buf, left, full⟩ => ⟨_, buf, left, full, rfl⟩⟩
  · obtain ⟨buf, left, full, rfl⟩ := accept_eq_ok_iff.mp accepted
    have empty : ([] : List UInt8).length ≤ tlsMinClientHelloLen := Nat.zero_le _
    obtain ⟨length, whole⟩ := readAtLeast_eq_ok empty full
    rw [List.nil_append] at whole
    refine ⟨by rw [whole, List.take_left' length], fun sizes c' out reads => ?_⟩
    have all : out ++ c'.left = stream conn := (whole_reads reads).trans whole.symm
    exact ⟨⟨c'.left, all⟩, all⟩

/-- A read within the buffer, an empty one, one that ends at the end of the buffer, and one of the connection. -/
theorem reads_transparent_straddling :
    let conn : Conn Unit := [⟨List.replicate 20 1, none⟩, ⟨List.replicate 30 2, none⟩]
    let buf := List.replicate 20 1 ++ List.replicate 23 2
    let c : RandomConn Unit := ⟨[⟨List.replicate 7 2, none⟩], buf, 0, extractClientRandom buf⟩
    accept id [.ok conn] = some (.ok c, []) ∧
      ∃ c', run step (c, []) [40, 0, 10, 7] = some (c', stream conn) := by
  intro conn buf c
  have accepted : accept id [.ok conn] = some (.ok c, []) := rfl
  obtain ⟨⟨c', out⟩, reads, all⟩ : ∃ s, run step (c, []) [40, 0, 10, 7] = some s ∧ s.2.length = 50 := ⟨_, rfl, rfl⟩
  obtain ⟨front, -⟩ := ((reads_transparent id conn []).2 c accepted).2 _ c' out reads
  exact ⟨accepted, c', front.eq_of_length all ▸ reads⟩

/-! ### Without the pieces -/

/-- The pieces of a peer: its bytes, cut somewhere, and then an error if its end is seen. -/
def Delivers (peer : Peer) (conn : Conn ε) : Prop :=
  ∃ (chunks : List (List UInt8)) (closing : Option ε), chunks.flatten = peer.data ∧ closing.isSome = peer.closes ∧
    conn = clean chunks (closing.toList.map fun err => ⟨[], some err⟩)

theorem readAtLeast_delivers {peer : Peer} (delivers : Delivers peer conn) (unexpected : ε → ε) (count : Nat) :
    match Server.readAtLeast peer count with
    | .full buf => ∃ left, Reader.readAtLeast unexpected count [] conn = some (.ok buf, left)
    | .failed => ∃ err left, Reader.readAtLeast unexpected count [] conn = some (.error err, left)
    | .blocked => Reader.readAtLeast unexpected count [] conn = none := by
  obtain ⟨chunks, closing, data, closes, rfl⟩ := delivers
  have room : ([] : List UInt8).length ≤ count := Nat.zero_le _
  rw [Server.readAtLeast, ← data, ← closes]
  by_cases enough : count ≤ chunks.flatten.length
  · rw [if_pos enough]
    obtain ⟨buf, left, full⟩ : ∃ buf left, Reader.readAtLeast unexpected count [] (clean chunks _) =
        some (.ok buf, left) := (readAtLeast_ok_iff room).mpr (intact_clean enough)
    obtain ⟨length, whole⟩ := readAtLeast_eq_ok room full
    rw [List.nil_append, stream_clean] at whole
    refine ⟨left, ?_⟩
    have front : chunks.flatten.take count = buf := by
      have taken := congrArg (List.take count) whole
      rwa [List.take_append_of_le_length enough, List.take_left' length] at taken
    rw [full, front]
  · rw [if_neg enough]
    have short : ([] ++ chunks.flatten : List UInt8).length < count := Nat.lt_of_not_le enough
    rw [readAtLeast_clean short, List.nil_append]
    cases closing with
    | none =>
      show Reader.readAtLeast unexpected count chunks.flatten [] = none
      rw [Reader.readAtLeast, if_neg enough]
    | some err =>
      show ∃ cause left,
        Reader.readAtLeast unexpected count chunks.flatten [⟨[], some err⟩] = some (.error cause, left)
      rw [Reader.readAtLeast, if_neg enough]
      simp only [List.length_nil, Nat.zero_le, if_true, List.append_nil, finish, if_neg enough]
      exact ⟨_, _, rfl⟩

/-- **`Accept` on the pieces is `accept` on the peers**: it returns for the same connections, with the same buffer and
the same random. -/
theorem accept_refines {peers : List Peer} {conns : List (Conn ε)} (delivers : List.Forall₂ Delivers peers conns)
    (unexpected : ε → ε) :
    match Server.accept peers with
    | none => accept unexpected (conns.map .ok) = none
    | some (conn, rest) => ∃ c left, accept unexpected (conns.map .ok) = some (.ok c, left.map .ok) ∧
        c.buf = conn.buf ∧ c.random = conn.random ∧ List.Forall₂ Delivers rest left := by
  induction delivers with
  | nil => rfl
  | cons first others ih =>
    have read := readAtLeast_delivers first unexpected tlsMinClientHelloLen
    rw [Server.accept]
    cases outcome : Server.readAtLeast _ tlsMinClientHelloLen with
    | full buf =>
      rw [outcome] at read
      obtain ⟨left, full⟩ := read
      refine ⟨⟨left, buf, 0, extractClientRandom buf⟩, _, ?_, rfl, rfl, others⟩
      rw [List.map_cons, accept, full]
    | failed =>
      rw [outcome] at read
      obtain ⟨err, left, failed⟩ := read
      simpa only [List.map_cons, accept, failed] using ih
    | blocked =>
      rw [outcome] at read
      show accept unexpected (_ :: _) = none
      rw [accept, read]

end Ttgo.Server.Peek

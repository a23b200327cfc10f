/-
**Readers.**

An `io.Reader` is given by what its `Read` calls are going to see: pieces of a stream, each perhaps with an error. A
`Read` takes as much of the first piece as its buffer holds; a piece that was read to its end is gone, and its error is
returned with its last bytes. Where no piece is left, a `Read` does not return. Some pieces may be empty, so that every
behaviour of a reader is that of some list of pieces.

* `Piece`, `stream` — the pieces, and the bytes of all of them.
* `read` — one `Read`; `stream_read` — what it returns stood in front.
* `readAtLeast` — `io.ReadAtLeast`; `readAtLeast_eq` — its loop; `readAtLeast_eq_ok` — what it returns.
* `intact` — so many bytes come before an error; `readAtLeast_ok_iff` — `io.ReadAtLeast` succeeds exactly then.
* `clean` — pieces without errors; `readAtLeast_clean`, `intact_clean` — it does not matter how they are cut.
-/

import Mathlib.Data.List.Basic

namespace Ttgo.Lib.Reader

/-- Bytes, and the error that comes with them. -/
structure Piece (α ε : Type) where
  bytes : List α
  err : Option ε
deriving DecidableEq, Repr

variable {α ε : Type}

def stream (pieces : List (Piece α ε)) : List α := pieces.flatMap Piece.bytes

/-- `Read` into a buffer of that size: what it returns, and what is left. -/
def read (size : Nat) : List (Piece α ε) → Option (Piece α ε × List (Piece α ε))
  | [] => none
  | piece :: rest =>
    if piece.bytes.length ≤ size then some (piece, rest)
    else some (⟨piece.bytes.take size, none⟩, ⟨piece.bytes.drop size, piece.err⟩ :: rest)

/-- What `io.ReadAtLeast` returns after an error; `unexpected` is what it makes of one that comes after some bytes. -/
def finish (unexpected : ε → ε) (count : Nat) (got : List α) (err : ε) : Except ε (List α) :=
  if count ≤ got.length then .ok got
  else .error (if got = [] then err else unexpected err)

/-- `io.ReadAtLeast` of as many bytes as its buffer holds, from where it has got some; nothing where it does not
return. -/
def readAtLeast (unexpected : ε → ε) (count : Nat) (got : List α) (pieces : List (Piece α ε)) :
    Option (Except ε (List α) × List (Piece α ε)) :=
  if count ≤ got.length then some (.ok got, pieces)
  else
    match pieces with
    | [] => none
    | piece :: rest =>
      if piece.bytes.length ≤ count - got.length then
        match piece.err with
        | none => readAtLeast unexpected count (got ++ piece.bytes) rest
        | some err => some (finish unexpected count (got ++ piece.bytes) err, rest)
      else
        some (.ok (got ++ piece.bytes.take (count - got.length)),
          ⟨piece.bytes.drop (count - got.length), piece.err⟩ :: rest)

variable {size count : Nat} {got bytes : List α} {result : Piece α ε} {pieces rest : List (Piece α ε)}
  {unexpected : ε → ε}

@[simp] theorem stream_cons (piece : Piece α ε) (pieces : List (Piece α ε)) :
    stream (piece :: pieces) = piece.bytes ++ stream pieces := rfl

/-- **What a `Read` returns stood in front**, and fits the buffer. -/
theorem stream_read (returns : read size pieces = some (result, rest)) :
    stream pieces = result.bytes ++ stream rest ∧ result.bytes.length ≤ size := by
  cases pieces with
  | nil => cases returns
  | cons piece pieces =>
    rw [read] at returns
    split at returns
    · next fits =>
      cases returns
      exact ⟨rfl, fits⟩
    · cases returns
      refine ⟨?_, List.length_take_le ..⟩
      rw [stream_cons, stream_cons, ← List.append_assoc, List.take_append_drop]

theorem finish_eq_ok {err : ε} : finish unexpected count got err = .ok bytes ↔ count ≤ got.length ∧ got = bytes := by
  rw [finish]
  split
  · next enough => exact ⟨fun same => ⟨enough, Except.ok.inj same⟩, fun ⟨_, same⟩ => congrArg _ same⟩
  · next missing => exact ⟨fun same => (by cases same), fun ⟨enough, _⟩ => absurd enough missing⟩

theorem readAtLeast_eq (unexpected : ε → ε) (count : Nat) (got : List α) (pieces : List (Piece α ε)) :
    readAtLeast unexpected count got pieces =
      if count ≤ got.length then some (.ok got, pieces)
      else (read (count - got.length) pieces).bind fun (result, rest) =>
        match result.err with
        | none => readAtLeast unexpected count (got ++ result.bytes) rest
        | some err => some (finish unexpected count (got ++ result.bytes) err, rest) := by
  conv_lhs => rw [readAtLeast.eq_def]
  by_cases enough : count ≤ got.length
  · rw [if_pos enough, if_pos enough]
  rw [if_neg enough, if_neg enough]
  cases pieces with
  | nil => rfl
  | cons piece rest =>
    rw [read]
    by_cases fits : piece.bytes.length ≤ count - got.length
    · rw [if_pos fits]
      simp only [fits, if_true, Option.bind_some]
    · have full : count ≤ (got ++ piece.bytes.take (count - got.length)).length := by
        rw [List.length_append, List.length_take]
        omega
      rw [if_neg fits]
      simp only [fits, if_false, Option.bind_some]
      rw [readAtLeast.eq_def, if_pos full]

/-- **What `io.ReadAtLeast` returns** is the front of the stream, as long as the buffer; the rest is left. -/
theorem readAtLeast_eq_ok (room : got.length ≤ count)
    (returns : readAtLeast unexpected count got pieces = some (.ok bytes, rest)) :
    bytes.length = count ∧ got ++ stream pieces = bytes ++ stream rest := by
  induction pieces generalizing got with
  | nil =>
    rw [readAtLeast] at returns
    split at returns
    · next enough =>
      cases returns
      exact ⟨Nat.le_antisymm room enough, rfl⟩
    · cases returns
  | cons piece pieces ih =>
    rw [readAtLeast] at returns
    split at returns
    · next enough =>
      cases returns
      exact ⟨Nat.le_antisymm room enough, rfl⟩
    next missing =>
    split at returns
    · next fits =>
      have room' : (got ++ piece.bytes).length ≤ count := by
        rw [List.length_append]
        omega
      split at returns
      · obtain ⟨length, same⟩ := ih room' returns
        rw [List.append_assoc] at same
        exact ⟨length, same⟩
      · simp only [Option.some.injEq, Prod.mk.injEq, finish_eq_ok] at returns
        obtain ⟨⟨enough, rfl⟩, rfl⟩ := returns
        exact ⟨Nat.le_antisymm room' enough, (List.append_assoc ..).symm⟩
    · next long =>
      cases returns
      refine ⟨?_, ?_⟩
      · rw [List.length_append, List.length_take]
        omega
      · rw [stream_cons, stream_cons, List.append_assoc, ← List.append_assoc (List.take _ _), List.take_append_drop]

/-! ### When it succeeds -/

/-- So many bytes come before an error, or with it. -/
def intact : Nat → List (Piece α ε) → Bool
  | count, [] => count = 0
  | count, piece :: rest =>
    count ≤ piece.bytes.length || piece.err.isNone && intact (count - piece.bytes.length) rest

@[simp] theorem intact_zero (pieces : List (Piece α ε)) : intact 0 pieces = true := by
  cases pieces with
  | nil => rfl
  | cons piece rest => rw [intact, decide_eq_true (Nat.zero_le _), Bool.true_or]

/-- **`io.ReadAtLeast` succeeds** exactly if the bytes come before an error. -/
theorem readAtLeast_ok_iff (room : got.length ≤ count) :
    (∃ bytes rest, readAtLeast unexpected count got pieces = some (.ok bytes, rest)) ↔
      intact (count - got.length) pieces = true := by
  induction pieces generalizing got with
  | nil =>
    rw [readAtLeast, intact, decide_eq_true_iff]
    split
    · next enough => exact ⟨fun _ => by omega, fun _ => ⟨got, [], rfl⟩⟩
    · next missing => exact ⟨fun ⟨_, _, blocked⟩ => (by cases blocked), fun done => (by omega)⟩
  | cons piece pieces ih =>
    rw [readAtLeast, intact, Bool.or_eq_true, decide_eq_true_iff, Bool.and_eq_true]
    by_cases enough : count ≤ got.length
    · rw [if_pos enough]
      exact ⟨fun _ => .inl (by omega), fun _ => ⟨got, _, rfl⟩⟩
    rw [if_neg enough]
    by_cases fits : piece.bytes.length ≤ count - got.length
    · have room' : (got ++ piece.bytes).length ≤ count := by
        rw [List.length_append]
        omega
      have missing : count - (got ++ piece.bytes).length = count - got.length - piece.bytes.length := by
        rw [List.length_append]
        omega
      simp only [fits, if_true]
      cases piece.err with
      | none =>
        dsimp only
        rw [ih room', missing]
        -- a piece that fills the buffer exactly leaves nothing to read
        refine ⟨fun later => .inr ⟨rfl, later⟩, fun either => either.elim (fun fills => ?_) And.right⟩
        rw [Nat.sub_eq_zero_of_le fills]
        exact intact_zero _
      | some err =>
        simp only [Option.some.injEq, Prod.mk.injEq, finish_eq_ok, List.length_append]
        constructor
        · rintro ⟨bytes, rest, ⟨full, -⟩, -⟩
          exact .inl (by omega)
        · rintro (fills | ⟨none, -⟩)
          · exact ⟨_, _, ⟨by omega, rfl⟩, rfl⟩
          · cases none
    · simp only [fits, if_false]
      exact ⟨fun _ => .inl (by omega), fun _ => ⟨_, _, rfl⟩⟩

/-! ### Pieces without errors -/

/-- Pieces without errors, and then others. -/
def clean (chunks : List (List α)) (tail : List (Piece α ε)) : List (Piece α ε) := chunks.map (⟨·, none⟩) ++ tail

@[simp] theorem stream_clean (chunks : List (List α)) (tail : List (Piece α ε)) :
    stream (clean chunks tail) = chunks.flatten ++ stream tail := by
  rw [clean, stream, List.flatMap_append, List.flatMap_map]
  exact congrArg (· ++ _) List.flatMap_id

theorem readAtLeast_clean {chunks : List (List α)} {tail : List (Piece α ε)}
    (short : (got ++ chunks.flatten).length < count) :
    readAtLeast unexpected count got (clean chunks tail) =
      readAtLeast unexpected count (got ++ chunks.flatten) tail := by
  induction chunks generalizing got with
  | nil => rw [List.flatten_nil, List.append_nil, clean, List.map_nil, List.nil_append]
  | cons chunk chunks ih =>
    rw [List.flatten_cons, ← List.append_assoc] at short ⊢
    have missing : ¬ count ≤ got.length := by
      simp only [List.length_append] at short
      omega
    have fits : chunk.length ≤ count - got.length := by
      simp only [List.length_append] at short
      omega
    rw [← ih short]
    show readAtLeast unexpected count got (⟨chunk, none⟩ :: clean chunks tail) = _
    rw [readAtLeast, if_neg missing]
    exact if_pos fits

theorem intact_clean {chunks : List (List α)} {tail : List (Piece α ε)} (enough : count ≤ chunks.flatten.length) :
    intact count (clean chunks tail) = true := by
  induction chunks generalizing count with
  | nil =>
    obtain rfl : count = 0 := Nat.le_zero.mp enough
    exact intact_zero _
  | cons chunk chunks ih =>
    rw [List.flatten_cons, List.length_append] at enough
    show (decide (count ≤ chunk.length) || true && intact (count - chunk.length) (clean chunks tail)) = true
    rw [ih (by omega), Bool.and_true, Bool.or_true]

end Ttgo.Lib.Reader

/-
**The random of a `ClientHello`, in any records.**

`extractClientRandom` of `internal/server/tlspeek.go` takes the random from fixed places of the stream, as if the
`ClientHello` were in one record. The handshake layer of TLS is what the records carry, one after the other, wherever
they are cut.

* `Record`, `Record.bytes` — a handshake record; `recordBytes`, `payloads` — of some records.
* `Hello` — the beginning of a `ClientHello`.
* `extractClientRandom_stream` — what is taken: the part of the random that is in the first record, and what stands
  behind that record.
* `extractClientRandom_iff` — when that is the random.
-/

import Ttgo.Server.Listener

namespace Ttgo.Server

/-! ### Records -/

/-- A handshake record; its length is written in two bytes. -/
structure Record where
  major : UInt8
  minor : UInt8
  payload : List UInt8
  bounded : payload.length < 65536

/-- The length of a record: two bytes, the high one first. -/
def Record.lengthBytes (r : Record) : List UInt8 :=
  [UInt8.ofNat (r.payload.length / 256), UInt8.ofNat (r.payload.length % 256)]

def Record.bytes (r : Record) : List UInt8 := [0x16, r.major, r.minor] ++ r.lengthBytes ++ r.payload

def recordBytes (records : List Record) : List UInt8 := records.flatMap Record.bytes

/-- The handshake layer. -/
def payloads (records : List Record) : List UInt8 := records.flatMap Record.payload

/-- The beginning of a `ClientHello`, up to its random. -/
structure Hello where
  /-- The length of the message. -/
  size : List UInt8
  size_length : size.length = 3
  version : List UInt8
  version_length : version.length = 2
  random : List UInt8
  random_length : random.length = 32

def Hello.bytes (hello : Hello) : List UInt8 := 0x01 :: hello.size ++ hello.version ++ hello.random

theorem Hello.drop_bytes (hello : Hello) (more : List UInt8) :
    (hello.bytes ++ more).drop 6 = hello.random ++ more := by
  have six : (0x01 :: hello.size ++ hello.version).length = 6 := by
    simp [hello.size_length, hello.version_length]
  rw [bytes, List.append_assoc, List.drop_left' six]

/-! ### What is taken -/

variable {first : Record} {records : List Record} {hello : Hello} {more rest : List UInt8}

/-- The bytes behind the first record. -/
def behind (records : List Record) (rest : List UInt8) : List UInt8 := recordBytes records ++ rest

theorem stream_eq (first : Record) (records : List Record) (rest : List UInt8) :
    recordBytes (first :: records) ++ rest =
      ([0x16, first.major, first.minor] ++ first.lengthBytes) ++ (first.payload ++ behind records rest) := by
  simp only [recordBytes, behind, List.flatMap_cons, Record.bytes, List.append_assoc]

theorem kind_stream (first : Record) (records : List Record) (rest : List UInt8) :
    ((recordBytes (first :: records) ++ rest).take 43).getD 5 0 = (first.payload ++ behind records rest).getD 0 0 := by
  rw [stream_eq, List.getD_eq_getElem?_getD, List.getElem?_take_of_lt (by decide), List.getD_eq_getElem?_getD]
  rfl

theorem head_behind (begins : payloads (first :: records) = hello.bytes ++ more) (empty : first.payload = [])
    (rest : List UInt8) : (behind records rest).getD 0 0 = 0x16 := by
  cases records with
  | nil =>
    rw [payloads, List.flatMap_cons, empty] at begins
    cases begins
  | cons second records => rfl

theorem head_payload (begins : payloads (first :: records) = hello.bytes ++ more) (filled : first.payload ≠ [])
    (after : List UInt8) : (first.payload ++ after).getD 0 0 = 0x01 := by
  obtain ⟨byte, payload, split⟩ := List.exists_cons_of_ne_nil filled
  rw [payloads, List.flatMap_cons, split] at begins
  rw [split]
  exact (List.cons.inj begins).1

theorem random_in_first (begins : payloads (first :: records) = hello.bytes ++ more) :
    (first.payload.drop 6).take 32 = hello.random.take (first.payload.length - 6) := by
  have start : first.payload = (hello.bytes ++ more).take first.payload.length := by
    rw [← begins, payloads, List.flatMap_cons, List.take_left]
  rw [start, List.drop_take, hello.drop_bytes, List.take_take, ← start, Nat.min_comm, ← List.take_take,
    List.take_left' hello.random_length]

theorem extractClientRandom_checked (begins : payloads (first :: records) = hello.bytes ++ more)
    (long : 43 ≤ (recordBytes (first :: records) ++ rest).length) (filled : first.payload ≠ []) :
    extractClientRandom ((recordBytes (first :: records) ++ rest).take 43) =
      (((recordBytes (first :: records) ++ rest).take 43).drop 11).take 32 := by
  have full : ((recordBytes (first :: records) ++ rest).take 43).length = 43 := by
    rw [List.length_take, Nat.min_eq_left long]
  have type : ((recordBytes (first :: records) ++ rest).take 43).getD 0 0 = 0x16 := rfl
  have kind : ((recordBytes (first :: records) ++ rest).take 43).getD 5 0 = 0x01 := by
    rw [kind_stream, head_payload begins filled]
  rw [extractClientRandom, if_neg (by omega), if_neg (by rw [type]; decide), if_neg (by rw [kind]; decide)]

/-- **What is taken from a stream**: the part of the random that is in the first record, and the bytes behind it. -/
theorem extractClientRandom_stream (begins : payloads (first :: records) = hello.bytes ++ more)
    (long : 43 ≤ (recordBytes (first :: records) ++ rest).length) (filled : first.payload ≠ []) :
    extractClientRandom ((recordBytes (first :: records) ++ rest).take 43) =
      hello.random.take (first.payload.length - 6) ++
        ((behind records rest).drop (6 - first.payload.length)).take (32 - (first.payload.length - 6)) := by
  have placed : (((recordBytes (first :: records) ++ rest).take 43).drop 11).take 32 =
      ((first.payload ++ behind records rest).drop 6).take 32 := by
    rw [List.drop_take, List.take_take, stream_eq]
    rfl
  rw [extractClientRandom_checked begins long filled, placed, List.drop_append, List.take_append,
    random_in_first begins, List.length_drop]

/-- **The random that is taken is that of the handshake**, or nil, for exactly these streams: they are shorter than a
`ClientHello`, the first record is empty or holds the whole random, or what stands behind it is by chance the rest of
the random. -/
theorem extractClientRandom_iff (first : Record) (records : List Record) (rest : List UInt8) (hello : Hello)
    (more : List UInt8) (begins : payloads (first :: records) = hello.bytes ++ more) :
    extractClientRandom ((recordBytes (first :: records) ++ rest).take 43) = [] ∨
        extractClientRandom ((recordBytes (first :: records) ++ rest).take 43) = hello.random ↔
      (recordBytes (first :: records) ++ rest).length < 43 ∨ first.payload = [] ∨
        38 ≤ first.payload.length ∨
        ((behind records rest).drop (6 - first.payload.length)).take (32 - (first.payload.length - 6)) =
          hello.random.drop (first.payload.length - 6) := by
  by_cases short : (recordBytes (first :: records) ++ rest).length < 43
  · have none : extractClientRandom ((recordBytes (first :: records) ++ rest).take 43) = [] := by
      rw [extractClientRandom, if_pos]
      rw [List.length_take]
      omega
    exact ⟨fun _ => .inl short, fun _ => .inl none⟩
  by_cases empty : first.payload = []
  · have none : extractClientRandom ((recordBytes (first :: records) ++ rest).take 43) = [] := by
      have kind : ((recordBytes (first :: records) ++ rest).take 43).getD 5 0 = 0x16 := by
        rw [kind_stream, empty]
        exact head_behind begins empty rest
      rw [extractClientRandom, kind]
      simp
    exact ⟨fun _ => .inr (.inl empty), fun _ => .inl none⟩
  · have parts : hello.random.take (first.payload.length - 6) ++ hello.random.drop (first.payload.length - 6) =
        hello.random := List.take_append_drop ..
    -- the part of the random in the first record is right, and the other part decides
    have right : extractClientRandom ((recordBytes (first :: records) ++ rest).take 43) = hello.random ↔
        ((behind records rest).drop (6 - first.payload.length)).take (32 - (first.payload.length - 6)) =
          hello.random.drop (first.payload.length - 6) := by
      rw [extractClientRandom_stream begins (Nat.le_of_not_lt short) empty]
      constructor
      · intro same
        exact List.append_cancel_left (same.trans parts.symm)
      · intro same
        rw [same, parts]
    have notNil : extractClientRandom ((recordBytes (first :: records) ++ rest).take 43) ≠ [] := by
      intro none
      have length := congrArg List.length none
      rw [extractClientRandom_checked begins (Nat.le_of_not_lt short) empty, List.length_take, List.length_drop,
        List.length_take, List.length_nil] at length
      omega
    have whole : 38 ≤ first.payload.length →
        ((behind records rest).drop (6 - first.payload.length)).take (32 - (first.payload.length - 6)) =
          hello.random.drop (first.payload.length - 6) := by
      intro enough
      have past : hello.random.drop (first.payload.length - 6) = [] :=
        List.drop_eq_nil_of_le (by rw [hello.random_length]; omega)
      rw [past, show 32 - (first.payload.length - 6) = 0 by omega, List.take_zero]
    rw [right, or_iff_right notNil, or_iff_right short, or_iff_right empty]
    exact ⟨.inr, fun either => either.elim whole id⟩

/-- A `ClientHello` of version 1.2 whose random is 32 times one byte. -/
def helloOf (byte : UInt8) : Hello :=
  ⟨[0, 0, 0x26], rfl, [0x03, 0x03], rfl, List.replicate 32 byte, List.length_replicate⟩

/-- The record of version 1.0 with a payload. -/
def recordOf (payload : List UInt8) (bounded : payload.length < 65536) : Record := ⟨0x03, 0x01, payload, bounded⟩

/-- All in one record: the random is taken. -/
theorem extractClientRandom_iff_whole :
    let stream := recordBytes [recordOf (helloOf 0xaa).bytes (by decide)] ++ []
    extractClientRandom (stream.take 43) = [] ∨ extractClientRandom (stream.take 43) = (helloOf 0xaa).random :=
  (extractClientRandom_iff (recordOf (helloOf 0xaa).bytes (by decide)) [] [] (helloOf 0xaa) [] rfl).mpr
    (.inr (.inr (.inl (by decide))))

/-- The first record ends before the random: the header of the second one is taken for its first bytes. -/
theorem random_of_split_hello :
    let first := recordOf ((helloOf 0xaa).bytes.take 6) (by decide)
    let second := recordOf ((helloOf 0xaa).bytes.drop 6) (by decide)
    let stream := recordBytes [first, second]
    payloads [first, second] = (helloOf 0xaa).bytes ∧
      extractClientRandom (stream.take 43) = [0x16, 0x03, 0x01, 0x00, 0x20] ++ List.replicate 27 0xaa ∧
      ¬ (extractClientRandom (stream.take 43) = [] ∨
        extractClientRandom (stream.take 43) = (helloOf 0xaa).random) := by
  decide +kernel

end Ttgo.Server

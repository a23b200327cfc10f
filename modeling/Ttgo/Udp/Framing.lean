/-
**The frames of a `_udp2` stream.**

`readOutgoing` of `internal/udp/mux.go` reads a frame through `io.ReadFull`, in whatever pieces the body of the request
arrives, and takes the fields out of a buffer of the announced length.

* `Outgoing`, `Outgoing.bytes` — a frame with the name of its application, and its encoding.
* `readOutgoing_eq_ok_iff` — what is read is a frame that the stream begins with, and nothing else.
* `Fails` — the streams on which each error is returned; `fails_of_readOutgoing`.
* `readChunks` — `io.ReadFull` on the pieces of a stream; `parseChecked` — the fields, where an index that is out of
  range panics; `readChecked` — `readOutgoing` of both.
* `readChecked_eq` — it never panics, and the pieces do not matter.
* `framing_exact` — a stream of frames comes back as these frames.
-/

import Mathlib.Data.List.GetD
import Mathlib.Data.List.Induction
import Ttgo.Udp.Reply

namespace Ttgo.Udp

open Ttgo.Lib Reply

/-! ### Numbers -/

theorem length_putBigEndian (count n : Nat) : (putBigEndian count n).length = count := by
  induction count generalizing n with
  | zero => rfl
  | succ count ih => rw [putBigEndian, List.length_append, ih, List.length_singleton]

theorem bigEndian_concat (front : List UInt8) (byte : UInt8) :
    bigEndian (front ++ [byte]) = bigEndian front * 256 + byte.toNat := by
  rw [bigEndian, List.foldl_append]
  rfl

theorem bigEndian_put {count n : Nat} (small : n < 256 ^ count) : bigEndian (putBigEndian count n) = n := by
  induction count generalizing n with
  | zero =>
    rw [pow_zero, Nat.lt_one_iff] at small
    rw [small]
    rfl
  | succ count ih =>
    have high : n / 256 < 256 ^ count := by
      rw [Nat.div_lt_iff_lt_mul (by decide), ← pow_succ]
      exact small
    rw [putBigEndian, bigEndian_concat, ih high, UInt8.toNat_ofNat']
    omega

theorem bigEndian_lt (bytes : List UInt8) : bigEndian bytes < 256 ^ bytes.length := by
  induction bytes using List.reverseRecOn with
  | nil => decide
  | append_singleton front byte ih =>
    have small := byte.toNat_lt
    rw [bigEndian_concat, List.length_append, List.length_singleton, pow_succ]
    omega

theorem put_bigEndian (bytes : List UInt8) : putBigEndian bytes.length (bigEndian bytes) = bytes := by
  induction bytes using List.reverseRecOn with
  | nil => rfl
  | append_singleton front byte ih =>
    have small := byte.toNat_lt
    have high : (bigEndian front * 256 + byte.toNat) / 256 = bigEndian front := by omega
    have low : UInt8.ofNat (bigEndian front * 256 + byte.toNat) = byte := by
      apply UInt8.toNat_inj.mp
      rw [UInt8.toNat_ofNat']
      omega
    rw [bigEndian_concat, List.length_append, List.length_singleton, putBigEndian, high, low, ih]

/-! ### Frames -/

/-- A frame with the name of its application, as a client sends it. -/
structure Outgoing where
  frame : Frame
  name : List UInt8
  srcIP_length : frame.srcIP.length = 16
  srcPort_lt : frame.srcPort < 256 ^ 2
  dstIP_length : frame.dstIP.length = 16
  dstPort_lt : frame.dstPort < 256 ^ 2
  name_lt : name.length < 256
  total_lt : 37 + name.length + frame.payload.length < 256 ^ 4

namespace Outgoing

/-- `[srcAddr:16][srcPort:2][dstAddr:16][dstPort:2]`. -/
def addresses (o : Outgoing) : List UInt8 :=
  o.frame.srcIP ++ (putBigEndian 2 o.frame.srcPort ++ (o.frame.dstIP ++ putBigEndian 2 o.frame.dstPort))

/-- `[srcAddr:16][srcPort:2][dstAddr:16][dstPort:2][appNameLen:1][appName:L][payload:N]`. -/
def body (o : Outgoing) : List UInt8 :=
  o.addresses ++ UInt8.ofNat o.name.length :: (o.name ++ o.frame.payload)

def bytes (o : Outgoing) : List UInt8 := putBigEndian 4 o.body.length ++ o.body

theorem length_addresses (o : Outgoing) : o.addresses.length = 36 := by
  simp only [addresses, List.length_append, length_putBigEndian, o.srcIP_length, o.dstIP_length]

theorem length_body (o : Outgoing) : o.body.length = 37 + o.name.length + o.frame.payload.length := by
  rw [body, List.length_append, List.length_cons, List.length_append, o.length_addresses]
  omega

theorem bigEndian_length (o : Outgoing) : bigEndian (putBigEndian 4 o.body.length) = o.body.length :=
  bigEndian_put (o.length_body ▸ o.total_lt)

end Outgoing

theorem parseBody_eq_ok {body : List UInt8} {frame : Frame} : parseBody body = .ok frame ↔
    37 + (body.getD 36 0).toNat ≤ body.length ∧
      frame = ⟨body.take 16, bigEndian ((body.drop 16).take 2), (body.drop 18).take 16,
        bigEndian ((body.drop 34).take 2), body.drop (37 + (body.getD 36 0).toNat)⟩ := by
  unfold parseBody
  split
  · next short =>
    refine ⟨fun read => (by cases read), fun ⟨enough, _⟩ => ?_⟩
    omega
  · dsimp only
    split
    · next overruns =>
      refine ⟨fun read => (by cases read), fun ⟨enough, _⟩ => ?_⟩
      omega
    · next enough =>
      rw [Except.ok.injEq, eq_comm]
      exact ⟨fun same => ⟨Nat.le_of_not_lt enough, same⟩, And.right⟩

theorem parseBody_body (o : Outgoing) : parseBody o.body = .ok o.frame := by
  have number : o.body.getD 36 0 = UInt8.ofNat o.name.length := by
    rw [Outgoing.body, List.getD_append_right _ _ _ _ (by rw [o.length_addresses]), o.length_addresses]
    rfl
  have size : (UInt8.ofNat o.name.length).toNat = o.name.length := by
    rw [UInt8.toNat_ofNat']
    exact Nat.mod_eq_of_lt o.name_lt
  rw [parseBody_eq_ok, number, size, o.length_body]
  refine ⟨by omega, ?_⟩
  have source : o.body.take 16 = o.frame.srcIP := by
    rw [Outgoing.body, Outgoing.addresses, List.append_assoc, List.take_left' o.srcIP_length]
  have sourcePort : (o.body.drop 16).take 2 = putBigEndian 2 o.frame.srcPort := by
    rw [Outgoing.body, Outgoing.addresses, List.append_assoc, List.drop_left' o.srcIP_length, List.append_assoc,
      List.take_left' (length_putBigEndian 2 _)]
  have destination : (o.body.drop 18).take 16 = o.frame.dstIP := by
    rw [Outgoing.body, Outgoing.addresses, ← List.append_assoc, List.append_assoc _ (o.frame.dstIP ++ _),
      List.drop_left' (by rw [List.length_append, o.srcIP_length, length_putBigEndian]), List.append_assoc,
      List.take_left' o.dstIP_length]
  have destinationPort : (o.body.drop 34).take 2 = putBigEndian 2 o.frame.dstPort := by
    rw [Outgoing.body, Outgoing.addresses, ← List.append_assoc, ← List.append_assoc, List.append_assoc _ _ (_ :: _),
      List.drop_left' (by simp only [List.length_append, o.srcIP_length, o.dstIP_length, length_putBigEndian]),
      List.take_left' (length_putBigEndian 2 _)]
  have payload : o.body.drop (37 + o.name.length) = o.frame.payload := by
    have whole : o.body = (o.addresses ++ UInt8.ofNat o.name.length :: o.name) ++ o.frame.payload := by
      rw [Outgoing.body, List.append_assoc, List.cons_append]
    rw [whole, List.drop_left']
    rw [List.length_append, List.length_cons, o.length_addresses]
    omega
  rw [source, sourcePort, destination, destinationPort, payload, bigEndian_put o.srcPort_lt,
    bigEndian_put o.dstPort_lt]

theorem drop_cut (bytes : List UInt8) (place count : Nat) :
    (bytes.drop place).take count ++ bytes.drop (place + count) = bytes.drop place := by
  rw [← List.drop_drop, List.take_append_drop]

theorem exists_body {body : List UInt8} {frame : Frame} (parsed : parseBody body = .ok frame)
    (small : body.length < 256 ^ 4) : ∃ o : Outgoing, o.frame = frame ∧ o.body = body := by
  obtain ⟨enough, rfl⟩ := parseBody_eq_ok.mp parsed
  have port : ∀ place, place + 2 ≤ body.length → ((body.drop place).take 2).length = 2 := by
    intro place inside
    rw [List.length_take, List.length_drop]
    omega
  have named : ((body.drop 37).take (body.getD 36 0).toNat).length = (body.getD 36 0).toNat := by
    rw [List.length_take, List.length_drop]
    omega
  have portBound : ∀ place, bigEndian ((body.drop place).take 2) < 256 ^ 2 := by
    intro place
    exact (bigEndian_lt _).trans_le (Nat.pow_le_pow_right (by decide) (List.length_take_le ..))
  have limit := (body.getD 36 0).toNat_lt
  let o : Outgoing :=
    { frame := ⟨body.take 16, bigEndian ((body.drop 16).take 2), (body.drop 18).take 16,
        bigEndian ((body.drop 34).take 2), body.drop (37 + (body.getD 36 0).toNat)⟩
      name := (body.drop 37).take (body.getD 36 0).toNat
      srcIP_length := by rw [List.length_take]; omega
      srcPort_lt := portBound 16
      dstIP_length := by rw [List.length_take, List.length_drop]; omega
      dstPort_lt := portBound 34
      name_lt := by rw [named]; omega
      total_lt := by rw [named, List.length_drop]; omega }
  refine ⟨o, rfl, ?_⟩
  have sourcePort : putBigEndian 2 (bigEndian ((body.drop 16).take 2)) = (body.drop 16).take 2 := by
    have written := put_bigEndian ((body.drop 16).take 2)
    rwa [port 16 (by omega)] at written
  have destinationPort : putBigEndian 2 (bigEndian ((body.drop 34).take 2)) = (body.drop 34).take 2 := by
    have written := put_bigEndian ((body.drop 34).take 2)
    rwa [port 34 (by omega)] at written
  have number : UInt8.ofNat (body.getD 36 0).toNat :: body.drop 37 = body.drop 36 := by
    have inside : 36 < body.length := by omega
    rw [List.drop_eq_getElem_cons inside, UInt8.ofNat_toNat, List.getD_eq_getElem _ _ inside]
  show (body.take 16 ++ (putBigEndian 2 _ ++ ((body.drop 18).take 16 ++ putBigEndian 2 _))) ++
    UInt8.ofNat ((body.drop 37).take (body.getD 36 0).toNat).length ::
      ((body.drop 37).take (body.getD 36 0).toNat ++ body.drop (37 + (body.getD 36 0).toNat)) = body
  rw [sourcePort, destinationPort, named, drop_cut, number]
  simp only [List.append_assoc]
  rw [drop_cut body 34 2, drop_cut body 18 16, drop_cut body 16 2, List.take_append_drop]

/-! ### One call -/

theorem readFull_eq_ok {count : Nat} {input bytes rest : List UInt8} :
    readFull count input = .ok (bytes, rest) ↔ bytes.length = count ∧ input = bytes ++ rest := by
  unfold readFull
  split
  · next enough =>
    rw [Except.ok.injEq, Prod.mk.injEq]
    constructor
    · rintro ⟨rfl, rfl⟩
      exact ⟨List.length_take_of_le enough, (List.take_append_drop count input).symm⟩
    · rintro ⟨length, rfl⟩
      exact ⟨List.take_left' length, List.drop_left' length⟩
  · next short =>
    have none : ¬ (bytes.length = count ∧ input = bytes ++ rest) := by
      rintro ⟨length, rfl⟩
      rw [List.length_append] at short
      omega
    refine ⟨fun read => ?_, fun whole => absurd whole none⟩
    split at read <;> cases read

theorem readOutgoing_eq_ok_iff {input rest : List UInt8} {frame : Frame} :
    readOutgoing input = .ok (frame, rest) ↔ ∃ o : Outgoing, o.frame = frame ∧ input = o.bytes ++ rest := by
  constructor
  · intro read
    cases header : readFull 4 input with
    | error err => simp [readOutgoing, header, bind, Except.bind] at read
    | ok first =>
      cases content : readFull (bigEndian first.1) first.2 with
      | error err => simp [readOutgoing, header, content, bind, Except.bind] at read
      | ok second =>
        cases parsed : parseBody second.1 with
        | error err => simp [readOutgoing, header, content, parsed, bind, Except.bind] at read
        | ok found =>
          simp only [readOutgoing, header, content, parsed, bind, Except.bind, pure, Except.pure, Except.ok.injEq,
            Prod.mk.injEq] at read
          obtain ⟨rfl, rfl⟩ := read
          obtain ⟨four, rfl⟩ := readFull_eq_ok.mp header
          obtain ⟨length, split⟩ := readFull_eq_ok.mp content
          have small : second.1.length < 256 ^ 4 := by
            rw [length, ← four]
            exact bigEndian_lt first.1
          obtain ⟨o, same, body⟩ := exists_body parsed small
          refine ⟨o, same, ?_⟩
          have prefixed : putBigEndian 4 second.1.length = first.1 := by
            rw [length, ← four, put_bigEndian]
          rw [Outgoing.bytes, body, prefixed, List.append_assoc, ← split]
  · rintro ⟨o, rfl, rfl⟩
    have header : readFull 4 (o.bytes ++ rest) = .ok (putBigEndian 4 o.body.length, o.body ++ rest) :=
      readFull_eq_ok.mpr ⟨length_putBigEndian 4 _, by rw [Outgoing.bytes, List.append_assoc]⟩
    have content : readFull o.body.length (o.body ++ rest) = .ok (o.body, rest) := readFull_eq_ok.mpr ⟨rfl, rfl⟩
    simp only [readOutgoing, header, bind, Except.bind, o.bigEndian_length, content, parseBody_body, pure, Except.pure]

def announced (input : List UInt8) : Nat := bigEndian (input.take 4)

/-- The streams on which an error is returned: the end comes before or inside of a frame, the length is too short for
the addresses, or the name goes past it. -/
def Fails (input : List UInt8) : ReadError → Prop
  | .eof => input = [] ∨ input.length = 4 ∧ 0 < announced input
  | .unexpectedEOF => 0 < input.length ∧ input.length < 4 ∨ 4 < input.length ∧ input.length < 4 + announced input
  | .tooShort => 4 + announced input ≤ input.length ∧ announced input < 37
  | .truncated => 4 + announced input ≤ input.length ∧ 37 ≤ announced input ∧
      announced input < 37 + (input.getD 40 0).toNat

theorem readFull_eq_error {count : Nat} {input : List UInt8} {err : ReadError}
    (failed : readFull count input = .error err) :
    input.length < count ∧ (err = .eof ∧ input = [] ∨ err = .unexpectedEOF ∧ input ≠ []) := by
  unfold readFull at failed
  split at failed
  · cases failed
  next short =>
  split at failed
  · next empty =>
    cases failed
    exact ⟨Nat.lt_of_not_le short, .inl ⟨rfl, empty⟩⟩
  · next some =>
    cases failed
    exact ⟨Nat.lt_of_not_le short, .inr ⟨rfl, some⟩⟩

theorem parseBody_eq_error {body : List UInt8} {err : ReadError} (failed : parseBody body = .error err) :
    err = .tooShort ∧ body.length < 37 ∨
      err = .truncated ∧ 37 ≤ body.length ∧ body.length < 37 + (body.getD 36 0).toNat := by
  unfold parseBody at failed
  split at failed
  · next short =>
    cases failed
    exact .inl ⟨rfl, short⟩
  next long =>
  dsimp only at failed
  split at failed
  · next past =>
    cases failed
    exact .inr ⟨rfl, Nat.le_of_not_lt long, past⟩
  · cases failed

theorem fails_of_readOutgoing {input : List UInt8} {err : ReadError} (failed : readOutgoing input = .error err) :
    Fails input err := by
  cases header : readFull 4 input with
  | error first =>
    simp only [readOutgoing, header, bind, Except.bind, Except.error.injEq] at failed
    subst failed
    obtain ⟨short, ⟨rfl, empty⟩ | ⟨rfl, some⟩⟩ := readFull_eq_error header
    · exact .inl empty
    · exact .inl ⟨List.length_pos_iff.mpr some, short⟩
  | ok first =>
    obtain ⟨four, whole⟩ := readFull_eq_ok.mp header
    have number : announced input = bigEndian first.1 := by rw [announced, whole, List.take_left' four]
    have length : input.length = 4 + first.2.length := by rw [whole, List.length_append, four]
    cases content : readFull (bigEndian first.1) first.2 with
    | error second =>
      simp only [readOutgoing, header, content, bind, Except.bind, Except.error.injEq] at failed
      subst failed
      obtain ⟨short, ⟨rfl, empty⟩ | ⟨rfl, some⟩⟩ := readFull_eq_error content
      · rw [empty, List.length_nil] at length short
        exact .inr ⟨length, by omega⟩
      · have positive := List.length_pos_iff.mpr some
        exact .inr ⟨by omega, by omega⟩
    | ok second =>
      obtain ⟨size, rest⟩ := readFull_eq_ok.mp content
      have enough : 4 + announced input ≤ input.length := by
        rw [length, number, rest, List.length_append, size]
        omega
      cases parsed : parseBody second.1 with
      | ok frame => simp [readOutgoing, header, content, parsed, bind, Except.bind, pure, Except.pure] at failed
      | error third =>
        simp only [readOutgoing, header, content, parsed, bind, Except.bind, Except.error.injEq] at failed
        subst failed
        obtain ⟨rfl, short⟩ | ⟨rfl, long, past⟩ := parseBody_eq_error parsed
        · exact ⟨enough, by omega⟩
        · have place : input.getD 40 0 = second.1.getD 36 0 := by
            rw [whole, rest, List.getD_append_right _ _ _ _ (by omega), four,
              List.getD_append _ _ _ _ (by omega)]
          exact ⟨enough, by omega, by rw [place]; omega⟩

/-! ### In pieces -/

/-- The end of the stream, after some bytes: the error is dropped where the buffer is full. -/
def atEnd (count : Nat) (got : List UInt8) : Except ReadError (List UInt8 × List (List UInt8)) :=
  if count ≤ got.length then .ok (got, [])
  else if got = [] then .error .eof
  else .error .unexpectedEOF

/-- `io.ReadFull` on a reader that gives its bytes in pieces, some of which may be empty. An eager one tells of the end
together with the last piece. -/
def readChunks (eager : Bool) (count : Nat) (got : List UInt8) (chunks : List (List UInt8)) :
    Except ReadError (List UInt8 × List (List UInt8)) :=
  if count ≤ got.length then .ok (got, chunks)
  else
    match chunks with
    | [] => atEnd count got
    | chunk :: rest =>
      if chunk.length ≤ count - got.length then
        if eager ∧ rest = [] then atEnd count (got ++ chunk) else readChunks eager count (got ++ chunk) rest
      else .ok (got ++ chunk.take (count - got.length), chunk.drop (count - got.length) :: rest)

theorem atEnd_eq {count : Nat} {got : List UInt8} (room : got.length ≤ count) :
    (atEnd count got).map (fun read => (read.1, read.2.flatten)) = readFull count got := by
  unfold atEnd readFull
  split
  · next full =>
    have exact : got.length = count := by omega
    rw [← exact, List.take_length, List.drop_length]
    rfl
  · split <;> rfl

/-- **The pieces do not matter**: the bytes are those of the whole stream. -/
theorem readChunks_eq (eager : Bool) {count : Nat} {got : List UInt8} (chunks : List (List UInt8))
    (room : got.length ≤ count) :
    (readChunks eager count got chunks).map (fun read => (read.1, read.2.flatten)) =
      readFull count (got ++ chunks.flatten) := by
  induction chunks generalizing got with
  | nil =>
    rw [readChunks, List.flatten_nil, List.append_nil, ← atEnd_eq room, atEnd]
    split <;> rfl
  | cons chunk rest ih =>
    rw [readChunks]
    by_cases full : count ≤ got.length
    · have exact : got.length = count := by omega
      rw [if_pos full]
      exact (readFull_eq_ok.mpr ⟨exact, rfl⟩).symm
    rw [if_neg full]
    by_cases fits : chunk.length ≤ count - got.length
    · rw [if_pos fits]
      have room' : (got ++ chunk).length ≤ count := by
        rw [List.length_append]
        omega
      by_cases last : eager = true ∧ rest = []
      · rw [if_pos last, last.2, List.flatten_cons, List.flatten_nil, List.append_nil, atEnd_eq room']
      · rw [if_neg last, ih room', List.flatten_cons, List.append_assoc]
    · rw [if_neg fits]
      refine (readFull_eq_ok.mpr ⟨?_, ?_⟩).symm
      · rw [List.length_append, List.length_take]
        omega
      · rw [List.flatten_cons, List.flatten_cons, List.append_assoc, ← List.append_assoc (List.take _ _),
          List.take_append_drop]

theorem readChunks_nil (eager : Bool) (count : Nat) (chunks : List (List UInt8)) :
    (readChunks eager count [] chunks).map (fun read => (read.1, read.2.flatten)) =
      readFull count chunks.flatten :=
  readChunks_eq eager chunks (Nat.zero_le count)

/-! ### Without a panic -/

/-- `bytes[low:high]`; nothing where it panics. -/
def slice (bytes : List UInt8) (low high : Nat) : Option (List UInt8) :=
  if low ≤ high ∧ high ≤ bytes.length then some ((bytes.drop low).take (high - low)) else none

/-- The fields of a body; nothing where an index is out of range. -/
def parseChecked (body : List UInt8) : Option (Except ReadError Frame) :=
  if body.length < 37 then some (.error .tooShort)
  else do
    let srcIP ← slice body 0 16
    let srcPort ← slice body 16 18
    let dstIP ← slice body 18 34
    let dstPort ← slice body 34 36
    let appNameLen ← body[36]?
    let start := 37 + appNameLen.toNat
    if body.length < start then some (.error .truncated)
    else
      let payload ← slice body start body.length
      some (.ok ⟨srcIP, bigEndian srcPort, dstIP, bigEndian dstPort, payload⟩)

theorem slice_eq_some {bytes : List UInt8} {low high : Nat} (order : low ≤ high) (inside : high ≤ bytes.length) :
    slice bytes low high = some ((bytes.drop low).take (high - low)) := if_pos ⟨order, inside⟩

theorem parseChecked_eq (body : List UInt8) : parseChecked body = some (parseBody body) := by
  rw [parseChecked, parseBody]
  by_cases short : body.length < 37
  · rw [if_pos short, if_pos short]
  · have number : body[36]? = some (body.getD 36 0) := by
      rw [List.getElem?_eq_getElem (by omega), List.getD_eq_getElem _ _ (by omega)]
    rw [if_neg short, if_neg short, slice_eq_some (by omega) (by omega), slice_eq_some (by omega) (by omega),
      slice_eq_some (by omega) (by omega), slice_eq_some (by omega) (by omega), number]
    simp only [Option.bind_eq_bind, Option.bind_some]
    by_cases past : body.length < 37 + (body.getD 36 0).toNat
    · rw [if_pos past, if_pos past]
    · rw [if_neg past, if_neg past, slice_eq_some (by omega) (le_refl _), Option.bind_some, List.drop_zero,
        ← List.length_drop, List.take_length]

/-- `readOutgoing` of a reader; nothing where it panics. -/
def readChecked (eager : Bool) (chunks : List (List UInt8)) :
    Option (Except ReadError (Frame × List (List UInt8))) :=
  match readChunks eager 4 [] chunks with
  | .error err => some (.error err)
  | .ok (header, chunks) =>
    match readChunks eager (bigEndian header) [] chunks with
    | .error err => some (.error err)
    | .ok (body, chunks) => (parseChecked body).map fun parsed => parsed.map fun frame => (frame, chunks)

theorem readChecked_eq (eager : Bool) (chunks : List (List UInt8)) :
    ∃ result, readChecked eager chunks = some result ∧
      result.map (fun read => (read.1, read.2.flatten)) = readOutgoing chunks.flatten := by
  have header := readChunks_nil eager 4 chunks
  rw [readChecked]
  cases first : readChunks eager 4 [] chunks with
  | error err =>
    rw [first] at header
    refine ⟨.error err, rfl, ?_⟩
    rw [readOutgoing, ← header]
    rfl
  | ok read =>
    rw [first] at header
    have content := readChunks_nil eager (bigEndian read.1) read.2
    dsimp only
    cases second : readChunks eager (bigEndian read.1) [] read.2 with
    | error err =>
      rw [second] at content
      refine ⟨.error err, rfl, ?_⟩
      rw [readOutgoing, ← header]
      show _ = (readFull (bigEndian read.1) read.2.flatten).bind _
      rw [← content]
      rfl
    | ok read' =>
      rw [second] at content
      refine ⟨(parseBody read'.1).map fun frame => (frame, read'.2), ?_, ?_⟩
      · show (parseChecked read'.1).map _ = _
        rw [parseChecked_eq]
        rfl
      · rw [readOutgoing, ← header]
        show _ = (readFull (bigEndian read.1) read.2.flatten).bind _
        rw [← content]
        cases parsed : parseBody read'.1 <;> simp [Except.map, Except.bind, bind, parsed, pure, Except.pure]

theorem readChecked_eq_ok {eager : Bool} {chunks : List (List UInt8)} {frame : Frame} {rest : List UInt8}
    (read : readOutgoing chunks.flatten = .ok (frame, rest)) :
    ∃ left, readChecked eager chunks = some (.ok (frame, left)) ∧ left.flatten = rest := by
  obtain ⟨result, returns, same⟩ := readChecked_eq eager chunks
  rw [read] at same
  cases result with
  | error err => cases same
  | ok pair =>
    simp only [Except.map, Except.ok.injEq, Prod.mk.injEq] at same
    obtain ⟨rfl, rest⟩ := same
    exact ⟨pair.2, returns, rest⟩

/-! ### All calls -/

/-- So many calls, one after the other. -/
def readFrames (eager : Bool) : Nat → List (List UInt8) → Option (Except ReadError (List Frame × List (List UInt8)))
  | 0, chunks => some (.ok ([], chunks))
  | count + 1, chunks =>
    match readChecked eager chunks with
    | none => none
    | some (.error err) => some (.error err)
    | some (.ok (frame, chunks)) =>
      (readFrames eager count chunks).map fun later => later.map fun rest => (frame :: rest.1, rest.2)

theorem readFrames_bytes (eager : Bool) (frames : List Outgoing) {chunks : List (List UInt8)} {more : List UInt8}
    (stream : chunks.flatten = frames.flatMap Outgoing.bytes ++ more) :
    ∃ rest, readFrames eager frames.length chunks = some (.ok (frames.map Outgoing.frame, rest)) ∧
      rest.flatten = more := by
  induction frames generalizing chunks with
  | nil => exact ⟨chunks, rfl, stream⟩
  | cons o frames ih =>
    rw [List.flatMap_cons, List.append_assoc] at stream
    have read : readOutgoing chunks.flatten = .ok (o.frame, frames.flatMap Outgoing.bytes ++ more) :=
      readOutgoing_eq_ok_iff.mpr ⟨o, rfl, stream⟩
    obtain ⟨left, first, remains⟩ := readChecked_eq_ok read
    obtain ⟨rest, later, ends⟩ := ih remains
    refine ⟨rest, ?_, ends⟩
    rw [List.length_cons, readFrames, first]
    show (readFrames eager frames.length left).map _ = _
    rw [later]
    rfl

/-- **The framing is exact.** A stream of encoded frames, in whatever pieces it arrives, is read back as these frames;
at its end the next call returns `io.EOF`. On every stream, a call that returns a frame has taken exactly the announced
length and its four bytes, which encode the frame; every other call returns an error, and none panics. -/
theorem framing_exact :
    (∀ (frames : List Outgoing) (eager : Bool) (chunks : List (List UInt8)) (more : List UInt8),
      chunks.flatten = frames.flatMap Outgoing.bytes ++ more →
      ∃ rest, readFrames eager frames.length chunks = some (.ok (frames.map Outgoing.frame, rest)) ∧
        rest.flatten = more ∧ (more = [] → readChecked eager rest = some (.error .eof))) ∧
    ∀ (eager : Bool) (chunks : List (List UInt8)),
      (∃ frame rest, readChecked eager chunks = some (.ok (frame, rest)) ∧
        (∃ o : Outgoing, o.frame = frame ∧ chunks.flatten = o.bytes ++ rest.flatten) ∧
        chunks.flatten.length = 4 + announced chunks.flatten + rest.flatten.length) ∨
      ∃ err, readChecked eager chunks = some (.error err) ∧ Fails chunks.flatten err := by
  constructor
  · intro frames eager chunks more stream
    obtain ⟨rest, read, ends⟩ := readFrames_bytes eager frames stream
    refine ⟨rest, read, ends, fun done => ?_⟩
    obtain ⟨result, returns, same⟩ := readChecked_eq eager rest
    rw [ends, done] at same
    cases result with
    | ok pair => cases same
    | error err =>
      cases same
      exact returns
  · intro eager chunks
    obtain ⟨result, returns, same⟩ := readChecked_eq eager chunks
    cases result with
    | error err => exact .inr ⟨err, returns, fails_of_readOutgoing same.symm⟩
    | ok pair =>
      obtain ⟨o, named, stream⟩ := readOutgoing_eq_ok_iff.mp same.symm
      refine .inl ⟨pair.1, pair.2, returns, ⟨o, named, stream⟩, ?_⟩
      have number : announced chunks.flatten = o.body.length := by
        rw [announced, stream, Outgoing.bytes, List.append_assoc, List.take_left' (length_putBigEndian 4 _),
          o.bigEndian_length]
      rw [number, stream, List.length_append, Outgoing.bytes, List.length_append, length_putBigEndian]

def sampleFrame (payload : List UInt8) (short : payload.length < 256) : Outgoing where
  frame := ⟨List.replicate 16 1, 53000, List.replicate 16 2, 53, payload⟩
  name := [100, 110, 115]
  srcIP_length := rfl
  srcPort_lt := (by decide : 53000 < 256 ^ 2)
  dstIP_length := rfl
  dstPort_lt := (by decide : 53 < 256 ^ 2)
  name_lt := by decide
  total_lt := by
    have bound : 37 + 3 + payload.length < 256 ^ 4 := by omega
    exact bound

/-- Two frames, one without a payload, in three pieces that end in the middle of a length and of a name. -/
theorem framing_exact_pieces :
    let frames := [sampleFrame [] (by decide), sampleFrame [7, 8] (by decide)]
    let stream := frames.flatMap Outgoing.bytes
    ∃ rest, readFrames true 2 [stream.take 42, [], (stream.drop 42).take 5, stream.drop 47] =
        some (.ok (frames.map Outgoing.frame, rest)) ∧
      rest.flatten = [] ∧ (([] : List UInt8) = [] → readChecked true rest = some (.error .eof)) :=
  framing_exact.1 [sampleFrame [] (by decide), sampleFrame [7, 8] (by decide)] true _ [] (by decide +kernel)

end Ttgo.Udp

/-
**The addresses of a DNS response.**

`parseDNSResponse` and `extractDNSMapping` of `internal/client/tun.go` walk the answers of a response with the parser
of `golang.org/x/net/dns/dnsmessage`: one reads the header of a record and then its body, the other both at once.

* `Calls` — the calls of the parser; `Dnsmessage` — with the laws of a parser on one message.
* `parseDNSResponse`, `extractDNSMapping` — with the turns that their loops may take.
* `returns_parseAnswers_iff` — the first loop ends when every record fits in the message, and only then.
* `returns_extractAnswers` — the second stops at the first record that it cannot unpack.
* `parseDNSResponse_agrees_iff` — the exact condition on the message.
* `plain` — a parser of messages without compressed names.
-/

import Ttgo.Client.DomainNames
import Ttgo.Lib.Loop

namespace Ttgo.Client.DnsAnswers

open Ttgo.Lib DomainNames

/-! ### The parser -/

abbrev IP := List UInt8

inductive RRType
  | a
  | aaaa
  | other (code : Nat)
deriving DecidableEq, Repr

/-- A record: its type, the length that its header names for the body, and where the body stands. -/
structure Record where
  type : RRType
  length : Nat
  off : Nat
deriving DecidableEq, Repr

namespace Record

/-- What `parseDNSResponse` reads of the body, or passes over. -/
def size (record : Record) : Nat :=
  match record.type with
  | .a => 4
  | .aaaa => 16
  | .other _ => record.length

abbrev Fits (buf : List UInt8) (record : Record) : Prop := record.off + record.size ≤ buf.length

def address (buf : List UInt8) (record : Record) : Option IP :=
  match record.type with
  | .a | .aaaa => some ((buf.drop record.off).take record.size)
  | .other _ => none

end Record

/-- The calls of `dnsmessage.Parser` after `Start`; `none` is an error. -/
structure Calls (Parser : Type) where
  question : Parser → Option (Text × Parser)
  /-- Whether all were skipped, and the parser after it. -/
  skipAllQuestions : Parser → Bool × Parser
  answerHeader : Parser → Option RRType × Parser
  aResource : Parser → Option IP × Parser
  aaaaResource : Parser → Option IP × Parser
  skipAnswer : Parser → Parser
  /-- `Answer`, with the address that the body holds. -/
  answer : Parser → Option (Option IP) × Parser

/-- What `parseDNSResponse` calls for the body of a record. -/
def Calls.body {Parser : Type} (calls : Calls Parser) : RRType → Parser → Option IP × Parser
  | .a, p => calls.aResource p
  | .aaaa, p => calls.aaaaResource p
  | .other _, p => (none, calls.skipAnswer p)

/-- **`dnsmessage.Parser` on a message.** -/
structure Dnsmessage (Parser : Type) (buf : List UInt8) extends Calls Parser where
  /-- `Start`, with `Response` of the header. -/
  start : Option (Bool × Parser)
  /-- The records of the answer section that are not consumed, each behind the length that the one before it names;
  before that section there are none. -/
  records : Parser → List Record
  /-- `Answer` can unpack the record. -/
  unpacks : Record → Bool
  failed : ∀ {p}, (skipAllQuestions p).1 = false → records (skipAllQuestions p).2 = []
  /-- The header is that of the first record, whether it was read before or not. -/
  header : ∀ p, (answerHeader p).1 = (records p).head?.map Record.type
  consumes : ∀ {p record rest}, records p = record :: rest → record.Fits buf →
    (toCalls.body record.type (answerHeader p).2).1 = record.address buf ∧
      records (toCalls.body record.type (answerHeader p).2).2 = rest
  /-- A body that runs past the message is an error, and is not consumed. -/
  stays : ∀ {p record rest}, records p = record :: rest → ¬ record.Fits buf →
    (toCalls.body record.type (answerHeader p).2).1 = none ∧
      records (toCalls.body record.type (answerHeader p).2).2 = record :: rest
  answers : ∀ {p record rest}, records p = record :: rest → unpacks record = true →
    (answer p).1 = some (record.address buf) ∧ records (answer p).2 = rest
  breaks : ∀ {p}, (∀ record ∈ (records p).head?, unpacks record = false) → (answer p).1 = none

variable {Parser : Type} {buf : List UInt8}

/-! ### The two functions -/

section Functions

variable (d : Dnsmessage Parser buf)

/-- A turn of the loop of `parseDNSResponse`: an error of the body is passed over. -/
def parseAnswers : Parser × List IP → (Parser × List IP) ⊕ List IP
  | (p, ips) =>
    match d.answerHeader p with
    | (none, _) => .inr ips
    | (some type, p) => .inl ((d.body type p).2, ips ++ (d.body type p).1.toList)

/-- A turn of the loop of `extractDNSMapping`. -/
def extractAnswers : Parser × List IP → (Parser × List IP) ⊕ List IP
  | (p, ips) =>
    match d.answer p with
    | (none, _) => .inr ips
    | (some ip, p) => .inl (p, ips ++ ip.toList)

/-- The name of the question of a response, with the parser behind it. -/
def responseQuestion : Option (Text × Parser) :=
  match d.start with
  | none => none
  | some (response, p) => if response then d.question p else none

/-- `parseDNSResponse`, `none` when its loop takes more turns; the error of `SkipAllQuestions` is not looked at. -/
def parseDNSResponse (fuel : Nat) (exclusions : List Text) : Option (List IP) :=
  if exclusions = [] then some []
  else
    match responseQuestion d with
    | none => some []
    | some (domain, p) =>
      if !matchDomain domain exclusions then some [] else loop (parseAnswers d) fuel ((d.skipAllQuestions p).2, [])

/-- `extractDNSMapping`, `none` when its loop takes more turns. -/
def extractDNSMapping (fuel : Nat) : Option (Text × List IP) :=
  match responseQuestion d with
  | none => some ([], [])
  | some (domain, p) =>
    match d.skipAllQuestions p with
    | (false, _) => some ([], [])
    | (true, p) => (loop (extractAnswers d) fuel (p, [])).map (trimDot domain, ·)

end Functions

/-! ### The loops -/

section Loops

variable {d : Dnsmessage Parser buf} {p : Parser} {ips result : List IP} {record : Record} {rest left : List Record}

theorem parseAnswers_nil (done : d.records p = []) : parseAnswers d (p, ips) = .inr ips := by
  have header := d.header p
  rw [done] at header
  cases read : d.answerHeader p with
  | mk type q =>
    rw [read] at header
    cases header
    simp [parseAnswers, read]

theorem parseAnswers_cons (here : d.records p = record :: rest) :
    parseAnswers d (p, ips) = .inl ((d.body record.type (d.answerHeader p).2).2,
      ips ++ (d.body record.type (d.answerHeader p).2).1.toList) := by
  have header := d.header p
  rw [here] at header
  cases read : d.answerHeader p with
  | mk type q =>
    rw [read] at header
    cases header
    simp [parseAnswers, read]

/-- **A record that does not fit** is never passed. -/
theorem not_returns_of_not_fits (here : d.records p = record :: rest) (runs : ¬ record.Fits buf) :
    ¬ Returns (parseAnswers d) (p, ips) result := by
  refine not_returns_of_kept (fun state => d.records state.1 = record :: rest) (fun state here => ?_) here
  exact ⟨_, parseAnswers_cons here, (d.stays here runs).2⟩

/-- **The loop of `parseDNSResponse` ends when every record fits in the message**, and only then; its result is then
every address. -/
theorem returns_parseAnswers_iff (here : d.records p = left) : Returns (parseAnswers d) (p, ips) result ↔
    (∀ record ∈ left, record.Fits buf) ∧ result = ips ++ left.filterMap (Record.address buf) := by
  induction left generalizing p ips with
  | nil => simp [returns_inr_iff (parseAnswers_nil here)]
  | cons record rest ih =>
    by_cases fits : record.Fits buf
    · obtain ⟨address, behind⟩ := d.consumes here fits
      rw [returns_inl_iff (parseAnswers_cons here), ih behind, address]
      simp only [List.forall_mem_cons, fits, true_and, List.filterMap_cons]
      cases record.address buf <;> simp
    · exact iff_of_false (not_returns_of_not_fits here fits) fun all => fits (all.1 _ List.mem_cons_self)

/-- **The loop of `extractDNSMapping`** ends with the addresses before the first record that it cannot unpack. -/
theorem returns_extractAnswers (here : d.records p = left) : Returns (extractAnswers d) (p, ips)
    (ips ++ (left.takeWhile d.unpacks).filterMap (Record.address buf)) := by
  have stops {p : Parser} {ips : List IP} (fails : ∀ record ∈ (d.records p).head?, d.unpacks record = false) :
      extractAnswers d (p, ips) = .inr ips := by
    have none := d.breaks fails
    cases read : d.answer p with
    | mk ip q =>
      rw [read] at none
      cases none
      simp [extractAnswers, read]
  induction left generalizing p ips with
  | nil =>
    have ends : extractAnswers d (p, ips) = .inr ips := stops (by simp [here])
    simp [returns_inr_iff ends]
  | cons record rest ih =>
    cases unpacks : d.unpacks record with
    | true =>
      obtain ⟨address, behind⟩ := d.answers here unpacks
      have turn : extractAnswers d (p, ips) = .inl ((d.answer p).2, ips ++ (record.address buf).toList) := by
        cases read : d.answer p with
        | mk ip q =>
          rw [read] at address
          cases address
          simp [extractAnswers, read]
      have later := @ih _ (ips ++ (record.address buf).toList) behind
      rw [returns_inl_iff turn, List.takeWhile_cons_of_pos unpacks, List.filterMap_cons]
      rw [List.append_assoc] at later
      cases held : record.address buf with
      | none => simpa only [held, Option.toList_none, List.nil_append] using later
      | some ip => simpa only [held, Option.toList_some, List.singleton_append] using later
    | false =>
      rw [returns_inr_iff (stops (by simp [here, unpacks])), List.takeWhile_cons_of_neg (by simp [unpacks])]
      simp

end Loops

/-! ### Agreement -/

section Agreement

variable (d : Dnsmessage Parser buf) (exclusions : List Text)

/-- A response whose question is for a name of the list. -/
def Matched : Prop := ∃ domain q, responseQuestion d = some (domain, q) ∧ matchDomain domain exclusions = true

/-- **`parseDNSResponse` ends**, for a matching response with the addresses that `extractDNSMapping` gives. -/
def Agrees : Prop :=
  ∃ fuel ips, parseDNSResponse d fuel exclusions = some ips ∧
    (Matched d exclusions → ∃ fuel domain, extractDNSMapping d fuel = some (domain, ips))

/-- The parser at the answers of such a response. -/
def AtAnswers (p : Parser) : Prop :=
  ∃ domain q, responseQuestion d = some (domain, q) ∧ matchDomain domain exclusions = true ∧
    d.skipAllQuestions q = (true, p)

/-- The records of the answer section fit in the message, and from the first that cannot be unpacked on, none holds an
address. -/
structure WellFormed (answers : List Record) : Prop where
  fit : ∀ record ∈ answers, record.Fits buf
  unread : ∀ record ∈ answers.dropWhile d.unpacks, record.address buf = none

variable {d exclusions} {domain : Text} {q p : Parser}

theorem parseDNSResponse_of_asked (fuel : Nat) (asked : responseQuestion d = some (domain, q))
    (matched : matchDomain domain exclusions = true) :
    parseDNSResponse d fuel exclusions = loop (parseAnswers d) fuel ((d.skipAllQuestions q).2, []) := by
  have some_list : exclusions ≠ [] := by
    rintro rfl
    cases matched
  simp [parseDNSResponse, some_list, asked, matched]

theorem parseDNSResponse_of_not_matched (other : ¬ Matched d exclusions) (fuel : Nat) :
    parseDNSResponse d fuel exclusions = some [] := by
  unfold parseDNSResponse
  split
  · rfl
  · cases asked : responseQuestion d with
    | none => rfl
    | some question =>
      have differs : matchDomain question.1 exclusions = false :=
        Bool.eq_false_iff.mpr fun matched => other ⟨_, _, asked, matched⟩
      simp [differs]

theorem filterMap_takeWhile_eq_iff {α β : Type*} (test : α → Bool) (f : α → Option β) (list : List α) :
    list.filterMap f = (list.takeWhile test).filterMap f ↔ ∀ x ∈ list.dropWhile test, f x = none := by
  have parts : list.filterMap f = (list.takeWhile test).filterMap f ++ (list.dropWhile test).filterMap f := by
    rw [← List.filterMap_append, List.takeWhile_append_dropWhile]
  rw [parts, List.append_right_eq_self, List.filterMap_eq_nil_iff]

theorem agrees_of_answers (place : AtAnswers d exclusions p) :
    Agrees d exclusions ↔ WellFormed d (d.records p) := by
  obtain ⟨domain, q, asked, matched, skipped⟩ := place
  have parsed (ips : List IP) : (∃ fuel, parseDNSResponse d fuel exclusions = some ips) ↔
      (∀ record ∈ d.records p, record.Fits buf) ∧ ips = [] ++ (d.records p).filterMap (Record.address buf) := by
    simp only [parseDNSResponse_of_asked _ asked matched, skipped]
    exact returns_parseAnswers_iff rfl
  have extracted : Returns (extractAnswers d) (p, []) ([] ++ _) := returns_extractAnswers rfl
  constructor
  · rintro ⟨fuel, ips, parse, extract⟩
    obtain ⟨fit, all⟩ := (parsed ips).mp ⟨fuel, parse⟩
    obtain ⟨fuel', name, found⟩ := extract ⟨domain, q, asked, matched⟩
    simp only [extractDNSMapping, asked, skipped] at found
    obtain ⟨result, answers, same⟩ := Option.map_eq_some_iff.mp found
    obtain rfl : result = ips := congrArg Prod.snd same
    exact ⟨fit, (filterMap_takeWhile_eq_iff ..).mp (all.symm.trans (Returns.unique ⟨fuel', answers⟩ extracted))⟩
  · rintro ⟨fit, unread⟩
    obtain ⟨fuel, parse⟩ := (parsed _).mpr ⟨fit, rfl⟩
    rw [(filterMap_takeWhile_eq_iff ..).mpr unread] at parse
    obtain ⟨fuel', answers⟩ := extracted
    exact ⟨fuel, _, parse, fun _ => ⟨fuel', trimDot domain, by simp [extractDNSMapping, asked, skipped, answers]⟩⟩

theorem agrees_of_failed (asked : responseQuestion d = some (domain, q))
    (matched : matchDomain domain exclusions = true) (failed : (d.skipAllQuestions q).1 = false) :
    Agrees d exclusions := by
  have parse : parseDNSResponse d 1 exclusions = some [] :=
    (parseDNSResponse_of_asked 1 asked matched).trans (loop_inr (parseAnswers_nil (d.failed failed)))
  refine ⟨1, [], parse, fun _ => ⟨0, [], ?_⟩⟩
  unfold extractDNSMapping
  simp only [asked]
  split
  · rfl
  · next skipped =>
    rw [skipped] at failed
    cases failed

end Agreement

/-- **`parseDNSResponse` ends with the addresses of `extractDNSMapping`** exactly when the answers of a matching
response are well formed. -/
theorem parseDNSResponse_agrees_iff (d : Dnsmessage Parser buf) (exclusions : List Text) :
    Agrees d exclusions ↔ ∀ p, AtAnswers d exclusions p → WellFormed d (d.records p) := by
  constructor
  · intro agrees p place
    exact (agrees_of_answers place).mp agrees
  · intro formed
    by_cases matched : Matched d exclusions
    · obtain ⟨domain, q, asked, matched⟩ := matched
      cases ended : (d.skipAllQuestions q).1 with
      | true =>
        have place : AtAnswers d exclusions (d.skipAllQuestions q).2 := ⟨domain, q, asked, matched, Prod.ext ended rfl⟩
        exact (agrees_of_answers place).mpr (formed _ place)
      | false => exact agrees_of_failed asked matched ended
    · exact ⟨0, [], parseDNSResponse_of_not_matched matched 0, fun other => absurd other matched⟩

/-! ### Messages without compressed names -/

/-- A name of labels, within so many labels. -/
def plainName (buf : List UInt8) : Nat → Nat → Option (Text × Nat)
  | 0, _ => none
  | labels + 1, off =>
    match buf.drop off with
    | [] => none
    | size :: rest =>
      if size = 0 then some ([], off + 1)
      else if rest.length < size.toNat ∨ 64 ≤ size then none
      else
        (plainName buf labels (off + 1 + size.toNat)).map fun (name, off) =>
          ((rest.take size.toNat).map (fun byte => Char.ofNat byte.toNat) ++ '.' :: name, off)

/-- Two bytes in network order. -/
def uint16 (buf : List UInt8) (off : Nat) : Option Nat :=
  match (buf.drop off).take 2 with
  | [high, low] => some (high.toNat * 256 + low.toNat)
  | _ => none

def questionAt (buf : List UInt8) (off : Nat) : Option (Text × Nat) :=
  match plainName buf 128 off with
  | none => none
  | some (name, off) => if off + 4 ≤ buf.length then some (name, off + 4) else none

def recordAt (buf : List UInt8) (off : Nat) : Option Record :=
  match plainName buf 128 off with
  | none => none
  | some (_, off) =>
    match uint16 buf off, uint16 buf (off + 8) with
    | some 1, some length => some ⟨.a, length, off + 10⟩
    | some 28, some length => some ⟨.aaaa, length, off + 10⟩
    | some code, some length => some ⟨.other code, length, off + 10⟩
    | _, _ => none

/-- So many questions passed over. -/
def questionsEnd (buf : List UInt8) : Nat → Nat → Option Nat
  | 0, off => some off
  | left + 1, off => (questionAt buf off).bind fun question => questionsEnd buf left question.2

/-- At most so many records. -/
def recordsFrom (buf : List UInt8) : Nat → Nat → List Record
  | 0, _ => []
  | left + 1, off =>
    match recordAt buf off with
    | none => []
    | some record => record :: recordsFrom buf left (record.off + record.length)

/-- The questions and answers that are left, and the place of the first. -/
structure Reader where
  questions : Nat
  answers : Nat
  off : Nat
deriving DecidableEq, Repr

namespace Reader

def records (buf : List UInt8) (p : Reader) : List Record :=
  if p.questions = 0 then recordsFrom buf p.answers p.off else []

def behind (p : Reader) (record : Record) : Reader :=
  { p with answers := p.answers - 1, off := record.off + record.length }

/-- The next record, if it passes the test. -/
def consume (buf : List UInt8) (test : Record → Bool) (p : Reader) : Option (Option IP) × Reader :=
  match (p.records buf).head? with
  | some record => if test record then (some (record.address buf), p.behind record) else (none, p)
  | none => (none, p)

theorem records_behind {p : Reader} {record : Record} {rest : List Record} (here : p.records buf = record :: rest) :
    (p.behind record).records buf = rest := by
  obtain ⟨questions, answers, off⟩ := p
  unfold records at here ⊢
  split at here
  · next none =>
    refine (if_pos none).trans ?_
    cases answers with
    | zero => cases here
    | succ left =>
      dsimp only [recordsFrom] at here
      split at here
      · cases here
      · cases here
        rfl
  · cases here

theorem consume_cons {p : Reader} {record : Record} {rest : List Record} (here : p.records buf = record :: rest)
    (test : Record → Bool) :
    p.consume buf test = if test record then (some (record.address buf), p.behind record) else (none, p) := by
  rw [consume, here]
  rfl

end Reader

def plainCalls (buf : List UInt8) : Calls Reader where
  question p :=
    if p.questions = 0 then none
    else (questionAt buf p.off).map fun (name, off) => (name, { p with questions := p.questions - 1, off })
  skipAllQuestions p :=
    match questionsEnd buf p.questions p.off with
    | some off => (true, { p with questions := 0, off })
    | none => (false, p)
  answerHeader p := ((p.records buf).head?.map Record.type, p)
  aResource p := (p.consume buf fun record => record.type = .a ∧ record.Fits buf).map Option.join id
  aaaaResource p := (p.consume buf fun record => record.type = .aaaa ∧ record.Fits buf).map Option.join id
  skipAnswer p := (p.consume buf fun record => record.off + record.length ≤ buf.length).2
  answer p := p.consume buf fun record => record.Fits buf

theorem body_plainCalls {p : Reader} {record : Record} {rest : List Record} (here : p.records buf = record :: rest) :
    (plainCalls buf).body record.type p =
      if record.Fits buf then (record.address buf, p.behind record) else (none, p) := by
  obtain ⟨type, length, off⟩ := record
  have asked := Reader.consume_cons here
  cases type with
  | a =>
    simp only [Calls.body, plainCalls, asked, true_and, decide_eq_true_eq]
    split <;> rfl
  | aaaa =>
    simp only [Calls.body, plainCalls, asked, true_and, decide_eq_true_eq]
    split <;> rfl
  | other code =>
    have size : (off + length ≤ buf.length) = Record.Fits buf ⟨.other code, length, off⟩ := rfl
    simp only [Calls.body, plainCalls, asked, decide_eq_true_eq, size]
    split <;> rfl

/-- **The parser on a message without compressed names.** -/
def plain (buf : List UInt8) : Dnsmessage Reader buf where
  toCalls := plainCalls buf
  start :=
    match uint16 buf 2, uint16 buf 4, uint16 buf 6, uint16 buf 10 with
    | some bits, some questions, some answers, some _ => some (bits / 32768 % 2 = 1, ⟨questions, answers, 12⟩)
    | _, _, _, _ => none
  records p := p.records buf
  unpacks record := record.Fits buf
  failed := by
    rintro ⟨questions, answers, off⟩ failed
    cases questions with
    | zero => cases failed
    | succ left =>
      simp only [plainCalls] at failed ⊢
      split at failed
      · cases failed
      · rfl
  header _ := rfl
  consumes := by
    intro p record rest here fits
    rw [show ((plainCalls buf).answerHeader p).2 = p from rfl, body_plainCalls here, if_pos fits]
    exact ⟨rfl, Reader.records_behind here⟩
  stays := by
    intro p record rest here runs
    rw [show ((plainCalls buf).answerHeader p).2 = p from rfl, body_plainCalls here, if_neg runs]
    exact ⟨rfl, here⟩
  answers := by
    intro p record rest here unpacks
    rw [show (plainCalls buf).answer p = _ from Reader.consume_cons here _, if_pos unpacks]
    exact ⟨rfl, Reader.records_behind here⟩
  breaks := by
    intro p fails
    show (p.consume buf _).1 = none
    unfold Reader.consume
    split
    · next record here => rw [if_neg (Bool.eq_false_iff.mp (fails record here))]
    · rfl

/-- A response for `a.` with one answer of type A, of which two bytes of the address are missing. -/
def truncated : List UInt8 :=
  [0, 7, 0x81, 0x80, 0, 1, 0, 1, 0, 0, 0, 0] ++ [1, 97, 0, 0, 1, 0, 1] ++
    [1, 97, 0, 0, 1, 0, 1, 0, 0, 0, 60, 0, 4, 10, 0]

/-- A record cut short: the loop of `parseDNSResponse` does not end. -/
theorem truncated_never_returns :
    (∀ fuel, parseDNSResponse (plain truncated) fuel ["a".toList] = none) ∧
      ¬ Agrees (plain truncated) ["a".toList] := by
  have asked : responseQuestion (plain truncated) = some ("a.".toList, ⟨0, 1, 19⟩) := by decide +kernel
  have here : (plain truncated).records ((plain truncated).skipAllQuestions ⟨0, 1, 19⟩).2 = [⟨.a, 4, 32⟩] := by
    decide +kernel
  have never (ips : List IP) (fuel : Nat) : parseDNSResponse (plain truncated) fuel ["a".toList] ≠ some ips := by
    intro parse
    rw [parseDNSResponse_of_asked fuel asked (by decide +kernel)] at parse
    exact not_returns_of_not_fits here (by decide) ⟨fuel, parse⟩
  refine ⟨fun fuel => Option.eq_none_iff_forall_ne_some.mpr fun ips => never ips fuel, ?_⟩
  rintro ⟨fuel, ips, parse, -⟩
  exact never ips fuel parse

end Ttgo.Client.DnsAnswers

/-
**`rules.toml`: what `Set` writes and `LoadFile` reads.**

`internal/rules/rules.go`: `Set` compiles the rules, puts them in place and writes them with Go's `%q`; `LoadFile`
decodes the file as TOML and compiles what it reads.

* `Engine`, `Engine.set`, `Engine.loadFile`; `Stored` — what stands at the path.
* `Decoder` — a decoder of the file: it reads what `Set` writes as TOML says. What it makes of other texts, such as an
  inline array, is its own.
* `readable_of_compile` — what `compile` accepts is made of characters that both languages write alike.
* `decode_saveRulesFile` — the texts of the rules come back; `loadFile_saved` — and with them the engine.
-/

import Ttgo.Admin.CredsFile
import Ttgo.Lib.GoHost
import Ttgo.Rules.Meaning

namespace Ttgo.Rules

open Ttgo.Lib Ttgo.Lib.Toml Ttgo.Admin.CredsFile Ttgo.Endpoint

variable {wide : Char → Bool}

/-! ### The engine -/

structure Engine (wide : Char → Bool) where
  rules : List (Compiled wide)
  path : Text

namespace Engine

def new : Engine wide := ⟨[], []⟩

def snapshot (e : Engine wide) : List RuleView := e.rules.map Compiled.view

def allow (e : Engine wide) (ip : IP) (random : List UInt8) : Bool := allowed e.rules ip random

end Engine

/-- A call of `Set`: its error, the engine after it, and the text that it has written. -/
structure SetResult (wide : Char → Bool) where
  err : Option Text
  engine : Engine wide
  written : Option Text

/-- `Set`; the fault is the error of `os.WriteFile`. -/
def Engine.set (e : Engine wide) (views : List RuleView) (fault : Option Text) : SetResult wide :=
  match compileViews wide 0 views with
  | .error err => ⟨some err, e, none⟩
  | .ok rules =>
    let e := { e with rules }
    if e.path = [] then ⟨none, e, none⟩
    else
      match fault with
      | none => ⟨none, e, some (saveRulesFile wide views)⟩
      | some err => ⟨some err, e, none⟩

/-! ### Reading -/

def ruleKey : Text := "rule".toList

def cidrKey : Text := "cidr".toList

def clientRandomPrefixKey : Text := "client_random_prefix".toList

def actionKey : Text := "action".toList

def ruleIn (doc : Document) (element : Text × Nat) : Option RuleView := do
  let cidr ← stringIn doc element cidrKey
  let clientRandomPrefix ← stringIn doc element clientRandomPrefixKey
  let action ← stringIn doc element actionKey
  return ⟨cidr, clientRandomPrefix, action⟩

/-- `toml.DecodeFile` into the rules, on the content of the file; what is written is read as TOML says. -/
structure Decoder where
  decode : Text → Except Text (List RuleView)
  reads : ∀ {wide views doc read}, Toml.decode (saveRulesFile wide views) = some doc →
    elementsOf ruleKey ruleIn doc = some read → decode (saveRulesFile wide views) = .ok read

/-- The decoder that reads these documents only. -/
def plainDecoder : Decoder where
  decode text :=
    ((Toml.decode text).bind (elementsOf ruleKey ruleIn)).elim (.error "toml: unexpected".toList) .ok
  reads := by
    intro wide views doc read decoded reads
    rw [decoded, Option.bind_some, reads]
    rfl

/-- What stands at a path. -/
inductive Stored
  | absent
  | unreadable (err : Text)
  | holds (text : Text)
deriving DecidableEq, Repr

/-- The loop of `LoadFile`. -/
def compileLoaded (wide : Char → Bool) : List RuleView → Except Text (List (Compiled wide))
  | [] => .ok []
  | v :: views =>
    match compiled : compile wide v with
    | .error err => .error ("compile rule: ".toList ++ err)
    | .ok rule => (compileLoaded wide views).map (⟨v, rule, compiled⟩ :: ·)

/-- `LoadFile`: its error, and the engine after it. -/
def Engine.loadFile (decoder : Decoder) (e : Engine wide) (path : Text) (stored : Stored) :
    Option Text × Engine wide :=
  let e := { e with path }
  if path = [] then (none, e)
  else
    match stored with
    -- the file need not be there
    | .absent => (none, e)
    | .unreadable err => (some ("parse rules: ".toList ++ err), e)
    | .holds text =>
      match decoder.decode text with
      | .error err => (some ("parse rules: ".toList ++ err), e)
      | .ok views =>
        match compileLoaded wide views with
        | .error err => (some err, e)
        | .ok rules => (none, { e with rules })

theorem compileLoaded_of_compileViews {views : List RuleView} {index : Nat} {rules : List (Compiled wide)}
    (accepted : compileViews wide index views = .ok rules) : compileLoaded wide views = .ok rules := by
  induction views generalizing index rules with
  | nil =>
    cases accepted
    rfl
  | cons v views ih =>
    obtain ⟨rule, compiled, rest, later, rfl⟩ := compileViews_cons_eq_ok.mp accepted
    rw [compileLoaded]
    split
    · next err failed =>
      rw [failed] at compiled
      cases compiled
    · next rule' compiled' =>
      obtain rfl := Except.ok.inj (compiled'.symm.trans compiled)
      rw [ih later]
      rfl

/-! ### What is accepted is readable -/

theorem isReadable_of_bounds {c : Char} (bounds : 0x20 ≤ c.toNat ∧ c.toNat < 0x7f) : isReadable c := by
  have printed : isControl c = false := by
    rw [isControl, decide_eq_false_iff_not]
    omega
  rw [isReadable, printed]
  rfl

theorem hexValue_bounds {c : Char} (digit : (hexValue c).isSome) : 0x30 ≤ c.toNat ∧ c.toNat < 0x67 := by
  have order : ∀ a b : Char, a ≤ b → a.toNat ≤ b.toNat := fun _ _ => id
  unfold hexValue at digit
  split at digit
  · next within =>
    exact ⟨order '0' c within.1, Nat.lt_of_le_of_lt (order c '9' within.2) (by decide)⟩
  split at digit
  · next within =>
    exact ⟨(by decide : 0x30 ≤ 'a'.toNat).trans (order 'a' c within.1),
      Nat.lt_of_le_of_lt (order c 'f' within.2) (by decide)⟩
  split at digit
  · next within =>
    exact ⟨(by decide : 0x30 ≤ 'A'.toNat).trans (order 'A' c within.1),
      Nat.lt_of_le_of_lt (order c 'F' within.2) (by decide)⟩
  · cases digit

theorem isReadable_of_hexValue {c : Char} (digit : (hexValue c).isSome) : isReadable c := by
  have bounds := hexValue_bounds digit
  exact isReadable_of_bounds (by omega)

theorem isReadable_of_isAddress {c : Char} (address : isAddress c) : isReadable c := by
  rcases of_decide_eq_true address with digit | rfl | rfl
  · exact isReadable_of_hexValue digit
  · decide
  · decide

theorem readable_of_cut {text back : Text} {slash : Char} (cut : text.dropWhile (· ≠ '/') = slash :: back)
    (front : (text.takeWhile (· ≠ '/')).all isReadable) (behind : back.all isReadable) : text.all isReadable := by
  have parts : text.takeWhile (· ≠ '/') ++ slash :: back = text := by
    rw [← cut]
    exact List.takeWhile_append_dropWhile
  have sign : slash = '/' := by
    have stopped := List.head?_dropWhile_not (· ≠ '/') text
    rw [cut] at stopped
    simpa using stopped
  rw [← parts, List.all_append, List.all_cons, front, behind, sign]
  decide

theorem readable_of_parseCIDR {cidr : Text} {network : IPNet} (parsed : parseCIDR cidr = some network) :
    cidr.all isReadable := by
  unfold parseCIDR at parsed
  split at parsed
  · next slash ones cut =>
    obtain ⟨addr, read, parsed⟩ := Option.bind_eq_some_iff.mp parsed
    obtain ⟨⟨-, digits, -⟩, -⟩ := Option.ite_none_right_eq_some.mp parsed
    rw [List.all_eq_true] at digits
    refine readable_of_cut cut ?_ ?_
    · have address := List.all_eq_true.mp (parseAddr_eq_some read).1
      exact List.all_eq_true.mpr fun c member => isReadable_of_isAddress (address c member)
    · exact List.all_eq_true.mpr fun c member =>
        isReadable_of_hexValue (hexValue_of_isDigit (digits c member))
  · cases parsed

theorem readable_of_isHex {text : Text} {bytes : List UInt8} (spelled : IsHex text bytes) : text.all isReadable := by
  induction spelled with
  | nil => rfl
  | cons first second _ ih =>
    rw [List.all_cons, List.all_cons, ih, isReadable_of_hexValue (by rw [first]; rfl),
      isReadable_of_hexValue (by rw [second]; rfl)]
    rfl

theorem readable_of_parseClientRandom {text : Text} {pattern : RandomPattern}
    (parsed : parseClientRandom text = .ok pattern) : text.all isReadable := by
  unfold parseClientRandom at parsed
  split at parsed
  · next slash back cut =>
    split at parsed
    · cases parsed
    next bytes one =>
    split at parsed
    · cases parsed
    next mask two =>
    rw [wrap_eq_ok, hexDecode_eq_ok_iff] at one two
    exact readable_of_cut cut (readable_of_isHex one) (readable_of_isHex two)
  · split at parsed
    · cases parsed
    next bytes one =>
    rw [wrap_eq_ok, hexDecode_eq_ok_iff] at one
    exact readable_of_isHex one

theorem readable_of_compile {v : RuleView} {rule : Rule} (compiled : compile wide v = .ok rule) :
    v.cidr.all isReadable ∧ v.clientRandomPrefix.all isReadable ∧ v.action.all isReadable := by
  obtain ⟨network, random, action⟩ := compile_eq_ok compiled
  refine ⟨?_, ?_, ?_⟩
  · unfold compileCIDR at network
    split at network
    · next none => rw [none]; rfl
    split at network
    · cases network
    · next parsed => exact readable_of_parseCIDR parsed
  · unfold compileRandom at random
    split at random
    · next none => rw [none]; rfl
    · cases parsed : parseClientRandom v.clientRandomPrefix with
      | error err =>
        rw [parsed] at random
        cases random
      | ok pattern => exact readable_of_parseClientRandom parsed
  · unfold compileAction at action
    split at action
    · next allows => rw [allows]; decide
    split at action
    · next denies => rw [denies]; decide
    · cases action

/-! ### Writing -/

def ruleFields (v : RuleView) : List (Text × Value) :=
  (if v.cidr ≠ [] then [(cidrKey, .string v.cidr)] else []) ++
    (if v.clientRandomPrefix ≠ [] then [(clientRandomPrefixKey, .string v.clientRandomPrefix)] else []) ++
    [(actionKey, .string v.action)]

/-- The lines of a rule, with the statements that they are. -/
def ruleStatements (wide : Char → Bool) (v : RuleView) : List (Text × List Statement) :=
  [("[[rule]]".toList, [.arrayTable [ruleKey]])] ++
    (if v.cidr ≠ [] then [quotedLine wide cidrKey v.cidr] else []) ++
    (if v.clientRandomPrefix ≠ [] then [quotedLine wide clientRandomPrefixKey v.clientRandomPrefix] else []) ++
    [quotedLine wide actionKey v.action, ([], [])]

variable {v : RuleView} {views : List RuleView}

theorem ruleStatements_eq (wide : Char → Bool) (v : RuleView) :
    ruleStatements wide v = elementLines wide (ruleKey, ruleFields v) := by
  unfold ruleStatements ruleFields
  split <;> split <;> rfl

theorem saveRulesFile_eq (wide : Char → Bool) (views : List RuleView) :
    saveRulesFile wide views =
      ((views.flatMap (ruleStatements wide)).map Prod.fst).flatMap (· ++ ['\n']) := by
  have header : "[[rule]]\n".toList = "[[rule]]".toList ++ ['\n'] := rfl
  have line : "\n".toList = ['\n'] := rfl
  have blank : "\n\n".toList = ['\n'] ++ ([] ++ ['\n']) := rfl
  have cidr : "cidr = ".toList = cidrKey ++ " = ".toList := rfl
  have random : "client_random_prefix = ".toList = clientRandomPrefixKey ++ " = ".toList := rfl
  have action : "action = ".toList = actionKey ++ " = ".toList := rfl
  rw [List.map_flatMap, List.flatMap_assoc, saveRulesFile]
  refine congrArg (views.flatMap ·) (funext fun v => ?_)
  rw [header, line, blank, cidr, random, action, ruleStatements]
  split <;> split <;>
    simp only [quotedLine, List.map_append, List.map_cons, List.map_nil, List.flatMap_append, List.flatMap_cons,
      List.flatMap_nil, List.append_assoc, List.append_nil, List.nil_append]

theorem mem_ruleFields {field : Text × Value} (member : field ∈ ruleFields v) :
    field = (cidrKey, .string v.cidr) ∨ field = (clientRandomPrefixKey, .string v.clientRandomPrefix) ∨
      field = (actionKey, .string v.action) := by
  rcases List.mem_append.mp member with front | last
  · rcases List.mem_append.mp front with network | pattern
    · exact .inl (List.mem_singleton.mp (List.mem_ite_nil_right.mp network).2)
    · exact .inr (.inl (List.mem_singleton.mp (List.mem_ite_nil_right.mp pattern).2))
  · exact .inr (.inr (List.mem_singleton.mp last))

theorem nodup_ruleFields (v : RuleView) : ((ruleFields v).map Prod.fst).Nodup := by
  have all : [cidrKey, clientRandomPrefixKey, actionKey].Nodup := by decide +kernel
  refine List.Nodup.sublist ?_ all
  unfold ruleFields
  split <;> split <;> simp

theorem spelled_rule (v : RuleView) : Spelled (ruleKey, ruleFields v) := by
  have keys : ∀ key ∈ [cidrKey, clientRandomPrefixKey, actionKey], key ≠ [] ∧ key.all isBare = true := by decide
  have named : ruleKey ≠ [] ∧ ruleKey.all isBare = true := by decide
  refine ⟨named.1, named.2, fun field member => ?_, nodup_ruleFields v⟩
  rcases mem_ruleFields member with rfl | rfl | rfl
  · exact .text (keys _ (by simp)) _
  · exact .text (keys _ (by simp)) _
  · exact .text (keys _ (by simp)) _

theorem readable_ruleFields {rule : Rule} (compiled : compile wide v = .ok rule) :
    ∀ field ∈ ruleFields v, field.2.readable = true := by
  obtain ⟨cidr, random, action⟩ := readable_of_compile compiled
  intro field member
  rcases mem_ruleFields member with rfl | rfl | rfl
  · exact cidr
  · exact random
  · exact action

/-! ### The rules come back -/

theorem equalFold_ruleKeys :
    (equalFold cidrKey cidrKey ∧ equalFold clientRandomPrefixKey clientRandomPrefixKey ∧
      equalFold actionKey actionKey) ∧
    (¬ equalFold clientRandomPrefixKey cidrKey ∧ ¬ equalFold actionKey cidrKey) ∧
    (¬ equalFold cidrKey clientRandomPrefixKey ∧ ¬ equalFold actionKey clientRandomPrefixKey) ∧
    ¬ equalFold cidrKey actionKey ∧ ¬ equalFold clientRandomPrefixKey actionKey := by
  decide

theorem valuesOf_ruleFields (v : RuleView) :
    valuesOf cidrKey (ruleFields v) = (if v.cidr ≠ [] then [.string v.cidr] else []) ∧
    valuesOf clientRandomPrefixKey (ruleFields v) =
      (if v.clientRandomPrefix ≠ [] then [.string v.clientRandomPrefix] else []) ∧
    valuesOf actionKey (ruleFields v) = [.string v.action] := by
  unfold ruleFields
  by_cases network : v.cidr = []
  · by_cases random : v.clientRandomPrefix = []
    · simp [valuesOf, equalFold_ruleKeys, network, random]
    · simp [valuesOf, equalFold_ruleKeys, network, random]
  · by_cases random : v.clientRandomPrefix = []
    · simp [valuesOf, equalFold_ruleKeys, network, random]
    · simp [valuesOf, equalFold_ruleKeys, network, random]

theorem stringIn_optional {doc : Document} {element : Text × Nat} {key text : Text}
    (values : fieldValues doc element key = some (if text ≠ [] then [.string text] else [])) :
    stringIn doc element key = some text := by
  rw [stringIn, values]
  by_cases none : text = []
  · rw [if_neg (not_not.mpr none), none]
  · rw [if_pos none]

theorem ruleIn_eq_some {doc : Document} {element : Text × Nat}
    (values : ∀ key, fieldValues doc element key = some (valuesOf key (ruleFields v))) :
    ruleIn doc element = some v := by
  obtain ⟨network, random, action⟩ := valuesOf_ruleFields v
  have cidr : stringIn doc element cidrKey = some v.cidr :=
    stringIn_optional (by rw [values, network])
  have clientRandomPrefix : stringIn doc element clientRandomPrefixKey = some v.clientRandomPrefix :=
    stringIn_optional (by rw [values, random])
  have action' : stringIn doc element actionKey = some v.action := by rw [stringIn, values, action]
  rw [ruleIn, cidr, clientRandomPrefix, action']
  rfl

theorem decode_saveRulesFile (decoder : Decoder) (accepted : ∀ v ∈ views, ∃ rule, compile wide v = .ok rule) :
    decoder.decode (saveRulesFile wide views) = .ok views := by
  let sections : Sections := views.map fun v => (ruleKey, ruleFields v)
  have named : elementsNamed ruleKey sections = views.map ruleFields := by
    simp [sections, elementsNamed, List.filterMap_map]
  have lines : views.flatMap (ruleStatements wide) = sections.flatMap (elementLines wide) := by
    rw [List.flatMap_map, funext (ruleStatements_eq wide)]
  have spelled : ∀ part ∈ sections, Spelled part := by
    intro part member
    obtain ⟨v, -, rfl⟩ := List.mem_map.mp member
    exact spelled_rule v
  have reads : ∀ part ∈ sections, ∀ field ∈ part.2, field.2.readable = true := by
    intro part member
    obtain ⟨v, listed, rfl⟩ := List.mem_map.mp member
    obtain ⟨rule, compiled⟩ := accepted v listed
    exact readable_ruleFields compiled
  obtain ⟨kinds, decoded, holds⟩ := decode_elements spelled reads
  rw [← lines, ← saveRulesFile_eq] at decoded
  refine decoder.reads decoded ?_
  have self : equalFold ruleKey ruleKey = true := by decide
  have only : ∀ part ∈ sections, equalFold part.1 ruleKey = true → part.1 = ruleKey := by
    intro part member _
    obtain ⟨v, -, rfl⟩ := List.mem_map.mp member
    rfl
  have many : (elementsNamed ruleKey sections).length = views.length := by rw [named, List.length_map]
  have each : ∀ index v, views[index]? = some v →
      ruleIn ⟨kinds, sectionFields (fun _ => 0) sections⟩ (ruleKey, index + 1) = some (id v) := by
    intro index v entry
    refine ruleIn_eq_some fun key => fieldValues_sections holds ?_ key
    rw [named, List.getElem?_map, entry]
    rfl
  have read := elementsOf_sections holds self only many each
  rwa [List.map_id] at read

/-- **The round trip.** For every list of rules that `Set` accepts, with a path and a write that succeeds, a new
engine that loads the file has the same rules: the same texts in the same order, and the same answers. -/
theorem loadFile_saved (decoder : Decoder) (e : Engine wide) (views : List RuleView) (configured : e.path ≠ [])
    (succeeds : (e.set views none).err = none) :
    ∃ text, (e.set views none).written = some text ∧
      let loaded := (Engine.new : Engine wide).loadFile decoder e.path (.holds text)
      loaded.1 = none ∧ loaded.2.snapshot = views ∧ (e.set views none).engine.snapshot = views ∧
      ∀ ip random, loaded.2.allow ip random = (e.set views none).engine.allow ip random := by
  cases compiled : compileViews wide 0 views with
  | error err =>
    simp only [Engine.set, compiled] at succeeds
    cases succeeds
  | ok rules =>
    have outcome : e.set views none = ⟨none, { e with rules }, some (saveRulesFile wide views)⟩ := by
      simp only [Engine.set, compiled, if_neg configured]
    have accepted := exists_compileViews_iff.mp ⟨rules, compiled⟩
    have loaded : Engine.new.loadFile decoder e.path (.holds (saveRulesFile wide views)) =
        (none, ⟨rules, e.path⟩) := by
      simp only [Engine.loadFile, if_neg configured, decode_saveRulesFile decoder accepted,
        compileLoaded_of_compileViews compiled]
    have same : rules.map Compiled.view = views := map_view_compileViews compiled
    rw [outcome]
    refine ⟨_, rfl, ?_⟩
    show (Engine.new.loadFile decoder e.path _).1 = none ∧ _
    rw [loaded]
    exact ⟨rfl, same, same, fun _ _ => rfl⟩

/-- Three rules, one of them with an address of version six and one with a mask. -/
theorem loadFile_saved_three :
    let e : Engine (fun _ => true) := ⟨[], "rules.toml".toList⟩
    let views : List RuleView :=
      [⟨"10.0.0.0/8".toList, [], "deny".toList⟩, ⟨[], "a0b0/f0f0".toList, "allow".toList⟩,
        ⟨"2001:db8::/32".toList, "aabb".toList, "deny".toList⟩]
    ∃ text, (e.set views none).written = some text ∧
      let loaded := (Engine.new : Engine fun _ => true).loadFile plainDecoder e.path (.holds text)
      loaded.1 = none ∧ loaded.2.snapshot = views ∧ (e.set views none).engine.snapshot = views ∧
      ∀ ip random, loaded.2.allow ip random = (e.set views none).engine.allow ip random :=
  loadFile_saved plainDecoder _ _ (by decide) (by decide +kernel)

end Ttgo.Rules

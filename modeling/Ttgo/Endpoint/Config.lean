/-
**`config.Load` and `buildStore`: which user store the endpoint uses.**

`internal/config/config.go` decodes `vpn.toml` and fills in defaults; `buildStore` of
`cmd/endpoint/main.go` goes by the fields that name the store. The decoder is a parameter: it divides a text
into statements and fills the fields of `Config` from them, and what is asked of it are the laws of TOML for
an assignment of a quoted text to one of the two keys.

* `equalFold` — `strings.EqualFold` with a key of the struct.
* `Decoder` — the decoder, with its laws; `load`, `buildStore`.
* `plainDecoder` — a decoder for texts of one-line statements.
-/

import Ttgo.Lib.TomlQuote

namespace Ttgo.Endpoint

open Ttgo.Lib Ttgo.Lib.Toml

/-! ### The configuration -/

/-- A letter folded to lower-case ASCII; two letters outside of ASCII fold there as well. -/
def foldRune (c : Char) : Char :=
  if c.toNat = 0x17F then 's' else if c.toNat = 0x212A then 'k' else c.toLower

/-- `strings.EqualFold` with a key in lower-case ASCII. -/
def equalFold (name key : Text) : Bool := name.map foldRune = key

def storeTypeKey : Text := "store_type".toList

def storeDSNKey : Text := "store_dsn".toList

def credentialsFileKey : Text := "credentials_file".toList

/-- The two keys that select a store. -/
def storeKeys : List Text := [storeTypeKey, storeDSNKey]

/-- `Config`: the fields that name the store, and all others. -/
structure Config (Rest : Type) where
  storeType : Text
  storeDSN : Text
  credentialsFile : Text
  rest : Rest
deriving DecidableEq, Repr

section Fields

variable {Rest : Type}

/-- The field of one of the two keys. -/
def Config.get (config : Config Rest) (key : Text) : Text :=
  if key = storeTypeKey then config.storeType else config.storeDSN

def Config.set (config : Config Rest) (key text : Text) : Config Rest :=
  if key = storeTypeKey then { config with storeType := text } else { config with storeDSN := text }

/-- The other fields. -/
def Config.others (config : Config Rest) : Text × Rest := (config.credentialsFile, config.rest)

@[simp] theorem others_set (config : Config Rest) (key text : Text) :
    (config.set key text).others = config.others := by
  unfold Config.set
  split <;> rfl

theorem get_set {key other : Text} (among : key ∈ storeKeys) (asked : other ∈ storeKeys)
    (config : Config Rest) (text : Text) :
    (config.set key text).get other = if other = key then text else config.get other := by
  have different : storeDSNKey ≠ storeTypeKey := by decide
  simp only [storeKeys, List.mem_cons, List.not_mem_nil, or_false] at among asked
  rcases among with rfl | rfl <;> rcases asked with rfl | rfl <;>
    simp [Config.set, Config.get, different, different.symm]

theorem config_ext {config config' : Config Rest} (fields : ∀ key ∈ storeKeys, config.get key = config'.get key)
    (others : config.others = config'.others) : config = config' := by
  have typed : config.storeType = config'.storeType := fields storeTypeKey (by decide)
  have named := fields storeDSNKey (by decide)
  simp only [Config.get, show storeDSNKey ≠ storeTypeKey by decide, if_false] at named
  obtain ⟨file, rest⟩ := Prod.mk.inj others
  cases config
  cases config'
  simp_all

end Fields

/-! ### The decoder -/

/-- The lines of one statement. -/
abbrev Block := List Text

/-- `fmt.Sprintf("%s = %q", key, text)`. -/
def assignLine (wide : Char → Bool) (key text : Text) : Text := key ++ " = ".toList ++ quote wide text

/-- The statements that can define a name of the root table: those above the first header, and the headers. -/
def rootward (isHeader : Block → Bool) (blocks : List Block) : List Block :=
  blocks.takeWhile (!isHeader ·) ++ blocks.filter isHeader

theorem mem_rootward {isHeader : Block → Bool} {block : Block} {before after : List Block}
    (root : before.countP isHeader = 0) : block ∈ rootward isHeader (before ++ block :: after) := by
  rw [rootward, List.mem_append]
  by_cases head : isHeader block = true
  · exact .inr (List.mem_filter.mpr ⟨by simp, head⟩)
  · have above : ∀ other ∈ before, (!isHeader other) = true := by simpa using List.countP_eq_zero.mp root
    rw [List.takeWhile_append_of_pos above, List.takeWhile_cons_of_pos (by simpa using head)]
    exact .inl (List.mem_append_right _ List.mem_cons_self)

/-- **A TOML decoder**, with the fields of `Config` that it fills. -/
structure Decoder (Rest : Type) where
  /-- The statements of a text; none where it has a syntax error. -/
  statements : List Text → Option (List Block)
  /-- The statement is `[table]` or `[[table]]`. -/
  isHeader : Block → Bool
  /-- The names in the key or in the header of a statement. -/
  names : Block → List Text
  /-- The section with that number, where the root table is 0, defines the name. -/
  defined : List Block → Nat → Text → Bool
  /-- The fields, before the defaults; none where a key is defined twice or a field has another type. -/
  fill : List Block → Option (Config Rest)
  flatten_statements : ∀ {lines : List Text} {blocks : List Block},
    statements lines = some blocks → blocks.flatten = lines
  /-- An assignment may stand in the place of statements, or behind one. -/
  statements_assign : ∀ {front old back : List Block} {key text : Text} (wide : Char → Bool),
    key ∈ storeKeys → (∀ c ∈ text, isReadable c) → front ++ old ≠ [] →
    statements (front ++ old ++ back).flatten = some (front ++ old ++ back) →
    statements (front ++ [[assignLine wide key text]] ++ back).flatten =
      some (front ++ [[assignLine wide key text]] ++ back)
  isHeader_assign : ∀ {key text : Text} (wide : Char → Bool), key ∈ storeKeys →
    (∀ c ∈ text, isReadable c) → isHeader [assignLine wide key text] = false
  names_assign : ∀ {key text : Text} (wide : Char → Bool), key ∈ storeKeys →
    (∀ c ∈ text, isReadable c) → names [assignLine wide key text] = [key]
  defined_assign : ∀ {front back : List Block} {n : Nat} {key name text : Text} (wide : Char → Bool),
    key ∈ storeKeys → (∀ c ∈ text, isReadable c) →
    (defined (front ++ [[assignLine wide key text]] ++ back) n name = true ↔
      (n, name) = (front.countP isHeader, key) ∨ defined (front ++ back) n name = true)
  /-- No other field has a name that starts like one of the two. -/
  fill_drop : ∀ {front back : List Block} {key line : Text} {config : Config Rest},
    key ∈ storeKeys → key.isPrefixOf (trimSpace line) = true →
    fill (front ++ [[line]] ++ back) = some config →
    ∃ config', fill (front ++ back) = some config' ∧ config'.others = config.others
  fill_absent : ∀ {blocks : List Block} {key : Text} {config : Config Rest}, key ∈ storeKeys →
    fill blocks = some config →
    (∀ block ∈ rootward isHeader blocks, ∀ name ∈ (names block).head?, equalFold name key = false) →
    config.get key = []
  /-- An assignment of what its section defines already is refused. -/
  fill_again : ∀ {front back : List Block} {key text : Text} (wide : Char → Bool), key ∈ storeKeys →
    (∀ c ∈ text, isReadable c) → defined (front ++ back) (front.countP isHeader) key = true →
    fill (front ++ [[assignLine wide key text]] ++ back) = none
  /-- Any other is accepted. In the root table it is the field, if no statement has another spelling of it. -/
  fill_assign : ∀ {front back : List Block} {key text : Text} {config : Config Rest} (wide : Char → Bool),
    key ∈ storeKeys → (∀ c ∈ text, isReadable c) → fill (front ++ back) = some config →
    defined (front ++ back) (front.countP isHeader) key = false →
    (front.countP isHeader = 0 → ∀ block ∈ rootward isHeader (front ++ back), ∀ name ∈ (names block).head?,
      equalFold name key = true → name = key) →
    fill (front ++ [[assignLine wide key text]] ++ back) =
      some (if front.countP isHeader = 0 then config.set key text else config)

/-- `defaults`, for the type of the store. -/
def defaults {Rest : Type} (config : Config Rest) : Config Rest :=
  if config.storeType = [] then { config with storeType := "file".toList } else config

/-- `Load`, on the content of the file. -/
def load {Rest : Type} (decoder : Decoder Rest) (data : Text) : Option (Config Rest) :=
  ((decoder.statements (splitLines data)).bind decoder.fill).map defaults

inductive Selected
  | sqlite (dsn : Text)
  | postgres (dsn : Text)
  | file (path : Text)
deriving DecidableEq, Repr

def buildStore {Rest : Type} (config : Config Rest) : Selected :=
  if config.storeType = "sqlite".toList then
    .sqlite (if config.storeDSN = [] then "users.db".toList else config.storeDSN)
  else if config.storeType = "postgres".toList then .postgres config.storeDSN
  else .file config.credentialsFile

/-! ### Texts of one-line statements -/

inductive LineKind
  | blank
  | header (names : List Text)
  | assign (key text : Text)
deriving DecidableEq, Repr

/-- The line starts with one of the two keys. -/
def isStoreLine (line : Text) : Bool := storeKeys.any fun key => key.isPrefixOf (trimSpace line)

def kindOf : List Statement → Option LineKind
  | [] => some .blank
  | [.table names] => some (.header names)
  | [.assign [key] (.string text)] | [.assign [key] (.scalar text)] => some (.assign key text)
  | _ => none

def lineKind (line : Text) : Option LineKind :=
  match feedLine .line line with
  | some (.line, statements) => kindOf statements
  | _ => none

def blockKind : Block → LineKind
  | [line] =>
    match lineKind line with
    | some (.header names) => if isStoreLine line then .blank else .header names
    | some kind => kind
    | none => .blank
  | _ => .blank

/-- An assignment: the section it stands in, its key, its text and its block. -/
structure Entry where
  place : Nat × Text
  text : Text
  block : Block
deriving DecidableEq, Repr

/-- An entry for none of the two keys, on a line that does not start with one. -/
def Entry.isOther (entry : Entry) : Bool :=
  !(storeKeys.contains entry.place.2 || entry.block.any isStoreLine)

def isPlainHeader (block : Block) : Bool :=
  match blockKind block with
  | .header _ => true
  | _ => false

def plainNames (block : Block) : List Text :=
  match blockKind block with
  | .blank => []
  | .header names => names
  | .assign key _ => [key]

def entriesOf : Nat → List Block → List Entry
  | _, [] => []
  | n, block :: blocks =>
    match blockKind block with
    | .blank => entriesOf n blocks
    | .header _ => entriesOf (n + 1) blocks
    | .assign key text => ⟨(n, key), text, block⟩ :: entriesOf n blocks

def valueAt (place : Nat × Text) (entries : List Entry) : Text :=
  ((entries.find? fun entry => entry.place = place).map Entry.text).getD []

def configOf (entries : List Entry) : Config (List Entry) :=
  ⟨valueAt (0, storeTypeKey) entries, valueAt (0, storeDSNKey) entries,
    valueAt (0, credentialsFileKey) (entries.filter Entry.isOther), entries.filter Entry.isOther⟩

def plainFill (blocks : List Block) : Option (Config (List Entry)) :=
  if ((entriesOf 0 blocks).map Entry.place).Nodup then some (configOf (entriesOf 0 blocks)) else none

def plainStatements (lines : List Text) : Option (List Block) :=
  if lines.all fun line => (lineKind line).isSome then some (lines.map fun line => [line]) else none

section Plain

variable {n : Nat} {front back blocks : List Block} {key text line : Text} {entry : Entry}
  {config : Config (List Entry)}

theorem entriesOf_append (n : Nat) (front back : List Block) :
    entriesOf n (front ++ back) = entriesOf n front ++ entriesOf (n + front.countP isPlainHeader) back := by
  induction front generalizing n with
  | nil => rfl
  | cons block front ih =>
    cases kind : blockKind block <;>
      simp [entriesOf, isPlainHeader, kind, ih, Nat.add_assoc, Nat.add_comm 1]

theorem blockKind_assign (wide : Char → Bool) (among : key ∈ storeKeys)
    (readable : ∀ c ∈ text, isReadable c) : lineKind (assignLine wide key text) = some (.assign key text) := by
  have bare : ∀ key ∈ storeKeys, key ≠ [] ∧ key.all isBare := by decide
  have read := assigns_quote wide (bare key among).1 (List.all_eq_true.mp (bare key among).2) readable
  rw [lineKind, assignLine, read]
  rfl

theorem mem_entriesOf (member : entry ∈ entriesOf n blocks) :
    blockKind entry.block = .assign entry.place.2 entry.text ∧ ∃ before after,
      blocks = before ++ entry.block :: after ∧ entry.place.1 = n + before.countP isPlainHeader := by
  induction blocks generalizing n with
  | nil => cases member
  | cons block blocks ih =>
    have later (m : Nat) (inside : entry ∈ entriesOf m blocks)
        (next : m = n + [block].countP isPlainHeader) :
        blockKind entry.block = .assign entry.place.2 entry.text ∧ ∃ before after,
          block :: blocks = before ++ entry.block :: after ∧ entry.place.1 = n + before.countP isPlainHeader := by
      obtain ⟨kind, before, after, rfl, place⟩ := ih inside
      refine ⟨kind, block :: before, after, rfl, ?_⟩
      rw [place, next, Nat.add_assoc, ← List.countP_append]
      rfl
    rw [entriesOf] at member
    split at member
    · next kind => exact later n member (by simp [isPlainHeader, kind])
    · next kind => exact later (n + 1) member (by simp [isPlainHeader, kind])
    · next kind =>
      rcases List.mem_cons.mp member with rfl | inside
      · exact ⟨kind, [], blocks, rfl, rfl⟩
      · exact later n inside (by simp [isPlainHeader, kind])

theorem block_mem (member : entry ∈ entriesOf n blocks) : entry.block ∈ blocks := by
  obtain ⟨-, before, after, rfl, -⟩ := mem_entriesOf member
  exact List.mem_append_right _ List.mem_cons_self

theorem names_of_mem (member : entry ∈ entriesOf n blocks) : plainNames entry.block = [entry.place.2] := by
  rw [plainNames, (mem_entriesOf member).1]

theorem get_configOf (among : key ∈ storeKeys) (entries : List Entry) :
    (configOf entries).get key = valueAt (0, key) entries := by
  have different : storeDSNKey ≠ storeTypeKey := by decide
  simp only [storeKeys, List.mem_cons, List.not_mem_nil, or_false] at among
  rcases among with rfl | rfl <;> simp [Config.get, configOf, different]

theorem others_configOf {entries entries' : List Entry}
    (same : entries'.filter Entry.isOther = entries.filter Entry.isOther) :
    (configOf entries').others = (configOf entries).others := by
  simp only [Config.others, configOf, same]

theorem isPlainHeader_storeLine (starts : isStoreLine line = true) : isPlainHeader [line] = false := by
  cases read : lineKind line with
  | none => simp [isPlainHeader, blockKind, read]
  | some kind => cases kind <;> simp [isPlainHeader, blockKind, read, starts]

theorem plainFill_drop (among : key ∈ storeKeys) (starts : key.isPrefixOf (trimSpace line) = true)
    (filled : plainFill (front ++ [[line]] ++ back) = some config) :
    ∃ config', plainFill (front ++ back) = some config' ∧ config'.others = config.others := by
  have starts : isStoreLine line = true := List.any_eq_true.mpr ⟨key, among, starts⟩
  obtain ⟨distinct, filled⟩ := Option.ite_none_right_eq_some.mp filled
  obtain rfl := Option.some.inj filled
  have gone : (entriesOf (0 + front.countP isPlainHeader) [[line]]).filter Entry.isOther = [] := by
    refine List.filter_eq_nil_iff.mpr fun entry member => ?_
    have here : entry.block = [line] := List.mem_singleton.mp (block_mem member)
    simp [Entry.isOther, here, starts]
  have parts : entriesOf 0 (front ++ [[line]] ++ back) = entriesOf 0 front ++
      entriesOf (0 + front.countP isPlainHeader) [[line]] ++
        entriesOf (0 + front.countP isPlainHeader) back := by
    rw [entriesOf_append, entriesOf_append, List.countP_append, List.countP_singleton,
      isPlainHeader_storeLine starts]
    rfl
  rw [parts] at distinct ⊢
  refine ⟨_, if_pos (distinct.sublist ?_), others_configOf ?_⟩
  · rw [entriesOf_append]
    exact ((List.sublist_append_left _ _).append (.refl _)).map _
  · rw [entriesOf_append, List.filter_append, List.filter_append, List.filter_append, gone, List.append_nil]

theorem plainFill_absent (among : key ∈ storeKeys) (filled : plainFill blocks = some config)
    (absent : ∀ block ∈ rootward isPlainHeader blocks, ∀ name ∈ (plainNames block).head?,
      equalFold name key = false) : config.get key = [] := by
  obtain ⟨-, filled⟩ := Option.ite_none_right_eq_some.mp filled
  obtain rfl := Option.some.inj filled
  have missing : (entriesOf 0 blocks).find? (fun entry => entry.place = (0, key)) = none := by
    refine List.find?_eq_none.mpr fun entry member same => ?_
    have same := of_decide_eq_true same
    have inRoot : entry.block ∈ rootward isPlainHeader blocks := by
      obtain ⟨-, before, after, parts, place⟩ := mem_entriesOf member
      rw [same] at place
      rw [parts]
      exact mem_rootward (by omega)
    have named := absent entry.block inRoot key (by rw [names_of_mem member, same]; rfl)
    exact absurd ((show ∀ key ∈ storeKeys, equalFold key key = true by decide) key among) (by simp [named])
  rw [get_configOf among, valueAt, missing]
  rfl

theorem entriesOf_assign (wide : Char → Bool) (among : key ∈ storeKeys) (readable : ∀ c ∈ text, isReadable c)
    (front back : List Block) : entriesOf n (front ++ [[assignLine wide key text]] ++ back) =
      entriesOf n front ++ ⟨(n + front.countP isPlainHeader, key), text, [assignLine wide key text]⟩ ::
        entriesOf (n + front.countP isPlainHeader) back := by
  have kind : blockKind [assignLine wide key text] = .assign key text := by
    rw [blockKind, blockKind_assign wide among readable]
  rw [List.append_assoc, entriesOf_append, List.singleton_append, entriesOf, kind]

theorem valueAt_insert {front back : List Entry} {place : Nat × Text}
    (fresh : ∀ other ∈ front ++ back, other.place ≠ entry.place) :
    valueAt place (front ++ entry :: back) =
      if entry.place = place then entry.text else valueAt place (front ++ back) := by
  unfold valueAt
  by_cases same : entry.place = place
  · subst same
    have none : front.find? (fun other => other.place = entry.place) = none :=
      List.find?_eq_none.mpr fun other member => by simpa using fresh other (List.mem_append_left _ member)
    rw [List.find?_append, none, if_pos rfl]
    simp
  · rw [if_neg same, List.find?_append, List.find?_append, List.find?_cons_of_neg (by simp [same])]

def plainDefined (blocks : List Block) (n : Nat) (name : Text) : Bool :=
  ((entriesOf 0 blocks).map Entry.place).contains (n, name)

theorem plainDefined_assign {name : Text} (wide : Char → Bool) (among : key ∈ storeKeys)
    (readable : ∀ c ∈ text, isReadable c) :
    plainDefined (front ++ [[assignLine wide key text]] ++ back) n name = true ↔
      (n, name) = (front.countP isPlainHeader, key) ∨ plainDefined (front ++ back) n name = true := by
  simp only [plainDefined, List.contains_iff_mem, entriesOf_assign wide among readable, entriesOf_append,
    List.map_append, List.map_cons, List.mem_append, List.mem_cons, Nat.zero_add]
  exact or_left_comm

theorem plainFill_again (wide : Char → Bool) (among : key ∈ storeKeys) (readable : ∀ c ∈ text, isReadable c)
    (known : plainDefined (front ++ back) (front.countP isPlainHeader) key = true) :
    plainFill (front ++ [[assignLine wide key text]] ++ back) = none := by
  refine if_neg fun distinct => ?_
  rw [plainDefined, List.contains_iff_mem, entriesOf_append, List.map_append, Nat.zero_add] at known
  rw [entriesOf_assign wide among readable, List.map_append, List.map_cons, List.nodup_middle, List.nodup_cons,
    Nat.zero_add] at distinct
  exact distinct.1 known

theorem plainFill_assign (wide : Char → Bool) (among : key ∈ storeKeys) (readable : ∀ c ∈ text, isReadable c)
    (filled : plainFill (front ++ back) = some config)
    (free : plainDefined (front ++ back) (front.countP isPlainHeader) key = false) :
    plainFill (front ++ [[assignLine wide key text]] ++ back) =
      some (if front.countP isPlainHeader = 0 then config.set key text else config) := by
  have fresh : (front.countP isPlainHeader, key) ∉ (entriesOf 0 (front ++ back)).map Entry.place :=
    fun known => absurd (List.contains_iff_mem.mpr known) (by simpa [plainDefined] using free)
  obtain ⟨distinct, filled⟩ := Option.ite_none_right_eq_some.mp filled
  obtain rfl := Option.some.inj filled
  have other : (⟨(front.countP isPlainHeader, key), text, [assignLine wide key text]⟩ : Entry).isOther = false := by
    simp [Entry.isOther, among]
  rw [entriesOf_append, Nat.zero_add] at distinct fresh ⊢
  rw [plainFill, entriesOf_assign wide among readable, Nat.zero_add, if_pos]
  · refine congrArg some (config_ext (fun asked member => ?_) ?_)
    · rw [get_configOf member, valueAt_insert fun entry inside same => fresh (List.mem_map.mpr ⟨entry, inside, same⟩),
        apply_ite (fun config => Config.get config asked), get_set among member, get_configOf member]
      by_cases root : front.countP isPlainHeader = 0
      · simp only [root, Prod.mk.injEq, true_and, if_true, eq_comm (a := key)]
      · rw [if_neg root, if_neg fun same => root (Prod.mk.inj same).1]
    · have kept : (entriesOf 0 front ++ ⟨(front.countP isPlainHeader, key), text, [assignLine wide key text]⟩ ::
          entriesOf (front.countP isPlainHeader) back).filter Entry.isOther =
            (entriesOf 0 front ++ entriesOf (front.countP isPlainHeader) back).filter Entry.isOther := by
        simp [List.filter_append, other]
      rw [others_configOf kept]
      split <;> simp
  · rw [List.map_append, List.map_cons, List.nodup_middle, ← List.map_append, List.nodup_cons]
    exact ⟨fresh, distinct⟩

theorem plainStatements_flatten : plainStatements blocks.flatten = some blocks ↔
    ∀ block ∈ blocks, ∃ line, block = [line] ∧ (lineKind line).isSome := by
  rw [plainStatements, Option.ite_none_right_eq_some, List.all_eq_true, Option.some.injEq]
  constructor
  · rintro ⟨kinds, singles⟩ block member
    rw [← singles] at member
    obtain ⟨line, inside, rfl⟩ := List.mem_map.mp member
    exact ⟨line, rfl, kinds line inside⟩
  · intro whole
    induction blocks with
    | nil => exact ⟨fun line member => (List.not_mem_nil member).elim, rfl⟩
    | cons block blocks ih =>
      obtain ⟨line, rfl, kind⟩ := whole block List.mem_cons_self
      obtain ⟨kinds, singles⟩ := ih fun other member => whole other (List.mem_cons_of_mem _ member)
      rw [List.flatten_cons, List.singleton_append, List.map_cons, singles]
      exact ⟨List.forall_mem_cons.mpr ⟨kind, kinds⟩, rfl⟩

end Plain

/-- A decoder for texts of blank lines, comments, `[table]` lines and assignments of strings and numbers. -/
def plainDecoder : Decoder (List Entry) where
  statements := plainStatements
  isHeader := isPlainHeader
  names := plainNames
  defined := plainDefined
  fill := plainFill
  flatten_statements read := by
    obtain ⟨-, singles⟩ := Option.ite_none_right_eq_some.mp read
    rw [← Option.some.inj singles, ← List.flatMap_def]
    exact List.flatMap_singleton' _
  statements_assign wide among readable _ read := by
    refine plainStatements_flatten.mpr fun block member => ?_
    have whole := plainStatements_flatten.mp read
    simp only [List.mem_append, List.mem_singleton] at member whole
    rcases member with (inFront | rfl) | inBack
    · exact whole block (.inl (.inl inFront))
    · exact ⟨_, rfl, by rw [blockKind_assign wide among readable]; rfl⟩
    · exact whole block (.inr inBack)
  isHeader_assign wide among readable := by
    rw [isPlainHeader, blockKind, blockKind_assign wide among readable]
  names_assign wide among readable := by
    rw [plainNames, blockKind, blockKind_assign wide among readable]
  defined_assign := plainDefined_assign
  fill_drop := plainFill_drop
  fill_absent := plainFill_absent
  fill_again := plainFill_again
  fill_assign wide among readable filled free _ := plainFill_assign wide among readable filled free

end Ttgo.Endpoint

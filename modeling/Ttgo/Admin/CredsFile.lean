/-
**`credentials.toml`: what is written and what is read.**

`saveCreds` of `internal/admin/store.go` writes the entries with Go's `%q`; `loadCreds` and the `FileStore` of the
endpoint decode the file into structs with the same keys.

* `clientsOf` — the entries of a document whose `client` is an array of tables.
* `saveCreds` — the text of the entries.
* `Decoder` — a decoder of the file: it reads what `saveCreds` writes this way, and refuses it where it is not TOML.
  What it makes of other texts, such as an inline array, is its own.
* `isReadable` for every character decides: `decode_saveCreds` — the entries come back, with a negative limit as none;
  `decode_saveCreds_eq_error` — the file is refused.
-/

import Ttgo.Auth.FileStore
import Ttgo.Endpoint.Config
import Ttgo.Lib.TomlElements

namespace Ttgo.Admin.CredsFile

open Ttgo.Lib Ttgo.Lib.Toml Ttgo.Auth Ttgo.Endpoint

/-! ### Reading -/

def clientKey : Text := "client".toList

def usernameKey : Text := "username".toList

def passwordKey : Text := "password".toList

def maxDevicesKey : Text := "max_devices".toList

/-- The value of a key of a table that is matched with a field. -/
def rootValue (key : Text) : Path × Value → Option Value
  | ([(name, 0)], value) => if equalFold name key then some value else none
  | _ => none

def rootValues (key : Text) (values : List (Path × Value)) : List Value :=
  values.filterMap (rootValue key)

/-- A table stands where a field of an element is. -/
def isTableIn (element : Text × Nat) (key : Text) (kinds : GoMap Path Kind) : Bool :=
  kinds.entries.any fun entry =>
    match entry.1 with
    | [first, (name, 0)] => first = element && equalFold name key && entry.2 ≠ .value
    | _ => false

/-- The values that are matched with a field of an element. -/
def fieldValues (doc : Document) (element : Text × Nat) (key : Text) : Option (List Value) :=
  if isTableIn element key doc.kinds then none
  else some (rootValues key (elementValues element doc.values))

def stringIn (doc : Document) (element : Text × Nat) (key : Text) : Option Text :=
  match fieldValues doc element key with
  | some [] => some []
  | some [.string text] => some text
  | _ => none

def intIn (doc : Document) (element : Text × Nat) (key : Text) : Option Int :=
  match fieldValues doc element key with
  | some [] => some 0
  | some [.scalar token] => parseInt token
  | _ => none

def clientIn (doc : Document) (element : Text × Nat) : Option Client := do
  let username ← stringIn doc element usernameKey
  let password ← stringIn doc element passwordKey
  let maxDevices ← intIn doc element maxDevicesKey
  return ⟨String.ofList username, String.ofList password, maxDevices⟩

theorem mem_of_mapM {α β : Type*} {f : α → Option β} {l : List α} {out : List β} (all : l.mapM f = some out) {y : β}
    (member : y ∈ out) : ∃ x ∈ l, f x = some y := by
  induction l generalizing out with
  | nil =>
    cases all
    cases member
  | cons x l ih =>
    rw [List.mapM_cons] at all
    obtain ⟨first, read, all⟩ := Option.bind_eq_some_iff.mp all
    obtain ⟨rest, later, all⟩ := Option.bind_eq_some_iff.mp all
    cases all
    rcases List.mem_cons.mp member with rfl | behind
    · exact ⟨x, List.mem_cons_self, read⟩
    · obtain ⟨x', inside, read'⟩ := ih later behind
      exact ⟨x', List.mem_cons_of_mem _ inside, read'⟩

theorem isInt_clientIn {doc : Document} {element : Text × Nat} {c : Client} (read : clientIn doc element = some c) :
    isInt c.maxDevices := by
  obtain ⟨username, -, read⟩ := Option.bind_eq_some_iff.mp read
  obtain ⟨password, -, read⟩ := Option.bind_eq_some_iff.mp read
  obtain ⟨limit, limited, read⟩ := Option.bind_eq_some_iff.mp read
  cases read
  rw [intIn] at limited
  split at limited
  · cases limited
    show isInt 0 = true
    decide
  · rw [parseInt] at limited
    split at limited
    · next inside =>
      cases limited
      exact inside.2
    · cases limited
  · cases limited

/-! ### Elements of an array -/

/-- A name of the root table that is matched with a field. -/
def fieldName (key : Text) : Path → Option Text
  | [(name, 0)] => if equalFold name key then some name else none
  | _ => none

/-- A field that is an array of tables, or is not there. -/
def elementsOf {α : Type} (key : Text) (read : Document → Text × Nat → Option α) (doc : Document) :
    Option (List α) :=
  match doc.kinds.keys.filterMap (fieldName key) with
  | [] => some []
  | [name] =>
    match doc.kinds.lookup [(name, 0)] with
    | some (.tables count) => (List.range count).mapM fun index => read doc (name, index + 1)
    | _ => none
  | _ => none

/-- The entries of a document, where `client` is an array of tables or is not there. -/
def clientsOf (doc : Document) : Option (List Client) := elementsOf clientKey clientIn doc

theorem isInt_clientsOf {doc : Document} {clients : List Client} (read : clientsOf doc = some clients) :
    ∀ c ∈ clients, isInt c.maxDevices := by
  rw [clientsOf, elementsOf] at read
  split at read
  · cases read
    simp
  · split at read
    · intro c member
      obtain ⟨index, -, read⟩ := mem_of_mapM read member
      exact isInt_clientIn read
    · cases read
  · cases read

def valuesOf (key : Text) (fields : List (Text × Value)) : List Value :=
  fields.filterMap fun field => if equalFold field.1 key then some field.2 else none

theorem rootValues_fields (key : Text) (fields : List (Text × Value)) :
    rootValues key (fields.map fun field => ([(field.1, 0)], field.2)) = valuesOf key fields := by
  rw [rootValues, List.filterMap_map]
  rfl

section Elements

variable {α β : Type} {kinds : GoMap Path Kind} {doc : Document} {key : Text}

theorem fieldValues_eq {element : Text × Nat} {fields : List (Text × Value)}
    (flat : ∀ path kind, doc.kinds.lookup path = some kind → path.length = 2 → kind = .value)
    (values : elementValues element doc.values = fields.map fun field => ([(field.1, 0)], field.2)) (key : Text) :
    fieldValues doc element key = some (valuesOf key fields) := by
  have scalar : isTableIn element key doc.kinds = false := by
    rw [isTableIn, List.any_eq_false]
    rintro ⟨path, kind⟩ member
    have reads : doc.kinds.lookup path = some kind := AList.mem_lookup_iff.mpr member
    dsimp only
    split
    · next first name => simp [flat _ kind reads rfl]
    · exact Bool.false_ne_true
  rw [fieldValues, if_neg (by simp [scalar]), values, rootValues_fields]

theorem names_eq (self : equalFold key key)
    (only : ∀ name, [(name, 0)] ∈ kinds.keys → equalFold name key → name = key) :
    kinds.keys.filterMap (fieldName key) = if [(key, 0)] ∈ kinds.keys then [key] else [] := by
  have own : ∀ path ∈ kinds.keys, fieldName key path = if path == [(key, 0)] then some key else none := by
    intro path member
    unfold fieldName
    split
    · next name =>
      by_cases folds : equalFold name key = true
      · obtain rfl := only name member folds
        simp [folds]
      · have other : name ≠ key := by
          rintro rfl
          exact folds self
        simp [folds, other]
    · next strange =>
      have other : path ≠ [(key, 0)] := strange key
      simp [other]
  rw [List.filterMap_congr own, ← List.filterMap_filter, List.filter_beq, List.Nodup.count kinds.keys_nodup]
  split
  · rfl
  · rfl

theorem elementsOf_eq_some {read : Document → Text × Nat → Option α} {elements : List β} {value : β → α}
    (self : equalFold key key)
    (only : ∀ name, [(name, 0)] ∈ doc.kinds.keys → equalFold name key → name = key)
    (counted : doc.kinds.lookup [(key, 0)] =
      if elements.length = 0 then none else some (.tables elements.length))
    (each : ∀ index x, elements[index]? = some x → read doc (key, index + 1) = some (value x)) :
    elementsOf key read doc = some (elements.map value) := by
  rw [elementsOf, names_eq self only]
  by_cases none : elements.length = 0
  · have absent : [(key, 0)] ∉ doc.kinds.keys := AList.lookup_eq_none.mp (by rw [counted, if_pos none])
    rw [if_neg absent, List.length_eq_zero_iff.mp none]
    rfl
  · rw [if_neg none] at counted
    have present : [(key, 0)] ∈ doc.kinds.keys := AList.lookup_isSome.mp (by rw [counted]; rfl)
    rw [if_pos present]
    dsimp only
    rw [counted]
    have all : ∀ (front back : List β), elements = front ++ back →
        (List.range' front.length back.length).mapM (fun index => read doc (key, index + 1)) =
          some (back.map value) := by
      intro front back whole
      induction back generalizing front with
      | nil => rfl
      | cons x back ih =>
        have here : elements[front.length]? = some x := by simp [whole]
        have later := ih (front ++ [x]) (by simp [whole])
        rw [List.length_append, List.length_singleton] at later
        simp [List.range'_succ, List.mapM_cons, each _ x here, later]
    show (List.range elements.length).mapM _ = _
    rw [List.range_eq_range']
    exact all [] elements rfl

variable {sections : Sections}

theorem fieldValues_sections (holds : Counts (fun name => (elementsNamed name sections).length) kinds)
    {name : Text} {index : Nat} {fields : List (Text × Value)}
    (element : (elementsNamed name sections)[index]? = some fields) (key : Text) :
    fieldValues ⟨kinds, sectionFields (fun _ => 0) sections⟩ (name, index + 1) key = some (valuesOf key fields) := by
  have values := elementValues_sections (fun _ => 0) name index sections
  rw [Nat.zero_add, element, Option.getD_some] at values
  refine fieldValues_eq (fun path kind reads two => ?_) values key
  refine (holds.inside path kind reads fun other same => ?_).1
  rw [same] at two
  cases two

theorem elementsOf_sections {read : Document → Text × Nat → Option α} {elements : List β} {value : β → α}
    (holds : Counts (fun name => (elementsNamed name sections).length) kinds) (self : equalFold key key)
    (only : ∀ part ∈ sections, equalFold part.1 key → part.1 = key)
    (many : (elementsNamed key sections).length = elements.length)
    (each : ∀ index x, elements[index]? = some x →
      read ⟨kinds, sectionFields (fun _ => 0) sections⟩ (key, index + 1) = some (value x)) :
    elementsOf key read ⟨kinds, sectionFields (fun _ => 0) sections⟩ = some (elements.map value) := by
  refine elementsOf_eq_some self (fun name member folds => ?_) (many ▸ holds.counted key) each
  -- an array that is there has an element
  have some : (elementsNamed name sections).length ≠ 0 := by
    intro none
    have absent := holds.counted name
    rw [if_pos none] at absent
    exact AList.lookup_eq_none.mp absent member
  obtain ⟨fields, inside⟩ := List.exists_mem_of_length_pos (Nat.pos_of_ne_zero some)
  obtain ⟨part, listed, named⟩ := List.mem_filterMap.mp inside
  obtain ⟨rfl, -⟩ := Option.ite_none_right_eq_some.mp named
  exact only part listed folds

end Elements

/-! ### Writing -/

def clientLines (wide : Char → Bool) (c : Client) : List Text :=
  ["[[client]]".toList,
    usernameKey ++ " = ".toList ++ quote wide c.username.toList,
    passwordKey ++ " = ".toList ++ quote wide c.password.toList] ++
  (if 0 < c.maxDevices then [maxDevicesKey ++ " = ".toList ++ itoa c.maxDevices] else []) ++ [[]]

def saveCreds (wide : Char → Bool) (entries : List Client) : Text :=
  (entries.flatMap (clientLines wide)).flatMap (· ++ ['\n'])

/-- `toml.DecodeFile` into the entries, on the content of the file; what is written is read as TOML says. -/
structure Decoder where
  decode : Text → Except Text (List Client)
  reads : ∀ {wide entries doc clients}, Toml.decode (saveCreds wide entries) = some doc →
    clientsOf doc = some clients → decode (saveCreds wide entries) = .ok clients
  refuses : ∀ {wide entries}, Toml.decode (saveCreds wide entries) = none →
    ∃ err, decode (saveCreds wide entries) = .error err
  ranged : ∀ {text clients}, decode text = .ok clients → ∀ c ∈ clients, isInt c.maxDevices

instance : Coe Decoder (Text → Except Text (List Client)) := ⟨Decoder.decode⟩

/-- The decoder that reads these documents only. -/
def plainDecoder : Decoder where
  decode text := ((Toml.decode text).bind clientsOf).elim (.error "toml: unexpected".toList) .ok
  reads := by
    intro wide entries doc clients decoded read
    rw [decoded, Option.bind_some, read]
    rfl
  refuses := by
    intro wide entries refused
    exact ⟨_, by rw [refused]; rfl⟩
  ranged := by
    intro text clients read
    cases all : (Toml.decode text).bind clientsOf with
    | none =>
      rw [all] at read
      cases read
    | some found =>
      obtain ⟨doc, -, read'⟩ := Option.bind_eq_some_iff.mp all
      rw [all] at read
      cases read
      exact isInt_clientsOf read'

/-- The characters of an entry are written with escapes that TOML has. -/
def readable (c : Client) : Bool := (c.username.toList ++ c.password.toList).all isReadable

/-- What comes back of an entry: only a positive limit is written. -/
def kept (c : Client) : Client := { c with maxDevices := max c.maxDevices 0 }

/-! ### The lines of an entry -/

variable {wide : Char → Bool} {c : Client} {entries : List Client}

def clientFields (c : Client) : List (Text × Value) :=
  [(usernameKey, .string c.username.toList), (passwordKey, .string c.password.toList)] ++
    if 0 < c.maxDevices then [(maxDevicesKey, .scalar (itoa c.maxDevices))] else []

theorem readable_iff : readable c = true ↔
    c.username.toList.all isReadable = true ∧ c.password.toList.all isReadable = true := by
  rw [readable, List.all_append, Bool.and_eq_true]

theorem isBare_keys : ∀ key ∈ [usernameKey, passwordKey, maxDevicesKey], key ≠ [] ∧ key.all isBare = true := by
  decide

theorem nodup_clientFields (c : Client) : ((clientFields c).map Prod.fst).Nodup := by
  unfold clientFields
  split
  · show [usernameKey, passwordKey, maxDevicesKey].Nodup
    decide
  · show [usernameKey, passwordKey].Nodup
    decide

/-- The lines of an entry, with the statements that they are. -/
def clientStatements (wide : Char → Bool) (c : Client) : List (Text × List Statement) :=
  [("[[client]]".toList, [.arrayTable [clientKey]]),
    (usernameKey ++ " = ".toList ++ quote wide c.username.toList,
      [.assign [usernameKey] (.string c.username.toList)]),
    (passwordKey ++ " = ".toList ++ quote wide c.password.toList,
      [.assign [passwordKey] (.string c.password.toList)])] ++
  (if 0 < c.maxDevices then [(maxDevicesKey ++ " = ".toList ++ itoa c.maxDevices,
      [.assign [maxDevicesKey] (.scalar (itoa c.maxDevices))])] else []) ++ [([], [])]

theorem map_clientStatements : (clientStatements wide c).map Prod.fst = clientLines wide c := by
  unfold clientStatements clientLines
  split <;> rfl

theorem clientStatements_eq (wide : Char → Bool) (c : Client) :
    clientStatements wide c = elementLines wide (clientKey, clientFields c) := by
  unfold clientStatements clientFields
  split <;> rfl

def clientSections (entries : List Client) : Sections := entries.map fun c => (clientKey, clientFields c)

theorem saveCreds_eq (wide : Char → Bool) (entries : List Client) : saveCreds wide entries =
    (((clientSections entries).flatMap (elementLines wide)).map Prod.fst).flatMap (· ++ ['\n']) := by
  rw [saveCreds, clientSections, List.map_flatMap, List.flatMap_map]
  simp only [← clientStatements_eq, map_clientStatements]

theorem mem_clientFields {field : Text × Value} (member : field ∈ clientFields c) :
    field = (usernameKey, .string c.username.toList) ∨ field = (passwordKey, .string c.password.toList) ∨
      0 < c.maxDevices ∧ field = (maxDevicesKey, .scalar (itoa c.maxDevices)) := by
  rcases List.mem_append.mp member with texts | limit
  · rcases List.mem_cons.mp texts with username | password
    · exact .inl username
    · exact .inr (.inl (List.mem_singleton.mp password))
  · obtain ⟨positive, same⟩ := List.mem_ite_nil_right.mp limit
    exact .inr (.inr ⟨positive, List.mem_singleton.mp same⟩)

theorem spelled_clientSections : ∀ part ∈ clientSections entries, Spelled part := by
  intro part member
  obtain ⟨c, -, rfl⟩ := List.mem_map.mp member
  have named : clientKey ≠ [] ∧ clientKey.all isBare = true := by decide
  refine ⟨named.1, named.2, fun field member => ?_, nodup_clientFields c⟩
  rcases mem_clientFields member with rfl | rfl | ⟨positive, rfl⟩
  · exact .text (isBare_keys _ (by simp)) _
  · exact .text (isBare_keys _ (by simp)) _
  · exact ⟨(isBare_keys _ (by simp)).1, (isBare_keys _ (by simp)).2, .number positive⟩

theorem readable_clientFields (reads : readable c = true) : ∀ field ∈ clientFields c, field.2.readable = true := by
  obtain ⟨username, password⟩ := readable_iff.mp reads
  intro field member
  rcases mem_clientFields member with rfl | rfl | ⟨-, rfl⟩
  · exact username
  · exact password
  · rfl

theorem exists_unreadable (unreadable : readable c = false) : ∃ field ∈ clientFields c, field.2.readable = false := by
  have texts : (usernameKey, .string c.username.toList) ∈ clientFields c ∧
      (passwordKey, .string c.password.toList) ∈ clientFields c := by simp [clientFields]
  rcases not_and_or.mp (mt readable_iff.mpr (Bool.eq_false_iff.mp unreadable)) with username | password
  · exact ⟨_, texts.1, Bool.eq_false_iff.mpr username⟩
  · exact ⟨_, texts.2, Bool.eq_false_iff.mpr password⟩

theorem decode_readable (wide : Char → Bool) (reads : ∀ c ∈ entries, readable c = true) :
    ∃ kinds, Toml.decode (saveCreds wide entries) =
        some ⟨kinds, arrayFields clientKey 0 (entries.map clientFields)⟩ ∧
      Holds clientKey entries.length kinds := by
  have distinct : ∀ fields ∈ entries.map clientFields, (fields.map Prod.fst).Nodup := by
    intro fields member
    obtain ⟨c, -, rfl⟩ := List.mem_map.mp member
    exact nodup_clientFields c
  obtain ⟨kinds, current, fed, holds⟩ := feed_array distinct clientKey []
  rw [List.length_map] at holds
  refine ⟨kinds, ?_, holds⟩
  have whole : ∀ part ∈ clientSections entries, ∀ field ∈ part.2, field.2.readable = true := by
    intro part member
    obtain ⟨c, listed, rfl⟩ := List.mem_map.mp member
    exact readable_clientFields (reads c listed)
  have statements : ((clientSections entries).flatMap (elementLines wide)).flatMap Prod.snd =
      (entries.map clientFields).flatMap (elementStatements clientKey) := by
    simp only [clientSections, List.flatMap_assoc, flatMap_elementLines, List.flatMap_map]
  rw [saveCreds_eq]
  exact decode_terminated (newline_notMem_sections spelled_clientSections)
    (whole_sections spelled_clientSections whole) (statements ▸ fed)

/-! ### The entries come back -/

variable {kinds : GoMap Path Kind}

theorem fieldValues_saved (holds : Holds clientKey entries.length kinds) {index : Nat} {c : Client}
    (entry : entries[index]? = some c) (key : Text) :
    fieldValues ⟨kinds, arrayFields clientKey 0 (entries.map clientFields)⟩ (clientKey, index + 1) key =
      some (valuesOf key (clientFields c)) := by
  have values := elementValues_array clientKey index (entries.map clientFields)
  rw [List.getElem?_map, entry, Option.map_some, Option.getD_some] at values
  refine fieldValues_eq (fun path kind reads two => (holds.inside path kind reads ?_).1) values key
  rintro rfl
  cases two

theorem equalFold_keys :
    (equalFold usernameKey usernameKey ∧ equalFold passwordKey passwordKey ∧
      equalFold maxDevicesKey maxDevicesKey) ∧
    (¬ equalFold passwordKey usernameKey ∧ ¬ equalFold maxDevicesKey usernameKey) ∧
    (¬ equalFold usernameKey passwordKey ∧ ¬ equalFold maxDevicesKey passwordKey) ∧
    ¬ equalFold usernameKey maxDevicesKey ∧ ¬ equalFold passwordKey maxDevicesKey := by
  decide

theorem valuesOf_clientFields (c : Client) :
    valuesOf usernameKey (clientFields c) = [.string c.username.toList] ∧
    valuesOf passwordKey (clientFields c) = [.string c.password.toList] ∧
    valuesOf maxDevicesKey (clientFields c) =
      if 0 < c.maxDevices then [.scalar (itoa c.maxDevices)] else [] := by
  unfold clientFields
  by_cases positive : 0 < c.maxDevices
  · simp [valuesOf, equalFold_keys, positive]
  · simp [valuesOf, equalFold_keys, positive]

theorem clientIn_saved (holds : Holds clientKey entries.length kinds) {index : Nat} {c : Client}
    (entry : entries[index]? = some c) (bound : c.maxDevices < 2 ^ 63) :
    clientIn ⟨kinds, arrayFields clientKey 0 (entries.map clientFields)⟩ (clientKey, index + 1) =
      some (kept c) := by
  have username : stringIn ⟨kinds, arrayFields clientKey 0 (entries.map clientFields)⟩
      (clientKey, index + 1) usernameKey = some c.username.toList := by
    rw [stringIn, fieldValues_saved holds entry, (valuesOf_clientFields c).1]
  have password : stringIn ⟨kinds, arrayFields clientKey 0 (entries.map clientFields)⟩
      (clientKey, index + 1) passwordKey = some c.password.toList := by
    rw [stringIn, fieldValues_saved holds entry, (valuesOf_clientFields c).2.1]
  have maxDevices : intIn ⟨kinds, arrayFields clientKey 0 (entries.map clientFields)⟩
      (clientKey, index + 1) maxDevicesKey = some (max c.maxDevices 0) := by
    rw [intIn, fieldValues_saved holds entry, (valuesOf_clientFields c).2.2]
    by_cases positive : 0 < c.maxDevices
    · rw [if_pos positive, max_eq_left positive.le]
      exact parseInt_itoa positive bound
    · rw [if_neg positive, max_eq_right (Int.not_lt.mp positive)]
  simp [clientIn, username, password, maxDevices, kept]

theorem clientsOf_saved (holds : Holds clientKey entries.length kinds)
    (bound : ∀ c ∈ entries, c.maxDevices < 2 ^ 63) :
    clientsOf ⟨kinds, arrayFields clientKey 0 (entries.map clientFields)⟩ = some (entries.map kept) := by
  refine elementsOf_eq_some (by decide) (fun name member folds => ?_) holds.counted fun index c entry => ?_
  · by_contra other
    obtain ⟨kind, reads⟩ := Option.isSome_iff_exists.mp (AList.lookup_isSome.mpr member)
    obtain ⟨-, index, key, -, same⟩ := holds.inside _ kind reads (by simp [other])
    cases same
  · exact clientIn_saved holds entry (bound c (List.mem_of_getElem? entry))

theorem decode_saveCreds (decoder : Decoder) (wide : Char → Bool) (reads : ∀ c ∈ entries, readable c = true)
    (bound : ∀ c ∈ entries, c.maxDevices < 2 ^ 63) :
    decoder.decode (saveCreds wide entries) = .ok (entries.map kept) := by
  obtain ⟨kinds, decoded, holds⟩ := decode_readable wide reads
  exact decoder.reads decoded (clientsOf_saved holds bound)

/-! ### Or the file is refused -/

theorem decode_saveCreds_eq_error (decoder : Decoder) (wide : Char → Bool)
    (unreadable : ∃ c ∈ entries, readable c = false) :
    ∃ err, decoder.decode (saveCreds wide entries) = .error err := by
  apply decoder.refuses
  obtain ⟨c, listed, marked⟩ := unreadable
  rw [saveCreds_eq]
  exact decode_elements_eq_none spelled_clientSections
    ⟨_, List.mem_map_of_mem listed, exists_unreadable marked⟩

end Ttgo.Admin.CredsFile

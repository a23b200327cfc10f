/-
**`patchVPNStoreType`: whether the new store takes effect.**

The patch writes its lines wherever a line starts with one of the two keys, and behind the last line that starts with
`auth_failure_status_code` or at the end of the file: in whatever section that is.

* `Item` — what becomes of a statement; `puts` — the sections that the new lines come to stand in.
* `Regular` — what the patch rewrites are whole statements, its insertion is between statements, and no other statement
  defines one of the two keys in its place; `Misread` — what it does to other files.
* `TakesEffect` — no key twice in a section, and each in the root table, where its value matters.
* `load_patched` — the configuration of a patched file in a regular layout.
* `patch_takes_effect` — the condition, which is exact but for files that the patch misreads.
-/

import Ttgo.Admin.VpnConfig

namespace Ttgo.Admin.StorePatch

open Ttgo.Lib Ttgo.Lib.Toml Ttgo.Endpoint

/-! ### Statements under the patch -/

/-- What becomes of a statement: it is left, its line is rewritten for a key, or the line of a key comes new. -/
inductive Item
  | keep (block : Block)
  | rewrite (line key : Text)
  | insert (key : Text)
deriving DecidableEq, Repr

namespace Item

def old : Item → List Block
  | keep block => [block]
  | rewrite line _ => [[line]]
  | insert _ => []

def kept : Item → List Block
  | keep block => [block]
  | rewrite .. | insert _ => []

def new (line : Text → Text) : Item → List Block
  | keep block => [block]
  | rewrite _ key | insert key => [[line key]]

end Item

/-- A name that is matched with one of the two fields. -/
def isStoreKey (name : Text) : Bool := storeKeys.any fun key => equalFold name key

def itemOf (block : Block) : Item :=
  match block with
  | [line] =>
    match replacedKey [] line with
    | some key => .rewrite line key
    | none => .keep block
  | _ => .keep block

/-- The patch of a text whose statements are cut in two at the place of the insertion. -/
def script (missing : List Text) (front back : List Block) : List Item :=
  front.map itemOf ++ missing.map .insert ++ back.map itemOf

/-- The new lines: the number of the section, where the root table is 0, and the key. -/
def puts (isHeader : Block → Bool) : Nat → List Item → List (Nat × Text)
  | _, [] => []
  | n, .keep block :: items => puts isHeader (if isHeader block then n + 1 else n) items
  | n, .rewrite _ key :: items => (n, key) :: puts isHeader n items
  | n, .insert key :: items => (n, key) :: puts isHeader n items

section Decode

variable {Rest : Type} {decoder : Decoder Rest} {wide : Char → Bool} {settings : StoreSettings}
  {items : List Item} {done : List Block} {config : Config Rest}

/-- The items are those of a patch: what is rewritten starts with its key. -/
structure Proper (item : Item) : Prop where
  rewritten : ∀ line key, item = .rewrite line key → key ∈ storeKeys ∧ startsWith key line = true
  inserted : ∀ key, item = .insert key → key ∈ storeKeys

/-! ### The statements of the new text -/

theorem statements_new (readable : ∀ key ∈ storeKeys, ∀ c ∈ settings.text key, isReadable c)
    (proper : ∀ item ∈ items, Proper item) (begun : done = [] → ∀ item ∈ items.head?, item.old ≠ [])
    (read : decoder.statements (done ++ items.flatMap Item.old).flatten = some (done ++ items.flatMap Item.old)) :
    decoder.statements (done ++ items.flatMap (Item.new (settingLine wide settings))).flatten =
      some (done ++ items.flatMap (Item.new (settingLine wide settings))) := by
  induction items generalizing done with
  | nil => exact read
  | cons item items ih =>
    have own := proper item List.mem_cons_self
    have rest := fun other member => proper other (List.mem_cons_of_mem _ member)
    -- a line of the patch comes to stand behind what is done
    have put (key : Text) (among : key ∈ storeKeys)
        (new : item.new (settingLine wide settings) = [[settingLine wide settings key]])
        (started : done ++ item.old ≠ []) :
        decoder.statements (done ++ (item :: items).flatMap (Item.new (settingLine wide settings))).flatten =
          some (done ++ (item :: items).flatMap (Item.new (settingLine wide settings))) := by
      rw [List.flatMap_cons, ← List.append_assoc] at read ⊢
      have placed := decoder.statements_assign wide among (readable key among) started read
      rw [new]
      exact ih rest (fun none => absurd none (by simp)) placed
    cases item with
    | keep block =>
      rw [List.flatMap_cons, ← List.append_assoc] at read ⊢
      exact ih rest (fun none => absurd none (by simp [Item.new])) read
    | rewrite line key => exact put key (own.rewritten line key rfl).1 rfl (by simp [Item.old])
    | insert key =>
      refine put key (own.inserted key rfl) rfl ?_
      rw [Item.old, List.append_nil]
      exact fun none => begun none _ rfl rfl

/-! ### The fields of the new text -/

/-- Without the lines that are rewritten, the other fields are as before. -/
theorem fill_kept (proper : ∀ item ∈ items, Proper item)
    (filled : decoder.fill (done ++ items.flatMap Item.old) = some config) :
    ∃ config', decoder.fill (done ++ items.flatMap Item.kept) = some config' ∧ config'.others = config.others := by
  induction items generalizing done config with
  | nil => exact ⟨config, filled, rfl⟩
  | cons item items ih =>
    have own := proper item List.mem_cons_self
    have rest := fun other member => proper other (List.mem_cons_of_mem _ member)
    rw [List.flatMap_cons, ← List.append_assoc] at filled ⊢
    cases item with
    | keep block => exact ih rest filled
    | rewrite line key =>
      obtain ⟨among, starts⟩ := own.rewritten line key rfl
      obtain ⟨config', dropped, same⟩ := decoder.fill_drop among starts filled
      obtain ⟨config'', filled, same'⟩ := ih rest dropped
      exact ⟨config'', by rwa [Item.kept, List.append_nil], same'.trans same⟩
    | insert key =>
      rw [Item.old, List.append_nil] at filled
      obtain ⟨config', filled, same⟩ := ih rest filled
      exact ⟨config', by rwa [Item.kept, List.append_nil], same⟩

theorem key_of_equalFold {name key : Text} (known : name ∈ storeKeys) (among : key ∈ storeKeys)
    (matched : equalFold name key = true) : name = key :=
  (show ∀ name ∈ storeKeys, ∀ key ∈ storeKeys, equalFold name key = true → name = key by decide) name known key among
    matched

theorem equalFold_of_foreign {name key : Text} (among : key ∈ storeKeys) (foreign : isStoreKey name = false) :
    equalFold name key = false :=
  Bool.eq_false_iff.mpr (List.any_eq_false.mp foreign key among)

/-- What defines one of the keys in the root table has its own spelling. -/
def RootClear (decoder : Decoder Rest) (blocks : List Block) : Prop :=
  ∀ block ∈ rootward decoder.isHeader blocks, ∀ name ∈ (decoder.names block).head?, isStoreKey name = true →
    name ∈ storeKeys

theorem mem_rootward_put {isHeader : Block → Bool} {line block : Block} {rest : List Block}
    (plain : isHeader line = false) (member : block ∈ rootward isHeader (done ++ [line] ++ rest)) :
    block ∈ rootward isHeader (done ++ rest) ∨ block = line := by
  rw [List.append_assoc, rootward, List.filter_append, List.singleton_append,
    List.filter_cons_of_neg (by simp [plain]), ← List.filter_append] at member
  rcases List.mem_append.mp member with above | head
  · by_cases root : ∀ other ∈ done, (!isHeader other) = true
    · rw [List.takeWhile_append_of_pos root, List.takeWhile_cons_of_pos (by simp [plain]), List.mem_append,
        List.mem_cons] at above
      rcases above with old | rfl | later
      · refine .inl (List.mem_append_left _ ?_)
        rw [List.takeWhile_append_of_pos root]
        exact List.mem_append_left _ old
      · exact .inr rfl
      · refine .inl (List.mem_append_left _ ?_)
        rw [List.takeWhile_append_of_pos root]
        exact List.mem_append_right _ later
    · have short : ¬ (done.takeWhile (!isHeader ·)).length = done.length := fun all =>
        root (List.takeWhile_eq_self_iff.mp ((List.takeWhile_prefix _).eq_of_length all))
      rw [List.takeWhile_append, if_neg short] at above
      refine .inl (List.mem_append_left _ ?_)
      rwa [List.takeWhile_append, if_neg short]
  · exact .inl (List.mem_append_right _ head)

theorem RootClear.put {line key : Text} {rest : List Block} (plain : decoder.isHeader [line] = false)
    (names : decoder.names [line] = [key]) (clear : RootClear decoder (done ++ rest)) (among : key ∈ storeKeys) :
    RootClear decoder (done ++ [[line]] ++ rest) := by
  intro block member name named held
  rcases mem_rootward_put plain member with old | rfl
  · exact clear block old name named held
  · rw [names] at named
    obtain rfl := Option.some.inj named
    exact among

theorem key_of_mem_puts (proper : ∀ item ∈ items, Proper item) {n : Nat} :
    ∀ place ∈ puts decoder.isHeader n items, place.2 ∈ storeKeys := by
  induction items generalizing n with
  | nil => exact fun place none => absurd none (List.not_mem_nil)
  | cons item items ih =>
    obtain ⟨own, rest⟩ := List.forall_mem_cons.mp proper
    cases item with
    | keep block => exact ih rest
    | rewrite line key => exact List.forall_mem_cons.mpr ⟨(own.rewritten line key rfl).1, ih rest⟩
    | insert key => exact List.forall_mem_cons.mpr ⟨own.inserted key rfl, ih rest⟩

/-- The fields after the new lines: those in the root table count. -/
def assignAll (text : Text → Text) (config : Config Rest) (puts : List (Nat × Text)) : Config Rest :=
  puts.foldl (fun config put => if put.1 = 0 then config.set put.2 (text put.2) else config) config

/-- The sections do not define what the new lines put there. -/
structure Free (decoder : Decoder Rest) (blocks : List Block) (places : List (Nat × Text)) : Prop where
  distinct : places.Nodup
  fresh : ∀ place ∈ places, decoder.defined blocks place.1 place.2 = false

instance (decoder : Decoder Rest) (blocks : List Block) (places : List (Nat × Text)) :
    Decidable (Free decoder blocks places) :=
  decidable_of_iff (_ ∧ _) ⟨fun all => ⟨all.1, all.2⟩, fun all => ⟨all.1, all.2⟩⟩

theorem free_put {rest : List Block} {key : Text} {places : List (Nat × Text)} (among : key ∈ storeKeys)
    (readable : ∀ c ∈ settings.text key, isReadable c)
    (fresh : decoder.defined (done ++ rest) (done.countP decoder.isHeader) key = false) :
    Free decoder (done ++ [[settingLine wide settings key]] ++ rest) places ↔
      Free decoder (done ++ rest) ((done.countP decoder.isHeader, key) :: places) := by
  have defined (place : Nat × Text) :
      decoder.defined (done ++ [[settingLine wide settings key]] ++ rest) place.1 place.2 = false ↔
        place ≠ (done.countP decoder.isHeader, key) ∧ decoder.defined (done ++ rest) place.1 place.2 = false := by
    rw [← Bool.not_eq_true, ← Bool.not_eq_true, ← not_or]
    exact not_congr (decoder.defined_assign wide among readable)
  constructor
  · rintro ⟨distinct, all⟩
    refine ⟨List.nodup_cons.mpr ⟨fun member => ((defined _).mp (all _ member)).1 rfl, distinct⟩, ?_⟩
    exact List.forall_mem_cons.mpr ⟨fresh, fun place member => ((defined place).mp (all place member)).2⟩
  · rintro ⟨distinct, all⟩
    obtain ⟨absent, distinct⟩ := List.nodup_cons.mp distinct
    refine ⟨distinct, fun place member => (defined place).mpr ⟨?_, all place (List.mem_cons_of_mem _ member)⟩⟩
    rintro rfl
    exact absent member

theorem defined_new {n : Nat} {name : Text} (readable : ∀ key ∈ storeKeys, ∀ c ∈ settings.text key, isReadable c)
    (proper : ∀ item ∈ items, Proper item)
    (known : decoder.defined (done ++ items.flatMap Item.kept) n name = true) :
    decoder.defined (done ++ items.flatMap (Item.new (settingLine wide settings))) n name = true := by
  induction items generalizing done with
  | nil => exact known
  | cons item items ih =>
    obtain ⟨own, rest⟩ := List.forall_mem_cons.mp proper
    have put (key : Text) (among : key ∈ storeKeys)
        (known : decoder.defined (done ++ items.flatMap Item.kept) n name = true) :
        decoder.defined (done ++ [[settingLine wide settings key]] ++ items.flatMap Item.kept) n name = true :=
      (decoder.defined_assign wide among (readable key among)).mpr (.inr known)
    rw [List.flatMap_cons, ← List.append_assoc] at known ⊢
    cases item with
    | keep block => exact ih rest known
    | rewrite line key =>
      rw [Item.kept, List.append_nil] at known
      exact ih rest (put key (own.rewritten line key rfl).1 known)
    | insert key =>
      rw [Item.kept, List.append_nil] at known
      exact ih rest (put key (own.inserted key rfl) known)

/-- **The fields of the new text**, from those of what is kept. -/
theorem fill_new (readable : ∀ key ∈ storeKeys, ∀ c ∈ settings.text key, isReadable c)
    (proper : ∀ item ∈ items, Proper item) (clear : RootClear decoder (done ++ items.flatMap Item.kept))
    (filled : decoder.fill (done ++ items.flatMap Item.kept) = some config) :
    decoder.fill (done ++ items.flatMap (Item.new (settingLine wide settings))) =
      if Free decoder (done ++ items.flatMap Item.kept)
          (puts decoder.isHeader (done.countP decoder.isHeader) items) then
        some (assignAll settings.text config (puts decoder.isHeader (done.countP decoder.isHeader) items))
      else none := by
  induction items generalizing done config with
  | nil =>
    rw [if_pos ⟨List.nodup_nil, fun _ none => absurd none List.not_mem_nil⟩]
    exact filled
  | cons item items ih =>
    obtain ⟨own, rest⟩ := List.forall_mem_cons.mp proper
    have put (key : Text) (among : key ∈ storeKeys) (kept : item.kept = [])
        (new : item.new (settingLine wide settings) = [[settingLine wide settings key]])
        (places : puts decoder.isHeader (done.countP decoder.isHeader) (item :: items) =
          (done.countP decoder.isHeader, key) :: puts decoder.isHeader (done.countP decoder.isHeader) items) :
        decoder.fill (done ++ (item :: items).flatMap (Item.new (settingLine wide settings))) =
          if Free decoder (done ++ (item :: items).flatMap Item.kept)
              (puts decoder.isHeader (done.countP decoder.isHeader) (item :: items)) then
            some (assignAll settings.text config
              (puts decoder.isHeader (done.countP decoder.isHeader) (item :: items)))
          else none := by
      rw [List.flatMap_cons, kept, List.nil_append] at filled clear
      rw [List.flatMap_cons, new, ← List.append_assoc, List.flatMap_cons, kept, List.nil_append, places]
      by_cases known : decoder.defined (done ++ items.flatMap Item.kept) (done.countP decoder.isHeader) key = true
      · rw [if_neg fun free => absurd (free.fresh _ List.mem_cons_self) (by simp [known])]
        exact decoder.fill_again wide among (readable key among) (defined_new readable rest known)
      · have fresh := eq_false_of_ne_true known
        have plain : decoder.isHeader [settingLine wide settings key] = false :=
          decoder.isHeader_assign wide among (readable key among)
        have count : (done ++ [[settingLine wide settings key]]).countP decoder.isHeader =
            done.countP decoder.isHeader := by
          rw [List.countP_append, List.countP_singleton, plain]
          rfl
        have assigned := decoder.fill_assign wide among (readable key among) filled fresh
          fun _ block member name named matched => key_of_equalFold
            (clear block member name named (List.any_eq_true.mpr ⟨key, among, matched⟩)) among matched
        have filledRest := ih rest (clear.put plain (decoder.names_assign wide among (readable key among)) among)
          assigned
        rw [filledRest, count]
        exact if_congr (free_put among (readable key among) fresh) rfl rfl
    cases item with
    | keep block =>
      rw [List.flatMap_cons, ← List.append_assoc] at filled clear ⊢
      have count : puts decoder.isHeader ((done ++ [block]).countP decoder.isHeader) items =
          puts decoder.isHeader (done.countP decoder.isHeader) (.keep block :: items) := by
        rw [List.countP_append, List.countP_singleton, apply_ite (done.countP decoder.isHeader + ·)]
        rfl
      have kept := ih rest clear filled
      rw [Item.kept, count] at kept
      rw [List.flatMap_cons, ← List.append_assoc]
      exact kept
    | rewrite line key => exact put key (own.rewritten line key rfl).1 rfl rfl rfl
    | insert key => exact put key (own.inserted key rfl) rfl rfl rfl

theorem get_assignAll {places : List (Nat × Text)} {key : Text} (text : Text → Text) (among : key ∈ storeKeys)
    (keys : ∀ place ∈ places, place.2 ∈ storeKeys) :
    (assignAll text config places).get key = if (0, key) ∈ places then text key else config.get key := by
  induction places generalizing config with
  | nil => rfl
  | cons place places ih =>
    obtain ⟨n, other⟩ := place
    obtain ⟨known, keys⟩ := List.forall_mem_cons.mp keys
    rw [assignAll, List.foldl_cons, ← assignAll, ih keys]
    by_cases later : (0, key) ∈ places
    · rw [if_pos later, if_pos (List.mem_cons_of_mem _ later)]
    · rw [if_neg later]
      by_cases root : n = 0
      · simp only [root, if_true, get_set known among, List.mem_cons, Prod.mk.injEq, true_and, later, or_false]
        split
        · next same => rw [same]
        · rfl
      · simp [root, later, Ne.symm root]

theorem others_assignAll (text : Text → Text) (places : List (Nat × Text)) :
    (assignAll text config places).others = config.others := by
  induction places generalizing config with
  | nil => rfl
  | cons place places ih =>
    rw [assignAll, List.foldl_cons, ← assignAll, ih]
    split
    · exact others_set config _ _
    · rfl

end Decode

/-! ### The layout -/

section Layout

variable {Rest : Type} {decoder : Decoder Rest} {wide : Char → Bool} {settings : StoreSettings}
  {front back : List Block} {block : Block}

/-- The items of the patch. -/
def items (front back : List Block) : List Item := script (missingKeys [] (front ++ back).flatten) front back

/-- The statements that it leaves. -/
def left (front back : List Block) : List Block := (items front back).flatMap Item.kept

/-- Where the new lines come to stand. -/
def places (decoder : Decoder Rest) (front back : List Block) : List (Nat × Text) :=
  puts decoder.isHeader 0 (items front back)

/-- **A layout that the patch understands**, where `front` are the statements above the insertion: each line that is
rewritten is a whole statement, the insertion is between two statements, and no statement that is left defines one of
the keys in the root table. -/
structure Regular (decoder : Decoder Rest) (front back : List Block) : Prop where
  alone : ∀ block ∈ front ++ back, ∀ line ∈ block, (replacedKey [] line).isSome = true → block = [line]
  between : missingKeys [] (front ++ back).flatten ≠ [] →
    front.flatten.length = insertionPoint (front ++ back).flatten
  clear : ∀ block ∈ rootward decoder.isHeader (left front back), ∀ name ∈ (decoder.names block).head?,
    isStoreKey name = false

instance (decoder : Decoder Rest) (front back : List Block) : Decidable (Regular decoder front back) :=
  decidable_of_iff (_ ∧ _ ∧ _) ⟨fun all => ⟨all.1, all.2.1, all.2.2⟩, fun all => ⟨all.1, all.2, all.3⟩⟩

/-- **The patch takes its lines for what they are not.** -/
inductive Misread (decoder : Decoder Rest) (data : Text) : Prop
  /-- A line inside a longer statement is rewritten. -/
  | inside {blocks : List Block} {block : Block} {line : Text}
      (read : decoder.statements (splitLines data) = some blocks) (member : block ∈ blocks) (among : line ∈ block)
      (rewritten : (replacedKey [] line).isSome = true) (longer : block ≠ [line])
  /-- The new lines come into a statement. -/
  | split (missed : missingKeys [] (splitLines data) ≠ [])
      (within : ∀ front back, decoder.statements (splitLines data) = some (front ++ back) →
        front.flatten.length ≠ insertionPoint (splitLines data))
  /-- A statement that defines one of the keys in the root table, in another spelling, is left. -/
  | overlooked {front back : List Block} {block : Block} {name : Text}
      (read : decoder.statements (splitLines data) = some (front ++ back))
      (member : block ∈ rootward decoder.isHeader (left front back)) (named : name ∈ (decoder.names block).head?)
      (held : isStoreKey name = true)

theorem exists_regular {data : Text} {blocks : List Block} (read : decoder.statements (splitLines data) = some blocks)
    (understood : ¬ Misread decoder data) :
    ∃ front back, decoder.statements (splitLines data) = some (front ++ back) ∧ Regular decoder front back := by
  have lines := decoder.flatten_statements read
  obtain ⟨front, back, rfl, between⟩ : ∃ front back, blocks = front ++ back ∧
      (missingKeys [] (splitLines data) ≠ [] → front.flatten.length = insertionPoint (splitLines data)) := by
    by_cases missed : missingKeys [] (splitLines data) = []
    · exact ⟨blocks, [], (List.append_nil _).symm, fun some => absurd missed some⟩
    · by_contra nowhere
      refine understood (.split missed fun front back cut here => nowhere ⟨front, back, ?_, fun _ => here⟩)
      exact Option.some.inj (read.symm.trans cut)
  refine ⟨front, back, read, fun block member line among rewritten => ?_, by rwa [lines],
    fun block member name named => ?_⟩
  · by_contra longer
    exact understood (.inside read member among rewritten longer)
  · by_contra held
    exact understood (.overlooked read member named (eq_true_of_ne_false held))

theorem itemOf_cases (block : Block) :
    itemOf block = .keep block ∨ ∃ line key, block = [line] ∧ replacedKey [] line = some key ∧
      itemOf block = .rewrite line key := by
  unfold itemOf
  split
  · next line =>
    split
    · next key replaced => exact .inr ⟨line, key, rfl, replaced, rfl⟩
    · exact .inl rfl
  · exact .inl rfl

theorem mem_items {item : Item} (member : item ∈ items front back) :
    (∃ block ∈ front ++ back, itemOf block = item) ∨ ∃ key ∈ storeKeys, item = .insert key := by
  rw [items, script, List.mem_append, List.mem_append, List.mem_map, List.mem_map, List.mem_map] at member
  rcases member with (⟨block, inside, same⟩ | ⟨key, missed, same⟩) | ⟨block, inside, same⟩
  · exact .inl ⟨block, List.mem_append_left _ inside, same⟩
  · exact .inr ⟨key, (mem_missingKeys.mp missed).1, same.symm⟩
  · exact .inl ⟨block, List.mem_append_right _ inside, same⟩

theorem proper_items (front back : List Block) : ∀ item ∈ items front back, Proper item := by
  intro item member
  rcases mem_items member with ⟨block, -, same⟩ | ⟨key, among, rfl⟩
  · rcases itemOf_cases block with kept | ⟨line, key, -, replaced, rewritten⟩
    · obtain rfl := kept.symm.trans same
      refine ⟨?_, ?_⟩
      · rintro _ _ ⟨⟩
      · rintro _ ⟨⟩
    · obtain rfl := rewritten.symm.trans same
      refine ⟨?_, ?_⟩
      · rintro _ _ ⟨⟩
        exact ⟨replacedKey_nil replaced, (replacedKey_eq_some replaced).2⟩
      · rintro _ ⟨⟩
  · refine ⟨?_, ?_⟩
    · rintro _ _ ⟨⟩
    · rintro _ ⟨⟩
      exact among

theorem old_itemOf (blocks : List Block) : (blocks.map itemOf).flatMap Item.old = blocks := by
  rw [List.flatMap_map]
  refine (List.flatMap_congr fun block _ => ?_).trans (List.flatMap_singleton' blocks)
  rcases itemOf_cases block with kept | ⟨line, key, rfl, -, rewritten⟩
  · rw [kept]
    rfl
  · rw [rewritten]
    rfl

theorem old_items (front back : List Block) : (items front back).flatMap Item.old = front ++ back := by
  have inserted (missing : List Text) : (missing.map Item.insert).flatMap Item.old = [] := by
    simp [List.flatMap_map, Item.old]
  rw [items, script, List.flatMap_append, List.flatMap_append, old_itemOf, old_itemOf, inserted, List.append_nil]

theorem new_itemOf (noFile : settings.credFile = [])
    (alone : ∀ line ∈ block, (replacedKey [] line).isSome = true → block = [line]) :
    ((itemOf block).new (settingLine wide settings)).flatten = block.map (rewriteLine wide settings) := by
  rcases itemOf_cases block with kept | ⟨line, key, rfl, replaced, rewritten⟩
  · rw [kept, Item.new, List.flatten_singleton]
    refine ((List.map_congr_left fun line member => ?_).trans (List.map_id block)).symm
    have left : replacedKey [] line = none := by
      by_contra replaced
      obtain ⟨key, replaced⟩ := Option.ne_none_iff_exists'.mp replaced
      obtain rfl := alone line member (by rw [replaced]; rfl)
      rw [itemOf, replaced] at kept
      cases kept
    rw [rewriteLine, noFile, left]
    rfl
  · rw [rewritten, Item.new, List.map_singleton, rewriteLine, noFile, replaced]
    rfl

theorem new_blocks (noFile : settings.credFile = []) {blocks : List Block}
    (alone : ∀ block ∈ blocks, ∀ line ∈ block, (replacedKey [] line).isSome = true → block = [line]) :
    ((blocks.map itemOf).flatMap (Item.new (settingLine wide settings))).flatten =
      blocks.flatten.map (rewriteLine wide settings) := by
  induction blocks with
  | nil => rfl
  | cons block blocks ih =>
    obtain ⟨first, rest⟩ := List.forall_mem_cons.mp alone
    rw [List.map_cons, List.flatMap_cons, List.flatten_append, List.flatten_cons, List.map_append, ih rest,
      new_itemOf noFile first]

theorem insertionPoint_pos {lines : List Text} (nonempty : lines ≠ []) : insertionPoint lines ≠ 0 := by
  unfold insertionPoint
  split
  · exact Nat.succ_ne_zero _
  · exact List.length_eq_zero_iff.not.mpr nonempty

/-- The new lines are those of the items. -/
theorem new_items (noFile : settings.credFile = []) (regular : Regular decoder front back) :
    ((items front back).flatMap (Item.new (settingLine wide settings))).flatten =
      patchStoreLines wide settings (front ++ back).flatten := by
  have inserted (missing : List Text) :
      ((missing.map Item.insert).flatMap (Item.new (settingLine wide settings))).flatten =
        missing.map (settingLine wide settings) := by
    induction missing with
    | nil => rfl
    | cons key missing ih =>
      rw [List.map_cons, List.flatMap_cons, List.flatten_append, ih]
      rfl
  rw [items, script, List.flatMap_append, List.flatMap_append, List.flatten_append, List.flatten_append, inserted,
    new_blocks noFile fun block member => regular.alone block (List.mem_append_left _ member),
    new_blocks noFile fun block member => regular.alone block (List.mem_append_right _ member), patchStoreLines_eq,
    noFile]
  by_cases none : missingKeys [] (front ++ back).flatten = []
  · rw [none, List.map_nil, List.append_nil, List.append_nil, ← List.map_append, ← List.map_append,
      List.take_append_drop, List.flatten_append]
  · rw [← regular.between none, List.flatten_append, List.take_left, List.drop_left]

theorem begun_items (regular : Regular decoder front back) (nonempty : (front ++ back).flatten ≠ []) :
    ∀ item ∈ (items front back).head?, item.old ≠ [] := by
  have single (block : Block) : (itemOf block).old ≠ [] := by
    rcases itemOf_cases block with kept | ⟨line, key, rfl, -, rewritten⟩
    · simp [kept, Item.old]
    · simp [rewritten, Item.old]
  intro item first
  cases front with
  | cons block front =>
    obtain rfl := Option.some.inj first
    exact single block
  | nil =>
    have none : missingKeys [] ([] ++ back).flatten = [] := by
      by_contra some
      exact insertionPoint_pos nonempty (regular.between some).symm
    rw [items, script, none, List.map_nil, List.map_nil, List.nil_append, List.nil_append] at first
    cases back with
    | nil => cases first
    | cons block back =>
      obtain rfl := Option.some.inj first
      exact single block

end Layout

/-! ### Taking effect -/

section Effect

variable {Rest : Type} {decoder : Decoder Rest} {wide : Char → Bool} {data storeType storeDSN : Text}
  {front back : List Block} {config : Config Rest}

/-- The text that the patch writes. -/
def patchedText (wide : Char → Bool) (data storeType storeDSN : Text) : Text :=
  joinLines (patchStoreLines wide ⟨storeType, storeDSN, []⟩ (splitLines data))

theorem defaults_eq (config : Config Rest) : defaults config =
    ⟨if config.storeType = [] then "file".toList else config.storeType, config.storeDSN, config.credentialsFile,
      config.rest⟩ := by
  unfold defaults
  split <;> rfl

theorem fill_of_load {blocks : List Block} (loaded : load decoder data = some config)
    (read : decoder.statements (splitLines data) = some blocks) :
    ∃ raw, decoder.fill blocks = some raw ∧ raw.others = config.others := by
  rw [load, read, Option.bind_some] at loaded
  obtain ⟨raw, filled, rfl⟩ := Option.map_eq_some_iff.mp loaded
  refine ⟨raw, filled, ?_⟩
  unfold defaults
  split <;> rfl

/-- **The configuration of the patched file**, for a regular layout. -/
theorem load_patched (readable : ∀ c ∈ storeType ++ storeDSN, isReadable c) (loaded : load decoder data = some config)
    (read : decoder.statements (splitLines data) = some (front ++ back)) (regular : Regular decoder front back) :
    load decoder (patchedText wide data storeType storeDSN) =
      if Free decoder (left front back) (places decoder front back) then
        some (defaults ⟨if (0, storeTypeKey) ∈ places decoder front back then storeType else [],
          if (0, storeDSNKey) ∈ places decoder front back then storeDSN else [], config.credentialsFile, config.rest⟩)
      else none := by
  have lines := decoder.flatten_statements read
  have nonempty : (front ++ back).flatten ≠ [] := by
    rw [lines]
    simp [splitLines]
  have proper := proper_items front back
  have texts : ∀ key ∈ storeKeys, ∀ c ∈ (⟨storeType, storeDSN, []⟩ : StoreSettings).text key, isReadable c := by
    intro key among c inText
    simp only [storeKeys, List.mem_cons, List.not_mem_nil, or_false] at among
    rcases among with rfl | rfl
    · exact readable c (List.mem_append_left _ inText)
    · exact readable c (List.mem_append_right _ inText)
  -- the statements of the new text
  have divided : decoder.statements ([] ++ (items front back).flatMap
      (Item.new (settingLine wide ⟨storeType, storeDSN, []⟩))).flatten = some _ :=
    statements_new texts proper (fun _ => begun_items regular nonempty)
      (by rw [List.nil_append, old_items, lines]; exact read)
  rw [List.nil_append, new_items rfl regular, lines] at divided
  -- and their fields
  obtain ⟨raw, filled, same⟩ := fill_of_load loaded read
  obtain ⟨bare, kept, others⟩ : ∃ bare, decoder.fill ([] ++ (items front back).flatMap Item.kept) = some bare ∧
      bare.others = raw.others := fill_kept proper (by rw [List.nil_append, old_items]; exact filled)
  have absent (key : Text) (among : key ∈ storeKeys) : bare.get key = [] := by
    refine decoder.fill_absent among kept fun block member name named => ?_
    exact equalFold_of_foreign among (regular.clear block member name named)
  have assigned : decoder.fill ([] ++ (items front back).flatMap
      (Item.new (settingLine wide ⟨storeType, storeDSN, []⟩))) = _ :=
    fill_new texts proper
      (fun block member name named held => absurd held (by simp [regular.clear block member name named])) kept
  rw [List.nil_append, List.nil_append, List.countP_nil, ← places, ← left] at assigned
  have parts : splitLines (patchedText wide data storeType storeDSN) =
      patchStoreLines wide ⟨storeType, storeDSN, []⟩ (splitLines data) :=
    splitLines_joinLines (patchStoreLines_ne_nil (by simp [splitLines]))
      (newline_notMem_patched fun line => newline_notMem_line)
  rw [load, parts, divided, Option.bind_some, assigned]
  split
  · rw [Option.map_some]
    refine congrArg (some ∘ defaults) (config_ext (fun key among => ?_) ?_)
    · rw [get_assignAll _ among (show ∀ place ∈ places decoder front back, _ from key_of_mem_puts proper),
        absent key among]
      simp only [storeKeys, List.mem_cons, List.not_mem_nil, or_false] at among
      rcases among with rfl | rfl <;> rfl
    · rw [others_assignAll, others, same]
      rfl
  · rfl

/-- **The condition**: no section has a key twice, and each key is in the root table, or is to have the value that a
missing key is read with. An empty type is read as another. -/
structure TakesEffect (decoder : Decoder Rest) (front back : List Block) (storeType storeDSN : Text) : Prop where
  free : Free decoder (left front back) (places decoder front back)
  typed : if (0, storeTypeKey) ∈ places decoder front back then storeType ≠ [] else storeType = "file".toList
  named : (0, storeDSNKey) ∈ places decoder front back ∨ storeDSN = []

instance (decoder : Decoder Rest) (front back : List Block) (storeType storeDSN : Text) :
    Decidable (TakesEffect decoder front back storeType storeDSN) :=
  decidable_of_iff (_ ∧ _ ∧ _) ⟨fun all => ⟨all.1, all.2.1, all.2.2⟩, fun all => ⟨all.1, all.2, all.3⟩⟩

/-- **When the patch takes effect**: the layout is regular, and the new lines come to stand where they count. -/
def Effective (decoder : Decoder Rest) (data storeType storeDSN : Text) : Prop :=
  ∃ front back, decoder.statements (splitLines data) = some (front ++ back) ∧ Regular decoder front back ∧
    TakesEffect decoder front back storeType storeDSN

theorem files_patched {files : Files} {faults : Faults} {path : String} (stored : files.lookup path = some data)
    (succeeded : (patchVPNStoreType wide files faults path ⟨storeType, storeDSN, []⟩).1 = none) :
    (patchVPNStoreType wide files faults path ⟨storeType, storeDSN, []⟩).2 =
      files.insert path (patchedText wide data storeType storeDSN) := by
  unfold patchVPNStoreType at succeeded ⊢
  rw [stored] at succeeded ⊢
  cases unread : faults.read with
  | true =>
    rw [unread] at succeeded
    cases succeeded
  | false =>
    rw [unread] at succeeded
    dsimp only at succeeded ⊢
    cases unwritten : faults.write with
    | none => rfl
    | some written =>
      rw [unwritten] at succeeded
      cases succeeded

theorem typed_iff {root : Prop} [Decidable root] :
    (if (if root then storeType else []) = [] then "file".toList else if root then storeType else []) = storeType ↔
      if root then storeType ≠ [] else storeType = "file".toList := by
  by_cases inRoot : root
  · by_cases empty : storeType = [] <;> simp [inRoot, empty]
  · simp [inRoot, eq_comm]

theorem named_iff {root : Prop} [Decidable root] :
    (if root then storeDSN else []) = storeDSN ↔ root ∨ storeDSN = [] := by
  by_cases inRoot : root <;> simp [inRoot, eq_comm]

theorem readable_of_printable {text : Text} (printable : ∀ c ∈ text, isPrint wide c = true) :
    ∀ c ∈ text, isReadable c := by
  intro c inside
  obtain ⟨least, other⟩ := isPrint_bounds (printable c inside)
  have printed : isControl c = false := by
    rw [isControl, decide_eq_false_iff_not]
    omega
  rw [isReadable, printed]
  rfl

theorem load_patched_iff (readable : ∀ c ∈ storeType ++ storeDSN, isReadable c)
    (loaded : load decoder data = some config)
    (read : decoder.statements (splitLines data) = some (front ++ back)) (regular : Regular decoder front back) :
    load decoder (patchedText wide data storeType storeDSN) =
        some ⟨storeType, storeDSN, config.credentialsFile, config.rest⟩ ↔
      TakesEffect decoder front back storeType storeDSN := by
  rw [load_patched readable loaded read regular]
  split
  · next free =>
    rw [Option.some.injEq, defaults_eq, Config.mk.injEq, typed_iff, named_iff]
    exact ⟨fun all => ⟨free, all.1, all.2.1⟩, fun all => ⟨all.typed, all.named, rfl, rfl⟩⟩
  · next twice => exact ⟨fun none => absurd none (Option.some_ne_none _).symm, fun all => absurd all.free twice⟩

theorem load_patched_of_effective (readable : ∀ c ∈ storeType ++ storeDSN, isReadable c)
    (loaded : load decoder data = some config) (effective : Effective decoder data storeType storeDSN) :
    load decoder (patchedText wide data storeType storeDSN) =
      some ⟨storeType, storeDSN, config.credentialsFile, config.rest⟩ := by
  obtain ⟨front, back, read, regular, effect⟩ := effective
  exact (load_patched_iff readable loaded read regular).mpr effect

/-- `Load` reads the new store, and everything else as before. -/
def Taken (decoder : Decoder Rest) (files : Files) (path : String) (storeType storeDSN : Text) (config : Config Rest) :
    Prop :=
  (files.lookup path).bind (load decoder) = some ⟨storeType, storeDSN, config.credentialsFile, config.rest⟩

/-- **The patch takes effect**, for every decoder, every file that parses and every store of printable characters,
where it is effective; and nowhere else, unless it takes its lines for what they are not. -/
theorem patch_takes_effect (decoder : Decoder Rest) (files files' : Files) (faults : Faults) (path : String)
    (stored : files.lookup path = some data) (loaded : load decoder data = some config)
    (printable : ∀ c ∈ storeType ++ storeDSN, isPrint wide c = true)
    (succeeded : patchVPNStoreType wide files faults path ⟨storeType, storeDSN, []⟩ = (none, files')) :
    (Effective decoder data storeType storeDSN → Taken decoder files' path storeType storeDSN config) ∧
      (Taken decoder files' path storeType storeDSN config →
        Effective decoder data storeType storeDSN ∨ Misread decoder data) := by
  have written : files' = files.insert path (patchedText wide data storeType storeDSN) :=
    (congrArg Prod.snd succeeded).symm.trans (files_patched stored (congrArg Prod.fst succeeded))
  rw [Taken, written, AList.lookup_insert, Option.bind_some]
  have readable := readable_of_printable printable
  refine ⟨load_patched_of_effective readable loaded, fun took => ?_⟩
  by_cases misread : Misread decoder data
  · exact .inr misread
  · obtain ⟨blocks, read⟩ : ∃ blocks, decoder.statements (splitLines data) = some blocks := by
      obtain ⟨raw, filled, -⟩ := Option.map_eq_some_iff.mp loaded
      obtain ⟨blocks, read, -⟩ := Option.bind_eq_some_iff.mp filled
      exact ⟨blocks, read⟩
    obtain ⟨front, back, read, regular⟩ := exists_regular read misread
    exact .inl ⟨front, back, read, regular, (load_patched_iff readable loaded read regular).mp took⟩

end Effect

/-! ### Two files -/

/-- The two keys are put behind `auth_failure_status_code`, above the first section. -/
theorem patch_takes_effect_root :
    let data := "auth_failure_status_code = 407\n[store_type_options]\nx = 1\n".toList
    let files : Files := (∅ : Files).insert "vpn.toml" data
    let settings : StoreSettings := ⟨"sqlite".toList, "users.db".toList, []⟩
    let patched := patchVPNStoreType (fun _ => true) files ⟨false, none, false⟩ "vpn.toml" settings
    ∃ config, load plainDecoder data = some config ∧
      Taken plainDecoder patched.2 "vpn.toml" "sqlite".toList "users.db".toList config := by
  intro data files settings patched
  obtain ⟨config, loaded⟩ : ∃ config, load plainDecoder data = some config :=
    Option.isSome_iff_exists.mp (by decide +kernel)
  have printable : (settings.storeType ++ settings.storeDSN).all (isPrint fun _ => true) = true := by decide +kernel
  refine ⟨config, loaded, (patch_takes_effect plainDecoder files patched.2 ⟨false, none, false⟩ "vpn.toml"
    (AList.lookup_insert _) loaded (List.all_eq_true.mp printable) rfl).1 ?_⟩
  exact ⟨[["auth_failure_status_code = 407".toList]], [["[store_type_options]".toList], ["x = 1".toList], [[]]],
    by decide +kernel, by decide +kernel, by decide +kernel⟩

/-- A file that ends in a section: the two keys come to stand there, and the endpoint goes on with the old store. -/
theorem patch_below_section :
    let data := "credentials_file = \"users.toml\"\n[metrics]\naddress = \"a\"\n".toList
    let files : Files := (∅ : Files).insert "vpn.toml" data
    let settings : StoreSettings := ⟨"sqlite".toList, "users.db".toList, []⟩
    let patched := patchVPNStoreType (fun _ => true) files ⟨false, none, false⟩ "vpn.toml" settings
    (load plainDecoder data).isSome = true ∧ patched.1 = none ∧
      ((patched.2.lookup "vpn.toml").bind (load plainDecoder)).map
          (fun config => (config.storeType, config.storeDSN)) =
        some ("file".toList, []) := by
  decide +kernel

end Ttgo.Admin.StorePatch

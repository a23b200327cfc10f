/-
**Ordered maps.**

A finite map that keeps its keys in the order in which they were added. The operations are partial: a key is added
where it is not yet there, and changed or deleted where it is.

* `OrderedMap` — entries with distinct keys; `lookup` — the value of a key.
* `add`, `modify`, `delete` — the operations.
-/

import Mathlib.Data.List.Nodup

namespace Ttgo.Lib

structure OrderedMap (Key Value : Type*) where
  entries : List (Key × Value)
  distinct : (entries.map Prod.fst).Nodup

namespace OrderedMap

variable {Key Value : Type*} [DecidableEq Key] {map next : OrderedMap Key Value} {key : Key} {value : Value}
  {change : Value → Value}

def empty : OrderedMap Key Value := ⟨[], List.nodup_nil⟩

def keys (map : OrderedMap Key Value) : List Key := map.entries.map Prod.fst

/-- The value of a key. -/
def lookup (map : OrderedMap Key Value) (key : Key) : Option Value :=
  (map.entries.find? fun entry => entry.1 = key).map Prod.snd

/-- A new key goes to the end. -/
def add (map : OrderedMap Key Value) (key : Key) (value : Value) : Option (OrderedMap Key Value) :=
  if absent : key ∉ map.keys then
    some ⟨map.entries ++ [(key, value)], by
      rw [List.map_append, List.map_singleton]
      exact List.nodup_append_comm.mp (List.nodup_cons.mpr ⟨absent, map.distinct⟩)⟩
  else none

/-- A change of the value of a key, in its place. -/
def modifyEntries (key : Key) (change : Value → Value) (entries : List (Key × Value)) : List (Key × Value) :=
  entries.map fun entry => if entry.1 = key then (key, change entry.2) else entry

theorem keys_modifyEntries (entries : List (Key × Value)) :
    (modifyEntries key change entries).map Prod.fst = entries.map Prod.fst := by
  rw [modifyEntries, List.map_map]
  refine List.map_congr_left fun entry _ => ?_
  simp only [Function.comp]
  split
  · next same => exact same.symm
  · rfl

theorem modifyEntries_cons (entry : Key × Value) (entries : List (Key × Value)) :
    modifyEntries key change (entry :: entries) =
      (if entry.1 = key then (key, change entry.2) else entry) :: modifyEntries key change entries := rfl

theorem modifyEntries_of_notMem {entries : List (Key × Value)} (absent : key ∉ entries.map Prod.fst) :
    modifyEntries key change entries = entries := by
  refine (List.map_congr_left fun entry member => if_neg ?_).trans (List.map_id _)
  rintro rfl
  exact absent (List.mem_map_of_mem member)

def modify (map : OrderedMap Key Value) (key : Key) (change : Value → Value) : Option (OrderedMap Key Value) :=
  if key ∈ map.keys then
    some ⟨modifyEntries key change map.entries, by rw [keys_modifyEntries]; exact map.distinct⟩
  else none

def delete (map : OrderedMap Key Value) (key : Key) : Option (OrderedMap Key Value) :=
  if key ∈ map.keys then
    some ⟨map.entries.filter fun entry => entry.1 ≠ key, map.distinct.sublist (List.filter_sublist.map _)⟩
  else none

/-! ### Lookups -/

omit [DecidableEq Key] in
theorem mem_keys_iff : key ∈ map.keys ↔ ∃ value, (key, value) ∈ map.entries := by
  simp [keys]

theorem lookup_eq_some_iff : map.lookup key = some value ↔ (key, value) ∈ map.entries := by
  constructor
  · intro found
    obtain ⟨entry, first, rfl⟩ := Option.map_eq_some_iff.mp found
    have same : entry.1 = key := by simpa using List.find?_some first
    exact same ▸ List.mem_of_find?_eq_some first
  · intro member
    cases first : map.entries.find? fun entry => entry.1 = key with
    | none => simpa using List.find?_eq_none.mp first _ member
    | some entry =>
      have same : entry.1 = key := by simpa using List.find?_some first
      have unique := List.inj_on_of_nodup_map map.distinct (List.mem_of_find?_eq_some first) member same
      rw [lookup, first, unique]
      rfl

theorem lookup_eq_none_iff : map.lookup key = none ↔ key ∉ map.keys := by
  rw [mem_keys_iff, Option.eq_none_iff_forall_ne_some, not_exists]
  exact forall_congr' fun value => not_congr lookup_eq_some_iff

theorem add_eq_some_iff : map.add key value = some next ↔
    key ∉ map.keys ∧ next.entries = map.entries ++ [(key, value)] := by
  obtain ⟨entries, distinct⟩ := next
  unfold add
  split
  · next absent => simp [absent, eq_comm]
  · next present => simp [present]

theorem modify_eq_some_iff : map.modify key change = some next ↔
    key ∈ map.keys ∧ next.entries = modifyEntries key change map.entries := by
  obtain ⟨entries, distinct⟩ := next
  unfold modify
  split
  · next present => simp [present, eq_comm]
  · next absent => simp [absent]

theorem delete_eq_some_iff : map.delete key = some next ↔
    key ∈ map.keys ∧ next.entries = map.entries.filter fun entry => entry.1 ≠ key := by
  obtain ⟨entries, distinct⟩ := next
  unfold delete
  split
  · next present => simp [present, eq_comm]
  · next absent => simp [absent]

theorem add_eq_none_iff : map.add key value = none ↔ key ∈ map.keys := by
  unfold add
  split
  · next absent => simp [absent]
  · next present => simp [not_not.mp present]

theorem modify_eq_none_iff : map.modify key change = none ↔ key ∉ map.keys := by
  unfold modify
  split
  · next present => simp [present]
  · next absent => simp [absent]

theorem delete_eq_none_iff : map.delete key = none ↔ key ∉ map.keys := by
  unfold delete
  split
  · next present => simp [present]
  · next absent => simp [absent]

theorem lookup_add (added : map.add key value = some next) (other : Key) :
    next.lookup other = if other = key then some value else map.lookup other := by
  obtain ⟨absent, entries⟩ := add_eq_some_iff.mp added
  refine Option.ext fun found => ?_
  rw [lookup_eq_some_iff, entries, List.mem_append, List.mem_singleton, Prod.mk.injEq, ← lookup_eq_some_iff]
  by_cases same : other = key
  · subst same
    rw [if_pos rfl, lookup_eq_none_iff.mpr absent]
    simp [eq_comm]
  · simp [same]

theorem lookup_modify (modified : map.modify key change = some next) (other : Key) :
    next.lookup other = if other = key then (map.lookup key).map change else map.lookup other := by
  obtain ⟨-, entries⟩ := modify_eq_some_iff.mp modified
  refine Option.ext fun found => ?_
  rw [lookup_eq_some_iff, entries, modifyEntries, List.mem_map]
  by_cases same : other = key
  · subst same
    rw [if_pos rfl, Option.map_eq_some_iff]
    constructor
    · rintro ⟨⟨key', old⟩, member, changed⟩
      split at changed
      · next same =>
        cases same
        cases changed
        exact ⟨old, lookup_eq_some_iff.mpr member, rfl⟩
      · next other => exact absurd (congrArg Prod.fst changed) other
    · rintro ⟨old, reads, rfl⟩
      exact ⟨(other, old), lookup_eq_some_iff.mp reads, if_pos rfl⟩
  · rw [if_neg same, lookup_eq_some_iff]
    constructor
    · rintro ⟨⟨key', old⟩, member, changed⟩
      split at changed
      · exact absurd (congrArg Prod.fst changed).symm same
      · exact changed ▸ member
    · intro member
      exact ⟨(other, found), member, if_neg same⟩

theorem lookup_delete (deleted : map.delete key = some next) (other : Key) :
    next.lookup other = if other = key then none else map.lookup other := by
  obtain ⟨-, entries⟩ := delete_eq_some_iff.mp deleted
  refine Option.ext fun found => ?_
  rw [lookup_eq_some_iff, entries, List.mem_filter, ← lookup_eq_some_iff]
  by_cases same : other = key
  · simp [same]
  · simp [same]

end OrderedMap

end Ttgo.Lib

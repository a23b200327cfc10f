/-
**Maps as the Go runtime has them.**

A Go map is an association list without repeated keys (`AList`); indexing, assignment and `delete`
are `lookup`, `insert` and `erase`. Iteration order is not specified by the language, and no
statement depends on the order in which an `AList` keeps its pairs.

* `lookup_insert_ite`, `lookup_erase_ite` — reading back after one update, at any key.
* `insertAll` — one value assigned at every key of a list, as a `for` loop does.
* `mapValues` — every stored value updated in place.
* `convertValues` — a new map with the same keys.
* `filterValues` — the pairs whose value passes a test.
-/

import Mathlib.Data.List.AList

namespace Ttgo.Lib

/-- `map[K]V`. -/
abbrev GoMap (K V : Type) := AList fun _ : K => V

namespace GoMap

variable {K V : Type} [DecidableEq K] (m : GoMap K V) (key other : K)

theorem lookup_insert_ite (value : V) :
    (m.insert other value).lookup key = if key = other then some value else m.lookup key := by
  split
  · next same => rw [same, AList.lookup_insert]
  · next different => rw [AList.lookup_insert_ne different]

theorem lookup_erase_ite :
    (m.erase other).lookup key = if key = other then none else m.lookup key := by
  split
  · next same => rw [same, AList.lookup_erase]
  · next different => rw [AList.lookup_erase_ne different]

/-- The loop `for _, key := range keys { m[key] = value }`. -/
def insertAll (keys : List K) (value : V) : GoMap K V :=
  keys.foldl (fun m key => m.insert key value) m

theorem lookup_insertAll (keys : List K) (value : V) :
    (insertAll m keys value).lookup key = if key ∈ keys then some value else m.lookup key := by
  induction keys generalizing m with
  | nil => rw [if_neg List.not_mem_nil]; rfl
  | cons first keys ih =>
    show (insertAll (m.insert first value) keys value).lookup key = _
    rw [ih, lookup_insert_ite]
    by_cases inRest : key ∈ keys
    · rw [if_pos inRest, if_pos (List.mem_cons_of_mem _ inRest)]
    · rw [if_neg inRest]
      by_cases same : key = first
      · rw [if_pos same, if_pos (same ▸ List.mem_cons_self)]
      · rw [if_neg same, if_neg (List.not_mem_cons_of_ne_of_not_mem same inRest)]

omit [DecidableEq K] in
theorem keys_map_value {W : Type} (update : V → W) (pairs : List (Sigma fun _ : K => V)) :
    (pairs.map fun pair => (⟨pair.1, update pair.2⟩ : Sigma fun _ : K => W)).keys = pairs.keys := by
  simp only [List.keys, List.map_map, Function.comp_def]

def mapValues (update : V → V) : GoMap K V where
  entries := m.entries.map fun pair => ⟨pair.1, update pair.2⟩
  nodupKeys := by
    show (List.keys _).Nodup
    rw [keys_map_value]
    exact m.nodupKeys

theorem lookup_mapValues (update : V → V) :
    (mapValues m update).lookup key = (m.lookup key).map update := by
  exact List.dlookup_map₂ key (f := fun _ => update)

omit [DecidableEq K] in
/-- The loop `for key, value := range m { out[key] = convert(value) }` into a new map. -/
def convertValues {W : Type} (convert : V → W) : GoMap K W where
  entries := m.entries.map fun pair => ⟨pair.1, convert pair.2⟩
  nodupKeys := by
    show (List.keys _).Nodup
    rw [keys_map_value]
    exact m.nodupKeys

theorem lookup_convertValues {W : Type} (convert : V → W) :
    (convertValues m convert).lookup key = (m.lookup key).map convert := by
  exact List.dlookup_map₂ key (f := fun _ => convert)

omit [DecidableEq K] in
def filterValues (keep : V → Bool) : GoMap K V where
  entries := m.entries.filter fun pair => keep pair.2
  nodupKeys := List.NodupKeys.sublist List.filter_sublist m.nodupKeys

theorem lookup_filterValues (keep : V → Bool) :
    (filterValues m keep).lookup key = (m.lookup key).filter keep := by
  refine Option.ext fun value => ?_
  rw [Option.filter_eq_some_iff, ← Option.mem_def, ← Option.mem_def, AList.mem_lookup_iff,
    AList.mem_lookup_iff]
  exact List.mem_filter

end GoMap

end Ttgo.Lib

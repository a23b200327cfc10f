/-
**Additions to a table, and taking them back.**

A program adds entries to a table that others have written to before it, keeps a ledger of them and deletes them
later. Only a key that is free can be added, so an entry of the ledger is never one of the others.

* `Extended base added table` — the table is `base` with the entries of the ledger.
* `Extended.insert`, `Extended.erase` — an entry is added, or taken back.
* `Extended.nil_iff` — with an empty ledger the table is `base`.
-/

import Ttgo.Lib.GoMap

namespace Ttgo.Lib

variable {K V : Type} [DecidableEq K] {base table : GoMap K V} {added other : List (K × V)} {key : K} {value : V}

/-- The table is `base` with these entries, for keys that `base` does not have. -/
structure Extended (base : GoMap K V) (added : List (K × V)) (table : GoMap K V) : Prop where
  distinct : (added.map Prod.fst).Nodup
  new : ∀ entry ∈ added, base.lookup entry.1 = none
  present : ∀ entry ∈ added, table.lookup entry.1 = some entry.2
  kept : ∀ key ∉ added.map Prod.fst, table.lookup key = base.lookup key

namespace Extended

theorem nil_iff : Extended base [] table ↔ ∀ key, table.lookup key = base.lookup key :=
  ⟨fun extended key => extended.kept key List.not_mem_nil,
    fun same => ⟨List.nodup_nil, fun _ member => absurd member List.not_mem_nil,
      fun _ member => absurd member List.not_mem_nil, fun key _ => same key⟩⟩

theorem refl (base : GoMap K V) : Extended base [] base := nil_iff.mpr fun _ => rfl

theorem perm (extended : Extended base added table) (same : added.Perm other) : Extended base other table := by
  refine ⟨((same.map Prod.fst).nodup_iff).mp extended.distinct, fun entry member => ?_, fun entry member => ?_,
    fun key absent => ?_⟩
  · exact extended.new entry (same.mem_iff.mpr member)
  · exact extended.present entry (same.mem_iff.mpr member)
  · exact extended.kept key fun member => absent ((same.map Prod.fst).mem_iff.mp member)

theorem of_free (extended : Extended base added table) (free : table.lookup key = none) :
    key ∉ added.map Prod.fst ∧ base.lookup key = none := by
  have absent : key ∉ added.map Prod.fst := by
    intro member
    obtain ⟨entry, listed, rfl⟩ := List.mem_map.mp member
    have taken := extended.present entry listed
    rw [free] at taken
    cases taken
  exact ⟨absent, (extended.kept key absent).symm.trans free⟩

theorem insert (extended : Extended base added table) (free : table.lookup key = none) (value : V) :
    Extended base ((key, value) :: added) (table.insert key value) := by
  obtain ⟨absent, new⟩ := extended.of_free free
  refine ⟨List.nodup_cons.mpr ⟨absent, extended.distinct⟩,
    List.forall_mem_cons.mpr ⟨new, extended.new⟩, List.forall_mem_cons.mpr ⟨AList.lookup_insert table, ?_⟩, ?_⟩
  · intro entry member
    rw [AList.lookup_insert_ne, extended.present entry member]
    rintro rfl
    exact absent (List.mem_map_of_mem member)
  · intro other outside
    obtain ⟨differs, outside⟩ := not_or.mp (mt List.mem_cons.mpr outside)
    rw [AList.lookup_insert_ne differs, extended.kept other outside]

theorem erase (extended : Extended base ((key, value) :: added) table) :
    Extended base added (table.erase key) := by
  obtain ⟨absent, distinct⟩ := List.nodup_cons.mp extended.distinct
  obtain ⟨new, older⟩ := List.forall_mem_cons.mp extended.new
  refine ⟨distinct, older, fun entry member => ?_, fun other outside => ?_⟩
  · have differs : entry.1 ≠ key := fun same => absent (List.mem_map.mpr ⟨entry, member, same⟩)
    rw [AList.lookup_erase_ne differs, extended.present entry (List.mem_cons_of_mem _ member)]
  · rw [GoMap.lookup_erase_ite]
    split
    · next same => rw [same, new]
    · next differs => exact extended.kept other (List.not_mem_cons_of_ne_of_not_mem differs outside)

theorem filterValues (extended : Extended base added table) {keep : V → Bool}
    (kept : ∀ entry ∈ added, keep entry.2 = true) :
    Extended (base.filterValues keep) added (table.filterValues keep) := by
  refine ⟨extended.distinct, fun entry member => ?_, fun entry member => ?_, fun key outside => ?_⟩
  · rw [GoMap.lookup_filterValues, extended.new entry member]
    rfl
  · rw [GoMap.lookup_filterValues, extended.present entry member]
    exact Option.filter_some_pos (kept entry member)
  · rw [GoMap.lookup_filterValues, GoMap.lookup_filterValues, extended.kept key outside]

end Extended

end Ttgo.Lib

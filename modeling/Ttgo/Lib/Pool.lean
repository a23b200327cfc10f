/-
**Pools of threads.**

A pool is a list of threads; a thread is named by its index, a new one is appended, and a step of
thread `index` replaces its entry with `List.set`. Quantities that a system counts over its threads
(how many are in a phase, how many bytes they hold) do not depend on the order, so a step changes
them by the one entry it replaces.

* `pool_set` — the pool before and after a step are, up to order, the old and the new entry in
  front of the same rest.
* `pool_get_set` — a thread of the pool after a step is the one that stepped or an old one;
  `pool_get_append` — after an arrival, the new one or an old one.
* `filterMap_set`, `sum_map_set` — what a view collects from the threads, or a sum over them, changes by the entry
  that is replaced.
-/

import Mathlib.Data.List.Perm.Basic
import Mathlib.Algebra.BigOperators.Group.List.Basic
import Mathlib.Tactic.Ring

namespace Ttgo.Lib

variable {Thread : Type*} {pool : List Thread} {index : Nat} {old : Thread}

theorem pool_set (found : pool[index]? = some old) (new : Thread) :
    ∃ rest, pool.Perm (old :: rest) ∧ (pool.set index new).Perm (new :: rest) := by
  obtain ⟨inside, rfl⟩ := List.getElem?_eq_some_iff.mp found
  exact ⟨pool.eraseIdx index, (List.getElem_cons_eraseIdx_perm inside).symm,
    List.set_perm_cons_eraseIdx inside new⟩

theorem pool_get_set (found : pool[index]? = some old) {new later : Thread} {other : Nat}
    (reads : (pool.set index new)[other]? = some later) :
    (other = index ∧ later = new) ∨ (other ≠ index ∧ pool[other]? = some later) := by
  by_cases same : other = index
  · subst same
    obtain ⟨inside, -⟩ := List.getElem?_eq_some_iff.mp found
    rw [List.getElem?_set_self inside, Option.some.injEq] at reads
    exact .inl ⟨rfl, reads.symm⟩
  · rw [List.getElem?_set_ne (Ne.symm same)] at reads
    exact .inr ⟨same, reads⟩

theorem pool_get_append {new found : Thread} (reads : (pool ++ [new])[index]? = some found) :
    pool[index]? = some found ∨ (index = pool.length ∧ found = new) := by
  rw [List.getElem?_append] at reads
  split at reads
  · exact .inl reads
  · next outside =>
    obtain ⟨inside, rfl⟩ := List.getElem?_eq_some_iff.mp reads
    rw [List.length_singleton] at inside
    exact .inr ⟨by omega, by simp⟩

theorem getElem?_concat_of_ne {new : Thread} (other : index ≠ pool.length) :
    (pool ++ [new])[index]? = pool[index]? := by
  rcases Nat.lt_or_gt_of_ne other with inside | outside
  · exact List.getElem?_append_left inside
  · rw [List.getElem?_eq_none (Nat.le_of_lt outside), List.getElem?_eq_none]
    rw [List.length_append]
    exact outside

theorem map_set_same {View : Type*} {view : Thread → View} {new : Thread}
    (found : pool[index]? = some old) (same : view new = view old) :
    (pool.set index new).map view = pool.map view := by
  obtain ⟨inside, rfl⟩ := List.getElem?_eq_some_iff.mp found
  rw [List.map_set, same, ← List.getElem_map view (h := by rwa [List.length_map]),
    List.set_getElem_self]

theorem map_modify_same {View : Type*} {view : Thread → View} {update : Thread → Thread}
    (same : ∀ thread, view (update thread) = view thread) (pool : List Thread) (index : Nat) :
    (pool.modify index update).map view = pool.map view := by
  refine List.ext_getElem? fun place => ?_
  rw [List.getElem?_map, List.getElem?_map, List.getElem?_modify]
  cases pool[place]? with
  | none => rfl
  | some thread =>
    simp only [Option.map_eq_map, Option.map_some, Option.some.injEq]
    split
    · exact same thread
    · rfl

theorem filterMap_set {View : Type*} (found : pool[index]? = some old) (new : Thread) (view : Thread → Option View) :
    ∃ rest, (pool.filterMap view).Perm ((view old).toList ++ rest) ∧
      ((pool.set index new).filterMap view).Perm ((view new).toList ++ rest) := by
  obtain ⟨rest, before, after⟩ := pool_set found new
  have cons (thread : Thread) : (thread :: rest).filterMap view = (view thread).toList ++ rest.filterMap view := by
    rw [List.filterMap_cons]
    cases view thread with
    | none => rfl
    | some seen => rfl
  refine ⟨rest.filterMap view, ?_, ?_⟩
  · rw [← cons old]
    exact before.filterMap view
  · rw [← cons new]
    exact after.filterMap view

theorem sum_map_set (found : pool[index]? = some old) (new : Thread) (weight : Thread → Nat) :
    ((pool.set index new).map weight).sum + weight old = (pool.map weight).sum + weight new := by
  obtain ⟨rest, before, after⟩ := pool_set found new
  rw [(after.map weight).sum_eq, (before.map weight).sum_eq, List.map_cons, List.map_cons,
    List.sum_cons, List.sum_cons]
  ring

end Ttgo.Lib

/-
**Go slices.**

A slice is a window on a backing array: where it starts, how many elements it shows, and how many it
may grow to in place. Slices cut from one slice share its array, so an `append` to one that has
capacity left writes where another may be looking.

* `Heap` — the arrays; `Slice` — a window; `Slice.read` — what it shows.
* `Slice.upTo`, `Slice.onward` — `s[:n]` and `s[n:]`; `Slice.push` — `append(s, x)`;
  `Slice.pushAll` — `append(s, xs...)`; `makeSlice` — `make([]T, 0, cap)`.
* `read_push` — an `append` shows the old elements and the new one.
* `read_push_other` — a slice of another array does not see it, and nobody sees one that reallocates
  (`read_push_full`).
* `read_push_onward` — `append(s[:n], x)` overwrites the first element of `s[n:]`.
-/

import Mathlib.Data.List.Basic
import Mathlib.Order.Nat

namespace Ttgo.Lib

abbrev Heap (α : Type*) := List (List α)

structure Slice where
  array : Nat
  off : Nat
  len : Nat
  cap : Nat
deriving DecidableEq, Repr

namespace Slice

variable {α : Type*}

def read (heap : Heap α) (s : Slice) : List α :=
  ((heap.getD s.array []).drop s.off).take s.len

/-- `s[:n]` keeps the capacity. -/
def upTo (s : Slice) (n : Nat) : Slice := { s with len := n }

/-- `s[n:]`. -/
def onward (s : Slice) (n : Nat) : Slice :=
  { s with off := s.off + n, len := s.len - n, cap := s.cap - n }

/-- The window lies inside its array. -/
structure Valid (heap : Heap α) (s : Slice) : Prop where
  array : s.array < heap.length
  inside : s.off + s.cap ≤ (heap.getD s.array []).length
  len : s.len ≤ s.cap

/-- `append(s, x)`: in place if there is capacity left, else in a new array with room for `slack`
more. -/
def push [Inhabited α] (slack : Nat → Nat) (heap : Heap α) (s : Slice) (x : α) : Heap α × Slice :=
  if s.len < s.cap then
    (heap.set s.array ((heap.getD s.array []).set (s.off + s.len) x), { s with len := s.len + 1 })
  else
    (heap ++ [s.read heap ++ x :: List.replicate (slack s.len) default],
      ⟨heap.length, 0, s.len + 1, s.len + 1 + slack s.len⟩)

/-- `append(s, xs...)`. -/
def pushAll [Inhabited α] (slack : Nat → Nat) : Heap α → Slice → List α → Heap α × Slice
  | heap, s, [] => (heap, s)
  | heap, s, x :: xs =>
    let pushed := s.push slack heap x
    pushAll slack pushed.1 pushed.2 xs

/-- `make([]T, 0, cap)`. -/
def makeSlice [Inhabited α] (heap : Heap α) (cap : Nat) : Heap α × Slice :=
  (heap ++ [List.replicate cap default], ⟨heap.length, 0, 0, cap⟩)

section Read

variable {heap : Heap α} {s : Slice}

theorem length_read (valid : s.Valid heap) : (s.read heap).length = s.len := by
  have inside := valid.inside
  have len := valid.len
  rw [read, List.length_take, List.length_drop]
  omega

theorem getD_append_old {i : Nat} (old : i < heap.length) (new : List α) :
    (heap ++ [new]).getD i [] = heap.getD i [] := by
  rw [List.getD_eq_getElem?_getD, List.getD_eq_getElem?_getD, List.getElem?_append_left old]

theorem getD_append_new (new : List α) : (heap ++ [new]).getD heap.length [] = new := by
  simp

theorem getD_set_self {i : Nat} (inside : i < heap.length) (new : List α) :
    (heap.set i new).getD i [] = new := by
  simp [inside]

theorem getD_set_other {i j : Nat} (other : j ≠ i) (new : List α) :
    (heap.set i new).getD j [] = heap.getD j [] := by
  simp [List.getElem?_set_ne (Ne.symm other)]

theorem valid_upTo (valid : s.Valid heap) {n : Nat} (le : n ≤ s.len) : (s.upTo n).Valid heap :=
  ⟨valid.array, valid.inside, le.trans valid.len⟩

theorem read_upTo {n : Nat} (le : n ≤ s.len) : (s.upTo n).read heap = (s.read heap).take n := by
  rw [read, read, List.take_take, Nat.min_eq_left le]
  rfl

theorem read_onward (n : Nat) : (s.onward n).read heap = (s.read heap).drop n := by
  rw [read, read, List.drop_take, List.drop_drop]
  rfl

end Read

variable [Inhabited α] {slack : Nat → Nat} {heap : Heap α} {s t : Slice} {x : α}

theorem read_push (valid : s.Valid heap) :
    (s.push slack heap x).2.read (s.push slack heap x).1 = s.read heap ++ [x] := by
  have inside := valid.inside
  by_cases room : s.len < s.cap
  · have here : s.len < ((heap.getD s.array []).drop s.off).length := by
      rw [List.length_drop]
      omega
    simp only [push, if_pos room, read, getD_set_self valid.array]
    rw [List.drop_set, if_neg (by omega), Nat.add_sub_cancel_left, List.take_add_one, List.take_set,
      List.set_eq_of_length_le (List.length_take_le _ _), List.getElem?_set_self here]
    rfl
  · have whole : (s.read heap ++ [x]).length = s.len + 1 := by
      rw [List.length_append, length_read valid, List.length_singleton]
    simp only [push, if_neg room]
    rw [read, getD_append_new, List.drop_zero, List.append_cons,
      List.take_append_of_le_length (le_of_eq whole.symm), List.take_of_length_le (le_of_eq whole)]

theorem valid_push (valid : s.Valid heap) (slack : Nat → Nat) (x : α) :
    (s.push slack heap x).2.Valid (s.push slack heap x).1 := by
  have inside := valid.inside
  by_cases room : s.len < s.cap
  · simp only [push, if_pos room]
    refine ⟨by simpa using valid.array, ?_, room⟩
    simpa only [getD_set_self valid.array, List.length_set] using inside
  · simp only [push, if_neg room]
    refine ⟨by simp, ?_, Nat.le_add_right _ _⟩
    simp only [getD_append_new, List.length_append, List.length_cons, List.length_replicate,
      length_read valid]
    omega

theorem read_push_other (old : t.array < heap.length) (other : t.array ≠ s.array) :
    t.read (s.push slack heap x).1 = t.read heap := by
  by_cases room : s.len < s.cap
  · simp only [push, if_pos room, read, getD_set_other other]
  · simp only [push, if_neg room, read, getD_append_old old]

theorem read_push_full (old : t.array < heap.length) (full : s.cap ≤ s.len) :
    t.read (s.push slack heap x).1 = t.read heap := by
  simp only [push, if_neg (not_lt.mpr full), read, getD_append_old old]

theorem read_push_onward (valid : s.Valid heap) {n : Nat} (inside : n < s.len) :
    (s.onward n).read ((s.upTo n).push slack heap x).1 = ((s.read heap).drop n).set 0 x := by
  have room : (s.upTo n).len < (s.upTo n).cap := inside.trans_le valid.len
  rw [← read_onward]
  simp only [push, if_pos room, read]
  show ((List.getD (List.set heap s.array _) s.array []).drop (s.off + n)).take (s.len - n) = _
  rw [getD_set_self valid.array, List.drop_set]
  show List.take _ (if s.off + n < s.off + n then _ else _) = _
  rw [if_neg (lt_irrefl _), List.take_set]
  simp only [upTo, onward, Nat.sub_self]

theorem length_push (slack : Nat → Nat) (heap : Heap α) (s : Slice) (x : α) :
    heap.length ≤ (s.push slack heap x).1.length := by
  by_cases room : s.len < s.cap
  · simp [push, room]
  · simp [push, room]

theorem array_push (slack : Nat → Nat) (heap : Heap α) (s : Slice) (x : α) :
    (s.push slack heap x).2.array = s.array ∨
      (s.push slack heap x).2.array = heap.length := by
  by_cases room : s.len < s.cap
  · simp [push, room]
  · simp [push, room]

/-- **Building beside another slice**: `s` shows what was built so far, and `t`, in another array, still
shows what it did. -/
structure Beside (heap : Heap α) (t s : Slice) (shown built : List α) : Prop where
  valid : s.Valid heap
  built : s.read heap = built
  old : t.array < heap.length
  other : t.array ≠ s.array
  shown : t.read heap = shown

variable {shown built : List α}

theorem beside_makeSlice (old : t.array < heap.length) (cap : Nat) :
    Beside (makeSlice heap cap).1 t (makeSlice heap cap).2 (t.read heap) [] where
  valid := ⟨by simp [makeSlice], by simp [makeSlice], Nat.zero_le _⟩
  built := by simp [makeSlice, read]
  old := by simpa [makeSlice] using old.trans (Nat.lt_succ_self _)
  other := old.ne
  shown := by simp only [makeSlice, read, getD_append_old old]

theorem Beside.push (beside : Beside heap t s shown built) (slack : Nat → Nat) (x : α) :
    Beside (s.push slack heap x).1 t (s.push slack heap x).2 shown (built ++ [x]) where
  valid := valid_push beside.valid slack x
  built := (read_push beside.valid).trans (congrArg (· ++ [x]) beside.built)
  old := beside.old.trans_le (length_push slack heap s x)
  other := by
    rcases array_push slack heap s x with same | new
    · rw [same]
      exact beside.other
    · rw [new]
      exact beside.old.ne
  shown := (read_push_other beside.old beside.other).trans beside.shown

theorem Beside.pushAll (beside : Beside heap t s shown built) (slack : Nat → Nat) (xs : List α) :
    Beside (s.pushAll slack heap xs).1 t (s.pushAll slack heap xs).2 shown (built ++ xs) := by
  induction xs generalizing heap s built with
  | nil => simpa [Slice.pushAll] using beside
  | cons x xs ih => simpa [Slice.pushAll] using ih (beside.push slack x)

end Slice

end Ttgo.Lib

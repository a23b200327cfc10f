/-
**Calls until the first failure.**

A program makes calls one after the other and stops at the first that fails; the calls before it stay made.

* `carry call items state` — the state after the calls, those that were made, and the failure.
* `carry_static` — where it is known beforehand which calls are refused, those before the first of them are made.
* `carry_view` — what the calls that were made did to a view of the state.
* `foldl_eq_self_iff` — updates of different parts leave a value alone exactly if each of them does.
-/

import Mathlib.Data.List.Basic

namespace Ttgo.Lib

variable {State Item Err View : Type*}

structure Carried (State Item Err : Type*) where
  state : State
  made : List Item
  failed : Option (Item × Err)

/-- The calls in their order. A call gives the state after it, also if it fails. -/
def carry (call : State → Item → State × Except Err Unit) : List Item → State → Carried State Item Err
  | [], state => ⟨state, [], none⟩
  | item :: items, state =>
    match call state item with
    | (left, .error err) => ⟨left, [], some (item, err)⟩
    | (next, .ok ()) =>
      let rest := carry call items next
      { rest with made := item :: rest.made }

variable {call : State → Item → State × Except Err Unit} {state next : State} {item : Item}
  {items : List Item} {err : Err}

theorem carry_cons_error (fails : call state item = (next, .error err)) :
    carry call (item :: items) state = ⟨next, [], some (item, err)⟩ := by
  rw [carry, fails]

theorem carry_cons_ok (done : call state item = (next, .ok ())) :
    carry call (item :: items) state =
      { carry call items next with made := item :: (carry call items next).made } := by
  rw [carry, done]

theorem carry_image {State' : Type*} (call : State → Item → State × Except Err Unit)
    {call' : State' → Item → State' × Except Err Unit} {image : State → State'}
    (same : ∀ state item, call' (image state) item = (call state item).map image id) (items : List Item)
    (state : State) :
    carry call' items (image state) =
      ⟨image (carry call items state).state, (carry call items state).made, (carry call items state).failed⟩ := by
  induction items generalizing state with
  | nil => rfl
  | cons item items ih =>
    have here := same state item
    rcases done : call state item with ⟨next, err | ⟨⟩⟩ <;> rw [done] at here
    · rw [carry_cons_error here, carry_cons_error done]
    · rw [carry_cons_ok here, carry_cons_ok done, ih]

theorem carry_static (invariant : State → Prop) (refuses : Item → Bool)
    (refused : ∀ state item, invariant state → refuses item = true → ∃ left err, call state item = (left, .error err))
    (accepted : ∀ state item, invariant state → refuses item = false →
      ∃ next, call state item = (next, .ok ()) ∧ invariant next) (start : invariant state) :
    (carry call items state).made = items.takeWhile (fun item => !refuses item) ∧
      ((carry call items state).failed = none ↔ ∀ item ∈ items, refuses item = false) := by
  induction items generalizing state with
  | nil => exact ⟨rfl, iff_of_true rfl fun _ member => absurd member List.not_mem_nil⟩
  | cons item items ih =>
    cases refusal : refuses item with
    | true =>
      obtain ⟨left, err, fails⟩ := refused state item start refusal
      rw [carry_cons_error fails, List.takeWhile_cons_of_neg (by rw [refusal]; exact Bool.false_ne_true)]
      refine ⟨rfl, iff_of_false (Option.some_ne_none _) fun all => ?_⟩
      rw [all item List.mem_cons_self] at refusal
      cases refusal
    | false =>
      obtain ⟨next, done, held⟩ := accepted state item start refusal
      obtain ⟨made, failed⟩ := ih held
      rw [carry_cons_ok done, List.takeWhile_cons_of_pos (by rw [refusal]; rfl)]
      refine ⟨congrArg (item :: ·) made, ?_⟩
      rw [List.forall_mem_cons, and_iff_right refusal]
      exact failed

theorem carry_view (view : State → View) (update : View → Item → View)
    (each : ∀ {state item next}, call state item = (next, .ok ()) → view next = update (view state) item)
    (fails : ∀ {state item next err}, call state item = (next, .error err) → view next = view state)
    (items : List Item) (state : State) :
    view (carry call items state).state = (carry call items state).made.foldl update (view state) := by
  induction items generalizing state with
  | nil => rfl
  | cons item items ih =>
    rcases done : call state item with ⟨next, err | ⟨⟩⟩
    · rw [carry_cons_error done]
      exact fails done
    · rw [carry_cons_ok done, List.foldl_cons, ← each done]
      exact ih next

section Updates

variable {update : View → Item → View} {Part : Type*} (part : Item → Part) {view : View}

theorem update_foldl (commutes : ∀ {first second}, part first ≠ part second → ∀ view,
      update (update view first) second = update (update view second) first)
    (again : ∀ view item, update (update view item) item = update view item)
    (distinct : (items.map part).Nodup) (member : item ∈ items) :
    update (items.foldl update view) item = items.foldl update view := by
  have later {items : List Item} (apart : part item ∉ items.map part) (view : View) :
      update (items.foldl update view) item = items.foldl update (update view item) := by
    induction items generalizing view with
    | nil => rfl
    | cons first items ih =>
      obtain ⟨differs, others⟩ := not_or.mp (mt List.mem_cons.mpr apart)
      rw [List.foldl_cons, List.foldl_cons, ih others, commutes (Ne.symm differs)]
  induction items generalizing view with
  | nil => cases member
  | cons first items ih =>
    obtain ⟨apart, distinct⟩ := List.nodup_cons.mp distinct
    rw [List.foldl_cons]
    rcases List.mem_cons.mp member with rfl | inside
    · rw [later apart, again]
    · exact ih distinct inside

/-- **Updates of different parts** leave a value alone exactly if each of them does. -/
theorem foldl_eq_self_iff (commutes : ∀ {first second}, part first ≠ part second → ∀ view,
      update (update view first) second = update (update view second) first)
    (again : ∀ view item, update (update view item) item = update view item)
    (distinct : (items.map part).Nodup) :
    items.foldl update view = view ↔ ∀ item ∈ items, update view item = view := by
  constructor
  · intro same item member
    have fixed : update (items.foldl update view) item = items.foldl update view :=
      update_foldl part commutes again distinct member
    rwa [same] at fixed
  · intro each
    induction items with
    | nil => rfl
    | cons first items ih =>
      obtain ⟨now, later⟩ := List.forall_mem_cons.mp each
      rw [List.foldl_cons, now]
      exact ih (List.nodup_cons.mp distinct).2 later

end Updates

end Ttgo.Lib

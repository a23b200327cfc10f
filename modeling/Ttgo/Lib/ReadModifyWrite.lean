/-
**Read, modify, write.**

A cell has contents that are loaded as a value and are replaced by storing one. A call loads the value, edits it and
stores the result; it fails where the contents do not load or the edit does not apply, and then stores nothing.

* `Cell.call` — a call on its own; `Cell.sequence` — calls one after the other that all succeed.
* `Shared` — a cell with calls under way, each in two steps: it loads, and later edits and stores.
* `Undisturbed` — a call stores where the cell still loads as the value that it has.
* `exists_order` — in a run of undisturbed steps the contents are those of the successful calls in some order.
-/

import Ttgo.Lib.Pool
import Ttgo.Lib.Run

namespace Ttgo.Lib

/-! ### Calls one at a time -/

structure Cell (Content Value Op Err : Type*) where
  load : Content → Except Err Value
  edit : Op → Value → Except Err Value
  store : Value → Content

namespace Cell

variable {Content Value Op Err : Type*} {cell : Cell Content Value Op Err} {content content' : Content}
  {op : Op} {ops : List Op} {value value' : Value}

/-- A call: the contents after it, and what it returns. -/
def call (cell : Cell Content Value Op Err) (content : Content) (op : Op) : Content × Except Err Unit :=
  match cell.load content with
  | .error err => (content, .error err)
  | .ok value =>
    match cell.edit op value with
    | .error err => (content, .error err)
    | .ok edited => (cell.store edited, .ok ())

/-- Calls one after the other, all of which succeed. -/
def sequence (cell : Cell Content Value Op Err) : Content → List Op → Option Content
  | content, [] => some content
  | content, op :: ops =>
    match cell.call content op with
    | (next, .ok ()) => cell.sequence next ops
    | (_, .error _) => none

theorem call_of_load_error {err : Err} (fails : cell.load content = .error err) (op : Op) :
    cell.call content op = (content, .error err) := by
  rw [call, fails]

theorem call_of_edit_error {err : Err} (loads : cell.load content = .ok value)
    (fails : cell.edit op value = .error err) : cell.call content op = (content, .error err) := by
  simp only [call, loads, fails]

theorem call_of_edit (loads : cell.load content = .ok value) (edits : cell.edit op value = .ok value') :
    cell.call content op = (cell.store value', .ok ()) := by
  simp only [call, loads, edits]

theorem sequence_append (ops more : List Op) :
    cell.sequence content (ops ++ more) = (cell.sequence content ops).bind (cell.sequence · more) := by
  induction ops generalizing content with
  | nil => rfl
  | cons op ops ih =>
    rw [List.cons_append, sequence, sequence]
    split
    · exact ih
    · rfl

end Cell

/-! ### Calls at the same time -/

/-- How far a call is. -/
inductive CallPhase (Value Err : Type*) where
  | waiting
  | loaded (value : Value)
  | finished (result : Except Err Unit)

structure SharedCall (Value Op Err : Type*) where
  op : Op
  phase : CallPhase Value Err := .waiting

/-- The call reported success. -/
def SharedCall.succeeded {Value Op Err : Type*} (call : SharedCall Value Op Err) : Bool :=
  match call.phase with
  | .finished (.ok ()) => true
  | _ => false

/-- A cell with its calls. -/
structure Shared (Content Value Op Err : Type*) where
  content : Content
  calls : List (SharedCall Value Op Err)

inductive SharedEvent where
  | load (index : Nat)
  | save (index : Nat)

namespace Shared

variable {Content Value Op Err : Type*} {cell : Cell Content Value Op Err}
  {shared next final : Shared Content Value Op Err} {event : SharedEvent}

def setPhase (shared : Shared Content Value Op Err) (index : Nat) (op : Op) (phase : CallPhase Value Err) :
    Shared Content Value Op Err :=
  { shared with calls := shared.calls.set index ⟨op, phase⟩ }

def step (cell : Cell Content Value Op Err) (shared : Shared Content Value Op Err) :
    SharedEvent → Option (Shared Content Value Op Err)
  | .load index =>
    match shared.calls[index]? with
    | some ⟨op, .waiting⟩ =>
      match cell.load shared.content with
      | .error err => some (shared.setPhase index op (.finished (.error err)))
      | .ok value => some (shared.setPhase index op (.loaded value))
    | _ => none
  | .save index =>
    match shared.calls[index]? with
    | some ⟨op, .loaded value⟩ =>
      match cell.edit op value with
      | .error err => some (shared.setPhase index op (.finished (.error err)))
      | .ok edited => some { shared.setPhase index op (.finished (.ok ())) with content := cell.store edited }
    | _ => none

/-- What a step does. -/
inductive Stepped (cell : Cell Content Value Op Err) (shared : Shared Content Value Op Err) :
    SharedEvent → Shared Content Value Op Err → Prop where
  | unsaved {event : SharedEvent} {index : Nat} {call : SharedCall Value Op Err} {phase : CallPhase Value Err}
      (found : shared.calls[index]? = some call) (before : call.succeeded = false)
      (after : (⟨call.op, phase⟩ : SharedCall Value Op Err).succeeded = false) :
      Stepped cell shared event (shared.setPhase index call.op phase)
  | saved {index : Nat} {op : Op} {value edited : Value}
      (found : shared.calls[index]? = some ⟨op, .loaded value⟩) (edits : cell.edit op value = .ok edited) :
      Stepped cell shared (.save index)
        { shared.setPhase index op (.finished (.ok ())) with content := cell.store edited }

theorem stepped_of_step (taken : step cell shared event = some next) : Stepped cell shared event next := by
  cases event with
  | load index =>
    rw [step] at taken
    split at taken
    · next op found =>
      split at taken
      · cases taken
        exact .unsaved found rfl rfl
      · cases taken
        exact .unsaved found rfl rfl
    · cases taken
  | save index =>
    rw [step] at taken
    split at taken
    · next op value found =>
      split at taken
      · cases taken
        exact .unsaved found rfl rfl
      · next edits =>
        cases taken
        exact .saved found edits
    · cases taken

/-- A call stores where the cell still loads as the value that it has. -/
def Undisturbed (cell : Cell Content Value Op Err) (shared : Shared Content Value Op Err) : SharedEvent → Prop
  | .load _ => True
  | .save index => ∀ op value edited, shared.calls[index]? = some ⟨op, .loaded value⟩ →
      cell.edit op value = .ok edited → cell.load shared.content = .ok value

/-- The contents are those of the successful calls in some order. -/
def Ordered (cell : Cell Content Value Op Err) (start : Content) (shared : Shared Content Value Op Err) : Prop :=
  ∃ order : List (SharedCall Value Op Err), order.Perm (shared.calls.filter SharedCall.succeeded) ∧
    cell.sequence start (order.map SharedCall.op) = some shared.content

theorem filter_succeeded {index : Nat} {call : SharedCall Value Op Err} {calls : List (SharedCall Value Op Err)}
    (found : calls[index]? = some call) (before : call.succeeded = false) (new : SharedCall Value Op Err) :
    ((calls.set index new).filter SharedCall.succeeded).Perm
      ([new].filter SharedCall.succeeded ++ calls.filter SharedCall.succeeded) := by
  obtain ⟨rest, old, stepped⟩ := pool_set found new
  refine (stepped.filter _).trans ?_
  rw [← List.singleton_append, List.filter_append]
  refine (List.perm_append_left_iff _).mpr ?_
  have dropped : (call :: rest).filter SharedCall.succeeded = rest.filter SharedCall.succeeded :=
    List.filter_cons_of_neg (by simp [before])
  exact dropped ▸ (old.filter _).symm

theorem ordered_step {start : Content} (alone : Undisturbed cell shared event)
    (ordered : Ordered cell start shared) (taken : step cell shared event = some next) :
    Ordered cell start next := by
  obtain ⟨order, same, reached⟩ := ordered
  cases stepped_of_step taken with
  | @unsaved _ index call phase found before after =>
    refine ⟨order, same.trans ?_, reached⟩
    have calls := filter_succeeded found before ⟨call.op, phase⟩
    rw [List.filter_cons_of_neg (by simp [after]), List.filter_nil, List.nil_append] at calls
    exact calls.symm
  | @saved index op value edited found edits =>
    -- the call goes behind the calls that stored before it
    refine ⟨order ++ [⟨op, .finished (.ok ())⟩], ?_, ?_⟩
    · refine List.perm_append_comm.trans ?_
      have calls := filter_succeeded found rfl ⟨op, .finished (.ok ())⟩
      rw [List.filter_cons_of_pos rfl, List.filter_nil] at calls
      exact (same.append_left _).trans calls.symm
    · have loads := alone op value edited found edits
      rw [List.map_append, Cell.sequence_append, reached, Option.bind_some, List.map_singleton, Cell.sequence,
        Cell.call_of_edit loads edits]
      rfl

theorem exists_order {events : List SharedEvent} (unstarted : ∀ call ∈ shared.calls, call.succeeded = false)
    (alone : Along (step cell) (Undisturbed cell) shared events) (ran : run (step cell) shared events = some final) :
    Ordered cell shared.content final := by
  refine run_invariant (fun _ _ _ alone ordered taken => ordered_step alone ordered taken) alone ?_ ran
  refine ⟨[], ?_, rfl⟩
  rw [List.filter_eq_nil_iff.mpr fun call member => by simp [unstarted call member]]

end Shared

end Ttgo.Lib

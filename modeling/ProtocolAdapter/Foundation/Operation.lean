/-
This file is a library for operations that change a state, may return early, and read
and write arrays. An access outside its array ends the operation without any result,
so an operation that has an outcome made no such access. An early return keeps the
state it was reached in.
-/

import Mathlib.Tactic.TypeStar

namespace Foundation

/-- A computation that reads arrays. It is absent when it reads outside one. -/
abbrev Access (α : Type) := Option α

/-- A read of every element of a list, when each of them can be read. -/
theorem mapM_listed {α β : Type} (read : α → Access β) :
    ∀ (items : List α), (∀ item ∈ items, ∃ value, read item = some value) →
      ∃ values, items.mapM read = some values ∧
        ∀ value ∈ values, ∃ item ∈ items, read item = some value := by
  intro items
  induction items with
  | nil =>
    intro _
    exact ⟨[], rfl, by simp⟩
  | cons item rest ih =>
    intro readable
    obtain ⟨first, others⟩ := List.forall_mem_cons.mp readable
    obtain ⟨value, found⟩ := first
    obtain ⟨values, run, origin⟩ := ih others
    refine ⟨value :: values, ?_, fun other member => ?_⟩
    · rw [List.mapM_cons, found, run]
      rfl
    · rcases List.mem_cons.mp member with rfl | later
      · exact ⟨item, List.mem_cons_self, found⟩
      · obtain ⟨source, among, equal⟩ := origin other later
        exact ⟨source, List.mem_cons_of_mem _ among, equal⟩

/-- How an operation ends: with an access outside an array, with an early return, or with a
value for the operation that follows. -/
inductive Outcome (σ α : Type) where
  | outOfRange
  | returned (state : σ)
  | done (value : α) (state : σ)

/-- An operation on a state. -/
def Operation (σ α : Type) := σ → Outcome σ α

namespace Operation

variable {σ α β : Type}

/-- Runs an operation and, unless it ended the whole, the one that follows. -/
def andThen (first : Operation σ α) (next : α → Operation σ β) : Operation σ β := fun state =>
  match first state with
  | .outOfRange => .outOfRange
  | .returned state => .returned state
  | .done value state => next value state

instance : Monad (Operation σ) where
  pure value := fun state => .done value state
  bind := andThen

/-- The value of an array computation. -/
def access (read : Access α) : Operation σ α := fun state =>
  match read with
  | none => .outOfRange
  | some value => .done value state

/-- The current state. -/
def current : Operation σ σ := fun state => .done state state

/-- Changes the state. -/
def update (change : σ → σ) : Operation σ Unit := fun state => .done () (change state)

/-- Returns early with a changed state. -/
def leave (change : σ → σ) : Operation σ α := fun state => .returned (change state)

/-- Returns early when `condition` holds. -/
def leaveIf (condition : Prop) [Decidable condition] (change : σ → σ) : Operation σ Unit :=
  fun state => if condition then .returned (change state) else .done () state

/-! ### Evaluation -/

@[simp] theorem pure_apply (value : α) (state : σ) :
    (pure value : Operation σ α) state = .done value state := rfl

@[simp] theorem current_apply (state : σ) : (current : Operation σ σ) state = .done state state :=
  rfl

@[simp] theorem update_apply (change : σ → σ) (state : σ) :
    update change state = .done () (change state) := rfl

@[simp] theorem leave_apply (change : σ → σ) (state : σ) :
    (leave change : Operation σ α) state = .returned (change state) := rfl

@[simp] theorem access_some (value : α) (state : σ) :
    (access (some value) : Operation σ α) state = .done value state := rfl

theorem leaveIf_pos {condition : Prop} [Decidable condition] {change : σ → σ} {state : σ}
    (holds : condition) : leaveIf condition change state = .returned (change state) := by
  simp [leaveIf, holds]

theorem leaveIf_neg {condition : Prop} [Decidable condition] {change : σ → σ} {state : σ}
    (fails : ¬condition) : leaveIf condition change state = .done () state := by
  simp [leaveIf, fails]

theorem bind_apply (first : Operation σ α) (next : α → Operation σ β) (state : σ) :
    (first >>= next) state = match first state with
      | .outOfRange => .outOfRange
      | .returned state => .returned state
      | .done value state => next value state := rfl

theorem bind_of_done {first : Operation σ α} {next : α → Operation σ β} {state after : σ}
    {value : α} (run : first state = .done value after) :
    (first >>= next) state = next value after := by
  rw [bind_apply, run]

theorem bind_of_returned {first : Operation σ α} {next : α → Operation σ β} {state after : σ}
    (run : first state = .returned after) : (first >>= next) state = .returned after := by
  rw [bind_apply, run]

/-! ### Inversion -/

end Operation

end Foundation

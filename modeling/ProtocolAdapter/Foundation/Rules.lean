/-
This file is a library of rules for operations. The unary rules show how one run of an
operation ends; the binary rules show that two runs, possibly of different operations on
different states, end alike. In both, an outcome that satisfies a rule's conclusion made
no access outside an array.
-/

import Mathlib.Data.List.Basic
import ProtocolAdapter.Foundation.Operation

namespace Foundation

variable {σ τ α β γ δ : Type}

/-! ### One run -/

/-- An outcome that is a value with a state that satisfy `done`, or an early return in a
state that satisfies `returned`. -/
inductive Ends (done : α → σ → Prop) (returned : σ → Prop) : Outcome σ α → Prop where
  | done {value : α} {state : σ} (holds : done value state) :
      Ends done returned (.done value state)
  | returned {state : σ} (holds : returned state) : Ends done returned (.returned state)

/-- Two outcomes that are both values, or both early returns, with related states. -/
inductive Together (done : α → σ → β → τ → Prop) (returned : σ → τ → Prop) :
    Outcome σ α → Outcome τ β → Prop where
  | done {left : α} {leftState : σ} {right : β} {rightState : τ}
      (holds : done left leftState right rightState) :
      Together done returned (.done left leftState) (.done right rightState)
  | returned {leftState : σ} {rightState : τ} (holds : returned leftState rightState) :
      Together done returned (.returned leftState) (.returned rightState)

namespace Operation

@[simp] theorem current_bind (next : σ → Operation σ α) (state : σ) :
    (current >>= next) state = next state state := rfl

@[simp] theorem update_bind (change : σ → σ) (next : Unit → Operation σ α) (state : σ) :
    (update change >>= next) state = next () (change state) := rfl

@[simp] theorem pure_bind_apply (value : α) (next : α → Operation σ β) (state : σ) :
    ((pure value : Operation σ α) >>= next) state = next value state := rfl

@[simp] theorem leave_bind (change : σ → σ) (next : α → Operation σ β) (state : σ) :
    ((leave change : Operation σ α) >>= next) state = .returned (change state) := rfl

theorem access_bind {read : Access α} {value : α} (found : read = some value)
    (next : α → Operation σ β) (state : σ) : (access read >>= next) state = next value state := by
  rw [found]
  rfl

theorem leaveIf_bind_neg {condition : Prop} [Decidable condition] (fails : ¬condition)
    (change : σ → σ) (next : Unit → Operation σ β) (state : σ) :
    (leaveIf condition change >>= next) state = next () state :=
  bind_of_done (leaveIf_neg fails)

theorem leaveIf_bind_pos {condition : Prop} [Decidable condition] (holds : condition)
    (change : σ → σ) (next : Unit → Operation σ β) (state : σ) :
    (leaveIf condition change >>= next) state = .returned (change state) :=
  bind_of_returned (leaveIf_pos holds)

end Operation

namespace Ends

open Operation

variable {done : α → σ → Prop} {returned : σ → Prop}

theorem mono {weakDone : α → σ → Prop} {weakReturned : σ → Prop} {outcome : Outcome σ α}
    (ends : Ends done returned outcome) (onDone : ∀ value state, done value state →
      weakDone value state) (onReturn : ∀ state, returned state → weakReturned state) :
    Ends weakDone weakReturned outcome := by
  cases ends with
  | done holds => exact .done (onDone _ _ holds)
  | returned holds => exact .returned (onReturn _ holds)

/-- The second part of a sequence runs in a state the first ends in. -/
theorem bind {middle : β → σ → Prop} {first : Operation σ β} {next : β → Operation σ α}
    {state : σ} (start : Ends middle returned (first state))
    (rest : ∀ value after, middle value after → Ends done returned (next value after)) :
    Ends done returned ((first >>= next) state) := by
  rw [bind_apply]
  cases outcome : first state with
  | outOfRange => rw [outcome] at start; cases start
  | returned after =>
    rw [outcome] at start
    cases start with
    | returned holds => exact .returned holds
  | done value after =>
    rw [outcome] at start
    cases start with
    | done holds => exact rest value after holds

theorem leaveIf {condition : Prop} [Decidable condition] {change : σ → σ}
    {next : Unit → Operation σ α} {state : σ} (leaves : condition → returned (change state))
    (stays : ¬condition → Ends done returned (next () state)) :
    Ends done returned ((Operation.leaveIf condition change >>= next) state) := by
  by_cases holds : condition
  · rw [leaveIf_bind_pos holds]
    exact .returned (leaves holds)
  · rw [leaveIf_bind_neg holds]
    exact stays holds

/-- A loop over a list keeps an invariant that depends on how many items it has passed. -/
theorem foldlM {step : β → γ → Operation σ β} : ∀ {items : List γ}
    {invariant : Nat → β → σ → Prop} {start : β} {state : σ}, invariant 0 start state →
      (∀ index item value before, items[index]? = some item → invariant index value before →
        Ends (invariant (index + 1)) returned (step value item before)) →
      Ends (invariant items.length) returned ((items.foldlM step start) state) := by
  intro items
  induction items with
  | nil => exact fun initial _ => .done initial
  | cons head rest inductionHypothesis =>
    intro invariant start state initial keeps
    rw [List.foldlM_cons]
    refine bind (keeps 0 head start state rfl initial) fun value after holds => ?_
    exact @inductionHypothesis (fun passed => invariant (passed + 1)) value after holds
      fun index item value before found =>
        keeps (index + 1) item value before (by simpa using found)

theorem forM {body : γ → Operation σ Unit} : ∀ {items : List γ} {invariant : Nat → σ → Prop}
    {state : σ}, invariant 0 state →
      (∀ index item before, items[index]? = some item → invariant index before →
        Ends (fun _ => invariant (index + 1)) returned (body item before)) →
      Ends (fun _ => invariant items.length) returned ((items.forM body) state) := by
  intro items
  induction items with
  | nil => exact fun initial _ => .done initial
  | cons head rest inductionHypothesis =>
    intro invariant state initial keeps
    show Ends _ _ ((body head >>= fun _ => rest.forM body) state)
    refine bind (keeps 0 head state rfl initial) fun _ after holds => ?_
    exact @inductionHypothesis (fun passed => invariant (passed + 1)) after holds
      fun index item before found => keeps (index + 1) item before (by simpa using found)

theorem foldlM_zipIdx {step : β → γ × Nat → Operation σ β} {items : List γ}
    {invariant : Nat → β → σ → Prop} {start : β} {state : σ} (initial : invariant 0 start state)
    (keeps : ∀ index item value before, items[index]? = some item → invariant index value before →
      Ends (invariant (index + 1)) returned (step value (item, index) before)) :
    Ends (invariant items.length) returned ((items.zipIdx.foldlM step start) state) := by
  have run := @foldlM _ _ _ returned step items.zipIdx invariant start state initial
    fun index item value before found => by
      rw [List.getElem?_zipIdx, Nat.zero_add, Option.map_eq_some_iff] at found
      obtain ⟨element, listed, rfl⟩ := found
      exact keeps index element value before listed
  rwa [List.length_zipIdx] at run

theorem forM_zipIdx {body : γ × Nat → Operation σ Unit} {items : List γ}
    {invariant : Nat → σ → Prop} {state : σ} (initial : invariant 0 state)
    (keeps : ∀ index item before, items[index]? = some item → invariant index before →
      Ends (fun _ => invariant (index + 1)) returned (body (item, index) before)) :
    Ends (fun _ => invariant items.length) returned ((items.zipIdx.forM body) state) := by
  have run := @forM _ _ returned body items.zipIdx invariant state initial
    fun index item before found => by
      rw [List.getElem?_zipIdx, Nat.zero_add, Option.map_eq_some_iff] at found
      obtain ⟨element, listed, rfl⟩ := found
      exact keeps index element before listed
  rwa [List.length_zipIdx] at run

end Ends

namespace Together

open Operation

variable {done : α → σ → β → τ → Prop} {returned : σ → τ → Prop}

theorem mono {weakDone : α → σ → β → τ → Prop} {weakReturned : σ → τ → Prop}
    {left : Outcome σ α} {right : Outcome τ β} (together : Together done returned left right)
    (onDone : ∀ value state other otherState, done value state other otherState →
      weakDone value state other otherState)
    (onReturn : ∀ state otherState, returned state otherState → weakReturned state otherState) :
    Together weakDone weakReturned left right := by
  cases together with
  | done holds => exact .done (onDone _ _ _ _ holds)
  | returned holds => exact .returned (onReturn _ _ holds)

theorem bind {middle : γ → σ → δ → τ → Prop} {first : Operation σ γ} {next : γ → Operation σ α}
    {second : Operation τ δ} {later : δ → Operation τ β} {left : σ} {right : τ}
    (start : Together middle returned (first left) (second right))
    (rest : ∀ value after other otherAfter, middle value after other otherAfter →
      Together done returned (next value after) (later other otherAfter)) :
    Together done returned ((first >>= next) left) ((second >>= later) right) := by
  rw [bind_apply, bind_apply]
  cases leftOutcome : first left <;> cases rightOutcome : second right <;>
    rw [leftOutcome, rightOutcome] at start <;> cases start
  · rename_i holds
    exact .returned holds
  · rename_i holds
    exact rest _ _ _ _ holds

/-- Both runs leave, or both go on. -/
theorem leaveIf {condition other : Prop} [Decidable condition] [Decidable other]
    {change : σ → σ} {otherChange : τ → τ} {next : Unit → Operation σ α}
    {later : Unit → Operation τ β} {left : σ} {right : τ} (same : condition ↔ other)
    (leaves : condition → other → returned (change left) (otherChange right))
    (stays : ¬condition → ¬other → Together done returned (next () left) (later () right)) :
    Together done returned ((Operation.leaveIf condition change >>= next) left)
      ((Operation.leaveIf other otherChange >>= later) right) := by
  by_cases holds : condition
  · rw [leaveIf_bind_pos holds, leaveIf_bind_pos (same.mp holds)]
    exact .returned (leaves holds (same.mp holds))
  · rw [leaveIf_bind_neg holds, leaveIf_bind_neg (mt same.mpr holds)]
    exact stays holds (mt same.mpr holds)

theorem forM {body : γ → Operation σ Unit} {otherBody : γ → Operation τ Unit} :
    ∀ {items : List γ} {invariant : Nat → σ → τ → Prop} {left : σ} {right : τ},
      invariant 0 left right →
      (∀ index item before otherBefore, items[index]? = some item →
        invariant index before otherBefore →
          Together (fun _ after _ otherAfter => invariant (index + 1) after otherAfter) returned
            (body item before) (otherBody item otherBefore)) →
      Together (fun _ after _ otherAfter => invariant items.length after otherAfter) returned
        ((items.forM body) left) ((items.forM otherBody) right) := by
  intro items
  induction items with
  | nil => exact fun initial _ => .done initial
  | cons head rest inductionHypothesis =>
    intro invariant left right initial keeps
    show Together _ _ ((body head >>= fun _ => rest.forM body) left)
      ((otherBody head >>= fun _ => rest.forM otherBody) right)
    refine bind (keeps 0 head left right rfl initial) fun _ after _ otherAfter holds => ?_
    exact @inductionHypothesis (fun passed => invariant (passed + 1)) after otherAfter holds
      fun index item before otherBefore found =>
        keeps (index + 1) item before otherBefore (by simpa using found)

theorem forM_zipIdx {body : γ × Nat → Operation σ Unit} {otherBody : γ × Nat → Operation τ Unit}
    {items : List γ} {invariant : Nat → σ → τ → Prop} {left : σ} {right : τ}
    (initial : invariant 0 left right)
    (keeps : ∀ index item before otherBefore, items[index]? = some item →
      invariant index before otherBefore →
        Together (fun _ after _ otherAfter => invariant (index + 1) after otherAfter) returned
          (body (item, index) before) (otherBody (item, index) otherBefore)) :
    Together (fun _ after _ otherAfter => invariant items.length after otherAfter) returned
      ((items.zipIdx.forM body) left) ((items.zipIdx.forM otherBody) right) := by
  have run := @forM _ _ _ returned body otherBody items.zipIdx invariant left right initial
    fun index item before otherBefore found => by
      rw [List.getElem?_zipIdx, Nat.zero_add, Option.map_eq_some_iff] at found
      obtain ⟨element, listed, rfl⟩ := found
      exact keeps index element before otherBefore listed
  rwa [List.length_zipIdx] at run

end Together

end Foundation

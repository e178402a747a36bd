/-
This file is a library about machines that answer calls one after the other: a call gets an
outcome and leaves a state, or it gets no answer. A trace is the calls of a run with their
outcomes. What one call keeps, a run keeps; what every call updates, a run has updated by all of
them; and a part of the state that only some calls read and write sees a run as the run of these
calls alone.
-/

import Mathlib.Data.List.Basic

namespace Foundation

section

variable {State Call Outcome : Type}

/-- Answers a call in a state, and goes to the next state. -/
abbrev Machine (State Call Outcome : Type) := State → Call → Option (Outcome × State)

/-- Makes calls one after the other. -/
def Machine.run (machine : Machine State Call Outcome) (state : State) :
    List Call → Option (List Outcome × State)
  | [] => some ([], state)
  | call :: rest => do
    let (outcome, next) ← machine state call
    let (outcomes, last) ← machine.run next rest
    some (outcome :: outcomes, last)

/-- The calls of a run with their outcomes, from a state to a state. -/
inductive Trace (machine : Machine State Call Outcome) :
    State → List (Call × Outcome) → State → Prop
  | nil (state : State) : Trace machine state [] state
  | cons {state next last : State} {call : Call} {outcome : Outcome}
      {events : List (Call × Outcome)} (ran : machine state call = some (outcome, next))
      (later : Trace machine next events last) :
      Trace machine state ((call, outcome) :: events) last

variable {machine : Machine State Call Outcome} {state last : State}

/-! ### Runs and traces -/

/-- A run has the trace of its calls with their outcomes. -/
theorem Machine.run_trace {calls : List Call} : ∀ {state : State} {outcomes : List Outcome},
    machine.run state calls = some (outcomes, last) →
      outcomes.length = calls.length ∧ Trace machine state (calls.zip outcomes) last := by
  induction calls with
  | nil =>
    intro state outcomes ran
    cases ran
    exact ⟨rfl, .nil _⟩
  | cons call rest inductionHypothesis =>
    intro state outcomes ran
    unfold Machine.run at ran
    obtain ⟨⟨outcome, next⟩, first, ran⟩ := Option.bind_eq_some_iff.mp ran
    obtain ⟨⟨others, final⟩, later, same⟩ := Option.bind_eq_some_iff.mp ran
    cases same
    obtain ⟨length, trace⟩ := inductionHypothesis later
    exact ⟨congrArg Nat.succ length, .cons first trace⟩

/-- The calls of a trace run with its outcomes. -/
theorem Trace.run {events : List (Call × Outcome)} (trace : Trace machine state events last) :
    machine.run state (events.map Prod.fst) = some (events.map Prod.snd, last) := by
  induction trace with
  | nil state => rfl
  | cons ran later inductionHypothesis =>
    simp only [List.map_cons, Machine.run, ran, inductionHypothesis, Option.bind_eq_bind,
      Option.bind_some]

/-- A trace passes through a state between two of its parts. -/
theorem Trace.split {events others : List (Call × Outcome)} : ∀ {state : State},
    Trace machine state (events ++ others) last →
      ∃ middle, Trace machine state events middle ∧ Trace machine middle others last := by
  induction events with
  | nil => exact fun {state} trace => ⟨state, .nil state, trace⟩
  | cons event rest inductionHypothesis =>
    intro state trace
    cases trace with
    | cons ran later =>
      obtain ⟨middle, first, second⟩ := inductionHypothesis later
      exact ⟨middle, .cons ran first, second⟩

/-- A trace goes on with another one. -/
theorem Trace.append {middle : State} {events others : List (Call × Outcome)}
    (first : Trace machine state events middle) (second : Trace machine middle others last) :
    Trace machine state (events ++ others) last := by
  induction first with
  | nil state => exact second
  | cons ran later inductionHypothesis => exact .cons ran (inductionHypothesis second)

/-- An event of a trace is a step between two parts of it. -/
theorem Trace.step {events : List (Call × Outcome)} {event : Call × Outcome}
    (trace : Trace machine state events last) (member : event ∈ events) :
    ∃ earlier later before after, events = earlier ++ event :: later ∧
      Trace machine state earlier before ∧ machine before event.1 = some (event.2, after) ∧
        Trace machine after later last := by
  obtain ⟨earlier, later, rfl⟩ := List.append_of_mem member
  obtain ⟨before, first, second⟩ := trace.split
  cases second with
  | cons ran rest => exact ⟨earlier, later, before, _, rfl, first, ran, rest⟩

/-! ### Invariants and observations -/

/-- What every event updates beside the state has been updated by all events of a run. -/
theorem Trace.history {History : Type} {Holds : State → History → Prop}
    {update : History → Call × Outcome → History}
    (keeps : ∀ {state next call outcome history}, Holds state history →
      machine state call = some (outcome, next) → Holds next (update history (call, outcome)))
    {events : List (Call × Outcome)} (trace : Trace machine state events last) :
    ∀ {history : History}, Holds state history → Holds last (events.foldl update history) := by
  induction trace with
  | nil state => exact id
  | cons ran later inductionHypothesis =>
    intro history held
    rw [List.foldl_cons]
    exact inductionHypothesis (keeps held ran)

/-- What every event updates has been updated by all events of a run. -/
theorem Trace.observed {Holds : State → Prop} {View : Type} {view : State → View}
    {update : View → Call × Outcome → View}
    (keeps : ∀ {state next call outcome}, Holds state → machine state call = some (outcome, next) →
      Holds next ∧ view next = update (view state) (call, outcome))
    {events : List (Call × Outcome)} (trace : Trace machine state events last)
    (start : Holds state) : Holds last ∧ view last = events.foldl update (view state) := by
  refine @Trace.history _ _ _ machine state last View
    (fun state history => Holds state ∧ view state = history) update ?_ events trace _ ⟨start, rfl⟩
  rintro state next call outcome history ⟨held, rfl⟩ ran
  exact keeps held ran

/-! ### Components -/

/-- A view of the state is separate from the calls that do not concern it: those leave it, and
the calls that concern it read and write nothing else. -/
structure Separates (machine : Machine State Call Outcome) {View : Type} (Holds : State → Prop)
    (concerns : Call → Bool) (view : State → View) : Prop where
  keeps : ∀ {state next call outcome}, Holds state → machine state call = some (outcome, next) →
    Holds next
  leaves : ∀ {state next call outcome}, Holds state → concerns call = false →
    machine state call = some (outcome, next) → view next = view state
  reads : ∀ {state other next call outcome}, Holds state → Holds other → concerns call = true →
    view state = view other → machine state call = some (outcome, next) →
      ∃ after, machine other call = some (outcome, after) ∧ view next = view after

/-- The calls that concern a view have in a run the outcomes they have alone, and leave the same
view. -/
theorem Separates.project {View : Type} {Holds : State → Prop} {concerns : Call → Bool}
    {view : State → View} (separates : Separates machine Holds concerns view)
    {events : List (Call × Outcome)} (trace : Trace machine state events last) :
    Holds state → ∀ {other : State}, Holds other → view state = view other →
      ∃ final, Trace machine other (events.filter fun event => concerns event.1) final ∧
        view last = view final := by
  induction trace with
  | nil state => exact fun _ {other} _ same => ⟨other, .nil other, same⟩
  | @cons state next last call outcome events ran later inductionHypothesis =>
    intro holds other holdsOther same
    cases concerned : concerns call with
    | false =>
      rw [List.filter_cons_of_neg (by simp [concerned])]
      exact inductionHypothesis (separates.keeps holds ran) holdsOther
        ((separates.leaves holds concerned ran).trans same)
    | true =>
      obtain ⟨after, alone, seen⟩ := separates.reads holds holdsOther concerned same ran
      obtain ⟨final, rest, equal⟩ := inductionHypothesis (separates.keeps holds ran)
        (separates.keeps holdsOther alone) seen
      rw [List.filter_cons_of_pos (by simp [concerned])]
      exact ⟨final, .cons alone rest, equal⟩

end

end Foundation

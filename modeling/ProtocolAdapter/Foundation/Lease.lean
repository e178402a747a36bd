/-
This file is a library about leases: a resource is used in generations, and a fault keeps it from
being used until it is renewed. A renewal ends a generation for good, so a ticket for a generation
is good exactly as long as the resource is not renewed.
-/

import Mathlib.Data.List.Basic

namespace Foundation

/-- The state of a resource: its generation, and whether it is faulted. -/
structure Lease where
  generation : Nat := 1
  faulted : Bool := false
  deriving DecidableEq

/-- What happens to a resource. -/
inductive LeaseEvent where
  | renewed
  | failed
  | nothing
  deriving DecidableEq

/-- The resource after an event. -/
def Lease.after (lease : Lease) : LeaseEvent → Lease
  | .renewed => { generation := lease.generation + 1 }
  | .failed => { lease with faulted := true }
  | .nothing => lease

/-- The resource after events. -/
def Lease.through (lease : Lease) (events : List LeaseEvent) : Lease :=
  events.foldl Lease.after lease

@[simp] theorem Lease.through_nil (lease : Lease) : lease.through [] = lease := rfl

@[simp] theorem Lease.through_cons (lease : Lease) (event : LeaseEvent) (events : List LeaseEvent) :
    lease.through (event :: events) = (lease.after event).through events := rfl

/-- The generation counts the renewals. -/
theorem Lease.through_generation (lease : Lease) (events : List LeaseEvent) :
    (lease.through events).generation = lease.generation + events.count .renewed := by
  induction events generalizing lease with
  | nil => rfl
  | cons event rest inductionHypothesis =>
    rw [through_cons, inductionHypothesis]
    cases event with
    | renewed => rw [List.count_cons_self, after, Nat.add_assoc, Nat.add_comm 1]
    | failed => rw [List.count_cons_of_ne (by decide), after]
    | nothing => rw [List.count_cons_of_ne (by decide), after]

/-- A resource is faulted when it has failed since its last renewal. -/
theorem Lease.through_faulted (lease : Lease) (events : List LeaseEvent) :
    (lease.through events).faulted = true ↔
      (lease.faulted = true ∧ .renewed ∉ events) ∨
        ∃ earlier later, events = earlier ++ .failed :: later ∧ .renewed ∉ later := by
  induction events generalizing lease with
  | nil => simp
  | cons event rest inductionHypothesis =>
    rw [through_cons, inductionHypothesis]
    have behind : (∃ earlier later, event :: rest = earlier ++ .failed :: later ∧
        LeaseEvent.renewed ∉ later) ↔ (event = .failed ∧ .renewed ∉ rest) ∨
          ∃ earlier later, rest = earlier ++ .failed :: later ∧ .renewed ∉ later := by
      constructor
      · rintro ⟨earlier, later, same, kept⟩
        cases earlier with
        | nil =>
          obtain ⟨rfl, rfl⟩ := List.cons.inj same
          exact .inl ⟨rfl, kept⟩
        | cons first earlier =>
          obtain ⟨rfl, rfl⟩ := List.cons.inj same
          exact .inr ⟨earlier, later, rfl, kept⟩
      · rintro (⟨rfl, kept⟩ | ⟨earlier, later, rfl, kept⟩)
        · exact ⟨[], rest, rfl, kept⟩
        · exact ⟨event :: earlier, later, rfl, kept⟩
    rw [behind]
    cases event with
    | renewed => simp [after]
    | nothing => simp [after]
    | failed =>
      simp only [after, true_and]
      constructor
      · exact .inr
      · rintro (⟨-, kept⟩ | failed)
        · exact .inl fun member => kept (List.mem_cons_of_mem _ member)
        · exact failed

/-- A ticket for the present generation is good exactly as long as there is no renewal. -/
theorem Lease.through_current (lease : Lease) (events : List LeaseEvent) :
    (lease.through events).generation = lease.generation ↔ .renewed ∉ events := by
  rw [through_generation, Nat.add_eq_left, List.count_eq_zero]

end Foundation

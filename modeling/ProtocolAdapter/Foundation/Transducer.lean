/-
This file states when a machine that reads a stream piecemeal agrees with a
function on whole streams. The meaning of a machine state is the list of events it
still owes for every possible rest of the stream. A stretch of a run advances one
meaning to another when the events it emits are exactly the difference, whatever
follows; stretches compose, and what has been emitted is always a prefix of the
events of the stream read so far.
-/

import Mathlib.Data.List.Infix

namespace Foundation

variable {α ε : Type}

/-- The events owed for each rest of the stream. -/
abbrev StreamMeaning (α ε : Type) := List α → List ε

/-- Reading `consumed` and emitting `emitted` leads from `before` to `after`. -/
def Advances (before : StreamMeaning α ε) (consumed : List α) (emitted : List ε)
    (after : StreamMeaning α ε) : Prop :=
  ∀ rest, before (consumed ++ rest) = emitted ++ after rest

theorem Advances.refl (meaning : StreamMeaning α ε) : Advances meaning [] [] meaning :=
  fun _ => rfl

/-- Consecutive stretches compose. -/
theorem Advances.trans {first second third : StreamMeaning α ε} {consumed more : List α}
    {emitted later : List ε} (left : Advances first consumed emitted second)
    (right : Advances second more later third) :
    Advances first (consumed ++ more) (emitted ++ later) third := by
  intro rest
  rw [List.append_assoc, left, right, List.append_assoc]

/-- The events of the stream read so far are the emitted ones and the owed ones. -/
theorem Advances.emitted_append {before after : StreamMeaning α ε} {consumed : List α}
    {emitted : List ε} (advances : Advances before consumed emitted after) :
    before consumed = emitted ++ after [] := by
  have whole := advances []
  rwa [List.append_nil] at whole

end Foundation

/-
This file shows that a walk over a valid text template reads only inside its arrays: the
prefix tables lead the search for a literal to shorter prefixes only, the walk never
leaves the input, and it meets only fields of its message. Two walks whose visitors do
alike walk alike.
-/

import ProtocolAdapter.Codec.FrozenPlan

namespace ProtocolAdapter.Codec

open Foundation

/-! ### Finding a literal -/

/-- Falling back reads inside the prefix table and ends with a prefix no longer. -/
theorem fallbackLiteral_inside {literal : TextSegmentExecutionPlan} (byte : UInt8)
    (table : PrefixTable.IsPrefixTable literal.literal literal.prefixTable) :
    ∀ {fuel matched : Nat}, matched ≤ fuel → matched < literal.literal.length →
      ∃ reached, fallbackLiteral literal byte (fuel + 1) matched = some reached ∧
        reached ≤ matched := by
  intro fuel
  induction fuel with
  | zero =>
    intro matched bound inside
    obtain rfl := Nat.le_zero.mp bound
    exact ⟨0, rfl, le_rfl⟩
  | succ fuel inductionHypothesis =>
    intro matched bound inside
    unfold fallbackLiteral
    split
    · exact ⟨0, rfl, Nat.zero_le _⟩
    rename_i positive
    rw [List.getElem?_eq_getElem inside]
    by_cases same : byte ≠ literal.literal[matched]
    · have within : matched - 1 < literal.prefixTable.length := by
        rw [table.length_eq]
        omega
      have shorter : literal.prefixTable.getD (matched - 1) 0 < matched - 1 + 1 :=
        table.correct.entry_lt (by omega) (by omega)
      rw [List.getD_eq_getElem _ _ within] at shorter
      obtain ⟨reached, run, least⟩ := @inductionHypothesis literal.prefixTable[matched - 1]
        (by omega) (by omega)
      refine ⟨reached, ?_, by omega⟩
      simp only [Option.bind_eq_bind, Option.bind_some, if_pos same,
        List.getElem?_eq_getElem within, run]
    · refine ⟨matched, ?_, le_rfl⟩
      simp only [Option.bind_eq_bind, Option.bind_some, if_neg same]

theorem advanceLiteral_inside {literal : TextSegmentExecutionPlan} (byte : UInt8)
    (table : PrefixTable.IsPrefixTable literal.literal literal.prefixTable) {matched : Nat}
    (inside : matched < literal.literal.length) :
    ∃ next, advanceLiteral literal matched byte = some next ∧ next ≤ literal.literal.length := by
  obtain ⟨reached, run, least⟩ := fallbackLiteral_inside byte table inside.le inside
  have within : reached < literal.literal.length := by omega
  unfold advanceLiteral
  simp only [run, Option.bind_eq_bind, Option.bind_some, List.getElem?_eq_getElem within]
  refine ⟨_, rfl, ?_⟩
  split <;> omega

/-- A scan reads the bytes it is given; what it finds lies before the end of them. -/
theorem scanLiteral_inside {literal : TextSegmentExecutionPlan} {byteAt : Nat → Access UInt8}
    (table : PrefixTable.IsPrefixTable literal.literal literal.prefixTable) :
    ∀ {remaining index matched : Nat}, matched < literal.literal.length →
      (∀ position, index ≤ position → position < index + remaining →
        ∃ byte, byteAt position = some byte) →
      ∃ result, scanLiteral literal byteAt remaining index matched = some result ∧
        ∀ found, result = some found → found ≤ index + remaining := by
  intro remaining
  induction remaining with
  | zero => exact fun _ _ => ⟨none, rfl, by simp⟩
  | succ remaining inductionHypothesis =>
    intro index matched inside readable
    obtain ⟨byte, read⟩ := readable index le_rfl (by omega)
    obtain ⟨next, advanced, least⟩ := advanceLiteral_inside byte table inside
    unfold scanLiteral
    simp only [read, advanced, Option.bind_eq_bind, Option.bind_some]
    by_cases whole : next = literal.literal.length
    · rw [if_pos whole]
      refine ⟨_, rfl, fun found same => ?_⟩
      have := Option.some.inj same
      omega
    · rw [if_neg whole]
      obtain ⟨result, run, bounded⟩ := @inductionHypothesis (index + 1) next (by omega)
        fun position above below => readable position (by omega) (by omega)
      refine ⟨result, run, fun found same => ?_⟩
      have := bounded found same
      omega

/-- A literal is found inside the input. -/
theorem findTextLiteral_inside {literal : TextSegmentExecutionPlan}
    (table : PrefixTable.IsPrefixTable literal.literal literal.prefixTable) (input : List UInt8)
    (start maximum : Nat) :
    ∃ result, findTextLiteral input start maximum literal = some result ∧
      ∀ found, result = some found → found ≤ input.length := by
  unfold findTextLiteral
  split
  · exact ⟨none, rfl, by simp⟩
  rename_i searchable
  simp only [not_or] at searchable
  obtain ⟨nonempty, -, within⟩ := searchable
  have upTo : ∀ stop, stop ≤ input.length → ∃ result,
      scanLiteral literal (input[·]?) (stop - start) start 0 = some result ∧
        ∀ found, result = some found → found ≤ input.length := by
    intro stop least
    have readable : ∀ position, start ≤ position → position < start + (stop - start) →
        ∃ byte, input[position]? = some byte :=
      fun position above below => ⟨_, List.getElem?_eq_getElem (by omega)⟩
    obtain ⟨result, run, bounded⟩ := scanLiteral_inside table (List.length_pos_iff.mpr nonempty)
      readable
    refine ⟨result, run, fun found same => ?_⟩
    have := bounded found same
    omega
  refine upTo _ ?_
  split <;> omega

/-- A literal is searched in a value and in itself behind the value. -/
theorem findFirstAcrossBoundary_inside {literal : TextSegmentExecutionPlan}
    (table : PrefixTable.IsPrefixTable literal.literal literal.prefixTable)
    (nonempty : literal.literal ≠ []) (value : List UInt8) :
    ∃ result, findFirstAcrossBoundary value literal = some result := by
  obtain ⟨result, run, -⟩ := @scanLiteral_inside literal
    (fun index => if index < value.length then value[index]?
      else literal.literal[index - value.length]?) table
    (value.length + literal.literal.length) 0 0 (List.length_pos_iff.mpr nonempty)
    fun position _ below => by
      split
      · exact ⟨_, List.getElem?_eq_getElem (by assumption)⟩
      · exact ⟨_, List.getElem?_eq_getElem (by omega)⟩
  exact ⟨result, run⟩

/-! ### The walk -/

theorem literalMatches_inside {input : List UInt8} : ∀ {literal : List UInt8} {cursor : Nat},
    cursor + literal.length ≤ input.length →
      ∃ matching, literalMatches input cursor literal = some matching
  | [], _, _ => ⟨true, rfl⟩
  | expected :: rest, cursor, within => by
    rw [List.length_cons] at within
    unfold literalMatches
    rw [List.getElem?_eq_getElem (by omega)]
    simp only [Option.bind_eq_bind, Option.bind_some]
    split
    · exact ⟨false, rfl⟩
    · exact literalMatches_inside (by omega)

theorem charactersAllowed_inside {field : FieldExecutionPlan} {input : List UInt8} :
    ∀ {remaining index : Nat}, index + remaining ≤ input.length →
      ∃ allowed, charactersAllowed field input remaining index = some allowed
  | 0, _, _ => ⟨true, rfl⟩
  | remaining + 1, index, within => by
    unfold charactersAllowed
    rw [List.getElem?_eq_getElem (by omega)]
    simp only [Option.bind_eq_bind, Option.bind_some]
    split
    · exact ⟨false, rfl⟩
    · exact charactersAllowed_inside (by omega)

/-- The length of a field is found inside the input, or the record does not match. -/
theorem textFieldLength_inside {bounds : List (Nat × Nat)} {segment : TextSegmentExecutionPlan}
    {rest : List TextSegmentExecutionPlan} {field : FieldExecutionPlan} {input : List UInt8}
    {cursor : Nat} (within : cursor ≤ input.length) (kind : segment.kind = .field)
    (found : bounds[segment.fieldIndex]? = some field.textBounds)
    (valid : SegmentsValid bounds (segment :: rest)) :
    ∃ result, textFieldLength field input cursor rest = some result ∧
      (result = .error .noMatch ∨
        ∃ length, result = .ok length ∧ cursor + length ≤ input.length) := by
  obtain ⟨first, later⟩ := valid
  simp only [SegmentValid, kind, found, Option.some.injEq, exists_eq_left'] at first
  obtain ⟨-, ends⟩ := first
  unfold textFieldLength
  split
  · rename_i fixed
    refine ⟨_, rfl, ?_⟩
    split
    · exact Or.inl rfl
    · exact Or.inr ⟨_, rfl, by omega⟩
  rename_i varies
  cases rest with
  | nil => exact ⟨_, rfl, Or.inr ⟨_, rfl, by omega⟩⟩
  | cons terminator rest =>
    have literal : terminator.kind = .literal := ends varies terminator rfl
    have table := later.1
    simp only [SegmentValid, literal] at table
    obtain ⟨result, run, bounded⟩ :=
      findTextLiteral_inside table.2 input cursor field.textMaxLength
    simp only [literal, ne_eq, not_true_eq_false, if_false, run, Option.bind_eq_bind,
      Option.bind_some]
    cases result with
    | none => exact ⟨_, rfl, Or.inl rfl⟩
    | some position =>
      have inside := bounded position rfl
      exact ⟨_, rfl, Or.inr ⟨_, rfl, by omega⟩⟩

section

variable {σ τ : Type} {message : MessageExecutionPlan} {input : List UInt8}
  {visitor : σ → Nat → Nat → Nat → Access (σ × Bool)}
  {other : τ → Nat → Nat → Nat → Access (τ × Bool)}

/-- What two visitors do with a field: they keep an invariant, or both refuse the field,
which `refusal` says they may. -/
def VisitAlike (invariant : Nat → σ → τ → Prop) (refusal : Prop)
    (visitor : σ → Nat → Nat → Nat → Access (σ × Bool))
    (other : τ → Nat → Nat → Nat → Access (τ × Bool))
    (visited fieldIndex offset length : Nat) : Prop :=
  ∀ left right, invariant visited left right → ∃ next otherNext taken,
    visitor left fieldIndex offset length = some (next, taken) ∧
      other right fieldIndex offset length = some (otherNext, taken) ∧
      (taken = true → invariant (visited + 1) next otherNext) ∧ (taken = false → refusal) ∧
      (taken = false → invariant visited next otherNext)

/-- Two walks end alike. A walk that matches has visited every field of the template. -/
def WalkAlike (invariant : Nat → σ → τ → Prop) (refusal : Prop) (total : Nat)
    (walk : Access (TextWalkStatus × σ)) (otherWalk : Access (TextWalkStatus × τ)) : Prop :=
  ∃ status left right, walk = some (status, left) ∧ otherWalk = some (status, right) ∧
    (status = .invalidPlan → refusal) ∧ (status = .match → invariant total left right) ∧
    ∃ visited, visited ≤ total ∧ invariant visited left right

theorem WalkAlike.stopped {invariant : Nat → σ → τ → Prop} {refusal : Prop} {total : Nat}
    {status : TextWalkStatus} {left : σ} {right : τ} (start : invariant 0 left right)
    (planned : status ≠ .invalidPlan) (unmatched : status ≠ .match) :
    WalkAlike invariant refusal total (some (status, left)) (some (status, right)) :=
  ⟨status, left, right, rfl, rfl, fun wrong => absurd wrong planned,
    fun wrong => absurd wrong unmatched, 0, Nat.zero_le _, start⟩

/-- Walks over valid segments with visitors that do alike end alike. -/
theorem walkSegments_alike {refusal : Prop} {validate : Bool} :
    ∀ {segments : List TextSegmentExecutionPlan} {cursor : Nat}
      {invariant : Nat → σ → τ → Prop} {left : σ} {right : τ},
      SegmentsValid (message.fields.map (·.textBounds)) segments → cursor ≤ input.length →
      invariant 0 left right →
      (∀ visited fieldIndex offset length, (referencedFields segments)[visited]? = some fieldIndex →
        offset + length ≤ input.length →
          VisitAlike invariant refusal visitor other visited fieldIndex offset length) →
      WalkAlike invariant refusal (referencedFields segments).length
        (walkSegments message input validate visitor segments cursor left)
        (walkSegments message input validate other segments cursor right) := by
  intro segments
  induction segments with
  | nil =>
    intro cursor invariant left right _ _ start _
    unfold walkSegments
    refine ⟨_, left, right, rfl, rfl, ?_, fun _ => start, 0, le_rfl, start⟩
    split <;> simp
  | cons segment rest inductionHypothesis =>
    intro cursor invariant left right valid within start alike
    unfold walkSegments
    cases kind : segment.kind with
    | literal =>
      simp only
      split
      · exact .stopped start (by simp) (by simp)
      rename_i fits
      simp only [not_or] at fits
      obtain ⟨matching, compared⟩ := @literalMatches_inside input segment.literal cursor (by omega)
      have references : referencedFields (segment :: rest) = referencedFields rest := by
        simp [referencedFields, kind]
      simp only [compared, Option.bind_eq_bind, Option.bind_some, references]
      cases matching with
      | false => exact .stopped start (by simp) (by simp)
      | true =>
        exact inductionHypothesis valid.2 (by omega) start
          fun visited fieldIndex offset length found => alike visited fieldIndex offset length
            (references ▸ found)
    | field =>
      have references : referencedFields (segment :: rest) =
          segment.fieldIndex :: referencedFields rest := by
        simp [referencedFields, kind]
      obtain ⟨bound, listed⟩ := segments_referenced valid (references ▸ List.mem_cons_self)
      rw [List.getElem?_map, Option.map_eq_some_iff] at listed
      obtain ⟨field, found, rfl⟩ := listed
      have measured := textFieldLength_inside within kind (by rw [List.getElem?_map, found]; rfl)
        valid
      obtain ⟨result, run, outcome⟩ := measured
      simp only [found, run, Option.bind_eq_bind, Option.bind_some]
      rcases outcome with rfl | ⟨length, rfl, inside⟩
      · exact .stopped start (by simp) (by simp)
      simp only
      split
      · exact .stopped start (by simp) (by simp)
      have visit : WalkAlike invariant refusal (referencedFields (segment :: rest)).length
          (Option.bind (visitor left segment.fieldIndex cursor length) fun step =>
            if step.2 = false then some (.invalidPlan, step.1)
            else walkSegments message input validate visitor rest (cursor + length) step.1)
          (Option.bind (other right segment.fieldIndex cursor length) fun step =>
            if step.2 = false then some (.invalidPlan, step.1)
            else walkSegments message input validate other rest (cursor + length) step.1) := by
        obtain ⟨next, otherNext, taken, leftVisit, rightVisit, onward, refused, kept⟩ :=
          alike 0 segment.fieldIndex cursor length (by rw [references]; rfl) inside left right start
        rw [leftVisit, rightVisit, references]
        cases taken with
        | false =>
          exact ⟨_, next, otherNext, rfl, rfl, fun _ => refused rfl, by simp, 0, Nat.zero_le _,
            kept rfl⟩
        | true =>
          obtain ⟨status, leftEnd, rightEnd, leftWalk, rightWalk, planned, whole, visited, least,
            holds⟩ := @inductionHypothesis (cursor + length)
              (fun visited => invariant (visited + 1)) next otherNext valid.2 inside (onward rfl)
              fun visited fieldIndex offset length found => alike (visited + 1) fieldIndex offset
                length (by rw [references]; simpa using found)
          exact ⟨status, leftEnd, rightEnd, leftWalk, rightWalk, planned, whole, visited + 1,
            Nat.succ_le_succ least, holds⟩
      split
      · obtain ⟨allowed, checked⟩ := @charactersAllowed_inside field input length cursor inside
        simp only [checked, Option.bind_some]
        split
        · exact .stopped start (by simp) (by simp)
        · exact visit
      · exact visit

/-- Walks over a valid action with visitors that do alike end alike. -/
theorem walkTextAction_alike {refusal : Prop} {validate : Bool} {action : TextActionExecutionPlan}
    {invariant : Nat → σ → τ → Prop} {left : σ} {right : τ}
    (valid : TextActionValid message action) (start : invariant 0 left right)
    (alike : ∀ visited fieldIndex offset length,
      (referencedFields action.segments)[visited]? = some fieldIndex →
        offset + length ≤ input.length →
          VisitAlike invariant refusal visitor other visited fieldIndex offset length) :
    WalkAlike invariant refusal (referencedFields action.segments).length
      (walkTextAction action message input validate visitor left)
      (walkTextAction action message input validate other right) := by
  unfold walkTextAction
  split
  · exact .stopped start (by simp) (by simp)
  · exact walkSegments_alike valid.walkable.segments (Nat.zero_le _) start alike

/-- A walk that only accepts ends, and never for want of a valid plan. -/
theorem walkTextAction_accepts {validate : Bool} {action : TextActionExecutionPlan}
    (valid : TextActionValid message action) :
    ∃ status, walkTextAction action message input validate acceptField () = some (status, ()) ∧
      status ≠ .invalidPlan := by
  have alike := @walkTextAction_alike Unit Unit message input acceptField acceptField False
    validate action (fun _ _ _ => True) () () valid trivial fun _ _ _ _ _ _ _ _ _ =>
      ⟨(), (), true, rfl, rfl, fun _ => trivial, Bool.noConfusion, fun _ => trivial⟩
  obtain ⟨status, _, _, walked, -, planned, -⟩ := alike
  exact ⟨status, walked, planned⟩

end

end ProtocolAdapter.Codec

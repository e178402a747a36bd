/-
This file inverts the loop of the builder over the fields of a message. A loop that
succeeded placed every field, so its variables after any number of fields are a function
of those fields: counts of inputs and conversions, enumeration entries behind each
other, the intervals of the fields, and for each container the tally of its members.
-/

import ProtocolAdapter.Builder.Fields
import Mathlib.Data.List.Induction

namespace ProtocolAdapter

open Foundation

/-! ### The loop as a function -/

/-- What every check of one round has established. -/
structure FieldPrepared (context : FieldContext) (state : FieldLoopState) (field : FieldPlan)
    (placement : FieldPlacement) : Prop where
  placed : placeField context.message field = some placement
  bounded : boundedFieldInvalid context.message state.fields.length field placement = false
  typed : fieldTypeInvalid context state.fields.length field placement.width = false
  conversion : conversionReferenceInvalid context field = false
  apart : memberOverlaps state field placement = false
  entries : enumEntriesInvalid field placement.width = false

/-- One round that succeeded. -/
theorem prepareField_ok {context : FieldContext} {state next : FieldLoopState} {field : FieldPlan}
    (run : prepareField context state field = .ok next) :
    ∃ placement, FieldPrepared context state field placement ∧
      next = state.extend field placement := by
  simp only [prepareField, rejectIf_bind_eq_ok] at run
  obtain ⟨-, run⟩ := run
  split at run
  · cases run
  · rename_i placement placed
    simp only [rejectIf_bind_eq_ok, Bool.not_eq_true, pure_eq_ok] at run
    obtain ⟨bounded, typed, conversion, apart, entries, same⟩ := run
    exact ⟨placement, ⟨placed, bounded, typed, conversion, apart, entries⟩, same.symm⟩

/-- The variables after one more field, given that it has a place. -/
def FieldLoopState.step (message : MessagePlan) (state : FieldLoopState) (field : FieldPlan) :
    FieldLoopState :=
  match placeField message field with
  | some placement => state.extend field placement
  | none => state

/-- The variables after the given fields. -/
def fieldLoop (message : MessagePlan) (counts : List Nat) (fields : List FieldPlan) :
    FieldLoopState :=
  fields.foldl (FieldLoopState.step message) (initialFieldLoop message counts)

theorem fieldLoop_append_singleton {message : MessagePlan} {counts : List Nat}
    {fields : List FieldPlan} {field : FieldPlan} {placement : FieldPlacement}
    (placed : placeField message field = some placement) :
    fieldLoop message counts (fields ++ [field]) =
      (fieldLoop message counts fields).extend field placement := by
  rw [fieldLoop, List.foldl_append, List.foldl_cons, List.foldl_nil, FieldLoopState.step, placed]
  rfl

/-- A loop that succeeded computed that function, and every round passed its checks. -/
theorem prepareFields_ok {context : FieldContext} {counts : List Nat} {state : FieldLoopState}
    (run : prepareFields context counts = .ok state) :
    state = fieldLoop context.message counts context.message.fields ∧
      (∀ index field, context.message.fields[index]? = some field → ∃ placement,
        FieldPrepared context
          (fieldLoop context.message counts (context.message.fields.take index)) field placement) ∧
      ∀ tally ∈ state.tallies, tally.memberCount ≠ 0 := by
  simp only [prepareFields, bind_eq_ok, rejectIf_eq_ok, pure_eq_ok] at run
  obtain ⟨looped, loop, -, occupied, rfl⟩ := run
  have computes : ∀ state field next, prepareField context state field = .ok next →
      next = FieldLoopState.step context.message state field := by
    intro state field next run
    obtain ⟨placement, prepared, rfl⟩ := prepareField_ok run
    rw [FieldLoopState.step, prepared.placed]
  refine ⟨foldlM_ok_eq_foldl _ computes loop, fun index field found => ?_, ?_⟩
  · obtain ⟨before, after, beforeRun, roundRun, -⟩ := foldlM_ok_take loop index field found
    obtain ⟨placement, prepared, -⟩ := prepareField_ok roundRun
    rw [foldlM_ok_eq_foldl _ computes beforeRun] at prepared
    exact ⟨placement, prepared⟩
  · simpa using occupied

/-! ### The variables -/

/-- Every field has a place. -/
def AllPlaced (message : MessagePlan) (fields : List FieldPlan) : Prop :=
  ∀ field ∈ fields, ∃ placement, placeField message field = some placement

theorem AllPlaced.append {message : MessagePlan} {fields : List FieldPlan} {field : FieldPlan}
    (placed : AllPlaced message (fields ++ [field])) :
    AllPlaced message fields ∧ ∃ placement, placeField message field = some placement :=
  ⟨fun item member => placed item (List.mem_append_left _ member),
    placed field (List.mem_append_right _ (List.mem_singleton_self _))⟩

theorem AllPlaced.take {message : MessagePlan} {fields : List FieldPlan} (count : Nat)
    (placed : AllPlaced message fields) : AllPlaced message (fields.take count) :=
  fun item member => placed item (List.mem_of_mem_take member)

/-- Whether the encoder takes the value of a field from the caller. -/
def FieldPlan.isInput (field : FieldPlan) : Bool := field.encodeSource == .input

/-- The interval of a field with its own bytes. -/
def plainInterval (message : MessagePlan) (item : FieldPlan × Nat) : Option ByteInterval :=
  if item.1.isBitfield then none
  else (placeField message item.1).map fun placement =>
    ⟨placement.offset, placement.offset + placement.width, item.2⟩

section

variable {message : MessagePlan} {counts : List Nat} {fields : List FieldPlan}

theorem fieldLoop_length (placed : AllPlaced message fields) :
    (fieldLoop message counts fields).fields.length = fields.length := by
  induction fields using List.reverseRecOn with
  | nil => rfl
  | append_singleton fields field inductionHypothesis =>
    obtain ⟨earlier, placement, found⟩ := placed.append
    rw [fieldLoop_append_singleton found, FieldLoopState.extend, List.length_append,
      inductionHypothesis earlier, List.length_append]
    rfl

theorem fieldLoop_inputOrdinal (placed : AllPlaced message fields) :
    (fieldLoop message counts fields).inputOrdinal = fields.countP FieldPlan.isInput := by
  induction fields using List.reverseRecOn with
  | nil => rfl
  | append_singleton fields field inductionHypothesis =>
    obtain ⟨earlier, placement, found⟩ := placed.append
    rw [fieldLoop_append_singleton found, FieldLoopState.extend, List.countP_append,
      inductionHypothesis earlier, List.countP_singleton]
    by_cases input : field.encodeSource = .input <;> simp [FieldPlan.isInput, input]

theorem fieldLoop_conversionSlot (placed : AllPlaced message fields) :
    (fieldLoop message counts fields).conversionSlot = fields.countP FieldPlan.hasConversion := by
  induction fields using List.reverseRecOn with
  | nil => rfl
  | append_singleton fields field inductionHypothesis =>
    obtain ⟨earlier, placement, found⟩ := placed.append
    rw [fieldLoop_append_singleton found, FieldLoopState.extend, List.countP_append,
      inductionHypothesis earlier, List.countP_singleton]
    cases field.hasConversion <;> rfl

theorem fieldLoop_enumRawValues (placed : AllPlaced message fields) :
    (fieldLoop message counts fields).enumRawValues =
      fields.flatMap fun field => field.enumeration.map (·.rawValue) := by
  induction fields using List.reverseRecOn with
  | nil => rfl
  | append_singleton fields field inductionHypothesis =>
    obtain ⟨earlier, placement, found⟩ := placed.append
    rw [fieldLoop_append_singleton found, FieldLoopState.extend, List.flatMap_append,
      inductionHypothesis earlier, List.flatMap_singleton]

theorem fieldLoop_enumLookupEntries (placed : AllPlaced message fields) :
    (fieldLoop message counts fields).enumLookupEntries =
      fields.flatMap fun field => sortedLookup field.enumeration := by
  induction fields using List.reverseRecOn with
  | nil => rfl
  | append_singleton fields field inductionHypothesis =>
    obtain ⟨earlier, placement, found⟩ := placed.append
    rw [fieldLoop_append_singleton found, FieldLoopState.extend, List.flatMap_append,
      inductionHypothesis earlier, List.flatMap_singleton]

/-- The intervals of the containers come first, then those of the plain fields. -/
theorem fieldLoop_fieldIntervals (placed : AllPlaced message fields) :
    (fieldLoop message counts fields).fieldIntervals =
      (initialFieldLoop message counts).fieldIntervals ++
        fields.zipIdx.filterMap (plainInterval message) := by
  induction fields using List.reverseRecOn with
  | nil => simp [fieldLoop]
  | append_singleton fields field inductionHypothesis =>
    obtain ⟨earlier, placement, found⟩ := placed.append
    rw [fieldLoop_append_singleton found, FieldLoopState.extend, inductionHypothesis earlier,
      fieldLoop_length earlier, List.zipIdx_append, List.filterMap_append, ← List.append_assoc]
    cases bitfield : field.isBitfield <;> simp [plainInterval, bitfield, found]

/-- The description of a field was made when the loop reached it. -/
theorem fieldLoop_getElem? {index : Nat} {field : FieldPlan} {placement : FieldPlacement}
    (placed : AllPlaced message fields) (here : fields[index]? = some field)
    (found : placeField message field = some placement) :
    (fieldLoop message counts fields).fields[index]? =
      some (fieldExecution (fieldLoop message counts (fields.take index)) field placement) := by
  induction fields using List.reverseRecOn with
  | nil => simp at here
  | append_singleton fields last inductionHypothesis =>
    obtain ⟨earlier, lastPlacement, lastFound⟩ := placed.append
    rw [fieldLoop_append_singleton lastFound, FieldLoopState.extend]
    rcases Nat.lt_or_ge index fields.length with inside | outside
    · rw [List.getElem?_append_left (by rwa [fieldLoop_length earlier]),
        List.take_append_of_le_length inside.le]
      exact inductionHypothesis earlier (by rwa [List.getElem?_append_left inside] at here)
    · have atEnd : index = fields.length := by
        have bound := (List.getElem?_eq_some_iff.mp here).1
        rw [List.length_append, List.length_singleton] at bound
        omega
      subst atEnd
      obtain rfl : last = field := by simpa using here
      obtain rfl : lastPlacement = placement := Option.some.inj (lastFound.symm.trans found)
      rw [List.take_left, List.getElem?_append_right (by rw [fieldLoop_length earlier]),
        fieldLoop_length earlier]
      simp

/-! ### The tallies of the containers -/

/-- The tally of a container without members. -/
def emptyTally (container : BitContainerPlan) : ContainerTally :=
  ⟨0, widthMask container.byteWidth, container.baseValue, 0⟩

/-- Only the members of a container refer to it. -/
def FieldsResolved (fields : List FieldPlan) : Prop :=
  ∀ field ∈ fields, field.isBitfield = false → field.bitContainerIndex = invalidIndex

/-- The descriptions of the members of a container. -/
def membersOf (containerIndex : Nat) (fields : List FieldExecutionPlan) :
    List FieldExecutionPlan :=
  fields.filter (·.bitContainerIndex = containerIndex)

/-- The tally of a container counts its members in the order of the fields. -/
theorem fieldLoop_tally {containerIndex : Nat} {container : BitContainerPlan}
    (placed : AllPlaced message fields) (resolved : FieldsResolved fields)
    (real : containerIndex ≠ invalidIndex)
    (found : message.bitContainers[containerIndex]? = some container) :
    (fieldLoop message counts fields).tallies[containerIndex]? =
      some ((membersOf containerIndex (fieldLoop message counts fields).fields).foldl
        ContainerTally.addMember (emptyTally container)) := by
  induction fields using List.reverseRecOn with
  | nil => simp [fieldLoop, initialFieldLoop, membersOf, found, emptyTally]
  | append_singleton fields field inductionHypothesis =>
    obtain ⟨earlier, placement, foundField⟩ := placed.append
    have tally := inductionHypothesis earlier fun item member =>
      resolved item (List.mem_append_left _ member)
    have own := resolved field (List.mem_append_right _ (List.mem_singleton_self _))
    rw [fieldLoop_append_singleton foundField, FieldLoopState.extend]
    simp only [membersOf, List.filter_append, List.foldl_append]
    by_cases member : field.bitContainerIndex = containerIndex
    · have bitfield : field.isBitfield = true := by
        by_contra plain
        exact real (member ▸ own (by simpa using plain))
      simp only [bitfield, if_true, member, List.getElem?_modify_eq, tally]
      simp [membersOf, fieldExecution, member]
    · have other : (if field.isBitfield = true then
            (fieldLoop message counts fields).tallies.modify field.bitContainerIndex
              (·.addMember (fieldExecution (fieldLoop message counts fields) field placement))
          else (fieldLoop message counts fields).tallies)[containerIndex]? =
          (fieldLoop message counts fields).tallies[containerIndex]? := by
        split
        · exact List.getElem?_modify_ne _ _ member
        · rfl
      rw [other, tally]
      simp [membersOf, fieldExecution, member]

end

end ProtocolAdapter

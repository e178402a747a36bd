/-
This file states what a binary record means, without the workspace and the order in which
the codec computes it: the raw value of each field, the value it stands for, and why a
record is refused. The bytes of a record determine all of it.
-/

import Mathlib.Data.List.Perm.Basic
import Mathlib.Data.List.Sort
import ProtocolAdapter.Codec.Admissible
import ProtocolAdapter.Codec.Decode

namespace ProtocolAdapter.Codec

open Foundation Foundation.Bytes

/-! ### Raw values -/

/-- The value of a bit container in a record. -/
def containerValue (container : BitContainerExecutionPlan) (record : List UInt8) : Nat :=
  loadValue (slice record container.offset container.width) container.byteOrder

/-- The raw value of a field that is not a byte string: bits of its container, or its own
bytes. -/
def rawValue (message : MessageExecutionPlan) (field : FieldExecutionPlan)
    (record : List UInt8) : Nat :=
  if isMember field then
    extractBitfield
      (containerValue (message.bitContainers.getD field.bitContainerIndex {}) record) field
  else loadValue (slice record field.offset field.width) field.byteOrder

/-- The raw values of the entries of an enumeration field. -/
def entryValues (message : MessageExecutionPlan) (field : FieldExecutionPlan) : List Nat :=
  (message.enumRawValues.drop field.enumValuesBegin).take field.enumValuesCount

/-- The entry of an enumeration field with a raw value. -/
def enumEntry (message : MessageExecutionPlan) (field : FieldExecutionPlan) (raw : Nat) :
    Option Nat :=
  (entryValues message field).findIdx? (· = raw)

/-! ### Values -/

/-- The conversion of a field that has one. -/
def conversionOf (conversions : List LinearConversionDescriptor) (field : FieldExecutionPlan) :
    LinearConversionDescriptor := conversions.getD field.conversionIndex {}

/-- The decimal a converted field stands for. -/
def decimalOf (plan : PlanBundle) (message : MessageExecutionPlan) (field : FieldExecutionPlan)
    (record : List UInt8) : Except DecimalArithmeticStatus Decimal64 :=
  decodeDecimal (conversionOf plan.conversions field) (rawValue message field record) field.width

/-- Whether an enumeration field has a value without an entry. -/
def isUnknown (message : MessageExecutionPlan) (record : List UInt8)
    (field : FieldExecutionPlan) : Bool :=
  !hasConversion field && field.valueType == .enum &&
    (enumEntry message field (rawValue message field record)).isNone

/-- The length of a byte string in a record. -/
def byteLength (message : MessageExecutionPlan) (fieldIndex : Nat) (field : FieldExecutionPlan)
    (size : Nat) : Nat :=
  if isPayload message fieldIndex then payloadSize message size else field.width

/-- A reference to an entry of an enumeration field, when the value has one. -/
def entryReference (plan : PlanBundle) (messageIndex fieldIndex : Nat) :
    Option Nat → EnumValueRef
  | some entryIndex => ⟨plan.address, messageIndex, fieldIndex, entryIndex⟩
  | none => {}

/-- The decoded field of a record. -/
def decodedSlot (plan : PlanBundle) (messageIndex : Nat) (message : MessageExecutionPlan)
    (input : ByteView) (fieldIndex : Nat) (field : FieldExecutionPlan) : DecodedFieldSlot :=
  let raw := rawValue message field input.bytes
  let slot : DecodedFieldSlot :=
    { field := ⟨plan.address, messageIndex, fieldIndex⟩
      valueKind := getLogicalValueKind field.valueType }
  if hasConversion field then
    match decimalOf plan message field input.bytes with
    | .ok decimal => { slot with valueKind := .decimal64, decimal64Value := decimal }
    | .error _ => slot
  else
    match field.valueType with
    | .bytes => { slot with
        bytesValue := subView input field.offset (byteLength message fieldIndex field input.size) }
    | .uint64 => { slot with uint64Value := UInt64.ofNat raw }
    | .int64 => { slot with
        int64Value := Int64.ofInt ((interpretSigned raw field.width).getD 0) }
    | .bool => { slot with boolValue := raw ≠ 0 }
    | .enum =>
      let entry := enumEntry message field raw
      { slot with enumValue :=
          { known := entry.isSome
            rawValue := UInt64.ofNat raw
            reference := entryReference plan messageIndex fieldIndex entry } }

/-- The decoded fields of a record. -/
def decodedSlots (plan : PlanBundle) (messageIndex : Nat) (message : MessageExecutionPlan)
    (input : ByteView) : List DecodedFieldSlot :=
  message.fields.mapIdx (decodedSlot plan messageIndex message input)

/-! ### Refusals -/

/-- Why a record is refused: the status, the field it is about, and what went wrong with a
decimal. -/
structure Refusal where
  status : CodecStatus
  fieldIndex : Option Nat := none
  conversionError : ConversionError := .none
  deriving DecidableEq

/-- The result a refusal is reported with. -/
def Refusal.report (refusal : Refusal) (result : DecodeResult) : DecodeResult :=
  { result with
    status := refusal.status
    failedFieldIndex := refusal.fieldIndex.getD result.failedFieldIndex
    conversionError :=
      if refusal.conversionError = .none then result.conversionError else refusal.conversionError }

/-- Why the value of a field is refused. -/
def fieldRefusal (plan : PlanBundle) (message : MessageExecutionPlan) (record : List UInt8)
    (item : FieldExecutionPlan × Nat) : Option Refusal :=
  if hasConversion item.1 then
    match decimalOf plan message item.1 record with
    | .ok _ => none
    | .error status => some
      { status := toCodecStatus status
        fieldIndex := item.2
        conversionError := toConversionError status }
  else if isUnknown message record item.1 ∧ item.1.unknownEnumPolicy = .reject then
    some { status := .unknownEnumValue, fieldIndex := item.2 }
  else none

/-- Why a record is refused, if it is: it states another length, it does not carry its
checksum, or the value of a field is refused. -/
def recordRefusal (plan : PlanBundle) (message : MessageExecutionPlan) (record : List UInt8) :
    Option Refusal :=
  if statesLength message record record.length = false then
    some { status := .lengthMismatch, fieldIndex := message.computedLength.map (·.fieldIndex) }
  else if carriesChecksum message record record.length = false then
    some { status := .integrityFailed }
  else message.fields.zipIdx.findSome? (fieldRefusal plan message record)

/-! ### Enumerations -/

/-- The unsorted lookup of an enumeration. -/
def unsortedLookup (entries : List EnumEntryPlan) : List EnumLookupExecutionPlan :=
  entries.zipIdx.map fun (entry, entryIndex) => ⟨entry.rawValue, entryIndex⟩

theorem mem_unsortedLookup {entries : List EnumEntryPlan} {item : EnumLookupExecutionPlan} :
    item ∈ unsortedLookup entries ↔
      (entries.map (·.rawValue))[item.entryIndex]? = some item.rawValue := by
  simp only [unsortedLookup, List.mem_map, Prod.exists, List.mem_zipIdx_iff_getElem?,
    List.getElem?_map, Option.map_eq_some_iff]
  constructor
  · rintro ⟨entry, entryIndex, found, rfl⟩
    exact ⟨entry, found, rfl⟩
  · rintro ⟨entry, found, same⟩
    exact ⟨entry, item.entryIndex, found, by rw [same]⟩

/-- The sorted lookup has the entries of the enumeration with increasing raw values. -/
theorem sortedLookup_sorted {entries : List EnumEntryPlan}
    (distinct : (entries.map (·.rawValue)).Nodup) :
    (sortedLookup entries).Pairwise fun left right => left.rawValue < right.rawValue := by
  have : Std.Total fun left right : EnumLookupExecutionPlan => left.rawValue ≤ right.rawValue :=
    ⟨fun _ _ => Nat.le_total _ _⟩
  have : IsTrans EnumLookupExecutionPlan fun left right => left.rawValue ≤ right.rawValue :=
    ⟨fun _ _ _ => Nat.le_trans⟩
  have sorted := List.pairwise_insertionSort
    (fun left right : EnumLookupExecutionPlan => left.rawValue ≤ right.rawValue)
    (unsortedLookup entries)
  have perm : (sortedLookup entries).Perm (unsortedLookup entries) := List.perm_insertionSort _ _
  have values : (unsortedLookup entries).map (·.rawValue) = entries.map (·.rawValue) := by
    refine List.ext_getElem? fun index => ?_
    simp [unsortedLookup, List.getElem?_zipIdx]
    cases entries[index]? <;> rfl
  have different : (sortedLookup entries).Pairwise fun left right =>
      left.rawValue ≠ right.rawValue := by
    have unique : ((sortedLookup entries).map (·.rawValue)).Nodup :=
      (perm.map _).nodup_iff.mpr (values ▸ distinct)
    exact List.pairwise_map.mp unique
  exact (List.Pairwise.and sorted different).imp fun both => lt_of_le_of_ne both.1 both.2

/-- The search over the sorted lookup finds the entry with a raw value. -/
theorem find_sortedLookup {entries : List EnumEntryPlan}
    (distinct : (entries.map (·.rawValue)).Nodup) (raw : Nat) :
    ((sortedLookup entries).find? (·.rawValue = raw)).map (·.entryIndex) =
      (entries.map (·.rawValue)).findIdx? (· = raw) := by
  have listed : ∀ item, item ∈ sortedLookup entries ↔
      (entries.map (·.rawValue))[item.entryIndex]? = some item.rawValue := fun item =>
    (List.perm_insertionSort _ _).mem_iff.trans mem_unsortedLookup
  cases found : (entries.map (·.rawValue)).findIdx? (· = raw) with
  | none =>
    rw [List.findIdx?_eq_none_iff] at found
    rw [Option.map_eq_none_iff, List.find?_eq_none]
    intro item member
    have value := List.mem_of_getElem? ((listed item).mp member)
    simpa using found _ value
  | some entryIndex =>
    obtain ⟨inside, same, -⟩ := List.findIdx?_eq_some_iff_getElem.mp found
    have value : (entries.map (·.rawValue))[entryIndex]? = some raw := by
      rw [List.getElem?_eq_getElem inside]
      simpa using same
    cases search : (sortedLookup entries).find? (·.rawValue = raw) with
    | none =>
      rw [List.find?_eq_none] at search
      have missing := search ⟨raw, entryIndex⟩ ((listed _).mpr value)
      simp at missing
    | some item =>
      have key : item.rawValue = raw := by simpa using List.find?_some search
      have other := (listed item).mp (List.mem_of_find?_eq_some search)
      rw [key] at other
      exact congrArg some ((List.getElem?_inj (List.getElem?_eq_some_iff.mp other).1
        distinct).mp (other.trans value.symm))

/-- The lookup of the codec reads inside its array and finds the entry with a raw value. -/
theorem findEnumEntry_eq {message : MessageExecutionPlan} {field : FieldExecutionPlan}
    {entries : List EnumEntryPlan} (valid : EnumValid message field entries) (raw : Nat) :
    findEnumEntry message field raw = some (enumEntry message field raw) := by
  obtain ⟨moreValues, values⟩ := valid.values
  obtain ⟨moreLookup, lookup⟩ := valid.lookup
  have sorted := sortedLookup_sorted valid.distinct
  have length : (sortedLookup entries).length = field.enumLookupCount := by
    rw [sortedLookup, List.length_insertionSort, List.length_map, List.length_zipIdx,
      valid.lookupCount]
  have entry : enumEntry message field raw =
      ((sortedLookup entries).find? (·.rawValue = raw)).map (·.entryIndex) := by
    rw [find_sortedLookup valid.distinct, enumEntry, entryValues, values, valid.valuesCount,
      List.take_left' (List.length_map _)]
  have placed : ∀ index item, (sortedLookup entries)[index]? = some item →
      message.enumLookupEntries[field.enumLookupBegin + index]? = some item := by
    intro index item found
    rw [← List.getElem?_drop, lookup,
      List.getElem?_append_left (List.getElem?_eq_some_iff.mp found).1, found]
  have closed : (sortedLookup entries).Pairwise fun left right =>
      decide (right.rawValue < raw) = true → decide (left.rawValue < raw) = true :=
    sorted.imp fun less below => by
      simp only [decide_eq_true_eq] at below ⊢
      omega
  have search := @BinarySearch.lowerBound_eq_countP _
    (fun item : EnumLookupExecutionPlan => decide (item.rawValue < raw)) (sortedLookup entries)
    (fun middle => message.enumLookupEntries[middle]?.map fun entry => entry.rawValue < raw)
    field.enumLookupBegin closed fun index item found => by rw [placed index item found]; rfl
  have boundary := BinarySearch.filter_boundary raw sorted
  rw [length] at search
  unfold findEnumEntry
  simp only [search, Option.bind_eq_bind, Option.bind_some]
  rw [entry, ← boundary]
  split
  · rename_i last
    rw [List.getElem?_eq_none (by omega)]
    rfl
  · rename_i inside
    have within : (sortedLookup entries).countP (fun item => decide (item.rawValue < raw)) <
        (sortedLookup entries).length := by
      refine lt_of_le_of_ne List.countP_le_length fun last => inside ?_
      rw [last, length]
    have found := List.getElem?_eq_getElem within
    rw [placed _ _ found, found]
    simp only [Option.bind_some, Option.filter_some, decide_eq_true_eq]
    split <;> simp_all

end ProtocolAdapter.Codec

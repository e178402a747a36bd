/-
This file states how the tables of a metadata block number their records: the field ranges of
the messages and the entry ranges of the fields stand one behind the other, and are as long as
the lists of the schema.
-/

import ProtocolAdapter.Description.Described

namespace ProtocolAdapter.Description

open Foundation ConfigCompiler

/-- The number of entries of every field of a message. -/
def entryCounts (message : MessageIr) : List Nat :=
  message.fields.map fun field => field.enumEntries.length

theorem sum_entryCounts (message : MessageIr) : (entryCounts message).sum = entryCount message :=
  rfl

/-! ### Messages -/

theorem describeMessages_numbered (offset fieldBegin : Nat) (messages : List MessageIr) :
    NumberedFrom (·.fieldBegin) (·.fieldCount) fieldBegin
      (describeMessages offset fieldBegin messages) := by
  induction messages generalizing offset fieldBegin with
  | nil => exact .nil
  | cons message rest inductionHypothesis => exact .cons rfl (inductionHypothesis _ _)

theorem describeMessages_counts (offset fieldBegin : Nat) (messages : List MessageIr) :
    (describeMessages offset fieldBegin messages).map (·.fieldCount) =
      messages.map fun message => message.fields.length := by
  induction messages generalizing offset fieldBegin with
  | nil => rfl
  | cons message rest inductionHypothesis =>
    rw [describeMessages, List.map_cons, List.map_cons, inductionHypothesis]
    rfl

/-! ### Fields -/

theorem describeFields_numbered (offset enumBegin : Nat) (fields : List FieldIr) :
    NumberedFrom (·.enumBegin) (·.enumCount) enumBegin
      (describeFields offset enumBegin fields) := by
  induction fields generalizing offset enumBegin with
  | nil => exact .nil
  | cons field rest inductionHypothesis => exact .cons rfl (inductionHypothesis _ _)

theorem describeFields_counts (offset enumBegin : Nat) (fields : List FieldIr) :
    (describeFields offset enumBegin fields).map (·.enumCount) =
      fields.map fun field => field.enumEntries.length := by
  induction fields generalizing offset enumBegin with
  | nil => rfl
  | cons field rest inductionHypothesis =>
    rw [describeFields, List.map_cons, List.map_cons, inductionHypothesis]
    rfl

theorem describeAllFields_numbered (offset enumBegin : Nat) (messages : List MessageIr) :
    NumberedFrom (·.enumBegin) (·.enumCount) enumBegin
      (describeAllFields offset enumBegin messages) := by
  induction messages generalizing offset enumBegin with
  | nil => exact .nil
  | cons message rest inductionHypothesis =>
    refine NumberedFrom.append (describeFields_numbered _ _ _) ?_
    rw [describeFields_counts]
    exact inductionHypothesis _ _

theorem describeAllFields_counts (offset enumBegin : Nat) (messages : List MessageIr) :
    (describeAllFields offset enumBegin messages).map (·.enumCount) =
      messages.flatMap entryCounts := by
  induction messages generalizing offset enumBegin with
  | nil => rfl
  | cons message rest inductionHypothesis =>
    rw [describeAllFields, List.map_append, describeFields_counts, inductionHypothesis,
      List.flatMap_cons]
    rfl

/-! ### The block -/

section

variable (schema : SchemaIr)

theorem describe_messages_numbered :
    Numbered (·.fieldBegin) (·.fieldCount) (describe schema).messages :=
  (describeMessages_numbered _ 0 _).numbered

theorem describe_messages_counts : (describe schema).messages.map (·.fieldCount) =
    schema.messages.map fun message => message.fields.length :=
  describeMessages_counts _ _ _

theorem describe_fields_numbered :
    Numbered (·.enumBegin) (·.enumCount) (describe schema).fields :=
  (describeAllFields_numbered _ 0 _).numbered

theorem describe_fields_counts : (describe schema).fields.map (·.enumCount) =
    schema.messages.flatMap entryCounts :=
  describeAllFields_counts _ _ _

theorem describe_fields_length : (describe schema).fields.length = schemaFieldCount schema :=
  length_describeAllFields _ _ _

theorem describe_enums_length : (describe schema).enums.length = schemaEntryCount schema :=
  length_describeAllEnums _ _

theorem sum_schema_entryCounts : (schema.messages.flatMap entryCounts).sum =
    schemaEntryCount schema := by
  unfold schemaEntryCount
  induction schema.messages with
  | nil => rfl
  | cons message rest inductionHypothesis =>
    rw [List.flatMap_cons, List.sum_append, List.map_cons, List.sum_cons, inductionHypothesis,
      sum_entryCounts]

/-- The entry count of a field stands at the number of the field. -/
theorem flatMap_entryCounts {messageIndex fieldIndex : Nat} {message : MessageIr} {field : FieldIr}
    (found : schema.messages[messageIndex]? = some message)
    (listed : message.fields[fieldIndex]? = some field) :
    (schema.messages.flatMap entryCounts)[placeNumber
        (schema.messages.map fun message => message.fields.length) (messageIndex, fieldIndex)]? =
      some field.enumEntries.length := by
  have inside : fieldIndex < (entryCounts message).length := by
    rw [entryCounts, List.length_map]
    exact (List.getElem?_eq_some_iff.mp listed).1
  have member := @getElem?_flatMap_placeNumber _ _ entryCounts _ _ _ _ found inside
  have sizes : (schema.messages.map fun message => (entryCounts message).length) =
      schema.messages.map fun message => message.fields.length :=
    List.map_congr_left fun message _ => List.length_map _
  rw [sizes] at member
  rw [member, entryCounts, List.getElem?_map, listed]
  rfl

end

end ProtocolAdapter.Description

/-
This file gives the JSON document that a YAML tree stands for, and proves that the writer writes
it: what a successful run adds to the output is a spelling of the document, whose objects have
unique keys, and what it records is one entry for each node, under the node's pointer.
-/

import ProtocolAdapter.ConfigFrontendYaml.Convert
import ProtocolAdapter.Foundation.JsonPointer
import ProtocolAdapter.Foundation.JsonWriting
import ProtocolAdapter.ProtocolLab.DocumentSpelling

namespace ProtocolAdapter.ConfigFrontendYaml

open Foundation Foundation.ByteText Foundation.JsonText Foundation.JsonPointer

open Foundation.Utf8 (WellFormed)

open ProtocolLab (asText utf8_asText)

/-! ### The document of a tree -/

/-- The value of a plain scalar. -/
def plainValue (text : List UInt8) : JsonValue :=
  if text = utf8 "null" then .null
  else if text = utf8 "true" then .bool true
  else if text = utf8 "false" then .bool false
  else if numericLooking text then .raw (asText text)
  else .str (asText text)

def scalarValue : Option Scalar → JsonValue
  | none => .null
  | some value => if value.quoted then .str (asText value.text) else plainValue value.text

namespace YamlNode

/-- The bytes of the key of a member. -/
def keyText (node : YamlNode) : List UInt8 := (node.head.key.map Scalar.text).getD []

mutual

/-- The document that a tree stands for. -/
def document : YamlNode → JsonValue
  | map _ children => .obj (documentMembers children)
  | seq _ children => .arr (documentElements children)
  | scalar _ value => scalarValue value

def documentMembers : List YamlNode → List (String × JsonValue)
  | [] => []
  | child :: rest => (asText child.keyText, child.document) :: documentMembers rest

def documentElements : List YamlNode → List JsonValue
  | [] => []
  | child :: rest => child.document :: documentElements rest

end

mutual

/-- The nodes of a tree in document order, each with the steps that lead to it. -/
def places : YamlNode → List (List Step × YamlNode)
  | map head children => ([], map head children) :: placesMembers children
  | seq head children => ([], seq head children) :: placesElements 0 children
  | scalar head value => [([], scalar head value)]

def placesMembers : List YamlNode → List (List Step × YamlNode)
  | [] => []
  | child :: rest =>
    child.places.map (behind (.member (asText child.keyText))) ++ placesMembers rest

def placesElements (index : Nat) : List YamlNode → List (List Step × YamlNode)
  | [] => []
  | child :: rest =>
    child.places.map (behind (.element index)) ++ placesElements (index + 1) rest

end

/-- The value of the document at the place of a node. -/
def valueAt (place : List Step × YamlNode) : List Step × JsonValue := (place.1, place.2.document)

theorem map_valueAt_behind (step : Step) (inner : List (List Step × YamlNode)) :
    (inner.map (behind step)).map valueAt = (inner.map valueAt).map (behind step) := by
  rw [List.map_map, List.map_map]
  rfl

mutual

/-- The values of the document are those of the nodes. -/
theorem places_document : ∀ node : YamlNode,
    JsonPointer.places node.document = node.places.map valueAt
  | map head children => by
    rw [document, JsonPointer.places, placesMembers_document children, places, List.map_cons,
      valueAt, document]
  | seq head children => by
    rw [document, JsonPointer.places, placesElements_document children, places, List.map_cons,
      valueAt, document]
  | scalar head value => by
    have leaf : JsonPointer.places (scalarValue value) = [([], scalarValue value)] := by
      unfold scalarValue plainValue
      split
      · rw [JsonPointer.places]
      split
      · rw [JsonPointer.places]
      split
      · rw [JsonPointer.places]
      split
      · rw [JsonPointer.places]
      split
      · rw [JsonPointer.places]
      split <;> rw [JsonPointer.places]
    rw [document, leaf, places, List.map_singleton, valueAt, document]

theorem placesMembers_document : ∀ children : List YamlNode,
    JsonPointer.placesMembers (documentMembers children) = (placesMembers children).map valueAt
  | [] => by
    rw [documentMembers, JsonPointer.placesMembers, placesMembers]
    rfl
  | child :: rest => by
    rw [documentMembers, JsonPointer.placesMembers, placesMembers_document rest,
      places_document child, placesMembers, List.map_append, map_valueAt_behind]

theorem placesElements_document : ∀ (children : List YamlNode) {index : Nat},
    JsonPointer.placesElements index (documentElements children) =
      (placesElements index children).map valueAt
  | [], _ => by
    rw [documentElements, JsonPointer.placesElements, placesElements]
    rfl
  | child :: rest, _ => by
    rw [documentElements, JsonPointer.placesElements, placesElements_document rest,
      places_document child, placesElements, List.map_append, map_valueAt_behind]

end

end YamlNode

/-! ### What a step writes -/

section Writing

variable {context : WriterContext}

theorem writeBytes_ok {bytes : List UInt8} {writer after : Writer}
    (wrote : writeBytes context bytes writer = .ok after) :
    after = { writer with json := writer.json ++ bytes } := by
  rw [writeBytes, require_bind_eq_ok, pure_eq_ok] at wrote
  exact wrote.2.symm

theorem writeChar_ok {byte : UInt8} {writer after : Writer}
    (wrote : writeChar context byte writer = .ok after) :
    after = { writer with json := writer.json ++ [byte] } := writeBytes_ok wrote

/-- The bytes that stand for a byte of a string. -/
def stringByte (byte : UInt8) : List UInt8 :=
  if byte = 0x22 ∨ byte = 0x5c then [0x5c, byte]
  else if byte < 0x20 then
    utf8 "\\u00" ++ [hexLower (byte >>> 4), hexLower (byte &&& 0x0f)]
  else [byte]

theorem writeStringByte_ok {byte : UInt8} {writer after : Writer}
    (wrote : writeStringByte context byte writer = .ok after) :
    after = { writer with json := writer.json ++ stringByte byte } := by
  unfold writeStringByte at wrote
  unfold stringByte
  split at wrote
  · rename_i special
    rw [if_pos special]
    obtain ⟨middle, first, second⟩ := bind_eq_ok.mp wrote
    rw [writeChar_ok second, writeChar_ok first, List.append_assoc]
    rfl
  rename_i plain
  rw [if_neg plain]
  split at wrote
  · rename_i control
    rw [if_pos control]
    obtain ⟨middle, first, wrote⟩ := bind_eq_ok.mp wrote
    obtain ⟨later, second, third⟩ := bind_eq_ok.mp wrote
    rw [writeChar_ok third, writeChar_ok second, writeBytes_ok first, List.append_assoc,
      List.append_assoc]
    rfl
  · rename_i visible
    rw [if_neg visible]
    exact writeChar_ok wrote

theorem writeStringBytes_ok : ∀ {value : List UInt8} {writer after : Writer},
    writeStringBytes context value writer = .ok after →
      after = { writer with json := writer.json ++ value.flatMap stringByte }
  | [], writer, after, wrote => by
    rw [writeStringBytes, pure_eq_ok] at wrote
    rw [List.flatMap_nil, List.append_nil]
    exact wrote.symm
  | byte :: rest, writer, after, wrote => by
    rw [writeStringBytes] at wrote
    obtain ⟨middle, first, others⟩ := bind_eq_ok.mp wrote
    rw [writeStringBytes_ok others, writeStringByte_ok first, List.flatMap_cons,
      List.append_assoc]

theorem writeString_ok {value : List UInt8} {writer after : Writer}
    (wrote : writeString context value writer = .ok after) :
    after =
      { writer with json := writer.json ++ 0x22 :: (value.flatMap stringByte ++ [0x22]) } := by
  rw [writeString] at wrote
  obtain ⟨opened, first, wrote⟩ := bind_eq_ok.mp wrote
  obtain ⟨filled, second, third⟩ := bind_eq_ok.mp wrote
  rw [writeChar_ok third, writeStringBytes_ok second, writeChar_ok first, List.append_assoc,
    List.append_assoc]
  rfl

theorem pathChar_ok {byte : UInt8} {writer after : Writer}
    (wrote : pathChar context byte writer = .ok after) :
    after = { writer with path := writer.path ++ [byte] } := by
  rw [pathChar, require_bind_eq_ok, pure_eq_ok] at wrote
  exact wrote.2.symm

theorem pathSegmentByte_ok {byte : UInt8} {writer after : Writer}
    (wrote : pathSegmentByte context byte writer = .ok after) :
    after = { writer with path := writer.path ++ escapeByte byte } := by
  unfold pathSegmentByte at wrote
  unfold escapeByte
  split at wrote
  · rename_i tilde
    obtain ⟨middle, first, second⟩ := bind_eq_ok.mp wrote
    rw [if_pos tilde, pathChar_ok second, pathChar_ok first, List.append_assoc]
    rfl
  rename_i noTilde
  rw [if_neg noTilde]
  split at wrote
  · rename_i slash
    obtain ⟨middle, first, second⟩ := bind_eq_ok.mp wrote
    rw [if_pos slash, pathChar_ok second, pathChar_ok first, List.append_assoc]
    rfl
  · rename_i noSlash
    rw [if_neg noSlash]
    exact pathChar_ok wrote

theorem pathSegmentBytes_ok : ∀ {segment : List UInt8} {writer after : Writer},
    pathSegmentBytes context segment writer = .ok after →
      after = { writer with path := writer.path ++ escape segment }
  | [], writer, after, wrote => by
    rw [pathSegmentBytes, pure_eq_ok] at wrote
    rw [escape, List.flatMap_nil, List.append_nil]
    exact wrote.symm
  | byte :: rest, writer, after, wrote => by
    rw [pathSegmentBytes] at wrote
    obtain ⟨middle, first, others⟩ := bind_eq_ok.mp wrote
    have split : escape (byte :: rest) = escapeByte byte ++ escape rest := rfl
    rw [pathSegmentBytes_ok others, pathSegmentByte_ok first, split, List.append_assoc]

/-- A segment is the token of a pointer, escaped as in every pointer. -/
theorem pathSegment_ok {segment : List UInt8} {writer after : Writer}
    (wrote : pathSegment context segment writer = .ok after) :
    after = { writer with path := writer.path ++ 0x2f :: escape segment } := by
  rw [pathSegment] at wrote
  obtain ⟨opened, first, second⟩ := bind_eq_ok.mp wrote
  rw [pathSegmentBytes_ok second, pathChar_ok first, List.append_assoc]
  rfl

/-! ### Strings and scalars -/

theorem quotes_stringByte : Quotes stringByte where
  ascii := by
    have forms : ∀ number, number < 0x80 →
        (stringByte (UInt8.ofNat number) = encode [Char.ofNat number] ∧
          0x20 ≤ (Char.ofNat number).toNat ∧ Char.ofNat number ≠ '"' ∧
            Char.ofNat number ≠ '\\') ∨
        (∃ letter ∈ ['"', '\\'], stringByte (UInt8.ofNat number) = encode ['\\', letter] ∧
          shortEscape letter = some (Char.ofNat number)) ∨
        ∃ high ∈ ['0', '1'], ∃ low ∈ "0123456789abcdef".toList,
          stringByte (UInt8.ofNat number) = encode ['\\', 'u', '0', '0', high, low] ∧
            hexUnit '0' '0' high low = some number := by
      decide +kernel
    intro number small
    rcases forms number small with ⟨same, visible, noQuote, noEscape⟩ |
      ⟨letter, _, same, escape⟩ | ⟨high, _, low, _, same, unit⟩
    · exact ⟨_, same, .plain _ visible noQuote noEscape⟩
    · exact ⟨_, same, .short escape⟩
    · refine ⟨_, same, .unit unit (fun isHigh => ?_) fun isLow => ?_⟩
      · have := isHigh.1
        omega
      · have := isLow.1
        omega
  wide := by
    intro byte wide
    have noQuote : ¬(byte = 0x22 ∨ byte = 0x5c) := by
      rintro (rfl | rfl)
      · exact absurd wide (by decide)
      · exact absurd wide (by decide)
    have visible : ¬byte < 0x20 := fun low =>
      absurd (lt_of_le_of_lt wide (UInt8.lt_iff_toNat_lt.mp low)) (by decide)
    rw [stringByte, if_neg noQuote, if_neg visible]

theorem asText_encode (characters : List Char) :
    asText (encode characters) = String.ofList characters := by
  rw [asText, decode_eq_some.mpr rfl, Option.getD_some]

/-- A string of the writer is a JSON string of its text. -/
theorem quoted_string {text : List UInt8} (valid : WellFormed text) :
    ∃ word, 0x22 :: (text.flatMap stringByte ++ [0x22]) = encode word ∧
      Quoted word (asText text).toList := by
  obtain ⟨characters, rfl⟩ := valid
  rw [asText_encode, String.toList_ofList]
  exact quotes_stringByte.quoted characters

theorem writes_string {text : List UInt8} (valid : WellFormed text) :
    Writes (0x22 :: (text.flatMap stringByte ++ [0x22])) (.str (asText text)) := by
  obtain ⟨characters, rfl⟩ := valid
  rw [asText_encode]
  exact quotes_stringByte.writes characters

/-- A canonical integer is a JSON number of the same digits. -/
theorem writes_integer {text : List UInt8} (canonical : canonicalInteger text) :
    Writes text (.raw (asText text)) := by
  have number : ∃ integer : Int, text = signedDecimal integer := by
    rcases canonicalInteger_iff.mp canonical with ⟨value, same⟩ | ⟨value, same⟩
    · exact ⟨value.toNat, same⟩
    · exact ⟨value.toInt, same⟩
  obtain ⟨integer, rfl⟩ := number
  have token : asText (signedDecimal integer) = ProtocolLab.integerText integer := by
    cases integer with
    | ofNat number => exact asText_encode _
    | negSucc number =>
      have minus : 0x2d :: decimal (number + 1) = encode ('-' :: Nat.toDigits 10 (number + 1)) :=
        (encode_cons_ascii _ rfl).symm
      rw [signedDecimal, minus]
      exact asText_encode _
  rw [token]
  exact ProtocolLab.writes_signedDecimal integer

theorem checkScalar_ok {text : List UInt8} {invalid : String} {done : Unit}
    (checked : checkScalar context text invalid = .ok done) : WellFormed text := by
  rw [checkScalar, require_bind_eq_ok, require_eq_ok] at checked
  exact isUtf8_iff text |>.mp checked.2

/-- A scalar is written as its value. -/
theorem writeScalar_ok {value : Option Scalar} {writer after : Writer}
    (wrote : writeScalar context value writer = .ok after) :
    ∃ json, after = { writer with json := writer.json ++ json } ∧
      Writes json (scalarValue value) := by
  unfold writeScalar at wrote
  split at wrote
  · cases wrote
  rename_i value
  obtain ⟨done, checked, wrote⟩ := bind_eq_ok.mp wrote
  have valid := checkScalar_ok checked
  rw [scalarValue]
  split at wrote
  · rename_i quoted
    rw [if_pos quoted]
    exact ⟨_, writeString_ok wrote, writes_string valid⟩
  rename_i plain
  rw [if_neg plain]
  rw [writePlain, require_bind_eq_ok] at wrote
  obtain ⟨nonempty, wrote⟩ := wrote
  unfold plainValue
  split at wrote
  · refine ⟨_, writeBytes_ok wrote, ?_⟩
    split
    · rename_i same
      exact same ▸ ProtocolLab.writes_null
    split
    · rename_i same
      exact same ▸ ProtocolLab.writes_boolean true
    split
    · rename_i same
      exact same ▸ ProtocolLab.writes_boolean false
    · rename_i literal noNull noTrue noFalse
      exact absurd literal (by simp [noNull, noTrue, noFalse])
  · rename_i noLiteral
    rw [not_or, not_or] at noLiteral
    rw [if_neg noLiteral.1, if_neg noLiteral.2.1, if_neg noLiteral.2.2]
    split at wrote
    · rename_i numeric
      rw [require_bind_eq_ok] at wrote
      rw [if_pos numeric]
      exact ⟨_, writeBytes_ok wrote.2, writes_integer wrote.1⟩
    · rename_i textual
      rw [require_bind_eq_ok] at wrote
      rw [if_neg textual]
      exact ⟨_, writeString_ok wrote.2, writes_string valid⟩

end Writing

end ProtocolAdapter.ConfigFrontendYaml

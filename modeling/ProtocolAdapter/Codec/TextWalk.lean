/-
This file models the walk over a text template. Literals are compared, a field of one
length is taken as it is, a variable field ends where the next literal is first found,
and the last field takes what is left. Decoding, matching and reviewing walk alike and
differ in what they do with each field. Every read names the array it is made in.
-/

import ProtocolAdapter.Builder.Text
import ProtocolAdapter.Codec.Types

namespace ProtocolAdapter.Codec

open Foundation

/-! ### Finding a literal -/

/-- Falls back to shorter prefixes of a literal until the byte extends one or none is
left. Every fallback shortens the prefix when the table is correct, so the length of the
literal bounds the rounds. -/
def fallbackLiteral (literal : TextSegmentExecutionPlan) (byte : UInt8) :
    Nat → Nat → Access Nat
  | 0, _ => none
  | fuel + 1, matched =>
    if matched = 0 then some 0
    else do
      let expected ← literal.literal[matched]?
      if byte ≠ expected then do
        let shorter ← literal.prefixTable[matched - 1]?
        fallbackLiteral literal byte fuel shorter
      else some matched

/-- The length of the prefix matched after one more byte. -/
def advanceLiteral (literal : TextSegmentExecutionPlan) (matched : Nat) (byte : UInt8) :
    Access Nat := do
  let reached ← fallbackLiteral literal byte (literal.literal.length + 1) matched
  let expected ← literal.literal[reached]?
  some (if byte = expected then reached + 1 else reached)

/-- Scans bytes from an index on for a literal; `remaining` counts the bytes left. -/
def scanLiteral (literal : TextSegmentExecutionPlan) (byteAt : Nat → Access UInt8) :
    Nat → Nat → Nat → Access (Option Nat)
  | 0, _, _ => some none
  | remaining + 1, index, matched => do
    let byte ← byteAt index
    let matched ← advanceLiteral literal matched byte
    if matched = literal.literal.length then some (some (index + 1 - matched))
    else scanLiteral literal byteAt remaining (index + 1) matched

/-- Where a literal is first found behind a field that starts at `start`, when the field
can be that long. -/
def findTextLiteral (input : List UInt8) (start maximumFieldLength : Nat)
    (literal : TextSegmentExecutionPlan) : Access (Option Nat) :=
  if literal.literal = [] ∨ literal.prefixTable.length ≠ literal.literal.length ∨
      start > input.length then
    some none
  else
    let stop :=
      if maximumFieldLength ≤ input.length - start ∧
          literal.literal.length ≤ input.length - start - maximumFieldLength then
        start + maximumFieldLength + literal.literal.length
      else input.length
    scanLiteral literal (input[·]?) (stop - start) start 0

/-- Where a literal is first found in a value with the literal behind it. -/
def findFirstAcrossBoundary (value : List UInt8) (literal : TextSegmentExecutionPlan) :
    Access (Option Nat) :=
  scanLiteral literal
    (fun index => if index < value.length then value[index]?
      else literal.literal[index - value.length]?)
    (value.length + literal.literal.length) 0 0

/-! ### The walk -/

/-- How a walk ends. -/
inductive TextWalkStatus where
  | match
  | noMatch
  | invalidCharacter
  | invalidPlan
  deriving DecidableEq

/-- Whether a field allows a character. -/
def isAllowedAscii (field : FieldExecutionPlan) (character : UInt8) : Bool :=
  character ≤ 0x7F &&
    (if character < 64 then field.allowedAsciiLow else field.allowedAsciiHigh).testBit
      (character.toNat % 64)

/-- Whether a literal stands at a position. The bytes are compared up to the first
difference. -/
def literalMatches (input : List UInt8) : Nat → List UInt8 → Access Bool
  | _, [] => some true
  | cursor, expected :: rest => do
    let byte ← input[cursor]?
    if byte ≠ expected then some false else literalMatches input (cursor + 1) rest

/-- Whether all characters of a field are allowed, up to the first that is not. -/
def charactersAllowed (field : FieldExecutionPlan) (input : List UInt8) : Nat → Nat → Access Bool
  | 0, _ => some true
  | remaining + 1, index => do
    let character ← input[index]?
    if isAllowedAscii field character = false then some false
    else charactersAllowed field input remaining (index + 1)

/-- The length of a field, or how the walk ends for want of one. -/
def textFieldLength (field : FieldExecutionPlan) (input : List UInt8) (cursor : Nat)
    (rest : List TextSegmentExecutionPlan) : Access (Except TextWalkStatus Nat) :=
  if field.textMinLength = field.textMaxLength then
    some (if field.textMinLength > input.length - cursor then .error .noMatch
      else .ok field.textMinLength)
  else
    match rest with
    | [] => some (.ok (input.length - cursor))
    | terminator :: _ =>
      if terminator.kind ≠ .literal then some (.error .invalidPlan)
      else do
        match ← findTextLiteral input cursor field.textMaxLength terminator with
        | none => some (.error .noMatch)
        | some found => some (.ok (found - cursor))

/-- The walk over the segments from a cursor on. A visitor takes the index, the offset and
the length of each field and may refuse it. -/
def walkSegments {σ : Type} (message : MessageExecutionPlan) (input : List UInt8)
    (validateCharacters : Bool) (visitor : σ → Nat → Nat → Nat → Access (σ × Bool)) :
    List TextSegmentExecutionPlan → Nat → σ → Access (TextWalkStatus × σ)
  | [], cursor, state => some (if cursor = input.length then .match else .noMatch, state)
  | segment :: rest, cursor, state =>
    match segment.kind with
    | .literal =>
      if segment.literal = [] ∨ segment.literal.length > input.length - cursor then
        some (.noMatch, state)
      else do
        if ← literalMatches input cursor segment.literal then
          walkSegments message input validateCharacters visitor rest
            (cursor + segment.literal.length) state
        else some (.noMatch, state)
    | .field =>
      match message.fields[segment.fieldIndex]? with
      | none => some (.invalidPlan, state)
      | some field => do
        match ← textFieldLength field input cursor rest with
        | .error status => some (status, state)
        | .ok length =>
          if length < field.textMinLength ∨ length > field.textMaxLength then
            some (.noMatch, state)
          else do
            let allowed ←
              if validateCharacters then charactersAllowed field input length cursor else some true
            if allowed = false then some (.invalidCharacter, state)
            else do
              let (state, taken) ← visitor state segment.fieldIndex cursor length
              if taken = false then some (.invalidPlan, state)
              else
                walkSegments message input validateCharacters visitor rest (cursor + length) state

/-- The walk over an action. -/
def walkTextAction {σ : Type} (action : TextActionExecutionPlan) (message : MessageExecutionPlan)
    (input : List UInt8) (validateCharacters : Bool)
    (visitor : σ → Nat → Nat → Nat → Access (σ × Bool)) (state : σ) :
    Access (TextWalkStatus × σ) :=
  if input.length < action.minRecordLength ∨ input.length > action.maxRecordLength ∨
      action.segments = [] then
    some (.noMatch, state)
  else walkSegments message input validateCharacters visitor action.segments 0 state

/-- A visitor that takes every field and keeps nothing. -/
def acceptField : Unit → Nat → Nat → Nat → Access (Unit × Bool) := fun _ _ _ _ => some ((), true)

/-- Whether the decode action of a message takes an input. -/
def textMessageMatches (message : MessageExecutionPlan) (input : List UInt8) : Access Bool :=
  match message.textDecode with
  | none => some false
  | some action => do
    let (status, _) ← walkTextAction action message input false acceptField ()
    some (status == .match)

end ProtocolAdapter.Codec

/-
This file defines the readers of single properties: the whitelist of an object's
members, the required and the optional member, and the exact conversions of strings,
identifiers, integers, booleans and hexadecimal texts. Each of them gives the same
result for a value and for its normal form, since a member is only found by its name
and the unknown member that is reported is the smallest one.
-/

import ProtocolAdapter.ConfigCompiler.Audit
import ProtocolAdapter.ConfigCompiler.SchemaIr

namespace ProtocolAdapter.ConfigCompiler

open Foundation

/-! ### Members of an object -/

/-- One step of the search for the smallest member outside the whitelist. -/
def stepUnknown (allowed : List String) (firstUnknown : Option String) (key : String) :
    Option String :=
  if key ∈ allowed then firstUnknown
  else match firstUnknown with
    | none => some key
    | some smallest => if key < smallest then some key else some smallest

/-- The smallest member of an object that the whitelist does not name. -/
def firstUnknown (allowed : List String) (value : JsonValue) : Option String :=
  value.keys.foldl (stepUnknown allowed) none

/-- Rejects an object with a member outside the whitelist. -/
def validateObjectProperties (value : JsonValue) (pointer : String) (allowed : List String) :
    Compiled Unit :=
  match firstUnknown allowed value with
  | some key => .error (structural .unknownProperty (childPointer pointer key)
      "unknown property is not allowed by the V0.1 draft slice")
  | none => .ok ()

/-- The member an object must have. -/
def requiredProperty (value : JsonValue) (key pointer : String) : Compiled JsonValue :=
  match value.get? key with
  | some found => .ok found
  | none => .error (structural .missingProperty (childPointer pointer key)
      "required property is missing")

/-- Rejects an object that has one of the members it must not have here; the first of
them in the order of the list is reported. -/
def rejectMembers (value : JsonValue) (names : List String) (pointer detail : String) :
    Compiled Unit :=
  match names.find? fun name => (value.get? name).isSome with
  | some name => .error (structural .unknownProperty (childPointer pointer name) detail)
  | none => .ok ()

/-- Reads an optional member, or takes the default when the object has no such member. -/
def ifProperty {α : Type} (value : JsonValue) (key : String) (absent : Compiled α)
    (present : JsonValue → Compiled α) : Compiled α :=
  match value.get? key with
  | some found => present found
  | none => absent

/-! ### Strings -/

/-- Reads a string whose length in scalar values lies in a range. -/
def readString (value : JsonValue) (pointer : String) (minLength maxLength : Nat) :
    Compiled String := do
  rejectIf (!value.isStr) (structural .typeMismatch pointer "expected a JSON string")
  rejectIf (value.getStr.length < minLength ∨ value.getStr.length > maxLength)
    (structural .invalidStringLength pointer
      "decoded Unicode scalar count is outside the draft Schema range")
  pure value.getStr

def isLowercase (character : Char) : Bool := 'a' ≤ character && character ≤ 'z'

def isDigit (character : Char) : Bool := '0' ≤ character && character ≤ '9'

/-- Whether a text is a lowercase letter followed by lowercase letters, digits and
underscores. -/
def isStableId (text : String) : Bool :=
  match text.toList with
  | [] => false
  | first :: rest => isLowercase first && rest.all fun character =>
      isLowercase character || isDigit character || character == '_'

def readStableId (value : JsonValue) (pointer : String) : Compiled String := do
  let text ← readString value pointer 1 128
  rejectIf (!isStableId text)
    (structural .invalidId pointer "stable ID must match ^[a-z][a-z0-9_]*$")
  pure text

/-- Reads a string that must be one of the given tokens. -/
def readEnumToken (value : JsonValue) (pointer : String) (allowed : List String) :
    Compiled String := do
  let text ← readString value pointer 1 64
  rejectIf (text ∉ allowed)
    (structural .invalidEnumValue pointer
      "string is not one of the allowed draft Schema enum values")
  pure text

/-! ### Integers -/

/-- Reads decimal digits up to a limit. -/
def readDigits (limit : Nat) (error : CompileDiagnostic) : List Char → Nat → Compiled Nat
  | [], parsed => .ok parsed
  | character :: rest, parsed => do
    let digit := character.toNat - '0'.toNat
    rejectIf (parsed > (limit - digit) / 10) error
    readDigits limit error rest (parsed * 10 + digit)

/-- Reads an exact unsigned integer: decimal digits only, at most the largest 64-bit
value. -/
def readExactUint64 (value : JsonValue) (pointer : String) : Compiled Nat := do
  rejectIf (!value.isRaw)
    (structural .typeMismatch pointer "expected an unsigned integer JSON token")
  let token := value.getRaw.toList
  rejectIf (token = [])
    { stage := .internal, code := .internalContractViolation, jsonPointer := pointer,
      detail := "yyjson returned an empty raw number token" }
  rejectIf (token.head? = some '-')
    (structural .integerOutOfRange pointer
      "negative token is not valid for an unsigned property")
  rejectIf (!token.all isDigit)
    (structural .integerNotExact pointer
      "fraction and exponent forms are not accepted for integer properties")
  readDigits maxUint64
    (structural .integerOutOfRange pointer "unsigned integer token exceeds UINT64_MAX") token 0

/-- Reads an exact signed integer of 64 bits; the token `-0` reads as zero. -/
def readExactInt64 (value : JsonValue) (pointer : String) : Compiled Int := do
  rejectIf (!value.isRaw)
    (structural .typeMismatch pointer "expected a signed integer JSON token")
  let token := value.getRaw.toList
  rejectIf (token = [])
    { stage := .internal, code := .internalContractViolation, jsonPointer := pointer,
      detail := "yyjson returned an empty raw number token" }
  let negative := token.head? = some '-'
  let digits := if negative then token.tail else token
  rejectIf (digits = [] ∨ !digits.all isDigit)
    (structural .integerNotExact pointer
      "fraction and exponent forms are not accepted for integer properties")
  let limit := if negative then 2 ^ 63 else 2 ^ 63 - 1
  let magnitude ← readDigits limit
    (structural .integerOutOfRange pointer "signed integer token is outside INT64 range") digits 0
  pure (if negative then -(magnitude : Int) else magnitude)

/-! ### Required members of one type -/

def readRequiredString (value : JsonValue) (key pointer : String) (minLength maxLength : Nat) :
    Compiled String := do
  let found ← requiredProperty value key pointer
  readString found (childPointer pointer key) minLength maxLength

def readRequiredId (value : JsonValue) (key pointer : String) : Compiled String := do
  let found ← requiredProperty value key pointer
  readStableId found (childPointer pointer key)

def readRequiredUint64 (value : JsonValue) (key pointer : String) : Compiled Nat := do
  let found ← requiredProperty value key pointer
  readExactUint64 found (childPointer pointer key)

def readRequiredEnumToken (value : JsonValue) (key pointer : String) (allowed : List String) :
    Compiled String := do
  let found ← requiredProperty value key pointer
  readEnumToken found (childPointer pointer key) allowed

def readRequiredBool (value : JsonValue) (key pointer : String) : Compiled Bool := do
  let found ← requiredProperty value key pointer
  rejectIf (!found.isBool)
    (structural .typeMismatch (childPointer pointer key) "expected a JSON boolean")
  pure found.getBool

/-- The texts every record of a configuration starts with. -/
structure Labels where
  id : String
  displayName : String
  description : String
  sourceRef : String

def readLabels (value : JsonValue) (pointer : String) : Compiled Labels := do
  let id ← readRequiredId value "id" pointer
  let displayName ← readRequiredString value "display_name" pointer 1 256
  let description ← readRequiredString value "description" pointer 0 1024
  let sourceRef ← readRequiredString value "source_ref" pointer 1 512
  pure { id, displayName, description, sourceRef }

/-- Reads the byte order of a multi-byte integer. -/
def readByteOrder (value : JsonValue) (pointer : String) : Compiled ByteOrder := do
  let token ← readEnumToken value pointer ["big_endian", "little_endian"]
  pure (if token = "big_endian" then .big else .little)

/-! ### Hexadecimal texts -/

/-- The value of an uppercase hexadecimal digit. -/
def hexValue (character : UInt8) : Option Nat :=
  if 0x30 ≤ character ∧ character ≤ 0x39 then some (character.toNat - 0x30)
  else if 0x41 ≤ character ∧ character ≤ 0x46 then some (character.toNat - 0x41 + 10)
  else none

/-- Reads the digits of a CRC parameter. -/
def readCrcDigits (error : CompileDiagnostic) : List UInt8 → Nat → Compiled Nat
  | [], parsed => .ok parsed
  | character :: rest, parsed =>
    match hexValue character with
    | some nibble => readCrcDigits error rest ((parsed <<< 4 ||| nibble) % 2 ^ 32)
    | none => .error error

def readRequiredCrcHex (value : JsonValue) (key pointer : String) (digits : Nat) :
    Compiled Nat := do
  let token ← readRequiredString value key pointer digits digits
  readCrcDigits (structural .invalidEnumValue (childPointer pointer key)
    "CRC hexadecimal value must use fixed-width uppercase hexadecimal") token.toUTF8.toList 0

/-- The bytes of hexadecimal pairs that single spaces separate. -/
def hexPairs : List UInt8 → Option (List UInt8)
  | high :: low :: rest => do
    let highValue ← hexValue high
    let lowValue ← hexValue low
    let byte := UInt8.ofNat (highValue <<< 4 ||| lowValue)
    match rest with
    | [] => some [byte]
    | separator :: rest =>
      if separator ≠ 0x20 then none else (byte :: ·) <$> hexPairs rest
  | _ => some []

/-- The bytes of a text of hexadecimal pairs, absent when the text is anything else. -/
def parseHexBytes (input : String) : Option (List UInt8) :=
  if input.utf8ByteSize < 2 ∨ (input.utf8ByteSize + 1) % 3 ≠ 0 then none
  else hexPairs input.toUTF8.toList

/-! ### Arrays -/

/-- Reads the elements of an array in order, each at its own pointer. -/
def readElements {α : Type} (parseItem : JsonValue → String → Compiled α) (pointer : String) :
    List JsonValue → Nat → Compiled (List α)
  | [], _ => .ok []
  | element :: rest, index => do
    let item ← parseItem element (indexPointer pointer index)
    let items ← readElements parseItem pointer rest (index + 1)
    pure (item :: items)

/-- Reads an array that must not be empty. -/
def readNonemptyArray {α : Type} (parseItem : JsonValue → String → Compiled α)
    (value : JsonValue) (pointer expected empty : String) : Compiled (List α) := do
  rejectIf (!value.isArr) (structural .typeMismatch pointer expected)
  rejectIf (value.elements = []) (structural .emptyArray pointer empty)
  readElements parseItem pointer value.elements 0

/-! ### Reading a normal form -/

theorem stepUnknown_comm (allowed : List String) (smallest : Option String)
    (first second : String) :
    stepUnknown allowed (stepUnknown allowed smallest first) second =
      stepUnknown allowed (stepUnknown allowed smallest second) first := by
  unfold stepUnknown
  by_cases firstAllowed : first ∈ allowed <;> by_cases secondAllowed : second ∈ allowed <;>
    simp only [firstAllowed, secondAllowed, if_true, if_false]
  rcases lt_trichotomy first second with before | same | before
  · cases smallest with
    | none => simp [before, before.not_gt]
    | some least => grind
  · rw [same]
  · cases smallest with
    | none => simp [before, before.not_gt]
    | some least => grind

@[simp] theorem firstUnknown_normal (allowed : List String) (value : JsonValue) :
    firstUnknown allowed value.normal = firstUnknown allowed value :=
  value.keys_normal.foldl_eq' (fun first _ second _ smallest =>
    stepUnknown_comm allowed smallest first second) none

@[simp] theorem validateObjectProperties_normal (value : JsonValue) (pointer : String)
    (allowed : List String) : validateObjectProperties value.normal pointer allowed =
      validateObjectProperties value pointer allowed := by
  simp only [validateObjectProperties, firstUnknown_normal]

@[simp] theorem requiredProperty_normal (value : JsonValue) (key pointer : String) :
    requiredProperty value.normal key pointer =
      (requiredProperty value key pointer).map JsonValue.normal := by
  unfold requiredProperty
  rw [JsonValue.get?_normal]
  cases value.get? key <;> rfl

@[simp] theorem rejectMembers_normal (value : JsonValue) (names : List String)
    (pointer detail : String) : rejectMembers value.normal names pointer detail =
      rejectMembers value names pointer detail := by
  simp [rejectMembers]

@[simp] theorem ifProperty_normal {α : Type} (value : JsonValue) (key : String)
    (absent : Compiled α) (present : JsonValue → Compiled α) :
    ifProperty value.normal key absent present =
      ifProperty value key absent fun found => present found.normal := by
  unfold ifProperty
  rw [JsonValue.get?_normal]
  cases value.get? key <;> rfl

@[simp] theorem readString_normal (value : JsonValue) (pointer : String)
    (minLength maxLength : Nat) : readString value.normal pointer minLength maxLength =
      readString value pointer minLength maxLength := by
  simp [readString]

@[simp] theorem readStableId_normal (value : JsonValue) (pointer : String) :
    readStableId value.normal pointer = readStableId value pointer := by
  simp [readStableId]

@[simp] theorem readEnumToken_normal (value : JsonValue) (pointer : String)
    (allowed : List String) :
    readEnumToken value.normal pointer allowed = readEnumToken value pointer allowed := by
  simp [readEnumToken]

@[simp] theorem readExactUint64_normal (value : JsonValue) (pointer : String) :
    readExactUint64 value.normal pointer = readExactUint64 value pointer := by
  simp [readExactUint64]

@[simp] theorem readExactInt64_normal (value : JsonValue) (pointer : String) :
    readExactInt64 value.normal pointer = readExactInt64 value pointer := by
  simp [readExactInt64]

/-- A step after a mapped computation sees the mapped value. -/
@[simp] theorem map_bind {α β γ : Type} (change : α → β) (first : Compiled α)
    (next : β → Compiled γ) :
    (Except.map change first >>= next) = first >>= fun value => next (change value) := by
  cases first <;> rfl

@[simp] theorem readRequiredString_normal (value : JsonValue) (key pointer : String)
    (minLength maxLength : Nat) : readRequiredString value.normal key pointer minLength maxLength =
      readRequiredString value key pointer minLength maxLength := by
  simp [readRequiredString]

@[simp] theorem readRequiredId_normal (value : JsonValue) (key pointer : String) :
    readRequiredId value.normal key pointer = readRequiredId value key pointer := by
  simp [readRequiredId]

@[simp] theorem readRequiredUint64_normal (value : JsonValue) (key pointer : String) :
    readRequiredUint64 value.normal key pointer = readRequiredUint64 value key pointer := by
  simp [readRequiredUint64]

@[simp] theorem readRequiredEnumToken_normal (value : JsonValue) (key pointer : String)
    (allowed : List String) : readRequiredEnumToken value.normal key pointer allowed =
      readRequiredEnumToken value key pointer allowed := by
  simp [readRequiredEnumToken]

@[simp] theorem readRequiredBool_normal (value : JsonValue) (key pointer : String) :
    readRequiredBool value.normal key pointer = readRequiredBool value key pointer := by
  simp [readRequiredBool]

@[simp] theorem readRequiredCrcHex_normal (value : JsonValue) (key pointer : String)
    (digits : Nat) : readRequiredCrcHex value.normal key pointer digits =
      readRequiredCrcHex value key pointer digits := by
  simp [readRequiredCrcHex]

@[simp] theorem readLabels_normal (value : JsonValue) (pointer : String) :
    readLabels value.normal pointer = readLabels value pointer := by
  simp [readLabels]

@[simp] theorem readByteOrder_normal (value : JsonValue) (pointer : String) :
    readByteOrder value.normal pointer = readByteOrder value pointer := by
  simp [readByteOrder]

section Arrays

variable {α : Type} {parseItem : JsonValue → String → Compiled α}

theorem readElements_normal
    (same : ∀ value pointer, parseItem value.normal pointer = parseItem value pointer)
    (pointer : String) : ∀ (elements : List JsonValue) (index : Nat),
      readElements parseItem pointer (elements.map JsonValue.normal) index =
        readElements parseItem pointer elements index := by
  intro elements
  induction elements with
  | nil => intro index; rfl
  | cons element rest inductionHypothesis =>
    intro index
    rw [List.map_cons, readElements, readElements, same, inductionHypothesis]

@[simp] theorem readNonemptyArray_normal
    (same : ∀ value pointer, parseItem value.normal pointer = parseItem value pointer)
    (value : JsonValue) (pointer expected empty : String) :
    readNonemptyArray parseItem value.normal pointer expected empty =
      readNonemptyArray parseItem value pointer expected empty := by
  simp [readNonemptyArray, readElements_normal same]

end Arrays

end ProtocolAdapter.ConfigCompiler

/-
This file is a library for programs that write JSON texts piece by piece in bytes. The bytes of a
value, an element or a member are put together into the bytes of an array or an object, with white
space where the grammar allows it.
-/

import Mathlib.Data.List.Forall2
import ProtocolAdapter.Foundation.JsonReading

namespace Foundation.JsonText

open ByteText

/-! ### Pieces -/

/-- The bytes are a spelling of the value. -/
def Writes (bytes : List UInt8) (value : JsonValue) : Prop :=
  ∃ word, bytes = encode word ∧ Spells value word

/-- The bytes are white space. -/
def Blank (bytes : List UInt8) : Prop := ∃ gap, bytes = encode gap ∧ Spaces gap

/-- The bytes are a key, a colon and a value, with white space around them. -/
def WritesMember (bytes : List UInt8) (member : String × JsonValue) : Prop :=
  ∃ before name gap space word, Spaces before ∧ Quoted name member.1.toList ∧ Spaces gap ∧
    Spaces space ∧ Spells member.2 word ∧
    bytes = encode (before ++ (name ++ (gap ++ (':' :: (space ++ word)))))

theorem blank_nil : Blank [] := ⟨[], rfl, fun _ member => nomatch member⟩

theorem Blank.append {first second : List UInt8} (one : Blank first) (other : Blank second) :
    Blank (first ++ second) := by
  obtain ⟨gap, rfl, spaces⟩ := one
  obtain ⟨more, rfl, further⟩ := other
  exact ⟨gap ++ more, (encode_append _ _).symm, List.forall_mem_append.mpr ⟨spaces, further⟩⟩

theorem encode_cons_ascii {byte : UInt8} {character : Char} (characters : List Char)
    (ascii : String.utf8EncodeChar character = [byte]) :
    encode (character :: characters) = byte :: encode characters := by
  rw [encode_cons, ascii]
  rfl

/-! ### Strings -/

/-- The bytes of a string may be written one at a time: a byte of ASCII by a spelling of its
character, any other byte as it is. -/
structure Quotes (quoteByte : UInt8 → List UInt8) : Prop where
  ascii : ∀ number, number < 0x80 → ∃ word, quoteByte (UInt8.ofNat number) = encode word ∧
    Spelling word (Char.ofNat number)
  wide : ∀ byte : UInt8, 0x80 ≤ byte.toNat → quoteByte byte = [byte]

theorem Quotes.spelling {quoteByte : UInt8 → List UInt8} (quotes : Quotes quoteByte)
    (character : Char) : ∃ word, (String.utf8EncodeChar character).flatMap quoteByte = encode word ∧
      Spelling word character := by
  by_cases ascii : character.toNat < 0x80
  · obtain ⟨word, written, spelling⟩ := quotes.ascii character.toNat ascii
    have single := encode_ascii character.toNat ascii
    rw [Char.ofNat_toNat] at single spelling
    exact ⟨word, by rw [single, List.flatMap_singleton, written], spelling⟩
  · have plain := flatMap_eq_self fun byte member =>
      quotes.wide byte (wide_bytes (Nat.not_lt.mp ascii) byte member)
    refine ⟨[character], ?_, .plain character (by omega) ?_ ?_⟩
    · rw [plain, encode_cons, encode_nil, List.append_nil]
    · rintro rfl
      exact ascii (by decide)
    · rintro rfl
      exact ascii (by decide)

theorem Quotes.spelled {quoteByte : UInt8 → List UInt8} (quotes : Quotes quoteByte)
    (characters : List Char) : ∃ inner, (encode characters).flatMap quoteByte = encode inner ∧
      Spelled inner characters := by
  induction characters with
  | nil => exact ⟨[], rfl, .nil⟩
  | cons first rest inductionHypothesis =>
    obtain ⟨word, written, spelling⟩ := quotes.spelling first
    obtain ⟨inner, others, spelled⟩ := inductionHypothesis
    exact ⟨word ++ inner, by rw [encode_cons, List.flatMap_append, written, others, encode_append],
      .cons spelling spelled⟩

/-- The bytes of a text between quotes are a string of the text. -/
theorem Quotes.quoted {quoteByte : UInt8 → List UInt8} (quotes : Quotes quoteByte)
    (characters : List Char) : ∃ word,
      0x22 :: ((encode characters).flatMap quoteByte ++ [0x22]) = encode word ∧
        Quoted word characters := by
  obtain ⟨inner, written, spelled⟩ := quotes.spelled characters
  refine ⟨'"' :: (inner ++ ['"']), ?_, inner, spelled, rfl⟩
  have opens : encode ('"' :: (inner ++ ['"'])) = 0x22 :: encode (inner ++ ['"']) :=
    encode_cons_ascii _ rfl
  rw [written, opens, encode_append]
  rfl

theorem Quotes.writes {quoteByte : UInt8 → List UInt8} (quotes : Quotes quoteByte)
    (characters : List Char) :
    Writes (0x22 :: ((encode characters).flatMap quoteByte ++ [0x22]))
      (.str (String.ofList characters)) := by
  obtain ⟨word, written, quoted⟩ := quotes.quoted characters
  refine ⟨word, written, ?_⟩
  rw [Spells, String.toList_ofList]
  exact quoted

/-! ### Arrays -/

/-- Elements with commas between them. -/
theorem spellsElements_of_parts {parts : List (List UInt8)} {elements : List JsonValue}
    (written : List.Forall₂ Writes parts elements) : parts ≠ [] →
      ∃ inner, (parts.intersperse [0x2c]).flatten = encode inner ∧
        SpellsElements elements (',' :: inner) := by
  induction written with
  | nil => exact fun nonempty => absurd rfl nonempty
  | @cons part element parts elements first others inductionHypothesis =>
    intro _
    obtain ⟨word, rfl, spells⟩ := first
    cases others with
    | nil =>
      refine ⟨word, by simp, ?_⟩
      rw [SpellsElements]
      exact ⟨[], word, [], [], fun _ member => (nomatch member), spells,
        fun _ member => (nomatch member), by rw [SpellsElements], by simp⟩
    | @cons next element' parts elements second rest =>
      obtain ⟨inner, flat, further⟩ := inductionHypothesis (List.cons_ne_nil _ _)
      refine ⟨word ++ ',' :: inner, ?_, ?_⟩
      · have comma : encode (',' :: inner) = 0x2c :: encode inner := encode_cons_ascii inner rfl
        rw [List.intersperse_cons_cons, List.flatten_cons, List.flatten_cons, flat, encode_append,
          comma]
        rfl
      · rw [SpellsElements]
        exact ⟨[], word, [], _, fun _ member => (nomatch member), spells,
          fun _ member => (nomatch member), further, by simp⟩

/-- An array of elements with commas between them. -/
theorem Writes.arr {parts : List (List UInt8)} {elements : List JsonValue}
    (written : List.Forall₂ Writes parts elements) :
    Writes (0x5b :: ((parts.intersperse [0x2c]).flatten ++ [0x5d])) (.arr elements) := by
  by_cases empty : parts = []
  · subst empty
    cases written
    refine ⟨['[', ']'], rfl, ?_⟩
    rw [Spells]
    exact ⟨[], rfl, .inl ⟨rfl, fun _ member => nomatch member⟩⟩
  · obtain ⟨inner, flat, spells⟩ := spellsElements_of_parts written empty
    refine ⟨'[' :: (inner ++ [']']), ?_, ?_⟩
    · have opens : encode ('[' :: (inner ++ [']'])) = 0x5b :: encode (inner ++ [']']) :=
        encode_cons_ascii _ rfl
      rw [flat, opens, encode_append]
      rfl
    · rw [Spells]
      refine ⟨inner, rfl, .inr ⟨?_, spells⟩⟩
      rintro rfl
      cases written
      exact empty rfl

/-! ### Objects -/

/-- Members with commas between them, white space in front of each and behind the last. -/
theorem spellsMembers_of_parts {lead trail : List Char} (leads : Spaces lead)
    (trails : Spaces trail) {parts : List (List UInt8)} {members : List (String × JsonValue)}
    (written : List.Forall₂ WritesMember parts members) : parts ≠ [] →
      ∃ inner, encode lead ++ ((parts.intersperse (0x2c :: encode lead)).flatten ++ encode trail) =
          encode inner ∧ SpellsMembers members (',' :: inner) := by
  induction written with
  | nil => exact fun nonempty => absurd rfl nonempty
  | @cons part member parts members first others inductionHypothesis =>
    intro _
    obtain ⟨key, value⟩ := member
    obtain ⟨before, name, gap, space, word, spaces, quoted, gaps, valueSpaces, spells, rfl⟩ := first
    have front : Spaces (lead ++ before) := List.forall_mem_append.mpr ⟨leads, spaces⟩
    cases others with
    | nil =>
      refine ⟨(lead ++ before) ++ (name ++ (gap ++ (':' :: (space ++ (word ++ (trail ++ [])))))),
        by simp, ?_⟩
      rw [SpellsMembers]
      exact ⟨lead ++ before, name, gap, space, word, trail, [], front, quoted, gaps, valueSpaces,
        spells, trails, by rw [SpellsMembers], rfl⟩
    | @cons next member' parts members second rest =>
      obtain ⟨inner, flat, further⟩ := inductionHypothesis (List.cons_ne_nil _ _)
      refine ⟨(lead ++ before) ++ (name ++ (gap ++ (':' :: (space ++ (word ++
        ([] ++ ',' :: inner)))))), ?_, ?_⟩
      · have comma : encode (',' :: inner) = 0x2c :: encode inner :=
          encode_cons_ascii inner rfl
        rw [List.intersperse_cons_cons, List.flatten_cons, List.flatten_cons]
        simp only [encode_append, encode_cons, comma, ← flat, List.append_assoc, List.cons_append,
          List.nil_append]
      · rw [SpellsMembers]
        exact ⟨lead ++ before, name, gap, space, word, [], _, front, quoted, gaps, valueSpaces,
          spells, fun _ member => (nomatch member), further, rfl⟩

/-- An object of members with commas between them. -/
theorem Writes.obj {lead trail : List UInt8} (leads : Blank lead) (trails : Blank trail)
    {parts : List (List UInt8)} {members : List (String × JsonValue)} (nonempty : parts ≠ [])
    (written : List.Forall₂ WritesMember parts members) :
    Writes (0x7b :: (lead ++ ((parts.intersperse (0x2c :: lead)).flatten ++ trail) ++ [0x7d]))
      (.obj members) := by
  obtain ⟨leading, rfl, spaces⟩ := leads
  obtain ⟨trailing, rfl, further⟩ := trails
  obtain ⟨inner, flat, spells⟩ := spellsMembers_of_parts spaces further written nonempty
  refine ⟨'{' :: (inner ++ ['}']), ?_, ?_⟩
  · have opens : encode ('{' :: (inner ++ ['}'])) = 0x7b :: encode (inner ++ ['}']) :=
      encode_cons_ascii _ rfl
    rw [flat, opens, encode_append]
    rfl
  · rw [Spells]
    refine ⟨inner, rfl, .inr ⟨?_, spells⟩⟩
    rintro rfl
    cases written
    exact nonempty rfl

/-- An object without members. -/
theorem writes_noMembers : Writes [0x7b, 0x7d] (.obj []) := by
  refine ⟨['{', '}'], rfl, ?_⟩
  rw [Spells]
  exact ⟨[], rfl, .inl ⟨rfl, fun _ member => nomatch member⟩⟩

/-- A value with white space behind it is a text. -/
theorem Writes.denotes {bytes trail : List UInt8} {value : JsonValue} (writes : Writes bytes value)
    (trails : Blank trail) : Denotes (bytes ++ trail) value := by
  obtain ⟨word, rfl, spells⟩ := writes
  obtain ⟨gap, rfl, spaces⟩ := trails
  exact ⟨word ++ gap, (encode_append _ _).symm, [], word, gap, fun _ member => (nomatch member),
    spells, spaces, rfl⟩

end Foundation.JsonText

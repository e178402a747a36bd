/-
This file is a library for JSON texts. The grammar says which characters spell a document:
white space may stand around every value, a string spells its characters plainly or by escapes,
and a number keeps its token. The reader is the function that gives the document of a text. A
text in bytes is read through its UTF-8 decoding.
-/

import ProtocolAdapter.Foundation.ByteText
import ProtocolAdapter.Foundation.Json

namespace Foundation.JsonText

/-! ### Characters -/

/-- White space between tokens. -/
def isSpace (character : Char) : Bool :=
  character == ' ' || character == '\t' || character == '\n' || character == '\r'

def isDigit (character : Char) : Bool := '0' ≤ character && character ≤ '9'

/-- A character of a literal or a number. -/
def isWord (character : Char) : Bool :=
  isDigit character || ('a' ≤ character && character ≤ 'z') ||
    ('A' ≤ character && character ≤ 'Z') || character == '+' || character == '-' ||
    character == '.'

/-- The value of a hexadecimal digit. -/
def hexDigit (character : Char) : Option Nat :=
  if isDigit character then some (character.toNat - '0'.toNat)
  else if 'a' ≤ character ∧ character ≤ 'f' then some (character.toNat - 'a'.toNat + 10)
  else if 'A' ≤ character ∧ character ≤ 'F' then some (character.toNat - 'A'.toNat + 10)
  else none

/-- The value of four hexadecimal digits. -/
def hexUnit (first second third fourth : Char) : Option Nat := do
  let a ← hexDigit first
  let b ← hexDigit second
  let c ← hexDigit third
  let d ← hexDigit fourth
  pure (((a * 16 + b) * 16 + c) * 16 + d)

/-- The character that a letter after a backslash stands for. -/
def shortEscape : Char → Option Char
  | '"' => some '"'
  | '\\' => some '\\'
  | '/' => some '/'
  | 'b' => some '\x08'
  | 'f' => some '\x0c'
  | 'n' => some '\n'
  | 'r' => some '\r'
  | 't' => some '\t'
  | _ => none

/-- The first unit of a surrogate pair. -/
def IsHigh (unit : Nat) : Prop := 0xd800 ≤ unit ∧ unit < 0xdc00

/-- The second unit of a surrogate pair. -/
def IsLow (unit : Nat) : Prop := 0xdc00 ≤ unit ∧ unit < 0xe000

instance (unit : Nat) : Decidable (IsHigh unit) := inferInstanceAs (Decidable (_ ∧ _))

instance (unit : Nat) : Decidable (IsLow unit) := inferInstanceAs (Decidable (_ ∧ _))

/-- The character of a surrogate pair. -/
def pairChar (high low : Nat) : Char :=
  Char.ofNat (0x10000 + (high - 0xd800) * 0x400 + (low - 0xdc00))

/-! ### Numbers -/

/-- What is left of an exponent behind its sign. -/
def unsignedExponent : List Char → List Char
  | '+' :: digits => digits
  | '-' :: digits => digits
  | digits => digits

def isExponent : List Char → Bool
  | [] => true
  | mark :: rest => (mark == 'e' || mark == 'E') && !(unsignedExponent rest).isEmpty &&
      (unsignedExponent rest).all isDigit

def isFraction : List Char → Bool
  | '.' :: rest => !(rest.takeWhile isDigit).isEmpty && isExponent (rest.dropWhile isDigit)
  | rest => isExponent rest

/-- What is left of a number behind its sign. -/
def unsigned : List Char → List Char
  | '-' :: rest => rest
  | token => token

/-- Whether a token is a number: an optional minus sign, digits without a leading zero, and an
optional fraction and exponent. -/
def isNumber (token : List Char) : Bool :=
  let whole := (unsigned token).takeWhile isDigit
  !whole.isEmpty && (whole.length == 1 || whole.head? != some '0') &&
    isFraction ((unsigned token).dropWhile isDigit)

/-! ### The grammar -/

/-- How a character of a string is spelled. -/
inductive Spelling : List Char → Char → Prop
  | plain (character : Char) (visible : 0x20 ≤ character.toNat) (noQuote : character ≠ '"')
      (noEscape : character ≠ '\\') : Spelling [character] character
  | short {letter character : Char} (escape : shortEscape letter = some character) :
      Spelling ['\\', letter] character
  | unit {a b c d : Char} {unit : Nat} (digits : hexUnit a b c d = some unit)
      (noHigh : ¬IsHigh unit) (noLow : ¬IsLow unit) :
      Spelling ['\\', 'u', a, b, c, d] (Char.ofNat unit)
  | pair {a b c d e f g h : Char} {high low : Nat} (first : hexUnit a b c d = some high)
      (isHigh : IsHigh high) (second : hexUnit e f g h = some low) (isLow : IsLow low) :
      Spelling ['\\', 'u', a, b, c, d, '\\', 'u', e, f, g, h] (pairChar high low)

/-- How the characters of a string are spelled between its quotes. -/
inductive Spelled : List Char → List Char → Prop
  | nil : Spelled [] []
  | cons {word rest text : List Char} {character : Char} (first : Spelling word character)
      (others : Spelled rest text) : Spelled (word ++ rest) (character :: text)

/-- A string with its quotes. -/
def Quoted (word : List Char) (text : List Char) : Prop :=
  ∃ inner, Spelled inner text ∧ word = '"' :: (inner ++ ['"'])

/-- Only white space. -/
def Spaces (gap : List Char) : Prop := ∀ character ∈ gap, isSpace character

mutual

/-- The characters that spell a value, without white space around it. -/
def Spells : JsonValue → List Char → Prop
  | .null, word => word = ['n', 'u', 'l', 'l']
  | .bool true, word => word = ['t', 'r', 'u', 'e']
  | .bool false, word => word = ['f', 'a', 'l', 's', 'e']
  | .raw token, word => word = token.toList ∧ isNumber word
  | .str text, word => Quoted word text.toList
  | .arr elements, word => ∃ inner, word = '[' :: (inner ++ [']']) ∧
      ((elements = [] ∧ Spaces inner) ∨ (elements ≠ [] ∧ SpellsElements elements (',' :: inner)))
  | .obj members, word => ∃ inner, word = '{' :: (inner ++ ['}']) ∧
      ((members = [] ∧ Spaces inner) ∨ (members ≠ [] ∧ SpellsMembers members (',' :: inner)))

/-- Elements of an array, a comma in front of each. -/
def SpellsElements : List JsonValue → List Char → Prop
  | [], word => word = []
  | element :: rest, word => ∃ before inner after tail, Spaces before ∧ Spells element inner ∧
      Spaces after ∧ SpellsElements rest tail ∧
      word = ',' :: (before ++ (inner ++ (after ++ tail)))

/-- Members of an object, a comma in front of each. -/
def SpellsMembers : List (String × JsonValue) → List Char → Prop
  | [], word => word = []
  | (key, value) :: rest, word => ∃ before name gap space inner after tail, Spaces before ∧
      Quoted name key.toList ∧ Spaces gap ∧ Spaces space ∧ Spells value inner ∧ Spaces after ∧
      SpellsMembers rest tail ∧
      word = ',' :: (before ++ (name ++ (gap ++ (':' :: (space ++ (inner ++ (after ++ tail)))))))

end

/-- A text is a value with white space around it. -/
def SpellsText (value : JsonValue) (text : List Char) : Prop :=
  ∃ before word after, Spaces before ∧ Spells value word ∧ Spaces after ∧
    text = before ++ (word ++ after)

/-- The bytes of a text. -/
def Denotes (bytes : List UInt8) (value : JsonValue) : Prop :=
  ∃ text, bytes = ByteText.encode text ∧ SpellsText value text

/-! ### The reader -/

/-- Reads an escape behind its backslash. -/
def readEscape : List Char → Option (Char × List Char)
  | 'u' :: a :: b :: c :: d :: rest => do
    let unit ← hexUnit a b c d
    if IsHigh unit then
      match rest with
      | '\\' :: 'u' :: e :: f :: g :: h :: rest => do
        let low ← hexUnit e f g h
        if IsLow low then some (pairChar unit low, rest) else none
      | _ => none
    else if IsLow unit then none
    else some (Char.ofNat unit, rest)
  | letter :: rest => (shortEscape letter).map fun character => (character, rest)
  | [] => none

/-- Reads the characters of a string up to its closing quote. -/
def readString : Nat → List Char → Option (List Char × List Char)
  | 0, _ => none
  | fuel + 1, characters =>
    match characters with
    | [] => none
    | '"' :: rest => some ([], rest)
    | '\\' :: rest => do
      let (character, rest) ← readEscape rest
      let (text, rest) ← readString fuel rest
      some (character :: text, rest)
    | character :: rest =>
      if character.toNat < 0x20 then none
      else do
        let (text, rest) ← readString fuel rest
        some (character :: text, rest)

/-- Reads a literal or a number. -/
def readWord (characters : List Char) : Option (JsonValue × List Char) :=
  let word := characters.takeWhile isWord
  let rest := characters.dropWhile isWord
  if word = ['n', 'u', 'l', 'l'] then some (.null, rest)
  else if word = ['t', 'r', 'u', 'e'] then some (.bool true, rest)
  else if word = ['f', 'a', 'l', 's', 'e'] then some (.bool false, rest)
  else if isNumber word then some (.raw (String.ofList word), rest)
  else none

/-- What is left behind white space. -/
def skip (characters : List Char) : List Char := characters.dropWhile isSpace

mutual

def readValue : Nat → List Char → Option (JsonValue × List Char)
  | 0, _ => none
  | fuel + 1, characters =>
    match characters with
    | '"' :: rest => do
      let (text, rest) ← readString (fuel + 1) rest
      some (.str (String.ofList text), rest)
    | '[' :: rest =>
      match skip rest with
      | ']' :: rest => some (.arr [], rest)
      | _ => do
        let (elements, rest) ← readElements fuel rest
        some (.arr elements, rest)
    | '{' :: rest =>
      match skip rest with
      | '}' :: rest => some (.obj [], rest)
      | _ => do
        let (members, rest) ← readMembers fuel rest
        some (.obj members, rest)
    | characters => readWord characters

/-- Reads elements up to the closing bracket. -/
def readElements : Nat → List Char → Option (List JsonValue × List Char)
  | 0, _ => none
  | fuel + 1, characters => do
    let (element, rest) ← readValue fuel (skip characters)
    match skip rest with
    | ',' :: rest => do
      let (elements, rest) ← readElements fuel rest
      some (element :: elements, rest)
    | ']' :: rest => some ([element], rest)
    | _ => none

/-- Reads members up to the closing brace. -/
def readMembers : Nat → List Char → Option (List (String × JsonValue) × List Char)
  | 0, _ => none
  | fuel + 1, characters =>
    match skip characters with
    | '"' :: rest => do
      let (key, rest) ← readString (fuel + 1) rest
      match skip rest with
      | ':' :: rest => do
        let (value, rest) ← readValue fuel (skip rest)
        match skip rest with
        | ',' :: rest => do
          let (members, rest) ← readMembers fuel rest
          some ((String.ofList key, value) :: members, rest)
        | '}' :: rest => some ([(String.ofList key, value)], rest)
        | _ => none
      | _ => none
    | _ => none

end

/-- Reads a text as one value with white space around it. -/
def readText (text : List Char) : Option JsonValue := do
  let (value, rest) ← readValue (text.length + 1) (skip text)
  if skip rest = [] then some value else none

/-- Reads the bytes of a text. -/
def read (bytes : List UInt8) : Option JsonValue := do
  let text ← ByteText.decode bytes
  readText text

end Foundation.JsonText

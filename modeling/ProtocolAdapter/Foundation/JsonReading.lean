/-
This file proves that the JSON reader is exact: it gives a value for the bytes of a text exactly
when the grammar says that the text spells the value. So no text spells two values.
-/

import Mathlib.Data.List.TakeWhile
import ProtocolAdapter.Foundation.JsonText

namespace Foundation.JsonText

/-! ### Characters that end a value -/

theorem not_isWord_of_isSpace {character : Char} (space : isSpace character) :
    isWord character = false := by
  simp only [isSpace, Bool.or_eq_true, beq_iff_eq] at space
  rcases space with ((rfl | rfl) | rfl) | rfl <;> decide

/-- The next character is no part of a literal or a number. -/
def Stops (rest : List Char) : Prop := ∀ character ∈ rest.head?, isWord character = false

theorem Stops.cons {character : Char} {rest : List Char} (stop : isWord character = false) :
    Stops (character :: rest) := by
  intro other same
  obtain rfl := Option.some.inj same
  exact stop

theorem Stops.append {gap rest : List Char} (spaces : Spaces gap) (stops : Stops rest) :
    Stops (gap ++ rest) := by
  cases gap with
  | nil => exact stops
  | cons character gap =>
    exact Stops.cons (not_isWord_of_isSpace (spaces character List.mem_cons_self))

/-- Skipping passes a gap and stops behind it. -/
theorem skip_append {gap rest : List Char} (spaces : Spaces gap)
    (stops : ∀ character ∈ rest.head?, isSpace character = false) : skip (gap ++ rest) = rest := by
  rw [skip, List.dropWhile_append_of_pos spaces]
  cases rest with
  | nil => rfl
  | cons character rest =>
    exact List.dropWhile_cons_of_neg (Bool.not_eq_true _ ▸ stops character rfl)

theorem skip_spec (text : List Char) : ∃ gap, Spaces gap ∧ text = gap ++ skip text :=
  ⟨text.takeWhile isSpace, fun _ member => List.mem_takeWhile_imp member,
    List.takeWhile_append_dropWhile.symm⟩

/-! ### Words -/

theorem isWord_of_isDigit {character : Char} (digit : isDigit character) : isWord character := by
  rw [isWord, digit]
  rfl

theorem words_of_takeWhile {text : List Char} :
    ∀ character ∈ text.takeWhile isDigit, isWord character := fun _ member =>
  isWord_of_isDigit (List.mem_takeWhile_imp member)

theorem words_of_isExponent {text : List Char} (valid : isExponent text) :
    ∀ character ∈ text, isWord character := by
  cases text with
  | nil => exact fun _ member => absurd member List.not_mem_nil
  | cons mark rest =>
    rw [isExponent] at valid
    simp only [Bool.and_eq_true, Bool.or_eq_true, beq_iff_eq] at valid
    obtain ⟨⟨isMark, _⟩, digits⟩ := valid
    refine List.forall_mem_cons.mpr ⟨?_, ?_⟩
    · rcases isMark with rfl | rfl <;> rfl
    · unfold unsignedExponent at digits
      split at digits
      · exact List.forall_mem_cons.mpr ⟨rfl, fun c member =>
          isWord_of_isDigit (List.all_eq_true.mp digits c member)⟩
      · exact List.forall_mem_cons.mpr ⟨rfl, fun c member =>
          isWord_of_isDigit (List.all_eq_true.mp digits c member)⟩
      · exact fun c member => isWord_of_isDigit (List.all_eq_true.mp digits c member)

theorem words_of_split {text : List Char}
    (rest : ∀ character ∈ text.dropWhile isDigit, isWord character) :
    ∀ character ∈ text, isWord character := by
  intro character member
  rw [← List.takeWhile_append_dropWhile (p := isDigit) (l := text)] at member
  rcases List.mem_append.mp member with before | after
  · exact words_of_takeWhile character before
  · exact rest character after

theorem words_of_isFraction {text : List Char} (valid : isFraction text) :
    ∀ character ∈ text, isWord character := by
  unfold isFraction at valid
  split at valid
  · rw [Bool.and_eq_true] at valid
    exact List.forall_mem_cons.mpr ⟨rfl, words_of_split (words_of_isExponent valid.2)⟩
  · exact words_of_isExponent valid

/-- Every character of a number is a word character. -/
theorem words_of_isNumber {token : List Char} (valid : isNumber token) :
    ∀ character ∈ token, isWord character := by
  simp only [isNumber, Bool.and_eq_true] at valid
  have body := words_of_split (words_of_isFraction valid.2)
  unfold unsigned at body
  split at body
  · exact List.forall_mem_cons.mpr ⟨rfl, body⟩
  · exact body

theorem isNumber_ne_nil {token : List Char} (valid : isNumber token) : token ≠ [] := by
  rintro rfl
  cases valid

theorem takeWhile_word {word rest : List Char} (words : ∀ character ∈ word, isWord character)
    (stops : Stops rest) :
    (word ++ rest).takeWhile isWord = word ∧ (word ++ rest).dropWhile isWord = rest := by
  have ends : rest.takeWhile isWord = [] ∧ rest.dropWhile isWord = rest := by
    cases rest with
    | nil => exact ⟨rfl, rfl⟩
    | cons character rest =>
      have stop := stops character rfl
      exact ⟨List.takeWhile_cons_of_neg (by rw [stop]; decide),
        List.dropWhile_cons_of_neg (by rw [stop]; decide)⟩
  rw [List.takeWhile_append_of_pos words, List.dropWhile_append_of_pos words, ends.1, ends.2,
    List.append_nil]
  exact ⟨rfl, rfl⟩

/-- A word is read as the value it stands for. -/
theorem readWord_of_stops {word rest : List Char} (words : ∀ character ∈ word, isWord character)
    (stops : Stops rest) :
    readWord (word ++ rest) =
      if word = ['n', 'u', 'l', 'l'] then some (.null, rest)
      else if word = ['t', 'r', 'u', 'e'] then some (.bool true, rest)
      else if word = ['f', 'a', 'l', 's', 'e'] then some (.bool false, rest)
      else if isNumber word then some (.raw (String.ofList word), rest)
      else none := by
  obtain ⟨taken, left⟩ := takeWhile_word words stops
  simp only [readWord, taken, left]

/-- What is read as a word spells its value. -/
theorem spells_of_readWord {characters rest : List Char} {value : JsonValue}
    (read : readWord characters = some (value, rest)) :
    ∃ word, characters = word ++ rest ∧ Spells value word := by
  have parted : characters = characters.takeWhile isWord ++ characters.dropWhile isWord :=
    List.takeWhile_append_dropWhile.symm
  unfold readWord at read
  dsimp only at read
  split at read
  · rename_i same
    cases read
    exact ⟨_, parted, by rw [Spells, same]⟩
  split at read
  · rename_i same
    cases read
    exact ⟨_, parted, by rw [Spells, same]⟩
  split at read
  · rename_i same
    cases read
    exact ⟨_, parted, by rw [Spells, same]⟩
  split at read
  · rename_i number
    cases read
    exact ⟨_, parted, by rw [Spells, String.toList_ofList]; exact ⟨rfl, number⟩⟩
  · cases read

/-! ### Strings -/

/-- An escape is read as its character. -/
theorem readEscape_of_spelling {word rest : List Char} {character : Char}
    (spelling : Spelling ('\\' :: word) character) :
    readEscape (word ++ rest) = some (character, rest) := by
  cases spelling with
  | plain _ _ _ noEscape => exact absurd rfl noEscape
  | @short letter _ escape =>
    unfold shortEscape at escape
    split at escape <;> first
      | cases escape
        rfl
      | cases escape
  | unit digits noHigh noLow =>
    simp [readEscape, digits, noHigh, noLow]
  | pair first isHigh second isLow =>
    simp [readEscape, first, isHigh, second, isLow]

/-- A string is read up to its closing quote. -/
theorem readString_of_spelled {inner text : List Char} (spelled : Spelled inner text) :
    ∀ (fuel : Nat) (rest : List Char), inner.length < fuel →
      readString fuel (inner ++ '"' :: rest) = some (text, rest) := by
  induction spelled with
  | nil =>
    intro fuel rest enough
    obtain ⟨fuel, rfl⟩ := Nat.exists_eq_succ_of_ne_zero (Nat.ne_of_gt enough)
    rfl
  | @cons word others text character spelling _ inductionHypothesis =>
    intro fuel rest enough
    obtain ⟨fuel, rfl⟩ := Nat.exists_eq_succ_of_ne_zero (Nat.ne_of_gt (Nat.zero_lt_of_lt enough))
    rw [List.length_append] at enough
    rw [List.append_assoc]
    by_cases escape : ∃ tail, word = '\\' :: tail
    · obtain ⟨tail, rfl⟩ := escape
      rw [List.length_cons] at enough
      have read : readEscape (tail ++ (others ++ '"' :: rest)) = some (character, _) :=
        readEscape_of_spelling spelling
      have further := inductionHypothesis fuel rest (by omega)
      simp only [List.cons_append, readString, read, further, Option.bind_eq_bind,
        Option.bind_some]
    · cases spelling with
      | plain _ visible noQuote noEscape =>
        rw [List.length_singleton] at enough
        have further := inductionHypothesis fuel rest (by omega)
        simp only [List.cons_append, List.nil_append]
        rw [readString]
        · rw [if_neg (Nat.not_lt.mpr visible), further]
          rfl
        · exact noQuote
        · exact fun same => noEscape same
      | short _ => exact absurd ⟨_, rfl⟩ escape
      | unit _ _ _ => exact absurd ⟨_, rfl⟩ escape
      | pair _ _ _ _ => exact absurd ⟨_, rfl⟩ escape

/-- What is read as an escape spells its character. -/
theorem spelling_of_readEscape {text rest : List Char} {character : Char}
    (read : readEscape text = some (character, rest)) :
    ∃ word, text = word ++ rest ∧ Spelling ('\\' :: word) character := by
  unfold readEscape at read
  split at read
  · rename_i a b c d behind
    rw [Option.bind_eq_bind, Option.bind_eq_some_iff] at read
    obtain ⟨unit, digits, read⟩ := read
    by_cases high : IsHigh unit
    · rw [if_pos high] at read
      split at read
      · rename_i e f g h behind
        obtain ⟨low, second, read⟩ := Option.bind_eq_some_iff.mp read
        by_cases isLow : IsLow low
        · rw [if_pos isLow] at read
          obtain ⟨same, left⟩ := Prod.mk.inj (Option.some.inj read)
          rw [← same, ← left]
          exact ⟨['u', a, b, c, d, '\\', 'u', e, f, g, h], rfl, .pair digits high second isLow⟩
        · rw [if_neg isLow] at read
          cases read
      · cases read
    · rw [if_neg high] at read
      by_cases low : IsLow unit
      · rw [if_pos low] at read
        cases read
      · rw [if_neg low] at read
        cases read
        exact ⟨['u', a, b, c, d], rfl, .unit digits high low⟩
  · rename_i letter behind _
    obtain ⟨found, escape, same⟩ := Option.map_eq_some_iff.mp read
    cases same
    exact ⟨[letter], rfl, .short escape⟩
  · cases read

/-- What is read as a string spells its characters. -/
theorem spelled_of_readString : ∀ (fuel : Nat) (characters text rest : List Char),
    readString fuel characters = some (text, rest) →
      ∃ inner, characters = inner ++ '"' :: rest ∧ Spelled inner text := by
  intro fuel
  induction fuel with
  | zero => exact fun _ _ _ read => nomatch read
  | succ fuel inductionHypothesis =>
    intro characters text rest read
    unfold readString at read
    split at read
    · cases read
    · cases read
      exact ⟨[], rfl, .nil⟩
    · simp only [Option.bind_eq_bind, Option.bind_eq_some_iff, Prod.exists] at read
      obtain ⟨character, behind, escape, others, final, further, same⟩ := read
      cases same
      obtain ⟨word, rfl, spelling⟩ := spelling_of_readEscape escape
      obtain ⟨inner, rfl, spelled⟩ := inductionHypothesis _ _ _ further
      exact ⟨('\\' :: word) ++ inner, by simp, .cons spelling spelled⟩
    · rename_i character behind noQuote noEscape
      split at read
      · cases read
      · rename_i visible
        simp only [Option.bind_eq_bind, Option.bind_eq_some_iff, Prod.exists] at read
        obtain ⟨others, final, further, same⟩ := read
        cases same
        obtain ⟨inner, rfl, spelled⟩ := inductionHypothesis _ _ _ further
        exact ⟨[character] ++ inner, rfl,
          .cons (.plain character (Nat.not_lt.mp visible) noQuote noEscape) spelled⟩

/-! ### Values -/

/-- A value that starts with a word character is a literal or a number. -/
theorem readValue_word (fuel : Nat) {character : Char} (word : isWord character)
    (rest : List Char) :
    readValue (fuel + 1) (character :: rest) = readWord (character :: rest) := by
  rw [readValue]
  · rintro _ ⟨rfl, rfl⟩
    cases word
  · rintro _ ⟨rfl, rfl⟩
    cases word
  · rintro _ ⟨rfl, rfl⟩
    cases word

/-- A word is read as the literal or the number that it is. -/
theorem readValue_of_word {word rest : List Char} {fuel : Nat} (nonempty : word ≠ [])
    (words : ∀ character ∈ word, isWord character) (stops : Stops rest)
    (enough : word.length ≤ fuel) :
    readValue fuel (word ++ rest) =
      if word = ['n', 'u', 'l', 'l'] then some (.null, rest)
      else if word = ['t', 'r', 'u', 'e'] then some (.bool true, rest)
      else if word = ['f', 'a', 'l', 's', 'e'] then some (.bool false, rest)
      else if isNumber word then some (.raw (String.ofList word), rest)
      else none := by
  rw [← readWord_of_stops words stops]
  obtain ⟨first, tail, rfl⟩ := List.exists_cons_of_ne_nil nonempty
  obtain ⟨fuel, rfl⟩ := Nat.exists_eq_succ_of_ne_zero (Nat.ne_of_gt (Nat.zero_lt_of_lt enough))
  exact readValue_word fuel (words first List.mem_cons_self) _

/-- The first character of a value is no white space and closes nothing. -/
theorem spells_head {value : JsonValue} {word : List Char} (spells : Spells value word) :
    ∃ first tail, word = first :: tail ∧ isSpace first = false ∧ first ≠ ']' ∧ first ≠ '}' := by
  cases value with
  | null =>
    rw [Spells] at spells
    exact ⟨_, _, spells, by decide⟩
  | bool value =>
    cases value <;> (rw [Spells] at spells; exact ⟨_, _, spells, by decide⟩)
  | raw token =>
    rw [Spells] at spells
    obtain ⟨first, tail, rfl⟩ := List.exists_cons_of_ne_nil (isNumber_ne_nil spells.2)
    have word := words_of_isNumber spells.2 first List.mem_cons_self
    refine ⟨first, tail, rfl, ?_, ?_, ?_⟩
    · exact Bool.eq_false_iff.mpr fun space =>
        Bool.false_ne_true ((not_isWord_of_isSpace space).symm.trans word)
    · rintro rfl
      cases word
    · rintro rfl
      cases word
  | str text =>
    rw [Spells] at spells
    obtain ⟨inner, _, same⟩ := spells
    exact ⟨_, _, same, by decide⟩
  | arr elements =>
    rw [Spells] at spells
    obtain ⟨inner, same, _⟩ := spells
    exact ⟨_, _, same, by decide⟩
  | obj members =>
    rw [Spells] at spells
    obtain ⟨inner, same, _⟩ := spells
    exact ⟨_, _, same, by decide⟩

/-- Skipping a gap in front of a value. -/
theorem skip_value {gap word rest : List Char} {value : JsonValue} (spaces : Spaces gap)
    (spells : Spells value word) : skip (gap ++ (word ++ rest)) = word ++ rest := by
  obtain ⟨first, tail, rfl, noSpace, _, _⟩ := spells_head spells
  refine skip_append spaces fun character same => ?_
  obtain rfl := Option.some.inj same
  exact noSpace

theorem stops_close (closing : Char) (rest : List Char) (stop : isWord closing = false)
    {gap tail : List Char} (spaces : Spaces gap) (tails : tail = [] ∨ ∃ more, tail = ',' :: more) :
    Stops (gap ++ (tail ++ closing :: rest)) := by
  refine Stops.append spaces ?_
  rcases tails with rfl | ⟨more, rfl⟩
  · exact Stops.cons stop
  · exact Stops.cons (by decide)

theorem skip_to {gap rest : List Char} {character : Char} (spaces : Spaces gap)
    (noSpace : isSpace character = false) :
    skip (gap ++ character :: rest) = character :: rest :=
  skip_append spaces fun _ same => Option.some.inj same ▸ noSpace

theorem elements_tail {elements : List JsonValue} {tail : List Char}
    (spells : SpellsElements elements tail) :
    (elements = [] ∧ tail = []) ∨ (elements ≠ [] ∧ ∃ more, tail = ',' :: more) := by
  cases elements with
  | nil =>
    rw [SpellsElements] at spells
    exact .inl ⟨rfl, spells⟩
  | cons element rest =>
    rw [SpellsElements] at spells
    obtain ⟨_, _, _, _, _, _, _, _, same⟩ := spells
    exact .inr ⟨List.cons_ne_nil _ _, _, same⟩

theorem members_tail {members : List (String × JsonValue)} {tail : List Char}
    (spells : SpellsMembers members tail) :
    (members = [] ∧ tail = []) ∨ (members ≠ [] ∧ ∃ more, tail = ',' :: more) := by
  cases members with
  | nil =>
    rw [SpellsMembers] at spells
    exact .inl ⟨rfl, spells⟩
  | cons member rest =>
    obtain ⟨key, value⟩ := member
    rw [SpellsMembers] at spells
    obtain ⟨_, _, _, _, _, _, _, _, _, _, _, _, _, _, same⟩ := spells
    exact .inr ⟨List.cons_ne_nil _ _, _, same⟩

/-- Elements do not start with the closing bracket. -/
theorem elements_open {elements : List JsonValue} {inner : List Char} (inhabited : elements ≠ [])
    (spells : SpellsElements elements (',' :: inner)) (rest : List Char) :
    ∀ behind, skip (inner ++ rest) ≠ ']' :: behind := by
  obtain ⟨element, others, rfl⟩ := List.exists_cons_of_ne_nil inhabited
  rw [SpellsElements] at spells
  obtain ⟨before, word, after, tail, spaces, first, _, _, same⟩ := spells
  obtain rfl := (List.cons.inj same).2
  intro behind closes
  rw [List.append_assoc, List.append_assoc, skip_value spaces first] at closes
  obtain ⟨head, others, rfl, _, noClose, _⟩ := spells_head first
  exact noClose (List.cons.inj closes).1

/-- Members do not start with the closing brace. -/
theorem members_open {members : List (String × JsonValue)} {inner : List Char}
    (inhabited : members ≠ []) (spells : SpellsMembers members (',' :: inner)) (rest : List Char) :
    ∀ behind, skip (inner ++ rest) ≠ '}' :: behind := by
  obtain ⟨⟨key, value⟩, others, rfl⟩ := List.exists_cons_of_ne_nil inhabited
  rw [SpellsMembers] at spells
  obtain ⟨before, name, gap, space, word, after, tail, spaces, quoted, _, _, _, _, _, same⟩ :=
    spells
  obtain rfl := (List.cons.inj same).2
  obtain ⟨_, _, rfl⟩ := quoted
  intro behind closes
  rw [List.append_assoc, List.cons_append, List.cons_append, skip_to spaces (by decide)] at closes
  exact absurd (List.cons.inj closes).1 (by decide)

mutual

/-- What spells a value is read as it. -/
theorem readValue_of_spells : ∀ (value : JsonValue) {word rest : List Char} (fuel : Nat),
    Spells value word → Stops rest → word.length ≤ fuel →
      readValue fuel (word ++ rest) = some (value, rest)
  | .null, word, rest, fuel, spells, stops, enough => by
    rw [Spells] at spells
    subst spells
    rw [readValue_of_word (List.cons_ne_nil _ _) (by decide) stops enough, if_pos rfl]
  | .bool true, word, rest, fuel, spells, stops, enough => by
    rw [Spells] at spells
    subst spells
    rw [readValue_of_word (List.cons_ne_nil _ _) (by decide) stops enough, if_neg (by decide),
      if_pos rfl]
  | .bool false, word, rest, fuel, spells, stops, enough => by
    rw [Spells] at spells
    subst spells
    rw [readValue_of_word (List.cons_ne_nil _ _) (by decide) stops enough, if_neg (by decide),
      if_neg (by decide), if_pos rfl]
  | .raw token, word, rest, fuel, spells, stops, enough => by
    rw [Spells] at spells
    obtain ⟨rfl, number⟩ := spells
    have other : ∀ literal, isNumber literal = false → token.toList ≠ literal := by
      rintro literal refused same
      rw [same, refused] at number
      cases number
    rw [readValue_of_word (isNumber_ne_nil number) (words_of_isNumber number) stops enough,
      if_neg (other _ (by decide)), if_neg (other _ (by decide)), if_neg (other _ (by decide)),
      if_pos number, String.ofList_toList]
  | .str text, word, rest, fuel, spells, stops, enough => by
    rw [Spells] at spells
    obtain ⟨inner, spelled, rfl⟩ := spells
    simp only [List.length_cons, List.length_append, List.length_nil] at enough
    obtain ⟨fuel, rfl⟩ := Nat.exists_eq_succ_of_ne_zero (Nat.ne_of_gt (Nat.zero_lt_of_lt enough))
    have read := readString_of_spelled spelled (fuel + 1) rest (by omega)
    simp only [List.cons_append, List.append_assoc, List.nil_append, readValue, read,
      Option.bind_eq_bind, Option.bind_some, String.ofList_toList]
  | .arr elements, word, rest, fuel, spells, stops, enough => by
    rw [Spells] at spells
    obtain ⟨inner, rfl, content⟩ := spells
    simp only [List.length_cons, List.length_append, List.length_nil] at enough
    obtain ⟨fuel, rfl⟩ := Nat.exists_eq_succ_of_ne_zero (Nat.ne_of_gt (Nat.zero_lt_of_lt enough))
    simp only [List.cons_append, List.append_assoc, List.nil_append]
    rcases content with ⟨rfl, spaces⟩ | ⟨inhabited, further⟩
    · have closes : skip (inner ++ ']' :: rest) = ']' :: rest := skip_to spaces (by decide)
      simp only [readValue, closes]
    · have read : readElements fuel (inner ++ ']' :: rest) = some (elements, rest) :=
        readElements_of_spells elements fuel inhabited further (by omega)
      have opens := elements_open inhabited further (']' :: rest)
      rw [readValue]
      split
      · rename_i behind closes
        exact absurd closes (opens behind)
      · rw [read]
        rfl
  | .obj members, word, rest, fuel, spells, stops, enough => by
    rw [Spells] at spells
    obtain ⟨inner, rfl, content⟩ := spells
    simp only [List.length_cons, List.length_append, List.length_nil] at enough
    obtain ⟨fuel, rfl⟩ := Nat.exists_eq_succ_of_ne_zero (Nat.ne_of_gt (Nat.zero_lt_of_lt enough))
    simp only [List.cons_append, List.append_assoc, List.nil_append]
    rcases content with ⟨rfl, spaces⟩ | ⟨inhabited, further⟩
    · have closes : skip (inner ++ '}' :: rest) = '}' :: rest := skip_to spaces (by decide)
      simp only [readValue, closes]
    · have read : readMembers fuel (inner ++ '}' :: rest) = some (members, rest) :=
        readMembers_of_spells members fuel inhabited further (by omega)
      have opens := members_open inhabited further ('}' :: rest)
      rw [readValue]
      split
      · rename_i behind closes
        exact absurd closes (opens behind)
      · rw [read]
        rfl

theorem readElements_of_spells : ∀ (elements : List JsonValue) {inner rest : List Char}
    (fuel : Nat), elements ≠ [] → SpellsElements elements (',' :: inner) → inner.length < fuel →
      readElements fuel (inner ++ ']' :: rest) = some (elements, rest)
  | [], inner, rest, fuel, inhabited, _, _ => absurd rfl inhabited
  | element :: others, inner, rest, fuel, _, spells, enough => by
    obtain ⟨fuel, rfl⟩ := Nat.exists_eq_succ_of_ne_zero (Nat.ne_of_gt (Nat.zero_lt_of_lt enough))
    rw [SpellsElements] at spells
    obtain ⟨before, word, after, tail, spaces, first, gap, further, same⟩ := spells
    obtain rfl := (List.cons.inj same).2
    simp only [List.length_append] at enough
    have tails := elements_tail further
    have stops := stops_close ']' rest (by decide) gap (tails.imp (·.2) (·.2))
    have read := readValue_of_spells element fuel first stops (by omega)
    simp only [List.append_assoc, readElements, skip_value spaces first, read, Option.bind_eq_bind,
      Option.bind_some]
    rcases tails with ⟨rfl, rfl⟩ | ⟨inhabited, more, rfl⟩
    · have closes : skip (after ++ ([] ++ ']' :: rest)) = ']' :: rest := skip_to gap (by decide)
      simp only [closes]
    · have comma : skip (after ++ (',' :: more ++ ']' :: rest)) = ',' :: (more ++ ']' :: rest) :=
        skip_to gap (by decide)
      rw [List.length_cons] at enough
      have remaining : readElements fuel (more ++ ']' :: rest) = some (others, rest) :=
        readElements_of_spells others fuel inhabited further (by omega)
      simp only [comma, remaining, Option.bind_some]

theorem readMembers_of_spells : ∀ (members : List (String × JsonValue)) {inner rest : List Char}
    (fuel : Nat), members ≠ [] → SpellsMembers members (',' :: inner) → inner.length < fuel →
      readMembers fuel (inner ++ '}' :: rest) = some (members, rest)
  | [], inner, rest, fuel, inhabited, _, _ => absurd rfl inhabited
  | (key, value) :: others, inner, rest, fuel, _, spells, enough => by
    obtain ⟨fuel, rfl⟩ := Nat.exists_eq_succ_of_ne_zero (Nat.ne_of_gt (Nat.zero_lt_of_lt enough))
    rw [SpellsMembers] at spells
    obtain ⟨before, name, colonGap, space, word, after, tail, spaces, quoted, colonSpaces,
      valueSpaces, first, gap, further, same⟩ := spells
    obtain rfl := (List.cons.inj same).2
    obtain ⟨inner, spelled, rfl⟩ := quoted
    simp only [List.length_append, List.length_cons, List.length_nil] at enough
    have tails := members_tail further
    have stops := stops_close '}' rest (by decide) gap (tails.imp (·.2) (·.2))
    have read := readValue_of_spells value fuel first stops (by omega)
    have named := readString_of_spelled spelled (fuel + 1)
      (colonGap ++ (':' :: (space ++ (word ++ (after ++ (tail ++ '}' :: rest)))))) (by omega)
    have quote : skip (before ++ '"' :: (inner ++ '"' :: (colonGap ++ (':' :: (space ++
        (word ++ (after ++ (tail ++ '}' :: rest)))))))) = _ := skip_to spaces (by decide)
    have colon : skip (colonGap ++ (':' :: (space ++ (word ++ (after ++ (tail ++ '}' :: rest)))))) =
        _ := skip_to colonSpaces (by decide)
    simp only [List.append_assoc, List.cons_append, List.nil_append, readMembers, quote, named,
      colon, skip_value valueSpaces first, read, Option.bind_eq_bind, Option.bind_some]
    rcases tails with ⟨rfl, rfl⟩ | ⟨inhabited, more, rfl⟩
    · have closes : skip (after ++ ([] ++ '}' :: rest)) = '}' :: rest := skip_to gap (by decide)
      simp only [closes, String.ofList_toList]
    · have comma : skip (after ++ (',' :: more ++ '}' :: rest)) = ',' :: (more ++ '}' :: rest) :=
        skip_to gap (by decide)
      rw [List.length_cons] at enough
      have remaining : readMembers fuel (more ++ '}' :: rest) = some (others, rest) :=
        readMembers_of_spells others fuel inhabited further (by omega)
      simp only [comma, remaining, Option.bind_some, String.ofList_toList]

end

/-- Every value that is read is spelled by what was read. -/
theorem spells_of_readValue (fuel : Nat) :
    (∀ (characters : List Char) (value : JsonValue) (rest : List Char),
      readValue fuel characters = some (value, rest) →
        ∃ word, characters = word ++ rest ∧ Spells value word) ∧
    (∀ (characters : List Char) (elements : List JsonValue) (rest : List Char),
      readElements fuel characters = some (elements, rest) →
        ∃ inner, characters = inner ++ ']' :: rest ∧ elements ≠ [] ∧
          SpellsElements elements (',' :: inner)) ∧
    ∀ (characters : List Char) (members : List (String × JsonValue)) (rest : List Char),
      readMembers fuel characters = some (members, rest) →
        ∃ inner, characters = inner ++ '}' :: rest ∧ members ≠ [] ∧
          SpellsMembers members (',' :: inner) := by
  induction fuel with
  | zero =>
    exact ⟨fun _ _ _ read => (nomatch read), fun _ _ _ read => (nomatch read),
      fun _ _ _ read => (nomatch read)⟩
  | succ fuel inductionHypothesis =>
    obtain ⟨values, elementLists, memberLists⟩ := inductionHypothesis
    refine ⟨fun characters value rest read => ?_, fun characters elements rest read => ?_,
      fun characters members rest read => ?_⟩
    · unfold readValue at read
      split at read
      · simp only [Option.bind_eq_bind, Option.bind_eq_some_iff, Prod.exists] at read
        obtain ⟨text, behind, string, same⟩ := read
        cases same
        obtain ⟨inner, rfl, spelled⟩ := spelled_of_readString _ _ _ _ string
        refine ⟨'"' :: (inner ++ ['"']), by simp, ?_⟩
        rw [Spells, String.toList_ofList]
        exact ⟨inner, spelled, rfl⟩
      · rename_i behind
        obtain ⟨gap, spaces, parted⟩ := skip_spec behind
        split at read
        · rename_i closes
          cases read
          refine ⟨'[' :: (gap ++ [']']), by rw [parted, closes]; simp, ?_⟩
          rw [Spells]
          exact ⟨gap, rfl, .inl ⟨rfl, spaces⟩⟩
        · simp only [Option.bind_eq_bind, Option.bind_eq_some_iff, Prod.exists] at read
          obtain ⟨elements, final, list, same⟩ := read
          cases same
          obtain ⟨inner, rfl, inhabited, spells⟩ := elementLists _ _ _ list
          refine ⟨'[' :: (inner ++ [']']), by simp, ?_⟩
          rw [Spells]
          exact ⟨inner, rfl, .inr ⟨inhabited, spells⟩⟩
      · rename_i behind
        obtain ⟨gap, spaces, parted⟩ := skip_spec behind
        split at read
        · rename_i closes
          cases read
          refine ⟨'{' :: (gap ++ ['}']), by rw [parted, closes]; simp, ?_⟩
          rw [Spells]
          exact ⟨gap, rfl, .inl ⟨rfl, spaces⟩⟩
        · simp only [Option.bind_eq_bind, Option.bind_eq_some_iff, Prod.exists] at read
          obtain ⟨members, final, list, same⟩ := read
          cases same
          obtain ⟨inner, rfl, inhabited, spells⟩ := memberLists _ _ _ list
          refine ⟨'{' :: (inner ++ ['}']), by simp, ?_⟩
          rw [Spells]
          exact ⟨inner, rfl, .inr ⟨inhabited, spells⟩⟩
      · exact spells_of_readWord read
    · rw [readElements] at read
      simp only [Option.bind_eq_bind, Option.bind_eq_some_iff, Prod.exists] at read
      obtain ⟨element, behind, first, read⟩ := read
      obtain ⟨before, spaces, front⟩ := skip_spec characters
      obtain ⟨word, opened, spells⟩ := values _ _ _ first
      obtain ⟨after, gap, back⟩ := skip_spec behind
      split at read
      · rename_i more comma
        simp only [Option.bind_eq_some_iff, Prod.exists] at read
        obtain ⟨others, final, list, same⟩ := read
        cases same
        obtain ⟨inner, rfl, _, further⟩ := elementLists _ _ _ list
        refine ⟨before ++ (word ++ (after ++ (',' :: inner))), ?_, List.cons_ne_nil _ _, ?_⟩
        · rw [front, opened, back, comma]
          simp
        · rw [SpellsElements]
          exact ⟨before, word, after, _, spaces, spells, gap, further, rfl⟩
      · rename_i closes
        cases read
        refine ⟨before ++ (word ++ (after ++ [])), ?_, List.cons_ne_nil _ _, ?_⟩
        · rw [front, opened, back, closes]
          simp
        · rw [SpellsElements]
          exact ⟨before, word, after, [], spaces, spells, gap, by rw [SpellsElements], rfl⟩
      · cases read
    · rw [readMembers] at read
      obtain ⟨before, spaces, front⟩ := skip_spec characters
      split at read
      · rename_i behind quote
        simp only [Option.bind_eq_bind, Option.bind_eq_some_iff, Prod.exists] at read
        obtain ⟨key, behindKey, string, read⟩ := read
        obtain ⟨inner, rfl, spelled⟩ := spelled_of_readString _ _ _ _ string
        obtain ⟨colonGap, colonSpaces, middle⟩ := skip_spec behindKey
        split at read
        · rename_i behindColon colon
          simp only [Option.bind_eq_some_iff, Prod.exists] at read
          obtain ⟨value, behindValue, first, read⟩ := read
          obtain ⟨space, valueSpaces, opened⟩ := skip_spec behindColon
          obtain ⟨word, body, spells⟩ := values _ _ _ first
          obtain ⟨after, gap, back⟩ := skip_spec behindValue
          have quoted : Quoted ('"' :: (inner ++ ['"'])) (String.ofList key).toList := by
            rw [String.toList_ofList]
            exact ⟨inner, spelled, rfl⟩
          split at read
          · rename_i more comma
            simp only [Option.bind_eq_some_iff, Prod.exists] at read
            obtain ⟨others, final, list, same⟩ := read
            cases same
            obtain ⟨leftover, rfl, _, further⟩ := memberLists _ _ _ list
            refine ⟨before ++ (('"' :: (inner ++ ['"'])) ++ (colonGap ++ (':' :: (space ++
              (word ++ (after ++ (',' :: leftover))))))), ?_, List.cons_ne_nil _ _, ?_⟩
            · rw [front, quote, middle, colon, opened, body, back, comma]
              simp
            · rw [SpellsMembers]
              exact ⟨before, _, colonGap, space, word, after, _, spaces, quoted, colonSpaces,
                valueSpaces, spells, gap, further, rfl⟩
          · rename_i closes
            cases read
            refine ⟨before ++ (('"' :: (inner ++ ['"'])) ++ (colonGap ++ (':' :: (space ++
              (word ++ (after ++ [])))))), ?_, List.cons_ne_nil _ _, ?_⟩
            · rw [front, quote, middle, colon, opened, body, back, closes]
              simp
            · rw [SpellsMembers]
              exact ⟨before, _, colonGap, space, word, after, [], spaces, quoted, colonSpaces,
                valueSpaces, spells, gap, by rw [SpellsMembers], rfl⟩
          · cases read
        · cases read
      · cases read

/-! ### Texts -/

/-- The reader is exact. -/
theorem readText_eq_some {text : List Char} {value : JsonValue} :
    readText text = some value ↔ SpellsText value text := by
  rw [readText]
  simp only [Option.bind_eq_bind, Option.bind_eq_some_iff, Prod.exists]
  constructor
  · rintro ⟨found, rest, read, same⟩
    obtain ⟨before, spaces, front⟩ := skip_spec text
    obtain ⟨word, opened, spells⟩ := (spells_of_readValue _).1 _ _ _ read
    obtain ⟨after, gap, back⟩ := skip_spec rest
    split at same
    · rename_i ends
      cases same
      rw [ends, List.append_nil] at back
      subst back
      exact ⟨before, word, rest, spaces, spells, gap, front.trans (opened ▸ rfl)⟩
    · cases same
  · rintro ⟨before, word, after, spaces, spells, gap, rfl⟩
    have stops : Stops after := by
      have ends : Stops (after ++ []) := Stops.append gap fun _ member => nomatch member
      rwa [List.append_nil] at ends
    have empty : skip after = [] := by
      have ends : skip (after ++ []) = [] := skip_append gap fun _ member => nomatch member
      rwa [List.append_nil] at ends
    refine ⟨value, after, ?_, if_pos empty⟩
    rw [skip_value spaces spells]
    refine readValue_of_spells value _ spells stops ?_
    simp only [List.length_append]
    omega

/-- The bytes of a text are read as the value they denote, and nothing else is read. -/
theorem read_eq_some {bytes : List UInt8} {value : JsonValue} :
    read bytes = some value ↔ Denotes bytes value := by
  rw [read]
  simp only [Option.bind_eq_bind, Option.bind_eq_some_iff, ByteText.decode_eq_some,
    readText_eq_some]
  rfl

/-- Bytes denote one value at most. -/
theorem Denotes.unique {bytes : List UInt8} {first second : JsonValue}
    (one : Denotes bytes first) (other : Denotes bytes second) : first = second :=
  Option.some.inj ((read_eq_some.mpr one).symm.trans (read_eq_some.mpr other))

end Foundation.JsonText

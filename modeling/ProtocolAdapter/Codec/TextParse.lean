/-
This file states which records a text template takes apart, and how: literals stand where
they belong, a field has an admitted length and admitted characters, and a variable field
ends at the first occurrence of the literal behind it. It shows that the walk over a valid
template with validated characters finds exactly these parses.
-/

import ProtocolAdapter.Codec.Boundary
import ProtocolAdapter.Codec.DecodeText
import ProtocolAdapter.Foundation.Occurrence

namespace ProtocolAdapter.Codec

open Foundation

/-! ### Finding a literal -/

section

variable {literal : TextSegmentExecutionPlan}

/-- Falling back is the fallback of the prefix table. -/
theorem fallbackLiteral_eq (byte : UInt8)
    (table : PrefixTable.IsPrefixTable literal.literal literal.prefixTable) :
    ∀ {fuel rounds matched : Nat}, matched ≤ fuel → matched ≤ rounds →
      matched < literal.literal.length →
      fallbackLiteral literal byte (fuel + 1) matched =
        some (PrefixTable.fallback literal.literal literal.prefixTable byte rounds matched).1 := by
  intro fuel
  induction fuel with
  | zero =>
    intro rounds matched bound _ inside
    obtain rfl := Nat.le_zero.mp bound
    cases rounds <;> rfl
  | succ fuel inductionHypothesis =>
    intro rounds matched bound within inside
    unfold fallbackLiteral
    by_cases zero : matched = 0
    · rw [if_pos zero, zero]
      cases rounds <;> rfl
    rw [if_neg zero, List.getElem?_eq_getElem inside]
    obtain ⟨rounds, rfl⟩ := Nat.exists_eq_succ_of_ne_zero (show rounds ≠ 0 by omega)
    unfold PrefixTable.fallback
    rw [List.getElem?_eq_getElem inside]
    by_cases same : byte ≠ literal.literal[matched]
    · have listed : matched - 1 < literal.prefixTable.length := by
        rw [table.length_eq]
        omega
      have shorter : literal.prefixTable.getD (matched - 1) 0 < matched - 1 + 1 :=
        table.correct.entry_lt (by omega) (by omega)
      have entry : literal.prefixTable.getD (matched - 1) 0 = literal.prefixTable[matched - 1] :=
        List.getD_eq_getElem _ _ listed
      have run := @inductionHypothesis rounds (literal.prefixTable.getD (matched - 1) 0)
        (by omega) (by omega) (by omega)
      rw [if_pos ⟨zero, fun equal => same (Option.some.inj equal).symm⟩]
      simp only [Option.bind_eq_bind, Option.bind_some, if_pos same,
        List.getElem?_eq_getElem listed, ← entry, run]
    · rw [if_neg (fun wrong => wrong.2 (by rw [not_not.mp same]))]
      simp only [Option.bind_eq_bind, Option.bind_some, if_neg same]

/-- Reading a byte is the step of the prefix table. -/
theorem advanceLiteral_eq (byte : UInt8)
    (table : PrefixTable.IsPrefixTable literal.literal literal.prefixTable) {matched : Nat}
    (inside : matched < literal.literal.length) :
    advanceLiteral literal matched byte =
      some (PrefixTable.advance literal.literal literal.prefixTable matched byte) := by
  have reached := (PrefixTable.fallback_spec byte matched matched le_rfl inside.le
    (table.correct.mono inside.le)).1
  unfold advanceLiteral PrefixTable.advance
  rw [fallbackLiteral_eq byte table inside.le le_rfl inside]
  simp only [Option.bind_eq_bind, Option.bind_some, List.getElem?_eq_getElem
    (show (PrefixTable.fallback literal.literal literal.prefixTable byte matched matched).1 <
      literal.literal.length by omega), Option.some.injEq, eq_comm]

/-- A scan finds the first occurrence in what is read before and in it. -/
theorem scanLiteral_first {byteAt : Nat → Access UInt8}
    (table : PrefixTable.IsPrefixTable literal.literal literal.prefixTable) {start : Nat} :
    ∀ {rest before : List UInt8} {matched : Nat},
      (∀ position byte, rest[position]? = some byte →
        byteAt (start + before.length + position) = some byte) →
      PrefixTable.LongestMatch literal.literal before matched →
      matched < literal.literal.length →
      (∀ position, ¬OccursAt literal.literal before position) →
      ∃ result, scanLiteral literal byteAt rest.length (start + before.length) matched =
          some result ∧
        ∀ found, result = some found ↔
          ∃ position, found = start + position ∧
            FirstAt literal.literal (before ++ rest) position := by
  intro rest
  induction rest with
  | nil =>
    intro before matched _ _ _ free
    refine ⟨none, rfl, fun found => ⟨nofun, ?_⟩⟩
    rintro ⟨position, -, first⟩
    rw [List.append_nil] at first
    exact absurd first.occurs (free position)
  | cons byte rest inductionHypothesis =>
    intro before matched readable longest unfinished free
    have nonempty : literal.literal ≠ [] := List.ne_nil_of_length_pos (by omega)
    have read := readable 0 byte rfl
    have next := longest.advance unfinished (table.correct.mono unfinished.le) byte
    have whole : before ++ byte :: rest = (before ++ [byte]) ++ rest := by simp
    rw [List.length_cons]
    unfold scanLiteral
    rw [Nat.add_zero] at read
    simp only [read, advanceLiteral_eq byte table unfinished, Option.bind_eq_bind, Option.bind_some]
    generalize PrefixTable.advance literal.literal literal.prefixTable matched byte = reached
      at next
    by_cases complete : reached = literal.literal.length
    · rw [if_pos complete]
      subst complete
      have occurs := next.occurs
      have ending := occurs.end_le nonempty
      rw [List.length_append, List.length_singleton] at occurs ending
      have first : FirstAt literal.literal (before ++ byte :: rest)
          (before.length + 1 - literal.literal.length) := by
        refine ⟨whole ▸ occurs.append rest, fun earlier less found => ?_⟩
        exact free earlier (found.of_append (by omega))
      have place : start + before.length + 1 - literal.literal.length =
          start + (before.length + 1 - literal.literal.length) := by
        have short := next.suffix.length_le
        rw [List.take_length, List.length_append, List.length_singleton] at short
        omega
      refine ⟨_, rfl, fun found => ?_⟩
      rw [Option.some.injEq, place]
      constructor
      · rintro rfl
        exact ⟨_, rfl, first⟩
      · rintro ⟨position, rfl, other⟩
        rw [first.unique other]
    · rw [if_neg complete]
      have read : ∀ position other, rest[position]? = some other →
          byteAt (start + (before ++ [byte]).length + position) = some other := by
        intro position other listed
        rw [List.length_append, List.length_singleton]
        have later := readable (position + 1) other (by simpa using listed)
        rwa [show start + (before.length + 1) + position =
          start + before.length + (position + 1) by omega]
      have bound := next.inside
      have run := inductionHypothesis read next (by omega) (next.notOccurs complete nonempty free)
      rw [List.length_append, List.length_singleton, ← Nat.add_assoc] at run
      rwa [whole]

/-- A literal is found behind a field where it first occurs, when the field can be that
long. -/
theorem findTextLiteral_first
    (table : PrefixTable.IsPrefixTable literal.literal literal.prefixTable)
    (nonempty : literal.literal ≠ []) {input : List UInt8} {start : Nat}
    (within : start ≤ input.length) (maximum : Nat) :
    ∃ result, findTextLiteral input start maximum literal = some result ∧
      ∀ found, result = some found ↔ ∃ length, found = start + length ∧ length ≤ maximum ∧
        FirstAt literal.literal (input.drop start) length := by
  unfold findTextLiteral
  rw [if_neg (by simp [nonempty, table.length_eq, within])]
  simp only
  generalize stopped : (if maximum ≤ input.length - start ∧
    literal.literal.length ≤ input.length - start - maximum then
      start + maximum + literal.literal.length else input.length) = stop
  have inside : stop ≤ input.length := by
    rw [← stopped]
    split <;> omega
  have positive := List.length_pos_iff.mpr nonempty
  have size : ((input.drop start).take (stop - start)).length = stop - start := by
    rw [List.length_take, List.length_drop]
    omega
  obtain ⟨result, run, first⟩ := @scanLiteral_first literal (input[·]?) table start
    ((input.drop start).take (stop - start)) [] 0
    (fun position byte listed => by
      have inText := (List.getElem?_eq_some_iff.mp listed).1
      rw [List.getElem?_take_of_lt (by omega), List.getElem?_drop] at listed
      simpa using listed)
    PrefixTable.longestMatch_nil positive
    (fun position occurs => nonempty (by simpa [OccursAt] using occurs))
  rw [size, List.length_nil, Nat.add_zero] at run
  refine ⟨result, run, fun found => ?_⟩
  rw [first found, List.nil_append]
  -- The text ends behind the longest field, or no field that long fits the record.
  have split : input.drop start = (input.drop start).take (stop - start) ++
      (input.drop start).drop (stop - start) := (List.take_append_drop _ _).symm
  have limit : ∀ {length : Nat}, OccursAt literal.literal (input.drop start) length →
      (length ≤ maximum ↔ length + literal.literal.length ≤ stop - start) := by
    intro length occurs
    have ending := occurs.end_le nonempty
    rw [List.length_drop] at ending
    rw [← stopped]
    split <;> omega
  constructor
  · rintro ⟨length, rfl, least⟩
    have occurs : OccursAt literal.literal (input.drop start) length := by
      rw [split]
      exact least.occurs.append _
    have ending := least.occurs.end_le nonempty
    rw [size] at ending
    refine ⟨length, rfl, (limit occurs).mpr ending, occurs, fun earlier less other => ?_⟩
    rw [split] at other
    exact least.first earlier less (other.of_append (by omega))
  · rintro ⟨length, rfl, short, least⟩
    have ending := (limit least.occurs).mp short
    refine ⟨length, rfl, ?_, fun earlier less other => least.first earlier less ?_⟩
    · have occurs := least.occurs
      rw [split] at occurs
      exact occurs.of_append (by omega)
    · rw [split]
      exact other.append _

end

/-! ### Parses -/

/-- The bytes a field may have before the text that follows it: their number and the
characters are admitted, and a variable field ends where the literal behind it first
occurs. -/
structure FieldTakes (field : FieldExecutionPlan) (rest : List TextSegmentExecutionPlan)
    (bytes text : List UInt8) : Prop where
  minimum : field.textMinLength ≤ bytes.length
  maximum : bytes.length ≤ field.textMaxLength
  allowed : ∀ byte ∈ bytes, isAllowedAscii field byte = true
  first : field.textMinLength ≠ field.textMaxLength → ∀ terminator, rest.head? = some terminator →
    terminator.kind = .literal → ∀ earlier, earlier < bytes.length →
      ¬OccursAt terminator.literal (bytes ++ text) earlier

/-- A record from an offset on is what a template describes: its literals and the bytes of
its fields behind each other. The places say where the fields stand. -/
inductive Parses (message : MessageExecutionPlan) :
    Nat → List TextSegmentExecutionPlan → List UInt8 → List TextPlace → Prop
  | done {offset : Nat} : Parses message offset [] [] []
  | literal {offset : Nat} {segment : TextSegmentExecutionPlan}
      {rest : List TextSegmentExecutionPlan} {text : List UInt8} {places : List TextPlace}
      (kind : segment.kind = .literal)
      (later : Parses message (offset + segment.literal.length) rest text places) :
      Parses message offset (segment :: rest) (segment.literal ++ text) places
  | field {offset : Nat} {segment : TextSegmentExecutionPlan}
      {rest : List TextSegmentExecutionPlan} {bytes text : List UInt8} {places : List TextPlace}
      {field : FieldExecutionPlan} (kind : segment.kind = .field)
      (found : message.fields[segment.fieldIndex]? = some field)
      (takes : FieldTakes field rest bytes text)
      (later : Parses message (offset + bytes.length) rest text places) :
      Parses message offset (segment :: rest) (bytes ++ text)
        (⟨segment.fieldIndex, offset, bytes.length⟩ :: places)

/-! ### Steps of the walk -/

theorem literalMatches_eq {input : List UInt8} : ∀ {literal : List UInt8} {cursor : Nat},
    cursor + literal.length ≤ input.length →
      literalMatches input cursor literal = some (literal.isPrefixOf (input.drop cursor))
  | [], _, _ => by simp [literalMatches]
  | expected :: rest, cursor, within => by
    rw [List.length_cons] at within
    have inside : cursor < input.length := by omega
    unfold literalMatches
    rw [List.getElem?_eq_getElem inside, List.drop_eq_getElem_cons inside]
    simp only [Option.bind_eq_bind, Option.bind_some, List.isPrefixOf_cons_cons]
    by_cases same : input[cursor] = expected
    · rw [if_neg (not_not.mpr same), literalMatches_eq (by omega), same, beq_self_eq_true,
        Bool.true_and]
    · rw [if_pos same, beq_false_of_ne (Ne.symm same), Bool.false_and]

theorem charactersAllowed_eq {field : FieldExecutionPlan} {input : List UInt8} :
    ∀ {remaining index : Nat}, index + remaining ≤ input.length →
      charactersAllowed field input remaining index =
        some (((input.drop index).take remaining).all (isAllowedAscii field))
  | 0, _, _ => by simp [charactersAllowed]
  | remaining + 1, index, within => by
    have inside : index < input.length := by omega
    unfold charactersAllowed
    rw [List.getElem?_eq_getElem inside, List.drop_eq_getElem_cons inside, List.take_succ_cons,
      List.all_cons]
    simp only [Option.bind_eq_bind, Option.bind_some]
    by_cases allowed : isAllowedAscii field input[index] = false
    · rw [if_pos allowed, allowed, Bool.false_and]
    · rw [if_neg allowed, charactersAllowed_eq (by omega), Bool.eq_true_of_not_eq_false allowed,
        Bool.true_and]

section

variable {σ : Type} {message : MessageExecutionPlan} {input : List UInt8}
  {visitor : σ → Nat → Nat → Nat → Access (σ × Bool)} {segment : TextSegmentExecutionPlan}
  {rest : List TextSegmentExecutionPlan} {cursor : Nat} {state last : σ}

/-- The walk passes a literal that stands at the cursor. -/
theorem walkSegments_literal {validate : Bool} (kind : segment.kind = .literal)
    (nonempty : segment.literal ≠ []) :
    walkSegments message input validate visitor (segment :: rest) cursor state =
        some (.match, last) ↔
      segment.literal <+: input.drop cursor ∧
        walkSegments message input validate visitor rest (cursor + segment.literal.length) state =
          some (.match, last) := by
  have positive := List.length_pos_iff.mpr nonempty
  rw [walkSegments]
  simp only [kind]
  by_cases fits : segment.literal = [] ∨ segment.literal.length > input.length - cursor
  · rw [if_pos fits]
    refine ⟨fun wrong => (by simp at wrong), fun both => ?_⟩
    have short := both.1.length_le
    rw [List.length_drop] at short
    rcases fits with empty | long
    · exact absurd empty nonempty
    · omega
  · rw [if_neg fits]
    rw [not_or] at fits
    rw [literalMatches_eq (by omega)]
    simp only [Option.bind_eq_bind, Option.bind_some, List.isPrefixOf_iff_prefix]
    by_cases found : segment.literal <+: input.drop cursor
    · rw [if_pos found, and_iff_right found]
    · rw [if_neg found]
      exact ⟨fun wrong => (by simp at wrong), fun both => absurd both.1 found⟩

/-- The length the walk takes for a field. -/
def LengthFound (field : FieldExecutionPlan) (rest : List TextSegmentExecutionPlan)
    (text : List UInt8) (length : Nat) : Prop :=
  length ≤ text.length ∧ field.textMinLength ≤ length ∧ length ≤ field.textMaxLength ∧
    (field.textMinLength ≠ field.textMaxLength →
      match rest with
      | [] => length = text.length
      | terminator :: _ => FirstAt terminator.literal text length)

theorem textFieldLength_found {field : FieldExecutionPlan}
    (within : cursor ≤ input.length)
    (ends : field.textMinLength ≠ field.textMaxLength → ∀ next ∈ rest.head?, next.kind = .literal)
    (later : SegmentsValid (message.fields.map (·.textBounds)) rest) :
    ∃ result, textFieldLength field input cursor rest = some result ∧ ∀ length,
      (result = .ok length ∧ field.textMinLength ≤ length ∧ length ≤ field.textMaxLength) ↔
        LengthFound field rest (input.drop cursor) length := by
  unfold textFieldLength LengthFound
  rw [List.length_drop]
  by_cases fixed : field.textMinLength = field.textMaxLength
  · rw [if_pos fixed]
    refine ⟨_, rfl, fun length => ?_⟩
    by_cases long : field.textMinLength > input.length - cursor
    · rw [if_pos long]
      constructor
      · rintro ⟨wrong, -⟩
        cases wrong
      · intro found
        omega
    · rw [if_neg long, Except.ok.injEq]
      constructor
      · rintro ⟨rfl, bounds⟩
        exact ⟨by omega, bounds.1, bounds.2, fun varies => absurd fixed varies⟩
      · rintro ⟨-, least, most, -⟩
        omega
  rw [if_neg fixed]
  cases rest with
  | nil =>
    refine ⟨_, rfl, fun length => ?_⟩
    rw [Except.ok.injEq]
    constructor
    · rintro ⟨rfl, bounds⟩
      exact ⟨le_rfl, bounds.1, bounds.2, fun _ => rfl⟩
    · rintro ⟨-, least, most, whole⟩
      exact ⟨(whole fixed).symm, least, most⟩
  | cons terminator more =>
    have literal := ends fixed terminator rfl
    have terminates := later.1
    rw [SegmentValid, literal] at terminates
    obtain ⟨result, run, first⟩ :=
      findTextLiteral_first terminates.2 terminates.1 within field.textMaxLength
    simp only [literal, ne_eq, not_true_eq_false, if_false, run, Option.bind_eq_bind,
      Option.bind_some]
    have nonempty := terminates.1
    cases result with
    | none =>
      refine ⟨_, rfl, fun length => ⟨fun wrong => (by cases wrong.1), ?_⟩⟩
      rintro ⟨-, least, most, least'⟩
      exact absurd ((first (cursor + length)).mpr ⟨length, rfl, most, least' fixed⟩) (by simp)
    | some position =>
      refine ⟨_, rfl, fun length => ?_⟩
      obtain ⟨found, rfl, short, occurs⟩ := (first position).mp rfl
      rw [Except.ok.injEq, Nat.add_sub_cancel_left]
      constructor
      · rintro ⟨rfl, bounds⟩
        have ending := occurs.occurs.end_le nonempty
        rw [List.length_drop] at ending
        exact ⟨by omega, bounds.1, bounds.2, fun _ => occurs⟩
      · rintro ⟨-, least, most, other⟩
        exact ⟨occurs.unique (other fixed), least, most⟩

/-- The walk passes a field that has a length and admitted characters and that the visitor
takes. -/
theorem walkSegments_field (kind : segment.kind = .field) (within : cursor ≤ input.length)
    (valid : SegmentsValid (message.fields.map (·.textBounds)) (segment :: rest)) :
    walkSegments message input true visitor (segment :: rest) cursor state =
        some (.match, last) ↔
      ∃ field length next, message.fields[segment.fieldIndex]? = some field ∧
        LengthFound field rest (input.drop cursor) length ∧
        (∀ byte ∈ (input.drop cursor).take length, isAllowedAscii field byte = true) ∧
        visitor state segment.fieldIndex cursor length = some (next, true) ∧
        walkSegments message input true visitor rest (cursor + length) next =
          some (.match, last) := by
  obtain ⟨first, later⟩ := valid
  simp only [SegmentValid, kind] at first
  obtain ⟨bound, listed, -, ends⟩ := first
  rw [List.getElem?_map, Option.map_eq_some_iff] at listed
  obtain ⟨field, found, rfl⟩ := listed
  obtain ⟨result, run, measured⟩ := textFieldLength_found within ends later
  rw [walkSegments]
  simp only [kind, found, run, Option.bind_eq_bind, Option.bind_some, Option.some.injEq,
    exists_and_left, exists_eq_left', if_true]
  cases result with
  | error status =>
    simp only
    constructor
    · intro wrong
      rw [Option.some.injEq, Prod.mk.injEq] at wrong
      exact absurd (wrong.1 ▸ run) textFieldLength_ne_match
    · rintro ⟨length, holds, -⟩
      cases ((measured length).mpr holds).1
  | ok length =>
    simp only
    by_cases outside : length < field.textMinLength ∨ length > field.textMaxLength
    · rw [if_pos outside]
      constructor
      · intro wrong
        simp at wrong
      · rintro ⟨other, holds, -⟩
        obtain ⟨same, least, most⟩ := (measured other).mpr holds
        obtain rfl := Except.ok.inj same
        omega
    rw [if_neg outside]
    have holds := (measured length).mp ⟨rfl, by omega, by omega⟩
    have inside := holds.1
    rw [List.length_drop] at inside
    rw [charactersAllowed_eq (by omega)]
    simp only [Option.bind_some, List.all_eq_false]
    by_cases allowed : ∀ byte ∈ (input.drop cursor).take length, isAllowedAscii field byte = true
    · rw [if_neg (by simpa using allowed)]
      constructor
      · intro walked
        obtain ⟨⟨next, taken⟩, visited, walked⟩ := Option.bind_eq_some_iff.mp walked
        cases taken with
        | false => simp at walked
        | true => exact ⟨length, holds, allowed, next, visited, by simpa using walked⟩
      · rintro ⟨other, same, -, next, visited, walked⟩
        obtain rfl := Except.ok.inj ((measured other).mpr same).1
        rw [visited]
        simpa using walked
    · rw [if_pos (by simpa using allowed)]
      constructor
      · intro wrong
        simp at wrong
      · rintro ⟨other, same, holds, -⟩
        obtain rfl := Except.ok.inj ((measured other).mpr same).1
        exact absurd holds allowed

end

/-! ### The parses of a walk -/

section

variable {message : MessageExecutionPlan} {offset : Nat} {segment : TextSegmentExecutionPlan}
  {rest : List TextSegmentExecutionPlan} {text : List UInt8} {places : List TextPlace}

theorem parses_nil : Parses message offset [] text places ↔ text = [] ∧ places = [] := by
  constructor
  · intro parse
    cases parse
    exact ⟨rfl, rfl⟩
  · rintro ⟨rfl, rfl⟩
    exact .done

theorem parses_literal (kind : segment.kind = .literal) :
    Parses message offset (segment :: rest) text places ↔ ∃ more,
      text = segment.literal ++ more ∧
        Parses message (offset + segment.literal.length) rest more places := by
  constructor
  · intro parse
    cases parse with
    | literal _ later => exact ⟨_, rfl, later⟩
    | field wrong => rw [kind] at wrong; cases wrong
  · rintro ⟨more, rfl, later⟩
    exact .literal kind later

theorem parses_field (kind : segment.kind = .field) :
    Parses message offset (segment :: rest) text places ↔ ∃ field bytes more later,
      message.fields[segment.fieldIndex]? = some field ∧ text = bytes ++ more ∧
        places = ⟨segment.fieldIndex, offset, bytes.length⟩ :: later ∧
        FieldTakes field rest bytes more ∧
        Parses message (offset + bytes.length) rest more later := by
  constructor
  · intro parse
    cases parse with
    | literal wrong => rw [kind] at wrong; cases wrong
    | field _ found takes later => exact ⟨_, _, _, _, found, rfl, rfl, takes, later⟩
  · rintro ⟨field, bytes, more, later, found, rfl, rfl, takes, parse⟩
    exact .field kind found takes parse

/-- Before a text that parses, the bytes of a field are those up to the length that the
walk takes for it. -/
theorem fieldTakes_iff {field : FieldExecutionPlan} {bytes more : List UInt8}
    (ends : field.textMinLength ≠ field.textMaxLength → ∀ next ∈ rest.head?, next.kind = .literal)
    (parse : Parses message offset rest more places) :
    FieldTakes field rest bytes more ↔ LengthFound field rest (bytes ++ more) bytes.length ∧
      ∀ byte ∈ bytes, isAllowedAscii field byte = true := by
  unfold LengthFound
  rw [List.length_append]
  constructor
  · intro takes
    refine ⟨⟨Nat.le_add_right _ _, takes.minimum, takes.maximum, fun varies => ?_⟩, takes.allowed⟩
    cases rest with
    | nil =>
      rw [parses_nil] at parse
      simp only
      rw [parse.1, List.length_nil, Nat.add_zero]
    | cons terminator rest =>
      have kind := ends varies terminator rfl
      obtain ⟨after, rfl, -⟩ := (parses_literal kind).mp parse
      refine ⟨?_, takes.first varies terminator rfl kind⟩
      unfold OccursAt
      rw [List.drop_left]
      exact List.prefix_append _ _
  · rintro ⟨⟨-, least, most, found⟩, allowed⟩
    refine ⟨least, most, allowed, fun varies terminator next kind => ?_⟩
    cases rest with
    | nil => cases next
    | cons head rest =>
      obtain rfl : head = terminator := Option.some.inj next
      exact (found varies).first

end

/-- The walk finds exactly the parses of what is left of the input. -/
theorem walkSegments_parses {message : MessageExecutionPlan} {input : List UInt8} :
    ∀ {segments : List TextSegmentExecutionPlan} {cursor : Nat} {before after : List TextPlace},
      SegmentsValid (message.fields.map (·.textBounds)) segments → cursor ≤ input.length →
      (walkSegments message input true collectPlace segments cursor before =
          some (.match, after) ↔
        ∃ places, after = before ++ places ∧
          Parses message cursor segments (input.drop cursor) places) := by
  intro segments
  induction segments with
  | nil =>
    intro cursor before after _ within
    simp only [walkSegments, parses_nil, List.drop_eq_nil_iff, Option.some.injEq, Prod.mk.injEq]
    constructor
    · rintro ⟨ended, rfl⟩
      split at ended
      · rename_i whole
        exact ⟨[], by simp, whole.ge, rfl⟩
      · cases ended
    · rintro ⟨places, rfl, whole, rfl⟩
      rw [if_pos (Nat.le_antisymm within whole), List.append_nil]
      exact ⟨rfl, rfl⟩
  | cons segment rest inductionHypothesis =>
    intro cursor before after valid within
    cases kind : segment.kind with
    | literal =>
      have first := valid.1
      rw [SegmentValid, kind] at first
      rw [walkSegments_literal kind first.1]
      constructor
      · rintro ⟨found, walked⟩
        have short := found.length_le
        rw [List.length_drop] at short
        obtain ⟨places, rfl, parse⟩ := (inductionHypothesis valid.2 (by omega)).mp walked
        obtain ⟨more, split⟩ := found
        refine ⟨places, rfl, (parses_literal kind).mpr ⟨more, split.symm, ?_⟩⟩
        rwa [← List.drop_drop, ← split, List.drop_left] at parse
      · rintro ⟨places, rfl, parse⟩
        obtain ⟨more, split, later⟩ := (parses_literal kind).mp parse
        have found : segment.literal <+: input.drop cursor := ⟨more, split.symm⟩
        have short := found.length_le
        rw [List.length_drop] at short
        refine ⟨found, (inductionHypothesis valid.2 (by omega)).mpr ⟨places, rfl, ?_⟩⟩
        rwa [← List.drop_drop, split, List.drop_left]
    | field =>
      have first := valid.1
      simp only [SegmentValid, kind] at first
      obtain ⟨bound, listed, -, ends⟩ := first
      rw [List.getElem?_map, Option.map_eq_some_iff] at listed
      obtain ⟨field, found, rfl⟩ := listed
      rw [walkSegments_field kind within valid]
      constructor
      · rintro ⟨other, length, next, same, holds, allowed, visited, walked⟩
        obtain rfl := Option.some.inj (found.symm.trans same)
        have inside := holds.1
        rw [List.length_drop] at inside
        obtain rfl : before ++ [⟨segment.fieldIndex, cursor, length⟩] = next :=
          congrArg Prod.fst (Option.some.inj visited)
        obtain ⟨places, rfl, parse⟩ := (inductionHypothesis valid.2 (by omega)).mp walked
        rw [← List.drop_drop] at parse
        have bytes : ((input.drop cursor).take length).length = length := by
          rw [List.length_take, List.length_drop]
          omega
        have takes : FieldTakes field rest ((input.drop cursor).take length)
            ((input.drop cursor).drop length) := by
          refine (fieldTakes_iff ends parse).mpr ⟨?_, allowed⟩
          rwa [List.take_append_drop, bytes]
        refine ⟨⟨segment.fieldIndex, cursor, length⟩ :: places, by simp, ?_⟩
        exact (parses_field kind).mpr
          ⟨field, (input.drop cursor).take length, (input.drop cursor).drop length, places, found,
            (List.take_append_drop _ _).symm, by rw [bytes], takes, by rwa [bytes]⟩
      · rintro ⟨places, rfl, parse⟩
        obtain ⟨other, bytes, more, later, same, split, rfl, takes, parse⟩ :=
          (parses_field kind).mp parse
        obtain rfl := Option.some.inj (found.symm.trans same)
        obtain ⟨holds, allowed⟩ := (fieldTakes_iff ends parse).mp takes
        have inside := congrArg List.length split
        rw [List.length_drop, List.length_append] at inside
        refine ⟨field, bytes.length, before ++ [⟨segment.fieldIndex, cursor, bytes.length⟩], found,
          split ▸ holds, by rwa [split, List.take_left], rfl, ?_⟩
        refine (inductionHypothesis valid.2 (by omega)).mpr ⟨later, by simp, ?_⟩
        rwa [← List.drop_drop, split, List.drop_left]

/-! ### The parses of an action -/

/-- The bounds of an action are those of its segments. -/
structure TextLengths (message : MessageExecutionPlan) (action : TextActionExecutionPlan) :
    Prop where
  minimum :
    action.minRecordLength = recordMinimum (message.fields.map (·.textBounds)) action.segments
  maximum :
    action.maxRecordLength = recordMaximum (message.fields.map (·.textBounds)) action.segments

/-- A record that parses is as long as its segments allow. -/
theorem Parses.length {message : MessageExecutionPlan} {offset : Nat}
    {segments : List TextSegmentExecutionPlan} {text : List UInt8} {places : List TextPlace}
    (parse : Parses message offset segments text places) :
    recordMinimum (message.fields.map (·.textBounds)) segments ≤ text.length ∧
      text.length ≤ recordMaximum (message.fields.map (·.textBounds)) segments := by
  induction parse with
  | done => exact ⟨Nat.zero_le _, Nat.zero_le _⟩
  | @literal offset segment rest text places kind _ inductionHypothesis =>
    unfold recordMinimum recordMaximum segmentBounds at inductionHypothesis ⊢
    rw [List.map_cons, List.map_cons, List.sum_cons, List.sum_cons, List.length_append]
    simp only [kind]
    omega
  | @field offset segment rest bytes text places field kind found takes _ inductionHypothesis =>
    have entry : (message.fields.map (·.textBounds)).getD segment.fieldIndex (0, 0) =
        (field.textMinLength, field.textMaxLength) := by
      simp [List.getD_eq_getElem?_getD, found, FieldExecutionPlan.textBounds]
    have least := takes.minimum
    have most := takes.maximum
    unfold recordMinimum recordMaximum segmentBounds at inductionHypothesis ⊢
    rw [List.map_cons, List.map_cons, List.sum_cons, List.sum_cons, List.length_append]
    simp only [kind, entry]
    omega

section

variable {message : MessageExecutionPlan} {action : TextActionExecutionPlan} {input : List UInt8}
  {places : List TextPlace}

/-- The walk over an action finds exactly its parses. -/
theorem walkTextAction_parses (valid : TextActionValid message action)
    (lengths : TextLengths message action) :
    walkTextAction action message input true collectPlace [] = some (.match, places) ↔
      Parses message 0 action.segments input places := by
  have walk := @walkSegments_parses message input action.segments 0 [] places
    valid.walkable.segments (Nat.zero_le _)
  rw [List.drop_zero] at walk
  unfold walkTextAction
  by_cases outside : input.length < action.minRecordLength ∨
    input.length > action.maxRecordLength ∨ action.segments = []
  · rw [if_pos outside]
    refine ⟨fun wrong => (by simp at wrong), fun parse => ?_⟩
    have bounds := parse.length
    rw [← lengths.minimum, ← lengths.maximum] at bounds
    rcases outside with short | long | empty
    · omega
    · omega
    · exact absurd empty valid.walkable.nonempty
  · rw [if_neg outside, walk]
    simp only [List.nil_append, exists_eq_left']

/-- A record has at most one parse. -/
theorem Parses.unique (valid : SegmentsValid (message.fields.map (·.textBounds)) action.segments)
    {others : List TextPlace} (parse : Parses message 0 action.segments input places)
    (other : Parses message 0 action.segments input others) : places = others := by
  have walk := fun found => @walkSegments_parses message input action.segments 0 [] found valid
    (Nat.zero_le _)
  rw [List.drop_zero] at walk
  have first := (walk places).mpr ⟨places, rfl, parse⟩
  have second := (walk others).mpr ⟨others, rfl, other⟩
  exact congrArg Prod.snd (Option.some.inj (first.symm.trans second))

/-- A walk that matches with validated characters matches without. -/
theorem walkSegments_unchecked {σ : Type} {visitor : σ → Nat → Nat → Nat → Access (σ × Bool)} :
    ∀ {segments : List TextSegmentExecutionPlan} {cursor : Nat} {state last : σ},
      walkSegments message input true visitor segments cursor state = some (.match, last) →
        walkSegments message input false visitor segments cursor state = some (.match, last) := by
  intro segments
  induction segments with
  | nil => exact fun walked => walked
  | cons segment rest inductionHypothesis =>
    intro cursor state last walked
    unfold walkSegments at walked ⊢
    cases kind : segment.kind with
    | literal =>
      simp only [kind] at walked ⊢
      split at walked
      · cases walked
      rename_i fits
      rw [if_neg fits]
      obtain ⟨equal, compared, walked⟩ := Option.bind_eq_some_iff.mp walked
      rw [compared]
      split at walked
      · rename_i same
        simp only [Option.bind_eq_bind, Option.bind_some, if_pos same]
        exact inductionHypothesis walked
      · cases walked
    | field =>
      simp only [kind] at walked ⊢
      split at walked
      · cases walked
      obtain ⟨measured, measuring, walked⟩ := Option.bind_eq_some_iff.mp walked
      rw [measuring]
      simp only [Option.bind_eq_bind, Option.bind_some]
      split at walked
      · exact walked
      split at walked
      · cases walked
      rename_i bounds
      rw [if_neg bounds]
      simp only [if_true, Option.bind_eq_bind, Option.bind_eq_some_iff] at walked
      obtain ⟨allowed, -, walked⟩ := walked
      split at walked
      · cases walked
      obtain ⟨visit, visited, walked⟩ := Option.bind_eq_some_iff.mp walked
      simp only [Bool.false_eq_true, Bool.true_eq_false, if_false, Option.bind_some, visited]
      split at walked
      · cases walked
      rename_i taken
      rw [if_neg taken]
      exact inductionHypothesis walked

theorem walkTextAction_unchecked {σ : Type} {visitor : σ → Nat → Nat → Nat → Access (σ × Bool)}
    {state last : σ}
    (walked : walkTextAction action message input true visitor state = some (.match, last)) :
    walkTextAction action message input false visitor state = some (.match, last) := by
  unfold walkTextAction at walked ⊢
  split at walked
  · cases walked
  · rename_i bounds
    rw [if_neg bounds]
    exact walkSegments_unchecked walked

/-- The places of a record whose characters are valid are its parse. -/
theorem textPlaces_parses (valid : TextActionValid message action)
    (lengths : TextLengths message action) (matched : textVerdict message action input = .match) :
    Parses message 0 action.segments input (textPlaces message action input) := by
  have accepted := (textVerdict_eq valid input).1
  rw [matched] at accepted
  obtain ⟨status, _, places, left, right, -⟩ :=
    @walkTextAction_alike Unit (List TextPlace) message input acceptField collectPlace False true
      action (fun _ _ _ => True) () [] valid trivial
      fun _ _ _ _ _ _ _ _ _ => ⟨(), _, true, rfl, rfl, fun _ => trivial, Bool.noConfusion,
        fun _ => trivial⟩
  obtain rfl : TextWalkStatus.match = status :=
    congrArg Prod.fst (Option.some.inj (accepted.symm.trans left))
  have same : textPlaces message action input = places := by
    unfold textPlaces
    rw [walkTextAction_unchecked right]
  rw [same]
  exact (walkTextAction_parses valid lengths).mp right

end

end ProtocolAdapter.Codec

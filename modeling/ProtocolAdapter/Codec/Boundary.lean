/-
This file proves that the boundary analysis of the builder is sound. The analysis follows
a template with a set of states: which bytes the text read so far may end with. A set
covers a text when the text contains no CR LF and its last byte is one the set allows;
every step of the analysis keeps the text covered, so the CR LF at the end of the
template is the first one of every record the walk accepts. The framer therefore cuts a
stream of such records where they end.
-/

import ProtocolAdapter.Builder.Prepared
import ProtocolAdapter.Codec.TextWalk
import ProtocolAdapter.Framing.Crlf
import ProtocolAdapter.Framing.Streaming

namespace ProtocolAdapter.Codec

open Foundation Framing

/-! ### Texts without CR LF -/

/-- The text contains a CR LF. -/
def HasCrLf (text : List UInt8) : Prop := [0x0D, 0x0A] <:+: text

/-- A byte completes a CR LF when it is the LF after a CR. -/
theorem hasCrLf_append_byte {text : List UInt8} {byte : UInt8} :
    HasCrLf (text ++ [byte]) ↔
      (text.getLast? = some 0x0D ∧ byte = 0x0A) ∨ HasCrLf text := by
  unfold HasCrLf
  rw [List.infix_concat_iff, ← endsWithCrlf_append_byte, endsWithCrlf,
    List.isSuffixOf_iff_suffix]

/-- The record ends with its only CR LF. -/
structure EndsAtFirstCrLf (record : List UInt8) : Prop where
  length : 2 ≤ record.length
  only : ∀ position, [0x0D, 0x0A] <+: record.drop position ↔ position = record.length - 2

/-- A text without CR LF, closed by one, ends with its only one. -/
theorem endsAtFirstCrLf_of_text {text : List UInt8} (free : ¬HasCrLf text) :
    EndsAtFirstCrLf (text ++ [0x0D, 0x0A]) := by
  have pending : ¬HasCrLf (text ++ [0x0D]) := by
    rw [hasCrLf_append_byte]
    rintro (⟨-, wrong⟩ | inside)
    · exact absurd wrong (by decide)
    · exact free inside
  refine ⟨by simp, fun position => ⟨fun found => ?_, fun same => ?_⟩⟩
  · have short := found.length_le
    rw [List.length_drop, List.length_append] at short
    rw [List.length_append]
    simp only [List.length_cons, List.length_nil] at short ⊢
    by_contra earlier
    have before : position + 2 ≤ (text ++ [0x0D]).length := by
      rw [List.length_append, List.length_singleton]
      omega
    refine pending ?_
    rw [show text ++ [0x0D, 0x0A] = (text ++ [0x0D]) ++ [0x0A] by simp,
      List.drop_append_of_le_length (by omega)] at found
    have inner : [0x0D, 0x0A] <+: (text ++ [0x0D]).drop position :=
      List.prefix_of_prefix_length_le found (List.prefix_append _ _)
        (by rw [List.length_drop]; simp only [List.length_cons, List.length_nil]; omega)
    exact inner.isInfix.trans (List.drop_suffix _ _).isInfix
  · rw [same, List.length_append]
    simp

/-! ### Covered texts -/

/-- The set of states allows the end of the text, and the text has no CR LF. -/
structure Covers (states : CrLfStates) (text : List UInt8) : Prop where
  free : ¬HasCrLf text
  ending : if text.getLast? = some 0x0D then states.carriageReturn = true else states.plain = true

theorem covers_nil : Covers ⟨true, false⟩ [] := ⟨by unfold HasCrLf; simp, by simp⟩

/-- A larger set covers the same texts. -/
theorem Covers.mono {states larger : CrLfStates} {text : List UInt8} (covers : Covers states text)
    (plain : states.plain = true → larger.plain = true)
    (carriageReturn : states.carriageReturn = true → larger.carriageReturn = true) :
    Covers larger text := by
  have ending := covers.ending
  refine ⟨covers.free, ?_⟩
  by_cases last : text.getLast? = some 0x0D
  · rw [if_pos last] at ending ⊢
    exact carriageReturn ending
  · rw [if_neg last] at ending ⊢
    exact plain ending

/-- A text that ends with CR is covered only by a set with that state. -/
theorem Covers.of_carriageReturn {states : CrLfStates} {text : List UInt8}
    (covers : Covers states text) (last : text.getLast? = some 0x0D) :
    states.carriageReturn = true := by
  have ending := covers.ending
  rwa [if_pos last] at ending

/-- Some state is possible. -/
theorem Covers.possible {states : CrLfStates} {text : List UInt8} (covers : Covers states text) :
    states.plain = true ∨ states.carriageReturn = true := by
  have ending := covers.ending
  split at ending
  · exact Or.inr ending
  · exact Or.inl ending

/-- A byte that cannot complete a CR LF leads to the state of that byte. -/
theorem Covers.append_byte {states next : CrLfStates} {text : List UInt8} {byte : UInt8}
    (covers : Covers states text)
    (safe : states.carriageReturn = true → byte ≠ 0x0A)
    (plain : byte ≠ 0x0D → next.plain = true)
    (carriageReturn : byte = 0x0D → next.carriageReturn = true) :
    Covers next (text ++ [byte]) := by
  refine ⟨?_, ?_⟩
  · rw [hasCrLf_append_byte]
    rintro (⟨last, lineFeed⟩ | inside)
    · exact safe (covers.of_carriageReturn last) lineFeed
    · exact covers.free inside
  · rw [List.getLast?_append_of_ne_nil _ (by simp), List.getLast?_singleton]
    by_cases same : byte = 0x0D
    · rw [if_pos (by rw [same]), carriageReturn same]
    · rw [if_neg (by simpa using same), plain same]

/-! ### Literals -/

theorem advanceCrLfByte_covers {states next : CrLfStates} {text : List UInt8} {byte : UInt8}
    (covers : Covers states text) (advanced : advanceCrLfByte states byte = some next) :
    Covers next (text ++ [byte]) := by
  unfold advanceCrLfByte at advanced
  split at advanced
  · cases advanced
  · rename_i safe
    obtain rfl := Option.some.inj advanced
    exact covers.append_byte (fun possible lineFeed => safe ⟨possible, lineFeed⟩)
      (fun differs => by simpa using differs) (fun same => by simpa using same)

/-- Reading a literal keeps the text covered. -/
theorem literal_covers {bytes : List UInt8} :
    ∀ {states next : CrLfStates} {text : List UInt8}, Covers states text →
      bytes.foldlM advanceCrLfByte states = some next → Covers next (text ++ bytes) := by
  induction bytes with
  | nil =>
    intro states next text covers run
    obtain rfl := Option.some.inj run
    rwa [List.append_nil]
  | cons byte rest inductionHypothesis =>
    intro states next text covers run
    simp only [List.foldlM_cons, Option.bind_eq_bind, Option.bind_eq_some_iff] at run
    obtain ⟨middle, advanced, run⟩ := run
    have whole := inductionHypothesis (advanceCrLfByte_covers covers advanced) run
    rwa [List.append_assoc, List.singleton_append] at whole

/-! ### Fields -/

/-- A character in the alphabet of a field. -/
def FieldAllows (field : FieldPlan) (byte : UInt8) : Prop :=
  byte.toNat < 0x80 ∧ allowsAscii field.allowedAsciiLow field.allowedAsciiHigh byte.toNat = true

theorem mem_allowed {field : FieldPlan} {byte : UInt8} (allowed : FieldAllows field byte) :
    byte.toNat ∈ (List.range 0x80).filter
      (allowsAscii field.allowedAsciiLow field.allowedAsciiHigh) :=
  List.mem_filter.mpr ⟨List.mem_range.mpr allowed.1, allowed.2⟩

theorem advanceCrLfStates_covers {states next : CrLfStates} {field : FieldPlan}
    {text : List UInt8} {byte : UInt8} (covers : Covers states text)
    (advanced : advanceCrLfStates states field = some next) (allowed : FieldAllows field byte) :
    Covers next (text ++ [byte]) := by
  have member := mem_allowed allowed
  unfold advanceCrLfStates at advanced
  simp only at advanced
  split at advanced
  · cases advanced
  · rename_i safe
    rw [if_pos covers.possible] at advanced
    split at advanced
    · obtain rfl := Option.some.inj advanced
      refine covers.append_byte (fun possible lineFeed => safe ⟨possible, ?_⟩)
        (fun differs => ?_) (fun same => ?_)
      · rwa [lineFeed] at member
      · refine List.any_eq_true.mpr ⟨_, member, ?_⟩
        rw [decide_eq_true_eq]
        exact fun same => differs (UInt8.toNat_inj.mp same)
      · refine List.any_eq_true.mpr ⟨_, member, ?_⟩
        rw [same]
        rfl
    · cases advanced

/-- In a fixed point of the analysis a field of any length keeps the text covered. -/
theorem fixpoint_covers {states : CrLfStates} {field : FieldPlan} {bytes : List UInt8}
    (fixed : advanceCrLfStates states field = some states) :
    ∀ {text : List UInt8}, Covers states text → (∀ byte ∈ bytes, FieldAllows field byte) →
      Covers states (text ++ bytes) := by
  induction bytes with
  | nil =>
    intro text covers _
    rwa [List.append_nil]
  | cons byte rest inductionHypothesis =>
    intro text covers allowed
    have next := advanceCrLfStates_covers covers fixed (allowed byte List.mem_cons_self)
    have whole := inductionHypothesis next
      (fun other member => allowed other (List.mem_cons_of_mem _ member))
    rwa [List.append_assoc, List.singleton_append] at whole

/-- What the loop over a field has accepted stays accepted. -/
theorem advanceField_mono {field : FieldPlan} :
    ∀ {remaining count : Nat} {exact accepted result : CrLfStates},
      advanceField field remaining count exact accepted = some result →
      (accepted.plain = true → result.plain = true) ∧
        (accepted.carriageReturn = true → result.carriageReturn = true) := by
  intro remaining
  induction remaining with
  | zero =>
    intro count exact accepted result run
    unfold advanceField at run
    obtain rfl := Option.some.inj run
    split <;> simp +contextual [CrLfStates.union]
  | succ remaining inductionHypothesis =>
    intro count exact accepted result run
    unfold advanceField at run
    simp only at run
    split at run
    · cases run
    · rename_i next advanced
      split at run
      · obtain rfl := Option.some.inj run
        split <;> simp +contextual [CrLfStates.union]
      · obtain ⟨plain, carriageReturn⟩ := inductionHypothesis run
        refine ⟨fun holds => plain ?_, fun holds => carriageReturn ?_⟩ <;> split <;>
          simp [CrLfStates.union, holds]

/-- A field of an admitted length keeps the text covered. The induction follows the
loop: `count` bytes are read, and what is left of the field has to be admitted too. -/
theorem advanceField_covers {field : FieldPlan} :
    ∀ {remaining count : Nat} {exact accepted result : CrLfStates} {text bytes : List UInt8},
      advanceField field remaining count exact accepted = some result → Covers exact text →
      (∀ byte ∈ bytes, FieldAllows field byte) → bytes.length ≤ remaining →
      field.textMinLength ≤ count + bytes.length → Covers result (text ++ bytes) := by
  intro remaining
  induction remaining with
  | zero =>
    intro count exact accepted result text bytes run covers allowed short long
    obtain rfl := List.length_eq_zero_iff.mp (Nat.le_zero.mp short)
    unfold advanceField at run
    obtain rfl := Option.some.inj run
    rw [List.append_nil, if_pos (by simpa using long)]
    exact covers.mono (by simp +contextual [CrLfStates.union])
      (by simp +contextual [CrLfStates.union])
  | succ remaining inductionHypothesis =>
    intro count exact accepted result text bytes run covers allowed short long
    unfold advanceField at run
    simp only at run
    split at run
    · cases run
    · rename_i next advanced
      split at run
      · rename_i same
        obtain rfl := Option.some.inj run
        rw [same] at advanced ⊢
        exact (fixpoint_covers advanced covers allowed).mono
          (by simp +contextual [CrLfStates.union])
          (by simp +contextual [CrLfStates.union])
      · cases bytes with
        | nil =>
          obtain ⟨plain, carriageReturn⟩ := advanceField_mono run
          rw [if_pos (by simpa using long)] at plain carriageReturn
          rw [List.append_nil]
          exact covers.mono (fun holds => plain (by simp [CrLfStates.union, holds]))
            (fun holds => carriageReturn (by simp [CrLfStates.union, holds]))
        | cons byte rest =>
          have step := advanceCrLfStates_covers covers advanced (allowed byte List.mem_cons_self)
          rw [List.length_cons] at short long
          have whole := inductionHypothesis run step
            (fun other member => allowed other (List.mem_cons_of_mem _ member))
            (Nat.le_of_succ_le_succ short) (by omega)
          rwa [List.append_assoc, List.singleton_append] at whole

/-! ### The walk -/

/-- What the walk reads of the fields is what the analysis reads. -/
def TextFieldsAgree (fields : List FieldPlan) (executions : List FieldExecutionPlan) : Prop :=
  executions.map (fun field => (field.textMinLength, field.textMaxLength, field.allowedAsciiLow,
      field.allowedAsciiHigh)) =
    fields.map (fun field => (field.textMinLength, field.textMaxLength, field.allowedAsciiLow,
      field.allowedAsciiHigh))

theorem TextFieldsAgree.field {fields : List FieldPlan} {executions : List FieldExecutionPlan}
    (agree : TextFieldsAgree fields executions) {index : Nat} {execution : FieldExecutionPlan}
    (found : executions[index]? = some execution) : ∃ field, fields[index]? = some field ∧
      execution.textMinLength = field.textMinLength ∧
      execution.textMaxLength = field.textMaxLength ∧
      ∀ byte, isAllowedAscii execution byte = true → FieldAllows field byte := by
  have entry := congrArg (·[index]?) agree
  simp only [List.getElem?_map, found, Option.map_some] at entry
  obtain ⟨field, listed, same⟩ := Option.map_eq_some_iff.mp entry.symm
  simp only [Prod.mk.injEq] at same
  obtain ⟨minimum, maximum, low, high⟩ := same
  refine ⟨field, listed, minimum.symm, maximum.symm, fun byte allowed => ?_⟩
  simp only [isAllowedAscii, Bool.and_eq_true, decide_eq_true_eq] at allowed
  obtain ⟨ascii, listed⟩ := allowed
  have bound : byte.toNat < 0x80 := Nat.lt_succ_of_le (UInt8.le_iff_toNat_le.mp ascii)
  refine ⟨bound, ?_⟩
  unfold allowsAscii
  rw [low, high]
  have branch : (byte < 64) = (byte.toNat < 64) := propext UInt8.lt_iff_toNat_lt
  simpa only [branch] using listed

theorem literalMatches_prefix {input literal : List UInt8} :
    ∀ {cursor : Nat}, literalMatches input cursor literal = some true →
      literal <+: input.drop cursor := by
  induction literal with
  | nil => exact fun _ => List.nil_prefix
  | cons expected rest inductionHypothesis =>
    intro cursor compared
    simp only [literalMatches, Option.bind_eq_bind, Option.bind_eq_some_iff] at compared
    obtain ⟨byte, read, compared⟩ := compared
    split at compared
    · cases compared
    · rename_i same
      have inside := List.getElem?_eq_some_iff.mp read
      rw [List.drop_eq_getElem_cons inside.1, inside.2, not_not.mp same]
      exact (List.cons_prefix_cons).mpr ⟨rfl, inductionHypothesis compared⟩

theorem charactersAllowed_all {field : FieldExecutionPlan} {input : List UInt8} :
    ∀ {remaining index : Nat}, charactersAllowed field input remaining index = some true →
      remaining ≤ (input.drop index).length ∧
        ∀ byte ∈ (input.drop index).take remaining, isAllowedAscii field byte = true := by
  intro remaining
  induction remaining with
  | zero => simp
  | succ remaining inductionHypothesis =>
    intro index checked
    simp only [charactersAllowed, Option.bind_eq_bind, Option.bind_eq_some_iff] at checked
    obtain ⟨byte, read, checked⟩ := checked
    split at checked
    · cases checked
    · rename_i allowed
      have inside := List.getElem?_eq_some_iff.mp read
      obtain ⟨length, rest⟩ := inductionHypothesis checked
      rw [List.drop_eq_getElem_cons inside.1, inside.2]
      refine ⟨by rw [List.length_cons]; omega, ?_⟩
      rw [List.take_succ_cons]
      intro other member
      rcases List.mem_cons.mp member with rfl | later
      · simpa using allowed
      · exact rest other later

/-- The part of the input behind a cursor extends the part before it. -/
theorem take_add_eq (input : List UInt8) (cursor length : Nat) :
    input.take (cursor + length) = input.take cursor ++ (input.drop cursor).take length :=
  List.take_add

/-- A field without a length ends the walk without a match. -/
theorem textFieldLength_ne_match {field : FieldExecutionPlan} {input : List UInt8} {cursor : Nat}
    {rest : List TextSegmentExecutionPlan} :
    textFieldLength field input cursor rest ≠ some (.error .match) := by
  unfold textFieldLength
  split
  · split <;> simp
  · split
    · simp
    · split
      · simp
      · intro measuring
        simp only [Option.bind_eq_bind, Option.bind_eq_some_iff] at measuring
        obtain ⟨found, -, measuring⟩ := measuring
        split at measuring <;> cases measuring

/-- The walk keeps the text before its cursor covered, and ends behind a CR LF that
closes a text without one. -/
theorem walkSegments_boundary {σ : Type} {fields : List FieldPlan}
    {message : MessageExecutionPlan} {input : List UInt8}
    {visitor : σ → Nat → Nat → Nat → Access (σ × Bool)} {final : TextSegmentPlan}
    (agree : TextFieldsAgree fields message.fields) (kind : final.kind = .literal)
    (closed : final.literal.drop (final.literal.length - 2) = [0x0D, 0x0A]) :
    ∀ {segments : List TextSegmentPlan} {cursor : Nat} {states result : CrLfStates}
      {state last : σ}, segments.getLast? = some final → cursor ≤ input.length →
      Covers states (input.take cursor) → advanceSegments fields segments states = some result →
      walkSegments message input true visitor segments cursor state = some (.match, last) →
      ∃ text, ¬HasCrLf text ∧ input = text ++ [0x0D, 0x0A] := by
  intro segments
  induction segments with
  | nil =>
    intro cursor states result state last ends
    cases ends
  | cons segment rest inductionHypothesis =>
    intro cursor states result state last ends inside covers advanced walked
    unfold walkSegments at walked
    unfold advanceSegments at advanced
    cases segmentKind : segment.kind with
    | literal =>
      simp only [segmentKind, Option.bind_eq_bind, Option.bind_eq_some_iff] at walked advanced
      obtain ⟨next, literal, advanced⟩ := advanced
      split at walked
      · cases walked
      · rename_i fits
        obtain ⟨equal, compared, walked⟩ := Option.bind_eq_some_iff.mp walked
        split at walked
        · rename_i same
          have found := literalMatches_prefix (same ▸ compared)
          have bytes := List.prefix_iff_eq_take.mp found
          cases rest with
          | nil =>
            obtain rfl : segment = final := by simpa using ends
            rw [walkSegments, Option.some.injEq, Prod.mk.injEq] at walked
            have complete : cursor + segment.literal.length = input.length := by
              by_contra unfinished
              simp [unfinished] at walked
            have whole : input = input.take cursor ++ segment.literal := by
              have split := take_add_eq input cursor segment.literal.length
              rwa [complete, List.take_length, ← bytes] at split
            rw [if_pos rfl] at literal
            have covered := literal_covers covers literal
            refine ⟨_, covered.free, ?_⟩
            rw [List.append_assoc, ← closed, List.take_append_drop]
            exact whole
          | cons following more =>
            rw [if_neg (List.cons_ne_nil _ _)] at literal
            have covered := literal_covers covers literal
            refine inductionHypothesis (by simpa using ends) ?_ ?_ advanced walked
            · have := found.length_le
              rw [List.length_drop] at this
              omega
            · rw [take_add_eq, ← bytes]
              exact covered
        · cases walked
    | field =>
      simp only [segmentKind] at walked advanced
      split at walked
      · cases walked
      rename_i execution foundExecution
      obtain ⟨field, foundField, minimum, maximum, allows⟩ := agree.field foundExecution
      rw [foundField] at advanced
      simp only [Option.bind_eq_bind, Option.bind_eq_some_iff, failIf_eq_some] at advanced walked
      obtain ⟨accepted, looped, -, -, advanced⟩ := advanced
      obtain ⟨measured, measuring, walked⟩ := walked
      split at walked
      · obtain ⟨rfl, -⟩ := Prod.mk.inj (Option.some.inj walked)
        exact absurd measuring textFieldLength_ne_match
      · rename_i length
        split at walked
        · cases walked
        · rename_i bounds
          simp only [if_true, Option.bind_eq_some_iff] at walked
          obtain ⟨allowed, checked, walked⟩ := walked
          by_cases refused : allowed = false
          · rw [if_pos refused] at walked
            cases walked
          · rw [if_neg refused] at walked
            obtain ⟨visit, -, walked⟩ := Option.bind_eq_some_iff.mp walked
            rw [Bool.not_eq_false] at refused
            obtain ⟨fits, characters⟩ := charactersAllowed_all (refused ▸ checked)
            split at walked
            · cases walked
            · refine inductionHypothesis ?_ ?_ ?_ advanced walked
              · cases rest with
                | nil =>
                  obtain rfl : segment = final := by simpa using ends
                  rw [kind] at segmentKind
                  cases segmentKind
                | cons following more => simpa using ends
              · rw [List.length_drop] at fits
                omega
              · rw [take_add_eq]
                have taken : ((input.drop cursor).take length).length = length := by
                  rw [List.length_take, Nat.min_eq_left fits]
                refine advanceField_covers looped covers
                  (fun byte member => allows byte (characters byte member)) ?_ ?_
                · rw [taken]
                  omega
                · rw [taken]
                  omega

/-- A record that a proven action takes ends with its first CR LF and fits the bound of
the action. -/
theorem walkTextAction_boundary {σ : Type} {fields : List FieldPlan}
    {message : MessageExecutionPlan} {action : TextActionPlan} {input : List UInt8}
    {visitor : σ → Nat → Nat → Nat → Access (σ × Bool)} {state last : σ}
    (proven : proveAsciiCrLfBoundary action fields = true)
    (agree : TextFieldsAgree fields message.fields)
    (walked : walkTextAction action message input true visitor state = some (.match, last)) :
    (∃ text, ¬HasCrLf text ∧ input = text ++ [0x0D, 0x0A]) ∧
      input.length ≤ action.maxRecordLength := by
  unfold proveAsciiCrLfBoundary at proven
  unfold walkTextAction at walked
  split at walked
  · cases walked
  · rename_i bounds
    refine ⟨?_, by omega⟩
    split at proven
    · cases proven
    · rename_i final ends
      simp only [Bool.and_eq_true, beq_iff_eq] at proven
      obtain ⟨⟨⟨kind, -⟩, closed⟩, advanced⟩ := proven
      obtain ⟨result, advanced⟩ := Option.isSome_iff_exists.mp advanced
      exact walkSegments_boundary agree kind closed ends (Nat.zero_le _)
        (by rw [List.take_zero]; exact covers_nil) advanced walked

/-! ### Termination of the analysis -/

/-- The loop of the analysis over one field, with the maximum length tested against the
counter; absent when the given number of rounds is not enough. -/
def crLfFieldLoop (field : FieldPlan) :
    Nat → Nat → CrLfStates → CrLfStates → Option (Option CrLfStates)
  | 0, _, _, _ => none
  | rounds + 1, count, exact, accepted =>
    let accepted := if count ≥ field.textMinLength then accepted.union exact else accepted
    if count = field.textMaxLength then some (some accepted)
    else
      match advanceCrLfStates exact field with
      | none => some none
      | some next =>
        if next = exact then some (some (accepted.union next))
        else crLfFieldLoop field rounds (count + 1) next accepted

/-- The states a character of a field can lead to. -/
def alphabetStates (field : FieldPlan) : CrLfStates :=
  let allowed := (List.range 0x80).filter
    (allowsAscii field.allowedAsciiLow field.allowedAsciiHigh)
  { plain := allowed.any (· ≠ 0x0D), carriageReturn := allowed.any (· = 0x0D) }

/-- The states after a byte of a field are those its alphabet allows. -/
theorem advanceCrLfStates_some {states next : CrLfStates} {field : FieldPlan}
    (advanced : advanceCrLfStates states field = some next) :
    next = alphabetStates field := by
  unfold advanceCrLfStates at advanced
  simp only at advanced
  split at advanced
  · cases advanced
  · split at advanced
    · split at advanced
      · exact (Option.some.inj advanced).symm
      · cases advanced
    · cases advanced

/-- They do not depend on the states before it. -/
theorem advanceCrLfStates_const {first second next later : CrLfStates} {field : FieldPlan}
    (advanced : advanceCrLfStates first field = some next)
    (again : advanceCrLfStates second field = some later) : next = later :=
  (advanceCrLfStates_some advanced).trans (advanceCrLfStates_some again).symm

/-- The analysis of a field ends in its second round at the latest, and the loop computes
what the analysis uses. -/
theorem crLfFieldLoop_eq (field : FieldPlan) (states : CrLfStates) :
    crLfFieldLoop field 2 0 states ⟨false, false⟩ =
      some (advanceField field field.textMaxLength 0 states ⟨false, false⟩) := by
  rw [crLfFieldLoop]
  cases maximum : field.textMaxLength with
  | zero =>
    rw [if_pos rfl, advanceField]
  | succ remaining =>
    rw [if_neg (Nat.zero_ne_add_one _), advanceField]
    cases advanced : advanceCrLfStates states field with
    | none => rfl
    | some next =>
      simp only
      split
      · rfl
      · rw [crLfFieldLoop]
        simp only [maximum]
        cases remaining with
        | zero =>
          rw [if_pos rfl, advanceField]
        | succ remaining =>
          rw [if_neg (by omega), advanceField]
          cases again : advanceCrLfStates next field with
          | none => rfl
          | some later =>
            simp only
            rw [if_pos (advanceCrLfStates_const again advanced),
              if_pos (advanceCrLfStates_const again advanced)]

/-! ### Cutting a stream of records -/

/-- Bytes that complete no CR LF join the unterminated record. -/
theorem cutCrlfStep_text {bytes : List UInt8} :
    ∀ {records : List (List UInt8)} {part : List UInt8}, ¬HasCrLf (part ++ bytes) →
      bytes.foldl cutCrlfStep (records, part) = (records, part ++ bytes) := by
  induction bytes with
  | nil => simp
  | cons byte rest inductionHypothesis =>
    intro records part free
    rw [← List.singleton_append, ← List.append_assoc] at free
    have unfinished : endsWithCrlf (part ++ [byte]) = false := by
      rw [← Bool.not_eq_true]
      intro ends
      have inside : HasCrLf (part ++ [byte]) := by
        unfold endsWithCrlf at ends
        exact (List.isSuffixOf_iff_suffix.mp ends).isInfix
      exact free (inside.trans (List.prefix_append _ _).isInfix)
    rw [List.foldl_cons]
    have step : cutCrlfStep (records, part) byte = (records, part ++ [byte]) := by
      unfold cutCrlfStep
      simp only [unfinished, Bool.false_eq_true, if_false]
    rw [step, inductionHypothesis free, List.append_assoc, List.singleton_append]

/-- The cutter cuts records that end at their first CR LF where they end. -/
theorem cutCrlf_flatten {records : List (List UInt8)}
    (ends : ∀ record ∈ records, ∃ text, ¬HasCrLf text ∧ record = text ++ [0x0D, 0x0A]) :
    cutCrlf records.flatten = (records, []) := by
  suffices ∀ done, records.flatten.foldl cutCrlfStep (done, []) = (done ++ records, []) from
    this []
  induction records with
  | nil => simp
  | cons record rest inductionHypothesis =>
    intro done
    obtain ⟨text, free, rfl⟩ := ends record List.mem_cons_self
    have pending : ¬HasCrLf (text ++ [0x0D]) := by
      rw [hasCrLf_append_byte]
      rintro (⟨-, wrong⟩ | inside)
      · exact absurd wrong (by decide)
      · exact free inside
    have first : (text ++ [0x0D]).foldl cutCrlfStep (done, []) = (done, text ++ [0x0D]) :=
      @cutCrlfStep_text _ done [] pending
    have last : cutCrlfStep (done, text ++ [0x0D]) 0x0A = (done ++ [text ++ [0x0D, 0x0A]], []) := by
      unfold cutCrlfStep
      rw [if_pos (endsWithCrlf_append_byte.mpr ⟨by simp, rfl⟩)]
      simp
    have whole : (text ++ [0x0D, 0x0A]).foldl cutCrlfStep (done, []) =
        (done ++ [text ++ [0x0D, 0x0A]], []) := by
      rw [show text ++ [0x0D, 0x0A] = (text ++ [0x0D]) ++ [0x0A] by simp, List.foldl_append, first]
      simpa using last
    rw [List.flatten_cons, List.foldl_append, whole,
      inductionHypothesis fun other member => ends other (List.mem_cons_of_mem _ member),
      List.append_assoc, List.singleton_append]

/-- More bytes only add records. -/
theorem cutCrlf_starts (stream : List UInt8) (count : Nat) :
    (cutCrlf (stream.take count)).1 <+: (cutCrlf stream).1 := by
  have grows : ∀ (bytes : List UInt8) (cut : List (List UInt8) × List UInt8),
      cut.1 <+: (bytes.foldl cutCrlfStep cut).1 := by
    intro bytes
    induction bytes with
    | nil => exact fun cut => List.prefix_rfl
    | cons byte rest inductionHypothesis =>
      intro cut
      refine List.IsPrefix.trans ?_ (inductionHypothesis (cutCrlfStep cut byte))
      unfold cutCrlfStep
      simp only
      split
      · exact List.prefix_append _ _
      · exact List.prefix_rfl
  have split : cutCrlf stream =
      (stream.drop count).foldl cutCrlfStep (cutCrlf (stream.take count)) := by
    unfold cutCrlf
    rw [← List.foldl_append, List.take_append_drop]
  rw [split]
  exact grows _ _

/-! ### Frozen pipelines -/

/-- The fields of a prepared text message describe its draft fields. -/
theorem prepareTextFields_agree {messageIndex : Nat} {decodeFields encodeFields : List Nat} :
    ∀ {fields : List FieldPlan} {fieldIndex : Nat} {ids : List String} {ordinal : Nat}
      {executions : List FieldExecutionPlan} {count : Nat},
      prepareTextFields messageIndex decodeFields encodeFields fields fieldIndex ids ordinal =
        .ok (executions, count) → TextFieldsAgree fields executions := by
  intro fields
  induction fields with
  | nil =>
    intro fieldIndex ids ordinal executions count run
    cases run
    rfl
  | cons field rest inductionHypothesis =>
    intro fieldIndex ids ordinal executions count run
    simp only [prepareTextFields, bind_eq_ok, pure_eq_ok, Prod.mk.injEq] at run
    obtain ⟨_, -, _, -, ⟨later, inputs⟩, run, rfl, -⟩ := run
    have tail := inductionHypothesis run
    unfold TextFieldsAgree at tail ⊢
    rw [List.map_cons, List.map_cons, tail]
    rfl

/-- The decode action of a prepared text message is that of its draft. -/
theorem prepareTextMessage_decode {schemaVersion : String} {messageIndex : Nat}
    {message : MessagePlan} {text : AsciiTextPlan} {execution : MessageExecutionPlan}
    (run : prepareTextMessage schemaVersion messageIndex message text = .ok execution) :
    execution.textDecode = text.decode ∧ TextFieldsAgree message.fields execution.fields := by
  simp only [prepareTextMessage, rejectIf_bind_eq_ok] at run
  obtain ⟨-, run⟩ := run
  split at run
  · simp only [bind_eq_ok, pure_eq_ok] at run
    obtain ⟨⟨fields, inputCount⟩, prepared, rfl⟩ := run
    exact ⟨rfl, prepareTextFields_agree prepared⟩
  · cases run

/-- A record that the decode action of a message of the pipeline takes, with its
characters validated. -/
def IsTextRecord (plan : PlanBundle) (pipelineIndex : Nat) (record : List UInt8) : Prop :=
  ∃ pipeline messageIndex message action,
    plan.pipelines[pipelineIndex]? = some pipeline ∧ messageIndex ∈ pipeline.messageIndices ∧
    plan.messageExecutionPlans[messageIndex]? = some message ∧
    message.textDecode = some action ∧
    ∃ (σ : Type) (visitor : σ → Nat → Nat → Nat → Access (σ × Bool)) (state last : σ),
      walkTextAction action message record true visitor state = some (.match, last)

/-- A record of a pipeline that cuts records after CR LF fits the profile and ends at its
first CR LF. -/
theorem textRecord_boundary {target : TargetLayout} {draft : PlanDraftData} {plan : PlanBundle}
    {pipelineIndex : Nat} {framing : FrozenFramingPlan} {record : List UInt8}
    (frozen : FrozenFrom target draft plan)
    (bound : streamFraming plan pipelineIndex = some framing)
    (strategy : framing.strategy = .asciiCrlf) (recorded : IsTextRecord plan pipelineIndex record) :
    (∃ text, ¬HasCrLf text ∧ record = text ++ [0x0D, 0x0A]) ∧
      record.length ≤ framing.maximumFrameLength := by
  obtain ⟨pipeline, messageIndex, message, action, foundPipeline, member, foundMessage, decode,
    σ, visitor, state, last, walked⟩ := recorded
  obtain ⟨execution, profile, -, prepared⟩ := frozen.pipelinePrepared foundPipeline
  simp only [streamFraming, foundPipeline, Option.bind_eq_bind, Option.bind_some,
    frozen.framingProfiles, prepared.profile] at bound
  split at bound
  · rename_i kind
    obtain rfl := Option.some.inj bound
    obtain ⟨draftMessage, descriptor, checked⟩ := prepared.checked member
    obtain rfl := Option.some.inj (checked.foundPrepared.symm.trans foundMessage)
    obtain ⟨other, foundOther, kindOf⟩ := frozen.preparedAs foundMessage
    obtain rfl := Option.some.inj (checked.foundMessage.symm.trans foundOther)
    have valid := checked.stream kind
    simp only [streamMessageInvalid, strategy, if_true, asciiCandidateInvalid, decode] at valid
    cases kindOf with
    | binary counts fields noText run => simp [noText] at valid
    | text text hasText run =>
      obtain ⟨sameDecode, agree⟩ := prepareTextMessage_decode run
      rw [hasText, Option.bind_some, ← sameDecode, decode] at valid
      simp only [Bool.or_eq_false_iff, decide_eq_false_iff_not, Bool.not_eq_false'] at valid
      obtain ⟨boundary, short⟩ := walkTextAction_boundary valid.2 agree walked
      exact ⟨boundary, by omega⟩
  · cases bound

/-- Feeding the concatenation of such records delivers exactly them and discards nothing. -/
theorem feed_textRecords {target : TargetLayout} {draft : PlanDraftData} {plan : PlanBundle}
    {pipelineIndex : Nat} {framing : FrozenFramingPlan} {overrides : FramingLimitOverrides}
    {allocated : Bool} {initial : StreamFramingWorkspace} {records : List (List UInt8)}
    {run : FeedState} (frozen : FrozenFrom target draft plan)
    (bound : streamFraming plan pipelineIndex = some framing)
    (strategy : framing.strategy = .asciiCrlf)
    (created : (createStreamFramingWorkspace plan pipelineIndex overrides allocated).workspace =
      some initial)
    (recorded : ∀ record ∈ records, IsTextRecord plan pipelineIndex record)
    (fed : Feed plan pipelineIndex records.flatten initial run) :
    run.frames <+: records ∧
      (run.consumed = records.flatten.length → run.workspace.hasInternalWork = false →
        run.frames = records ∧ run.discarded = 0 ∧ run.malformed = 0 ∧
          run.workspace.retainedBytes = 0) := by
  have cut := cutCrlf_flatten fun record member =>
    (textRecord_boundary frozen bound strategy (recorded record member)).1
  have fits : ∀ record ∈ records, record.length ≤ framing.maximumFrameLength :=
    fun record member => (textRecord_boundary frozen bound strategy (recorded record member)).2
  have valid := streamValid_of_streamFraming frozen bound
  obtain ⟨-, profile, limits, framed, -, -, -, rfl⟩ :=
    createStreamFramingWorkspace_workspace created
  obtain rfl : profile = framing := Option.some.inj (framed.symm.trans bound)
  have minimum := (valid.asciiCrlf strategy).maximum_ge
  obtain ⟨tracks, sameFraming⟩ :=
    fresh_tracksCrlf plan pipelineIndex profile limits strategy minimum
  have invariant := feed_tracksCrlf tracks fed
  have kept : run.workspace.framing = profile := (feed_binding fed).framing.trans sameFraming
  obtain ⟨delivered, complete, reported⟩ := invariant.frames
  rw [kept] at delivered complete reported
  have short : shortRecords profile.maximumFrameLength records = records :=
    List.filter_eq_self.mpr fun record member => by simpa using fits record member
  refine ⟨?_, fun all idle => ?_⟩
  · have part := (cutCrlf_starts records.flatten run.consumed).filter
      fun record => decide (record.length ≤ profile.maximumFrameLength)
    rw [cut] at part
    exact short ▸ delivered.trans part
  · have whole := complete idle
    rw [all, List.take_length, cut] at whole reported
    rw [short] at whole
    have none : longRecords profile.maximumFrameLength records = 0 :=
      List.countP_eq_zero.mpr fun record member => by
        have := fits record member
        simp only [decide_eq_true_eq]
        omega
    have balance := invariant.accounted
    have empty : (StreamFramingWorkspace.fresh plan pipelineIndex profile limits).retainedBytes =
        0 := resetCandidate_retainedBytes _
    rw [whole, all, empty, List.length_flatten] at balance
    rw [none, List.length_nil, if_neg (by omega)] at reported
    exact ⟨whole, by omega, reported, by omega⟩

/-! ### The guarantee -/

/-- A proven CR LF boundary is one: every record that a proven action takes, with its
characters validated, ends at its first CR LF; a pipeline of a frozen plan that cuts
records after CR LF delivers any concatenation of its records as it is; and two rounds of
the analysis are enough for every field. -/
theorem asciiCrLf_boundary :
    (∀ (fields : List FieldPlan) (message : MessageExecutionPlan) (action : TextActionPlan)
        (input : List UInt8) (σ : Type) (visitor : σ → Nat → Nat → Nat → Access (σ × Bool))
        (state last : σ),
      proveAsciiCrLfBoundary action fields = true → TextFieldsAgree fields message.fields →
      walkTextAction action message input true visitor state = some (.match, last) →
      EndsAtFirstCrLf input) ∧
    (∀ (target : TargetLayout) (draft : PlanDraftData) (storage : Option Nat)
        (plan : PlanBundle) (pipelineIndex : Nat) (framing : FrozenFramingPlan)
        (overrides : FramingLimitOverrides) (allocated : Bool)
        (initial : StreamFramingWorkspace) (records : List (List UInt8)) (run : FeedState),
      freezeImpl target draft storage = .ok plan →
      streamFraming plan pipelineIndex = some framing → framing.strategy = .asciiCrlf →
      (createStreamFramingWorkspace plan pipelineIndex overrides allocated).workspace =
        some initial →
      (∀ record ∈ records, IsTextRecord plan pipelineIndex record) →
      Feed plan pipelineIndex records.flatten initial run →
      run.frames <+: records ∧
        (run.consumed = records.flatten.length → run.workspace.hasInternalWork = false →
          run.frames = records ∧ run.discarded = 0 ∧ run.malformed = 0 ∧
            run.workspace.retainedBytes = 0)) ∧
    ∀ (field : FieldPlan) (states : CrLfStates),
      crLfFieldLoop field 2 0 states ⟨false, false⟩ =
        some (advanceField field field.textMaxLength 0 states ⟨false, false⟩) := by
  refine ⟨?_, ?_, crLfFieldLoop_eq⟩
  · intro fields message action input σ visitor state last proven agree walked
    obtain ⟨⟨text, free, rfl⟩, -⟩ := walkTextAction_boundary proven agree walked
    exact endsAtFirstCrLf_of_text free
  · intro target draft storage plan pipelineIndex framing overrides allocated initial records run
      frozen bound strategy created recorded fed
    exact feed_textRecords (frozenFrom_of_freezeImpl frozen) bound strategy created recorded fed

/-! ### An example -/

/-- One to four characters between `V=` and CR LF. -/
def readingAction : TextActionPlan where
  segments := [
    { literal := [0x56, 0x3D], prefixTable := [0, 0] },
    { kind := .field, fieldIndex := 0 },
    { literal := [0x0D, 0x0A], prefixTable := [0, 0] }]
  minRecordLength := 5
  maxRecordLength := 8

/-- A message with a printable reading. -/
def readingMessage : MessagePlan where
  id := "reading"
  directionId := "up"
  frameLengthBytes := 8
  fields := [
    { id := "value", valueType := .bytes, wireCodec := .asciiText, textMinLength := 1
      textMaxLength := 4, allowedAsciiLow := 0xFFFFFFFF00000000
      allowedAsciiHigh := 0x7FFFFFFFFFFFFFFF }]
  asciiText := some { decode := some readingAction }

/-- A package with that message in a stream of lines. -/
def readingDraft : PlanDraftData where
  schemaVersion := "0.11"
  protocolId := "lines"
  protocolVersion := "1"
  resourceProfile := .constrained
  resourceRequirements :=
    { maxFrameBytes := 8
      framingProfileCount := 1
      pipelineCount := 1
      messageCount := 1
      totalFieldCount := 1
      maxStreamFrameBytes := 16
      maxSyncBytes := 2
      maxFramingBufferBytes := 16
      totalTextSegmentCount := 3 }
  framingProfiles := [
    { id := "line"
      inputKind := .streamChunk
      strategy := .asciiCrlf
      syncBytes := [0x0D, 0x0A]
      syncPrefixTable := [0, 0]
      maximumFrameLength := 16 }]
  pipelines := [{ id := "main", directionId := "up", messageIndices := [0] }]
  messages := [readingMessage]
  approvedPlanMemory :=
    { objectBytes := 432
      stringBytes := 34
      matcherBytes := 36
      metadataContainerBytes := 696
      executionDescriptorBytes := 936
      indexBytes := 16
      extensionBytes := 18
      alignmentBytes := 32
      allocationCount := 27
      upstreamAllocationCount := 1
      accountedTotalBytes := 2200 }

/-- The description of that message for the codec. -/
def readingExecution : MessageExecutionPlan where
  frameSize := 8
  fields := [
    { valueType := .bytes, inputOrdinal := invalidIndex, textMinLength := 1, textMaxLength := 4
      allowedAsciiLow := 0xFFFFFFFF00000000, allowedAsciiHigh := 0x7FFFFFFFFFFFFFFF }]
  textDecode := some readingAction
  textDecodeFieldCount := 1

/-- The plan frozen from that package. -/
def readingPlan : PlanBundle where
  address := 8192
  schemaVersion := "0.11"
  protocolId := "lines"
  protocolVersion := "1"
  resourceProfile := .constrained
  resourceRequirements := readingDraft.resourceRequirements
  framingProfiles := readingDraft.framingProfiles
  pipelines := readingDraft.pipelines
  messages := [freezeMessage readingMessage]
  conversions := []
  executionResourceLayout := { maxFieldsPerMessage := 1 }
  messageExecutionPlans := [readingExecution]
  pipelineExecutionPlans := [{ allowedMessageWords := [1], textMessageIndices := [0] }]
  memoryReport := readingDraft.approvedPlanMemory

theorem readingDraft_freezes :
    freezeImpl sampleTarget readingDraft (some 8192) = .ok readingPlan := by
  rfl

/-- Two readings. -/
def readings : List (List UInt8) :=
  [[0x56, 0x3D, 0x31, 0x0D, 0x0A], [0x56, 0x3D, 0x34, 0x32, 0x0D, 0x0A]]

/-- The workspace of the example, with a budget of forty work units. -/
def readingWorkspace : StreamFramingWorkspace :=
  .fresh readingPlan 0 (readingPlan.framingProfiles.headD {})
    { maxSubmit := 64, maxFrames := 4, maxWork := 40, maxSync := 8, maxSession := 131072 }

/-- The host's view after one call that submits both readings. -/
def readingRun : Option FeedState :=
  (pushStreamChunk readingPlan readingWorkspace 0 { data := some 1, bytes := readings.flatten }
    { function := some fun _ _ => .continue }).map
    (FeedState.after { workspace := readingWorkspace })

theorem asciiCrLf_boundary_readings : ∃ run ∈ readingRun,
    EndsAtFirstCrLf [0x56, 0x3D, 0x31, 0x0D, 0x0A] ∧ run.consumed = 11 ∧
      run.frames = readings ∧ run.discarded = 0 ∧ run.malformed = 0 ∧
      run.workspace.retainedBytes = 0 := by
  have created : (createStreamFramingWorkspace readingPlan 0
      { maxSubmitBytes := 64, maxFramesPerSubmit := 4, maxWorkUnits := 40 } true).workspace =
        some readingWorkspace := by decide
  have walked : walkTextAction readingAction readingExecution [0x56, 0x3D, 0x31, 0x0D, 0x0A] true
      acceptField () = some (.match, ()) := rfl
  have ends := asciiCrLf_boundary.1 readingMessage.fields readingExecution _ _ _ _ _ _
    (by decide) rfl walked
  have recorded : ∀ record ∈ readings, IsTextRecord readingPlan 0 record := by
    intro record member
    rcases List.mem_pair.mp member with rfl | rfl <;>
      exact ⟨_, 0, _, _, rfl, by decide, rfl, rfl, Unit, acceptField, (), (), rfl⟩
  have observed : readingRun.map (fun run => (run.consumed, run.workspace.hasInternalWork)) =
      some (11, false) := rfl
  obtain ⟨run, found, seen⟩ := Option.map_eq_some_iff.mp observed
  obtain ⟨final, pushed, rfl⟩ := Option.map_eq_some_iff.mp found
  have fed : Feed readingPlan 0 readings.flatten readingWorkspace
      (FeedState.after { workspace := readingWorkspace } final) :=
    .submit .start _ _ _ List.prefix_rfl pushed
  simp only [Prod.mk.injEq] at seen
  obtain ⟨-, whole⟩ := asciiCrLf_boundary.2.1 _ _ _ _ _ (readingPlan.framingProfiles.headD {}) _ _ _
    _ _ readingDraft_freezes rfl rfl created recorded fed
  exact ⟨_, found, ends, seen.1, whole seen.1 seen.2⟩

end ProtocolAdapter.Codec

/-
This file develops prefix tables for incremental pattern search. A table entry is
the length of the longest proper border of a prefix of the pattern; with correct
entries, one symbol of text advances the length of the current partial match to
the longest one possible. The matcher, the check that accepts a table, and the
construction of a table all share the one step `advance`.
-/

import Mathlib.Data.List.Infix

namespace Foundation.PrefixTable

variable {α : Type}

/-! ### Borders and correct tables -/

/-- A proper border of `word`: a prefix shorter than `word` that is also a suffix. -/
def IsBorder (word : List α) (size : Nat) : Prop :=
  size < word.length ∧ word.take size <:+ word

/-- The length of the longest proper border. -/
def IsLongestBorder (word : List α) (size : Nat) : Prop :=
  IsBorder word size ∧ ∀ other, IsBorder word other → other ≤ size

/-- The first `count` entries of the table are the longest borders of the pattern's
prefixes. -/
def CorrectUpTo (pattern : List α) (table : List Nat) (count : Nat) : Prop :=
  ∀ index, index < count → index < pattern.length →
    IsLongestBorder (pattern.take (index + 1)) (table.getD index 0)

/-- The whole table is correct and has one entry for each symbol of the pattern. -/
structure IsPrefixTable (pattern : List α) (table : List Nat) : Prop where
  length_eq : table.length = pattern.length
  correct : CorrectUpTo pattern table pattern.length

theorem CorrectUpTo.mono {pattern : List α} {table : List Nat} {count smaller : Nat}
    (correct : CorrectUpTo pattern table count) (le : smaller ≤ count) :
    CorrectUpTo pattern table smaller :=
  fun index bound => correct index (Nat.lt_of_lt_of_le bound le)

theorem IsLongestBorder.unique {word : List α} {first second : Nat}
    (left : IsLongestBorder word first) (right : IsLongestBorder word second) :
    first = second :=
  Nat.le_antisymm (right.2 _ left.1) (left.2 _ right.1)

/-- A correct entry is below the length of its prefix. -/
theorem CorrectUpTo.entry_lt {pattern : List α} {table : List Nat} {count index : Nat}
    (correct : CorrectUpTo pattern table count) (bound : index < count)
    (inside : index < pattern.length) : table.getD index 0 < index + 1 := by
  have border := (correct index bound inside).1.1
  rw [List.length_take] at border
  omega

theorem take_take_of_le (pattern : List α) {small large : Nat} (le : small ≤ large) :
    (pattern.take large).take small = pattern.take small := by
  rw [List.take_take, Nat.min_eq_left le]

theorem take_suffix_take_iff {pattern : List α} {small large : Nat} (le : small < large)
    (inside : large ≤ pattern.length) :
    pattern.take small <:+ pattern.take large ↔ IsBorder (pattern.take large) small := by
  unfold IsBorder
  rw [take_take_of_le pattern (Nat.le_of_lt le), List.length_take, Nat.min_eq_left inside]
  exact ⟨fun suffix => ⟨le, suffix⟩, fun border => border.2⟩

theorem take_succ_suffix_iff {pattern text : List α} {symbol : α} {size : Nat}
    (inside : size < pattern.length) :
    pattern.take (size + 1) <:+ text ++ [symbol] ↔
      pattern.take size <:+ text ∧ pattern[size]? = some symbol := by
  rw [List.take_add_one, List.getElem?_eq_getElem inside, Option.toList_some]
  constructor
  · rintro ⟨before, equal⟩
    rw [← List.append_assoc] at equal
    obtain ⟨front, last⟩ := List.append_inj' equal rfl
    exact ⟨⟨before, front⟩, by simpa using last⟩
  · rintro ⟨⟨before, rfl⟩, same⟩
    refine ⟨before, ?_⟩
    simp_all

theorem isLongestBorder_singleton (symbol : α) : IsLongestBorder [symbol] 0 :=
  ⟨⟨by simp, by simp⟩, fun other border => by
    have := border.1
    simp only [List.length_cons, List.length_nil] at this
    omega⟩

variable [DecidableEq α]

/-! ### The matching step -/

/-- The inner loop of the matching step: while the match is nonempty and the next
pattern symbol differs, fall back through the table. Returns the match it ends with
and the number of fallbacks. Every fallback shortens the match, so a budget of
`matched` rounds is enough. -/
def fallback (pattern : List α) (table : List Nat) (symbol : α) : Nat → Nat → Nat × Nat
  | 0, matched => (matched, 0)
  | fuel + 1, matched =>
    if matched ≠ 0 ∧ pattern[matched]? ≠ some symbol then
      let next := fallback pattern table symbol fuel (table.getD (matched - 1) 0)
      (next.1, next.2 + 1)
    else
      (matched, 0)

/-- The number of fallbacks one symbol causes. -/
def fallbackCount (pattern : List α) (table : List Nat) (matched : Nat) (symbol : α) : Nat :=
  (fallback pattern table symbol matched matched).2

/-- One symbol of text: fall back, then extend the match when the symbol agrees. -/
def advance (pattern : List α) (table : List Nat) (matched : Nat) (symbol : α) : Nat :=
  let reached := (fallback pattern table symbol matched matched).1
  if pattern[reached]? = some symbol then reached + 1 else reached

/-! ### The fallback loop -/

/-- What the fallback loop reaches: a suffix of the current match that the symbol
extends unless it is empty, and no shorter than any other such suffix. -/
theorem fallback_spec {pattern : List α} {table : List Nat} (symbol : α) :
    ∀ (fuel matched : Nat), matched ≤ fuel → matched ≤ pattern.length →
      CorrectUpTo pattern table matched →
      let reached := (fallback pattern table symbol fuel matched).1
      reached ≤ matched ∧ pattern.take reached <:+ pattern.take matched ∧
        (reached = 0 ∨ pattern[reached]? = some symbol) ∧
        ∀ other, other ≤ matched → pattern.take other <:+ pattern.take matched →
          pattern[other]? = some symbol → other ≤ reached := by
  intro fuel
  induction fuel with
  | zero =>
    intro matched bound inside correct
    have zero : matched = 0 := by omega
    subst zero
    exact ⟨Nat.le_refl 0, List.suffix_refl _, Or.inl rfl, fun other le _ _ => le⟩
  | succ fuel inductionHypothesis =>
    intro matched bound inside correct
    by_cases mismatch : matched ≠ 0 ∧ pattern[matched]? ≠ some symbol
    · have previous : matched - 1 < matched := by omega
      have longest := correct (matched - 1) previous (by omega)
      rw [show matched - 1 + 1 = matched by omega] at longest
      have shorter := correct.entry_lt previous (by omega)
      rw [show matched - 1 + 1 = matched by omega] at shorter
      have recursive := inductionHypothesis (table.getD (matched - 1) 0) (by omega) (by omega)
        (correct.mono (by omega))
      simp only [fallback, if_pos mismatch]
      obtain ⟨reachedLe, reachedSuffix, agrees, maximal⟩ := recursive
      have entrySuffix : pattern.take (table.getD (matched - 1) 0) <:+ pattern.take matched :=
        (take_suffix_take_iff shorter inside).mpr longest.1
      refine ⟨by omega, reachedSuffix.trans entrySuffix, agrees, ?_⟩
      intro other otherLe otherSuffix otherAgrees
      have otherLt : other < matched := by
        rcases Nat.lt_or_eq_of_le otherLe with lt | same
        · exact lt
        · exact absurd (same ▸ otherAgrees) mismatch.2
      have atMost : other ≤ table.getD (matched - 1) 0 :=
        longest.2 other ((take_suffix_take_iff otherLt inside).mp otherSuffix)
      refine maximal other atMost ?_ otherAgrees
      refine List.suffix_of_suffix_length_le otherSuffix entrySuffix ?_
      rw [List.length_take, List.length_take]
      omega
    · simp only [fallback, if_neg mismatch]
      refine ⟨Nat.le_refl _, List.suffix_refl _, ?_, fun other le _ _ => le⟩
      by_cases zero : matched = 0
      · exact Or.inl zero
      · exact Or.inr (by simpa [zero] using mismatch)

/-- The loop falls back at most once for each symbol of the match. -/
theorem fallback_count_le {pattern : List α} {table : List Nat} (symbol : α) :
    ∀ (fuel matched : Nat), matched ≤ pattern.length → CorrectUpTo pattern table matched →
      (fallback pattern table symbol fuel matched).2 ≤ matched := by
  intro fuel
  induction fuel with
  | zero => intro matched _ _; exact Nat.zero_le _
  | succ fuel inductionHypothesis =>
    intro matched inside correct
    by_cases mismatch : matched ≠ 0 ∧ pattern[matched]? ≠ some symbol
    · have previous : matched - 1 < matched := by omega
      have shorter := correct.entry_lt previous (by omega)
      have recursive := inductionHypothesis (table.getD (matched - 1) 0) (by omega)
        (correct.mono (by omega))
      simp only [fallback, if_pos mismatch]
      omega
    · simp only [fallback, if_neg mismatch]
      omega

/-! ### The matching step is maximal -/

/-- One symbol keeps the match a suffix of the text read so far. -/
theorem advance_suffix {pattern : List α} {table : List Nat} {matched : Nat} (symbol : α)
    (inside : matched < pattern.length) (correct : CorrectUpTo pattern table matched) :
    advance pattern table matched symbol ≤ matched + 1 ∧
      pattern.take (advance pattern table matched symbol) <:+ pattern.take matched ++ [symbol] := by
  obtain ⟨reachedLe, suffix, agrees, -⟩ :=
    fallback_spec symbol matched matched (Nat.le_refl _) (Nat.le_of_lt inside) correct
  unfold advance
  simp only
  split
  · rename_i same
    exact ⟨by omega, (take_succ_suffix_iff (by omega)).mpr ⟨suffix, same⟩⟩
  · rename_i differs
    have zero := agrees.resolve_right differs
    rw [zero]
    exact ⟨Nat.zero_le _, by simp⟩

/-- One symbol reaches the longest match the text read so far allows. -/
theorem advance_maximal {pattern : List α} {table : List Nat} {matched size : Nat} (symbol : α)
    (inside : matched < pattern.length) (correct : CorrectUpTo pattern table matched)
    (bound : size ≤ pattern.length)
    (suffix : pattern.take size <:+ pattern.take matched ++ [symbol]) :
    size ≤ advance pattern table matched symbol := by
  obtain ⟨reachedLe, -, agrees, maximal⟩ :=
    fallback_spec symbol matched matched (Nat.le_refl _) (Nat.le_of_lt inside) correct
  cases size with
  | zero => exact Nat.zero_le _
  | succ size =>
    obtain ⟨shorter, same⟩ := (take_succ_suffix_iff (by omega)).mp suffix
    have short : size ≤ matched := by
      have := shorter.length_le
      rw [List.length_take, List.length_take] at this
      omega
    have atMost := maximal size short shorter same
    unfold advance
    simp only
    split
    · omega
    · rename_i differs
      have zero := agrees.resolve_right differs
      rw [zero] at atMost differs
      have : size = 0 := by omega
      exact absurd (this ▸ same) differs

/-! ### Accepting a table -/

/-- Recomputes every entry from the entries before it and compares. The first entry
is zero; each later one is the match the previous entry advances to. -/
def checkFrom (pattern : List α) (table : List Nat) : List α → Nat → Nat → Bool
  | [], _, _ => true
  | symbol :: rest, index, expected =>
    let next := if index = 0 then expected else advance pattern table expected symbol
    table.getD index 0 == next && decide (next ≤ index) &&
      checkFrom pattern table rest (index + 1) next

/-- The acceptance check of a table of the right length. -/
def accepts (pattern : List α) (table : List Nat) : Bool :=
  checkFrom pattern table pattern 0 0

/-- The longest border of a prefix, advanced by the next symbol, is the longest
border of the next prefix. -/
theorem advance_isLongestBorder {pattern : List α} {table : List Nat} {index expected : Nat}
    (symbol : α) (inside : index < pattern.length) (same : pattern[index]? = some symbol)
    (longest : IsLongestBorder (pattern.take index) expected)
    (correct : CorrectUpTo pattern table expected) :
    IsLongestBorder (pattern.take (index + 1)) (advance pattern table expected symbol) := by
  have expectedLt : expected < index := by
    have := longest.1.1
    rw [List.length_take] at this
    omega
  have extended : pattern.take (index + 1) = pattern.take index ++ [symbol] := by
    rw [List.take_add_one, same, Option.toList_some]
  have step := advance_suffix symbol (Nat.lt_trans expectedLt inside) correct
  have outer : pattern.take expected <:+ pattern.take index :=
    (take_suffix_take_iff expectedLt (Nat.le_of_lt inside)).mpr longest.1
  refine ⟨?_, ?_⟩
  · rw [← take_suffix_take_iff (by omega) inside, extended]
    refine step.2.trans ?_
    obtain ⟨before, equal⟩ := outer
    exact ⟨before, by rw [← List.append_assoc, equal]⟩
  · intro other border
    have otherLt : other < index + 1 := by
      have := border.1
      rw [List.length_take] at this
      omega
    have suffix := (take_suffix_take_iff otherLt inside).mpr border
    refine advance_maximal symbol (Nat.lt_trans expectedLt inside) correct (by omega) ?_
    cases other with
    | zero => simp
    | succ other =>
      rw [extended, take_succ_suffix_iff (by omega)] at suffix
      rw [take_succ_suffix_iff (by omega)]
      refine ⟨?_, suffix.2⟩
      have atMost : other ≤ expected :=
        longest.2 other ((take_suffix_take_iff (by omega) (Nat.le_of_lt inside)).mp suffix.1)
      refine List.suffix_of_suffix_length_le suffix.1 outer ?_
      rw [List.length_take, List.length_take]
      omega

/-- The entry that a symbol is expected to have is the longest border of the prefix that
ends with it. -/
theorem next_isLongestBorder {pattern rest : List α} {table : List Nat} {symbol : α}
    {index expected : Nat} (remaining : pattern.drop index = symbol :: rest)
    (correct : CorrectUpTo pattern table index) (first : index = 0 → expected = 0)
    (later : index ≠ 0 → IsLongestBorder (pattern.take index) expected) :
    index < pattern.length ∧ IsLongestBorder (pattern.take (index + 1))
      (if index = 0 then expected else advance pattern table expected symbol) := by
  have inside : index < pattern.length := by
    by_contra outside
    rw [List.drop_eq_nil_of_le (by omega)] at remaining
    cases remaining
  have same : pattern[index]? = some symbol := by
    rw [← List.head?_drop, remaining, List.head?_cons]
  refine ⟨inside, ?_⟩
  split
  · rename_i zero
    rw [first zero, zero, show pattern.take (0 + 1) = [symbol] by
      rw [List.take_add_one, ← zero, same]; simp [zero]]
    exact isLongestBorder_singleton symbol
  · rename_i nonzero
    have longest := later nonzero
    have shorter : expected < index := by
      have := longest.1.1
      rw [List.length_take] at this
      omega
    exact advance_isLongestBorder symbol inside same longest (correct.mono (Nat.le_of_lt shorter))

/-- An accepted suffix of the table extends the correct part to the whole table. -/
theorem correct_of_checkFrom {pattern : List α} {table : List Nat} :
    ∀ (rest : List α) (index expected : Nat), pattern.drop index = rest →
      CorrectUpTo pattern table index →
      (index = 0 → expected = 0) →
      (index ≠ 0 → IsLongestBorder (pattern.take index) expected) →
      checkFrom pattern table rest index expected = true →
      CorrectUpTo pattern table pattern.length := by
  intro rest
  induction rest with
  | nil =>
    intro index expected remaining correct _ _ _
    exact correct.mono (List.drop_eq_nil_iff.mp remaining)
  | cons symbol rest inductionHypothesis =>
    intro index expected remaining correct first later checked
    obtain ⟨inside, next⟩ := next_isLongestBorder remaining correct first later
    simp only [checkFrom, Bool.and_eq_true, beq_iff_eq, decide_eq_true_eq] at checked
    obtain ⟨⟨entry, -⟩, checked⟩ := checked
    refine inductionHypothesis (index + 1) _ ?_ ?_ (fun zero => by omega) (fun _ => next) checked
    · rw [← List.drop_drop, remaining, List.drop_one, List.tail_cons]
    · intro other bound insideOther
      rcases Nat.lt_or_eq_of_le (Nat.le_of_lt_succ bound) with earlier | rfl
      · exact correct other earlier insideOther
      · rw [entry]
        exact next

/-- A table of the right length that passes the check is correct. -/
theorem isPrefixTable_of_accepts {pattern : List α} {table : List Nat}
    (length_eq : table.length = pattern.length) (accepted : accepts pattern table = true) :
    IsPrefixTable pattern table where
  length_eq := length_eq
  correct := correct_of_checkFrom pattern 0 0 rfl (fun index bound => by omega) (fun _ => rfl)
    (fun nonzero => absurd rfl nonzero) accepted

end Foundation.PrefixTable

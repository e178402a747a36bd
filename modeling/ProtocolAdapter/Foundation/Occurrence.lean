/-
This file is a library about the first occurrence of a pattern in a text. It relates first
occurrences to the longest match a prefix table keeps track of: the match is complete
exactly when an occurrence ends with the symbol just read.
-/

import ProtocolAdapter.Foundation.PrefixTable

namespace Foundation

variable {α : Type}

/-! ### Occurrences -/

/-- The pattern stands in the text at a position. -/
def OccursAt (pattern text : List α) (position : Nat) : Prop := pattern <+: text.drop position

/-- The first occurrence of the pattern in the text. -/
structure FirstAt (pattern text : List α) (position : Nat) : Prop where
  occurs : OccursAt pattern text position
  first : ∀ earlier, earlier < position → ¬OccursAt pattern text earlier

theorem FirstAt.unique {pattern text : List α} {left right : Nat}
    (first : FirstAt pattern text left) (second : FirstAt pattern text right) : left = right := by
  rcases Nat.lt_trichotomy left right with before | same | after
  · exact absurd first.occurs (second.first left before)
  · exact same
  · exact absurd second.occurs (first.first right after)

theorem OccursAt.append {pattern text : List α} {position : Nat}
    (occurs : OccursAt pattern text position) (more : List α) :
    OccursAt pattern (text ++ more) position := by
  unfold OccursAt at occurs ⊢
  rw [List.drop_append]
  exact occurs.trans (List.prefix_append _ _)

/-- An occurrence ends inside the text. -/
theorem OccursAt.end_le {pattern text : List α} {position : Nat}
    (occurs : OccursAt pattern text position) (nonempty : pattern ≠ []) :
    position + pattern.length ≤ text.length := by
  have short := occurs.length_le
  rw [List.length_drop] at short
  have positive := List.length_pos_iff.mpr nonempty
  omega

/-- What ends inside a part of the text occurs in that part. -/
theorem OccursAt.of_append {pattern text more : List α} {position : Nat}
    (occurs : OccursAt pattern (text ++ more) position)
    (inside : position + pattern.length ≤ text.length) : OccursAt pattern text position := by
  unfold OccursAt at occurs ⊢
  rw [List.drop_append_of_le_length (by omega)] at occurs
  exact List.prefix_of_prefix_length_le occurs (List.prefix_append _ _)
    (by rw [List.length_drop]; omega)

/-! ### The longest match -/

namespace PrefixTable

/-- The longest prefix of the pattern that the text ends with. -/
structure LongestMatch (pattern text : List α) (matched : Nat) : Prop where
  inside : matched ≤ pattern.length
  suffix : pattern.take matched <:+ text
  longest : ∀ size, size ≤ pattern.length → pattern.take size <:+ text → size ≤ matched

theorem longestMatch_nil {pattern : List α} : LongestMatch pattern [] 0 := by
  refine ⟨Nat.zero_le _, by simp, fun size bound suffix => ?_⟩
  have short := suffix.length_le
  rw [List.length_take, Nat.min_eq_left bound] at short
  exact short

variable [DecidableEq α]

/-- Reading a symbol leads from the longest match to the longest match. -/
theorem LongestMatch.advance {pattern text : List α} {table : List Nat} {matched : Nat}
    (longest : LongestMatch pattern text matched) (unfinished : matched < pattern.length)
    (correct : CorrectUpTo pattern table matched) (symbol : α) :
    LongestMatch pattern (text ++ [symbol]) (advance pattern table matched symbol) := by
  obtain ⟨bound, suffix⟩ := advance_suffix symbol unfinished correct
  refine ⟨by omega, suffix.trans ?_, fun size inside ending => ?_⟩
  · obtain ⟨before, equal⟩ := longest.suffix
    exact ⟨before, by rw [← List.append_assoc, equal]⟩
  · refine advance_maximal symbol unfinished correct inside ?_
    cases size with
    | zero => simp
    | succ size =>
      rw [take_succ_suffix_iff (by omega)] at ending ⊢
      refine ⟨List.suffix_of_suffix_length_le ending.1 longest.suffix ?_, ending.2⟩
      have atMost := longest.longest size (by omega) ending.1
      rw [List.length_take, List.length_take]
      omega

omit [DecidableEq α] in
/-- A complete match is an occurrence that ends with the text. -/
theorem LongestMatch.occurs {pattern text : List α}
    (longest : LongestMatch pattern text pattern.length) :
    OccursAt pattern text (text.length - pattern.length) := by
  obtain ⟨before, equal⟩ := longest.suffix
  rw [List.take_length] at equal
  unfold OccursAt
  rw [← equal, List.length_append, Nat.add_sub_cancel, List.drop_left]

omit [DecidableEq α] in
/-- Without a complete match no occurrence ends with the symbol just read. -/
theorem LongestMatch.notOccurs {pattern text : List α} {symbol : α} {matched : Nat}
    (longest : LongestMatch pattern (text ++ [symbol]) matched)
    (unfinished : matched ≠ pattern.length)
    (nonempty : pattern ≠ []) (free : ∀ position, ¬OccursAt pattern text position) :
    ∀ position, ¬OccursAt pattern (text ++ [symbol]) position := by
  intro position occurs
  have inside := occurs.end_le nonempty
  rw [List.length_append, List.length_singleton] at inside
  rcases Nat.lt_or_ge (position + pattern.length) (text.length + 1) with before | last
  · exact free position (occurs.of_append (by omega))
  · have ending : pattern <:+ text ++ [symbol] := by
      have whole : (text ++ [symbol]).drop position = pattern :=
        (occurs.eq_of_length (by
          rw [List.length_drop, List.length_append, List.length_singleton]; omega)).symm
      exact whole ▸ List.drop_suffix _ _
    have complete := longest.longest pattern.length le_rfl (by rwa [List.take_length])
    have bound := longest.inside
    omega

end PrefixTable

end Foundation

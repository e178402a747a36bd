/-
This file is a library for encodings that can be cut off the front of a longer text. The parts
of a concatenation of such encodings can be read back, so equal concatenations have equal parts.
-/

import Mathlib.Data.List.Basic

namespace Foundation

variable {α β : Type}

/-- A value's encoding is followed by nothing that could be part of another value's. -/
def PrefixCode (valid : α → Prop) (encode : α → List β) : Prop :=
  ∀ first second, valid first → valid second → ∀ rest others,
    encode first ++ rest = encode second ++ others → first = second ∧ rest = others

/-- Equal concatenations of encodings come from the same values. -/
theorem PrefixCode.flatMap {valid : α → Prop} {encode : α → List β}
    (code : PrefixCode valid encode) (nonempty : ∀ value, valid value → encode value ≠ []) :
    ∀ firsts seconds : List α, (∀ value ∈ firsts, valid value) →
      (∀ value ∈ seconds, valid value) →
        firsts.flatMap encode = seconds.flatMap encode → firsts = seconds := by
  intro firsts
  induction firsts with
  | nil =>
    intro seconds _ valids same
    cases seconds with
    | nil => rfl
    | cons second others =>
      rw [List.flatMap_nil, List.flatMap_cons] at same
      exact absurd (List.append_eq_nil_iff.mp same.symm).1
        (nonempty second (valids second List.mem_cons_self))
  | cons first rest inductionHypothesis =>
    intro seconds valid valids same
    cases seconds with
    | nil =>
      rw [List.flatMap_nil, List.flatMap_cons] at same
      exact absurd (List.append_eq_nil_iff.mp same).1
        (nonempty first (valid first List.mem_cons_self))
    | cons second others =>
      obtain ⟨rfl, restSame⟩ := code first second (valid first List.mem_cons_self)
        (valids second List.mem_cons_self) _ _ same
      rw [inductionHypothesis others
        (fun value member => valid value (List.mem_cons_of_mem _ member))
        (fun value member => valids value (List.mem_cons_of_mem _ member)) restSame]

/-- Texts in front of the first delimiter are equal when the whole is. -/
theorem append_delimiter_inj {delimiter : β} :
    ∀ {first second rest others : List β}, delimiter ∉ first → delimiter ∉ second →
      first ++ delimiter :: rest = second ++ delimiter :: others →
        first = second ∧ rest = others
  | [], [], _, _, _, _, same => ⟨rfl, (List.cons.inj same).2⟩
  | [], head :: _, _, _, _, absent, same =>
    absurd (List.mem_cons.mpr (.inl (List.cons.inj same).1)) absent
  | head :: _, [], _, _, absent, _, same =>
    absurd (List.mem_cons.mpr (.inl (List.cons.inj same).1.symm)) absent
  | head :: first, other :: second, _, _, absent, apart, same => by
    obtain ⟨rfl, tails⟩ := List.cons.inj same
    obtain ⟨rfl, restSame⟩ := append_delimiter_inj
      (fun member => absent (List.mem_cons_of_mem _ member))
      (fun member => apart (List.mem_cons_of_mem _ member)) tails
    exact ⟨rfl, restSame⟩

end Foundation

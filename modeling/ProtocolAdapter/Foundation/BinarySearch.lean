/-
This file is a library of the lower bound search: halving an interval finds the first
index that is not below a key. A probe outside its array makes the search fail, so a
search that succeeds has read nothing out of range.
-/

import Mathlib.Data.Nat.Basic

namespace Foundation.BinarySearch

/-- Searches the indices from `first` to `last` for the first one that `below` denies. The
probe is absent for an index outside the array. Every round at least halves the
interval, so its length bounds the rounds. -/
def lowerBound (below : Nat → Option Bool) : Nat → Nat → Nat → Option Nat
  | 0, first, _ => some first
  | fuel + 1, first, last =>
    if first < last then
      let middle := first + (last - first) / 2
      match below middle with
      | none => none
      | some true => lowerBound below fuel (middle + 1) last
      | some false => lowerBound below fuel first middle
    else some first

/-- Over an array in which the indices below the key come first, the search returns the
boundary. -/
theorem lowerBound_spec {below : Nat → Option Bool} {boundary : Nat} :
    ∀ {fuel first last : Nat}, last - first ≤ fuel → first ≤ boundary → boundary ≤ last →
      (∀ index, first ≤ index → index < last → below index = some (decide (index < boundary))) →
      lowerBound below fuel first last = some boundary := by
  intro fuel
  induction fuel with
  | zero =>
    intro first last short lower upper _
    rw [lowerBound, show first = boundary by omega]
  | succ fuel inductionHypothesis =>
    intro first last short lower upper sorted
    unfold lowerBound
    split
    · rename_i nonempty
      simp only [sorted (first + (last - first) / 2) (by omega) (by omega)]
      by_cases side : first + (last - first) / 2 < boundary
      · simp only [side, decide_true]
        exact inductionHypothesis (by omega) (by omega) upper
          fun index low high => sorted index (by omega) high
      · simp only [side, decide_false]
        exact inductionHypothesis (by omega) lower (by omega)
          fun index low high => sorted index low (by omega)
    · rw [show first = boundary by omega]

/-! ### Sorted lists -/

variable {α : Type}

/-- In a list whose elements below the key come first, an element is below the key exactly
when its index is below their number. -/
theorem below_iff_lt_countP {below : α → Bool} : ∀ {items : List α},
    (items.Pairwise fun left right => below right = true → below left = true) →
      ∀ {index : Nat} {item : α}, items[index]? = some item →
        below item = decide (index < items.countP below)
  | [], _, _, _, found => by simp at found
  | head :: rest, closed, index, item, found => by
    obtain ⟨first, later⟩ := List.pairwise_cons.mp closed
    cases here : below head with
    | true =>
      rw [List.countP_cons_of_pos here]
      cases index with
      | zero =>
        obtain rfl : head = item := by simpa using found
        simp [here]
      | succ index =>
        rw [below_iff_lt_countP later (by simpa using found)]
        simp
    | false =>
      have none : rest.countP below = 0 := by
        rw [List.countP_eq_zero]
        intro other member wrong
        rw [first other member wrong] at here
        cases here
      rw [List.countP_cons_of_neg (by simp [here]), none]
      cases index with
      | zero =>
        obtain rfl : head = item := by simpa using found
        simp [here]
      | succ index =>
        rw [below_iff_lt_countP later (by simpa using found), none]
        simp

/-- The search for a key in the part of an array that a sorted list fills ends behind the
elements below the key. -/
theorem lowerBound_eq_countP {below : α → Bool} {items : List α} {probe : Nat → Option Bool}
    (start : Nat) (closed : items.Pairwise fun left right => below right = true → below left = true)
    (probes : ∀ index item, items[index]? = some item → probe (start + index) = some (below item)) :
    lowerBound probe items.length start (start + items.length) =
      some (start + items.countP below) := by
  refine lowerBound_spec (by omega) (Nat.le_add_right _ _)
    (Nat.add_le_add_left List.countP_le_length _) fun index low high => ?_
  obtain ⟨position, rfl⟩ := Nat.exists_eq_add_of_le low
  have inside : position < items.length := by omega
  rw [probes position _ (List.getElem?_eq_getElem inside),
    below_iff_lt_countP closed (List.getElem?_eq_getElem inside)]
  simp

/-- In a list with increasing keys, the element behind those below a key is the only one that
can have that key. -/
theorem filter_boundary {key : α → Nat} (target : Nat) : ∀ {items : List α},
    (items.Pairwise fun left right => key left < key right) →
      (items[items.countP (key · < target)]?).filter (key · = target) =
        items.find? (key · = target)
  | [], _ => rfl
  | head :: rest, sorted => by
    obtain ⟨first, later⟩ := List.pairwise_cons.mp sorted
    have inductionHypothesis := filter_boundary target later
    by_cases below : key head < target
    · rw [List.countP_cons_of_pos (by simpa using below), List.getElem?_cons_succ,
        List.find?_cons_of_neg (by simpa using Nat.ne_of_lt below)]
      exact inductionHypothesis
    · have none : rest.countP (key · < target) = 0 := by
        rw [List.countP_eq_zero]
        intro other member
        have := first other member
        simp only [decide_eq_true_eq]
        omega
      rw [List.countP_cons_of_neg (by simpa using below), none, List.getElem?_cons_zero]
      by_cases same : key head = target
      · rw [List.find?_cons_of_pos (by simpa using same)]
        simp [same]
      · have absent : rest.find? (key · = target) = .none := by
          rw [List.find?_eq_none]
          intro other member
          have := first other member
          simp only [decide_eq_true_eq]
          omega
        rw [List.find?_cons_of_neg (by simpa using same), absent]
        simp [same]

end Foundation.BinarySearch

/-
This file is a library about positions in lists: counting the items with a property before
an index, the first item for which a search answers, and filling a list from the front.
-/

import Mathlib.Data.List.Basic
import Mathlib.Data.List.Induction
import Mathlib.Algebra.Order.Group.Nat

namespace Foundation

/-! ### Counting -/

theorem countP_take_succ {α : Type} {items : List α} {index : Nat} {item : α} (test : α → Bool)
    (found : items[index]? = some item) :
    (items.take (index + 1)).countP test =
      (items.take index).countP test + if test item then 1 else 0 := by
  rw [List.take_add_one, found, Option.toList_some, List.countP_append, List.countP_singleton]

/-- An item with the property counts for every later index. -/
theorem countP_take_lt {α : Type} {items : List α} {earlier index : Nat} {item : α}
    {test : α → Bool} (before : earlier < index) (found : items[earlier]? = some item)
    (holds : test item = true) :
    (items.take earlier).countP test < (items.take index).countP test := by
  have next := countP_take_succ test found
  have longer : (items.take (earlier + 1)).countP test ≤ (items.take index).countP test :=
    (List.take_prefix_take_left (by omega)).sublist.countP_le
  rw [holds, if_pos rfl] at next
  omega

/-- An item with the property counts for the whole list. -/
theorem countP_take_lt_countP {α : Type} {items : List α} {index : Nat} {item : α}
    {test : α → Bool} (found : items[index]? = some item) (holds : test item = true) :
    (items.take index).countP test < items.countP test := by
  have inside := (List.getElem?_eq_some_iff.mp found).1
  have all := countP_take_lt inside found holds
  rwa [List.take_length] at all

/-- Items with the property have different numbers. -/
theorem countP_take_inj {α : Type} {items : List α} {left right : Nat} {leftItem rightItem : α}
    {test : α → Bool} (leftFound : items[left]? = some leftItem)
    (rightFound : items[right]? = some rightItem) (leftHolds : test leftItem = true)
    (rightHolds : test rightItem = true)
    (same : (items.take left).countP test = (items.take right).countP test) : left = right := by
  rcases Nat.lt_trichotomy left right with before | equal | after
  · exact absurd same (countP_take_lt before leftFound leftHolds).ne
  · exact equal
  · exact absurd same (countP_take_lt after rightFound rightHolds).ne'

/-- The items with a property stand in the filtered list at the number of those before. -/
theorem getElem?_filter {α : Type} {test : α → Bool} : ∀ {items : List α} {slot : Nat} {item : α},
    (items.filter test)[slot]? = some item ↔ ∃ index, items[index]? = some item ∧
      test item = true ∧ (items.take index).countP test = slot := by
  intro items
  induction items using List.reverseRecOn with
  | nil => simp
  | append_singleton items last inductionHypothesis =>
    intro slot item
    have total : (items.filter test).length = items.countP test := List.countP_eq_length_filter.symm
    constructor
    · intro found
      rw [List.filter_append] at found
      by_cases before : slot < (items.filter test).length
      · rw [List.getElem?_append_left before] at found
        obtain ⟨index, listed, holds, counted⟩ := inductionHypothesis.mp found
        have inside := (List.getElem?_eq_some_iff.mp listed).1
        refine ⟨index, ?_, holds, ?_⟩
        · rw [List.getElem?_append_left inside, listed]
        · rw [List.take_append_of_le_length inside.le, counted]
      · rw [List.getElem?_append_right (by omega)] at found
        by_cases holds : test last = true
        · rw [List.filter_cons_of_pos holds, List.filter_nil, List.getElem?_singleton] at found
          split at found
          · obtain rfl := Option.some.inj found
            refine ⟨items.length, by simp, holds, ?_⟩
            rw [List.take_left]
            omega
          · cases found
        · rw [List.filter_cons_of_neg holds, List.filter_nil] at found
          cases found
    · rintro ⟨index, listed, holds, counted⟩
      rw [List.filter_append]
      by_cases inside : index < items.length
      · rw [List.getElem?_append_left inside] at listed
        rw [List.take_append_of_le_length inside.le] at counted
        have found := inductionHypothesis.mpr ⟨index, listed, holds, counted⟩
        rw [List.getElem?_append_left (List.getElem?_eq_some_iff.mp found).1, found]
      · have bound := (List.getElem?_eq_some_iff.mp listed).1
        rw [List.length_append, List.length_singleton] at bound
        obtain rfl : index = items.length := by omega
        rw [List.getElem?_append_right le_rfl, Nat.sub_self] at listed
        obtain rfl := Option.some.inj listed
        rw [List.take_left] at counted
        rw [List.getElem?_append_right (by omega), List.filter_cons_of_pos holds, total, counted,
          Nat.sub_self]
        rfl

/-- Counting items with their indices. -/
theorem countP_zipIdx {α : Type} (test : α → Bool) (items : List α) (count : Nat) :
    (items.zipIdx.take count).countP (test ·.1) = (items.take count).countP test := by
  have fields : (items.zipIdx.take count).map Prod.fst = items.take count := by
    rw [List.map_take, List.zipIdx_map_fst]
  rw [← fields, List.countP_map]
  rfl

/-! ### Searching -/

/-- The first answer of a search is its answer. -/
theorem findSome_zipIdx {α β : Type} {items : List α} {answer : α × Nat → Option β} {index : Nat}
    {item : α} {result : β} (found : items[index]? = some item)
    (answered : answer (item, index) = some result)
    (first : ∀ (earlier : Nat) other, earlier < index → items[earlier]? = some other →
      answer (other, earlier) = none) : items.zipIdx.findSome? answer = some result := by
  have inside := (List.getElem?_eq_some_iff.mp found).1
  have listed : items.zipIdx[index]? = some (item, index) := by
    simp [List.getElem?_zipIdx, found]
  rw [List.findSome?_eq_some_iff]
  refine ⟨items.zipIdx.take index, (item, index), items.zipIdx.drop (index + 1), ?_, answered, ?_⟩
  · have within : index < items.zipIdx.length := by rwa [List.length_zipIdx]
    rw [← (List.getElem?_eq_some_iff.mp listed).2, List.getElem_cons_drop, List.take_append_drop]
  · intro pair member
    obtain ⟨earlier, here⟩ := List.mem_iff_getElem?.mp member
    have before : earlier < index := by
      have bound := (List.getElem?_eq_some_iff.mp here).1
      rw [List.length_take] at bound
      omega
    rw [List.getElem?_take_of_lt before, List.getElem?_zipIdx, Nat.zero_add,
      Option.map_eq_some_iff] at here
    obtain ⟨other, there, rfl⟩ := here
    exact first earlier other before there

theorem findSome_zipIdx_eq_none {α β : Type} {items : List α} {answer : α × Nat → Option β}
    (none : ∀ (index : Nat) item, items[index]? = some item → answer (item, index) = .none) :
    items.zipIdx.findSome? answer = .none := by
  rw [List.findSome?_eq_none_iff]
  intro pair member
  obtain ⟨index, here⟩ := List.mem_iff_getElem?.mp member
  rw [List.getElem?_zipIdx, Nat.zero_add, Option.map_eq_some_iff] at here
  obtain ⟨item, there, rfl⟩ := here
  exact none index item there

/-! ### Filling -/

/-- Writing the next of the new elements over the old ones. -/
theorem set_take_append_drop {α : Type} {fresh items : List α} {index : Nat} {value : α}
    (found : fresh[index]? = some value) (room : index < items.length) :
    (fresh.take index ++ items.drop index).set index value =
      fresh.take (index + 1) ++ items.drop (index + 1) := by
  have inside := (List.getElem?_eq_some_iff.mp found).1
  have length : (fresh.take index).length = index := List.length_take_of_le inside.le
  rw [List.set_append_right _ _ length.le, length, Nat.sub_self, List.drop_eq_getElem_cons room,
    List.set_cons_zero, List.take_add_one, found, Option.toList_some, List.append_assoc]
  rfl

end Foundation

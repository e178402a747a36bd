/-
This file is a library about numbering the members of groups through. The groups stand one
behind the other, so a member has a number among all members, and the numbers below the
total are in bijection with the places in the groups.
-/

import Mathlib.Algebra.GroupWithZero.Nat
import Mathlib.Algebra.Order.BigOperators.Group.List
import Mathlib.Algebra.Order.Group.Nat
import Mathlib.Data.Set.Function

namespace Foundation

/-! ### Places -/

/-- The number of the first member of a group, when the groups have `counts` members. -/
def rangeStart (counts : List Nat) (group : Nat) : Nat := (counts.take group).sum

/-- The places of groups of a size: a group, and a position in it. -/
def places (counts : List Nat) : Set (Nat × Nat) :=
  {place | ∃ count, counts[place.1]? = some count ∧ place.2 < count}

/-- The number of a place. -/
def placeNumber (counts : List Nat) (place : Nat × Nat) : Nat :=
  rangeStart counts place.1 + place.2

@[simp] theorem rangeStart_zero (counts : List Nat) : rangeStart counts 0 = 0 := rfl

theorem rangeStart_succ {counts : List Nat} {group count : Nat}
    (found : counts[group]? = some count) :
    rangeStart counts (group + 1) = rangeStart counts group + count := by
  rw [rangeStart, List.take_add_one, found, List.sum_append]
  rfl

theorem rangeStart_length (counts : List Nat) : rangeStart counts counts.length = counts.sum := by
  rw [rangeStart, List.take_length]

theorem rangeStart_mono (counts : List Nat) {earlier later : Nat} (before : earlier ≤ later) :
    rangeStart counts earlier ≤ rangeStart counts later :=
  (List.take_prefix_take_left before).sublist.sum_le_sum fun _ _ => Nat.zero_le _

theorem rangeStart_le (counts : List Nat) (group : Nat) : rangeStart counts group ≤ counts.sum :=
  (List.take_sublist group counts).sum_le_sum fun _ _ => Nat.zero_le _

/-- The range of a group ends before the ranges of later groups. -/
theorem placeNumber_lt_rangeStart {counts : List Nat} {place : Nat × Nat}
    (inside : place ∈ places counts) {later : Nat} (before : place.1 < later) :
    placeNumber counts place < rangeStart counts later := by
  obtain ⟨count, found, within⟩ := inside
  have next := rangeStart_mono counts (Nat.succ_le_of_lt before)
  rw [rangeStart_succ found] at next
  unfold placeNumber
  omega

theorem placeNumber_lt {counts : List Nat} {place : Nat × Nat} (inside : place ∈ places counts) :
    placeNumber counts place < counts.sum := by
  obtain ⟨count, found, within⟩ := id inside
  exact rangeStart_length counts ▸
    placeNumber_lt_rangeStart inside (List.getElem?_eq_some_iff.mp found).1

theorem placeNumber_injOn (counts : List Nat) : Set.InjOn (placeNumber counts) (places counts) := by
  intro first inFirst second inSecond same
  have apart : ∀ {left right : Nat × Nat}, left ∈ places counts →
      placeNumber counts left = placeNumber counts right → ¬left.1 < right.1 := by
    intro left right inside equal before
    have reached := placeNumber_lt_rangeStart inside before
    rw [equal] at reached
    exact absurd (Nat.le_add_right _ _) (Nat.not_le.mpr reached)
  have group : first.1 = second.1 :=
    Nat.le_antisymm (Nat.not_lt.mp (apart inSecond same.symm)) (Nat.not_lt.mp (apart inFirst same))
  refine Prod.ext group ?_
  unfold placeNumber at same
  rw [group] at same
  exact Nat.add_left_cancel same

theorem exists_place {counts : List Nat} : ∀ {number : Nat}, number < counts.sum →
    ∃ place ∈ places counts, placeNumber counts place = number := by
  induction counts with
  | nil => intro number below; exact absurd below (Nat.not_lt_zero _)
  | cons count rest inductionHypothesis =>
    intro number below
    by_cases first : number < count
    · exact ⟨(0, number), ⟨count, rfl, first⟩, Nat.zero_add _⟩
    · rw [List.sum_cons] at below
      obtain ⟨⟨group, position⟩, ⟨size, found, within⟩, equal⟩ :=
        @inductionHypothesis (number - count) (by omega)
      refine ⟨(group + 1, position), ⟨size, found, within⟩, ?_⟩
      unfold placeNumber rangeStart at equal ⊢
      rw [List.take_succ_cons, List.sum_cons]
      simp only at equal ⊢
      omega

/-! ### Members -/

section

variable {α β : Type}

theorem mem_places_map {count : α → Nat} {items : List α} {place : Nat × Nat} :
    place ∈ places (items.map count) ↔ ∃ item, items[place.1]? = some item ∧
      place.2 < count item := by
  simp only [places, Set.mem_ofPred_eq, List.getElem?_map, Option.map_eq_some_iff]
  constructor
  · rintro ⟨_, ⟨item, found, rfl⟩, within⟩
    exact ⟨item, found, within⟩
  · rintro ⟨item, found, within⟩
    exact ⟨_, ⟨item, found, rfl⟩, within⟩

/-- The member at a place stands at its number among all members. -/
theorem getElem?_flatMap_placeNumber {members : α → List β} : ∀ {items : List α} {group : Nat}
    {item : α} {position : Nat}, items[group]? = some item → position < (members item).length →
      (items.flatMap members)[placeNumber (items.map fun item => (members item).length)
        (group, position)]? = (members item)[position]? := by
  intro items
  induction items with
  | nil => intro group item position found; cases found
  | cons head rest inductionHypothesis =>
    intro group item position found within
    rw [List.flatMap_cons]
    cases group with
    | zero =>
      obtain rfl := Option.some.inj found
      rw [placeNumber, rangeStart_zero, Nat.zero_add, List.getElem?_append_left within]
    | succ group =>
      have later := inductionHypothesis (List.getElem?_cons_succ ▸ found) within
      unfold placeNumber rangeStart at later ⊢
      simp only [List.map_cons, List.take_succ_cons, List.sum_cons] at later ⊢
      rw [Nat.add_assoc, List.getElem?_append_right (Nat.le_add_right _ _), Nat.add_sub_cancel_left,
        later]

/-! ### Tables of ranges -/

/-- The ranges in a table stand one behind the other. -/
def Numbered (start count : α → Nat) (items : List α) : Prop :=
  ∀ (index : Nat) item, items[index]? = some item →
    start item = rangeStart (items.map count) index

/-- The ranges in a table stand one behind the other, from `first` on. -/
def NumberedFrom (start count : α → Nat) (first : Nat) (items : List α) : Prop :=
  ∀ (index : Nat) item, items[index]? = some item →
    start item = first + rangeStart (items.map count) index

variable {start count : α → Nat} {items : List α}

theorem NumberedFrom.numbered (numbered : NumberedFrom start count 0 items) :
    Numbered start count items :=
  fun index item found => (numbered index item found).trans (Nat.zero_add _)

theorem NumberedFrom.nil {first : Nat} : NumberedFrom start count first [] :=
  fun _ _ found => by cases found

theorem NumberedFrom.cons {first : Nat} {item : α} (own : start item = first)
    (later : NumberedFrom start count (first + count item) items) :
    NumberedFrom start count first (item :: items) := by
  intro index other found
  cases index with
  | zero =>
    obtain rfl := Option.some.inj found
    exact own
  | succ index =>
    rw [later index other (List.getElem?_cons_succ ▸ found), Nat.add_assoc]
    rfl

theorem NumberedFrom.append {first : Nat} : ∀ {items others : List α},
    NumberedFrom start count first items →
      NumberedFrom start count (first + (items.map count).sum) others →
        NumberedFrom start count first (items ++ others) := by
  intro items others before after index item found
  by_cases inside : index < items.length
  · rw [List.getElem?_append_left inside] at found
    rw [before index item found, List.map_append, rangeStart, rangeStart,
      List.take_append_of_le_length (by rw [List.length_map]; exact inside.le)]
  · rw [List.getElem?_append_right (Nat.not_lt.mp inside)] at found
    have whole : index = (items.map count).length + (index - items.length) := by
      rw [List.length_map]
      omega
    rw [after _ item found, List.map_append, rangeStart, rangeStart, whole,
      List.take_length_add_append, List.sum_append, List.length_map, Nat.add_sub_cancel_left,
      Nat.add_assoc]

theorem Numbered.start_add_count_le (numbered : Numbered start count items) {index : Nat} {item : α}
    (found : items[index]? = some item) : start item + count item ≤ (items.map count).sum := by
  have size : (items.map count)[index]? = some (count item) := by
    rw [List.getElem?_map, found, Option.map_some]
  rw [numbered index item found, ← rangeStart_succ size]
  exact rangeStart_le _ _

/-- The first range that holds the number of a place is that of its group. -/
theorem Numbered.findIdx?_eq (numbered : Numbered start count items) {place : Nat × Nat}
    (inside : place ∈ places (items.map count)) :
    items.findIdx? (fun item => decide (start item ≤ placeNumber (items.map count) place ∧
      placeNumber (items.map count) place - start item < count item)) = some place.1 := by
  obtain ⟨item, found, within⟩ := mem_places_map.mp inside
  obtain ⟨bound, here⟩ := List.getElem?_eq_some_iff.mp found
  have begins := numbered place.1 item found
  refine List.findIdx?_eq_some_iff_getElem.mpr ⟨bound, ?_, fun earlier before holds => ?_⟩
  · rw [here, decide_eq_true_eq, begins]
    unfold placeNumber
    exact ⟨Nat.le_add_right _ _, by rwa [Nat.add_sub_cancel_left]⟩
  · have other := List.getElem?_eq_getElem (before.trans bound)
    have starts := numbered earlier _ other
    rw [decide_eq_true_eq, starts] at holds
    have member : (earlier, placeNumber (items.map count) place -
        rangeStart (items.map count) earlier) ∈ places (items.map count) :=
      mem_places_map.mpr ⟨_, other, holds.2⟩
    have same := placeNumber_injOn _ member inside (Nat.add_sub_cancel' holds.1)
    rw [← same] at before
    exact lt_irrefl _ before

end

end Foundation

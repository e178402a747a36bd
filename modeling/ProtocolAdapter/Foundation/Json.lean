/-
This file defines JSON documents as trees whose objects list their members in
document order, and the relation between documents that differ in that order only.
A document has a normal form, its members sorted by key at every depth. Looking a
member up commutes with normalisation, and two documents with unique keys that
differ in member order only have one normal form, so a function that reads members
by name returns one result for both.
-/

import Mathlib.Data.List.Sort
import Mathlib.Data.String.Basic

namespace Foundation

/-- A JSON document. A number keeps the token it was written with. -/
inductive JsonValue where
  | null
  | bool (value : Bool)
  | raw (token : String)
  | str (text : String)
  | arr (elements : List JsonValue)
  | obj (members : List (String × JsonValue))

namespace JsonValue

/-! ### Reading a value -/

def isRaw : JsonValue → Bool
  | raw _ => true
  | _ => false

def isStr : JsonValue → Bool
  | str _ => true
  | _ => false

def isBool : JsonValue → Bool
  | bool _ => true
  | _ => false

def isArr : JsonValue → Bool
  | arr _ => true
  | _ => false

def isObj : JsonValue → Bool
  | obj _ => true
  | _ => false

/-- The token of a number, empty for any other value. -/
def getRaw : JsonValue → String
  | raw token => token
  | _ => ""

/-- The text of a string, empty for any other value. -/
def getStr : JsonValue → String
  | str text => text
  | _ => ""

/-- The value of a boolean, false for any other value. -/
def getBool : JsonValue → Bool
  | bool value => value
  | _ => false

/-- The elements of an array, none for any other value. -/
def elements : JsonValue → List JsonValue
  | arr elements => elements
  | _ => []

/-- The members of an object, none for any other value. -/
def members : JsonValue → List (String × JsonValue)
  | obj members => members
  | _ => []

/-- The keys of an object in document order. -/
def keys (value : JsonValue) : List String := value.members.map Prod.fst

/-- The value of the first member with the given key. -/
def get? (value : JsonValue) (key : String) : Option JsonValue := value.members.lookup key

/-! ### The normal form -/

/-- The order of members by key. -/
abbrev KeyLe (first second : String × JsonValue) : Prop := first.1 ≤ second.1

mutual

/-- The document with the members of each of its objects sorted by key. -/
def normal : JsonValue → JsonValue
  | null => null
  | bool value => bool value
  | raw token => raw token
  | str text => str text
  | arr elements => arr (normalElements elements)
  | obj members => obj (normalMembers members)

def normalElements : List JsonValue → List JsonValue
  | [] => []
  | element :: rest => element.normal :: normalElements rest

def normalMembers : List (String × JsonValue) → List (String × JsonValue)
  | [] => []
  | (key, value) :: rest => (normalMembers rest).orderedInsert KeyLe (key, value.normal)

end

theorem normalElements_eq_map (elements : List JsonValue) :
    normalElements elements = elements.map normal := by
  induction elements with
  | nil => rfl
  | cons element rest inductionHypothesis => rw [normalElements, inductionHypothesis, List.map_cons]

theorem lookup_orderedInsert (key name : String) (value : JsonValue) :
    ∀ members : List (String × JsonValue),
      (members.orderedInsert KeyLe (name, value)).lookup key =
        ((name, value) :: members).lookup key := by
  intro members
  induction members with
  | nil => rfl
  | cons head rest inductionHypothesis =>
    rw [List.orderedInsert_cons]
    split
    · rfl
    · next after =>
      have differs : head.1 ≠ name := fun same => after (le_of_eq same.symm)
      rw [List.lookup_cons, inductionHypothesis, List.lookup_cons, List.lookup_cons,
        List.lookup_cons]
      by_cases isName : key = name
      · have other : (name == head.1) = false := by simpa using Ne.symm differs
        rw [isName]
        simp [other]
      · have other : (key == name) = false := by simpa using isName
        simp only [other]

theorem lookup_normalMembers (key : String) :
    ∀ members : List (String × JsonValue),
      (normalMembers members).lookup key = (members.lookup key).map normal := by
  intro members
  induction members with
  | nil => rfl
  | cons member rest inductionHypothesis =>
    obtain ⟨name, value⟩ := member
    rw [normalMembers, lookup_orderedInsert, List.lookup_cons, inductionHypothesis,
      List.lookup_cons]
    cases key == name <;> rfl

theorem keys_normalMembers (members : List (String × JsonValue)) :
    ((normalMembers members).map Prod.fst).Perm (members.map Prod.fst) := by
  induction members with
  | nil => exact .refl _
  | cons member rest inductionHypothesis =>
    obtain ⟨name, value⟩ := member
    rw [normalMembers, List.map_cons]
    refine ((List.perm_orderedInsert KeyLe _ _).map Prod.fst).trans ?_
    exact inductionHypothesis.cons name

@[simp] theorem isRaw_normal (value : JsonValue) : value.normal.isRaw = value.isRaw := by
  cases value <;> rfl

@[simp] theorem isStr_normal (value : JsonValue) : value.normal.isStr = value.isStr := by
  cases value <;> rfl

@[simp] theorem isBool_normal (value : JsonValue) : value.normal.isBool = value.isBool := by
  cases value <;> rfl

@[simp] theorem isArr_normal (value : JsonValue) : value.normal.isArr = value.isArr := by
  cases value <;> rfl

@[simp] theorem isObj_normal (value : JsonValue) : value.normal.isObj = value.isObj := by
  cases value <;> rfl

@[simp] theorem getRaw_normal (value : JsonValue) : value.normal.getRaw = value.getRaw := by
  cases value <;> rfl

@[simp] theorem getStr_normal (value : JsonValue) : value.normal.getStr = value.getStr := by
  cases value <;> rfl

@[simp] theorem getBool_normal (value : JsonValue) : value.normal.getBool = value.getBool := by
  cases value <;> rfl

@[simp] theorem elements_normal (value : JsonValue) :
    value.normal.elements = value.elements.map normal := by
  cases value with
  | arr elements => exact normalElements_eq_map elements
  | null | bool | raw | str | obj => rfl

@[simp] theorem get?_normal (value : JsonValue) (key : String) :
    value.normal.get? key = (value.get? key).map normal := by
  cases value with
  | obj members => exact lookup_normalMembers key members
  | null | bool | raw | str | arr => rfl

theorem keys_normal (value : JsonValue) : value.normal.keys.Perm value.keys := by
  cases value with
  | obj members => exact keys_normalMembers members
  | null | bool | raw | str | arr => exact .refl _

/-! ### Documents that differ in member order -/

mutual

/-- No object of the document has two members with one key. -/
def UniqueKeys : JsonValue → Prop
  | arr elements => UniqueKeysElements elements
  | obj members => (members.map Prod.fst).Nodup ∧ UniqueKeysMembers members
  | _ => True

def UniqueKeysElements : List JsonValue → Prop
  | [] => True
  | element :: rest => element.UniqueKeys ∧ UniqueKeysElements rest

def UniqueKeysMembers : List (String × JsonValue) → Prop
  | [] => True
  | (_, value) :: rest => value.UniqueKeys ∧ UniqueKeysMembers rest

end

mutual

/-- The second document is the first one with the members of any of its objects
permuted, at any depth; the elements of arrays keep their order. -/
inductive Reordered : JsonValue → JsonValue → Prop
  | refl (value : JsonValue) : Reordered value value
  | arr {elements others : List JsonValue} (each : ReorderedElements elements others) :
      Reordered (arr elements) (arr others)
  | obj {members others : List (String × JsonValue)} (each : ReorderedMembers members others) :
      Reordered (obj members) (obj others)

inductive ReorderedElements : List JsonValue → List JsonValue → Prop
  | nil : ReorderedElements [] []
  | cons {element other : JsonValue} {rest others : List JsonValue}
      (head : Reordered element other) (tail : ReorderedElements rest others) :
      ReorderedElements (element :: rest) (other :: others)

inductive ReorderedMembers : List (String × JsonValue) → List (String × JsonValue) → Prop
  | nil : ReorderedMembers [] []
  | cons {key : String} {value other : JsonValue} {rest others : List (String × JsonValue)}
      (head : Reordered value other) (tail : ReorderedMembers rest others) :
      ReorderedMembers ((key, value) :: rest) ((key, other) :: others)
  | swap (first second : String × JsonValue) (rest : List (String × JsonValue)) :
      ReorderedMembers (first :: second :: rest) (second :: first :: rest)
  | trans {members middle others : List (String × JsonValue)}
      (first : ReorderedMembers members middle) (second : ReorderedMembers middle others) :
      ReorderedMembers members others

end

theorem ReorderedMembers.keys {members others : List (String × JsonValue)} :
    ReorderedMembers members others → (members.map Prod.fst).Perm (others.map Prod.fst)
  | .nil => .refl _
  | .cons _ tail => tail.keys.cons _
  | .swap _ _ _ => .swap _ _ _
  | .trans first second => first.keys.trans second.keys

mutual

theorem Reordered.uniqueKeys {value other : JsonValue} :
    Reordered value other → value.UniqueKeys → other.UniqueKeys
  | .refl _, unique => unique
  | .arr each, unique => each.uniqueKeys unique
  | .obj each, unique => ⟨each.keys.nodup unique.1, each.uniqueKeys unique.2⟩

theorem ReorderedElements.uniqueKeys {elements others : List JsonValue} :
    ReorderedElements elements others → UniqueKeysElements elements → UniqueKeysElements others
  | .nil, unique => unique
  | .cons head tail, unique => ⟨head.uniqueKeys unique.1, tail.uniqueKeys unique.2⟩

theorem ReorderedMembers.uniqueKeys {members others : List (String × JsonValue)} :
    ReorderedMembers members others → UniqueKeysMembers members → UniqueKeysMembers others
  | .nil, unique => unique
  | .cons head tail, unique => ⟨head.uniqueKeys unique.1, tail.uniqueKeys unique.2⟩
  | .swap _ _ _, unique => ⟨unique.2.1, unique.1, unique.2.2⟩
  | .trans first second, unique => second.uniqueKeys (first.uniqueKeys unique)

end

mutual

theorem Reordered.symm {value other : JsonValue} : Reordered value other → Reordered other value
  | .refl _ => .refl _
  | .arr each => .arr each.symm
  | .obj each => .obj each.symm

theorem ReorderedElements.symm {elements others : List JsonValue} :
    ReorderedElements elements others → ReorderedElements others elements
  | .nil => .nil
  | .cons head tail => .cons head.symm tail.symm

theorem ReorderedMembers.symm {members others : List (String × JsonValue)} :
    ReorderedMembers members others → ReorderedMembers others members
  | .nil => .nil
  | .cons head tail => .cons head.symm tail.symm
  | .swap first second rest => .swap second first rest
  | .trans first second => .trans second.symm first.symm

end

/-- Two insertions of members with different keys commute. -/
theorem orderedInsert_comm {first second : String × JsonValue} (differ : first.1 ≠ second.1) :
    ∀ members : List (String × JsonValue),
      (members.orderedInsert KeyLe second).orderedInsert KeyLe first =
        (members.orderedInsert KeyLe first).orderedInsert KeyLe second := by
  intro members
  induction members with
  | nil =>
    simp only [List.orderedInsert_nil, List.orderedInsert_cons]
    rcases lt_or_gt_of_ne differ with before | before
    · rw [if_pos before.le, if_neg before.not_ge]
    · rw [if_neg before.not_ge, if_pos before.le]
  | cons head rest inductionHypothesis =>
    by_cases firstLe : first.1 ≤ head.1 <;> by_cases secondLe : second.1 ≤ head.1
    · simp only [List.orderedInsert_cons, if_pos firstLe, if_pos secondLe]
      rcases lt_or_gt_of_ne differ with before | before
      · rw [if_pos before.le, if_neg before.not_ge]
      · rw [if_neg before.not_ge, if_pos before.le]
    · have before : ¬second.1 ≤ first.1 := fun le => secondLe (le.trans firstLe)
      simp only [List.orderedInsert_cons, if_pos firstLe, if_neg secondLe, if_neg before]
    · have before : ¬first.1 ≤ second.1 := fun le => firstLe (le.trans secondLe)
      simp only [List.orderedInsert_cons, if_neg firstLe, if_pos secondLe, if_neg before]
    · simp only [List.orderedInsert_cons, if_neg firstLe, if_neg secondLe, inductionHypothesis]

mutual

/-- Documents with unique keys that differ in member order have one normal form. -/
theorem Reordered.normal_eq {value other : JsonValue} :
    Reordered value other → value.UniqueKeys → value.normal = other.normal
  | .refl _, _ => rfl
  | .arr each, unique => congrArg arr (each.normal_eq unique)
  | .obj each, unique => congrArg obj (each.normal_eq unique.1 unique.2)

theorem ReorderedElements.normal_eq {elements others : List JsonValue} :
    ReorderedElements elements others → UniqueKeysElements elements →
      normalElements elements = normalElements others
  | .nil, _ => rfl
  | .cons head tail, unique => by
    rw [normalElements, normalElements, head.normal_eq unique.1, tail.normal_eq unique.2]

theorem ReorderedMembers.normal_eq {members others : List (String × JsonValue)} :
    ReorderedMembers members others → (members.map Prod.fst).Nodup → UniqueKeysMembers members →
      normalMembers members = normalMembers others
  | .nil, _, _ => rfl
  | .cons head tail, distinct, unique => by
    rw [normalMembers, normalMembers, head.normal_eq unique.1,
      tail.normal_eq (List.nodup_cons.mp distinct).2 unique.2]
  | .swap (firstKey, first) (secondKey, second) rest, distinct, _ => by
    have differ : firstKey ≠ secondKey := by
      rw [List.map_cons, List.map_cons, List.nodup_cons] at distinct
      exact fun same => distinct.1 (same ▸ List.mem_cons_self)
    simp only [normalMembers]
    exact orderedInsert_comm differ _
  | .trans first second, distinct, unique =>
    (first.normal_eq distinct unique).trans
      (second.normal_eq (first.keys.nodup distinct) (first.uniqueKeys unique))

end

end JsonValue

end Foundation

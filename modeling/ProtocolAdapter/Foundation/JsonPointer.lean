/-
This file is a library for pointers into JSON documents. A value of a document is reached from
the root by steps, each to a member of an object or to an element of an array. The pointer of the
steps writes the key or the index of each behind a slash, with the slashes and the tildes of a key
escaped. In a document whose objects have unique keys every value has a pointer of its own.
-/

import Mathlib.Data.List.Nodup
import ProtocolAdapter.Foundation.ByteText
import ProtocolAdapter.Foundation.Json
import ProtocolAdapter.Foundation.PrefixCode

namespace Foundation.JsonPointer

open ByteText

/-! ### Tokens -/

/-- A step from a value to one of its parts. -/
inductive Step where
  | member (key : String)
  | element (index : Nat)
  deriving DecidableEq

/-- The bytes that name the part. -/
def Step.token : Step → List UInt8
  | .member key => utf8 key
  | .element index => decimal index

def escapeByte (byte : UInt8) : List UInt8 :=
  if byte = 0x7e then [0x7e, 0x30] else if byte = 0x2f then [0x7e, 0x31] else [byte]

/-- A token with its tildes and slashes escaped. -/
def escape (token : List UInt8) : List UInt8 := token.flatMap escapeByte

/-- The pointer of a list of tokens. -/
def spell (tokens : List (List UInt8)) : List UInt8 :=
  tokens.flatMap fun token => 0x2f :: escape token

/-- The pointer to the value that steps lead to. -/
def pointer (steps : List Step) : List UInt8 := spell (steps.map Step.token)

theorem escapeByte_plain {byte : UInt8} (noTilde : byte ≠ 0x7e) (noSlash : byte ≠ 0x2f) :
    escapeByte byte = [byte] := by
  rw [escapeByte, if_neg noTilde, if_neg noSlash]

theorem escapeByte_ne_nil (byte : UInt8) : escapeByte byte ≠ [] := by
  unfold escapeByte
  split
  · exact List.cons_ne_nil _ _
  split <;> exact List.cons_ne_nil _ _

theorem slash_notMem_escape (token : List UInt8) : 0x2f ∉ escape token := by
  intro member
  obtain ⟨byte, _, inside⟩ := List.mem_flatMap.mp member
  unfold escapeByte at inside
  split at inside
  · exact absurd inside (by decide)
  split at inside
  · exact absurd inside (by decide)
  · rename_i noSlash
    exact noSlash (List.mem_singleton.mp inside).symm

/-- The escapes of a byte can be cut off the front of a text. -/
theorem prefixCode_escapeByte : PrefixCode (fun _ => True) escapeByte := by
  intro first second _ _ rest others same
  unfold escapeByte at same
  split at same
  · rename_i tilde
    split at same
    · rename_i other
      exact ⟨tilde.trans other.symm, (List.cons.inj (List.cons.inj same).2).2⟩
    split at same
    · exact absurd (List.cons.inj (List.cons.inj same).2).1 (by decide)
    · rename_i noTilde _
      exact absurd (List.cons.inj same).1.symm noTilde
  split at same
  · rename_i slash
    split at same
    · exact absurd (List.cons.inj (List.cons.inj same).2).1 (by decide)
    split at same
    · rename_i other
      exact ⟨slash.trans other.symm, (List.cons.inj (List.cons.inj same).2).2⟩
    · rename_i noTilde _
      exact absurd (List.cons.inj same).1.symm noTilde
  · rename_i noTilde noSlash
    split at same
    · exact absurd (List.cons.inj same).1 noTilde
    split at same
    · exact absurd (List.cons.inj same).1 noTilde
    · exact List.cons.inj same

/-- Different tokens have different escapes. -/
theorem escape_injective : Function.Injective escape := fun first second same =>
  prefixCode_escapeByte.flatMap (fun byte _ => escapeByte_ne_nil byte) first second
    (fun _ _ => trivial) (fun _ _ => trivial) same

/-- Different lists of tokens have different pointers. -/
theorem spell_injective : Function.Injective spell := by
  intro firsts
  induction firsts with
  | nil =>
    intro seconds same
    cases seconds with
    | nil => rfl
    | cons => cases same
  | cons first rest inductionHypothesis =>
    intro seconds same
    cases seconds with
    | nil => cases same
    | cons second others =>
      have bodies := (List.cons.inj same).2
      have split : escape first = escape second ∧ spell rest = spell others := by
        change escape first ++ spell rest = escape second ++ spell others at bodies
        cases rest with
        | nil =>
          cases others with
          | nil => simpa [spell] using bodies
          | cons third more =>
            have inside : 0x2f ∈ escape first := by
              rw [show spell [] = [] from rfl, List.append_nil] at bodies
              rw [bodies]
              exact List.mem_append_right _ List.mem_cons_self
            exact absurd inside (slash_notMem_escape first)
        | cons third more =>
          cases others with
          | nil =>
            have inside : 0x2f ∈ escape second := by
              rw [show spell [] = [] from rfl, List.append_nil] at bodies
              rw [← bodies]
              exact List.mem_append_right _ List.mem_cons_self
            exact absurd inside (slash_notMem_escape second)
          | cons fourth further =>
            obtain ⟨heads, tails⟩ := append_delimiter_inj (slash_notMem_escape first)
              (slash_notMem_escape second) bodies
            exact ⟨heads, congrArg (0x2f :: ·) tails⟩
      rw [escape_injective split.1, inductionHypothesis split.2]

theorem spell_append (first second : List (List UInt8)) :
    spell (first ++ second) = spell first ++ spell second := List.flatMap_append

@[simp] theorem pointer_nil : pointer [] = [] := rfl

theorem pointer_cons (step : Step) (steps : List Step) :
    pointer (step :: steps) = 0x2f :: (escape step.token ++ pointer steps) := rfl

theorem pointer_append (first second : List Step) :
    pointer (first ++ second) = pointer first ++ pointer second := by
  rw [pointer, List.map_append, spell_append]
  rfl

/-! ### The values of a document -/

/-- A place behind one more step. -/
def behind {α : Type} (step : Step) (place : List Step × α) : List Step × α :=
  (step :: place.1, place.2)

mutual

/-- All values of a document in document order, each with the steps that lead to it. -/
def places : JsonValue → List (List Step × JsonValue)
  | .arr elements => ([], .arr elements) :: placesElements 0 elements
  | .obj members => ([], .obj members) :: placesMembers members
  | .null => [([], .null)]
  | .bool value => [([], .bool value)]
  | .raw token => [([], .raw token)]
  | .str text => [([], .str text)]

def placesElements (index : Nat) : List JsonValue → List (List Step × JsonValue)
  | [] => []
  | element :: rest =>
    (places element).map (behind (.element index)) ++ placesElements (index + 1) rest

def placesMembers : List (String × JsonValue) → List (List Step × JsonValue)
  | [] => []
  | (key, value) :: rest => (places value).map (behind (.member key)) ++ placesMembers rest

end

/-- The part of a value behind a step. -/
def PartOf (value : JsonValue) : Step → JsonValue → Prop
  | .member key, part => ∃ members, value = .obj members ∧ (key, part) ∈ members
  | .element index, part => ∃ elements, value = .arr elements ∧ elements[index]? = some part

/-- The value behind steps. -/
def Leads : JsonValue → List Step → JsonValue → Prop
  | value, [], result => value = result
  | value, step :: steps, result => ∃ part, PartOf value step part ∧ Leads part steps result

theorem mem_placesMembers {members : List (String × JsonValue)} {steps : List Step}
    {result : JsonValue} : (steps, result) ∈ placesMembers members ↔
      ∃ key value rest, (key, value) ∈ members ∧ steps = .member key :: rest ∧
        (rest, result) ∈ places value := by
  induction members with
  | nil => simp [placesMembers]
  | cons member others inductionHypothesis =>
    obtain ⟨key, value⟩ := member
    rw [placesMembers, List.mem_append, inductionHypothesis, List.mem_map]
    constructor
    · rintro (⟨⟨rest, found⟩, inside, same⟩ | ⟨other, part, rest, inside, same, reached⟩)
      · cases same
        exact ⟨key, value, rest, List.mem_cons_self, rfl, inside⟩
      · exact ⟨other, part, rest, List.mem_cons_of_mem _ inside, same, reached⟩
    · rintro ⟨other, part, rest, inside, rfl, reached⟩
      rcases List.mem_cons.mp inside with same | later
      · cases same
        exact .inl ⟨(rest, result), reached, rfl⟩
      · exact .inr ⟨other, part, rest, later, rfl, reached⟩

theorem mem_placesElements {elements : List JsonValue} {steps : List Step} {result : JsonValue} :
    ∀ {index : Nat}, (steps, result) ∈ placesElements index elements ↔
      ∃ offset value rest, elements[offset]? = some value ∧
        steps = .element (index + offset) :: rest ∧ (rest, result) ∈ places value := by
  induction elements with
  | nil => simp [placesElements]
  | cons element others inductionHypothesis =>
    intro index
    rw [placesElements, List.mem_append, inductionHypothesis, List.mem_map]
    constructor
    · rintro (⟨⟨rest, found⟩, inside, same⟩ | ⟨offset, part, rest, found, rfl, reached⟩)
      · cases same
        exact ⟨0, element, rest, rfl, rfl, inside⟩
      · exact ⟨offset + 1, part, rest, found, by rw [Nat.add_right_comm, Nat.add_assoc], reached⟩
    · rintro ⟨offset, part, rest, found, rfl, reached⟩
      cases offset with
      | zero =>
        cases found
        exact .inl ⟨(rest, result), reached, rfl⟩
      | succ offset =>
        exact .inr ⟨offset, part, rest, found, by rw [Nat.add_right_comm, Nat.add_assoc], reached⟩

theorem places_eq (value : JsonValue) : ∃ rest, places value = ([], value) :: rest ∧
    ∀ place ∈ rest, place.1 ≠ [] := by
  cases value with
  | null | bool | raw | str => exact ⟨[], by rw [places], fun _ member => nomatch member⟩
  | arr elements =>
    refine ⟨_, by rw [places], fun place member => ?_⟩
    obtain ⟨_, _, _, _, same, _⟩ := mem_placesElements.mp member
    exact same ▸ List.cons_ne_nil _ _
  | obj members =>
    refine ⟨_, by rw [places], fun place member => ?_⟩
    obtain ⟨_, _, _, _, same, _⟩ := mem_placesMembers.mp member
    exact same ▸ List.cons_ne_nil _ _

/-- The places of a document are the values that steps lead to. -/
theorem mem_places {steps : List Step} {result : JsonValue} :
    ∀ {value : JsonValue}, (steps, result) ∈ places value ↔ Leads value steps result := by
  induction steps with
  | nil =>
    intro value
    obtain ⟨rest, same, others⟩ := places_eq value
    rw [same, List.mem_cons, Leads, Prod.mk.injEq]
    constructor
    · rintro (⟨-, rfl⟩ | later)
      · rfl
      · exact absurd rfl (others _ later)
    · rintro rfl
      exact .inl ⟨rfl, rfl⟩
  | cons step steps inductionHypothesis =>
    intro value
    rw [Leads]
    constructor
    · intro member
      cases value with
      | null | bool | raw | str => simp [places] at member
      | arr elements =>
        rw [places, List.mem_cons] at member
        rcases member with root | inside
        · cases root
        · obtain ⟨offset, part, rest, found, same, reached⟩ := mem_placesElements.mp inside
          obtain ⟨rfl, rfl⟩ := List.cons.inj same
          rw [Nat.zero_add]
          exact ⟨part, ⟨elements, rfl, found⟩, inductionHypothesis.mp reached⟩
      | obj members =>
        rw [places, List.mem_cons] at member
        rcases member with root | inside
        · cases root
        · obtain ⟨key, part, rest, found, same, reached⟩ := mem_placesMembers.mp inside
          obtain ⟨rfl, rfl⟩ := List.cons.inj same
          exact ⟨part, ⟨members, rfl, found⟩, inductionHypothesis.mp reached⟩
    · rintro ⟨part, partOf, reached⟩
      cases step with
      | member key =>
        obtain ⟨members, rfl, found⟩ := partOf
        rw [places]
        exact List.mem_cons_of_mem _ (mem_placesMembers.mpr
          ⟨key, part, steps, found, rfl, inductionHypothesis.mpr reached⟩)
      | element index =>
        obtain ⟨elements, rfl, found⟩ := partOf
        rw [places]
        exact List.mem_cons_of_mem _ (mem_placesElements.mpr
          ⟨index, part, steps, found, by rw [Nat.zero_add], inductionHypothesis.mpr reached⟩)

theorem Leads.append {value middle result : JsonValue} {steps more : List Step} :
    Leads value steps middle → Leads middle more result → Leads value (steps ++ more) result := by
  induction steps generalizing value with
  | nil =>
    rintro rfl reached
    exact reached
  | cons step steps inductionHypothesis =>
    rintro ⟨part, partOf, before⟩ reached
    exact ⟨part, partOf, inductionHypothesis before reached⟩

theorem Leads.split {value result : JsonValue} {steps more : List Step}
    (leads : Leads value (steps ++ more) result) :
    ∃ middle, Leads value steps middle ∧ Leads middle more result := by
  induction steps generalizing value with
  | nil => exact ⟨value, rfl, leads⟩
  | cons step steps inductionHypothesis =>
    obtain ⟨part, partOf, reached⟩ := leads
    obtain ⟨middle, before, behind⟩ := inductionHypothesis reached
    exact ⟨middle, ⟨part, partOf, before⟩, behind⟩

/-! ### One pointer for each value -/

theorem utf8_injective : Function.Injective utf8 := by
  intro first second same
  have decoded := (decode_eq_some.mpr (show utf8 first = encode first.toList from rfl)).symm.trans
    (decode_eq_some.mpr (show utf8 first = encode second.toList from same))
  exact String.toList_inj.mp (Option.some.inj decoded)

/-- A token names at most one step of a value. -/
theorem PartOf.step_eq {value part other : JsonValue} {step second : Step}
    (first : PartOf value step part) (next : PartOf value second other)
    (same : step.token = second.token) : step = second := by
  cases step with
  | member key =>
    obtain ⟨members, rfl, _⟩ := first
    cases second with
    | member name => exact congrArg Step.member (utf8_injective same)
    | element index =>
      obtain ⟨elements, impossible, _⟩ := next
      cases impossible
  | element index =>
    obtain ⟨elements, rfl, _⟩ := first
    cases second with
    | member name =>
      obtain ⟨members, impossible, _⟩ := next
      cases impossible
    | element other => exact congrArg Step.element (decimal_injective same)

theorem uniqueKeys_of_mem {key : String} {value : JsonValue} :
    ∀ {members : List (String × JsonValue)}, JsonValue.UniqueKeysMembers members →
      (key, value) ∈ members → value.UniqueKeys
  | (_, _) :: _, unique, member => by
    rw [JsonValue.UniqueKeysMembers] at unique
    rcases List.mem_cons.mp member with same | later
    · cases same
      exact unique.1
    · exact uniqueKeys_of_mem unique.2 later

theorem uniqueKeys_of_getElem {value : JsonValue} :
    ∀ {elements : List JsonValue} {index : Nat}, JsonValue.UniqueKeysElements elements →
      elements[index]? = some value → value.UniqueKeys
  | element :: _, 0, unique, found => by
    rw [JsonValue.UniqueKeysElements] at unique
    exact Option.some.inj found ▸ unique.1
  | _ :: rest, index + 1, unique, found => by
    rw [JsonValue.UniqueKeysElements] at unique
    exact uniqueKeys_of_getElem unique.2 found

theorem PartOf.uniqueKeys {value part : JsonValue} {step : Step} (partOf : PartOf value step part)
    (unique : value.UniqueKeys) : part.UniqueKeys := by
  cases step with
  | member key =>
    obtain ⟨members, rfl, member⟩ := partOf
    rw [JsonValue.UniqueKeys] at unique
    exact uniqueKeys_of_mem unique.2 member
  | element index =>
    obtain ⟨elements, rfl, found⟩ := partOf
    rw [JsonValue.UniqueKeys] at unique
    exact uniqueKeys_of_getElem unique found

/-- A step leads to at most one part when the keys are unique. -/
theorem PartOf.part_eq {value part other : JsonValue} {step : Step} (unique : value.UniqueKeys)
    (first : PartOf value step part) (second : PartOf value step other) : part = other := by
  cases step with
  | member key =>
    obtain ⟨members, rfl, member⟩ := first
    obtain ⟨others, same, inside⟩ := second
    cases same
    rw [JsonValue.UniqueKeys] at unique
    exact congrArg Prod.snd (List.inj_on_of_nodup_map unique.1 member inside rfl)
  | element index =>
    obtain ⟨elements, rfl, found⟩ := first
    obtain ⟨others, same, there⟩ := second
    cases same
    exact Option.some.inj (found.symm.trans there)

/-- Tokens lead to at most one value. -/
theorem Leads.tokens_eq {value result other : JsonValue} {steps more : List Step}
    (unique : value.UniqueKeys) (first : Leads value steps result)
    (second : Leads value more other) (same : steps.map Step.token = more.map Step.token) :
    steps = more ∧ result = other := by
  induction steps generalizing value more with
  | nil =>
    obtain rfl := List.map_eq_nil_iff.mp same.symm
    exact ⟨rfl, first.symm.trans second⟩
  | cons step steps inductionHypothesis =>
    cases more with
    | nil => cases same
    | cons next more =>
      obtain ⟨part, partOf, reached⟩ := first
      obtain ⟨piece, pieceOf, found⟩ := second
      obtain ⟨tokens, others⟩ := List.cons.inj same
      obtain rfl := partOf.step_eq pieceOf tokens
      obtain rfl := partOf.part_eq unique pieceOf
      obtain ⟨rfl, results⟩ := inductionHypothesis (partOf.uniqueKeys unique) reached found others
      exact ⟨rfl, results⟩

theorem Leads.pointer_eq {value result other : JsonValue} {steps more : List Step}
    (unique : value.UniqueKeys) (first : Leads value steps result)
    (second : Leads value more other) (same : pointer steps = pointer more) :
    steps = more ∧ result = other := first.tokens_eq unique second (spell_injective same)

/-- The pointer of a missing member leads to nothing. -/
theorem no_pointer_of_missing {document value : JsonValue} {steps more : List Step}
    {members : List (String × JsonValue)} {key : String} (unique : document.UniqueKeys)
    (object : Leads document steps (.obj members)) (missing : key ∉ members.map Prod.fst)
    (other : Leads document more value) :
    pointer more ≠ pointer steps ++ 0x2f :: escape (utf8 key) := by
  intro same
  have tokens : more.map Step.token = (steps ++ [Step.member key]).map Step.token := by
    refine spell_injective (Eq.trans (show _ = pointer more from rfl) (same.trans ?_))
    rw [List.map_append, spell_append]
    change _ = pointer steps ++ (0x2f :: (escape (utf8 key) ++ []))
    rw [List.append_nil]
  rw [List.map_append] at tokens
  obtain ⟨front, last, rfl, heads, ends⟩ := List.map_eq_append_iff.mp tokens
  obtain ⟨middle, before, behind⟩ := other.split
  obtain ⟨step, rest, rfl, stepToken, nothing⟩ := List.map_eq_cons_iff.mp ends
  obtain ⟨rfl, rfl⟩ := before.tokens_eq unique object heads
  obtain ⟨part, partOf, _⟩ := behind
  cases step with
  | member name =>
    obtain ⟨others, listed, inside⟩ := partOf
    cases listed
    rw [utf8_injective stepToken] at inside
    exact missing (List.mem_map.mpr ⟨_, inside, rfl⟩)
  | element index =>
    obtain ⟨elements, impossible, _⟩ := partOf
    cases impossible

theorem nodup_behind {step : Step} {inner : List (List Step × JsonValue)}
    (distinct : (inner.map Prod.fst).Nodup) : ((inner.map (behind step)).map Prod.fst).Nodup := by
  have heads : (inner.map (behind step)).map Prod.fst =
      (inner.map Prod.fst).map (step :: ·) := by
    rw [List.map_map, List.map_map]
    rfl
  rw [heads]
  exact distinct.map fun _ _ same => (List.cons.inj same).2

mutual

theorem places_nodup : ∀ {value : JsonValue}, value.UniqueKeys →
    ((places value).map Prod.fst).Nodup
  | .null, _ | .bool _, _ | .raw _, _ | .str _, _ => by
    rw [places]
    exact List.nodup_singleton _
  | .arr elements, unique => by
    rw [places, List.map_cons, List.nodup_cons]
    refine ⟨fun member => ?_, placesElements_nodup unique 0⟩
    obtain ⟨⟨steps, found⟩, inside, rfl⟩ := List.mem_map.mp member
    obtain ⟨_, _, _, _, same, _⟩ := mem_placesElements.mp inside
    cases same
  | .obj members, unique => by
    rw [JsonValue.UniqueKeys] at unique
    rw [places, List.map_cons, List.nodup_cons]
    refine ⟨fun member => ?_, placesMembers_nodup unique.1 unique.2⟩
    obtain ⟨⟨steps, found⟩, inside, rfl⟩ := List.mem_map.mp member
    obtain ⟨_, _, _, _, same, _⟩ := mem_placesMembers.mp inside
    cases same

theorem placesElements_nodup : ∀ {elements : List JsonValue},
    JsonValue.UniqueKeysElements elements → ∀ index,
      ((placesElements index elements).map Prod.fst).Nodup
  | [], _, _ => by
    rw [placesElements]
    exact List.nodup_nil
  | element :: rest, unique, index => by
    rw [JsonValue.UniqueKeysElements] at unique
    rw [placesElements, List.map_append]
    refine List.nodup_append.mpr ⟨nodup_behind (places_nodup unique.1),
      placesElements_nodup unique.2 _, ?_⟩
    intro first member second other same
    obtain ⟨place, inside, rfl⟩ := List.mem_map.mp member
    obtain ⟨inner, _, rfl⟩ := List.mem_map.mp inside
    obtain ⟨⟨steps, found⟩, beyond, rfl⟩ := List.mem_map.mp other
    obtain ⟨offset, _, _, _, later, _⟩ := mem_placesElements.mp beyond
    have heads := (List.cons.inj (same.trans later)).1
    have indices := Step.element.inj heads
    omega

theorem placesMembers_nodup : ∀ {members : List (String × JsonValue)},
    (members.map Prod.fst).Nodup → JsonValue.UniqueKeysMembers members →
      ((placesMembers members).map Prod.fst).Nodup
  | [], _, _ => by
    rw [placesMembers]
    exact List.nodup_nil
  | (key, value) :: rest, distinct, unique => by
    rw [JsonValue.UniqueKeysMembers] at unique
    rw [List.map_cons, List.nodup_cons] at distinct
    rw [placesMembers, List.map_append]
    refine List.nodup_append.mpr ⟨nodup_behind (places_nodup unique.1),
      placesMembers_nodup distinct.2 unique.2, ?_⟩
    intro first member second other same
    obtain ⟨place, inside, rfl⟩ := List.mem_map.mp member
    obtain ⟨inner, _, rfl⟩ := List.mem_map.mp inside
    obtain ⟨⟨steps, found⟩, beyond, rfl⟩ := List.mem_map.mp other
    obtain ⟨name, part, _, listed, later, _⟩ := mem_placesMembers.mp beyond
    obtain rfl := Step.member.inj (List.cons.inj (same.trans later)).1
    exact distinct.1 (List.mem_map.mpr ⟨_, listed, rfl⟩)

end

/-- The pointers of the values of a document are distinct. -/
theorem pointers_nodup {document : JsonValue} (unique : document.UniqueKeys) :
    ((places document).map fun place => pointer place.1).Nodup := by
  have split : ((places document).map fun place => pointer place.1) =
      ((places document).map Prod.fst).map pointer := by
    rw [List.map_map]
    rfl
  rw [split]
  refine List.Nodup.map_on ?_ (places_nodup unique)
  intro steps member more other same
  obtain ⟨⟨_, result⟩, inside, rfl⟩ := List.mem_map.mp member
  obtain ⟨⟨_, found⟩, beyond, rfl⟩ := List.mem_map.mp other
  exact ((mem_places.mp inside).pointer_eq unique (mem_places.mp beyond) same).1

end Foundation.JsonPointer

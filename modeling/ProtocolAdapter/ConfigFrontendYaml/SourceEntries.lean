/-
This file proves that the source entries locate every value of the written JSON text. The writer
records one entry for each node in document order; an entry's pointer lies in the pool, where later
nodes only append. So looking up the pointer of a value finds the entry of that value, and looking
for the nearest one finds the longest recorded pointer in front of a slash.
-/

import ProtocolAdapter.ConfigCompiler.Diagnostics
import ProtocolAdapter.ConfigFrontendYaml.Document

namespace ProtocolAdapter.ConfigFrontendYaml

open Foundation Foundation.ByteText Foundation.JsonText Foundation.JsonPointer

open Foundation.Utf8 (WellFormed)

open ProtocolLab (asText utf8_asText)

open YamlNode (document documentMembers documentElements)

/-! ### What a run adds -/

/-- An entry is the one of a node, and its part of the pool holds a pointer. -/
def Recorded (source pool : List UInt8) (entry : SourceEntry) (place : List UInt8 × YamlNode) :
    Prop :=
  entry = sourceEntry source place.2 entry.pointerOffset entry.pointerLength ∧
    entry.pointerOffset + entry.pointerLength ≤ pool.length ∧
      (pool.drop entry.pointerOffset).take entry.pointerLength = place.1

theorem Recorded.append {source pool : List UInt8} {entry : SourceEntry}
    {place : List UInt8 × YamlNode} (recorded : Recorded source pool entry place)
    (more : List UInt8) : Recorded source (pool ++ more) entry place := by
  obtain ⟨same, inside, held⟩ := recorded
  refine ⟨same, inside.trans ?_, ?_⟩
  · rw [List.length_append]
    exact Nat.le_add_right _ _
  · rw [List.drop_append_of_le_length (by omega), List.take_append_of_le_length, held]
    rw [List.length_drop]
    omega

/-- What a run adds to the state of the writer: a piece of the JSON text, and entries for nodes. -/
structure Wrote (source : List UInt8) (before after : Writer) (piece : List UInt8)
    (places : List (List UInt8 × YamlNode)) : Prop where
  path : after.path = before.path
  json : after.json = before.json ++ piece
  pool : ∃ more, after.pointerStorage = before.pointerStorage ++ more
  entries : ∃ added, after.entries = before.entries ++ added ∧
    List.Forall₂ (Recorded source after.pointerStorage) added places

variable {source : List UInt8} {before middle after : Writer} {first second : List UInt8}
  {firsts seconds : List (List UInt8 × YamlNode)}

theorem Wrote.append (one : Wrote source before middle first firsts)
    (other : Wrote source middle after second seconds) :
    Wrote source before after (first ++ second) (firsts ++ seconds) := by
  obtain ⟨more, pool⟩ := one.pool
  obtain ⟨further, grown⟩ := other.pool
  obtain ⟨added, entries, recorded⟩ := one.entries
  obtain ⟨rest, others, held⟩ := other.entries
  refine ⟨other.path.trans one.path, ?_, ⟨more ++ further, ?_⟩, added ++ rest, ?_, ?_⟩
  · rw [other.json, one.json, List.append_assoc]
  · rw [grown, pool, List.append_assoc]
  · rw [others, entries, List.append_assoc]
  · refine List.rel_append ?_ held
    rw [grown]
    exact recorded.imp fun _ _ same => same.append further

/-- Writing text records nothing. -/
theorem Wrote.text (bytes : List UInt8) :
    Wrote source before { before with json := before.json ++ bytes } bytes [] :=
  ⟨rfl, rfl, ⟨[], (List.append_nil _).symm⟩, [], (List.append_nil _).symm, .nil⟩

theorem Wrote.of_char {context : WriterContext} {byte : UInt8}
    (run : writeChar context byte before = .ok after) :
    Wrote context.source before after [byte] [] := by
  rw [writeChar_ok run]
  exact .text [byte]

theorem Wrote.of_string {context : WriterContext} {value : List UInt8}
    (run : writeString context value before = .ok after) :
    Wrote context.source before after (0x22 :: (value.flatMap stringByte ++ [0x22])) [] := by
  rw [writeString_ok run]
  exact .text _

/-- A run inside a longer path is a run once the path is back. -/
theorem Wrote.inside {path : List UInt8}
    (wrote : Wrote source { before with path := path } after first firsts) :
    Wrote source before { after with path := before.path } first firsts :=
  ⟨rfl, wrote.json, wrote.pool, wrote.entries⟩

variable {context : WriterContext}

/-- Entering a node records it under the path. -/
theorem enterNode_ok {node : YamlNode} {depth : Nat}
    (entered : enterNode context node depth before = .ok after) :
    Wrote context.source before after [] [(before.path, node)] := by
  rw [enterNode, require_bind_eq_ok, require_bind_eq_ok, require_bind_eq_ok,
    require_bind_eq_ok] at entered
  have recorded := entered.2.2.2.2
  rw [record, require_bind_eq_ok, require_bind_eq_ok, pure_eq_ok] at recorded
  obtain ⟨_, _, rfl⟩ := recorded
  refine ⟨rfl, (List.append_nil _).symm, ⟨before.path, rfl⟩, _, rfl, .cons ?_ .nil⟩
  have fields : ∀ offset length,
      (sourceEntry context.source node offset length).pointerOffset = offset ∧
        (sourceEntry context.source node offset length).pointerLength = length := by
    intro offset length
    have key : ∀ entry : SourceEntry,
        (locateKey context.source node entry).pointerOffset = entry.pointerOffset ∧
          (locateKey context.source node entry).pointerLength = entry.pointerLength := by
      intro entry
      unfold locateKey
      split
      · exact ⟨rfl, rfl⟩
      split <;> exact ⟨rfl, rfl⟩
    have value : ∀ entry : SourceEntry,
        (locateValue context.source node entry).pointerOffset = entry.pointerOffset ∧
          (locateValue context.source node entry).pointerLength = entry.pointerLength := by
      intro entry
      unfold locateValue
      dsimp only
      split <;> exact ⟨rfl, rfl⟩
    rw [sourceEntry, (value _).1, (value _).2, (key _).1, (key _).2]
    exact ⟨rfl, rfl⟩
  obtain ⟨offset, length⟩ := fields before.pointerStorage.length before.path.length
  refine ⟨?_, ?_, ?_⟩
  · rw [offset, length]
  · rw [offset, length, List.length_append]
  · rw [offset, length, List.drop_left, List.take_length]

/-! ### Members and elements -/

/-- Parts with commas between them, and in front when parts are there already. -/
def joined (start : Bool) : List (List UInt8) → List UInt8
  | [] => []
  | part :: rest => (if start then [] else [0x2c]) ++ part ++ joined false rest

theorem joined_true (parts : List (List UInt8)) :
    joined true parts = (parts.intersperse [0x2c]).flatten := by
  have later : ∀ part : List UInt8, ∀ rest : List (List UInt8),
      part ++ joined false rest = ((part :: rest).intersperse [0x2c]).flatten := by
    intro part rest
    induction rest generalizing part with
    | nil => simp [joined]
    | cons next rest inductionHypothesis =>
      rw [List.intersperse_cons_cons, List.flatten_cons, List.flatten_cons,
        ← inductionHypothesis next, joined]
      simp
  cases parts with
  | nil => rfl
  | cons part rest => exact later part rest

theorem Wrote.of_separate {start : Bool} (run : separate context start before = .ok after) :
    Wrote context.source before after (if start then [] else [0x2c]) [] := by
  unfold separate at run
  cases start with
  | true =>
    have nothing := @Wrote.text context.source before []
    rw [List.append_nil] at nothing
    rw [if_pos rfl, pure_eq_ok] at run
    exact run ▸ nothing
  | false => exact .of_char run

theorem memberKey_ok {child : YamlNode} {key : Scalar} (read : memberKey child = .ok key) :
    child.keyText = key.text := by
  unfold memberKey at read
  split at read
  · cases read
  · rename_i found named
    rw [pure_eq_ok] at read
    rw [YamlNode.keyText, named, read]
    rfl

theorem checkDistinct_ok {key : List UInt8} : ∀ {previous : List YamlNode} {done : Unit},
    checkDistinct key previous = .ok done → ∀ node ∈ previous, node.keyText ≠ key
  | [], _, _, _, member => nomatch member
  | node :: rest, done, run, other, member => by
    rw [checkDistinct] at run
    obtain ⟨found, read, checked⟩ := bind_eq_ok.mp run
    rw [require_bind_eq_ok] at checked
    obtain ⟨differs, others⟩ := checked
    rcases List.mem_cons.mp member with rfl | later
    · rw [memberKey_ok read]
      exact differs
    · exact checkDistinct_ok others other later

/-- A key that is let through is the key of the member, is UTF-8 and is new. -/
theorem checkKey_ok {previous : List YamlNode} {child : YamlNode} {key : List UInt8}
    (checked : checkKey context previous child = .ok key) :
    child.keyText = key ∧ WellFormed key ∧ ∀ node ∈ previous, node.keyText ≠ key := by
  rw [checkKey] at checked
  obtain ⟨found, read, checked⟩ := bind_eq_ok.mp checked
  obtain ⟨done, valid, checked⟩ := bind_eq_ok.mp checked
  rw [require_bind_eq_ok] at checked
  obtain ⟨finished, distinct, same⟩ := bind_eq_ok.mp checked.2
  rw [pure_eq_ok] at same
  obtain rfl := same
  exact ⟨memberKey_ok read, checkScalar_ok valid, checkDistinct_ok distinct⟩

/-- The places of a node, under pointers that start with a path. -/
def under (path : List UInt8) (places : List (List Step × YamlNode)) :
    List (List UInt8 × YamlNode) :=
  places.map fun place => (path ++ pointer place.1, place.2)

theorem under_append (path : List UInt8) (front back : List (List Step × YamlNode)) :
    under path (front ++ back) = under path front ++ under path back := List.map_append ..

theorem under_behind (path : List UInt8) (step : Step) (places : List (List Step × YamlNode)) :
    under path (places.map (behind step)) =
      under (path ++ 0x2f :: escape step.token) places := by
  rw [under, under, List.map_map]
  refine List.map_congr_left fun place _ => ?_
  show (path ++ pointer (step :: place.1), place.2) = _
  rw [pointer_cons, List.append_assoc]
  rfl

/-- The members that a run writes. -/
structure MembersWritten (previous children : List YamlNode) (parts : List (List UInt8)) :
    Prop where
  members : List.Forall₂ WritesMember parts (documentMembers children)
  unique : JsonValue.UniqueKeysMembers (documentMembers children)
  valid : ∀ child ∈ children, WellFormed child.keyText
  fresh : ∀ node ∈ previous, ∀ child ∈ children, node.keyText ≠ child.keyText
  distinct : (children.map YamlNode.keyText).Nodup

/-- Keys that differ in bytes differ as texts. -/
theorem MembersWritten.keys {previous children : List YamlNode} {parts : List (List UInt8)}
    (written : MembersWritten previous children parts) :
    ((documentMembers children).map Prod.fst).Nodup := by
  have texts : ∀ nodes : List YamlNode, (documentMembers nodes).map Prod.fst =
      (nodes.map YamlNode.keyText).map asText := by
    intro nodes
    induction nodes with
    | nil => simp [documentMembers]
    | cons node rest inductionHypothesis =>
      rw [YamlNode.documentMembers, List.map_cons, inductionHypothesis]
      rfl
  rw [texts]
  refine List.Nodup.map_on ?_ written.distinct
  intro key member other inside same
  obtain ⟨child, listed, rfl⟩ := List.mem_map.mp member
  obtain ⟨node, found, rfl⟩ := List.mem_map.mp inside
  rw [← utf8_asText (written.valid child listed), same, utf8_asText (written.valid node found)]

/-! ### The whole tree -/

theorem writesMember_of_parts {key : List UInt8} {piece : List UInt8} {value : JsonValue}
    (valid : WellFormed key) (writes : Writes piece value) :
    WritesMember (0x22 :: (key.flatMap stringByte ++ [0x22]) ++ 0x3a :: piece)
      (asText key, value) := by
  obtain ⟨name, spelled, quoted⟩ := quoted_string valid
  obtain ⟨word, rfl, spells⟩ := writes
  refine ⟨[], name, [], [], word, fun _ member => (nomatch member), quoted,
    fun _ member => (nomatch member), fun _ member => (nomatch member), spells, ?_⟩
  have colon : encode (':' :: word) = 0x3a :: encode word := encode_cons_ascii _ rfl
  rw [spelled, List.nil_append, List.nil_append, List.nil_append, encode_append, colon]

theorem under_node (path : List UInt8) (node : YamlNode)
    (rest : List (List Step × YamlNode)) :
    under path (([], node) :: rest) = (path, node) :: under path rest := by
  rw [under, List.map_cons, pointer_nil, List.append_nil]
  rfl

theorem uniqueKeys_scalarValue (value : Option Scalar) : (scalarValue value).UniqueKeys := by
  unfold scalarValue plainValue
  repeat' split
  all_goals simp [JsonValue.UniqueKeys]

mutual

/-- A successful run on a node writes its document and records its places. -/
theorem writeNode_ok : ∀ (node : YamlNode) {depth : Nat} {before after : Writer},
    writeNode context node depth before = .ok after → ∃ piece,
      Wrote context.source before after piece (under before.path node.places) ∧
        Writes piece node.document ∧ node.document.UniqueKeys
  | .map head children, depth, before, after, run => by
    rw [writeNode] at run
    obtain ⟨entered, entering, run⟩ := bind_eq_ok.mp run
    obtain ⟨opened, opening, run⟩ := bind_eq_ok.mp run
    obtain ⟨filled, filling, closing⟩ := bind_eq_ok.mp run
    obtain ⟨parts, fills, written⟩ := writeMembers_ok [] children filling
    have opens := (enterNode_ok entering).append (.of_char opening)
    have whole := (opens.append fills).append (.of_char closing)
    have path : opened.path = before.path := opens.path
    rw [YamlNode.places, YamlNode.document]
    refine ⟨0x7b :: (joined true parts ++ [0x7d]), ?_, ?_, ?_⟩
    · rw [under_node, ← path]
      simpa [path] using whole
    · rw [joined_true]
      have members := written.members
      cases parts with
      | nil =>
        rw [List.forall₂_nil_left_iff.mp members]
        exact writes_noMembers
      | cons part rest =>
        have object := Writes.obj blank_nil blank_nil (List.cons_ne_nil part rest) members
        rw [List.nil_append, List.append_nil] at object
        exact object
    · rw [JsonValue.UniqueKeys]
      exact ⟨written.keys, written.unique⟩
  | .seq head children, depth, before, after, run => by
    rw [writeNode] at run
    obtain ⟨entered, entering, run⟩ := bind_eq_ok.mp run
    obtain ⟨opened, opening, run⟩ := bind_eq_ok.mp run
    obtain ⟨filled, filling, closing⟩ := bind_eq_ok.mp run
    obtain ⟨parts, fills, elements, unique⟩ := writeElements_ok children filling
    have opens := (enterNode_ok entering).append (.of_char opening)
    have whole := (opens.append fills).append (.of_char closing)
    have path : opened.path = before.path := opens.path
    rw [YamlNode.places, YamlNode.document]
    refine ⟨0x5b :: (joined true parts ++ [0x5d]), ?_, ?_, ?_⟩
    · rw [under_node, ← path]
      simpa [path] using whole
    · rw [joined_true]
      exact Writes.arr elements
    · rw [JsonValue.UniqueKeys]
      exact unique
  | .scalar head value, depth, before, after, run => by
    rw [writeNode] at run
    obtain ⟨entered, entering, writing⟩ := bind_eq_ok.mp run
    obtain ⟨piece, rfl, writes⟩ := writeScalar_ok writing
    have whole := (enterNode_ok entering).append (.text piece)
    rw [YamlNode.places, YamlNode.document]
    refine ⟨piece, ?_, writes, uniqueKeys_scalarValue value⟩
    rw [under_node]
    exact whole

theorem writeMembers_ok (previous : List YamlNode) : ∀ (children : List YamlNode) {depth : Nat}
    {before after : Writer}, writeMembers context previous children depth before = .ok after →
      ∃ parts, Wrote context.source before after (joined previous.isEmpty parts)
          (under before.path (YamlNode.placesMembers children)) ∧
        MembersWritten previous children parts
  | [], depth, before, after, run => by
    rw [writeMembers, pure_eq_ok] at run
    obtain rfl := run
    refine ⟨[], ?_, ?_⟩
    · have nothing := @Wrote.text context.source before []
      rw [List.append_nil] at nothing
      rw [YamlNode.placesMembers]
      exact nothing
    · refine ⟨?_, ?_, fun _ member => (nomatch member), fun _ _ _ member => (nomatch member),
        List.nodup_nil⟩
      · rw [YamlNode.documentMembers]
        exact .nil
      · rw [YamlNode.documentMembers, JsonValue.UniqueKeysMembers]
        trivial
  | child :: rest, depth, before, after, run => by
    rw [writeMembers] at run
    obtain ⟨key, checking, run⟩ := bind_eq_ok.mp run
    obtain ⟨separated, separating, run⟩ := bind_eq_ok.mp run
    obtain ⟨named, naming, run⟩ := bind_eq_ok.mp run
    obtain ⟨opened, opening, run⟩ := bind_eq_ok.mp run
    obtain ⟨inside, entering, run⟩ := bind_eq_ok.mp run
    obtain ⟨left, within, others⟩ := bind_eq_ok.mp run
    obtain rfl := pathSegment_ok entering
    obtain ⟨keyed, valid, fresh⟩ := checkKey_ok checking
    obtain ⟨piece, wrote, writes, unique⟩ := writeNode_ok child within
    obtain ⟨parts, fills, written⟩ := writeMembers_ok (previous ++ [child]) rest others
    have later : (previous ++ [child]).isEmpty = false := by simp
    rw [later] at fills
    have token : (Step.member (asText child.keyText)).token = key := by
      rw [Step.token, utf8_asText (keyed.symm ▸ valid), keyed]
    have front := ((Wrote.of_separate separating).append (.of_string naming)).append
      (.of_char opening)
    have path : opened.path = before.path := front.path
    have whole := (front.append wrote.inside).append fills
    refine ⟨(0x22 :: (key.flatMap stringByte ++ [0x22]) ++ 0x3a :: piece) :: parts, ?_, ?_⟩
    · rw [YamlNode.placesMembers, under_append, under_behind, token, joined, ← path]
      simpa using whole
    · refine ⟨?_, ?_, ?_, ?_, ?_⟩
      · rw [YamlNode.documentMembers, keyed]
        exact .cons (writesMember_of_parts valid writes) written.members
      · rw [YamlNode.documentMembers, JsonValue.UniqueKeysMembers]
        exact ⟨unique, written.unique⟩
      · exact List.forall_mem_cons.mpr ⟨keyed.symm ▸ valid, written.valid⟩
      · intro node member
        exact List.forall_mem_cons.mpr ⟨keyed.symm ▸ fresh node member,
          written.fresh node (List.mem_append_left _ member)⟩
      · rw [List.map_cons, List.nodup_cons]
        refine ⟨fun member => ?_, written.distinct⟩
        obtain ⟨node, listed, same⟩ := List.mem_map.mp member
        exact written.fresh child (List.mem_append_right _ (List.mem_singleton_self _)) node listed
          same.symm

theorem writeElements_ok : ∀ (children : List YamlNode) {index depth : Nat}
    {before after : Writer}, writeElements context index children depth before = .ok after →
      ∃ parts, Wrote context.source before after (joined (index == 0) parts)
          (under before.path (YamlNode.placesElements index children)) ∧
        List.Forall₂ Writes parts (documentElements children) ∧
          JsonValue.UniqueKeysElements (documentElements children)
  | [], index, depth, before, after, run => by
    rw [writeElements, pure_eq_ok] at run
    obtain rfl := run
    have nothing := @Wrote.text context.source before []
    rw [List.append_nil] at nothing
    rw [YamlNode.placesElements, YamlNode.documentElements, JsonValue.UniqueKeysElements]
    exact ⟨[], nothing, .nil, trivial⟩
  | child :: rest, index, depth, before, after, run => by
    rw [writeElements] at run
    obtain ⟨separated, separating, run⟩ := bind_eq_ok.mp run
    obtain ⟨inside, entering, run⟩ := bind_eq_ok.mp run
    obtain ⟨left, within, others⟩ := bind_eq_ok.mp run
    obtain rfl := pathSegment_ok entering
    obtain ⟨piece, wrote, writes, unique⟩ := writeNode_ok child within
    obtain ⟨parts, fills, written, distinct⟩ := writeElements_ok rest others
    have later : (index + 1 == 0) = false := by simp
    rw [later] at fills
    have front := Wrote.of_separate separating
    have path : separated.path = before.path := front.path
    have whole := (front.append wrote.inside).append fills
    refine ⟨piece :: parts, ?_, ?_, ?_⟩
    · rw [YamlNode.placesElements, under_append, under_behind, Step.token, joined, ← path]
      simpa using whole
    · rw [YamlNode.documentElements]
      exact .cons writes written
    · rw [YamlNode.documentElements, JsonValue.UniqueKeysElements]
      exact ⟨unique, distinct⟩

end

/-! ### Looking up -/

theorem rfind_none {byte : UInt8} : ∀ {bytes : List UInt8},
    rfind byte bytes = none → byte ∉ bytes
  | [], _ => List.not_mem_nil
  | first :: rest, missing => by
    rw [rfind] at missing
    split at missing
    · cases missing
    rename_i absent
    split at missing
    · cases missing
    rename_i differs
    rw [List.mem_cons, not_or]
    exact ⟨Ne.symm differs, rfind_none absent⟩

/-- The last occurrence splits the bytes, with none behind it. -/
theorem rfind_some {byte : UInt8} : ∀ {bytes : List UInt8} {index : Nat},
    rfind byte bytes = some index → ∃ rest, bytes = bytes.take index ++ byte :: rest ∧ byte ∉ rest
  | first :: rest, index, found => by
    rw [rfind] at found
    split at found
    · rename_i shorter later
      obtain rfl := Option.some.inj found
      obtain ⟨behind, split, absent⟩ := rfind_some later
      exact ⟨behind, by rw [List.take_succ_cons, List.cons_append, ← split], absent⟩
    rename_i absent
    split at found
    · rename_i same
      obtain rfl := Option.some.inj found
      exact ⟨rest, by rw [same]; rfl, rfind_none absent⟩
    · cases found

theorem rfind_of_notMem {byte : UInt8} : ∀ {bytes : List UInt8}, byte ∉ bytes →
    rfind byte bytes = none
  | [], _ => rfl
  | first :: rest, absent => by
    rw [List.mem_cons, not_or] at absent
    rw [rfind, rfind_of_notMem absent.2]
    exact if_neg (Ne.symm absent.1)

theorem rfind_append {byte : UInt8} {rest : List UInt8} (absent : byte ∉ rest) :
    ∀ {front : List UInt8}, rfind byte (front ++ byte :: rest) = some front.length
  | [] => by
    rw [List.nil_append, rfind, rfind_of_notMem absent]
    exact if_pos rfl
  | first :: front => by
    rw [List.cons_append, rfind, rfind_append absent]
    rfl

/-- A pointer is the given one or what stands in front of one of its slashes. -/
def Around (pointer shorter : List UInt8) : Prop :=
  shorter = pointer ∨ ∃ rest, pointer = shorter ++ 0x2f :: rest

theorem Around.length {pointer shorter : List UInt8} (around : Around pointer shorter) :
    shorter.length ≤ pointer.length := by
  rcases around with rfl | ⟨rest, rfl⟩
  · exact Nat.le_refl _
  · rw [List.length_append]
    exact Nat.le_add_right _ _

/-- What stands in front of the last slash is around the pointer, and so is all around it. -/
theorem around_iff {front rest shorter : List UInt8} (absent : 0x2f ∉ rest) :
    Around (front ++ 0x2f :: rest) shorter ↔
      shorter = front ++ 0x2f :: rest ∨ Around front shorter := by
  constructor
  · rintro (same | ⟨behind, same⟩)
    · exact .inl same
    · refine .inr ?_
      rcases List.append_eq_append_iff.mp same with ⟨middle, rfl, split⟩ | ⟨middle, rfl, split⟩
      · cases middle with
        | nil => exact .inl (List.append_nil _)
        | cons byte others =>
          obtain ⟨-, tail⟩ := List.cons.inj split
          rw [tail] at absent
          exact absurd (List.mem_append_right _ List.mem_cons_self) absent
      · cases middle with
        | nil => exact .inl (List.append_nil _).symm
        | cons byte others =>
          obtain ⟨rfl, -⟩ := List.cons.inj split
          exact .inr ⟨others, rfl⟩
  · rintro (same | rfl | ⟨behind, rfl⟩)
    · exact .inl same
    · exact .inr ⟨rest, rfl⟩
    · exact .inr ⟨behind ++ 0x2f :: rest, by rw [List.append_assoc, List.cons_append]⟩

/-- What is found for a pointer is the entry with the longest pointer around it, or nothing when
no entry has one. -/
def NearestTo (result : Result) (pointer : List UInt8) : Option SourceEntry → Prop
  | some entry => entry ∈ result.entries ∧ Around pointer (result.pointer entry) ∧
      ∀ other ∈ result.entries, Around pointer (result.pointer other) →
        (result.pointer other).length ≤ (result.pointer entry).length
  | none => ∀ other ∈ result.entries, ¬Around pointer (result.pointer other)

theorem find_eq_some {result : Result} {pointer : List UInt8} {entry : SourceEntry}
    (found : result.find pointer = some entry) :
    entry ∈ result.entries ∧ result.pointer entry = pointer := by
  unfold Result.find at found
  split at found
  · have same := List.find?_some found
    exact ⟨List.mem_of_find?_eq_some found, of_decide_eq_true same⟩
  · cases found

theorem find_eq_none {result : Result} {pointer : List UInt8} (succeeded : result.Succeeded)
    (missing : result.find pointer = none) :
    ∀ other ∈ result.entries, result.pointer other ≠ pointer := by
  unfold Result.find at missing
  rw [if_pos succeeded] at missing
  intro other member same
  exact List.find?_eq_none.mp missing other member (decide_eq_true same)

theorem nearest_of_noSlash {result : Result} {pointer : List UInt8}
    (missing : result.find pointer = none) (noSlash : rfind 0x2f pointer = none) :
    result.nearest pointer = none := by
  rw [Result.nearest, missing]
  dsimp only
  split
  · rfl
  · rename_i slash found
    cases noSlash.symm.trans found

theorem nearest_of_slash {result : Result} {pointer : List UInt8} {slash : Nat}
    (missing : result.find pointer = none) (found : rfind 0x2f pointer = some slash) :
    result.nearest pointer = result.nearest (pointer.take slash) := by
  rw [Result.nearest, missing]
  dsimp only
  split
  · rename_i noSlash
    cases noSlash.symm.trans found
  · rename_i other same
    rw [Option.some.inj (same.symm.trans found)]

/-- The search ends at the longest recorded pointer around the given one. -/
theorem nearest_spec (result : Result) (succeeded : result.Succeeded) (pointer : List UInt8) :
    NearestTo result pointer (result.nearest pointer) := by
  induction pointer using Result.nearest.induct result with
  | case1 pointer entry found =>
    rw [Result.nearest, found]
    obtain ⟨member, same⟩ := find_eq_some found
    refine ⟨member, .inl same, fun other _ around => ?_⟩
    rw [same]
    exact around.length
  | case2 pointer missing noSlash =>
    rw [nearest_of_noSlash missing noSlash]
    rintro other member (same | ⟨rest, same⟩)
    · exact find_eq_none succeeded missing other member same
    · have slash : 0x2f ∈ pointer := same ▸ List.mem_append_right _ List.mem_cons_self
      exact rfind_none noSlash slash
  | case3 pointer missing slash found inductionHypothesis =>
    rw [nearest_of_slash missing found]
    obtain ⟨rest, split, absent⟩ := rfind_some found
    -- No entry has the pointer itself, so those around it are those around what is in front.
    have around : ∀ other ∈ result.entries,
        Around pointer (result.pointer other) ↔
          Around (pointer.take slash) (result.pointer other) := by
      intro other member
      have both := @around_iff (pointer.take slash) rest (result.pointer other) absent
      rw [← split] at both
      rw [both]
      exact or_iff_right (find_eq_none succeeded missing other member)
    cases outcome : result.nearest (pointer.take slash) with
    | none =>
      rw [outcome] at inductionHypothesis
      exact fun other member inside =>
        inductionHypothesis other member ((around other member).mp inside)
    | some entry =>
      rw [outcome] at inductionHypothesis
      obtain ⟨member, inside, longest⟩ := inductionHypothesis
      exact ⟨member, (around entry member).mpr inside, fun other listed beside =>
        longest other listed ((around other listed).mp beside)⟩

/-! ### The compiler's pointers -/

/-- The pointers that the compiler builds for the values of a document. -/
inductive BuiltPointer (root : JsonValue) : String → List Step → JsonValue → Prop
  | root : BuiltPointer root "" [] root
  | member {parent key : String} {steps : List Step} {members : List (String × JsonValue)}
      {value : JsonValue} (built : BuiltPointer root parent steps (.obj members))
      (inside : (key, value) ∈ members) :
      BuiltPointer root (ConfigCompiler.childPointer parent key) (steps ++ [.member key]) value
  | element {parent : String} {steps : List Step} {elements : List JsonValue} {index : Nat}
      {value : JsonValue} (built : BuiltPointer root parent steps (.arr elements))
      (inside : elements[index]? = some value) :
      BuiltPointer root (ConfigCompiler.indexPointer parent index) (steps ++ [.element index])
        value

/-- A character that is neither a tilde nor a slash has only bytes that are neither. -/
theorem escapeByte_char {character : Char} (noTilde : character ≠ '~') (noSlash : character ≠ '/') :
    ∀ byte ∈ String.utf8EncodeChar character, escapeByte byte = [byte] := by
  intro byte member
  by_cases ascii : character.toNat < 0x80
  · have bytes := encode_ascii character.toNat ascii
    rw [Char.ofNat_toNat] at bytes
    rw [bytes, List.mem_singleton] at member
    have apart : ∀ other : Char, character ≠ other → other.toNat < 0x80 →
        UInt8.ofNat character.toNat ≠ UInt8.ofNat other.toNat := by
      intro other differs below same
      have numbers := congrArg UInt8.toNat same
      rw [UInt8.toNat_ofNat', UInt8.toNat_ofNat', Nat.mod_eq_of_lt (by omega),
        Nat.mod_eq_of_lt (by omega)] at numbers
      exact differs (by rw [← Char.ofNat_toNat character, numbers, Char.ofNat_toNat])
    rw [member]
    exact escapeByte_plain (apart '~' noTilde (by decide)) (apart '/' noSlash (by decide))
  · have wide := wide_bytes (Nat.not_lt.mp ascii) byte member
    refine escapeByte_plain ?_ ?_
    · rintro rfl
      exact absurd wide (by decide)
    · rintro rfl
      exact absurd wide (by decide)

/-- The compiler escapes characters as the front end escapes bytes. -/
theorem encode_escapeToken (token : String) :
    encode (ConfigCompiler.escapeToken token) = escape (utf8 token) := by
  have single : ∀ character : Char,
      encode (if character = '~' then ['~', '0'] else if character = '/' then ['~', '1']
        else [character]) = escape (String.utf8EncodeChar character) := by
    intro character
    split
    · rename_i tilde
      rw [tilde]
      rfl
    split
    · rename_i slash
      rw [slash]
      rfl
    · rename_i noTilde noSlash
      rw [escape, flatMap_eq_self (escapeByte_char noTilde noSlash), encode_cons, encode_nil,
        List.append_nil]
  rw [ConfigCompiler.escapeToken, utf8]
  induction token.toList with
  | nil => rfl
  | cons first rest inductionHypothesis =>
    rw [List.flatMap_cons, encode_append, inductionHypothesis, single, encode_cons, escape, escape,
      escape, List.flatMap_append]

theorem utf8_childPointer (parent key : String) :
    utf8 (ConfigCompiler.childPointer parent key) = utf8 parent ++ 0x2f :: escape (utf8 key) := by
  have slash : encode ('/' :: ConfigCompiler.escapeToken key) =
      0x2f :: encode (ConfigCompiler.escapeToken key) := encode_cons_ascii _ rfl
  rw [utf8, ConfigCompiler.childPointer, String.toList_ofList, encode_append, slash,
    encode_escapeToken]
  rfl

theorem utf8_indexPointer (parent : String) (index : Nat) :
    utf8 (ConfigCompiler.indexPointer parent index) =
      utf8 parent ++ 0x2f :: escape (decimal index) := by
  have digits : utf8 (toString index) = decimal index := by
    rw [utf8, decimal, show toString index = Nat.repr index from rfl, Nat.toList_repr]
  rw [ConfigCompiler.indexPointer, utf8_childPointer, digits]

/-- The compiler's pointer of a value is its pointer. -/
theorem BuiltPointer.spec {root value : JsonValue} {text : String} {steps : List Step}
    (built : BuiltPointer root text steps value) :
    utf8 text = pointer steps ∧ Leads root steps value := by
  induction built with
  | root => exact ⟨rfl, rfl⟩
  | @member parent key steps members value built inside inductionHypothesis =>
    obtain ⟨same, leads⟩ := inductionHypothesis
    refine ⟨?_, leads.append ⟨value, ⟨members, rfl, inside⟩, rfl⟩⟩
    rw [utf8_childPointer, same, pointer_append, pointer_cons, pointer_nil, List.append_nil]
    rfl
  | @element parent steps elements index value built inside inductionHypothesis =>
    obtain ⟨same, leads⟩ := inductionHypothesis
    refine ⟨?_, leads.append ⟨value, ⟨elements, rfl, inside⟩, rfl⟩⟩
    rw [utf8_indexPointer, same, pointer_append, pointer_cons, pointer_nil, List.append_nil]
    rfl

/-! ### The conversion -/

/-- A successful conversion wrote the tree that the parser gave. -/
theorem conversion_ok {parse : Nat → List UInt8 → Except ParserFailure YamlTree}
    {storage : Storage} {input sourceIdentity : List UInt8} {limits : Limits} {writer : Writer}
    (run : conversion parse storage input sourceIdentity limits = .ok writer) :
    ∃ (tree : YamlTree) (root : YamlNode) (context : WriterContext),
      parse limits.parserBytes input = .ok tree ∧ selectRoot tree.root = .ok root ∧
        context.source = tree.source ∧
          writeNode context root 1 { pointerStorage := sourceIdentity } = .ok writer := by
  unfold conversion at run
  simp only [require_bind_eq_ok] at run
  obtain ⟨_, _, _, run⟩ := run
  obtain ⟨_, _, run⟩ := bind_eq_ok.mp run
  simp only [require_bind_eq_ok] at run
  obtain ⟨_, _, _, _, _, _, _, _, _, _, run⟩ := run
  obtain ⟨tree, parsed, run⟩ := bind_eq_ok.mp run
  have given : parse limits.parserBytes input = .ok tree := by
    cases outcome : parse limits.parserBytes input with
    | error failure =>
      rw [outcome] at parsed
      cases parsed
    | ok other =>
      rw [outcome] at parsed
      cases parsed
      rfl
  rw [convertTree, require_bind_eq_ok] at run
  obtain ⟨root, selected, run⟩ := bind_eq_ok.mp run.2
  rw [require_bind_eq_ok] at run
  exact ⟨tree, root, _, given, selected, rfl, run.2⟩

theorem convert_succeeded {parse : Nat → List UInt8 → Except ParserFailure YamlTree}
    {storage : Storage} {input sourceIdentity : List UInt8} {limits : Limits}
    (succeeded : (convert parse storage input sourceIdentity limits).Succeeded) :
    ∃ writer, conversion parse storage input sourceIdentity limits = .ok writer ∧
      (convert parse storage input sourceIdentity limits).json = writer.json ∧
      (convert parse storage input sourceIdentity limits).pointerStorage =
        writer.pointerStorage ∧
      (convert parse storage input sourceIdentity limits).entries = writer.entries := by
  cases run : conversion parse storage input sourceIdentity limits with
  | error failure =>
    unfold convert at succeeded
    rw [run] at succeeded
    exact absurd succeeded failure.refused
  | ok writer =>
    refine ⟨writer, rfl, ?_, ?_, ?_⟩
    · rw [Result.json, if_pos succeeded, convert, run]
    · rw [convert, run]
    · rw [convert, run]

/-- The source entries of a result locate the values of its JSON text, which is the document of a
tree: there is one entry for each value, in document order, and it is found by the pointer that
the compiler builds for the value. For any other text the nearest value around it is found. -/
structure Located (source : List UInt8) (root : YamlNode) (result : Result) : Prop where
  read : JsonText.read result.json = some root.document
  unique : root.document.UniqueKeys
  pointers : result.entries.map result.pointer =
    (JsonPointer.places root.document).map fun place => pointer place.1
  distinct : (result.entries.map result.pointer).Nodup
  found : ∀ text steps value, BuiltPointer root.document text steps value →
    ∃ (index : Nat) (entry : SourceEntry) (node : YamlNode),
      (JsonPointer.places root.document)[index]? = some (steps, value) ∧
      root.places[index]? = some (steps, node) ∧ result.entries[index]? = some entry ∧
      entry = sourceEntry source node entry.pointerOffset entry.pointerLength ∧
      result.find (utf8 text) = some entry
  nearest : ∀ text, NearestTo result text (result.findNearest text)
  missing : ∀ text steps members key, BuiltPointer root.document text steps (.obj members) →
    key ∉ members.map Prod.fst →
      result.findNearest (utf8 (ConfigCompiler.childPointer text key)) = result.find (utf8 text)

section Results

variable {source : List UInt8} {root : YamlNode} {result : Result}

/-- What the entries of a result have to be: those of the places of a tree. -/
def Records (source : List UInt8) (root : YamlNode) (result : Result) : Prop :=
  List.Forall₂ (Recorded source result.pointerStorage) result.entries (under [] root.places)

theorem Records.pointers (records : Records source root result) :
    result.entries.map result.pointer =
      (JsonPointer.places root.document).map fun place => pointer place.1 := by
  have pairs : ∀ {entries : List SourceEntry} {places : List (List UInt8 × YamlNode)},
      List.Forall₂ (Recorded source result.pointerStorage) entries places →
        entries.map result.pointer = places.map Prod.fst := by
    intro entries places recorded
    induction recorded with
    | nil => rfl
    | cons first _ inductionHypothesis =>
      rw [List.map_cons, List.map_cons, inductionHypothesis]
      exact congrArg (· :: _) first.2.2
  rw [pairs records, YamlNode.places_document, under, List.map_map, List.map_map]
  rfl

theorem getElem?_of_forall₂ {α β : Type} {relation : α → β → Prop} {index : Nat} {other : β} :
    ∀ {firsts : List α} {others : List β}, List.Forall₂ relation firsts others →
      others[index]? = some other →
        ∃ first, firsts[index]? = some first ∧ relation first other := by
  intro firsts others related
  induction related generalizing index with
  | nil => exact fun found => nomatch found
  | @cons first second _ _ same _ inductionHypothesis =>
    intro found
    cases index with
    | zero =>
      obtain rfl := Option.some.inj found
      exact ⟨first, rfl, same⟩
    | succ index => exact inductionHypothesis found

/-- The entry with a pointer is found by it when no other has the pointer. -/
theorem find_of_mem {entry : SourceEntry} (succeeded : result.Succeeded)
    (distinct : (result.entries.map result.pointer).Nodup) (member : entry ∈ result.entries) :
    result.find (result.pointer entry) = some entry := by
  cases found : result.find (result.pointer entry) with
  | none => exact absurd rfl (find_eq_none succeeded found entry member)
  | some other =>
    obtain ⟨inside, same⟩ := find_eq_some found
    exact congrArg some (List.inj_on_of_nodup_map distinct inside member same)

theorem Records.found (records : Records source root result) (succeeded : result.Succeeded)
    (distinct : (result.entries.map result.pointer).Nodup) {text : String} {steps : List Step}
    {value : JsonValue} (built : BuiltPointer root.document text steps value) :
    ∃ (index : Nat) (entry : SourceEntry) (node : YamlNode),
      (JsonPointer.places root.document)[index]? = some (steps, value) ∧
      root.places[index]? = some (steps, node) ∧ result.entries[index]? = some entry ∧
      entry = sourceEntry source node entry.pointerOffset entry.pointerLength ∧
      result.find (utf8 text) = some entry := by
  obtain ⟨same, leads⟩ := built.spec
  obtain ⟨index, there⟩ := List.getElem?_of_mem (mem_places.mpr leads)
  have mapped := there
  rw [YamlNode.places_document, List.getElem?_map, Option.map_eq_some_iff] at mapped
  obtain ⟨⟨path, node⟩, found, valued⟩ := mapped
  obtain rfl : path = steps := congrArg Prod.fst valued
  have listed : (under [] root.places)[index]? = some (pointer path, node) := by
    rw [under, List.getElem?_map, found]
    rfl
  obtain ⟨entry, entryAt, recorded⟩ := getElem?_of_forall₂ records listed
  refine ⟨index, entry, node, there, found, entryAt, recorded.1, ?_⟩
  rw [same, ← show result.pointer entry = pointer path from recorded.2.2]
  exact find_of_mem succeeded distinct (List.mem_of_getElem? entryAt)

/-- A missing member resolves to its object. -/
theorem Records.missing (records : Records source root result) (succeeded : result.Succeeded)
    (unique : root.document.UniqueKeys) (distinct : (result.entries.map result.pointer).Nodup)
    {text key : String} {steps : List Step} {members : List (String × JsonValue)}
    (built : BuiltPointer root.document text steps (.obj members))
    (missing : key ∉ members.map Prod.fst) :
    result.findNearest (utf8 (ConfigCompiler.childPointer text key)) =
      result.find (utf8 text) := by
  obtain ⟨same, leads⟩ := built.spec
  obtain ⟨_, entry, _, _, _, _, _, found⟩ := records.found succeeded distinct built
  have absent : result.find (utf8 (ConfigCompiler.childPointer text key)) = none := by
    cases outcome : result.find (utf8 (ConfigCompiler.childPointer text key)) with
    | none => rfl
    | some other =>
      obtain ⟨member, pointed⟩ := find_eq_some outcome
      have listed := List.mem_map_of_mem (f := result.pointer) member
      rw [records.pointers, List.mem_map] at listed
      obtain ⟨⟨more, value⟩, place, spelled⟩ := listed
      refine absurd ?_ (no_pointer_of_missing unique leads missing (mem_places.mp place))
      rw [← same, ← utf8_childPointer, ← pointed]
      exact spelled
  have slash : rfind 0x2f (utf8 (ConfigCompiler.childPointer text key)) =
      some (utf8 text).length := by
    rw [utf8_childPointer]
    exact rfind_append (slash_notMem_escape _)
  have front : (utf8 (ConfigCompiler.childPointer text key)).take (utf8 text).length =
      utf8 text := by
    rw [utf8_childPointer, List.take_left]
  rw [Result.findNearest, if_pos succeeded, nearest_of_slash absent slash, front, Result.nearest,
    found]

end Results

/-- Every successful conversion locates the values of the tree that was parsed. -/
theorem convert_locates (parse : Nat → List UInt8 → Except ParserFailure YamlTree)
    (storage : Storage) (input sourceIdentity : List UInt8) (limits : Limits)
    (succeeded : (convert parse storage input sourceIdentity limits).Succeeded) :
    ∃ (tree : YamlTree) (root : YamlNode), parse limits.parserBytes input = .ok tree ∧
      selectRoot tree.root = .ok root ∧
        Located tree.source root (convert parse storage input sourceIdentity limits) := by
  obtain ⟨writer, run, json, pool, entries⟩ := convert_succeeded succeeded
  obtain ⟨tree, root, context, parsed, selected, source, wrote⟩ := conversion_ok run
  obtain ⟨piece, adds, writes, unique⟩ := writeNode_ok root wrote
  obtain ⟨added, listed, recorded⟩ := adds.entries
  have records : Records tree.source root (convert parse storage input sourceIdentity limits) := by
    rw [Records, entries, pool, listed, ← source]
    exact recorded
  have distinct := records.pointers ▸ pointers_nodup unique
  refine ⟨tree, root, parsed, selected, ?_, unique, records.pointers, distinct,
    fun _ _ _ => records.found succeeded distinct, fun text => ?_,
    fun _ _ _ _ built absent => records.missing succeeded unique distinct built absent⟩
  · have denotes := writes.denotes blank_nil
    rw [List.append_nil] at denotes
    rw [json, adds.json]
    exact read_eq_some.mpr denotes
  · rw [Result.findNearest, if_pos succeeded]
    exact nearest_spec _ succeeded text

/-- A mapping of one key, which has a slash, to a sequence of one scalar. -/
def sampleInput : List UInt8 := utf8 "a/b: [x]"

def sampleRoot : YamlNode :=
  .map { location := { offset := some 0, line := some 0 } }
    [.seq { key := some { text := utf8 "a/b", quoted := false }
            location := { offset := some 0, line := some 0 } }
      [.scalar
        { location := { offset := some 6, line := some 0, col := 6 }
          scalarLocation := some { offset := some 6, line := some 0, col := 6 } }
        (some { text := utf8 "x", quoted := false })]]

/-- What the parser gives for the sample. -/
def sampleParse (_ : Nat) (input : List UInt8) : Except ParserFailure YamlTree :=
  if input = sampleInput then
    .ok { source := sampleInput, tagDirectives := 0, root := .document sampleRoot }
  else .error .invalid

theorem convert_locates_sample :
    (convert sampleParse {} sampleInput [] {}).Succeeded ∧
      (convert sampleParse {} sampleInput [] {}).json = utf8 "\x7b\"a/b\":[\"x\"]\x7d" ∧
      ∃ (tree : YamlTree) (root : YamlNode), sampleParse (128 * 1024) sampleInput = .ok tree ∧
        selectRoot tree.root = .ok root ∧
          Located tree.source root (convert sampleParse {} sampleInput [] {}) :=
  ⟨by decide +kernel, by decide +kernel,
    convert_locates sampleParse {} sampleInput [] {} (by decide +kernel)⟩

end ProtocolAdapter.ConfigFrontendYaml

/-
This file defines the audit of a parsed document: the traversal that bounds its
depth, its nodes and its strings and that rejects duplicate keys. A document passes
exactly when it stays within the limits at every node and its node and string
totals fit, a condition that does not depend on the order of object members.
-/

import ProtocolAdapter.ConfigCompiler.Diagnostics
import ProtocolAdapter.Foundation.Json

namespace ProtocolAdapter.ConfigCompiler

open Foundation

/-! ### The audit -/

/-- The limits on a parsed document. -/
structure JsonAuditLimits where
  maxDepth : Nat := 64
  maxNodes : Nat := 524288
  maxObjectMembers : Nat := 4096
  maxArrayElements : Nat := 16384
  maxStringBytes : Nat := 64 * 1024
  maxNumberTokenBytes : Nat := 128
  maxTotalDecodedStringBytes : Nat := 2 * 1024 * 1024

/-- What the audit has counted so far. -/
structure JsonAuditStats where
  nodeCount : Nat := 0
  totalDecodedStringBytes : Nat := 0

/-- The diagnostic of a document that exceeds a limit. -/
def resource (code : CompileError) (jsonPointer detail : String) : CompileDiagnostic :=
  { stage := .jsonResource, code := code, jsonPointer := jsonPointer, detail := detail }

/-- Accounts for one decoded string. -/
def addStringBudget (length : Nat) (limits : JsonAuditLimits) (stats : JsonAuditStats)
    (pointer : String) : Compiled JsonAuditStats := do
  rejectIf (length > limits.maxStringBytes)
    (resource .stringLimitExceeded pointer "decoded string exceeds the draft hard limit")
  rejectIf (length > limits.maxTotalDecodedStringBytes -
      min stats.totalDecodedStringBytes limits.maxTotalDecodedStringBytes)
    (resource .decodedStringBudgetExceeded pointer
      "total decoded string bytes exceed the draft hard limit")
  pure { stats with totalDecodedStringBytes := stats.totalDecodedStringBytes + length }

/-- Accounts for one node. -/
def enterJsonValue (limits : JsonAuditLimits) (depth : Nat) (pointer : String)
    (stats : JsonAuditStats) : Compiled JsonAuditStats := do
  rejectIf (depth > limits.maxDepth)
    (resource .nestingDepthLimitExceeded pointer
      "parsed JSON nesting exceeds the draft hard limit")
  rejectIf (stats.nodeCount ≥ limits.maxNodes)
    (resource .jsonNodeLimitExceeded pointer
      "parsed JSON node count exceeds the draft hard limit")
  pure { stats with nodeCount := stats.nodeCount + 1 }

/-- Accounts for the keys of an object, each of which must be new. -/
def auditKeys (limits : JsonAuditLimits) (pointer : String) :
    List String → List String → JsonAuditStats → Compiled JsonAuditStats
  | [], _, stats => pure stats
  | key :: rest, seen, stats => do
    let stats ← addStringBudget key.utf8ByteSize limits stats (childPointer pointer key)
    rejectIf (key ∈ seen)
      (resource .duplicateKey (childPointer pointer key) "duplicate object key is not allowed")
    auditKeys limits pointer rest (key :: seen) stats

mutual

/-- Audits a value at the given depth. The keys of an object are audited before the
values of its members. -/
def auditJsonValue (limits : JsonAuditLimits) :
    JsonValue → Nat → String → JsonAuditStats → Compiled JsonAuditStats
  | .null, depth, pointer, stats => enterJsonValue limits depth pointer stats
  | .bool _, depth, pointer, stats => enterJsonValue limits depth pointer stats
  | .raw token, depth, pointer, stats => do
    let stats ← enterJsonValue limits depth pointer stats
    rejectIf (token.utf8ByteSize > limits.maxNumberTokenBytes)
      (resource .numberTokenLimitExceeded pointer "number token exceeds the draft hard limit")
    pure stats
  | .str text, depth, pointer, stats => do
    let stats ← enterJsonValue limits depth pointer stats
    addStringBudget text.utf8ByteSize limits stats pointer
  | .arr elements, depth, pointer, stats => do
    let stats ← enterJsonValue limits depth pointer stats
    rejectIf (elements.length > limits.maxArrayElements)
      (resource .arrayElementLimitExceeded pointer
        "array element count exceeds the draft hard limit")
    auditElements limits elements depth pointer 0 stats
  | .obj members, depth, pointer, stats => do
    let stats ← enterJsonValue limits depth pointer stats
    rejectIf (members.length > limits.maxObjectMembers)
      (resource .objectMemberLimitExceeded pointer
        "object member count exceeds the draft hard limit")
    let stats ← auditKeys limits pointer (members.map Prod.fst) [] stats
    auditMembers limits members depth pointer stats

def auditElements (limits : JsonAuditLimits) :
    List JsonValue → Nat → String → Nat → JsonAuditStats → Compiled JsonAuditStats
  | [], _, _, _, stats => pure stats
  | element :: rest, depth, pointer, index, stats => do
    let stats ← auditJsonValue limits element (depth + 1) (indexPointer pointer index) stats
    auditElements limits rest depth pointer (index + 1) stats

def auditMembers (limits : JsonAuditLimits) :
    List (String × JsonValue) → Nat → String → JsonAuditStats → Compiled JsonAuditStats
  | [], _, _, stats => pure stats
  | (key, value) :: rest, depth, pointer, stats => do
    let stats ← auditJsonValue limits value (depth + 1) (childPointer pointer key) stats
    auditMembers limits rest depth pointer stats

end

/-! ### What the audit accepts -/

mutual

/-- The nodes of a document. -/
def nodes : JsonValue → Nat
  | .arr elements => 1 + nodesOfElements elements
  | .obj members => 1 + nodesOfMembers members
  | _ => 1

def nodesOfElements : List JsonValue → Nat
  | [] => 0
  | element :: rest => nodes element + nodesOfElements rest

def nodesOfMembers : List (String × JsonValue) → Nat
  | [] => 0
  | (_, value) :: rest => nodes value + nodesOfMembers rest

end

mutual

/-- The bytes of the decoded strings of a document, its keys included. -/
def stringBytes : JsonValue → Nat
  | .str text => text.utf8ByteSize
  | .arr elements => stringBytesOfElements elements
  | .obj members => (members.map fun member => member.1.utf8ByteSize).sum +
      stringBytesOfMembers members
  | _ => 0

def stringBytesOfElements : List JsonValue → Nat
  | [] => 0
  | element :: rest => stringBytes element + stringBytesOfElements rest

def stringBytesOfMembers : List (String × JsonValue) → Nat
  | [] => 0
  | (_, value) :: rest => stringBytes value + stringBytesOfMembers rest

end

mutual

/-- Every node of a document at the given depth keeps the limits on single nodes, and
every object has unique keys. -/
def Within (limits : JsonAuditLimits) : JsonValue → Nat → Prop
  | .raw token, depth => depth ≤ limits.maxDepth ∧ token.utf8ByteSize ≤ limits.maxNumberTokenBytes
  | .str text, depth => depth ≤ limits.maxDepth ∧ text.utf8ByteSize ≤ limits.maxStringBytes
  | .arr elements, depth => depth ≤ limits.maxDepth ∧ elements.length ≤ limits.maxArrayElements ∧
      WithinElements limits elements (depth + 1)
  | .obj members, depth => depth ≤ limits.maxDepth ∧ members.length ≤ limits.maxObjectMembers ∧
      (∀ key ∈ members.map Prod.fst, key.utf8ByteSize ≤ limits.maxStringBytes) ∧
      (members.map Prod.fst).Nodup ∧ WithinMembers limits members (depth + 1)
  | _, depth => depth ≤ limits.maxDepth

def WithinElements (limits : JsonAuditLimits) : List JsonValue → Nat → Prop
  | [], _ => True
  | element :: rest, depth => Within limits element depth ∧ WithinElements limits rest depth

def WithinMembers (limits : JsonAuditLimits) : List (String × JsonValue) → Nat → Prop
  | [], _ => True
  | (_, value) :: rest, depth => Within limits value depth ∧ WithinMembers limits rest depth

end

/-- The counters after some more nodes and string bytes. -/
def JsonAuditStats.count (stats : JsonAuditStats) (nodes bytes : Nat) : JsonAuditStats where
  nodeCount := stats.nodeCount + nodes
  totalDecodedStringBytes := stats.totalDecodedStringBytes + bytes

/-- The counters keep the limits on the whole document. -/
structure JsonAuditStats.Fits (limits : JsonAuditLimits) (stats : JsonAuditStats) : Prop where
  nodes : stats.nodeCount ≤ limits.maxNodes
  bytes : stats.totalDecodedStringBytes ≤ limits.maxTotalDecodedStringBytes

theorem JsonAuditStats.fits_count {limits : JsonAuditLimits} {stats : JsonAuditStats}
    {nodes bytes : Nat} : (stats.count nodes bytes).Fits limits ↔
      stats.nodeCount + nodes ≤ limits.maxNodes ∧
        stats.totalDecodedStringBytes + bytes ≤ limits.maxTotalDecodedStringBytes :=
  ⟨fun fits => ⟨fits.nodes, fits.bytes⟩, fun fits => ⟨fits.1, fits.2⟩⟩

theorem JsonAuditStats.count_count (stats : JsonAuditStats)
    (nodes bytes moreNodes moreBytes : Nat) :
    (stats.count nodes bytes).count moreNodes moreBytes =
      stats.count (nodes + moreNodes) (bytes + moreBytes) := by
  simp only [JsonAuditStats.count, Nat.add_assoc]

variable {limits : JsonAuditLimits} {stats after : JsonAuditStats} {pointer : String}

theorem enterJsonValue_eq_ok {depth : Nat} (fits : stats.Fits limits) :
    enterJsonValue limits depth pointer stats = .ok after ↔
      depth ≤ limits.maxDepth ∧ (stats.count 1 0).Fits limits ∧ after = stats.count 1 0 := by
  simp only [enterJsonValue, rejectIf_bind_eq_ok, pure_eq_ok, not_lt, not_le,
    JsonAuditStats.fits_count, Nat.add_zero]
  refine and_congr_right fun _ => ⟨?_, ?_⟩
  · rintro ⟨nodes, same⟩
    exact ⟨⟨nodes, fits.bytes⟩, same.symm⟩
  · rintro ⟨fits, same⟩
    exact ⟨fits.1, same.symm⟩

theorem addStringBudget_eq_ok {length : Nat} (fits : stats.Fits limits) :
    addStringBudget length limits stats pointer = .ok after ↔
      length ≤ limits.maxStringBytes ∧ (stats.count 0 length).Fits limits ∧
        after = stats.count 0 length := by
  have bytes := fits.bytes
  simp only [addStringBudget, rejectIf_bind_eq_ok, pure_eq_ok, not_lt,
    JsonAuditStats.fits_count, Nat.add_zero, Nat.min_eq_left bytes]
  refine and_congr_right fun _ => ⟨?_, ?_⟩
  · rintro ⟨room, same⟩
    exact ⟨⟨fits.nodes, by omega⟩, same.symm⟩
  · rintro ⟨fits, same⟩
    exact ⟨by omega, same.symm⟩

theorem auditKeys_eq_ok {keys seen : List String} (fits : stats.Fits limits) :
    auditKeys limits pointer keys seen stats = .ok after ↔
      (∀ key ∈ keys, key.utf8ByteSize ≤ limits.maxStringBytes) ∧ keys.Nodup ∧
        (∀ key ∈ keys, key ∉ seen) ∧
          (stats.count 0 (keys.map String.utf8ByteSize).sum).Fits limits ∧
          after = stats.count 0 (keys.map String.utf8ByteSize).sum := by
  induction keys generalizing seen stats with
  | nil =>
    simp only [auditKeys, pure_eq_ok]
    exact ⟨fun same => ⟨by simp, .nil, by simp, fits, same.symm⟩, fun ends => ends.2.2.2.2.symm⟩
  | cons key rest inductionHypothesis =>
    simp only [auditKeys, bind_eq_ok, rejectIf_eq_ok, exists_const, addStringBudget_eq_ok fits]
    constructor
    · rintro ⟨middle, ⟨short, room, rfl⟩, fresh, run⟩
      obtain ⟨each, distinct, unseen, total, rfl⟩ := (inductionHypothesis room).mp run
      rw [JsonAuditStats.count_count] at total ⊢
      refine ⟨List.forall_mem_cons.mpr ⟨short, each⟩,
        List.nodup_cons.mpr ⟨fun member => ?_, distinct⟩,
        List.forall_mem_cons.mpr ⟨fresh, fun other member => ?_⟩, total, rfl⟩
      · exact unseen key member List.mem_cons_self
      · exact fun before => unseen other member (List.mem_cons_of_mem _ before)
    · rintro ⟨each, distinct, unseen, total, rfl⟩
      obtain ⟨short, each⟩ := List.forall_mem_cons.mp each
      obtain ⟨fresh, unseen⟩ := List.forall_mem_cons.mp unseen
      obtain ⟨absent, distinct⟩ := List.nodup_cons.mp distinct
      rw [List.map_cons, List.sum_cons] at total
      have room : (stats.count 0 key.utf8ByteSize).Fits limits := by
        rw [JsonAuditStats.fits_count] at total ⊢
        omega
      refine ⟨_, ⟨short, room, rfl⟩, fresh, (inductionHypothesis room).mpr
        ⟨each, distinct, fun other member => ?_, ?_, ?_⟩⟩
      · rw [List.mem_cons, not_or]
        exact ⟨fun same => absent (same ▸ member), unseen other member⟩
      · rw [JsonAuditStats.count_count]
        simpa using total
      · rw [JsonAuditStats.count_count, List.map_cons, List.sum_cons]

theorem keyLengths (members : List (String × JsonValue)) :
    (members.map Prod.fst).map String.utf8ByteSize =
      members.map fun member => member.1.utf8ByteSize := List.map_map

mutual

/-- The audit accepts exactly the documents within the limits whose totals fit. -/
theorem auditJsonValue_eq_ok (value : JsonValue) {depth : Nat} {pointer : String}
    {stats after : JsonAuditStats} (fits : stats.Fits limits) :
    auditJsonValue limits value depth pointer stats = .ok after ↔
      Within limits value depth ∧ (stats.count (nodes value) (stringBytes value)).Fits limits ∧
        after = stats.count (nodes value) (stringBytes value) := by
  match value with
  | .null => exact enterJsonValue_eq_ok fits
  | .bool _ => exact enterJsonValue_eq_ok fits
  | .raw token =>
    simp only [auditJsonValue, bind_eq_ok, rejectIf_eq_ok, exists_const, pure_eq_ok, not_lt,
      enterJsonValue_eq_ok fits, Within, nodes, stringBytes]
    constructor
    · rintro ⟨middle, ⟨shallow, room, rfl⟩, short, rfl⟩
      exact ⟨⟨shallow, short⟩, room, rfl⟩
    · rintro ⟨⟨shallow, short⟩, room, rfl⟩
      exact ⟨_, ⟨shallow, room, rfl⟩, short, rfl⟩
  | .str text =>
    simp only [auditJsonValue, bind_eq_ok, enterJsonValue_eq_ok fits, Within, nodes, stringBytes]
    constructor
    · rintro ⟨middle, ⟨shallow, room, rfl⟩, run⟩
      obtain ⟨short, total, rfl⟩ := (addStringBudget_eq_ok room).mp run
      rw [JsonAuditStats.count_count, Nat.add_zero, Nat.zero_add] at total ⊢
      exact ⟨⟨shallow, short⟩, total, rfl⟩
    · rintro ⟨⟨shallow, short⟩, total, rfl⟩
      have room : (stats.count 1 0).Fits limits := by
        rw [JsonAuditStats.fits_count] at total ⊢
        omega
      refine ⟨_, ⟨shallow, room, rfl⟩, (addStringBudget_eq_ok room).mpr ⟨short, ?_⟩⟩
      rw [JsonAuditStats.count_count, Nat.add_zero, Nat.zero_add]
      exact ⟨total, rfl⟩
  | .arr elements =>
    simp only [auditJsonValue, bind_eq_ok, rejectIf_eq_ok, exists_const, not_lt,
      enterJsonValue_eq_ok fits, Within, nodes, stringBytes]
    constructor
    · rintro ⟨middle, ⟨shallow, room, rfl⟩, few, run⟩
      obtain ⟨each, total, rfl⟩ := (auditElements_eq_ok elements room).mp run
      rw [JsonAuditStats.count_count, Nat.zero_add] at total ⊢
      exact ⟨⟨shallow, few, each⟩, total, rfl⟩
    · rintro ⟨⟨shallow, few, each⟩, total, rfl⟩
      have room : (stats.count 1 0).Fits limits := by
        rw [JsonAuditStats.fits_count] at total ⊢
        omega
      refine ⟨_, ⟨shallow, room, rfl⟩, few, (auditElements_eq_ok elements room).mpr ⟨each, ?_⟩⟩
      rw [JsonAuditStats.count_count, Nat.zero_add]
      exact ⟨total, rfl⟩
  | .obj members =>
    have lengths := keyLengths members
    simp only [auditJsonValue, bind_eq_ok, rejectIf_eq_ok, exists_const, not_lt,
      enterJsonValue_eq_ok fits, Within, nodes, stringBytes]
    constructor
    · rintro ⟨middle, ⟨shallow, room, rfl⟩, few, keyed, keys, run⟩
      obtain ⟨short, distinct, -, keysRoom, rfl⟩ := (auditKeys_eq_ok room).mp keys
      obtain ⟨each, total, rfl⟩ := (auditMembers_eq_ok members keysRoom).mp run
      rw [lengths, JsonAuditStats.count_count, JsonAuditStats.count_count, Nat.zero_add,
        Nat.zero_add] at total ⊢
      exact ⟨⟨shallow, few, short, distinct, each⟩, total, rfl⟩
    · rintro ⟨⟨shallow, few, short, distinct, each⟩, total, rfl⟩
      have room : (stats.count 1 0).Fits limits := by
        rw [JsonAuditStats.fits_count] at total ⊢
        omega
      have keysRoom : ((stats.count 1 0).count 0
          ((members.map Prod.fst).map String.utf8ByteSize).sum).Fits limits := by
        rw [JsonAuditStats.count_count, lengths]
        rw [JsonAuditStats.fits_count] at total ⊢
        omega
      refine ⟨_, ⟨shallow, room, rfl⟩, few, _,
        (auditKeys_eq_ok room).mpr ⟨short, distinct, by simp, keysRoom, rfl⟩,
        (auditMembers_eq_ok members keysRoom).mpr ⟨each, ?_⟩⟩
      rw [lengths, JsonAuditStats.count_count, JsonAuditStats.count_count, Nat.zero_add,
        Nat.zero_add]
      exact ⟨total, rfl⟩

theorem auditElements_eq_ok (elements : List JsonValue) {depth index : Nat} {pointer : String}
    {stats after : JsonAuditStats} (fits : stats.Fits limits) :
    auditElements limits elements depth pointer index stats = .ok after ↔
      WithinElements limits elements (depth + 1) ∧
        (stats.count (nodesOfElements elements) (stringBytesOfElements elements)).Fits limits ∧
          after = stats.count (nodesOfElements elements) (stringBytesOfElements elements) := by
  match elements with
  | [] =>
    simp only [auditElements, pure_eq_ok, WithinElements, true_and]
    exact ⟨fun same => ⟨fits, same.symm⟩, fun ends => ends.2.symm⟩
  | element :: rest =>
    simp only [auditElements, bind_eq_ok, auditJsonValue_eq_ok element fits, WithinElements,
      nodesOfElements, stringBytesOfElements]
    constructor
    · rintro ⟨middle, ⟨within, room, rfl⟩, run⟩
      obtain ⟨each, total, rfl⟩ := (auditElements_eq_ok rest room).mp run
      rw [JsonAuditStats.count_count] at total ⊢
      exact ⟨⟨within, each⟩, total, rfl⟩
    · rintro ⟨⟨within, each⟩, total, rfl⟩
      have room : (stats.count (nodes element) (stringBytes element)).Fits limits := by
        rw [JsonAuditStats.fits_count] at total ⊢
        omega
      refine ⟨_, ⟨within, room, rfl⟩, (auditElements_eq_ok rest room).mpr ⟨each, ?_⟩⟩
      rw [JsonAuditStats.count_count]
      exact ⟨total, rfl⟩

theorem auditMembers_eq_ok (members : List (String × JsonValue)) {depth : Nat} {pointer : String}
    {stats after : JsonAuditStats} (fits : stats.Fits limits) :
    auditMembers limits members depth pointer stats = .ok after ↔
      WithinMembers limits members (depth + 1) ∧
        (stats.count (nodesOfMembers members) (stringBytesOfMembers members)).Fits limits ∧
          after = stats.count (nodesOfMembers members) (stringBytesOfMembers members) := by
  match members with
  | [] =>
    simp only [auditMembers, pure_eq_ok, WithinMembers, true_and]
    exact ⟨fun same => ⟨fits, same.symm⟩, fun ends => ends.2.symm⟩
  | (key, value) :: rest =>
    simp only [auditMembers, bind_eq_ok, auditJsonValue_eq_ok value fits, WithinMembers,
      nodesOfMembers, stringBytesOfMembers]
    constructor
    · rintro ⟨middle, ⟨within, room, rfl⟩, run⟩
      obtain ⟨each, total, rfl⟩ := (auditMembers_eq_ok rest room).mp run
      rw [JsonAuditStats.count_count] at total ⊢
      exact ⟨⟨within, each⟩, total, rfl⟩
    · rintro ⟨⟨within, each⟩, total, rfl⟩
      have room : (stats.count (nodes value) (stringBytes value)).Fits limits := by
        rw [JsonAuditStats.fits_count] at total ⊢
        omega
      refine ⟨_, ⟨within, room, rfl⟩, (auditMembers_eq_ok rest room).mpr ⟨each, ?_⟩⟩
      rw [JsonAuditStats.count_count]
      exact ⟨total, rfl⟩

end

/-! ### The order of members -/

mutual

theorem Within.uniqueKeys {limits : JsonAuditLimits} : ∀ {value : JsonValue} {depth : Nat},
    Within limits value depth → value.UniqueKeys
  | .null, _, _ | .bool _, _, _ | .raw _, _, _ | .str _, _, _ => trivial
  | .arr _, _, within => WithinElements.uniqueKeys within.2.2
  | .obj _, _, within => ⟨within.2.2.2.1, WithinMembers.uniqueKeys within.2.2.2.2⟩

theorem WithinElements.uniqueKeys {limits : JsonAuditLimits} :
    ∀ {elements : List JsonValue} {depth : Nat}, WithinElements limits elements depth →
      JsonValue.UniqueKeysElements elements
  | [], _, _ => trivial
  | _ :: _, _, within => ⟨Within.uniqueKeys within.1, WithinElements.uniqueKeys within.2⟩

theorem WithinMembers.uniqueKeys {limits : JsonAuditLimits} :
    ∀ {members : List (String × JsonValue)} {depth : Nat}, WithinMembers limits members depth →
      JsonValue.UniqueKeysMembers members
  | [], _, _ => trivial
  | _ :: _, _, within => ⟨Within.uniqueKeys within.1, WithinMembers.uniqueKeys within.2⟩

end

mutual

theorem nodes_reordered {value other : JsonValue} :
    value.Reordered other → nodes value = nodes other
  | .refl _ => rfl
  | .arr each => congrArg (1 + ·) (nodesOfElements_reordered each)
  | .obj each => congrArg (1 + ·) (nodesOfMembers_reordered each)

theorem nodesOfElements_reordered {elements others : List JsonValue} :
    JsonValue.ReorderedElements elements others →
      nodesOfElements elements = nodesOfElements others
  | .nil => rfl
  | .cons head tail =>
    congrArg₂ (· + ·) (nodes_reordered head) (nodesOfElements_reordered tail)

theorem nodesOfMembers_reordered {members others : List (String × JsonValue)} :
    JsonValue.ReorderedMembers members others → nodesOfMembers members = nodesOfMembers others
  | .nil => rfl
  | .cons head tail =>
    congrArg₂ (· + ·) (nodes_reordered head) (nodesOfMembers_reordered tail)
  | .swap _ _ _ => Nat.add_left_comm _ _ _
  | .trans first second =>
    (nodesOfMembers_reordered first).trans (nodesOfMembers_reordered second)

end

mutual

theorem stringBytes_reordered {value other : JsonValue} :
    value.Reordered other → stringBytes value = stringBytes other
  | .refl _ => rfl
  | .arr each => stringBytesOfElements_reordered each
  | @JsonValue.Reordered.obj members others each => by
    rw [stringBytes, stringBytes, stringBytesOfMembers_reordered each, ← keyLengths members,
      ← keyLengths others, (each.keys.map String.utf8ByteSize).sum_nat]

theorem stringBytesOfElements_reordered {elements others : List JsonValue} :
    JsonValue.ReorderedElements elements others →
      stringBytesOfElements elements = stringBytesOfElements others
  | .nil => rfl
  | .cons head tail =>
    congrArg₂ (· + ·) (stringBytes_reordered head) (stringBytesOfElements_reordered tail)

theorem stringBytesOfMembers_reordered {members others : List (String × JsonValue)} :
    JsonValue.ReorderedMembers members others →
      stringBytesOfMembers members = stringBytesOfMembers others
  | .nil => rfl
  | .cons head tail =>
    congrArg₂ (· + ·) (stringBytes_reordered head) (stringBytesOfMembers_reordered tail)
  | .swap _ _ _ => Nat.add_left_comm _ _ _
  | .trans first second =>
    (stringBytesOfMembers_reordered first).trans (stringBytesOfMembers_reordered second)

end

theorem length_reorderedElements {elements others : List JsonValue} :
    JsonValue.ReorderedElements elements others → elements.length = others.length
  | .nil => rfl
  | .cons _ tail => congrArg (· + 1) (length_reorderedElements tail)

mutual

theorem Within.reordered {limits : JsonAuditLimits} {value other : JsonValue} :
    value.Reordered other → ∀ {depth : Nat}, Within limits value depth → Within limits other depth
  | .refl _, _, within => within
  | .arr each, _, within =>
    ⟨within.1, length_reorderedElements each ▸ within.2.1,
      WithinElements.reordered each within.2.2⟩
  | .obj each, _, within => by
    obtain ⟨shallow, few, short, distinct, values⟩ := within
    refine ⟨shallow, ?_, fun key member => short key (each.keys.mem_iff.mpr member),
      each.keys.nodup distinct, WithinMembers.reordered each values⟩
    have lengths := each.keys.length_eq
    rw [List.length_map, List.length_map] at lengths
    exact lengths ▸ few

theorem WithinElements.reordered {limits : JsonAuditLimits} {elements others : List JsonValue} :
    JsonValue.ReorderedElements elements others →
      ∀ {depth : Nat}, WithinElements limits elements depth → WithinElements limits others depth
  | .nil, _, within => within
  | .cons head tail, _, within =>
    ⟨Within.reordered head within.1, WithinElements.reordered tail within.2⟩

theorem WithinMembers.reordered {limits : JsonAuditLimits}
    {members others : List (String × JsonValue)} :
    JsonValue.ReorderedMembers members others →
      ∀ {depth : Nat}, WithinMembers limits members depth → WithinMembers limits others depth
  | .nil, _, within => within
  | .cons head tail, _, within =>
    ⟨Within.reordered head within.1, WithinMembers.reordered tail within.2⟩
  | .swap _ _ _, _, within => ⟨within.2.1, within.1, within.2.2⟩
  | .trans first second, _, within =>
    WithinMembers.reordered second (WithinMembers.reordered first within)

end

/-- A document passes the audit with the same totals when its members are reordered. -/
theorem auditJsonValue_reordered {value other : JsonValue} (reordered : value.Reordered other)
    {depth : Nat} {pointer : String} (fits : stats.Fits limits)
    (passes : auditJsonValue limits value depth pointer stats = .ok after) :
    value.UniqueKeys ∧ auditJsonValue limits other depth pointer stats = .ok after := by
  obtain ⟨within, total, same⟩ := (auditJsonValue_eq_ok value fits).mp passes
  refine ⟨within.uniqueKeys, (auditJsonValue_eq_ok other fits).mpr
    ⟨within.reordered reordered, ?_, ?_⟩⟩
  · rw [← nodes_reordered reordered, ← stringBytes_reordered reordered]
    exact total
  · rw [← nodes_reordered reordered, ← stringBytes_reordered reordered]
    exact same

/-! ### What a failed audit reports -/

theorem enterJsonValue_stage {depth : Nat} {failure : CompileDiagnostic}
    (fails : enterJsonValue limits depth pointer stats = .error failure) :
    failure.stage = .jsonResource := by
  simp only [enterJsonValue, bind_eq_error, rejectIf_eq_error] at fails
  rcases fails with ⟨-, rfl⟩ | ⟨_, -, ⟨-, rfl⟩ | ⟨_, -, ended⟩⟩
  · rfl
  · rfl
  · cases ended

theorem addStringBudget_stage {length : Nat} {failure : CompileDiagnostic}
    (fails : addStringBudget length limits stats pointer = .error failure) :
    failure.stage = .jsonResource := by
  simp only [addStringBudget, bind_eq_error, rejectIf_eq_error] at fails
  rcases fails with ⟨-, rfl⟩ | ⟨_, -, ⟨-, rfl⟩ | ⟨_, -, ended⟩⟩
  · rfl
  · rfl
  · cases ended

theorem auditKeys_stage {failure : CompileDiagnostic} :
    ∀ {keys seen : List String} {stats : JsonAuditStats},
      auditKeys limits pointer keys seen stats = .error failure →
        failure.stage = .jsonResource := by
  intro keys
  induction keys with
  | nil => intro seen stats fails; cases fails
  | cons key rest inductionHypothesis =>
    intro seen stats fails
    simp only [auditKeys, bind_eq_error, rejectIf_eq_error] at fails
    rcases fails with full | ⟨_, -, ⟨-, rfl⟩ | ⟨_, -, later⟩⟩
    · exact addStringBudget_stage full
    · rfl
    · exact inductionHypothesis later

mutual

/-- A document that fails the audit exceeds a resource limit. -/
theorem auditJsonValue_stage {failure : CompileDiagnostic} (value : JsonValue) {depth : Nat}
    {pointer : String} {stats : JsonAuditStats}
    (fails : auditJsonValue limits value depth pointer stats = .error failure) :
    failure.stage = .jsonResource := by
  match value with
  | .null => exact enterJsonValue_stage fails
  | .bool _ => exact enterJsonValue_stage fails
  | .raw token =>
    simp only [auditJsonValue, bind_eq_error, rejectIf_eq_error] at fails
    rcases fails with entered | ⟨_, -, ⟨-, rfl⟩ | ⟨_, -, ended⟩⟩
    · exact enterJsonValue_stage entered
    · rfl
    · cases ended
  | .str text =>
    simp only [auditJsonValue, bind_eq_error] at fails
    rcases fails with entered | ⟨_, -, full⟩
    · exact enterJsonValue_stage entered
    · exact addStringBudget_stage full
  | .arr elements =>
    simp only [auditJsonValue, bind_eq_error, rejectIf_eq_error] at fails
    rcases fails with entered | ⟨_, -, ⟨-, rfl⟩ | ⟨_, -, later⟩⟩
    · exact enterJsonValue_stage entered
    · rfl
    · exact auditElements_stage elements later
  | .obj members =>
    simp only [auditJsonValue, bind_eq_error, rejectIf_eq_error] at fails
    rcases fails with entered | ⟨_, -, ⟨-, rfl⟩ | ⟨_, -, keyed | ⟨_, -, later⟩⟩⟩
    · exact enterJsonValue_stage entered
    · rfl
    · exact auditKeys_stage keyed
    · exact auditMembers_stage members later

theorem auditElements_stage {failure : CompileDiagnostic} (elements : List JsonValue)
    {depth index : Nat} {pointer : String} {stats : JsonAuditStats}
    (fails : auditElements limits elements depth pointer index stats = .error failure) :
    failure.stage = .jsonResource := by
  match elements with
  | [] => cases fails
  | element :: rest =>
    simp only [auditElements, bind_eq_error] at fails
    rcases fails with head | ⟨_, -, later⟩
    · exact auditJsonValue_stage element head
    · exact auditElements_stage rest later

theorem auditMembers_stage {failure : CompileDiagnostic} (members : List (String × JsonValue))
    {depth : Nat} {pointer : String} {stats : JsonAuditStats}
    (fails : auditMembers limits members depth pointer stats = .error failure) :
    failure.stage = .jsonResource := by
  match members with
  | [] => cases fails
  | (_, value) :: rest =>
    simp only [auditMembers, bind_eq_error] at fails
    rcases fails with head | ⟨_, -, later⟩
    · exact auditJsonValue_stage value head
    · exact auditMembers_stage rest later

end

end ProtocolAdapter.ConfigCompiler

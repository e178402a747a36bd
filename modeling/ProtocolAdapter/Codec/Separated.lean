/-
This file shows that the builder keeps the parts of a binary message apart: no two
fields or containers share a byte, no two members of a container share a bit, no fixed
byte lies in the checksum or the computed length, and together they cover the static
layout.
-/

import ProtocolAdapter.Codec.Established

namespace ProtocolAdapter.Codec

open Foundation

/-! ### Sorted intervals -/

/-- The order of the intervals is total and transitive. -/
theorem precedes_total (left right : ByteInterval) : left.Precedes right ∨ right.Precedes left := by
  unfold ByteInterval.Precedes
  omega

theorem precedes_trans {first second third : ByteInterval} (left : first.Precedes second)
    (right : second.Precedes third) : first.Precedes third := by
  unfold ByteInterval.Precedes at *
  omega

theorem sortIntervals_sorted (intervals : List ByteInterval) :
    (sortIntervals intervals).Pairwise ByteInterval.Precedes := by
  have : Std.Total ByteInterval.Precedes := ⟨precedes_total⟩
  have : IsTrans ByteInterval ByteInterval.Precedes := ⟨fun _ _ _ => precedes_trans⟩
  exact List.pairwise_insertionSort ByteInterval.Precedes intervals

theorem sortIntervals_perm (intervals : List ByteInterval) :
    (sortIntervals intervals).Perm intervals :=
  List.perm_insertionSort _ intervals

/-- Sorted intervals of which none starts before its predecessor ends are apart. -/
theorem checkOverlap_apart {messageIndex : Nat} :
    ∀ {intervals : List ByteInterval}, checkOverlap messageIndex intervals = .ok () →
      intervals.Pairwise ByteInterval.Precedes →
      intervals.Pairwise fun left right => left.stop ≤ right.start := by
  intro intervals
  induction intervals with
  | nil => exact fun _ _ => .nil
  | cons first rest inductionHypothesis =>
    intro accepted sorted
    obtain ⟨before, sortedRest⟩ := List.pairwise_cons.mp sorted
    cases rest with
    | nil => exact List.pairwise_singleton _ _
    | cons second rest =>
      rw [checkOverlap] at accepted
      split at accepted
      · cases accepted
      · rename_i behind
        have apart := inductionHypothesis accepted sortedRest
        refine List.pairwise_cons.mpr ⟨fun interval member => ?_, apart⟩
        rcases List.mem_cons.mp member with rfl | later
        · omega
        · have order := (List.pairwise_cons.mp sortedRest).1 interval later
          unfold ByteInterval.Precedes at order
          omega

/-- Two intervals share no byte. -/
def IntervalsApart (left right : ByteInterval) : Prop :=
  left.stop ≤ right.start ∨ right.stop ≤ left.start

theorem IntervalsApart.symm {left right : ByteInterval} (apart : IntervalsApart left right) :
    IntervalsApart right left := Or.symm apart

/-! ### Fixed bytes -/

/-- Fixed bytes in the order of their offsets, one for each. -/
def FixedSorted (fixed : List FixedByteExecutionPlan) : Prop :=
  fixed.Pairwise fun left right => left.offset < right.offset

theorem insertFixedByte_spec {offset : Nat} {value : UInt8} :
    ∀ {fixed inserted : List FixedByteExecutionPlan}, FixedSorted fixed →
      insertFixedByte offset value fixed = some inserted →
      FixedSorted inserted ∧ ∀ byte, byte ∈ inserted ↔ byte ∈ fixed ∨ byte = ⟨offset, value⟩ := by
  intro fixed
  induction fixed with
  | nil =>
    intro inserted sorted run
    obtain rfl := Option.some.inj run
    exact ⟨List.pairwise_singleton _ _, by simp⟩
  | cons head rest inductionHypothesis =>
    intro inserted sorted run
    obtain ⟨before, sortedRest⟩ := List.pairwise_cons.mp sorted
    rw [insertFixedByte] at run
    split at run
    · rename_i smaller
      obtain rfl := Option.some.inj run
      refine ⟨List.pairwise_cons.mpr ⟨fun byte member => ?_, sorted⟩, fun byte => ?_⟩
      · rcases List.mem_cons.mp member with rfl | later
        · exact smaller
        · exact smaller.trans (before byte later)
      · rw [List.mem_cons, or_comm]
    · rename_i notSmaller
      split at run
      · rename_i same
        split at run
        · rename_i agrees
          obtain rfl := Option.some.inj run
          refine ⟨sorted, fun byte => ⟨Or.inl, ?_⟩⟩
          rintro (member | rfl)
          · exact member
          · rw [same, agrees]
            exact List.mem_cons_self
        · cases run
      · rename_i different
        obtain ⟨inner, inside, rfl⟩ := Option.map_eq_some_iff.mp run
        obtain ⟨innerSorted, members⟩ := inductionHypothesis sortedRest inside
        refine ⟨List.pairwise_cons.mpr ⟨fun byte member => ?_, innerSorted⟩, fun byte => ?_⟩
        · rcases (members byte).mp member with later | rfl
          · exact before byte later
          · exact lt_of_le_of_ne (Nat.le_of_not_lt notSmaller) fun equal => different equal.symm
        · rw [List.mem_cons, List.mem_cons, members, or_assoc]

theorem insertFixedBytes_spec :
    ∀ {bytes : List UInt8} {offset : Nat} {fixed inserted : List FixedByteExecutionPlan},
      FixedSorted fixed → insertFixedBytes offset bytes fixed = some inserted →
      FixedSorted inserted ∧ ∀ byte, byte ∈ inserted ↔
        byte ∈ fixed ∨ ∃ index, bytes[index]? = some byte.value ∧ byte.offset = offset + index := by
  intro bytes
  induction bytes with
  | nil =>
    intro offset fixed inserted sorted run
    obtain rfl := Option.some.inj run
    exact ⟨sorted, by simp⟩
  | cons value rest inductionHypothesis =>
    intro offset fixed inserted sorted run
    obtain ⟨middle, first, later⟩ := Option.bind_eq_some_iff.mp run
    obtain ⟨middleSorted, middleMembers⟩ := insertFixedByte_spec sorted first
    obtain ⟨insertedSorted, members⟩ := inductionHypothesis middleSorted later
    refine ⟨insertedSorted, fun byte => ?_⟩
    rw [members, middleMembers, or_assoc]
    refine or_congr_right ⟨?_, ?_⟩
    · rintro (rfl | ⟨index, found, place⟩)
      · exact ⟨0, rfl, rfl⟩
      · exact ⟨index + 1, found, by omega⟩
    · rintro ⟨index, found, place⟩
      cases index with
      | zero =>
        obtain rfl : value = byte.value := Option.some.inj found
        exact Or.inl (by rw [← show byte.offset = offset from place])
      | succ index => exact Or.inr ⟨index, found, by omega⟩

/-- A matcher fixes a byte. -/
def MatcherFixes (matcher : MatcherPlan) (byte : FixedByteExecutionPlan) : Prop :=
  matcher.kind = .fixedBytes ∧
    ∃ index, matcher.bytes[index]? = some byte.value ∧ byte.offset = matcher.byteOffset + index

/-- What one matcher adds, and where its bytes lie. -/
theorem collectMatcher_spec {messageIndex : Nat} {message : MessagePlan}
    {fixed collected : List FixedByteExecutionPlan} {item : MatcherPlan × Nat}
    (sorted : FixedSorted fixed)
    (run : collectMatcher messageIndex message fixed item = .ok collected) :
    FixedSorted collected ∧
      (∀ byte, byte ∈ collected ↔ byte ∈ fixed ∨ MatcherFixes item.1 byte) ∧
      (∀ byte, MatcherFixes item.1 byte →
        byte.offset < layoutLimit message.boundedPayload message.frameLengthBytes) ∧
      (item.1.kind = .frameLengthEquals → message.boundedPayload = none ∧
        item.1.lengthBytes = message.frameLengthBytes) := by
  obtain ⟨matcher, matcherIndex⟩ := item
  rw [collectMatcher] at run
  cases kind : matcher.kind with
  | frameLengthEquals =>
    simp only [kind, bind_eq_ok, rejectIf_eq_ok, pure_eq_ok, not_or, not_not] at run
    obtain ⟨_, ⟨fixedSize, -, length⟩, rfl⟩ := run
    refine ⟨sorted, fun byte => ⟨Or.inl, ?_⟩, fun byte fixes => ?_, fun _ => ⟨?_, length⟩⟩
    · rintro (member | ⟨other, -⟩)
      · exact member
      · rw [kind] at other
        cases other
    · obtain ⟨other, -⟩ := fixes
      rw [kind] at other
      cases other
    · simpa using fixedSize
  | fixedBytes =>
    simp only [kind, rejectIf_bind_eq_ok, not_or, not_not] at run
    obtain ⟨⟨-, within⟩, run⟩ := run
    rw [isRangeWithin_iff] at within
    split at run
    · cases run
    · rename_i inserted same
      obtain rfl : inserted = collected := by simpa using run
      obtain ⟨insertedSorted, members⟩ := insertFixedBytes_spec sorted same
      refine ⟨insertedSorted, fun byte => ?_, fun byte fixes => ?_, fun other => ?_⟩
      · rw [members, MatcherFixes, kind]
        simp
      · obtain ⟨-, index, found, place⟩ := fixes
        have inside : index < matcher.bytes.length := (List.getElem?_eq_some_iff.mp found).1
        simp only at place
        omega
      · cases other

/-- The fixed bytes of all matchers: sorted, in the static layout, and exactly the bytes that
some matcher fixes. -/
theorem collectMatchers_spec {messageIndex : Nat} {message : MessagePlan}
    {fixed : List FixedByteExecutionPlan}
    (collected : collectMatchers messageIndex message = .ok fixed) :
    FixedSorted fixed ∧
      (∀ byte, byte ∈ fixed ↔ ∃ matcher ∈ message.matchers, MatcherFixes matcher byte) ∧
      (∀ byte ∈ fixed,
        byte.offset < layoutLimit message.boundedPayload message.frameLengthBytes) ∧
      (∀ matcher ∈ message.matchers, matcher.kind = .frameLengthEquals →
        message.boundedPayload = none ∧ matcher.lengthBytes = message.frameLengthBytes) := by
  simp only [collectMatchers, bind_eq_ok, rejectIf_eq_ok, pure_eq_ok] at collected
  obtain ⟨found, loop, -, -, -, -, rfl⟩ := collected
  have general : ∀ (items : List (MatcherPlan × Nat)) (before after : List FixedByteExecutionPlan),
      FixedSorted before → items.foldlM (collectMatcher messageIndex message) before = .ok after →
      FixedSorted after ∧
        (∀ byte, byte ∈ after ↔ byte ∈ before ∨ ∃ item ∈ items, MatcherFixes item.1 byte) ∧
        (∀ item ∈ items, (∀ byte, MatcherFixes item.1 byte →
            byte.offset < layoutLimit message.boundedPayload message.frameLengthBytes) ∧
          (item.1.kind = .frameLengthEquals → message.boundedPayload = none ∧
            item.1.lengthBytes = message.frameLengthBytes)) := by
    intro items
    induction items with
    | nil =>
      intro before after sorted run
      obtain rfl : before = after := by simpa using run
      exact ⟨sorted, by simp, by simp⟩
    | cons item rest inductionHypothesis =>
      intro before after sorted run
      simp only [List.foldlM_cons, bind_eq_ok] at run
      obtain ⟨middle, first, later⟩ := run
      obtain ⟨middleSorted, middleMembers, inside, length⟩ := collectMatcher_spec sorted first
      obtain ⟨afterSorted, members, restInside⟩ := inductionHypothesis _ _ middleSorted later
      refine ⟨afterSorted, fun byte => ?_, fun other member => ?_⟩
      · rw [members, middleMembers, or_assoc, List.exists_mem_cons_iff]
      · rcases List.mem_cons.mp member with rfl | member
        · exact ⟨inside, length⟩
        · exact restInside other member
  obtain ⟨sorted, members, inside⟩ := general _ _ _ .nil loop
  have listed : ∀ byte, byte ∈ found ↔ ∃ matcher ∈ message.matchers, MatcherFixes matcher byte := by
    intro byte
    rw [members]
    constructor
    · rintro (impossible | ⟨item, member, fixes⟩)
      · cases impossible
      · exact ⟨item.1, List.fst_mem_of_mem_zipIdx member, fixes⟩
    · rintro ⟨matcher, member, fixes⟩
      obtain ⟨index, there⟩ := List.mem_iff_getElem?.mp member
      exact Or.inr ⟨(matcher, index), List.mem_zipIdx_iff_getElem?.mpr there, fixes⟩
  refine ⟨sorted, listed, fun byte member => ?_, fun matcher member => ?_⟩
  · obtain ⟨matcher, there, fixes⟩ := (listed byte).mp member
    obtain ⟨index, place⟩ := List.mem_iff_getElem?.mp there
    exact (inside (matcher, index) (List.mem_zipIdx_iff_getElem?.mpr place)).1 byte fixes
  · obtain ⟨index, place⟩ := List.mem_iff_getElem?.mp member
    exact (inside (matcher, index) (List.mem_zipIdx_iff_getElem?.mpr place)).2

/-- The fixed byte at an offset is the one that is found there. -/
theorem findFixedByte_eq_some {fixed : List FixedByteExecutionPlan} (sorted : FixedSorted fixed)
    {byte : FixedByteExecutionPlan} (member : byte ∈ fixed) :
    findFixedByte fixed byte.offset = some byte.value := by
  induction fixed with
  | nil => cases member
  | cons head rest inductionHypothesis =>
    obtain ⟨before, sortedRest⟩ := List.pairwise_cons.mp sorted
    rw [findFixedByte, List.find?_cons]
    rcases List.mem_cons.mp member with rfl | later
    · simp
    · have different : ¬head.offset = byte.offset := (before byte later).ne
      simp only [different, decide_false]
      exact inductionHypothesis sortedRest later

/-- A range without a fixed byte is apart from every fixed byte. -/
theorem apart_of_fixesByteOf {fixed : List FixedByteExecutionPlan} (sorted : FixedSorted fixed)
    {offset width : Nat} (free : fixesByteOf fixed offset width = false)
    {byte : FixedByteExecutionPlan} (member : byte ∈ fixed) :
    RangesApart offset width byte.offset 1 := by
  unfold RangesApart
  by_contra inside
  have index : byte.offset - offset < width := by omega
  have clear := List.any_eq_false.mp free _ (List.mem_range.mpr index)
  rw [show offset + (byte.offset - offset) = byte.offset by omega,
    findFixedByte_eq_some sorted member] at clear
  simp at clear

section

variable {limits : ResourceProfileLimits} {context : FieldContext} {counts : List Nat}
  {prepared : MessageExecutionPlan} {state : FieldLoopState}
  {fixed : List FixedByteExecutionPlan}

namespace BinaryPrepared

/-! ### Fields and containers -/

/-- The interval of a container. -/
def containerInterval (item : BitContainerPlan × Nat) : ByteInterval :=
  ⟨item.1.byteOffset, item.1.byteOffset + item.1.byteWidth, item.2⟩

theorem intervals_eq (checks : BinaryPrepared limits context counts prepared state fixed) :
    state.fieldIntervals = context.message.bitContainers.zipIdx.map containerInterval ++
      context.message.fields.zipIdx.filterMap (plainInterval context.message) := by
  rw [checks.looped.1, fieldLoop_fieldIntervals checks.placed]
  rfl

/-- All intervals are apart. -/
theorem intervals_apart (checks : BinaryPrepared limits context counts prepared state fixed) :
    (context.message.bitContainers.zipIdx.map containerInterval ++
      context.message.fields.zipIdx.filterMap (plainInterval context.message)).Pairwise
        IntervalsApart := by
  rw [← checks.intervals_eq]
  have sorted := checkOverlap_apart checks.overlap (sortIntervals_sorted _)
  have apart := sorted.imp (S := IntervalsApart) fun behind => Or.inl behind
  exact ((sortIntervals_perm _).pairwise_iff IntervalsApart.symm).mp apart

/-- The interval of a field with its own bytes. -/
theorem plainInterval_eq (checks : BinaryPrepared limits context counts prepared state fixed)
    {index : Nat} {execution : FieldExecutionPlan}
    (found : prepared.fields[index]? = some execution) (plain : isMember execution = false) :
    ∃ field, context.message.fields[index]? = some field ∧
      plainInterval context.message (field, index) =
        some ⟨execution.offset, execution.offset + execution.width, index⟩ := by
  obtain ⟨field, placement, described⟩ := checks.described found
  rw [checks.isMember_eq described] at plain
  refine ⟨field, described.found, ?_⟩
  simp only [plainInterval, plain, Bool.false_eq_true, if_false, described.passed.placed,
    Option.map_some, described.offset_eq, described.width_eq]

theorem plain_apart (checks : BinaryPrepared limits context counts prepared state fixed)
    {left right : Nat} {leftField rightField : FieldExecutionPlan} (order : left < right)
    (leftFound : prepared.fields[left]? = some leftField)
    (rightFound : prepared.fields[right]? = some rightField)
    (leftPlain : isMember leftField = false) (rightPlain : isMember rightField = false) :
    RangesApart leftField.offset leftField.width rightField.offset rightField.width := by
  obtain ⟨leftSource, leftThere, leftInterval⟩ := checks.plainInterval_eq leftFound leftPlain
  obtain ⟨rightSource, rightThere, rightInterval⟩ := checks.plainInterval_eq rightFound rightPlain
  have apart := (List.pairwise_append.mp checks.intervals_apart).2.1
  rw [List.pairwise_filterMap, List.pairwise_iff_getElem] at apart
  obtain ⟨leftBound, leftIs⟩ := List.getElem?_eq_some_iff.mp leftThere
  obtain ⟨rightBound, rightIs⟩ := List.getElem?_eq_some_iff.mp rightThere
  have distant := apart left right (by simpa using leftBound) (by simpa using rightBound) order
  simp only [List.getElem_zipIdx, Nat.zero_add, leftIs, rightIs] at distant
  exact distant _ leftInterval _ rightInterval

theorem containers_apart (checks : BinaryPrepared limits context counts prepared state fixed)
    {left right : Nat} {leftContainer rightContainer : BitContainerExecutionPlan}
    (order : left < right) (leftFound : prepared.bitContainers[left]? = some leftContainer)
    (rightFound : prepared.bitContainers[right]? = some rightContainer) :
    RangesApart leftContainer.offset leftContainer.width
      rightContainer.offset rightContainer.width := by
  rw [checks.containers_eq, List.getElem?_map, Option.map_eq_some_iff] at leftFound rightFound
  obtain ⟨leftSource, leftThere, rfl⟩ := leftFound
  obtain ⟨rightSource, rightThere, rfl⟩ := rightFound
  have apart := (List.pairwise_append.mp checks.intervals_apart).1
  rw [List.pairwise_map, List.pairwise_iff_getElem] at apart
  obtain ⟨leftBound, leftIs⟩ := List.getElem?_eq_some_iff.mp leftThere
  obtain ⟨rightBound, rightIs⟩ := List.getElem?_eq_some_iff.mp rightThere
  have distant := apart left right (by simpa using leftBound) (by simpa using rightBound) order
  simp only [List.getElem_zipIdx, Nat.zero_add, leftIs, rightIs] at distant
  exact distant

theorem plain_container_apart (checks : BinaryPrepared limits context counts prepared state fixed)
    {execution : FieldExecutionPlan} (member : execution ∈ prepared.fields)
    (plain : isMember execution = false) {container : BitContainerExecutionPlan}
    (listed : container ∈ prepared.bitContainers) :
    RangesApart container.offset container.width execution.offset execution.width := by
  obtain ⟨index, found⟩ := List.mem_iff_getElem?.mp member
  obtain ⟨field, there, interval⟩ := checks.plainInterval_eq found plain
  rw [checks.containers_eq] at listed
  obtain ⟨source, sourceListed, rfl⟩ := List.mem_map.mp listed
  obtain ⟨containerIndex, containerThere⟩ := List.mem_iff_getElem?.mp sourceListed
  have apart := (List.pairwise_append.mp checks.intervals_apart).2.2
  refine apart (containerInterval (source, containerIndex)) ?_
    ⟨execution.offset, execution.offset + execution.width, index⟩ ?_
  · exact List.mem_map_of_mem (List.mem_zipIdx_iff_getElem?.mpr containerThere)
  · exact List.mem_filterMap.mpr ⟨(field, index), List.mem_zipIdx_iff_getElem?.mpr there, interval⟩

/-! ### The checksum -/

/-- A checksum that does not move with the payload. -/
theorem integrityStorage_eq {message : MessagePlan} {integrity : IntegrityPlan}
    (has : message.integrity = some integrity) (still : integrity.storageAtPayloadEnd = false) :
    integrityStorage message = some ⟨integrity.storageOffset,
      integrity.storageOffset + integrityStorageWidth integrity, invalidIndex⟩ := by
  rw [integrityStorage, has]
  exact if_neg (by simp [still])

/-- The storage of the checksum is apart from every interval. -/
theorem storage_apart (checks : BinaryPrepared limits context counts prepared state fixed)
    {integrity : IntegrityPlan} (has : context.message.integrity = some integrity)
    (still : integrity.storageAtPayloadEnd = false) {interval : ByteInterval}
    (member : interval ∈ state.fieldIntervals) :
    integrity.storageOffset + integrityStorageWidth integrity ≤ interval.start ∨
      interval.stop ≤ integrity.storageOffset := by
  have accepted := checks.storage
  rw [checkIntegrityStorage, rejectIf_eq_ok, integrityStorage_eq has still, Option.any_some,
    Bool.not_eq_true, List.any_eq_false] at accepted
  have apart := accepted interval ((sortIntervals_perm _).mem_iff.mpr member)
  simp only [Bool.and_eq_true, decide_eq_true_eq] at apart
  omega

theorem interval_of_plain (checks : BinaryPrepared limits context counts prepared state fixed)
    {execution : FieldExecutionPlan} (member : execution ∈ prepared.fields)
    (plain : isMember execution = false) : ∃ index,
      ⟨execution.offset, execution.offset + execution.width, index⟩ ∈ state.fieldIntervals := by
  obtain ⟨index, found⟩ := List.mem_iff_getElem?.mp member
  obtain ⟨field, there, interval⟩ := checks.plainInterval_eq found plain
  rw [checks.intervals_eq]
  exact ⟨index, List.mem_append_right _ (List.mem_filterMap.mpr
    ⟨(field, index), List.mem_zipIdx_iff_getElem?.mpr there, interval⟩)⟩

theorem interval_of_container (checks : BinaryPrepared limits context counts prepared state fixed)
    {container : BitContainerExecutionPlan} (listed : container ∈ prepared.bitContainers) :
    ∃ index, ⟨container.offset, container.offset + container.width, index⟩ ∈
      state.fieldIntervals := by
  rw [checks.containers_eq] at listed
  obtain ⟨source, sourceListed, rfl⟩ := List.mem_map.mp listed
  obtain ⟨index, there⟩ := List.mem_iff_getElem?.mp sourceListed
  rw [checks.intervals_eq]
  exact ⟨index, List.mem_append_left _ (List.mem_map.mpr
    ⟨(source, index), List.mem_zipIdx_iff_getElem?.mpr there, rfl⟩)⟩

theorem checksum_valid (checks : BinaryPrepared limits context counts prepared state fixed)
    {integrity : IntegrityPlan} (has : prepared.integrity = some integrity) :
    ChecksumValid prepared integrity := by
  obtain ⟨-, payload, same, size, bytes⟩ := checks.carried
  rw [same] at has
  obtain ⟨sorted, -, -, -⟩ := collectMatchers_spec checks.matchers
  have accepted := checks.integrity
  simp only [checkIntegrity, has, rejectIf_eq_ok, not_or, Bool.not_eq_true] at accepted
  obtain ⟨-, algorithm, -, -, -, placement⟩ := accepted
  rw [integrityPlacementInvalid.eq_def, ← payload, ← size] at placement
  have still : prepared.boundedPayload = none → integrity.storageAtPayloadEnd = false := by
    intro whole
    simp only [whole, Bool.or_eq_false_iff] at placement
    exact placement.1.1.1.1.2
  refine ⟨?_, fun bounded isBounded => ?_, fun whole => ?_, fun whole execution member plain => ?_,
    fun whole container listed => ?_, fun whole byte member => ?_⟩
  · rw [algorithmValid]
    rw [integrityAlgorithmInvalid] at algorithm
    cases kind : integrity.algorithm <;> simp only [kind] at algorithm ⊢
    simp only [Bool.or_eq_false_iff, Bool.not_eq_false'] at algorithm
    exact algorithm.2
  · simp only [isBounded, Bool.or_eq_false_iff, Bool.not_eq_false'] at placement
    refine ⟨placement.1, ?_⟩
    split
    · rename_i ends
      simpa [ends] using placement.2
    · rename_i short
      have range := placement.2
      rw [if_neg short] at range
      simp only [Bool.or_eq_false_iff, decide_eq_false_iff_not] at range
      omega
  · simp only [whole, Bool.or_eq_false_iff, Bool.not_eq_false', isRangeWithin_iff,
      Bool.and_eq_false_iff, decide_eq_false_iff_not] at placement
    obtain ⟨⟨⟨⟨⟨ends, moves⟩, nonempty⟩, range⟩, storage⟩, apart⟩ := placement
    refine ⟨ends, moves, nonempty, range.2, storage.2, ?_⟩
    unfold RangesApart
    omega
  · obtain ⟨index, interval⟩ := checks.interval_of_plain member plain
    exact checks.storage_apart has (still whole) interval
  · obtain ⟨index, interval⟩ := checks.interval_of_container listed
    exact checks.storage_apart has (still whole) interval
  · have coverage := checks.coverage
    simp only [checkCoverage, rejectIf_bind_eq_ok, rejectIf_eq_ok,
      integrityStorage_eq has (still whole), Option.any_some, Bool.not_eq_true] at coverage
    rw [bytes] at member
    have apart := apart_of_fixesByteOf sorted coverage.1 member
    rwa [Nat.add_sub_cancel_left] at apart

/-! ### The computed length -/

theorem length_free (checks : BinaryPrepared limits context counts prepared state fixed)
    {computed : ComputedLengthPlan} (has : prepared.computedLength = some computed)
    {byte : FixedByteExecutionPlan} (member : byte ∈ prepared.fixedBytes) :
    RangesApart computed.storageOffset computed.storageWidth byte.offset 1 := by
  obtain ⟨same, -, -, -, bytes⟩ := checks.carried
  rw [same] at has
  rw [bytes] at member
  obtain ⟨sorted, -, -, -⟩ := collectMatchers_spec checks.matchers
  have collected := checks.matchers
  simp only [collectMatchers, bind_eq_ok, rejectIf_eq_ok, pure_eq_ok, has, Option.any_some,
    Bool.not_eq_true] at collected
  obtain ⟨found, -, -, -, -, free, rfl⟩ := collected
  exact apart_of_fixesByteOf sorted free member

/-! ### Coverage -/

/-- A byte before the covered end lies in an interval. -/
theorem coveredEnd_spec : ∀ {intervals : List ByteInterval} {covered reach : Nat},
    coveredEnd intervals covered = some reach → ∀ index, covered ≤ index → index < reach →
      ∃ interval ∈ intervals, interval.start ≤ index ∧ index < interval.stop := by
  intro intervals
  induction intervals with
  | nil =>
    intro covered reach run index above below
    obtain rfl : covered = reach := Option.some.inj run
    exact absurd below (Nat.not_lt_of_le above)
  | cons interval rest inductionHypothesis =>
    intro covered reach run index above below
    rw [coveredEnd] at run
    split at run
    · cases run
    · rename_i connected
      by_cases inside : index < interval.stop
      · exact ⟨interval, List.mem_cons_self, by omega, inside⟩
      · obtain ⟨later, member, spans⟩ := inductionHypothesis run index (by omega) below
        exact ⟨later, List.mem_cons_of_mem _ member, spans⟩

/-- The field or the container an interval belongs to. -/
theorem covered_of_interval (checks : BinaryPrepared limits context counts prepared state fixed)
    {interval : ByteInterval} (member : interval ∈ state.fieldIntervals) {index : Nat}
    (inside : interval.start ≤ index ∧ index < interval.stop) : Covered prepared index := by
  rw [checks.intervals_eq, List.mem_append] at member
  rcases member with container | plain
  · obtain ⟨⟨source, containerIndex⟩, listed, rfl⟩ := List.mem_map.mp container
    refine .container (bitContainerExecution source) ?_ inside
    rw [checks.containers_eq]
    exact List.mem_map_of_mem (List.fst_mem_of_mem_zipIdx listed)
  · obtain ⟨⟨field, fieldIndex⟩, listed, same⟩ := List.mem_filterMap.mp plain
    have there := List.mem_zipIdx_iff_getElem?.mp listed
    obtain ⟨placement, execution, found, described⟩ := checks.describe there
    have kind := checks.isMember_eq described
    cases bitfield : field.isBitfield with
    | true => simp [plainInterval, bitfield] at same
    | false =>
      rw [bitfield] at kind
      obtain ⟨other, otherThere, interval⟩ := checks.plainInterval_eq found kind
      obtain rfl := Option.some.inj (there.symm.trans otherThere)
      obtain rfl := Option.some.inj (same.symm.trans interval)
      exact .field execution (List.mem_of_getElem? found) kind inside

theorem covered (checks : BinaryPrepared limits context counts prepared state fixed) {index : Nat}
    (inside : index < storageLimit prepared) : Covered prepared index := by
  obtain ⟨-, payload, integrity, size, bytes⟩ := checks.carried
  have coverage := checks.coverage
  simp only [checkCoverage, rejectIf_bind_eq_ok, rejectIf_eq_ok, Bool.not_eq_false] at coverage
  simp only [coversWholeFrame, Bool.and_eq_true, beq_iff_eq] at coverage
  rw [checks.storageLimit_eq] at inside
  obtain ⟨interval, member, spans⟩ :=
    coveredEnd_spec coverage.2.2 index (Nat.zero_le _) inside
  have listed : interval ∈ sortIntervals state.fieldIntervals ++
      fixed.map (fun byte => ⟨byte.offset, byte.offset + 1, invalidIndex⟩) ++
        (integrityStorage context.message).toList := by
    have unsorted := (sortIntervals_perm _).mem_iff.mp member
    rw [coverageIntervals] at unsorted
    split at unsorted
    · exact List.mem_of_mem_filter unsorted
    · exact unsorted
  simp only [List.mem_append, or_assoc] at listed
  rcases listed with part | part | part
  · exact checks.covered_of_interval ((sortIntervals_perm _).mem_iff.mp part) spans
  · obtain ⟨byte, there, rfl⟩ := List.mem_map.mp part
    exact .fixed byte (bytes ▸ there) (by simp only at spans; omega)
  · rw [Option.mem_toList] at part
    cases has : context.message.integrity with
    | none => simp [integrityStorage, has] at part
    | some rule =>
      cases moves : rule.storageAtPayloadEnd with
      | true => simp [integrityStorage, has, moves] at part
      | false =>
        rw [integrityStorage_eq has moves] at part
        obtain rfl := Option.some.inj part
        have carriedRule : prepared.integrity = some rule := integrity.trans has
        refine .checksum rule carriedRule ?_ spans
        cases isBounded : prepared.boundedPayload with
        | none => rfl
        | some bounded =>
          have atEnd := ((checks.checksum_valid carriedRule).bounded bounded isBounded).1
          rw [moves] at atEnd
          cases atEnd

end BinaryPrepared

end

end ProtocolAdapter.Codec

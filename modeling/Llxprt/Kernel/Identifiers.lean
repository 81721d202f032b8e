import Llxprt.Kernel.Placement
import Llxprt.Kernel.Runs

/-!
# Identifiers along a run

Every move keeps the conversation IR well formed.  Items are inherited from the
state before, up to their placement, or carry identifiers at or above its
watermarks, so an identifier that has been retired never comes back.
-/

namespace Llxprt.Kernel

open Llxprt.Rust Method

namespace ConversationIr

/-- `after` is reached from `before` by minting above the watermarks. -/
structure Succeeds (before after : ConversationIr) : Prop where
  watermark_le : ∀ space, before.namespaceWatermark space ≤ after.namespaceWatermark space
  inherited : ∀ item ∈ after.items,
    before.namespaceWatermark item.id.nameSpace ≤ item.id.value ∨
      ∃ old ∈ before.items, item = { old with placement := item.placement }

theorem Succeeds.refl (ir : ConversationIr) : ir.Succeeds ir where
  watermark_le := fun _ => Nat.le_refl _
  inherited := fun item member => .inr ⟨item, member, rfl⟩

theorem Succeeds.trans {before middle after : ConversationIr} (first : before.Succeeds middle)
    (second : middle.Succeeds after) : before.Succeeds after where
  watermark_le := fun space => Nat.le_trans (first.watermark_le space) (second.watermark_le space)
  inherited := by
    intro item member
    rcases second.inherited item member with minted | ⟨old, oldMember, same⟩
    · exact .inl (Nat.le_trans (first.watermark_le _) minted)
    · have sameId : old.id = item.id := by rw [same]
      rcases first.inherited old oldMember with minted | ⟨older, olderMember, sameOld⟩
      · exact .inl (sameId ▸ minted)
      · right
        refine ⟨older, olderMember, ?_⟩
        rw [same, sameOld]

variable {ir next : ConversationIr} {id : ItemId}

theorem succeeds_relocated (placement : Placement) :
    ir.Succeeds (ir.relocated id (fun item => { item with placement := placement }) placement) where
  watermark_le := by
    intro space
    rw [relocated, attachPlacement_namespaceWatermark]
    exact Nat.le_refl _
  inherited := by
    intro item member
    rw [relocated, attachPlacement_items] at member
    rcases List.mem_map.mp member with ⟨old, oldMember, rfl⟩
    right
    refine ⟨old, oldMember, ?_⟩
    split <;> rfl

theorem wellFormed_of_relocated {placement : Placement} (wellFormed : ir.WellFormed)
    (h : (∃ item ∈ ir.items, item.id = id) ∧
      next = ir.relocated id (fun item => { item with placement := placement }) placement) :
    next.WellFormed ∧ ir.Succeeds next := by
  rcases h with ⟨present, rfl⟩
  constructor
  · apply wellFormed.relocated present
    · intro item
      rfl
    · intro item
      rfl
  · exact succeeds_relocated placement

theorem succeeds_divided {parent : Item} {parts : List (List StoreRange)} :
    ir.Succeeds (ir.divided parent parts) where
  watermark_le := by
    intro space
    rw [divided, enrollAll_namespaceWatermark]
    cases space with
    | append => exact Nat.le_refl _
    | split => exact Nat.le_add_right _ _
  inherited := by
    intro item member
    rw [divided, enrollAll_items] at member
    rcases List.mem_append.mp member with old | child
    · exact .inr ⟨item, List.mem_of_mem_filter old, rfl⟩
    · left
      rcases childrenOf_id child with ⟨minted, above, _, same⟩
      rw [same]
      exact above

end ConversationIr

namespace Reducer

open ConversationIr

section Staging

variable {ir next : ConversationIr} {nextOffset : UInt64} {source : AppendSource} {scope : ScopeId}
  {sequence : Nat} {sanitized : Bytes}

/-- The items an append stages, identified from `value` on. -/
def stagedItems (nextOffset : UInt64) (source : AppendSource) (scope : ScopeId) :
    Nat → List SegmentClaim → List Item
  | _, [] => []
  | value, claim :: claims =>
      stagedItem nextOffset source scope value claim ::
        stagedItems nextOffset source scope (value + 1) claims

theorem stagedItems_ids (value : Nat) (claims : List SegmentClaim) :
    (stagedItems nextOffset source scope value claims).map Item.id =
      (List.range' value claims.length).map ItemId.append := by
  induction claims generalizing value with
  | nil => rfl
  | cons claim claims ih =>
      rw [stagedItems, List.map_cons, ih, List.length_cons, List.range'_succ, List.map_cons]
      rfl

theorem stagedItems_fits {value : Nat} {claims : List SegmentClaim} {item : Item}
    (member : item ∈ stagedItems nextOffset source scope value claims) :
    item.byteRange = enclosing item.provenance ∧ idFitsProvenance item.id item.provenance = true := by
  induction claims generalizing value with
  | nil => simp [stagedItems] at member
  | cons claim claims ih =>
      rcases List.mem_cons.mp member with rfl | member
      · exact ⟨rfl, rfl⟩
      · exact ih member

/-- The staging loop never meets a duplicate above the watermark. -/
theorem stageItems_of_below {value : Nat} {claims : List SegmentClaim}
    (below : ∀ item ∈ ir.items, item.id.value < ir.namespaceWatermark item.id.nameSpace)
    (above : ir.nextAppendId ≤ value) :
    stageItems ir nextOffset source scope value claims =
      .ok (stagedItems nextOffset source scope value claims) := by
  induction claims generalizing value with
  | nil => rfl
  | cons claim claims ih =>
      have noDuplicate : ¬ (ir.items.any fun item => item.id = .append value) = true := by
        intro duplicate
        rcases List.any_eq_true.mp duplicate with ⟨existing, member, same⟩
        have under := below existing member
        rw [of_decide_eq_true same] at under
        exact absurd under (Nat.not_lt.mpr above)
      rw [stageItems, ih (Nat.le_succ_of_le above)]
      simp only [reject, if_neg noDuplicate]
      rfl

theorem stageItems_eq_ok {claims : List SegmentClaim} {staged : List Item}
    (wellFormed : ir.WellFormed)
    (h : stageItems ir nextOffset source scope ir.nextAppendId claims = .ok staged) :
    staged = stagedItems nextOffset source scope ir.nextAppendId claims := by
  rw [stageItems_of_below wellFormed.below (Nat.le_refl _)] at h
  exact (Except.ok.inj h).symm

theorem claimsOf_ne_nil {claims segmented : List SegmentClaim}
    (h : claimsOf claims sanitized sequence = .ok segmented) : segmented ≠ [] := by
  unfold claimsOf at h
  split at h
  · cases h
    simp
  · rename_i nonempty
    split at h
    · cases h
      exact nonempty
    · cases h

/-- The IR after the items of an append have been inserted. -/
def appended (ir : ConversationIr) (nextOffset : UInt64) (source : AppendSource) (scope : ScopeId)
    (claims : List SegmentClaim) : ConversationIr :=
  enrollAll { ir with nextAppendId := ir.nextAppendId + claims.length }
    (stagedItems nextOffset source scope ir.nextAppendId claims)

theorem stagedItems_id {value : Nat} {claims : List SegmentClaim} {item : Item}
    (member : item ∈ stagedItems nextOffset source scope value claims) :
    ∃ minted, value ≤ minted ∧ minted < value + claims.length ∧ item.id = .append minted := by
  have idMember := List.mem_map_of_mem (f := Item.id) member
  rw [stagedItems_ids] at idMember
  rcases List.mem_map.mp idMember with ⟨minted, inRange, same⟩
  rw [List.mem_range'_1] at inRange
  exact ⟨minted, inRange.1, inRange.2, same.symm⟩

theorem stagedItems_below {claims : List SegmentClaim} {item : Item}
    (member : item ∈ stagedItems nextOffset source scope ir.nextAppendId claims) :
    item.id.value < namespaceWatermark
      { ir with nextAppendId := ir.nextAppendId + claims.length } item.id.nameSpace := by
  rcases stagedItems_id member with ⟨minted, _, under, same⟩
  rw [same]
  exact under

theorem stagedItems_fresh {claims : List SegmentClaim} {item : Item} (wellFormed : ir.WellFormed)
    (member : item ∈ stagedItems nextOffset source scope ir.nextAppendId claims) :
    item.id ∉ ir.items.map Item.id := by
  intro duplicate
  rcases stagedItems_id member with ⟨minted, above, _, same⟩
  rcases List.mem_map.mp duplicate with ⟨existing, existingMember, sameId⟩
  have under := wellFormed.below existing existingMember
  rw [sameId, same] at under
  exact absurd under (Nat.not_lt.mpr above)

theorem stagedItems_nodup (value : Nat) (claims : List SegmentClaim) :
    ((stagedItems nextOffset source scope value claims).map Item.id).Nodup := by
  rw [stagedItems_ids]
  refine (List.nodup_range').map ?_
  intro left right same
  exact congrArg ItemId.value same

/-- Raising the watermark first makes the insertions infallible. -/
theorem insertAll_staged {claims : List SegmentClaim} (wellFormed : ir.WellFormed)
    (nonempty : claims ≠ []) :
    insertAll (stagedItems nextOffset source scope ir.nextAppendId claims)
        (ir.noteMintedId (.append (ir.nextAppendId + claims.length - 1))) =
      (.ok (), appended ir nextOffset source scope claims) := by
  have positive : 0 < claims.length := List.length_pos_of_ne_nil nonempty
  have noted : ir.noteMintedId (.append (ir.nextAppendId + claims.length - 1)) =
      { ir with nextAppendId := ir.nextAppendId + claims.length } := by
    have raises : ir.nextAppendId ≤ ir.nextAppendId + claims.length - 1 := by omega
    have exact : ir.nextAppendId + claims.length - 1 + 1 = ir.nextAppendId + claims.length := by
      omega
    simp only [noteMintedId, ItemId.append, if_pos raises, exact]
  rw [noted]
  apply insertAll_of_fresh
  · exact stagedItems_nodup _ _
  · exact fun _ => stagedItems_fresh wellFormed
  · exact fun item member => (stagedItems_fits member).2
  · exact fun _ => stagedItems_below

theorem appends_eq {claims : List SegmentClaim} (wellFormed : ir.WellFormed)
    (h : Appends ir nextOffset sequence source sanitized scope claims next) :
    ∃ segmented, claimsOf claims sanitized sequence = .ok segmented ∧
      next = appended ir nextOffset source scope segmented := by
  rcases h with ⟨segmented, staged, segmentedOk, stagedOk, insertedOk⟩
  rw [stageItems_eq_ok wellFormed stagedOk,
    insertAll_staged wellFormed (claimsOf_ne_nil segmentedOk)] at insertedOk
  exact ⟨segmented, segmentedOk, (Prod.ext_iff.mp insertedOk).2.symm⟩

theorem wellFormed_appended {claims : List SegmentClaim} (wellFormed : ir.WellFormed) :
    (appended ir nextOffset source scope claims).WellFormed := by
  have raised := wellFormed.raise (Nat.le_add_right ir.nextAppendId claims.length)
    (Nat.le_refl ir.nextSplitId)
  apply raised.enrollAll
  · exact stagedItems_nodup _ _
  · exact fun _ => stagedItems_fresh wellFormed
  · exact fun _ => stagedItems_below

theorem succeeds_appended {claims : List SegmentClaim} :
    ir.Succeeds (appended ir nextOffset source scope claims) where
  watermark_le := by
    intro space
    rw [appended, enrollAll_namespaceWatermark]
    cases space with
    | append => exact Nat.le_add_right _ _
    | split => exact Nat.le_refl _
  inherited := by
    intro item member
    rw [appended, enrollAll_items] at member
    rcases List.mem_append.mp member with old | staged
    · exact .inr ⟨item, old, rfl⟩
    · left
      rcases stagedItems_id staged with ⟨minted, above, _, same⟩
      rw [same]
      exact above

theorem resegments_eq {subject argument offset : UInt64} (wellFormed : ir.WellFormed)
    (h : Resegments ir nextOffset subject argument next offset) :
    ∃ parent ranges, ir.item (.new subject.toNat) = .ok parent ∧
      resegmentParts subject (normalize parent.provenance)
        (if argument = 0 then 1 else argument) = .ok ranges ∧
      checkSplit parent ranges
        ⟨(if argument = 0 then 1 else argument).toNat, ranges.map List.length⟩ = .ok () ∧
      next = ir.divided parent ranges ∧ offset = max nextOffset parent.byteRange.endOffset := by
  rcases h with ⟨parent, ranges, children, found, rangesOk, splitOk, moved⟩
  rcases split_eq_ok wellFormed splitOk with ⟨same, sameFound, checked, divided⟩
  rw [found] at sameFound
  cases sameFound
  exact ⟨parent, ranges, found, rangesOk, checked, divided, moved⟩

end Staging

/-- Every move keeps the IR well formed and mints above its watermarks. -/
theorem move_wellFormed {sequence : Nat} {kind : EventKind} {core next : Core}
    (move : Moves sequence kind core next) (wellFormed : core.conversationIr.WellFormed) :
    next.conversationIr.WellFormed ∧ core.conversationIr.Succeeds next.conversationIr := by
  cases move with
  | quiet | commanded | admitted | versioned | selected => exact ⟨wellFormed, .refl _⟩
  | appended appends | invalidated appends =>
      rcases appends_eq wellFormed appends with ⟨segmented, _, rfl⟩
      exact ⟨wellFormed_appended wellFormed, succeeds_appended⟩
  | placed places =>
      exact wellFormed_of_relocated wellFormed (place_eq_ok wellFormed places)
  | unplaced _ unplaces =>
      exact wellFormed_of_relocated wellFormed (unplace_eq_ok wellFormed unplaces)
  | resegmented resegments =>
      rcases resegments_eq wellFormed resegments with ⟨parent, ranges, _, _, _, rfl, _⟩
      exact ⟨wellFormed.divided, succeeds_divided⟩

theorem run_wellFormed {events : List RecordedEvent} {core final : Core}
    (run : Run events core final) (wellFormed : core.conversationIr.WellFormed) :
    final.conversationIr.WellFormed ∧ core.conversationIr.Succeeds final.conversationIr := by
  induction run with
  | nil => exact ⟨wellFormed, .refl _⟩
  | cons move _ ih =>
      rcases move_wellFormed move wellFormed with ⟨moved, first⟩
      rcases ih moved with ⟨last, rest⟩
      exact ⟨last, first.trans rest⟩

section Folds

variable [Wire] {window : Nat} {log : EventLog} {state : TypedState}

theorem fold_wellFormed (folds : fold window log = .ok state) :
    state.conversationIr.WellFormed :=
  (run_wellFormed (fold_run folds) wellFormed_new).1

theorem fold_succeeds (folds : fold window log = .ok state) {count : Nat} {before : TypedState}
    (beforeOk : fold window (log.prefixLog count) = .ok before) :
    before.conversationIr.Succeeds state.conversationIr :=
  (run_wellFormed (fold_runs folds count beforeOk).2 (fold_wellFormed beforeOk)).2

/-- The representation invariant of the conversation IR in every folded state.
Identifiers of all earlier states lie below the final watermarks, and whatever is
not inherited from an earlier state lies at or above the watermarks of that
state, so an identifier retired earlier is never minted again. -/
theorem ir_invariant (window : Nat) (log : EventLog) (state : TypedState)
    (folds : fold window log = .ok state) :
    state.conversationIr.WellFormed ∧
    ∀ count before, fold window (log.prefixLog count) = .ok before →
      (∀ item ∈ before.conversationIr.items,
        item.id.value < state.conversationIr.namespaceWatermark item.id.nameSpace) ∧
      (∀ item ∈ state.conversationIr.items,
        before.conversationIr.namespaceWatermark item.id.nameSpace ≤ item.id.value ∨
          ∃ old ∈ before.conversationIr.items, item = { old with placement := item.placement }) ∧
      ∀ earlier first, earlier ≤ count → fold window (log.prefixLog earlier) = .ok first →
        ∀ id ∈ first.conversationIr.items.map Item.id,
          id ∉ before.conversationIr.items.map Item.id →
          id ∉ state.conversationIr.items.map Item.id := by
  refine ⟨fold_wellFormed folds, ?_⟩
  intro count before beforeOk
  have succeeds := fold_succeeds folds beforeOk
  refine ⟨?_, succeeds.inherited, ?_⟩
  · intro item member
    exact Nat.lt_of_lt_of_le ((fold_wellFormed beforeOk).below item member)
      (succeeds.watermark_le _)
  · intro earlier first ordered firstOk id used retired reused
    rcases List.mem_map.mp used with ⟨original, originalMember, rfl⟩
    rcases List.mem_map.mp reused with ⟨item, member, same⟩
    rw [← EventLog.prefixLog_prefixLog log ordered] at firstOk
    have below := Nat.lt_of_lt_of_le ((fold_wellFormed firstOk).below original originalMember)
      ((fold_succeeds beforeOk firstOk).watermark_le _)
    rcases succeeds.inherited item member with minted | ⟨old, oldMember, inherited⟩
    · rw [same] at minted
      exact absurd below (Nat.not_lt.mpr minted)
    · have kept : old.id = original.id := by
        rw [← same, inherited]
      exact retired (List.mem_map.mpr ⟨old, oldMember, kept⟩)

end Folds

section Sample

local instance divisionWire : Wire := .emptySession

/-- The greeting placed in the head region and cut in two. -/
def dividedLog : EventLog :=
  (greetingLog.record 1 1002 (.operationCommit .place 0 1)).record 1 1003
    (.operationCommit .resegment 0 2)

/-- The invariant after the greeting has been retired in favour of its parts. -/
theorem divided_greeting_invariant :
    ∃ state before, fold idlenessWindow dividedLog = .ok state ∧
      fold idlenessWindow (dividedLog.prefixLog 3) = .ok before ∧
      state.conversationIr.WellFormed ∧
      ∀ item ∈ before.conversationIr.items,
        item.id.value < state.conversationIr.namespaceWatermark item.id.nameSpace := by
  have succeeds : (fold idlenessWindow dividedLog).isOk = true := by
    decide +kernel
  rcases Outcome.isOk_iff.mp succeeds with ⟨state, folds⟩
  rcases exists_fold_prefixLog folds 3 with ⟨before, beforeOk⟩
  have invariant := ir_invariant idlenessWindow dividedLog state folds
  exact ⟨state, before, folds, beforeOk, invariant.1, (invariant.2 3 before beforeOk).1⟩

end Sample

end Reducer

end Llxprt.Kernel

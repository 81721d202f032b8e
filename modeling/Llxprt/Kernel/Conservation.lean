import Llxprt.Kernel.Bytes
import Llxprt.Kernel.Identifiers

/-!
# Byte conservation

The provenance ranges of the items tile the bytes of the committed appends.
Appends and ingress admissions move the end of the spine; everything else only
regroups ranges that are already there.
-/

namespace Llxprt.Kernel

open Llxprt.Rust Method Tiling

/-- The provenance ranges of all items. -/
def ConversationIr.ranges (ir : ConversationIr) : List StoreRange :=
  ir.items.flatMap Item.provenance

/-- How far an event moves the end of the spine. -/
def EventKind.advance : EventKind → Nat
  | .append _ sanitized _ _ => sanitized.length
  | .ledger (.factInvalidate result _) => result.sanitized.length
  | .operationCommit .admitIngress _ argument => argument.toNat
  | _ => 0

/-- The bytes that an event appends at the end of the spine. -/
def EventKind.appendedAt (offset : Nat) : EventKind → Finset Nat
  | .append _ sanitized _ _ => Finset.Ico offset (offset + sanitized.length)
  | .ledger (.factInvalidate result _) => Finset.Ico offset (offset + result.sanitized.length)
  | _ => ∅

/-- The bytes of the committed appends of a log whose spine starts at `offset`. -/
def appendedBytes (offset : Nat) : List RecordedEvent → Finset Nat
  | [] => ∅
  | event :: events =>
      event.kind.appendedAt offset ∪ appendedBytes (offset + event.kind.advance) events

/-- The ends and the total length of the recorded claims are machine integers. -/
def EventKind.SpansFit : EventKind → Prop
  | .append _ _ _ claims =>
      (∀ claim ∈ claims, claim.span.Fits) ∧
        (claims.map fun claim => claim.span.length.toNat).sum < 2 ^ 64
  | _ => True

instance : DecidablePred EventKind.SpansFit
  | .append .. => inferInstanceAs (Decidable (_ ∧ _))
  | .semantic _ | .branch _ | .security _ | .ledger _ | .operationCommit .. | .providerTurn .. =>
      .isTrue trivial

/-- No sum that the log drives the reducer to form overflows. -/
structure WithinU64 (events : List RecordedEvent) : Prop where
  advances : (events.map fun event => event.kind.advance).sum < 2 ^ 64
  spans : ∀ event ∈ events, event.kind.SpansFit

/-- The ranges tile the appended bytes, below the end of the spine. -/
structure Accounts (ir : ConversationIr) (nextOffset : UInt64) (appended : Finset Nat) : Prop where
  tiles : Tiles (ir.ranges.map StoreRange.bytes) appended
  below : ∀ byte ∈ appended, byte < nextOffset.toNat
  enclosed : ∀ item ∈ ir.items, item.byteRange = enclosing item.provenance

namespace Accounts

variable {ir : ConversationIr} {nextOffset : UInt64} {appended : Finset Nat} {id : ItemId}

theorem of_relocated {placement : Placement} {next : ConversationIr}
    (accounts : Accounts ir nextOffset appended)
    (moved : next = ir.relocated id (fun item => { item with placement := placement }) placement) :
    Accounts next nextOffset appended := by
  subst moved
  have items : (ir.relocated id (fun item => { item with placement := placement }) placement).items =
      ir.items.map fun item => if item.id = id then { item with placement := placement } else item := by
    rw [ConversationIr.relocated, ConversationIr.attachPlacement_items]
  constructor
  · have ranges : (ir.relocated id (fun item => { item with placement := placement })
        placement).ranges = ir.ranges := by
      rw [ConversationIr.ranges, items, List.flatMap_map]
      apply List.flatMap_congr
      intro item _
      split <;> rfl
    rw [ranges]
    exact accounts.tiles
  · exact accounts.below
  · rw [items]
    intro item member
    rcases List.mem_map.mp member with ⟨original, originalMember, rfl⟩
    have enclosed := accounts.enclosed original originalMember
    split
    · exact enclosed
    · exact enclosed

/-- The bytes of the ranges of an item lie below the end of the spine. -/
theorem bytes_lt (accounts : Accounts ir nextOffset appended) {item : Item}
    (member : item ∈ ir.items) {byte : Nat} (covered : Covers item.provenance byte) :
    byte < nextOffset.toNat := by
  rcases covered with ⟨range, rangeMember, inRange⟩
  apply accounts.below
  apply accounts.tiles.mem_iff.mpr
  exact ⟨range.bytes, List.mem_map_of_mem (List.mem_flatMap.mpr ⟨item, member, rangeMember⟩),
    inRange⟩

theorem fits (accounts : Accounts ir nextOffset appended) {item : Item} (member : item ∈ ir.items)
    {range : StoreRange} (rangeMember : range ∈ item.provenance) (positive : 0 < range.length) :
    range.Fits :=
  (fits_of_bytes_lt positive fun _ inRange =>
    accounts.bytes_lt member ⟨range, rangeMember, inRange⟩).1

/-- No item reaches past the end of the spine. -/
theorem endOffset_le (accounts : Accounts ir nextOffset appended) {item : Item}
    (member : item ∈ ir.items) : item.byteRange.endOffset ≤ nextOffset := by
  rw [accounts.enclosed item member]
  apply enclosing_endOffset_le
  intro range rangeMember
  have normalized := normalize_spec fun _ inItem => accounts.fits member inItem
  apply (fits_of_bytes_lt (normalized.1 range rangeMember).1 _).2
  intro byte inRange
  exact accounts.bytes_lt member ((normalized.2.2 byte).mp ⟨range, rangeMember, inRange⟩)

/-- Items of a well-formed IR, with one of them singled out. -/
theorem items_perm (wellFormed : ir.WellFormed) {parent : Item} (member : parent ∈ ir.items) :
    ir.items.Perm (parent :: ir.items.filter fun item => item.id ≠ parent.id) := by
  have nodup : ir.items.Nodup := wellFormed.ids_nodup.of_map
  have others : (ir.items.filter fun item => item.id ≠ parent.id) = ir.items.erase parent := by
    rw [nodup.erase_eq_filter]
    apply List.filter_congr
    intro item itemMember
    have same : item.id = parent.id ↔ item = parent :=
      ⟨fun sameId => List.inj_on_of_nodup_map wellFormed.ids_nodup itemMember member sameId,
        fun sameItem => sameItem ▸ rfl⟩
    simp [same, bne, beq_eq_decide]
  rw [others]
  exact List.perm_cons_erase member

/-- No byte is claimed twice within one item. -/
theorem once (accounts : Accounts ir nextOffset appended) {item : Item} (member : item ∈ ir.items)
    (byte : Nat) : hits (item.provenance.map StoreRange.bytes) byte ≤ 1 := by
  rcases List.append_of_mem member with ⟨before, after, shape⟩
  have total := hits_le_one_iff.mpr accounts.tiles.disjoint byte
  rw [ConversationIr.ranges, shape, List.flatMap_append, List.flatMap_cons, List.map_append,
    List.map_append, hits_append, hits_append] at total
  omega

theorem childrenOf_ranges (parent : Item) (value : Nat) (parts : List (List StoreRange)) :
    (ConversationIr.childrenOf parent value parts).flatMap Item.provenance = parts.flatten := by
  induction parts generalizing value with
  | nil => rfl
  | cons part parts ih =>
      rw [ConversationIr.childrenOf, List.flatMap_cons, ih, List.flatten_cons]
      rfl

/-- Replacing an item by children with the same bytes. -/
theorem divided (accounts : Accounts ir nextOffset appended) (wellFormed : ir.WellFormed)
    {parent : Item} (member : parent ∈ ir.items) {parts : List (List StoreRange)}
    (same : ∀ byte, hits (parts.flatten.map StoreRange.bytes) byte =
      hits (parent.provenance.map StoreRange.bytes) byte) :
    Accounts (ir.divided parent parts) nextOffset appended := by
  let others := ir.items.filter fun item => item.id ≠ parent.id
  have items : (ir.divided parent parts).items =
      others ++ ConversationIr.childrenOf parent ir.nextSplitId parts := by
    rw [ConversationIr.divided, ConversationIr.enrollAll_items]
    rfl
  constructor
  · apply accounts.tiles.of_hits
    intro byte
    have singled := hits_perm (((items_perm wellFormed member).flatMap_right
      Item.provenance).map StoreRange.bytes) byte
    rw [List.flatMap_cons, List.map_append, hits_append] at singled
    rw [ConversationIr.ranges, ConversationIr.ranges, singled, items, List.flatMap_append,
      childrenOf_ranges, List.map_append, hits_append, same byte]
    exact Nat.add_comm _ _
  · exact accounts.below
  · rw [items]
    intro item itemMember
    rcases List.mem_append.mp itemMember with old | child
    · exact accounts.enclosed item (List.mem_of_mem_filter old)
    · exact (ConversationIr.childrenOf_alike child).2.2

end Accounts

section Resegmentation

variable {provenance : List StoreRange} {parts : List (List StoreRange)} {subject count : UInt64}

/-- The parts a resegment requests never overlap and stay inside the claims. -/
theorem resegmentParts_hits (fits : ∀ range ∈ provenance, 0 < range.length → range.Fits)
    (requested : Reducer.resegmentParts subject (normalize provenance) count = .ok parts)
    (byte : Nat) :
    hits (parts.flatten.map StoreRange.bytes) byte ≤
      hits ((normalize provenance).map StoreRange.bytes) byte := by
  unfold Reducer.resegmentParts at requested
  split at requested
  · rw [bind_eq_ok] at requested
    rcases requested with ⟨_, _, whole⟩
    rw [pure_eq_ok] at whole
    subst whole
    have single (claims : List StoreRange) : (claims.map fun claim => [claim]).flatten = claims := by
      induction claims with
      | nil => rfl
      | cons claim claims ih => rw [List.map_cons, List.flatten_cons, ih, List.singleton_append]
    rw [single]
  · cases requested
    exact sliceInto_hits (fun range member => ((normalize_spec fits).1 range member).2) count byte

/-- A committed resegment regroups the bytes of its parent. -/
theorem resegmentParts_same {nextOffset : UInt64}
    (fits : ∀ range ∈ provenance, 0 < range.length → range.Fits)
    (below : ∀ byte, Covers provenance byte → byte < nextOffset.toNat)
    (once : ∀ byte, hits (provenance.map StoreRange.bytes) byte ≤ 1)
    (requested : Reducer.resegmentParts subject (normalize provenance) count = .ok parts)
    (covers : coversExactly parts.flatten provenance = true) (byte : Nat) :
    hits (parts.flatten.map StoreRange.bytes) byte =
      hits (provenance.map StoreRange.bytes) byte := by
  have normalized := normalize_spec fits
  have inside := resegmentParts_hits fits requested
  have partsCovered : ∀ byte, Covers parts.flatten byte → Covers provenance byte := by
    rintro byte ⟨range, member, inRange⟩
    have hit : 0 < hits ((normalize provenance).map StoreRange.bytes) byte :=
      Nat.lt_of_lt_of_le (hits_pos.mpr ⟨_, List.mem_map_of_mem member, inRange⟩) (inside byte)
    rcases hits_pos.mp hit with ⟨_, setMember, inSet⟩
    rcases List.mem_map.mp setMember with ⟨claim, claimMember, rfl⟩
    exact (normalized.2.2 byte).mp ⟨claim, claimMember, inSet⟩
  have partsFit : ∀ range ∈ parts.flatten, 0 < range.length → range.Fits := by
    intro range member positive
    have inside : ∀ byte ∈ range.bytes, byte < nextOffset.toNat := by
      intro byte inRange
      exact below byte (partsCovered byte ⟨range, member, inRange⟩)
    exact (fits_of_bytes_lt positive inside).1
  have sameNormal : normalize parts.flatten = normalize provenance := by
    rw [coversExactly, Bool.and_eq_true, decide_eq_true_eq, decide_eq_true_eq] at covers
    exact covers.2
  have sameCover : Covers parts.flatten byte ↔ Covers provenance byte := by
    rw [← (normalize_spec partsFit).2.2 byte, sameNormal, normalized.2.2 byte]
  have partsOnce : hits (parts.flatten.map StoreRange.bytes) byte ≤ 1 :=
    Nat.le_trans (inside byte) (hits_le_one_of_apart normalized.1 normalized.2.1 byte)
  have hit (ranges : List StoreRange) :
      0 < hits (ranges.map StoreRange.bytes) byte ↔ Covers ranges byte := by
    rw [hits_pos]
    simp [Covers]
  have provenanceOnce := once byte
  have both := (hit parts.flatten).trans (sameCover.trans (hit provenance).symm)
  omega

end Resegmentation

section Appending

variable {claims segmented : List SegmentClaim} {sanitized : Bytes} {sequence : Nat}

/-- The claims of a committed append tile its payload. -/
theorem claims_tile (spans : (∀ claim ∈ claims, claim.span.Fits) ∧
      (claims.map fun claim => claim.span.length.toNat).sum < 2 ^ 64)
    (length : sanitized.length < 2 ^ 64)
    (segmentedOk : Reducer.claimsOf claims sanitized sequence = .ok segmented) :
    Tiles (segmented.map fun claim => claim.span.bytes) (Finset.range sanitized.length) := by
  have payloadLength : (UInt64.ofNat sanitized.length).toNat = sanitized.length :=
    UInt64.toNat_ofNat_of_lt' length
  unfold Reducer.claimsOf at segmentedOk
  split at segmentedOk
  · cases segmentedOk
    simpa [Reducer.payload, StoreRange.bytes, payloadLength] using
      tiles_singleton (Finset.range sanitized.length)
  · split at segmentedOk
    · rename_i covers
      cases segmentedOk
      have fits : ∀ range ∈ claims.map SegmentClaim.span, range.Fits := by
        intro range member
        rcases List.mem_map.mp member with ⟨claim, claimMember, rfl⟩
        exact spans.1 claim claimMember
      have tiled := tiles_of_coversExactly fits (by rw [List.map_map]; exact spans.2) covers
      rw [payloadLength, List.map_map] at tiled
      exact tiled
    · cases segmentedOk

/-- The range of a claim at the end of the spine. -/
def SegmentClaim.shifted (nextOffset : UInt64) (claim : SegmentClaim) : StoreRange :=
  ⟨nextOffset + claim.span.offset, claim.span.length⟩

theorem stagedItems_ranges {nextOffset : UInt64} {source : AppendSource} {scope : ScopeId}
    (value : Nat) (claims : List SegmentClaim) :
    (Reducer.stagedItems nextOffset source scope value claims).flatMap Item.provenance =
      claims.map (SegmentClaim.shifted nextOffset) := by
  induction claims generalizing value with
  | nil => rfl
  | cons claim claims ih =>
      rw [Reducer.stagedItems, List.flatMap_cons, ih, List.map_cons]
      rfl

/-- A claim inside the payload does not wrap when it is shifted. -/
theorem mem_shifted {nextOffset : UInt64} {claim : SegmentClaim} {length byte : Nat}
    (inside : claim.span.bytes ⊆ Finset.range length) (room : nextOffset.toNat + length < 2 ^ 64) :
    byte ∈ (claim.shifted nextOffset).bytes ↔
      nextOffset.toNat ≤ byte ∧ byte - nextOffset.toNat ∈ claim.span.bytes := by
  rw [StoreRange.mem_bytes, StoreRange.mem_bytes]
  by_cases empty : claim.span.length.toNat = 0
  · simp only [SegmentClaim.shifted, empty]
    omega
  · have last := inside (StoreRange.mem_bytes.mpr
      (⟨by omega, by omega⟩ : _ ≤ claim.span.offset.toNat + claim.span.length.toNat - 1 ∧ _))
    rw [Finset.mem_range] at last
    have start : (nextOffset + claim.span.offset).toNat =
        nextOffset.toNat + claim.span.offset.toNat := by
      rw [UInt64.toNat_add]
      apply Nat.mod_eq_of_lt
      omega
    simp only [SegmentClaim.shifted, start]
    omega

/-- The same claims at the end of the spine. -/
theorem staged_tile {nextOffset : UInt64} {source : AppendSource} {scope : ScopeId} {value : Nat}
    (tiled : Tiles (segmented.map fun claim => claim.span.bytes) (Finset.range sanitized.length))
    (room : nextOffset.toNat + sanitized.length < 2 ^ 64) :
    Tiles (((Reducer.stagedItems nextOffset source scope value segmented).flatMap
      Item.provenance).map StoreRange.bytes)
      (Finset.Ico nextOffset.toNat (nextOffset.toNat + sanitized.length)) := by
  have inside : ∀ claim ∈ segmented, claim.span.bytes ⊆ Finset.range sanitized.length :=
    fun claim member => tiled.subset (List.mem_map_of_mem member)
  rw [stagedItems_ranges, List.map_map]
  intro byte
  by_cases low : nextOffset.toNat ≤ byte
  · have shifts : hits (segmented.map (StoreRange.bytes ∘ SegmentClaim.shifted nextOffset)) byte =
        hits (segmented.map fun claim => claim.span.bytes) (byte - nextOffset.toNat) := by
      unfold hits
      rw [List.countP_map, List.countP_map]
      apply List.countP_congr
      intro claim member
      have shifted := @mem_shifted nextOffset claim sanitized.length byte (inside claim member) room
      simpa [low] using shifted
    rw [shifts, tiled]
    simp only [Finset.mem_range, Finset.mem_Ico]
    split_ifs <;> omega
  · have unhit : ¬ 0 < hits (segmented.map (StoreRange.bytes ∘ SegmentClaim.shifted nextOffset))
        byte := by
      rw [hits_pos]
      rintro ⟨_, setMember, inSet⟩
      rcases List.mem_map.mp setMember with ⟨claim, member, rfl⟩
      exact low ((mem_shifted (inside claim member) room).mp inSet).1
    rw [if_neg (by rw [Finset.mem_Ico]; omega)]
    omega

/-- A committed append extends the tiling by its payload. -/
theorem Accounts.appended {ir : ConversationIr} {nextOffset : UInt64} {appended : Finset Nat}
    {source : AppendSource} {scope : ScopeId} (accounts : Accounts ir nextOffset appended)
    (tiled : Tiles (segmented.map fun claim => claim.span.bytes) (Finset.range sanitized.length))
    (room : nextOffset.toNat + sanitized.length < 2 ^ 64) :
    Accounts (Reducer.appended ir nextOffset source scope segmented)
        (nextOffset + UInt64.ofNat sanitized.length)
        (appended ∪ Finset.Ico nextOffset.toNat (nextOffset.toNat + sanitized.length)) ∧
      (nextOffset + UInt64.ofNat sanitized.length).toNat = nextOffset.toNat + sanitized.length := by
  have payloadLength : (UInt64.ofNat sanitized.length).toNat = sanitized.length :=
    UInt64.toNat_ofNat_of_lt' (Nat.lt_of_le_of_lt (Nat.le_add_left _ _) room)
  have moved : (nextOffset + UInt64.ofNat sanitized.length).toNat =
      nextOffset.toNat + sanitized.length := by
    rw [UInt64.toNat_add, payloadLength]
    exact Nat.mod_eq_of_lt room
  have items : (Reducer.appended ir nextOffset source scope segmented).items =
      ir.items ++ Reducer.stagedItems nextOffset source scope ir.nextAppendId segmented := by
    rw [Reducer.appended, ConversationIr.enrollAll_items]
  refine ⟨⟨?_, ?_, ?_⟩, moved⟩
  · rw [ConversationIr.ranges, items, List.flatMap_append, List.map_append]
    apply accounts.tiles.append (staged_tile tiled room)
    rw [Finset.disjoint_left]
    intro byte old fresh
    have below := accounts.below byte old
    rw [Finset.mem_Ico] at fresh
    omega
  · intro byte member
    rw [moved]
    rcases Finset.mem_union.mp member with old | fresh
    · have below := accounts.below byte old
      omega
    · exact (Finset.mem_Ico.mp fresh).2
  · rw [items]
    intro item member
    rcases List.mem_append.mp member with old | staged
    · exact accounts.enclosed item old
    · exact (Reducer.stagedItems_fits staged).1

end Appending

namespace Reducer

/-- Quiet events neither append nor move the spine. -/
theorem quiet_advance {kind : EventKind} (isQuiet : quietKind kind = true) :
    kind.advance = 0 ∧ ∀ offset, kind.appendedAt offset = ∅ := by
  cases kind with
  | operationCommit operationClass subject argument =>
      cases operationClass <;>
        simp [quietKind, quietOperation, EventKind.advance, EventKind.appendedAt] at isQuiet ⊢
  | append | ledger => simp [quietKind] at isQuiet
  | _ => exact ⟨rfl, fun _ => rfl⟩

/-- What one move does to the account of the bytes. -/
theorem move_accounts {sequence : Nat} {kind : EventKind} {core next : Core} {appended : Finset Nat}
    (move : Moves sequence kind core next) (wellFormed : core.conversationIr.WellFormed)
    (accounts : Accounts core.conversationIr core.nextOffset appended) (spans : kind.SpansFit)
    (room : core.nextOffset.toNat + kind.advance < 2 ^ 64) :
    Accounts next.conversationIr next.nextOffset
        (appended ∪ kind.appendedAt core.nextOffset.toNat) ∧
      next.nextOffset.toNat = core.nextOffset.toNat + kind.advance := by
  have still {ir : ConversationIr} (kept : Accounts ir core.nextOffset appended)
      (quiet : kind.advance = 0 ∧ ∀ offset, kind.appendedAt offset = ∅) :
      Accounts ir core.nextOffset (appended ∪ kind.appendedAt core.nextOffset.toNat) ∧
        core.nextOffset.toNat = core.nextOffset.toNat + kind.advance := by
    rw [quiet.1, quiet.2, Finset.union_empty]
    exact ⟨kept, rfl⟩
  cases move with
  | quiet isQuiet => exact still accounts (quiet_advance isQuiet)
  | appended appends =>
      rcases appends_eq wellFormed appends with ⟨segmented, segmentedOk, rfl⟩
      have tiled := claims_tile spans (by simp only [EventKind.advance] at room; omega) segmentedOk
      exact accounts.appended tiled room
  | invalidated appends =>
      rcases appends_eq wellFormed appends with ⟨segmented, segmentedOk, rfl⟩
      have tiled := claims_tile (by simp) (by simp only [EventKind.advance] at room; omega)
        segmentedOk
      exact accounts.appended tiled room
  | @commanded command _ noResult =>
      apply still accounts
      cases command with
      | factInvalidate result writes => exact absurd rfl (noResult result writes)
      | _ => exact ⟨rfl, fun _ => rfl⟩
  | placed places =>
      have kept := accounts.of_relocated (ConversationIr.place_eq_ok wellFormed places).2
      exact still kept ⟨rfl, fun _ => rfl⟩
  | unplaced isUnplace unplaces =>
      have kept := accounts.of_relocated (ConversationIr.unplace_eq_ok wellFormed unplaces).2
      apply still kept
      rcases isUnplace with rfl | rfl <;> exact ⟨rfl, fun _ => rfl⟩
  | resegmented resegments =>
      rcases resegments_eq wellFormed resegments with
        ⟨parent, ranges, found, requested, checked, rfl, rfl⟩
      have member := (ConversationIr.item_eq_ok found).1
      have once := accounts.once member
      have regrouped := resegmentParts_same (fun _ inItem => accounts.fits member inItem)
        (fun _ => accounts.bytes_lt member) once requested (ConversationIr.checkSplit_covers checked)
      have sameOffset : max core.nextOffset parent.byteRange.endOffset = core.nextOffset :=
        uint64_max_eq_left (accounts.endOffset_le member)
      rw [sameOffset]
      exact still (accounts.divided wellFormed member regrouped) ⟨rfl, fun _ => rfl⟩
  | @admitted subject argument _ =>
      have moved : (core.nextOffset + argument).toNat =
          core.nextOffset.toNat + argument.toNat := by
        rw [UInt64.toNat_add]
        exact Nat.mod_eq_of_lt room
      refine ⟨⟨?_, ?_, accounts.enclosed⟩, moved⟩
      · simpa [EventKind.appendedAt] using accounts.tiles
      · intro byte appendedByte
        have below := accounts.below byte (by simpa [EventKind.appendedAt] using appendedByte)
        rw [moved]
        omega
  | @versioned operationClass _ _ _ _ _ isVersioned _ _ =>
      apply still accounts
      cases operationClass <;> simp [versionedOperation] at isVersioned <;>
        exact ⟨rfl, fun _ => rfl⟩
  | selected known => exact still accounts ⟨rfl, fun _ => rfl⟩

/-- A run extends the account by the bytes its events append. -/
theorem run_accounts {events : List RecordedEvent} {core final : Core} {appended : Finset Nat}
    (run : Run events core final) (wellFormed : core.conversationIr.WellFormed)
    (accounts : Accounts core.conversationIr core.nextOffset appended)
    (spans : ∀ event ∈ events, event.kind.SpansFit)
    (room : core.nextOffset.toNat + (events.map fun event => event.kind.advance).sum < 2 ^ 64) :
    Accounts final.conversationIr final.nextOffset
      (appended ∪ appendedBytes core.nextOffset.toNat events) := by
  induction run generalizing appended with
  | nil => simpa [appendedBytes] using accounts
  | @cons event events core middle final move _ ih =>
      rw [List.forall_mem_cons] at spans
      rw [List.map_cons, List.sum_cons] at room
      have moved := move_accounts move wellFormed accounts spans.1 (by omega)
      have rest := ih (move_wellFormed move wellFormed).1 moved.1 spans.2 (by
        rw [moved.2]
        omega)
      rw [moved.2, Finset.union_assoc] at rest
      exact rest

section Folds

variable [Wire]

/-- Byte conservation: the ranges of the items are pairwise disjoint, lie below
the end of the spine and cover exactly the bytes of the committed appends. -/
theorem bytes_conserved (window : Nat) (log : EventLog) (state : TypedState)
    (folds : fold window log = .ok state) (within : WithinU64 log.events) :
    (state.conversationIr.ranges.Pairwise fun left right => Disjoint left.bytes right.bytes) ∧
      (∀ range ∈ state.conversationIr.ranges, ∀ byte ∈ range.bytes,
        byte < state.nextOffset.toNat) ∧
      ∀ byte, (∃ range ∈ state.conversationIr.ranges, byte ∈ range.bytes) ↔
        byte ∈ appendedBytes 0 log.events := by
  have initial : Accounts (genesisCore log.storeVersion).conversationIr
      (genesisCore log.storeVersion).nextOffset ∅ := by
    refine ⟨tiles_nil, by simp, ?_⟩
    simp [genesisCore, ConversationIr.new]
  have accounts := run_accounts (fold_run folds) ConversationIr.wellFormed_new initial within.spans
    (by simpa [genesisCore] using within.advances)
  rw [Finset.empty_union] at accounts
  refine ⟨List.pairwise_map.mp accounts.tiles.disjoint, ?_, ?_⟩
  · intro range member byte inRange
    exact accounts.below byte (accounts.tiles.subset (List.mem_map_of_mem member) inRange)
  · intro byte
    refine Iff.trans ?_ accounts.tiles.mem_iff.symm
    constructor
    · rintro ⟨range, member, inRange⟩
      exact ⟨range.bytes, List.mem_map_of_mem member, inRange⟩
    · rintro ⟨_, member, inSet⟩
      rcases List.mem_map.mp member with ⟨range, rangeMember, rfl⟩
      exact ⟨range, rangeMember, inSet⟩

end Folds

section Sample

local instance conservationWire : Wire := .emptySession

/-- Conservation over the greeting that was placed and cut in two. -/
theorem divided_greeting_conserved :
    ∃ state, fold idlenessWindow dividedLog = .ok state ∧ WithinU64 dividedLog.events ∧
      ∀ byte, (∃ range ∈ state.conversationIr.ranges, byte ∈ range.bytes) ↔
        byte ∈ appendedBytes 0 dividedLog.events := by
  have succeeds : (fold idlenessWindow dividedLog).isOk = true := by
    decide +kernel
  rcases Outcome.isOk_iff.mp succeeds with ⟨state, folds⟩
  have within : WithinU64 dividedLog.events := by
    constructor
    · decide +kernel
    · decide +kernel
  exact ⟨state, folds, within,
    (bytes_conserved idlenessWindow dividedLog state folds within).2.2⟩

end Sample

end Reducer

end Llxprt.Kernel

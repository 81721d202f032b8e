import Llxprt.Kernel.Conservation
import Llxprt.Kernel.Legality

/-!
# Legality across resegments

The rows of the legality table read occupancies, lane totals, pins and the order
of the items.  A resegment keeps everything but the order: the parts of an item
come to stand behind all other items, so the state stays legal exactly when
nothing is placed in a region after that of the item.
-/

namespace Llxprt.Kernel

open Llxprt.Rust

section Weighing

/-- Units of some items, wrapping. -/
def unitSum (items : List Item) : UInt64 :=
  items.foldr (fun item units => item.units + units) 0

variable {left right items : List Item}

@[simp]
theorem unitSum_cons (item : Item) (items : List Item) :
    unitSum (item :: items) = item.units + unitSum items :=
  rfl

theorem unitSum_append : unitSum (left ++ right) = unitSum left + unitSum right := by
  induction left with
  | nil => exact (UInt64.zero_add _).symm
  | cons item left ih => rw [List.cons_append, unitSum_cons, unitSum_cons, ih, UInt64.add_assoc]

theorem unitSum_perm (perm : left.Perm right) : unitSum left = unitSum right := by
  induction perm with
  | nil => rfl
  | cons item _ ih => rw [unitSum_cons, unitSum_cons, ih]
  | swap first second rest =>
      rw [unitSum_cons, unitSum_cons, unitSum_cons, unitSum_cons, ← UInt64.add_assoc,
        UInt64.add_comm second.units, UInt64.add_assoc]
  | trans _ _ first second => exact first.trans second

end Weighing

section Parts

variable {ranges : List StoreRange} {base extra target consumed : UInt64} {parts part : Nat}

/-- A piece takes at most one slice of each range. -/
theorem takePiece_length : (takePiece target consumed ranges).1.length ≤ ranges.length ∧
    (takePiece target consumed ranges).2.2.length ≤ ranges.length := by
  induction ranges generalizing target consumed with
  | nil => exact ⟨Nat.le_refl _, Nat.le_refl _⟩
  | cons current rest ih =>
      by_cases done : target = 0
      · rw [takePiece, if_pos done]
        exact ⟨Nat.zero_le _, Nat.le_refl _⟩
      · rw [takePiece_cons done]
        split
        · have next := @ih (target - takenFrom current target consumed) 0
          exact ⟨Nat.succ_le_succ next.1, Nat.le_succ_of_le next.2⟩
        · exact ⟨Nat.succ_le_succ (Nat.zero_le _), Nat.le_refl _⟩

theorem takePieces_length : ∀ piece ∈ takePieces base extra parts part consumed ranges,
    piece.length ≤ ranges.length := by
  induction parts generalizing part consumed ranges with
  | zero => exact fun piece member => nomatch member
  | succ parts ih =>
      intro piece member
      rw [takePieces] at member
      rcases List.mem_cons.mp member with rfl | later
      · exact takePiece_length.1
      · exact (ih piece later).trans takePiece_length.2

/-- Every part that a resegment requests is at most one range. -/
theorem resegmentParts_short {subject count : UInt64} {provenance : List StoreRange}
    {requested : List (List StoreRange)}
    (ok : Reducer.resegmentParts subject (normalize provenance) count = .ok requested) :
    ∀ part ∈ requested, part.length ≤ 1 := by
  rw [Reducer.resegmentParts] at ok
  split at ok
  · simp only [bind_eq_ok, pure_eq_ok] at ok
    rcases ok with ⟨_, _, rfl⟩
    intro part member
    rcases List.mem_map.mp member with ⟨claim, _, rfl⟩
    exact Nat.le_refl _
  · rename_i single
    cases ok
    intro part member
    rw [sliceInto] at member
    split at member
    · cases member
    · exact (takePieces_length part member).trans (Nat.le_of_not_lt single)

theorem checkParts_nonempty {id : ItemId} {requested : List (List StoreRange)} {points : List Nat}
    (checked : ConversationIr.checkParts id requested points = .ok ()) :
    ∀ part ∈ requested, part ≠ [] := by
  induction requested generalizing points with
  | nil => exact fun part member => nomatch member
  | cons first requested ih =>
      simp only [ConversationIr.checkParts, bind_eq_ok, reject_eq_ok] at checked
      rcases checked with ⟨_, _, _, nonempty, rest⟩
      rw [List.forall_mem_cons]
      exact ⟨nonempty, ih rest⟩

@[simp]
theorem coveredUnits_singleton (range : StoreRange) : coveredUnits [range] = range.length := by
  by_cases positive : 0 < range.length
  · simp [coveredUnits, normalize, positive, mergeSorted, mergeFrom, totalUnits]
  · have empty : range.length = 0 := by
      rw [UInt64.lt_iff_toNat_lt, Nat.not_lt, UInt64.toNat_zero, Nat.le_zero] at positive
      exact UInt64.toNat_inj.mp positive
    simp [coveredUnits, normalize, empty, mergeSorted, totalUnits]

/-- Parts of one range each weigh what their ranges weigh. -/
theorem unitSum_childrenOf (parent : Item) (value : Nat) {requested : List (List StoreRange)}
    (single : ∀ part ∈ requested, part.length = 1) :
    unitSum (ConversationIr.childrenOf parent value requested) = totalUnits requested.flatten := by
  induction requested generalizing value with
  | nil => rfl
  | cons part requested ih =>
      rw [List.forall_mem_cons] at single
      rcases List.length_eq_one_iff.mp single.1 with ⟨range, rfl⟩
      have rest := ih (value + 1) single.2
      rw [ConversationIr.childrenOf, unitSum_cons, rest, List.flatten_cons, List.singleton_append]
      exact congrArg (· + _) (coveredUnits_singleton range)

end Parts

namespace ConversationIr

variable {ir : ConversationIr} {id : ItemId} {region : Region}

/-- Identifiers of items of the IR weigh what the items weigh. -/
theorem unitsOf_ids (wellFormed : ir.WellFormed) {items : List Item}
    (inside : ∀ item ∈ items, item ∈ ir.items) : ir.unitsOf (items.map Item.id) = unitSum items := by
  induction items with
  | nil => rfl
  | cons item items ih =>
      rw [List.forall_mem_cons] at inside
      have rest := ih inside.2
      rw [unitsOf] at rest ⊢
      rw [List.map_cons, List.foldr_cons, rest, item_of_mem wellFormed inside.1]
      rfl

theorem unitsOf_perm {left right : List ItemId} (perm : left.Perm right) :
    ir.unitsOf left = ir.unitsOf right := by
  unfold unitsOf
  apply perm.foldr_eq'
  intro first _ second _ units
  cases ir.item first with
  | error _ => rfl
  | ok firstItem =>
      cases ir.item second with
      | error _ => rfl
      | ok secondItem =>
          simp only
          rw [← UInt64.add_assoc, UInt64.add_comm secondItem.units, UInt64.add_assoc]

theorem regionItems_cases :
    (∃ partition ∈ ir.partitions, partition.region = region ∧
      ir.regionItems region = partition.items) ∨
    (ir.regionItems region = [] ∧ ∀ partition ∈ ir.partitions, partition.region ≠ region) := by
  rw [regionItems]
  cases found : ir.partitions.find? fun partition => partition.region = region with
  | none =>
      refine .inr ⟨rfl, fun partition member same => ?_⟩
      exact List.find?_eq_none.mp found partition member (decide_eq_true same)
  | some partition =>
      have named := List.find?_some found
      exact .inl ⟨partition, List.mem_of_find?_eq_some found, of_decide_eq_true named, rfl⟩

theorem mem_regionItems (wellFormed : ir.WellFormed) :
    id ∈ ir.regionItems region ↔ Held ir.partitions region id := by
  rcases @regionItems_cases ir region with ⟨partition, member, same, items⟩ | ⟨items, none⟩
  · rw [items]
    constructor
    · exact fun listed => ⟨partition, member, same, listed⟩
    · rintro ⟨other, otherMember, otherSame, listed⟩
      rw [List.inj_on_of_nodup_map wellFormed.tidy.regions_nodup member otherMember
        (same.trans otherSame.symm)]
      exact listed
  · rw [items]
    constructor
    · exact fun listed => nomatch listed
    · rintro ⟨other, otherMember, otherSame, _⟩
      exact absurd otherSame (none other otherMember)

theorem regionItems_nodup (wellFormed : ir.WellFormed) : (ir.regionItems region).Nodup := by
  rcases @regionItems_cases ir region with ⟨partition, member, _, items⟩ | ⟨items, _⟩
  · rw [items]
    exact wellFormed.tidy.items_nodup partition member
  · rw [items]
    exact List.nodup_nil

/-- The occupants of a region are the items that are placed in it. -/
theorem regionItems_perm (wellFormed : ir.WellFormed) :
    (ir.regionItems region).Perm
      ((ir.items.filter fun item => item.placement = .placed region).map Item.id) := by
  rw [List.perm_ext_iff_of_nodup (regionItems_nodup wellFormed)
    (wellFormed.ids_nodup.sublist (List.filter_sublist.map Item.id))]
  intro id
  rw [mem_regionItems wellFormed, wellFormed.held_iff, List.mem_map]
  constructor
  · rintro ⟨item, member, same, placed⟩
    exact ⟨item, List.mem_filter.mpr ⟨member, decide_eq_true placed⟩, same⟩
  · rintro ⟨item, member, same⟩
    rcases List.mem_filter.mp member with ⟨inside, placed⟩
    exact ⟨item, inside, same, of_decide_eq_true placed⟩

theorem regionOccupancy_eq (wellFormed : ir.WellFormed) :
    ir.regionOccupancy region =
      unitSum (ir.items.filter fun item => item.placement = .placed region) := by
  rw [regionOccupancy, unitsOf_perm (regionItems_perm wellFormed),
    unitsOf_ids wellFormed fun _ => List.mem_of_mem_filter]

theorem laneUnits_eq (wellFormed : ir.WellFormed) (lane : Lane) :
    ir.laneUnits lane = unitSum (ir.items.filter fun item => item.lane = lane) :=
  unitsOf_ids wellFormed fun _ => List.mem_of_mem_filter

/-- The placed items of a lane. -/
theorem placedInLane_eq (wellFormed : ir.WellFormed) (lane : Lane) :
    (ir.itemsInLane lane).filter (fun id =>
      match ir.item id with
      | .ok item => item.region.isSome
      | .error _ => false) =
      (ir.items.filter fun item => item.lane = lane && item.region.isSome).map Item.id := by
  rw [itemsInLane, List.filter_map, List.filter_filter]
  congr 1
  apply List.filter_congr
  intro item member
  rw [Function.comp_apply, item_of_mem wellFormed member, Bool.and_comm]

theorem lanePlacedUnits_eq (wellFormed : ir.WellFormed) (lane : Lane) :
    ir.lanePlacedUnits lane =
      unitSum (ir.items.filter fun item => item.lane = lane && item.region.isSome) :=
  (congrArg ir.unitsOf (placedInLane_eq wellFormed lane)).trans
    (unitsOf_ids wellFormed fun _ => List.mem_of_mem_filter)

section Division

variable {parent : Item} {parts : List (List StoreRange)}

theorem divided_items : (ir.divided parent parts).items =
    (ir.items.filter fun item => item.id ≠ parent.id) ++
      childrenOf parent ir.nextSplitId parts :=
  enrollAll_items _ _

/-- The parts of an item weigh what the item weighs. -/
def Balances (parent : Item) (parts : List (List StoreRange)) : Prop :=
  ∀ value, unitSum (childrenOf parent value parts) = parent.units

/-- A property of the lane and the placement weighs the same after a division. -/
theorem unitSum_divided (wellFormed : ir.WellFormed) (member : parent ∈ ir.items)
    (balances : Balances parent parts) (test : Lane → Placement → Bool) :
    unitSum ((ir.divided parent parts).items.filter fun item => test item.lane item.placement) =
      unitSum (ir.items.filter fun item => test item.lane item.placement) := by
  have children : (childrenOf parent ir.nextSplitId parts).filter
      (fun item => test item.lane item.placement) =
      if test parent.lane parent.placement then childrenOf parent ir.nextSplitId parts else [] := by
    split
    · rename_i holds
      apply List.filter_eq_self.mpr
      intro child inside
      rw [(childrenOf_alike inside).1, (childrenOf_alike inside).2.1]
      exact holds
    · rename_i fails
      apply List.filter_eq_nil_iff.mpr
      intro child inside
      rw [(childrenOf_alike inside).1, (childrenOf_alike inside).2.1]
      exact fails
  rw [divided_items, List.filter_append, unitSum_append, children,
    unitSum_perm ((Accounts.items_perm wellFormed member).filter _), List.filter_cons]
  split
  · rw [unitSum_cons, balances, UInt64.add_comm]
  · exact UInt64.add_zero _

theorem balances_of_checked {subject count : UInt64} {contract : SplitContract}
    (requested : Reducer.resegmentParts subject (normalize parent.provenance) count = .ok parts)
    (checked : checkSplit parent parts contract = .ok ()) : Balances parent parts := by
  have covers := checkSplit_covers checked
  rw [coversExactly, Bool.and_eq_true, decide_eq_true_eq] at covers
  simp only [checkSplit, bind_eq_ok, reject_eq_ok] at checked
  rcases checked with ⟨_, _, _, _, _, counted, _⟩
  intro value
  rw [unitSum_childrenOf, covers.1]
  · rfl
  · intro part member
    have short := resegmentParts_short requested part member
    have nonempty := List.length_pos_of_ne_nil (checkParts_nonempty counted part member)
    omega

variable (wellFormed : ir.WellFormed) (member : parent ∈ ir.items)
  (balances : Balances parent parts)

include wellFormed member balances

/-- A division charges every region what it charged before. -/
theorem regionOccupancy_divided (region : Region) :
    (ir.divided parent parts).regionOccupancy region = ir.regionOccupancy region := by
  rw [regionOccupancy_eq wellFormed.divided, regionOccupancy_eq wellFormed]
  exact unitSum_divided wellFormed member balances fun _ placement => placement = .placed region

theorem laneUnits_divided (lane : Lane) :
    (ir.divided parent parts).laneUnits lane = ir.laneUnits lane := by
  rw [laneUnits_eq wellFormed.divided, laneUnits_eq wellFormed]
  exact unitSum_divided wellFormed member balances fun other _ => other = lane

theorem lanePlacedUnits_divided (lane : Lane) :
    (ir.divided parent parts).lanePlacedUnits lane = ir.lanePlacedUnits lane := by
  rw [lanePlacedUnits_eq wellFormed.divided, lanePlacedUnits_eq wellFormed]
  exact unitSum_divided wellFormed member balances fun other placement =>
    other = lane && placement.region.isSome

omit member balances in
/-- The other items are found as before. -/
theorem item_divided {item : Item} (found : ir.item id = .ok item) (other : id ≠ parent.id) :
    (ir.divided parent parts).item id = .ok item := by
  rcases item_eq_ok found with ⟨inside, rfl⟩
  apply item_of_mem wellFormed.divided
  rw [divided_items]
  exact List.mem_append_left _ (List.mem_filter.mpr ⟨inside, decide_eq_true other⟩)

end Division

/-- Nothing is placed in a region after that of the item. -/
def Hindmost (ir : ConversationIr) (id : ItemId) : Prop :=
  ∀ parent region, ir.item id = .ok parent → parent.region = some region →
    ∀ item ∈ ir.items, ∀ other, item.region = some other → other.rank.toNat ≤ region.rank.toNat

end ConversationIr

namespace Legality

section Ordering

variable {items left right : List Item}

/-- Ranks of the regions of the placed items. -/
def placedRanks (items : List Item) : List Nat :=
  items.filterMap fun item => item.region.map fun region => region.rank.toNat

theorem mem_placedRanks {rank : Nat} : rank ∈ placedRanks items ↔
    ∃ item ∈ items, ∃ region, item.region = some region ∧ region.rank.toNat = rank := by
  simp only [placedRanks, List.mem_filterMap, Option.map_eq_some_iff]

theorem placedRanks_append : placedRanks (left ++ right) = placedRanks left ++ placedRanks right :=
  List.filterMap_append

theorem checkOrderingFrom_eq_none {highest : Option Region} : checkOrderingFrom highest items = none ↔
    ((highest.map fun region => region.rank.toNat).toList ++ placedRanks items).IsChain (· ≤ ·) := by
  induction items generalizing highest with
  | nil => cases highest <;> simp [checkOrderingFrom, placedRanks]
  | cons item items ih =>
      cases placed : item.region with
      | none =>
          simp only [checkOrderingFrom, placed]
          rw [ih]
          simp [placedRanks, placed]
      | some region =>
          cases highest with
          | none =>
              simp only [checkOrderingFrom, placed]
              rw [ih]
              simp [placedRanks, placed]
          | some previous =>
              simp only [checkOrderingFrom, placed]
              split
              · rename_i before
                rw [UInt64.lt_iff_toNat_lt] at before
                simp [placedRanks, placed, List.isChain_cons_cons, Nat.not_le.mpr before]
              · rename_i after
                rw [UInt64.lt_iff_toNat_lt, Nat.not_lt] at after
                rw [ih]
                simp [placedRanks, placed, List.isChain_cons_cons, after]

theorem checkOrdering_eq_none {state : TypedState} : checkOrdering state = none ↔
    (placedRanks state.conversationIr.items).Pairwise (· ≤ ·) := by
  rw [checkOrdering, checkOrderingFrom_eq_none, List.isChain_iff_pairwise]
  rfl

/-- The parts of an item follow all others in order exactly when nothing is
placed after its region. -/
theorem ordered_divided {ir : ConversationIr} {id : ItemId} {parent : Item}
    {parts : List (List StoreRange)} (wellFormed : ir.WellFormed)
    (found : ir.item id = .ok parent) (nonempty : parts ≠ [])
    (ordered : (placedRanks ir.items).Pairwise (· ≤ ·)) :
    (placedRanks (ir.divided parent parts).items).Pairwise (· ≤ ·) ↔ ir.Hindmost id := by
  rcases ConversationIr.item_eq_ok found with ⟨member, named⟩
  have others : (placedRanks (ir.items.filter fun item => item.id ≠ parent.id)).Pairwise
      (· ≤ ·) :=
    ordered.sublist (List.filter_sublist.filterMap _)
  have childRegion : ∀ child ∈ ConversationIr.childrenOf parent ir.nextSplitId parts,
      child.region = parent.region := by
    intro child inside
    rw [Item.region, Item.region, (ConversationIr.childrenOf_alike inside).1]
  have children : (placedRanks (ConversationIr.childrenOf parent ir.nextSplitId parts)).Pairwise
      (· ≤ ·) := by
    apply List.pairwise_of_forall_mem_list
    intro first firstIn second secondIn
    rcases mem_placedRanks.mp firstIn with ⟨left, leftIn, region, leftPlaced, rfl⟩
    rcases mem_placedRanks.mp secondIn with ⟨right, rightIn, other, rightPlaced, rfl⟩
    rw [childRegion left leftIn] at leftPlaced
    rw [childRegion right rightIn, leftPlaced] at rightPlaced
    cases rightPlaced
    exact Nat.le_refl _
  rw [ConversationIr.divided_items, placedRanks_append, List.pairwise_append]
  constructor
  · rintro ⟨_, _, across⟩ same region sameFound placed item inside other otherPlaced
    rw [found] at sameFound
    cases sameFound
    by_cases own : item.id = parent.id
    · have equal := List.inj_on_of_nodup_map wellFormed.ids_nodup inside member own
      rw [equal, placed] at otherPlaced
      cases otherPlaced
      exact Nat.le_refl _
    · cases parts with
      | nil => exact absurd rfl nonempty
      | cons part parts =>
          apply across
          · exact mem_placedRanks.mpr ⟨item, List.mem_filter.mpr ⟨inside, decide_eq_true own⟩,
              other, otherPlaced, rfl⟩
          · exact mem_placedRanks.mpr ⟨_, List.mem_cons_self, region, placed, rfl⟩
  · intro hindmost
    refine ⟨others, children, ?_⟩
    intro first firstIn second secondIn
    rcases mem_placedRanks.mp firstIn with ⟨item, inside, other, otherPlaced, rfl⟩
    rcases mem_placedRanks.mp secondIn with ⟨child, childIn, region, childPlaced, rfl⟩
    rw [childRegion child childIn] at childPlaced
    exact hindmost parent region found childPlaced item (List.mem_of_mem_filter inside) other
      otherPlaced

end Ordering

section Rules

variable {state next : TypedState} {contract : RenderContract} {context : LegalContext}
  {parent : Item} {parts : List (List StoreRange)}

/-- The gate accepts exactly the states that violate no row. -/
theorem isLegal_eq_ok : isLegal state contract = .ok context ↔
    context = ⟨contract.version⟩ ∧ checkPairing contract = none ∧ checkOrdering state = none ∧
      checkPlaceholder state contract = none ∧ checkRegionBudget state contract = none ∧
      checkProfileBudget state contract = none ∧ checkFloor state = none ∧
      checkPin state = none ∧ checkQuoting state contract = none := by
  rw [isLegal]
  split
  · rename_i violation violated
    rcases List.exists_of_findSome?_eq_some violated with ⟨check, member, fails⟩
    constructor
    · exact fun claim => nomatch claim
    · rintro ⟨_, pairing, ordering, placeholder, region, profile, floor, pin, quoting⟩
      simp only [rules, List.mem_cons, List.not_mem_nil, or_false] at member
      rcases member with rfl | rfl | rfl | rfl | rfl | rfl | rfl | rfl <;> simp_all
  · rename_i clean
    simp only [rules, List.findSome?_eq_none_iff, List.forall_mem_cons, List.not_mem_nil] at clean
    constructor
    · rintro ⟨⟩
      exact ⟨rfl, clean.1, clean.2.1, clean.2.2.1, clean.2.2.2.1, clean.2.2.2.2.1,
        clean.2.2.2.2.2.1, clean.2.2.2.2.2.2.1, clean.2.2.2.2.2.2.2.1⟩
    · rintro ⟨rfl, _⟩
      rfl

/-- Everything but the order of the items is as it was. -/
structure Redivided (state next : TypedState) (parent : Item) (parts : List (List StoreRange)) :
    Prop where
  wellFormed : state.conversationIr.WellFormed
  member : parent ∈ state.conversationIr.items
  balances : ConversationIr.Balances parent parts
  conversation : next.conversationIr = state.conversationIr.divided parent parts
  policies : next.lanePolicyRegistry = state.lanePolicyRegistry
  pins : next.pins = state.pins
  quoting : next.quotingConvention = state.quotingConvention

namespace Redivided

variable (redivided : Redivided state next parent parts)

include redivided

theorem regionOccupancy (region : Region) :
    next.conversationIr.regionOccupancy region = state.conversationIr.regionOccupancy region := by
  rw [redivided.conversation]
  exact ConversationIr.regionOccupancy_divided redivided.wellFormed redivided.member
    redivided.balances region

theorem checkRegionBudget : checkRegionBudget next contract = checkRegionBudget state contract := by
  simp only [Legality.checkRegionBudget, redivided.regionOccupancy]

theorem checkProfileBudget :
    checkProfileBudget next contract = checkProfileBudget state contract := by
  have projected : projectionUnits next = projectionUnits state := by
    simp only [projectionUnits, redivided.regionOccupancy]
  rw [Legality.checkProfileBudget, Legality.checkProfileBudget, projected]

theorem checkFloor : checkFloor next = checkFloor state := by
  have total (lane : Lane) : next.conversationIr.laneUnits lane =
      state.conversationIr.laneUnits lane := by
    rw [redivided.conversation]
    exact ConversationIr.laneUnits_divided redivided.wellFormed redivided.member
      redivided.balances lane
  have placed (lane : Lane) : next.conversationIr.lanePlacedUnits lane =
      state.conversationIr.lanePlacedUnits lane := by
    rw [redivided.conversation]
    exact ConversationIr.lanePlacedUnits_divided redivided.wellFormed redivided.member
      redivided.balances lane
  simp only [Legality.checkFloor, redivided.policies, total, placed]

theorem checkQuoting : checkQuoting next contract = checkQuoting state contract := by
  simp only [Legality.checkQuoting, redivided.quoting]

theorem checkPlaceholder (clean : checkPlaceholder state contract = none) :
    Legality.checkPlaceholder next contract = none := by
  rw [Legality.checkPlaceholder] at clean ⊢
  split at clean
  · rename_i supported
    rw [if_pos supported]
  · rename_i unsupported
    rw [if_neg unsupported, List.findSome?_eq_none_iff]
    rw [List.findSome?_eq_none_iff] at clean
    have real : ∀ item ∈ state.conversationIr.items, item.isPlaceholder = false := by
      intro item inside
      have row := clean item inside
      by_contra phantom
      rw [Bool.not_eq_false] at phantom
      rw [if_pos phantom] at row
      cases row
    intro item inside
    rw [redivided.conversation, ConversationIr.divided_items, List.mem_append] at inside
    rcases inside with old | child
    · rw [if_neg (Bool.eq_false_iff.mp (real item (List.mem_of_mem_filter old)))]
    · have same := (ConversationIr.childrenOf_alike child).1
      have solid : item.isPlaceholder = false := by
        rw [Item.isPlaceholder, same]
        exact real parent redivided.member
      rw [if_neg (Bool.eq_false_iff.mp solid)]

theorem checkPin (clean : checkPin state = none) (unpinned : parent.id ∉ state.pins) :
    Legality.checkPin next = none := by
  rw [Legality.checkPin, List.findSome?_eq_none_iff] at clean ⊢
  intro pin pinned
  rw [redivided.pins] at pinned
  have row := clean pin pinned
  cases found : state.conversationIr.item pin with
  | error error =>
      rw [found] at row
      cases row
  | ok item =>
      rw [found] at row
      rw [redivided.conversation, ConversationIr.item_divided redivided.wellFormed found]
      · exact row
      · rintro rfl
        exact unpinned pinned

end Redivided

end Rules

end Legality

section Resegments

variable [Wire] {window : Nat} {log : EventLog} {state next : TypedState}
  {contract : RenderContract} {context : LegalContext} {sequence : Nat}
  {subject argument : UInt64}

/-- A resegment leaves a legal state legal exactly when nothing is placed in a
region after that of the item. -/
theorem legal_resegment_iff (folds : Reducer.fold window log = .ok state)
    (legal : isLegal state contract = .ok context)
    (unpinned : ItemId.new subject.toNat ∉ state.pins)
    (resegmented : Reducer.applyOperation sequence .resegment subject argument state =
      (.ok (), next)) :
    isLegal next contract = .ok context ↔
      state.conversationIr.Hindmost (.new subject.toNat) := by
  have wellFormed := Reducer.fold_wellFormed folds
  simp only [Reducer.applyOperation, Reducer.resegment, Method.bind_eq_ok_iff, Method.read_eq_ok,
    Method.ofExcept_eq_ok, mapError_eq_ok, Reducer.onIr_eq_ok, Method.update_eq_ok] at resegmented
  rcases resegmented with ⟨_, _, ⟨rfl, rfl⟩, parent, _, ⟨found, rfl⟩, ranges, _, ⟨requested, rfl⟩,
    children, _, ⟨ir, splitOk, rfl⟩, rfl⟩
  rcases ConversationIr.split_eq_ok wellFormed splitOk with ⟨same, sameFound, checked, rfl⟩
  rw [found] at sameFound
  cases sameFound
  rcases ConversationIr.item_eq_ok found with ⟨member, named⟩
  rw [← named] at unpinned
  have redivided : Legality.Redivided state { state with
      conversationIr := state.conversationIr.divided parent ranges
      nextOffset := max state.nextOffset parent.byteRange.endOffset } parent ranges :=
    ⟨wellFormed, member, ConversationIr.balances_of_checked requested checked, rfl, rfl, rfl, rfl⟩
  have nonempty : ranges ≠ [] := by
    simp only [ConversationIr.checkSplit, bind_eq_ok, reject_eq_ok] at checked
    exact checked.choose_spec.2.choose_spec.1
  rcases Legality.isLegal_eq_ok.mp legal with
    ⟨accepted, pairing, ordering, placeholder, region, profile, floor, pin, quoting⟩
  rw [Legality.isLegal_eq_ok, redivided.checkRegionBudget, redivided.checkProfileBudget,
    redivided.checkFloor, redivided.checkQuoting, Legality.checkOrdering_eq_none,
    ← Legality.ordered_divided wellFormed found nonempty (Legality.checkOrdering_eq_none.mp ordering)]
  constructor
  · exact fun claim => claim.2.2.1
  · intro ordered
    exact ⟨accepted, pairing, ordered, redivided.checkPlaceholder placeholder, region, profile,
      floor, redivided.checkPin pin unpinned, quoting⟩

end Resegments

section Overtaken

local instance overtakenWire : Wire := .emptySession

/-- A message in the head region and one behind it in the body. -/
def overtakenLog : EventLog :=
  ((Reducer.greetingLog.record 1 1002 (.append .user (utf8 "ho") 1 [])).record 1 1003
    (.operationCommit .place 0 1)).record 1 1004 (.operationCommit .place 1 3)

/-- The state is legal without pins, and resegmenting the item in two succeeds
with a state that is legal or not, as given. -/
def resegmentsTo (subject : UInt64) (legally : Bool) (state : TypedState) : Bool :=
  match isLegal state (.generous 1), Reducer.applyOperation 5 .resegment subject 2 state with
  | .ok _, (.ok (), next) =>
      state.pins = [] && decide ((isLegal next (.generous 1)).isOk = legally)
  | _, _ => false

theorem resegmentsTo_spec {subject : UInt64} {legally : Bool} {state : TypedState}
    (tested : resegmentsTo subject legally state = true) :
    ∃ context next, isLegal state (.generous 1) = .ok context ∧ state.pins = [] ∧
      Reducer.applyOperation 5 .resegment subject 2 state = (.ok (), next) ∧
      (isLegal next (.generous 1)).isOk = legally := by
  rw [resegmentsTo] at tested
  split at tested
  · rename_i context next legal done
    rw [Bool.and_eq_true, decide_eq_true_eq, decide_eq_true_eq] at tested
    exact ⟨context, next, legal, tested.1, done, tested.2⟩
  · cases tested

/-- The head message is cut in two and both parts come to stand behind the body. -/
theorem resegment_overtaken :
    ¬ ∀ (window : Nat) (log : EventLog) (state next : TypedState) (contract : RenderContract)
        (context : LegalContext) (sequence : Nat) (subject argument : UInt64),
      Reducer.fold window log = .ok state → isLegal state contract = .ok context →
      ItemId.new subject.toNat ∉ state.pins →
      Reducer.applyOperation sequence .resegment subject argument state = (.ok (), next) →
      isLegal next contract = .ok context := by
  intro claim
  have overtaken : (Reducer.fold idlenessWindow overtakenLog).satisfies (resegmentsTo 0 false) =
      true := by
    decide +kernel
  rcases Outcome.satisfies_iff.mp overtaken with ⟨state, folds, tested⟩
  rcases resegmentsTo_spec tested with ⟨context, next, legal, unpinned, done, illegal⟩
  have kept := claim _ _ _ _ _ _ _ _ _ folds legal (by rw [unpinned]; exact List.not_mem_nil) done
  rw [kept] at illegal
  cases illegal

/-- The body message may be cut in two. -/
theorem legal_resegment_hindmost :
    ∃ state next context, Reducer.fold idlenessWindow overtakenLog = .ok state ∧
      Reducer.applyOperation 5 .resegment 1 2 state = (.ok (), next) ∧
      isLegal next (.generous 1) = .ok context ∧ state.conversationIr.Hindmost (.new 1) := by
  have hindmost : (Reducer.fold idlenessWindow overtakenLog).satisfies (resegmentsTo 1 true) =
      true := by
    decide +kernel
  rcases Outcome.satisfies_iff.mp hindmost with ⟨state, folds, tested⟩
  rcases resegmentsTo_spec tested with ⟨context, next, legal, unpinned, done, kept⟩
  have exact := legal_resegment_iff folds legal (by rw [unpinned]; exact List.not_mem_nil) done
  have same : isLegal next (.generous 1) = .ok context := by
    cases later : isLegal next (.generous 1) with
    | error violation =>
        rw [later] at kept
        cases kept
    | ok other =>
        rw [contractVersion_of_isLegal later, contractVersion_of_isLegal legal]
  exact ⟨state, next, context, folds, done, same, exact.mp same⟩

end Overtaken

end Llxprt.Kernel

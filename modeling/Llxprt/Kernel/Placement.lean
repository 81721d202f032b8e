import Llxprt.Kernel.Ir
import Mathlib.Data.List.Nodup

/-!
# Representation invariant of the conversation IR

Placement is stored on the item and in the partitions, and identifiers are drawn
from two counters.  An IR is well formed when the two records of placement agree
and every identifier lies below the counter of its namespace.
-/

namespace Llxprt.Kernel

open Llxprt.Rust Method

section Partitions

variable {partitions : List RegionPartition} {region : Region} {id : ItemId}

/-- The identifier is listed in a partition of the region. -/
def Held (partitions : List RegionPartition) (region : Region) (id : ItemId) : Prop :=
  ∃ partition ∈ partitions, partition.region = region ∧ id ∈ partition.items

/-- One partition for each region, one entry for each identifier. -/
structure Tidy (partitions : List RegionPartition) : Prop where
  regions_nodup : (partitions.map RegionPartition.region).Nodup
  items_nodup : ∀ partition ∈ partitions, partition.items.Nodup

/-- Drop an identifier from every partition. -/
def detachFrom (id : ItemId) (partitions : List RegionPartition) : List RegionPartition :=
  partitions.map fun partition =>
    { partition with items := partition.items.filter fun other => other ≠ id }

theorem held_attachTo {target : Region} {other : ItemId} :
    Held (ConversationIr.attachTo id region partitions) target other ↔
      Held partitions target other ∨ (target = region ∧ other = id) := by
  induction partitions with
  | nil => simp [Held, ConversationIr.attachTo, eq_comm]
  | cons partition rest ih =>
      unfold ConversationIr.attachTo
      by_cases same : partition.region = region
      · rw [if_pos same]
        simp only [Held, List.exists_mem_cons_iff, List.mem_append, List.mem_singleton, same]
        grind
      · rw [if_neg same]
        simp only [Held, List.exists_mem_cons_iff] at ih ⊢
        rw [ih]
        grind

theorem held_detachFrom {target : Region} {other : ItemId} :
    Held (detachFrom id partitions) target other ↔ Held partitions target other ∧ other ≠ id := by
  constructor
  · rintro ⟨_, member, same, held⟩
    rcases List.mem_map.mp member with ⟨partition, partitionMember, rfl⟩
    rcases List.mem_filter.mp held with ⟨listed, different⟩
    exact ⟨⟨partition, partitionMember, same, listed⟩, of_decide_eq_true different⟩
  · rintro ⟨⟨partition, member, same, listed⟩, different⟩
    exact ⟨_, List.mem_map_of_mem member, same,
      List.mem_filter.mpr ⟨listed, decide_eq_true different⟩⟩

theorem attachTo_regions :
    (ConversationIr.attachTo id region partitions).map RegionPartition.region =
      if region ∈ partitions.map RegionPartition.region then
        partitions.map RegionPartition.region
      else partitions.map RegionPartition.region ++ [region] := by
  induction partitions with
  | nil => rfl
  | cons partition rest ih =>
      unfold ConversationIr.attachTo
      by_cases same : partition.region = region
      · simp [same]
      · have other : ¬ region = partition.region := fun h => same h.symm
        rw [if_neg same, List.map_cons, List.map_cons, ih]
        by_cases listed : region ∈ rest.map RegionPartition.region
        · rw [if_pos listed, if_pos (List.mem_cons_of_mem _ listed)]
        · rw [if_neg listed, if_neg (by simpa [other] using listed), List.cons_append]

theorem Tidy.attachTo (tidy : Tidy partitions) (absent : ∀ target, ¬ Held partitions target id) :
    Tidy (ConversationIr.attachTo id region partitions) := by
  constructor
  · rw [attachTo_regions]
    by_cases listed : region ∈ partitions.map RegionPartition.region
    · rw [if_pos listed]
      exact tidy.regions_nodup
    · rw [if_neg listed]
      exact List.concat_eq_append ▸ tidy.regions_nodup.concat listed
  · have items := tidy.items_nodup
    clear tidy
    induction partitions with
    | nil => simp [ConversationIr.attachTo]
    | cons partition rest ih =>
        have absentHere : id ∉ partition.items := fun member =>
          absent partition.region ⟨partition, by simp, rfl, member⟩
        have absentRest : ∀ target, ¬ Held rest target id := by
          rintro target ⟨other, member, held⟩
          exact absent target ⟨other, List.mem_cons_of_mem _ member, held⟩
        rw [List.forall_mem_cons] at items
        unfold ConversationIr.attachTo
        split
        · rw [List.forall_mem_cons]
          exact ⟨List.concat_eq_append ▸ items.1.concat absentHere, items.2⟩
        · rw [List.forall_mem_cons]
          exact ⟨items.1, ih absentRest items.2⟩

theorem Tidy.detachFrom (tidy : Tidy partitions) : Tidy (detachFrom id partitions) := by
  constructor
  · have regions : (Kernel.detachFrom id partitions).map RegionPartition.region =
        partitions.map RegionPartition.region := by
      simp [Kernel.detachFrom]
    rw [regions]
    exact tidy.regions_nodup
  · intro partition member
    rcases List.mem_map.mp member with ⟨original, originalMember, rfl⟩
    exact (tidy.items_nodup original originalMember).filter _

end Partitions

namespace ConversationIr

/-- The two records of placement agree, identifiers are unique and every
identifier lies below the watermark of its namespace. -/
structure WellFormed (ir : ConversationIr) : Prop where
  ids_nodup : (ir.items.map Item.id).Nodup
  tidy : Tidy ir.partitions
  held_iff : ∀ region id, Held ir.partitions region id ↔
    ∃ item ∈ ir.items, item.id = id ∧ item.placement = .placed region
  below : ∀ item ∈ ir.items, item.id.value < ir.namespaceWatermark item.id.nameSpace

theorem wellFormed_new : ConversationIr.new.WellFormed := by
  constructor
  · simp [ConversationIr.new]
  · constructor <;> simp [ConversationIr.new]
  · simp [ConversationIr.new, Held]
  · simp [ConversationIr.new]

section Operations

variable {ir next : ConversationIr} {id : ItemId} {region : Region}

theorem item_eq_ok {item : Item} (h : ir.item id = .ok item) : item ∈ ir.items ∧ item.id = id := by
  have found := okOr_eq_ok.mp h
  exact ⟨List.mem_of_find?_eq_some found, by simpa using List.find?_some found⟩

theorem item_of_mem (wellFormed : ir.WellFormed) {item : Item} (member : item ∈ ir.items) :
    ir.item item.id = .ok item := by
  have found : ∃ other, ir.items.find? (fun other => other.id = item.id) = some other := by
    rw [← Option.isSome_iff_exists, List.find?_isSome]
    exact ⟨item, member, decide_eq_true rfl⟩
  rcases found with ⟨other, found⟩
  have named := List.find?_some found
  have same : other = item :=
    List.inj_on_of_nodup_map wellFormed.ids_nodup (List.mem_of_find?_eq_some found) member
      (of_decide_eq_true named)
  rw [ConversationIr.item, found, same]
  rfl

theorem setPlacement_items (wellFormed : ir.WellFormed) (placement : Placement) :
    (ir.setPlacement id placement).items =
      ir.items.map fun item => if item.id = id then { item with placement := placement } else item :=
  updateFirst_eq_map wellFormed.ids_nodup id _

/-- A change that keeps the identifiers keeps the list of them. -/
theorem ids_map {items : List Item} {change : Item → Item}
    (keeps : ∀ item, (change item).id = item.id) :
    (items.map change).map Item.id = items.map Item.id := by
  rw [List.map_map]
  exact List.map_congr_left fun item _ => keeps item

theorem held_attachPlacement {placement : Placement} {target : Region} {other : ItemId} :
    Held (ir.attachPlacement id placement).partitions target other ↔
      Held ir.partitions target other ∨ (placement = .placed target ∧ other = id) := by
  cases placement with
  | placed region =>
      exact held_attachTo.trans (by simp [eq_comm])
  | storeOnly => simp [attachPlacement, Placement.region]
  | phantom => simp [attachPlacement, Placement.region]

theorem tidy_attachPlacement {placement : Placement} (tidy : Tidy ir.partitions)
    (absent : ∀ target, ¬ Held ir.partitions target id) :
    Tidy (ir.attachPlacement id placement).partitions := by
  cases placement with
  | placed region => exact tidy.attachTo absent
  | storeOnly => exact tidy
  | phantom => exact tidy

@[simp]
theorem attachPlacement_items (placement : Placement) :
    (ir.attachPlacement id placement).items = ir.items := by
  cases placement <;> rfl

@[simp]
theorem attachPlacement_namespaceWatermark (placement : Placement) (space : ItemNamespace) :
    (ir.attachPlacement id placement).namespaceWatermark space = ir.namespaceWatermark space := by
  cases placement <;> rfl

/-- Give the item of `id` a new placement and move the identifier accordingly. -/
def relocated (id : ItemId) (change : Item → Item) (placement : Placement) (ir : ConversationIr) :
    ConversationIr :=
  attachPlacement id placement
    { ir with
      items := ir.items.map fun item => if item.id = id then change item else item
      partitions := detachFrom id ir.partitions }

theorem WellFormed.relocated (wellFormed : ir.WellFormed) {change : Item → Item}
    {placement : Placement} (present : ∃ item ∈ ir.items, item.id = id)
    (keepsId : ∀ item, (change item).id = item.id)
    (places : ∀ item, (change item).placement = placement) :
    (ir.relocated id change placement).WellFormed := by
  have keeps (item : Item) : (if item.id = id then change item else item).id = item.id := by
    split
    · exact keepsId item
    · rfl
  have detached : ∀ target, ¬ Held (detachFrom id ir.partitions) target id := by
    intro target held
    exact (held_detachFrom.mp held).2 rfl
  unfold ConversationIr.relocated
  constructor
  · rw [attachPlacement_items, ids_map keeps]
    exact wellFormed.ids_nodup
  · exact tidy_attachPlacement wellFormed.tidy.detachFrom detached
  · intro target other
    rw [held_attachPlacement, held_detachFrom, wellFormed.held_iff, attachPlacement_items]
    constructor
    · rintro (⟨⟨item, member, rfl, placed⟩, different⟩ | ⟨rfl, rfl⟩)
      · exact ⟨item, List.mem_map.mpr ⟨item, member, if_neg different⟩, rfl, placed⟩
      · rcases present with ⟨item, member, same⟩
        refine ⟨change item, List.mem_map.mpr ⟨item, member, if_pos same⟩, ?_, places item⟩
        rw [keepsId, same]
    · rintro ⟨_, member, rfl, placed⟩
      rcases List.mem_map.mp member with ⟨item, itemMember, rfl⟩
      by_cases same : item.id = id
      · right
        rw [if_pos same] at placed ⊢
        rw [keepsId, same, ← places item, placed]
        exact ⟨rfl, rfl⟩
      · left
        rw [if_neg same] at placed ⊢
        exact ⟨⟨item, itemMember, rfl, placed⟩, same⟩
  · intro item member
    rw [attachPlacement_items] at member
    rcases List.mem_map.mp member with ⟨original, originalMember, rfl⟩
    rw [keeps original, attachPlacement_namespaceWatermark]
    exact wellFormed.below original originalMember

/-- What placing an item does. -/
theorem place_eq_ok (wellFormed : ir.WellFormed)
    (h : ConversationIr.place id region ir = (.ok (), next)) :
    (∃ item ∈ ir.items, item.id = id) ∧
      next = ir.relocated id (fun item => { item with placement := .placed region })
        (.placed region) := by
  simp only [ConversationIr.place, bind_eq_ok_iff, read_eq_ok, ofExcept_eq_ok, update_eq_ok] at h
  rcases h with ⟨_, _, ⟨rfl, rfl⟩, item, _, ⟨found, rfl⟩, _, _, rfl, _, _, rfl, rfl⟩
  refine ⟨⟨item, item_eq_ok found⟩, ?_⟩
  unfold ConversationIr.relocated
  rw [← setPlacement_items wellFormed]
  rfl

/-- What unplacing an item does. -/
theorem unplace_eq_ok (wellFormed : ir.WellFormed)
    (h : ConversationIr.unplace id ir = (.ok (), next)) :
    (∃ item ∈ ir.items, item.id = id) ∧
      next = ir.relocated id (fun item => { item with placement := .storeOnly }) .storeOnly := by
  simp only [ConversationIr.unplace, bind_eq_ok_iff, read_eq_ok, ofExcept_eq_ok, update_eq_ok] at h
  rcases h with ⟨_, _, ⟨rfl, rfl⟩, item, _, ⟨found, rfl⟩, _, _, rfl, rfl⟩
  refine ⟨⟨item, item_eq_ok found⟩, ?_⟩
  unfold ConversationIr.relocated
  rw [← setPlacement_items wellFormed]
  rfl

/-- Counters may only run ahead. -/
theorem WellFormed.raise (wellFormed : ir.WellFormed) {nextAppendId nextSplitId : Nat}
    (appendLe : ir.nextAppendId ≤ nextAppendId) (splitLe : ir.nextSplitId ≤ nextSplitId) :
    ({ ir with nextAppendId := nextAppendId, nextSplitId := nextSplitId } :
      ConversationIr).WellFormed where
  ids_nodup := wellFormed.ids_nodup
  tidy := wellFormed.tidy
  held_iff := wellFormed.held_iff
  below := by
    intro item member
    have below := wellFormed.below item member
    unfold namespaceWatermark at below ⊢
    cases space : item.id.nameSpace with
    | append =>
        simp only [space] at below ⊢
        exact Nat.lt_of_lt_of_le below appendLe
    | split =>
        simp only [space] at below ⊢
        exact Nat.lt_of_lt_of_le below splitLe

theorem WellFormed.remove (wellFormed : ir.WellFormed) : (ir.remove id).WellFormed where
  ids_nodup := wellFormed.ids_nodup.sublist (List.filter_sublist.map Item.id)
  tidy := wellFormed.tidy.detachFrom
  held_iff := by
    intro target other
    refine held_detachFrom.trans ?_
    rw [wellFormed.held_iff]
    constructor
    · rintro ⟨⟨item, member, rfl, placed⟩, different⟩
      exact ⟨item, List.mem_filter.mpr ⟨member, decide_eq_true different⟩, rfl, placed⟩
    · rintro ⟨item, member, rfl, placed⟩
      rcases List.mem_filter.mp member with ⟨itemMember, different⟩
      exact ⟨⟨item, itemMember, rfl, placed⟩, of_decide_eq_true different⟩
  below := fun item member => wellFormed.below item (List.mem_of_mem_filter member)

/-- Push an item and list it in the region of its placement. -/
def enroll (ir : ConversationIr) (item : Item) : ConversationIr :=
  (ir.push item).attachPlacement item.id item.placement

theorem WellFormed.enroll {item : Item} (wellFormed : ir.WellFormed)
    (fresh : item.id ∉ ir.items.map Item.id)
    (below : item.id.value < ir.namespaceWatermark item.id.nameSpace) :
    (ir.enroll item).WellFormed := by
  have absent : ∀ target, ¬ Held ir.partitions target item.id := by
    intro target held
    rcases (wellFormed.held_iff target item.id).mp held with ⟨existing, member, same, _⟩
    exact fresh (List.mem_map.mpr ⟨existing, member, same⟩)
  unfold ConversationIr.enroll
  constructor
  · rw [attachPlacement_items]
    simp only [push, List.map_append, List.map_cons, List.map_nil]
    exact List.concat_eq_append ▸ wellFormed.ids_nodup.concat fresh
  · exact tidy_attachPlacement wellFormed.tidy absent
  · intro target other
    rw [held_attachPlacement, attachPlacement_items]
    simp only [push, List.mem_append, List.mem_singleton]
    rw [wellFormed.held_iff]
    constructor
    · rintro (⟨existing, member, same, placed⟩ | ⟨placed, rfl⟩)
      · exact ⟨existing, .inl member, same, placed⟩
      · exact ⟨item, .inr rfl, rfl, placed⟩
    · rintro ⟨existing, member | rfl, same, placed⟩
      · exact .inl ⟨existing, member, same, placed⟩
      · exact .inr ⟨placed, same.symm⟩
  · intro existing member
    rw [attachPlacement_items] at member
    rw [attachPlacement_namespaceWatermark]
    rcases List.mem_append.mp member with old | new
    · exact wellFormed.below existing old
    · rw [List.mem_singleton.mp new]
      exact below

/-- Admit items one by one. -/
def enrollAll (ir : ConversationIr) (items : List Item) : ConversationIr :=
  items.foldl enroll ir

@[simp]
theorem enrollAll_items (ir : ConversationIr) (items : List Item) :
    (ir.enrollAll items).items = ir.items ++ items := by
  induction items generalizing ir with
  | nil => simp [enrollAll]
  | cons item items ih =>
      refine (ih (ir.enroll item)).trans ?_
      simp [enroll, push]

@[simp]
theorem enrollAll_namespaceWatermark (ir : ConversationIr) (items : List Item)
    (space : ItemNamespace) :
    (ir.enrollAll items).namespaceWatermark space = ir.namespaceWatermark space := by
  induction items generalizing ir with
  | nil => rfl
  | cons item items ih =>
      refine (ih (ir.enroll item)).trans ?_
      exact attachPlacement_namespaceWatermark item.placement space

theorem WellFormed.enrollAll {items : List Item} (wellFormed : ir.WellFormed)
    (nodup : (items.map Item.id).Nodup)
    (fresh : ∀ item ∈ items, item.id ∉ ir.items.map Item.id)
    (below : ∀ item ∈ items, item.id.value < ir.namespaceWatermark item.id.nameSpace) :
    (ir.enrollAll items).WellFormed := by
  induction items generalizing ir with
  | nil => exact wellFormed
  | cons item items ih =>
      rw [List.map_cons, List.nodup_cons] at nodup
      rw [List.forall_mem_cons] at fresh below
      apply ih (wellFormed.enroll fresh.1 below.1) nodup.2
      · intro other member
        have different : other.id ≠ item.id := fun same =>
          nodup.1 (same ▸ List.mem_map_of_mem member)
        simp only [ConversationIr.enroll, attachPlacement_items, push, List.map_append,
          List.map_cons, List.map_nil, List.mem_append, List.mem_singleton, not_or]
        exact ⟨fresh.2 other member, different⟩
      · intro other member
        exact (attachPlacement_namespaceWatermark item.placement _).symm ▸ below.2 other member

theorem noteMintedId_of_below (below : id.value < ir.namespaceWatermark id.nameSpace) :
    ir.noteMintedId id = ir := by
  unfold noteMintedId
  unfold namespaceWatermark at below
  cases space : id.nameSpace with
  | append =>
      simp only [space] at below
      exact if_neg (Nat.not_le.mpr below)
  | split =>
      simp only [space] at below
      exact if_neg (Nat.not_le.mpr below)

theorem insert_of_fresh {item : Item} (fresh : item.id ∉ ir.items.map Item.id)
    (fits : idFitsProvenance item.id item.provenance = true)
    (below : item.id.value < ir.namespaceWatermark item.id.nameSpace) :
    insert item ir = (.ok item.id, ir.enroll item) := by
  have noDuplicate : ¬ (ir.items.any fun existing => existing.id = item.id) = true := by
    intro duplicate
    rcases List.any_eq_true.mp duplicate with ⟨existing, member, same⟩
    exact fresh (List.mem_map.mpr ⟨existing, member, of_decide_eq_true same⟩)
  unfold insert
  rw [bind_of_ok (read_apply ir), bind_of_ok (refuse_of_not noDuplicate ir),
    bind_of_ok (refuse_of_not (not_not.mpr fits) ir), bind_of_ok (update_apply _ ir),
    noteMintedId_of_below below, bind_of_ok (update_apply _ ir), bind_of_ok (update_apply _ _)]
  rfl

/-- Inserting fresh items under watermarks that already cover them admits them. -/
theorem insertAll_of_fresh {items : List Item} (nodup : (items.map Item.id).Nodup)
    (fresh : ∀ item ∈ items, item.id ∉ ir.items.map Item.id)
    (fits : ∀ item ∈ items, idFitsProvenance item.id item.provenance = true)
    (below : ∀ item ∈ items, item.id.value < ir.namespaceWatermark item.id.nameSpace) :
    insertAll items ir = (.ok (), ir.enrollAll items) := by
  induction items generalizing ir with
  | nil => rfl
  | cons item items ih =>
      rw [List.map_cons, List.nodup_cons] at nodup
      rw [List.forall_mem_cons] at fresh fits below
      rw [insertAll, bind_of_ok (insert_of_fresh fresh.1 fits.1 below.1)]
      apply ih nodup.2
      · intro other member
        have different : other.id ≠ item.id := fun same =>
          nodup.1 (same ▸ List.mem_map_of_mem member)
        simp only [enroll, attachPlacement_items, push, List.map_append,
          List.map_cons, List.map_nil, List.mem_append, List.mem_singleton, not_or]
        exact ⟨fresh.2 other member, different⟩
      · exact fits.2
      · intro other member
        exact (attachPlacement_namespaceWatermark item.placement _).symm ▸ below.2 other member

/-- The children of a split, identified from `value` on. -/
def childrenOf (parent : Item) : Nat → List (List StoreRange) → List Item
  | _, [] => []
  | value, part :: parts =>
      Item.withPlacement (.split value) parent.lane part parent.scope parent.placement ::
        childrenOf parent (value + 1) parts

theorem childrenOf_ids (parent : Item) (value : Nat) (parts : List (List StoreRange)) :
    (childrenOf parent value parts).map Item.id =
      (List.range' value parts.length).map ItemId.split := by
  induction parts generalizing value with
  | nil => rfl
  | cons part parts ih =>
      rw [childrenOf, List.map_cons, ih, List.length_cons, List.range'_succ, List.map_cons]
      rfl

theorem childrenOf_id {parent child : Item} {value : Nat} {parts : List (List StoreRange)}
    (member : child ∈ childrenOf parent value parts) :
    ∃ minted, value ≤ minted ∧ minted < value + parts.length ∧ child.id = .split minted := by
  have idMember := List.mem_map_of_mem (f := Item.id) member
  rw [childrenOf_ids] at idMember
  rcases List.mem_map.mp idMember with ⟨minted, inRange, same⟩
  rw [List.mem_range'_1] at inRange
  exact ⟨minted, inRange.1, inRange.2, same.symm⟩

/-- Children keep the lane and the placement, and their range encloses their bytes. -/
theorem childrenOf_alike {parent child : Item} {value : Nat} {parts : List (List StoreRange)}
    (member : child ∈ childrenOf parent value parts) : child.placement = parent.placement ∧
      child.lane = parent.lane ∧ child.byteRange = enclosing child.provenance := by
  induction parts generalizing value with
  | nil => cases member
  | cons part parts ih =>
      rcases List.mem_cons.mp member with rfl | member
      · exact ⟨rfl, rfl, rfl⟩
      · exact ih member

/-- The child loop never meets a duplicate when the split watermark is sound. -/
theorem pushChildren_of_below {parent : Item} {parts : List (List StoreRange)}
    (below : ∀ item ∈ ir.items, item.id.value < ir.namespaceWatermark item.id.nameSpace) :
    pushChildren parent parts ir =
      (.ok ((childrenOf parent ir.nextSplitId parts).map Item.id),
        { ir with
          items := ir.items ++ childrenOf parent ir.nextSplitId parts
          nextSplitId := ir.nextSplitId + parts.length }) := by
  induction parts generalizing ir with
  | nil => simp [pushChildren, childrenOf]
  | cons part parts ih =>
      let reserved : ConversationIr := { ir with nextSplitId := ir.nextSplitId + 1 }
      let child := Item.withPlacement (.split ir.nextSplitId) parent.lane part parent.scope
        parent.placement
      have reserve : reserveSplitId ir = (.ok (.split ir.nextSplitId), reserved) := rfl
      have noDuplicate :
          ¬ (reserved.items.any fun existing => existing.id = .split ir.nextSplitId) = true := by
        intro duplicate
        rcases List.any_eq_true.mp duplicate with ⟨existing, member, same⟩
        have under := below existing member
        rw [of_decide_eq_true same] at under
        exact Nat.lt_irrefl _ under
      have pushedBelow : ∀ item ∈ (reserved.push child).items,
          item.id.value < (reserved.push child).namespaceWatermark item.id.nameSpace := by
        intro item member
        rcases List.mem_append.mp member with old | new
        · have under := below item old
          unfold namespaceWatermark at under ⊢
          cases space : item.id.nameSpace with
          | append =>
              simp only [space] at under
              exact under
          | split =>
              simp only [space] at under
              exact Nat.lt_succ_of_lt under
        · rw [List.mem_singleton.mp new]
          exact Nat.lt_succ_self ir.nextSplitId
      rw [pushChildren, bind_of_ok reserve, bind_of_ok (read_apply reserved),
        bind_of_ok (refuse_of_not noDuplicate reserved), bind_of_ok (update_apply _ reserved),
        bind_of_ok (ih pushedBelow), pure_apply]
      simp only [reserved, push, childrenOf, List.map_cons, List.append_assoc, List.cons_append,
        List.nil_append, List.length_cons, Nat.add_assoc, Nat.add_comm 1]
      rfl

theorem attachAll_withItems (placement : Placement) (ids : List ItemId) (items : List Item) :
    attachAll placement ids { ir with items := items } =
      { attachAll placement ids ir with items := items } := by
  induction ids generalizing ir with
  | nil => rfl
  | cons id ids ih =>
      have step : ({ ir with items := items } : ConversationIr).attachPlacement id placement =
          { ir.attachPlacement id placement with items := items } := by
        cases placement <;> rfl
      rw [attachAll, List.foldl_cons, step]
      exact ih

/-- Pushing the children and listing them afterwards admits them. -/
theorem attachAll_ids {placement : Placement} {children : List Item}
    (same : ∀ child ∈ children, child.placement = placement) :
    attachAll placement (children.map Item.id) { ir with items := ir.items ++ children } =
      ir.enrollAll children := by
  induction children generalizing ir with
  | nil => simp [attachAll, enrollAll]
  | cons child children ih =>
      rw [List.forall_mem_cons] at same
      have admitted : ir.enroll child =
          { ir.attachPlacement child.id placement with items := ir.items ++ [child] } := by
        rw [enroll, same.1]
        cases placement <;> rfl
      have rest := @ih (ir.enroll child) same.2
      rw [attachAll_withItems, admitted, attachAll_withItems] at rest
      rw [enrollAll, List.foldl_cons, admitted, ← enrollAll, ← rest, attachAll_withItems]
      simp [attachAll]

theorem checkSplit_covers {parent : Item} {parts : List (List StoreRange)}
    {contract : SplitContract} (checked : checkSplit parent parts contract = .ok ()) :
    coversExactly parts.flatten parent.provenance = true := by
  simp only [checkSplit, bind_eq_ok, reject_eq_ok, not_not] at checked
  rcases checked with ⟨_, _, _, _, _, _, _, covers, _⟩
  exact covers

/-- The IR after a split of `parent` into `parts`. -/
def divided (parent : Item) (parts : List (List StoreRange)) (ir : ConversationIr) :
    ConversationIr :=
  enrollAll { ir.remove parent.id with nextSplitId := ir.nextSplitId + parts.length }
    (childrenOf parent ir.nextSplitId parts)

/-- A split whose contract is satisfied succeeds. -/
theorem split_of_checked {parent : Item} {parts : List (List StoreRange)}
    {contract : SplitContract} (wellFormed : ir.WellFormed) (found : ir.item id = .ok parent)
    (checked : checkSplit parent parts contract = .ok ()) :
    split id parts contract ir =
      (.ok ((childrenOf parent ir.nextSplitId parts).map Item.id), ir.divided parent parts) := by
  have sameId : parent.id = id := (item_eq_ok found).2
  have removed : (ir.remove id).WellFormed := wellFormed.remove
  unfold split divided
  rw [sameId, bind_of_ok (read_apply ir), bind_of_ok (ofExcept_eq_ok.mpr ⟨found, rfl⟩),
    bind_of_ok (ofExcept_eq_ok.mpr ⟨checked, rfl⟩), bind_of_ok (update_apply _ ir),
    bind_of_ok (pushChildren_of_below removed.below), bind_of_ok (update_apply _ _), pure_apply]
  rw [← attachAll_ids fun _ child => (childrenOf_alike child).1]
  rfl

theorem split_eq_ok {parts : List (List StoreRange)} {contract : SplitContract}
    {children : List ItemId} (wellFormed : ir.WellFormed)
    (h : split id parts contract ir = (.ok children, next)) :
    ∃ parent, ir.item id = .ok parent ∧ checkSplit parent parts contract = .ok () ∧
      next = ir.divided parent parts := by
  have inverted := h
  simp only [split, bind_eq_ok_iff, read_eq_ok, ofExcept_eq_ok] at inverted
  rcases inverted with ⟨_, _, ⟨rfl, rfl⟩, parent, _, ⟨found, rfl⟩, _, _, ⟨checked, rfl⟩, _⟩
  rw [split_of_checked wellFormed found checked] at h
  exact ⟨parent, found, checked, (Prod.ext_iff.mp h).2.symm⟩

theorem WellFormed.divided {parent : Item} {parts : List (List StoreRange)}
    (wellFormed : ir.WellFormed) : (ir.divided parent parts).WellFormed := by
  have raised : ({ ir.remove parent.id with
      nextSplitId := ir.nextSplitId + parts.length } : ConversationIr).WellFormed :=
    wellFormed.remove.raise (Nat.le_refl _) (Nat.le_add_right _ _)
  apply raised.enrollAll
  · rw [childrenOf_ids]
    refine (List.nodup_range').map ?_
    intro left right same
    exact congrArg ItemId.value same
  · intro child member duplicate
    rcases childrenOf_id member with ⟨value, notBelow, _, same⟩
    rcases List.mem_map.mp duplicate with ⟨existing, existingMember, sameId⟩
    have under := wellFormed.below existing (List.mem_of_mem_filter existingMember)
    rw [sameId, same] at under
    exact absurd under (Nat.not_lt.mpr notBelow)
  · intro child member
    rcases childrenOf_id member with ⟨value, _, under, same⟩
    rw [same]
    exact under

end Operations

end ConversationIr

end Llxprt.Kernel

import Llxprt.Kernel.Lanes
import Llxprt.Kernel.Ranges
import Llxprt.Kernel.Scopes

/-!
# Conversation intermediate representation

Claim-atomic items over store bytes.  Placement is recorded twice, on the item
and in the partition of its region.
-/

namespace Llxprt.Kernel

open Llxprt.Rust

/-- Render region of the projection layout, in occupancy order. -/
inductive Region where
  | head
  | notes
  | body
  | tail
  deriving DecidableEq

namespace Region

def all : List Region :=
  [head, notes, body, tail]

/-- Stable rank used in canonical encodings and operation arguments. -/
def rank : Region → UInt64
  | head => 1
  | notes => 2
  | body => 3
  | tail => 4

def name : Region → String
  | head => "head"
  | notes => "notes"
  | body => "body"
  | tail => "tail"

/-- Resolves a region from its stable rank. -/
def fromRank (rank : UInt64) : Option Region :=
  if rank = 1 then some head
  else if rank = 2 then some notes
  else if rank = 3 then some body
  else if rank = 4 then some tail
  else none

def encode (region : Region) : Bytes :=
  Sink.tag "region" ++ Sink.int region.rank

end Region

/-- Namespace an item identifier is unique within. -/
inductive ItemNamespace where
  | append
  | split
  deriving DecidableEq

def ItemNamespace.code : ItemNamespace → UInt64
  | append => 1
  | split => 2

/-- Immutable identifier of an item. -/
structure ItemId where
  nameSpace : ItemNamespace
  value : Nat
  deriving DecidableEq

namespace ItemId

def append (value : Nat) : ItemId :=
  ⟨.append, value⟩

def split (value : Nat) : ItemId :=
  ⟨.split, value⟩

/-- An operation subject names an item of the append namespace. -/
def new (value : Nat) : ItemId :=
  append value

def encode (id : ItemId) : Bytes :=
  Sink.tag "item" ++ Sink.int id.nameSpace.code ++ Sink.count id.value

end ItemId

/-- One claim of an append: a byte span and its recorded class. -/
structure SegmentClaim where
  span : StoreRange
  structural : Option StructuralClass
  deriving DecidableEq

/-- Explicit placement state of an item. -/
inductive Placement where
  | placed (region : Region)
  | storeOnly
  | phantom
  deriving DecidableEq

/-- Region the placement claims, when placed. -/
def Placement.region : Placement → Option Region
  | placed region => some region
  | storeOnly | phantom => none

/-- One claim with its lane, provenance, scope and placement. -/
structure Item where
  id : ItemId
  lane : Lane
  provenance : List StoreRange
  scope : ScopeId
  placement : Placement
  byteRange : StoreRange
  deriving DecidableEq

/-- Errors raised by conversation-IR operations. -/
inductive IrError where
  | unknownItem (id : Nat)
  | duplicateItem (id : Nat)
  | emptySplit (id : Nat)
  | coverageMismatch (id : Nat)
  | unknownNamespace (found : UInt64)
  | contractMismatch (id : Nat)
  | placementState (id : Nat)
  | claimBoundary (id : Nat)
  | claimsDontCover (sequence : Nat)
  deriving DecidableEq

namespace Item

def withPlacement (id : ItemId) (lane : Lane) (provenance : List StoreRange) (scope : ScopeId)
    (placement : Placement) : Item where
  id := id
  lane := lane
  provenance := provenance
  scope := scope
  placement := placement
  byteRange := enclosing provenance

/-- A fresh item sits out of every region. -/
def new (id : ItemId) (lane : Lane) (provenance : List StoreRange) (scope : ScopeId) : Item :=
  withPlacement id lane provenance scope .storeOnly

def region (item : Item) : Option Region :=
  item.placement.region

/-- Accounting units: covered bytes, counted once. -/
def units (item : Item) : UInt64 :=
  coveredUnits item.provenance

def isPlaceholder (item : Item) : Bool :=
  item.placement = .phantom

def encode (item : Item) : Bytes :=
  item.id.encode ++ Sink.tag item.lane.name ++ Sink.int item.scope ++
    (match item.placement with
      | .placed region => region.encode
      | .storeOnly => Sink.tag "store-only"
      | .phantom => Sink.tag "phantom") ++
    Sink.int item.byteRange.offset ++ Sink.int item.byteRange.length ++
    item.provenance.flatMap fun range => Sink.int range.offset ++ Sink.int range.length

end Item

/-- Occupants of one region, in placement order. -/
structure RegionPartition where
  region : Region
  items : List ItemId
  deriving DecidableEq

/-- The resegment contract: expected part count and range count of each part.
Children always mint from the split namespace. -/
structure SplitContract where
  parts : Nat
  splitPoints : List Nat

/-- An append identifier always carries provenance. -/
def idFitsProvenance (id : ItemId) (provenance : List StoreRange) : Bool :=
  id.nameSpace ≠ .append || provenance ≠ []

structure ConversationIr where
  items : List Item
  partitions : List RegionPartition
  nextAppendId : Nat
  nextSplitId : Nat
  deriving DecidableEq

namespace ConversationIr

def new : ConversationIr :=
  ⟨[], [], 0, 0⟩

def item (ir : ConversationIr) (id : ItemId) : Except IrError Item :=
  okOr (ir.items.find? fun item => item.id = id) (.unknownItem id.value)

/-- Identifiers placed in `region`. -/
def regionItems (ir : ConversationIr) (region : Region) : List ItemId :=
  match ir.partitions.find? fun partition => partition.region = region with
  | some partition => partition.items
  | none => []

/-- Units of the items that the identifiers resolve to, wrapping. -/
def unitsOf (ir : ConversationIr) (ids : List ItemId) : UInt64 :=
  ids.foldr (fun id units =>
    match ir.item id with
    | .ok item => item.units + units
    | .error _ => units) 0

/-- Occupancy charged to `region`. -/
def regionOccupancy (ir : ConversationIr) (region : Region) : UInt64 :=
  ir.unitsOf (ir.regionItems region)

def itemsInLane (ir : ConversationIr) (lane : Lane) : List ItemId :=
  (ir.items.filter fun item => item.lane = lane).map Item.id

/-- Total units of items in `lane`, placed or not. -/
def laneUnits (ir : ConversationIr) (lane : Lane) : UInt64 :=
  ir.unitsOf (ir.itemsInLane lane)

/-- Units of items in `lane` that are currently placed. -/
def lanePlacedUnits (ir : ConversationIr) (lane : Lane) : UInt64 :=
  ir.unitsOf ((ir.itemsInLane lane).filter fun id =>
    match ir.item id with
    | .ok item => item.region.isSome
    | .error _ => false)

/-- Next identifier value of a namespace. -/
def namespaceWatermark (ir : ConversationIr) : ItemNamespace → Nat
  | .append => ir.nextAppendId
  | .split => ir.nextSplitId

/-- Records that `id` was minted. -/
def noteMintedId (id : ItemId) (ir : ConversationIr) : ConversationIr :=
  match id.nameSpace with
  | .append =>
      if ir.nextAppendId ≤ id.value then { ir with nextAppendId := id.value + 1 } else ir
  | .split =>
      if ir.nextSplitId ≤ id.value then { ir with nextSplitId := id.value + 1 } else ir

/-- Take an identifier out of every partition. -/
def detach (id : ItemId) (ir : ConversationIr) : ConversationIr :=
  { ir with
    partitions := ir.partitions.map fun partition =>
      { partition with items := partition.items.filter fun other => other ≠ id } }

/-- Append an identifier to the partition of a region. -/
def attachTo (id : ItemId) (region : Region) : List RegionPartition → List RegionPartition
  | [] => [⟨region, [id]⟩]
  | partition :: rest =>
      if partition.region = region then
        { partition with items := partition.items ++ [id] } :: rest
      else
        partition :: attachTo id region rest

def attach (id : ItemId) (region : Region) (ir : ConversationIr) : ConversationIr :=
  { ir with partitions := attachTo id region ir.partitions }

/-- Attach to the region of a placement, when it has one. -/
def attachPlacement (id : ItemId) (placement : Placement) (ir : ConversationIr) :
    ConversationIr :=
  match placement.region with
  | some region => ir.attach id region
  | none => ir

def push (item : Item) (ir : ConversationIr) : ConversationIr :=
  { ir with items := ir.items ++ [item] }

/-- Change the placement of the item carrying the identifier. -/
def setPlacement (id : ItemId) (placement : Placement) (ir : ConversationIr) : ConversationIr :=
  { ir with
    items := updateFirst (fun item => item.id = id)
      (fun item => { item with placement := placement }) ir.items }

/-- Remove an item and its identifier. -/
def remove (id : ItemId) (ir : ConversationIr) : ConversationIr :=
  ({ ir with items := ir.items.filter fun item => item.id ≠ id }).detach id

/-- Inserts an item under a new identifier. -/
def insert (item : Item) : Method ConversationIr IrError ItemId := do
  let ir ← Method.read
  Method.refuse (ir.items.any fun existing => existing.id = item.id) (.duplicateItem item.id.value)
  Method.refuse (¬ idFitsProvenance item.id item.provenance) (.placementState item.id.value)
  Method.update (noteMintedId item.id)
  Method.update (push item)
  Method.update (attachPlacement item.id item.placement)
  return item.id

/-- Insert items one by one. -/
def insertAll : List Item → Method ConversationIr IrError Unit
  | [] => pure ()
  | item :: items => do
      let _ ← insert item
      insertAll items

/-- Mints the next split identifier. -/
def reserveSplitId : Method ConversationIr IrError ItemId := do
  let ir ← Method.read
  Method.update fun ir => { ir with nextSplitId := ir.nextSplitId + 1 }
  return .split ir.nextSplitId

/-- Places an item in `region`, moving it out of any previous region. -/
def place (id : ItemId) (region : Region) : Method ConversationIr IrError Unit := do
  let ir ← Method.read
  let _ ← Method.ofExcept (ir.item id)
  Method.update (setPlacement id (.placed region))
  Method.update (detach id)
  Method.update (attach id region)

/-- Transitions an item to store-only. -/
def unplace (id : ItemId) : Method ConversationIr IrError Unit := do
  let ir ← Method.read
  let _ ← Method.ofExcept (ir.item id)
  Method.update (setPlacement id .storeOnly)
  Method.update (detach id)

/-- The part loop of a split: each part has the contracted, non-zero number of
ranges. -/
def checkParts (id : ItemId) : List (List StoreRange) → List Nat → Except IrError Unit
  | [], _ => .ok ()
  | part :: parts, points => do
      reject (some part.length ≠ points.head?) (.contractMismatch id.value)
      reject (part = []) (.emptySplit id.value)
      checkParts id parts points.tail

/-- Whether every part is exactly one recorded claim. -/
def claimAtomic (parts : List (List StoreRange)) (claims : List StoreRange) : Bool :=
  parts.length = claims.length && (parts.zip claims).all fun (part, claim) => part = [claim]

/-- Checks that a split of `parent` satisfies its contract. -/
def checkSplit (parent : Item) (parts : List (List StoreRange)) (contract : SplitContract) :
    Except IrError Unit := do
  reject (parts.length ≠ contract.parts ∨ contract.splitPoints.length ≠ contract.parts)
    (.contractMismatch parent.id.value)
  reject (parts = []) (.emptySplit parent.id.value)
  checkParts parent.id parts contract.splitPoints
  reject (¬ coversExactly parts.flatten parent.provenance) (.coverageMismatch parent.id.value)
  reject (1 < (normalize parent.provenance).length ∧
    ¬ claimAtomic parts (normalize parent.provenance)) (.claimBoundary parent.id.value)

/-- The child loop of a split: mint, check and push one child for each part. -/
def pushChildren (parent : Item) :
    List (List StoreRange) → Method ConversationIr IrError (List ItemId)
  | [] => pure []
  | part :: parts => do
      let id ← reserveSplitId
      let ir ← Method.read
      Method.refuse (ir.items.any fun existing => existing.id = id) (.duplicateItem id.value)
      Method.update
        (push (Item.withPlacement id parent.lane part parent.scope parent.placement))
      let ids ← pushChildren parent parts
      return id :: ids

/-- Attach every child to the region of its placement. -/
def attachAll (placement : Placement) (ids : List ItemId) (ir : ConversationIr) :
    ConversationIr :=
  ids.foldl (fun ir id => ir.attachPlacement id placement) ir

/-- Splits an item into claim-atomic children under `contract`. -/
def split (id : ItemId) (parts : List (List StoreRange)) (contract : SplitContract) :
    Method ConversationIr IrError (List ItemId) := do
  let ir ← Method.read
  let parent ← Method.ofExcept (ir.item id)
  Method.ofExcept (checkSplit parent parts contract)
  Method.update (remove id)
  let children ← pushChildren parent parts
  Method.update (attachAll parent.placement children)
  return children

def encode (ir : ConversationIr) : Bytes :=
  Sink.tag "conversation-ir" ++ Sink.count ir.nextAppendId ++ Sink.count ir.nextSplitId ++
    ir.items.flatMap Item.encode ++
    ir.partitions.flatMap fun partition =>
      Sink.int partition.region.rank ++ Sink.count partition.items.length ++
        partition.items.flatMap ItemId.encode

end ConversationIr

end Llxprt.Kernel

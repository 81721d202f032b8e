import Llxprt.Kernel.Reducer
import Llxprt.Rust.Integers

/-!
# Legality gate

A table of predicates over the typed state and a render contract.  The gate
runs the rows in precedence order and returns the first violated predicate with
its text.
-/

namespace Llxprt.Kernel

open Llxprt.Rust

/-- Role a tool declaration plays in call and result pairing. -/
inductive ToolRole where
  | call
  | result
  deriving DecidableEq

/-- One declared tool interaction. -/
structure ToolDeclaration where
  tool : String
  callId : String
  role : ToolRole

/-- Capability descriptor and budgets that the render must fit. -/
structure RenderContract where
  version : Nat
  maxOutputTokens : Nat
  supportsNotesRegion : Bool
  supportsPlaceholders : Bool
  quotingConvention : QuotingConvention
  profileBudgetUnits : Nat
  regionBudgets : List (Region × Nat)
  toolDeclarations : List ToolDeclaration

namespace RenderContract

/-- A contract with every capability and generous budgets. -/
def generous (version : Nat) : RenderContract where
  version := version
  maxOutputTokens := 8192
  supportsNotesRegion := true
  supportsPlaceholders := true
  quotingConvention := .fenced
  profileBudgetUnits := 1000000
  regionBudgets := Region.all.map fun region => (region, 1000000)
  toolDeclarations := []

def supportsRegion (contract : RenderContract) (region : Region) : Bool :=
  region ≠ .notes || contract.supportsNotesRegion

/-- Occupancy budget of a region; an unsupported region has a budget of zero. -/
def regionBudget (contract : RenderContract) (region : Region) : Nat :=
  if contract.supportsRegion region then
    match contract.regionBudgets.find? fun budget => budget.1 = region with
    | some budget => budget.2
    | none => u64Max
  else
    0

/-- Declarations of a call identity in one role. -/
def countRole (contract : RenderContract) (callId : String) (role : ToolRole) : Nat :=
  contract.toolDeclarations.countP fun declaration =>
    declaration.callId = callId ∧ declaration.role = role

end RenderContract

/-- One rejected predicate, with its text. -/
inductive Violation where
  | pairing (predicate : String)
  | ordering (predicate : String)
  | placeholderIllegal (predicate : String)
  | regionOverBudget (predicate : String)
  | floor (predicate : String)
  | pin (predicate : String)
  | quotingConvention (predicate : String)
  | profileOverBudget (predicate : String)
  deriving DecidableEq

/-- Text of the violated predicate. -/
def Violation.predicate : Violation → String
  | pairing predicate | ordering predicate | placeholderIllegal predicate
  | regionOverBudget predicate | floor predicate | pin predicate
  | quotingConvention predicate | profileOverBudget predicate => predicate

/-- Proof that a projection is legal under one contract version. -/
structure LegalContext where
  contractVersion : Nat

namespace Legality

/-- Every declared call identity has exactly one call and one result. -/
def checkPairing (contract : RenderContract) : Option Violation :=
  contract.toolDeclarations.findSome? fun declaration =>
    let calls := contract.countRole declaration.callId .call
    let results := contract.countRole declaration.callId .result
    if calls ≠ 1 ∨ results ≠ 1 then
      some (.pairing ("call-result pairing for " ++ declaration.callId ++ " is " ++
        toString calls ++ " call(s) and " ++ toString results ++ " result(s)"))
    else
      none

/-- The item loop of the ordering row, after the highest region seen. -/
def checkOrderingFrom : Option Region → List Item → Option Violation
  | _, [] => none
  | highest, item :: items =>
      match item.region, highest with
      | none, _ => checkOrderingFrom highest items
      | some region, none => checkOrderingFrom (some region) items
      | some region, some previous =>
          if region.rank < previous.rank then
            some (.ordering ("item " ++ toString item.id.value ++ " placed in " ++ region.name ++
              " after " ++ previous.name))
          else
            checkOrderingFrom (some region) items

/-- Placed items follow the order of the regions. -/
def checkOrdering (state : TypedState) : Option Violation :=
  checkOrderingFrom none state.conversationIr.items

def checkPlaceholder (state : TypedState) (contract : RenderContract) : Option Violation :=
  if contract.supportsPlaceholders then
    none
  else
    state.conversationIr.items.findSome? fun item =>
      if item.isPlaceholder then
        some (.placeholderIllegal ("item " ++ toString item.id.value ++
          " is a placeholder but the contract admits none"))
      else
        none

def checkRegionBudget (state : TypedState) (contract : RenderContract) : Option Violation :=
  Region.all.findSome? fun region =>
    let occupancy := (state.conversationIr.regionOccupancy region).toNat
    let budget := contract.regionBudget region
    if budget < occupancy then
      some (.regionOverBudget ("region " ++ region.name ++ " holds " ++ toString occupancy ++
        " unit(s) against a budget of " ++ toString budget ++ " unit(s)"))
    else
      none

/-- Occupancy of the whole projection. -/
def projectionUnits (state : TypedState) : Nat :=
  Region.all.foldl (fun total region =>
    saturatingAdd total (state.conversationIr.regionOccupancy region).toNat) 0

def checkProfileBudget (state : TypedState) (contract : RenderContract) : Option Violation :=
  if contract.profileBudgetUnits < projectionUnits state then
    some (.profileOverBudget ("projection holds " ++ toString (projectionUnits state) ++
      " unit(s) across all regions against a profile budget of " ++
      toString contract.profileBudgetUnits ++ " unit(s)"))
  else
    none

/-- No lane with reclaimed items retains less than its floor. -/
def checkFloor (state : TypedState) : Option Violation :=
  Lane.all.findSome? fun lane =>
    match state.lanePolicyRegistry.policy lane with
    | .error _ => none
    | .ok policy =>
        let total := state.conversationIr.laneUnits lane
        let placed := state.conversationIr.lanePlacedUnits lane
        if placed < total ∧ placed < policy.floorUnits then
          some (.floor ("lane " ++ lane.name ++ " retains " ++ toString placed ++ " of " ++
            toString total ++ " unit(s), below its floor of " ++ toString policy.floorUnits ++
            " unit(s)"))
        else
          none

/-- Every pinned item exists and is placed. -/
def checkPin (state : TypedState) : Option Violation :=
  state.pins.findSome? fun pin =>
    match state.conversationIr.item pin with
    | .error _ =>
        some (.pin ("pinned item " ++ toString pin.value ++
          " is absent from the conversation ir"))
    | .ok item =>
        if item.region.isNone then
          some (.pin ("pinned item " ++ toString pin.value ++ " is unplaced"))
        else
          none

def checkQuoting (state : TypedState) (contract : RenderContract) : Option Violation :=
  if state.quotingConvention = contract.quotingConvention then
    none
  else
    some (.quotingConvention ("state quotes " ++ state.quotingConvention.name ++
      " but the contract declares " ++ contract.quotingConvention.name))

/-- The legality table, in precedence order. -/
def rules : List (TypedState → RenderContract → Option Violation) :=
  [fun _ contract => checkPairing contract,
    fun state _ => checkOrdering state,
    checkPlaceholder,
    checkRegionBudget,
    checkProfileBudget,
    fun state _ => checkFloor state,
    fun state _ => checkPin state,
    checkQuoting]

end Legality

/-- Runs every row of the table, returning the first violated predicate. -/
def isLegal (state : TypedState) (contract : RenderContract) : Except Violation LegalContext :=
  match Legality.rules.findSome? fun check => check state contract with
  | some violation => .error violation
  | none => .ok ⟨contract.version⟩

/-- The gate accepts under no version but that of its contract. -/
theorem contractVersion_of_isLegal {state : TypedState} {contract : RenderContract}
    {context : LegalContext} (h : isLegal state contract = .ok context) :
    context = ⟨contract.version⟩ := by
  unfold isLegal at h
  split at h
  · cases h
  · cases h
    rfl

end Llxprt.Kernel

import Llxprt.Kernel.Identifiers

/-!
# What a pin protects

A pin carries a bare integer.  It is checked against the values of the placed
items of both namespaces and recorded as an identifier of the append namespace,
so it protects a placed item unless only parts of resegmented items carry the
value.
-/

namespace Llxprt.Kernel

open Llxprt.Rust Method

namespace TypedState

/-- The recorded pin names an item that is placed in a region. -/
def Protects (state : TypedState) (value : Nat) : Prop :=
  ItemId.new value ∈ state.pins ∧
    ∃ item region, state.conversationIr.item (.new value) = .ok item ∧ item.region = some region

/-- Every placed item with the value is a part of a resegmented item. -/
def OnlyParts (state : TypedState) (value : Nat) : Prop :=
  ∀ item ∈ state.conversationIr.items, item.id.value = value → item.region.isSome = true →
    item.id.nameSpace = .split

end TypedState

namespace Reducer

section Accepted

variable [Wire] {window : Nat} {log : EventLog} {state next : TypedState} {event : RecordedEvent}
  {pin : Pin}

/-- An accepted pin was checked against both namespaces and is recorded in one. -/
theorem pin_accepted (isPin : event.kind = .security (.pin pin))
    (accepted : apply event state = (.ok (), next)) :
    pin.item ∈ placedValues state ∧ next.conversationIr = state.conversationIr ∧
      ItemId.new pin.item ∈ next.pins := by
  simp only [apply, isPin, applySecurity, eraseOverlay, onSecurity, SecurityState.apply,
    SecurityState.transition, bind_eq_ok_iff, read_eq_ok, mapErr_eq_ok, focus_eq_ok,
    staged_apply_eq_ok, bind_eq_ok, reject_eq_ok, pure_eq_ok, update_eq_ok, pure_eq_ok_iff]
    at accepted
  rcases accepted with ⟨_, _, ⟨rfl, rfl⟩, _, _, ⟨_, ⟨_, passed, rfl⟩, rfl⟩, _, _, rfl, _, rfl⟩
  simp only [not_or, not_not] at passed
  refine ⟨Std.ExtTreeSet.contains_iff_mem.mp passed.2.2.1, rfl, ?_⟩
  apply List.mem_map_of_mem
  rw [Std.ExtTreeMap.mem_keys]
  exact Std.ExtTreeMap.mem_insert_self

/-- An accepted pin protects a placed item exactly when not only parts carry its
value. -/
theorem pin_protects_iff (folds : fold window log = .ok state)
    (isPin : event.kind = .security (.pin pin))
    (accepted : apply event state = (.ok (), next)) :
    next.Protects pin.item ↔ ¬ state.OnlyParts pin.item := by
  have wellFormed := fold_wellFormed folds
  rcases pin_accepted isPin accepted with ⟨placed, same, recorded⟩
  rw [TypedState.Protects, same]
  constructor
  · rintro ⟨_, item, region, found, inRegion⟩ only
    rcases ConversationIr.item_eq_ok found with ⟨member, named⟩
    have part := only item member (by rw [named]; rfl) (by rw [inRegion]; rfl)
    rw [named] at part
    cases part
  · intro whole
    refine ⟨recorded, ?_⟩
    by_contra unprotected
    apply whole
    intro item member valued inRegion
    cases space : item.id.nameSpace with
    | split => rfl
    | append =>
        rcases Option.isSome_iff_exists.mp inRegion with ⟨region, region_eq⟩
        have named : item.id = .new pin.item := by
          rw [← valued, ItemId.new, ItemId.append, ← space]
        have found := ConversationIr.item_of_mem wellFormed member
        rw [named] at found
        exact absurd ⟨item, region, found, region_eq⟩ unprotected

end Accepted

section Twins

local instance twinsWire : Wire := .emptySession

def twinPin : Pin where
  item := 0
  owner := ⟨"call", .user, .ingress, 1⟩
  expires := 10

def twinEvent : RecordedEvent :=
  .sealed 5 1 1005 v2 (.security (.pin twinPin)) 0

/-- The pin is accepted on the state, and the item of its value is there or not,
as given. -/
def pinsTo (there : Bool) (state : TypedState) : Bool :=
  match apply twinEvent state with
  | (.ok (), next) => decide ((next.conversationIr.item (.new 0)).isOk = there)
  | _ => false

theorem pinsTo_spec {there : Bool} {state : TypedState} (tested : pinsTo there state = true) :
    ∃ next, apply twinEvent state = (.ok (), next) ∧
      (next.conversationIr.item (.new 0)).isOk = there := by
  rw [pinsTo] at tested
  split at tested
  · rename_i next done
    exact ⟨next, done, of_decide_eq_true tested⟩
  · cases tested

/-- The greeting is retired and its parts are placed; a pin with the value of the
first part is recorded for the greeting. -/
theorem pin_of_part :
    ¬ ∀ (window : Nat) (log : EventLog) (state next : TypedState) (event : RecordedEvent)
        (pin : Pin), fold window log = .ok state → event.kind = .security (.pin pin) →
      apply event state = (.ok (), next) → next.Protects pin.item := by
  intro claim
  have divided : (fold idlenessWindow dividedLog).satisfies (pinsTo false) = true := by
    decide +kernel
  rcases Outcome.satisfies_iff.mp divided with ⟨state, folds, tested⟩
  rcases pinsTo_spec tested with ⟨next, accepted, absent⟩
  rcases claim _ _ _ _ _ twinPin folds rfl accepted with ⟨_, item, _, found, _⟩
  change (next.conversationIr.item (.new 0)) = .ok item at found
  rw [found] at absent
  cases absent

/-- The greeting is placed and can be pinned, and the pin protects it. -/
theorem pin_protects_greeting :
    ∃ state next, fold idlenessWindow (dividedLog.prefixLog 3) = .ok state ∧
      apply twinEvent state = (.ok (), next) ∧ next.Protects 0 := by
  have placed : (fold idlenessWindow (dividedLog.prefixLog 3)).satisfies (fun state =>
      pinsTo true state && state.conversationIr.items.any fun item =>
        item.id = .new 0 && item.region.isSome) = true := by
    decide +kernel
  rcases Outcome.satisfies_iff.mp placed with ⟨state, folds, tested⟩
  rw [Bool.and_eq_true, List.any_eq_true] at tested
  rcases tested with ⟨pins, item, member, greeting⟩
  rcases Bool.and_eq_true_iff.mp greeting with ⟨named, inRegion⟩
  have id_eq : item.id = .new 0 := of_decide_eq_true named
  rcases pinsTo_spec pins with ⟨next, accepted, _⟩
  refine ⟨state, next, folds, accepted, (pin_protects_iff folds rfl accepted).mpr ?_⟩
  intro only
  have part := only item member (by rw [id_eq]; rfl) inRegion
  rw [id_eq] at part
  cases part

end Twins

end Reducer

end Llxprt.Kernel

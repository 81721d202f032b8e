import Llxprt.Kernel.Wire
import Llxprt.Rust.Integers

/-!
# Security lifecycle

Pins with expiry, escalations inside the operator envelope, and the erasure
overlay.  Every event runs on a clone of the state.
-/

namespace Llxprt.Kernel

open Llxprt.Rust

def pinCap : Nat := 32

def pinTtl : Nat := 32

structure SecurityState where
  pins : BTreeMap Nat Pin
  escalations : BTreeMap String Escalation
  erased : BTreeMap String Erasure
  deriving DecidableEq

/-- An authenticated source of at least agent authority. -/
def principal (source : Source) : Bool :=
  source.origin = .ingress && .agent ≤ source.authority && !source.leaf.isEmpty

def operator (source : Source) : Bool :=
  principal source && source.authority = .operator

namespace SecurityState

def initial : SecurityState :=
  ⟨∅, ∅, ∅⟩

/-- Drop the pin of an item. -/
def revokeItem (state : SecurityState) (item : Nat) : SecurityState :=
  { state with pins := state.pins.erase item }

def encode [Wire] (state : SecurityState) : Bytes :=
  Sink.tag "context-security" ++
    Sink.blob (Wire.securityState state.pins state.escalations state.erased)

def pending (state : SecurityState) (request : Escalation) :
    Except SecurityError SecurityState := do
  reject (request.id.isEmpty ∨ 256 ≤ state.escalations.size ∨
    state.escalations.contains request.id ∨ request.complete ∨ ¬ operator request.operator ∨
    request.after ≤ request.before ∨ request.envelopeCeiling < request.after) .escalation
  return { state with escalations := state.escalations.insert request.id request }

def transition (event : SecurityEvent) (sequence : Nat) (placed : BTreeSet Nat)
    (state : SecurityState) : Except SecurityError SecurityState :=
  match event with
  | .pin pin => do
      reject (pinCap ≤ state.pins.size ∨ state.pins.contains pin.item ∨
        ¬ placed.contains pin.item ∨ ¬ principal pin.owner ∨ pin.expires ≤ sequence ∨
        saturatingAdd sequence pinTtl < pin.expires) .pin
      return { state with pins := state.pins.insert pin.item pin }
  | .unpin item owner => do
      reject (state.pins[item]?.map Pin.owner ≠ some owner) .pin
      return { state with pins := state.pins.erase item }
  | .expire expiry => do
      reject (sequence < expiry) .pin
      return { state with pins := state.pins.filter fun _ pin => sequence < pin.expires }
  | .escalatePending request => state.pending request
  | .escalateComplete id operator => do
      let request ← okOr state.escalations[id]? .escalation
      reject (request.complete ∨ request.operator ≠ operator) .escalation
      return {
        state with
        escalations := state.escalations.modify id fun request =>
          { request with complete := true } }
  | .erase erasure => do
      reject (erasure.leaf.isEmpty ∨ erasure.vaultHandle.isEmpty ∨
        ¬ validHash erasure.postCheckpoint ∨ ¬ erasure.preHashesUnverifiable ∨
        state.erased.contains erasure.leaf) .erasure
      return { state with erased := state.erased.insert erasure.leaf erasure }

def apply (event : SecurityEvent) (sequence : Nat) (placed : BTreeSet Nat) :
    Method SecurityState SecurityError Unit :=
  Method.staged (transition event sequence placed)

end SecurityState

end Llxprt.Kernel

import Llxprt.Policy.Cache
import Llxprt.Rust.Json

/-!
# The durable side of the policy controller

What the controller writes into the event log and the manifest, and what it
takes back from them.  Every operation and every terminal label is read back
under the spelling it is written with.
-/

namespace Llxprt.Policy

open Llxprt.Rust

inductive PolicyOperation where
  | quiesceRate
  | quiesceUnwritable
  | dropWithHandle
  | wrapUp
  | foldAwayEphemeral
  | placeholderCollapse
  | fold
  | compact
  | condense

namespace PolicyOperation

def asStr : PolicyOperation → String
  | quiesceRate => "quiesce-rate"
  | quiesceUnwritable => "quiesce-unwritable"
  | dropWithHandle => "drop-with-handle"
  | wrapUp => "wrap-up"
  | foldAwayEphemeral => "fold-away-ephemeral"
  | placeholderCollapse => "placeholder-collapse"
  | fold => "fold"
  | compact => "compact"
  | condense => "condense"

def parse (name : String) : Except String PolicyOperation :=
  if name = "quiesce-rate" then .ok quiesceRate
  else if name = "quiesce-unwritable" then .ok quiesceUnwritable
  else if name = "drop-with-handle" then .ok dropWithHandle
  else if name = "wrap-up" then .ok wrapUp
  else if name = "fold-away-ephemeral" then .ok foldAwayEphemeral
  else if name = "placeholder-collapse" then .ok placeholderCollapse
  else if name = "fold" then .ok fold
  else if name = "compact" then .ok compact
  else if name = "condense" then .ok condense
  else .error ("context policy event unknown operation: " ++ name)

theorem parse_asStr (operation : PolicyOperation) : parse operation.asStr = .ok operation := by
  cases operation <;> rfl

end PolicyOperation

inductive TerminalLabel where
  | quiesceRate
  | quiesceUnwritable
  | wrapUp
  deriving DecidableEq

def TerminalLabel.asTerminalStr : TerminalLabel → String
  | quiesceRate => "quiesce_rate"
  | quiesceUnwritable => "quiesce_unwritable"
  | wrapUp => "wrap_up"

structure PolicyEvent where
  logicalTime : UInt64
  source : UInt64
  operation : PolicyOperation
  inputBytes : UInt64
  admittedBytes : UInt64
  reclaimedBytes : UInt64
  armedBefore : Bool
  armedAfter : Bool

namespace PolicyEvent

def fields (event : PolicyEvent) : List (String × Json) :=
  [("logical_time", .number event.logicalTime.toNat), ("source", .number event.source.toNat),
    ("operation", .string event.operation.asStr), ("input_bytes", .number event.inputBytes.toNat),
    ("admitted_bytes", .number event.admittedBytes.toNat),
    ("reclaimed_bytes", .number event.reclaimedBytes.toNat),
    ("armed_before", .bool event.armedBefore), ("armed_after", .bool event.armedAfter)]

def missing (name : String) : String :=
  "context policy event missing " ++ name

def numberField (value : Json) (name : String) : Except String UInt64 :=
  match (value.get name).bind Json.asU64 with
  | some number => .ok (UInt64.ofNat number)
  | none => .error (missing name)

def flagField (value : Json) (name : String) : Except String Bool :=
  match (value.get name).bind Json.asBool with
  | some flag => .ok flag
  | none => .error (missing name)

def fromJson (value : Json) : Except String PolicyEvent := do
  let operation ← match (value.get "operation").bind Json.asStr with
    | some operation => .ok operation
    | none => .error (missing "operation")
  return {
    logicalTime := ← numberField value "logical_time"
    source := ← numberField value "source"
    operation := ← PolicyOperation.parse operation
    inputBytes := ← numberField value "input_bytes"
    admittedBytes := ← numberField value "admitted_bytes"
    reclaimedBytes := ← numberField value "reclaimed_bytes"
    armedBefore := ← flagField value "armed_before"
    armedAfter := ← flagField value "armed_after" }

/-- An event is rebuilt from any value that has its fields. -/
theorem fromJson_of_fields {event : PolicyEvent} {value : Json}
    (has : ∀ field ∈ event.fields, value.get field.1 = some field.2) :
    fromJson value = .ok event := by
  have number : ∀ name number, (name, Json.number (UInt64.toNat number)) ∈ event.fields →
      numberField value name = .ok number := by
    intro name number member
    have bound : number.toNat ≤ u64Max := by
      have := number.toNat_lt
      unfold u64Max
      omega
    simp [numberField, has _ member, Json.asU64, bound]
  have flag : ∀ name flag, (name, Json.bool flag) ∈ event.fields →
      flagField value name = .ok flag := by
    intro name flag member
    simp [flagField, has _ member, Json.asBool]
  have operation : value.get "operation" = some (.string event.operation.asStr) :=
    has ("operation", .string event.operation.asStr) (by simp [fields])
  simp only [fromJson, operation, Option.bind_some, Json.asStr,
    number "logical_time" event.logicalTime (by simp [fields]),
    number "source" event.source (by simp [fields]),
    number "input_bytes" event.inputBytes (by simp [fields]),
    number "admitted_bytes" event.admittedBytes (by simp [fields]),
    number "reclaimed_bytes" event.reclaimedBytes (by simp [fields]),
    flag "armed_before" event.armedBefore (by simp [fields]),
    flag "armed_after" event.armedAfter (by simp [fields]), PolicyOperation.parse_asStr,
    bind, Except.bind]
  rfl

end PolicyEvent

/-- The part of the controller that publication reads, recovery restores and the
checkpoint gate consults. -/
structure Controller where
  quiescing : Bool
  cache : EpochCache
  events : List PolicyEvent
  logicalTime : UInt64
  terminalOutcome : Option TerminalLabel
  terminalFitSaturated : Option Bool
  terminalFitRoom : Option Nat
  terminalWriteFailed : Bool

namespace Controller

def default : Controller :=
  ⟨false, ⟨[]⟩, [], 0, none, none, none, false⟩

/-- The restored clock is the latest time of any event. -/
def restoreHistory (controller : Controller) (events : List PolicyEvent) (cache : EpochCache)
    (logicalTime : UInt64) : Except EpochError Controller :=
  match cache.validate with
  | .error error => .error error
  | .ok () =>
      let reached := events.foldl (fun time event => max time event.logicalTime)
        controller.logicalTime
      .ok { controller with
        events := controller.events ++ events
        cache := cache
        logicalTime := max reached logicalTime }

def restoreTerminalOutcome (controller : Controller) (outcome : TerminalLabel)
    (fitSaturated : Option Bool) : Controller :=
  if controller.terminalOutcome = some .quiesceUnwritable ∨
      controller.terminalOutcome = some .quiesceRate then
    controller
  else
    { controller with
      terminalWriteFailed := controller.terminalWriteFailed || outcome = .quiesceUnwritable
      terminalOutcome := some outcome
      terminalFitSaturated := fitSaturated }

def checkpointAllowed (controller : Controller) (trigger : CutTrigger) : Bool :=
  trigger = .erasure ||
    !controller.quiescing && controller.terminalOutcome ≠ some .quiesceRate &&
      controller.terminalOutcome ≠ some .quiesceUnwritable

def checkpoint (controller : Controller) (cut : CheckpointCut) :
    Except EpochError (Nat × Controller) :=
  if controller.checkpointAllowed cut.trigger = false then
    .error .governorRefused
  else
    match controller.cache.cut cut with
    | .error error => .error error
    | .ok (epoch, cache) => .ok (epoch, { controller with cache := cache })

/-- An accepted checkpoint appends the record of its epoch and changes nothing
else. -/
theorem checkpoint_eq_ok {controller next : Controller} {cut : CheckpointCut} {epoch : Nat}
    (valid : controller.cache.Valid) (shaped : EpochRecord.digestShaped cut.headDigest = true)
    (done : controller.checkpoint cut = .ok (epoch, next)) :
    next.cache.Valid ∧ ∃ record : EpochRecord, record.epoch = epoch ∧
      next = { controller with cache := ⟨controller.cache.records ++ [record]⟩ } := by
  unfold checkpoint at done
  split at done
  · cases done
  · split at done
    · cases done
    · rename_i opened cache cutDone
      cases done
      rcases EpochCache.cut_epoch valid cutDone with ⟨_, rfl⟩
      exact ⟨valid.cut shaped cutDone, _, rfl, rfl⟩

end Controller

end Llxprt.Policy

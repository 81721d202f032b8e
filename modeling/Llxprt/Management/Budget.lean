import Llxprt.Kernel.Serde
import Llxprt.Kernel.Validation.Types
import Llxprt.Rust.Integers
import Llxprt.Rust.Totals

/-!
# Management spend

One budget for the six consumers of the management plane.  A candidate escrows
the worst case of its validation before the compactor may produce anything, and
the gate draws on that escrow alone.  An addition that overflows has no result.
-/

namespace Llxprt.Management

open Llxprt.Kernel Llxprt.Rust

inductive Consumer where
  | classifierAssist
  | compactor
  | requiredFactExtractor
  | assertionExtractor
  | entailmentScorer
  | readBackQuerier
  deriving DecidableEq

def Consumer.gateOnly : Consumer → Bool
  | requiredFactExtractor => true
  | assertionExtractor => true
  | entailmentScorer => true
  | _ => false

inductive ManagementError where
  | configuration
  | exhausted
  | gateway
  | bounds
  | ingestion
  | turn
  deriving DecidableEq

/-- The amounts of one provider turn; they are machine integers. -/
structure SpendConfig where
  total : Nat
  safety : Nat
  gateOnly : Nat
  candidateCost : Nat
  gateCost : Nat
  bounded : total ≤ u64Max

namespace SpendConfig

/-- What is left of the total without the safety reserve. -/
def ordinary (config : SpendConfig) : Nat :=
  config.total - config.safety

def validate (config : SpendConfig) : Except ManagementError Unit :=
  if config.total < config.safety then
    .error .configuration
  else if config.safety < config.gateOnly ∨ config.candidateCost = 0 ∨
      config.gateCost < gateSpendFloor ∨ config.ordinary < config.candidateCost then
    .error .configuration
  else
    let worst := config.ordinary / config.candidateCost * config.gateCost
    if u64Max < worst ∨ config.gateOnly < worst then .error .configuration else .ok ()

end SpendConfig

/-- Permits are minted by a budget and name the reservation they stand for. -/
structure CandidatePermit where
  owner : Nat
  id : Nat
  turn : Nat
  deriving DecidableEq

structure SpendBudget where
  owner : Nat
  config : SpendConfig
  turn : Nat
  ordinary : Nat
  safety : Nat
  gate : Nat
  next : Nat
  escrow : BTreeMap Nat Nat
  charged : Nat

namespace SpendBudget

/-- A budget for a turn; `owner` is drawn from the counter of the process. -/
def new (config : SpendConfig) (owner turn : Nat) : Except ManagementError SpendBudget :=
  match config.validate with
  | .error error => .error error
  | .ok () => .ok ⟨owner, config, turn, config.ordinary, config.safety - config.gateOnly,
      config.gateOnly, 1, ∅, 0⟩

def gateRemaining (budget : SpendBudget) : Nat :=
  budget.gate + total budget.escrow

/-- The pools are debited before the counter is advanced. -/
def reserveCandidate (budget : SpendBudget) :
    Except ManagementError CandidatePermit × SpendBudget :=
  if budget.ordinary < budget.config.candidateCost ∨ budget.gate < budget.config.gateCost then
    (.error .exhausted, budget)
  else
    let debited := { budget with
      ordinary := budget.ordinary - budget.config.candidateCost
      gate := budget.gate - budget.config.gateCost }
    if budget.next < u64Max then
      (.ok ⟨budget.owner, budget.next, budget.turn⟩,
        { debited with
          next := budget.next + 1
          escrow := budget.escrow.insert budget.next budget.config.gateCost })
    else
      (.error .bounds, debited)

def checkPermit (budget : SpendBudget) (permit : CandidatePermit) : Except ManagementError Unit :=
  if permit.owner ≠ budget.owner ∨ permit.turn ≠ budget.turn ∨
      budget.escrow.contains permit.id = false then
    .error .turn
  else
    .ok ()

/-- The sum of the charges of the turn. -/
def addCharge (budget : SpendBudget) (cost : Nat) : Option SpendBudget :=
  (checkedAdd budget.charged cost).map fun charged => { budget with charged := charged }

/-- The full allowance is charged at intent and never refunded. -/
def chargeCompactor (budget : SpendBudget) (permit : CandidatePermit) (cost : Nat) :
    Option (Except ManagementError Unit × SpendBudget) :=
  match budget.checkPermit permit with
  | .error error => some (.error error, budget)
  | .ok () =>
      if budget.config.candidateCost < cost then
        some (.error .bounds, budget)
      else
        (budget.addCharge budget.config.candidateCost).map fun charged => (.ok (), charged)

def chargeGate (budget : SpendBudget) (permit : CandidatePermit) (cost : Nat) :
    Option (Except ManagementError Unit × SpendBudget) :=
  match budget.checkPermit permit with
  | .error error => some (.error error, budget)
  | .ok () =>
      match budget.escrow[permit.id]? with
      | none => some (.error .turn, budget)
      | some remaining =>
          if remaining < cost then
            some (.error .exhausted, budget)
          else
            ({ budget with
              escrow := budget.escrow.insert permit.id (remaining - cost) }.addCharge cost).map
                fun charged => (.ok (), charged)

/-- The ordinary pool pays first, the safety reserve the rest. -/
def charge (budget : SpendBudget) (consumer : Consumer) (cost : Nat) :
    Option (Except ManagementError Unit × SpendBudget) :=
  if consumer.gateOnly = true ∨ consumer = .compactor then
    some (.error .configuration, budget)
  else
    let ordinary := min cost budget.ordinary
    let safety := cost - ordinary
    if budget.safety < safety then
      some (.error .exhausted, budget)
    else
      ({ budget with
        ordinary := budget.ordinary - ordinary
        safety := budget.safety - safety }.addCharge cost).map fun charged => (.ok (), charged)

/-- What is left of the escrow returns to the gate. -/
def finishCandidate (budget : SpendBudget) (permit : CandidatePermit) :
    Option (Except ManagementError Unit × SpendBudget) :=
  match budget.checkPermit permit with
  | .error error => some (.error error, budget)
  | .ok () =>
      match budget.escrow[permit.id]? with
      | none => some (.error .turn, budget)
      | some remaining =>
          (checkedAdd budget.gate remaining).map fun gate =>
            (.ok (), { budget with gate := gate, escrow := budget.escrow.erase permit.id })

def replenish (budget : SpendBudget) (providerTurn : Nat) :
    Except ManagementError Unit × SpendBudget :=
  if providerTurn ≤ budget.turn ∨ budget.escrow.isEmpty = false then
    (.error .turn, budget)
  else
    (.ok (), { budget with
      turn := providerTurn
      ordinary := budget.config.ordinary
      safety := budget.config.safety - budget.config.gateOnly
      gate := budget.config.gateOnly
      charged := 0 })

end SpendBudget

structure QuotedEnvelope where
  instruction : String
  quotedData : List String
  derivativeAuthority : String
  deriving DecidableEq

/-- The length of the serialized envelope. -/
def QuotedEnvelope.encodedLength (envelope : QuotedEnvelope) : Nat :=
  (Recorded.documentBytes (.object [("instruction", .string envelope.instruction),
    ("quoted_data", .array (envelope.quotedData.map Json.string)),
    ("derivative_authority", .string envelope.derivativeAuthority)])).length

structure CallIntent where
  identity : String
  epoch : Nat
  turn : Nat
  consumer : Consumer
  configuration : String
  bound : Nat
  envelope : QuotedEnvelope
  deriving DecidableEq

/-- What the gateway answers to the three requests of one call. -/
structure GatewayAnswers where
  recordIntent : Except ManagementError Unit
  sendOnce : Except ManagementError String
  admitResponse : Except ManagementError Unit

structure ManagementPlane where
  spend : SpendBudget
  epoch : Nat
  nameSpace : String
  sequence : Nat
  sentCompactors : BTreeMap Nat String

/-- The result of a call, the plane after it and the intent that was sent. -/
structure Reply where
  result : Except ManagementError String
  plane : ManagementPlane
  sent : Option CallIntent

namespace ManagementPlane

def new (spend : SpendBudget) (epoch : Nat) (nameSpace : String) :
    Except ManagementError ManagementPlane :=
  if epoch = 0 ∨ nameSpace = "" ∨ 256 < (utf8 nameSpace).length then
    .error .configuration
  else
    .ok ⟨spend, epoch, nameSpace, 0, ∅⟩

def reserveCandidate (plane : ManagementPlane) :
    Except ManagementError CandidatePermit × ManagementPlane :=
  match plane.spend.reserveCandidate with
  | (result, spend) => (result, { plane with spend := spend })

/-- The record of the send is dropped before the permit is checked. -/
def finishCandidate (plane : ManagementPlane) (permit : CandidatePermit) :
    Option (Except ManagementError Unit × ManagementPlane) :=
  (plane.spend.finishCandidate permit).map fun (result, spend) =>
    (result, { plane with
      sentCompactors := plane.sentCompactors.erase permit.id
      spend := spend })

def replenish (plane : ManagementPlane) (turn : Nat) :
    Except ManagementError Unit × ManagementPlane :=
  match plane.spend.replenish turn with
  | (result, spend) => (result, { plane with spend := spend })

def checkCall (configuration : String) (bound : Nat) (envelope : QuotedEnvelope) :
    Except ManagementError Unit :=
  if configuration = "" ∨ bound < envelope.encodedLength + maxArtifactBytes ∨
      envelope.derivativeAuthority ≠ "none" ∨ envelope.instruction = "" ∨
      maxEnvelopeBytes < envelope.encodedLength then
    .error .bounds
  else
    .ok ()

def intent (plane : ManagementPlane) (consumer : Consumer) (configuration : String) (bound : Nat)
    (envelope : QuotedEnvelope) : CallIntent where
  identity := plane.nameSpace ++ ":" ++ toString plane.epoch ++ ":" ++ toString plane.sequence
  epoch := plane.epoch
  turn := plane.spend.turn
  consumer := consumer
  configuration := configuration
  bound := bound
  envelope := envelope

/-- One attempt: the intent is recorded, sent and its response admitted. -/
def attempt (answers : GatewayAnswers) (intent : CallIntent) :
    Except ManagementError String × Option CallIntent :=
  match answers.recordIntent with
  | .error error => (.error error, none)
  | .ok () =>
      match answers.sendOnce with
      | .error error => (.error error, some intent)
      | .ok raw =>
          if raw = "" ∨ maxArtifactBytes < (utf8 raw).length then
            (.error .bounds, some intent)
          else
            match answers.admitResponse with
            | .error error => (.error error, some intent)
            | .ok () => (.ok raw, some intent)

def dispatch (plane : ManagementPlane) (consumer : Consumer) (configuration : String) (bound : Nat)
    (envelope : QuotedEnvelope) (answers : GatewayAnswers) : Reply :=
  match checkedAdd plane.sequence 1 with
  | none => ⟨.error .bounds, plane, none⟩
  | some sequence =>
      let numbered := { plane with sequence := sequence }
      match attempt answers (numbered.intent consumer configuration bound envelope) with
      | (result, sent) => ⟨result, numbered, sent⟩

/-- The reply of a call that is refused before it is sent. -/
def refuse (plane : ManagementPlane) (error : ManagementError) : Reply :=
  ⟨.error error, plane, none⟩

def execute (plane : ManagementPlane) (consumer : Consumer) (configuration : String) (bound : Nat)
    (envelope : QuotedEnvelope) (answers : GatewayAnswers) : Option Reply :=
  match checkCall configuration bound envelope with
  | .error error => some (plane.refuse error)
  | .ok () =>
      (plane.spend.charge consumer bound).map fun
        | (.error error, spend) => { plane with spend := spend }.refuse error
        | (.ok (), spend) =>
            { plane with spend := spend }.dispatch consumer configuration bound envelope answers

def compact (plane : ManagementPlane) (permit : CandidatePermit) (configuration : String)
    (bound : Nat) (envelope : QuotedEnvelope) (answers : GatewayAnswers) : Option Reply :=
  match checkCall configuration bound envelope with
  | .error error => some (plane.refuse error)
  | .ok () =>
      match plane.spend.checkPermit permit with
      | .error error => some (plane.refuse error)
      | .ok () =>
          if plane.sentCompactors.contains permit.id then
            some (plane.refuse .turn)
          else
            (plane.spend.chargeCompactor permit bound).map fun
              | (.error error, spend) => { plane with spend := spend }.refuse error
              | (.ok (), spend) =>
                  { plane with
                    spend := spend
                    sentCompactors := plane.sentCompactors.insert permit.id configuration }.dispatch
                      .compactor configuration bound envelope answers

/-- The bound of a gate call counts the whole input and the output allowance. -/
def gateCall (plane : ManagementPlane) (permit : CandidatePermit) (consumer : Consumer)
    (configuration : String) (envelope : QuotedEnvelope) (answers : GatewayAnswers) :
    Option Reply :=
  if consumer.gateOnly = false then
    some (plane.refuse .configuration)
  else
    match checkedAdd envelope.encodedLength maxArtifactBytes with
    | none => some (plane.refuse .bounds)
    | some bound =>
        match checkCall configuration bound envelope with
        | .error error => some (plane.refuse error)
        | .ok () =>
            (plane.spend.chargeGate permit bound).map fun
              | (.error error, spend) => { plane with spend := spend }.refuse error
              | (.ok (), spend) =>
                  { plane with spend := spend }.dispatch consumer configuration bound envelope answers

end ManagementPlane

end Llxprt.Management

import Llxprt.Kernel.Canonical

/-!
# Lanes and the versioned lane-policy registry

A lane is the content class of one claim.  The registry assigns each lane its
retention policy, and every registry version stays resolvable.
-/

namespace Llxprt.Kernel

/-- Structural class of one claim, recorded by segmentation. -/
inductive StructuralClass where
  | exactSpan
  | identifier
  | code
  | testLog
  | noise
  | unknown
  deriving DecidableEq

/-- Stable name used in canonical encodings. -/
def StructuralClass.name : StructuralClass → String
  | exactSpan => "exact-span"
  | identifier => "identifier"
  | code => "code"
  | testLog => "test-log"
  | noise => "noise"
  | unknown => "unknown"

def StructuralClass.encode (structural : StructuralClass) : Bytes :=
  Sink.tag structural.name

/-- Content class of an item. -/
inductive Lane where
  | constitutional
  | decisional
  | evidential
  | ephemeral
  deriving DecidableEq

namespace Lane

/-- Stable name used in canonical encodings. -/
def name : Lane → String
  | constitutional => "constitutional"
  | decisional => "decisional"
  | evidential => "evidential"
  | ephemeral => "ephemeral"

/-- All lanes in registry order. -/
def all : List Lane :=
  [constitutional, decisional, evidential, ephemeral]

/-- Lane a recorded structural class claims. -/
def forStructuralClass : StructuralClass → Lane
  | .exactSpan => constitutional
  | .identifier => constitutional
  | .code => evidential
  | .testLog => evidential
  | .noise => ephemeral
  | .unknown => decisional

end Lane

/-- Target fidelity a lane's items must retain. -/
inductive Fidelity where
  | verbatim
  | fieldPreserving
  | digest
  | droppable
  deriving DecidableEq

def Fidelity.code : Fidelity → UInt64
  | verbatim => 1
  | fieldPreserving => 2
  | digest => 3
  | droppable => 4

/-- Derivative operations the closed operation set can propose on an item. -/
inductive DerivativeOp where
  | fold
  | compact
  | condense
  | digest
  | dropWithHandle
  | placeholderCollapse
  deriving DecidableEq

def DerivativeOp.code : DerivativeOp → UInt64
  | fold => 1
  | compact => 2
  | condense => 3
  | digest => 4
  | dropWithHandle => 5
  | placeholderCollapse => 6

/-- Survival-set class the validation gate selects for a lane. -/
inductive SurvivalClass where
  | protectedSpan
  | required
  | bestEffort
  | excluded
  deriving DecidableEq

def SurvivalClass.code : SurvivalClass → UInt64
  | protectedSpan => 1
  | required => 2
  | bestEffort => 3
  | excluded => 4

/-- One registry row: the complete policy for one lane. -/
structure LanePolicy where
  lane : Lane
  fidelity : Fidelity
  permitted : List DerivativeOp
  droppabilityRank : UInt64
  survival : SurvivalClass
  floorUnits : UInt64
  deriving DecidableEq

def LanePolicy.encode (row : LanePolicy) : Bytes :=
  Sink.tag row.lane.name ++ Sink.int row.fidelity.code ++ Sink.int row.droppabilityRank ++
    Sink.int row.survival.code ++ Sink.int row.floorUnits ++
    row.permitted.flatMap fun operation => Sink.int operation.code

/-- Errors raised by registry lookups. -/
inductive PolicyError where
  | unsupportedVersion (requested latest : UInt64)
  | missingRow (lane : String)
  deriving DecidableEq

/-- Latest registry version resolvable for the session's life. -/
def lanePolicyLatestVersion : UInt64 := 2

/-- Versioned registry assigning each lane its retention policy. -/
structure LanePolicyRegistry where
  version : UInt64
  policies : List LanePolicy
  deriving DecidableEq

namespace LanePolicyRegistry

def build (version : UInt64) (evidential : Fidelity) (evidentialFloor : UInt64) :
    LanePolicyRegistry where
  version := version
  policies := [
    { lane := .constitutional
      fidelity := .verbatim
      permitted := []
      droppabilityRank := 4
      survival := .protectedSpan
      floorUnits := 512 },
    { lane := .decisional
      fidelity := .fieldPreserving
      permitted := [.fold, .compact]
      droppabilityRank := 3
      survival := .required
      floorUnits := 128 },
    { lane := .evidential
      fidelity := evidential
      permitted := [.fold, .compact, .condense, .digest, .dropWithHandle, .placeholderCollapse]
      droppabilityRank := 2
      survival := .bestEffort
      floorUnits := evidentialFloor },
    { lane := .ephemeral
      fidelity := .droppable
      permitted := [.fold, .dropWithHandle]
      droppabilityRank := 1
      survival := .excluded
      floorUnits := 0 }]

/-- The complete registry for `version`. -/
def resolve (version : UInt64) : Except PolicyError LanePolicyRegistry :=
  if version = 1 then .ok (build 1 .fieldPreserving 0)
  else if version = 2 then .ok (build 2 .digest 256)
  else .error (.unsupportedVersion version lanePolicyLatestVersion)

/-- The latest registry. -/
def latest : LanePolicyRegistry :=
  match resolve lanePolicyLatestVersion with
  | .ok registry => registry
  | .error _ => build lanePolicyLatestVersion .digest 256

/-- `LanePolicyRegistry::resolve(version).unwrap_or_else(|_| latest())`. -/
def resolveOrLatest (version : UInt64) : LanePolicyRegistry :=
  match resolve version with
  | .ok registry => registry
  | .error _ => latest

/-- The policy row for `lane`. -/
def policy (registry : LanePolicyRegistry) (lane : Lane) : Except PolicyError LanePolicy :=
  match registry.policies.find? fun row => row.lane = lane with
  | some row => .ok row
  | none => .error (.missingRow lane.name)

def encode (registry : LanePolicyRegistry) : Bytes :=
  Sink.tag "lane-policy-registry" ++ Sink.int registry.version ++
    registry.policies.flatMap LanePolicy.encode

end LanePolicyRegistry

end Llxprt.Kernel

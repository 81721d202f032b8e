import Llxprt.Policy.Runtime
import Mathlib.Data.Rat.Defs

/-!
# The admission governor and the pressure arm

Source and window quotas, the ceiling of a turn and the rate of reclamation.
An assertion of the source that fails is `none`.  Finite floating-point numbers
are rational; the one comparison that rounds, that of admissions with `alpha`
times reclamation, is part of the configuration.
-/

namespace Llxprt.Policy

open Llxprt.Rust

structure GovernorConfig where
  perWindowQuota : Nat
  perTurnCeiling : Nat
  quotaFloor : Nat
  alphaValid : Bool
  withinAlpha (admitted reclaimed : Nat) : Bool

structure GovernorState where
  quota : Nat
  turnAdmitted : Nat
  windowAdmitted : Nat
  windowReclaimed : Nat
  violations : Nat
  atFloor : Bool
  quiescing : Bool

inductive Admission where
  | admits
  | handle
  | quiesce
  deriving DecidableEq

structure Governor where
  config : GovernorConfig
  state : GovernorState
  sourceAdmitted : BTreeMap UInt64 Nat
  activeWindow : Option Nat
  floorViolationSeen : Bool

namespace Governor

def new (config : GovernorConfig) : Option Governor :=
  if 0 < config.perWindowQuota ∧ 0 < config.perTurnCeiling ∧ 0 < config.quotaFloor ∧
      config.quotaFloor ≤ config.perWindowQuota ∧ config.alphaValid = true then
    some {
      config := config
      state := ⟨config.perWindowQuota, 0, 0, 0, 0, config.perWindowQuota = config.quotaFloor, false⟩
      sourceAdmitted := ∅
      activeWindow := none
      floorViolationSeen := false }
  else
    none

/-- An admission counted at its raw bound is corrected to the measured size, as
long as its window is still the active one. -/
def settleAdmission (governor : Governor) (source : UInt64) (window raw admitted : Nat) :
    Governor :=
  if governor.activeWindow ≠ some window then
    governor
  else
    let refund := raw - admitted
    let used := governor.sourceAdmitted[source]?.getD 0
    { governor with
      sourceAdmitted := governor.sourceAdmitted.insert source (used - refund)
      state := { governor.state with
        windowAdmitted := governor.state.windowAdmitted - refund
        turnAdmitted := governor.state.turnAdmitted - refund
        windowReclaimed := saturatingAdd governor.state.windowReclaimed refund } }

def beginTurn (governor : Governor) : Governor :=
  { governor with state := { governor.state with turnAdmitted := 0 } }

/-- Windows must advance monotonically. -/
def enterWindow (governor : Governor) (window : Nat) : Option Governor :=
  if governor.activeWindow = some window then
    some governor
  else
    let entered := { governor with
      activeWindow := some window
      sourceAdmitted := ∅
      state := { governor.state with windowAdmitted := 0, windowReclaimed := 0 } }
    match governor.activeWindow with
    | none => some entered
    | some active => if active < window then some entered else none

/-- The verdict on an admission into a window that was entered. -/
def decide (governor : Governor) (source : UInt64) (bytes : Nat) : Admission × Governor :=
  let sourceUsed := governor.sourceAdmitted[source]?.getD 0
  if governor.config.perTurnCeiling < saturatingAdd governor.state.turnAdmitted bytes ∨
      governor.state.quota < saturatingAdd sourceUsed bytes then
    (.handle, governor)
  else
    (.admits, { governor with
      state := { governor.state with
        turnAdmitted := saturatingAdd governor.state.turnAdmitted bytes
        windowAdmitted := saturatingAdd governor.state.windowAdmitted bytes }
      sourceAdmitted := governor.sourceAdmitted.insert source (saturatingAdd sourceUsed bytes) })

def admitBytes (governor : Governor) (source : UInt64) (bytes window : Nat) :
    Option (Admission × Governor) :=
  if governor.state.quiescing then
    some (.quiesce, governor)
  else
    (governor.enterWindow window).map fun governor => governor.decide source bytes

def observeReclaim (governor : Governor) (bytes window : Nat) : Option Governor :=
  (governor.enterWindow window).map fun governor =>
    { governor with state := { governor.state with
      windowReclaimed := saturatingAdd governor.state.windowReclaimed bytes } }

def predicateHolds (governor : Governor) : Bool :=
  governor.config.withinAlpha governor.state.windowAdmitted governor.state.windowReclaimed

/-- A violation halves the distance of the quota to its floor; a second one at
the floor quiesces. -/
def tighten (governor : Governor) : Governor :=
  let violations := min (governor.state.violations + 1) (2 ^ 32 - 1)
  if governor.config.quotaFloor < governor.state.quota then
    let quota := governor.config.quotaFloor +
      (governor.state.quota - governor.config.quotaFloor) / 2
    let atFloor := quota = governor.config.quotaFloor
    { governor with
      state := { governor.state with violations := violations, quota := quota, atFloor := atFloor }
      floorViolationSeen := governor.floorViolationSeen || atFloor }
  else if governor.floorViolationSeen then
    { governor with
      state := { governor.state with violations := violations, quiescing := true } }
  else
    { governor with
      state := { governor.state with violations := violations }
      floorViolationSeen := true }

/-- Only the active window can be finished. -/
def finishWindow (governor : Governor) (window : Nat) : Option (Bool × Governor) :=
  if governor.activeWindow ≠ some window then
    none
  else if governor.predicateHolds then
    some (true, { governor with floorViolationSeen := false })
  else
    some (false, governor.tighten)

end Governor

inductive SafetyTier where
  | disarmed
  | armed
  deriving DecidableEq

structure Thresholds where
  arm : ℚ
  disarm : ℚ
  target : ℚ

/-- Thresholds lie in the unit interval, the target below the disarming one and
that below the arming one. -/
def Thresholds.new (arm disarm target : ℚ) : Option Thresholds :=
  if (0 ≤ arm ∧ arm ≤ 1) ∧ (0 ≤ disarm ∧ disarm ≤ 1) ∧ (0 ≤ target ∧ target ≤ 1) ∧
      target < disarm ∧ disarm < arm then
    some ⟨arm, disarm, target⟩
  else
    none

structure Pressure where
  thresholds : Thresholds
  tier : SafetyTier
  floor : ℚ

namespace Pressure

def new (thresholds : Thresholds) : Pressure :=
  ⟨thresholds, .disarmed, 0⟩

/-- The tier after an observation, with the effective target as hysteresis. -/
def nextTier (pressure : Pressure) (projected occupancy minimumFloor : ℚ) : SafetyTier :=
  if pressure.tier = .disarmed ∧ pressure.thresholds.arm ≤ projected then
    .armed
  else if pressure.tier = .armed ∧ occupancy ≤ max pressure.thresholds.target minimumFloor then
    .disarmed
  else
    pressure.tier

def observe (pressure : Pressure) (projected occupancy minimumFloor : ℚ) : Option Pressure :=
  if 0 ≤ minimumFloor ∧ minimumFloor ≤ 1 then
    some { pressure with
      floor := minimumFloor
      tier := pressure.nextTier projected occupancy minimumFloor }
  else
    none

end Pressure

/-- The monitor's count of tier changes, its cap and the run of disarmed
windows. -/
structure RuntimeMonitor where
  cap : Nat
  thrash : Nat
  frozen : Bool
  disarmedWindows : Nat

namespace RuntimeMonitor

def new (cap : Nat) : Option RuntimeMonitor :=
  if 0 < cap then some ⟨cap, 0, false, 0⟩ else none

def beginWindow (monitor : RuntimeMonitor) (armed : Bool) : RuntimeMonitor :=
  if armed then { monitor with disarmedWindows := 0 }
  else { monitor with disarmedWindows := saturatingAdd monitor.disarmedWindows 1 }

def observeThrash (monitor : RuntimeMonitor) : RuntimeMonitor :=
  if monitor.frozen then monitor
  else { monitor with thrash := min (min (monitor.thrash + 1) (2 ^ 32 - 1)) monitor.cap }

end RuntimeMonitor

end Llxprt.Policy

import Llxprt.Kernel.Canonical
import Llxprt.Policy.Governor

/-!
# The proposal-only controller

The controller consults the governor before a write and settles the measured
outcome afterwards.  A call on which an assertion fails has no result, so a run
without a result is a run that panicked.
-/

namespace Llxprt.Policy

open Llxprt.Rust Llxprt.Kernel

section Ladder

inductive Rung where
  | foldAwayEphemeral
  | collapsePlaceholders
  | dropWithHandle
  | fold
  | compact
  | condense
  deriving DecidableEq

def Rung.operation : Rung → String
  | foldAwayEphemeral => "fold-away-ephemeral"
  | collapsePlaceholders => "placeholder-collapse"
  | dropWithHandle => "drop-with-handle"
  | fold => "fold"
  | compact => "compact"
  | condense => "condense"

/-- How the managed region degrades. -/
inductive DegradationClass where
  | ephemeralBuildup
  | placeholderSaturation
  | rederivableBulk
  | redundantDetail
  | fragmentedContent
  | generalDegradation

def DegradationClass.emergencyRung : DegradationClass → Rung
  | ephemeralBuildup => .foldAwayEphemeral
  | placeholderSaturation => .collapsePlaceholders
  | rederivableBulk => .dropWithHandle
  | redundantDetail => .fold
  | fragmentedContent => .compact
  | generalDegradation => .condense

/-- The class that the split of a completed transaction names. -/
def degradationClass (reclaimed : Nat) : DegradationClass :=
  if reclaimed = 0 then .rederivableBulk else .generalDegradation

/-- The operation that a completion names: the first step of an escalation is the
emergency rung of its class. -/
def rungOperation (reclaimed : Nat) : PolicyOperation :=
  match PolicyOperation.parse (degradationClass reclaimed).emergencyRung.operation with
  | .ok operation => operation
  | .error _ => .dropWithHandle

end Ladder

structure BulkProposal where
  source : UInt64
  logicalTime : Nat
  admission : Admission
  armed : Bool
  inputBytes : Nat
  window : Nat

/-- The calibrations that the controller reads from the registry. -/
structure PolicyConfig where
  governor : GovernorConfig
  arm : ℚ
  disarm : ℚ
  target : ℚ
  minimumFloor : ℚ
  stickyCap : Nat

structure ProposalOnlyController where
  governor : Governor
  pressure : Pressure
  monitor : RuntimeMonitor
  cache : EpochCache
  events : List PolicyEvent
  logicalTime : Nat
  terminalOutcome : Option TerminalLabel
  terminalFitSaturated : Option Bool
  terminalFitRoom : Option Nat
  terminalWriteFailed : Bool
  minimumFloor : ℚ
  turnWindow : Nat
  pressureTierBefore : SafetyTier
  noopSteps : Nat

/-- One call on the controller.  Of the written bytes only their number is
read. -/
inductive PolicyCall where
  | beginSessionWindow
  | proposeBulk (tool : String) (inputBytes : Nat) (projectedPressure : ℚ)
  | completeBulk (proposal : BulkProposal) (bytes admittedBytes : Nat) (admittedPressure : ℚ)
  | abortBulk (proposal : BulkProposal)
  | finishSessionWindow
  | recordRateRefusal (proposal : BulkProposal)
  | wrapUp (cost available : Nat) (writable : Bool)

namespace ProposalOnlyController

def fromRegistry (config : PolicyConfig) : Option ProposalOnlyController := do
  let governor ← Governor.new config.governor
  let thresholds ← Thresholds.new config.arm config.disarm config.target
  let monitor ← RuntimeMonitor.new config.stickyCap
  return {
    governor := governor
    pressure := .new thresholds
    monitor := monitor
    cache := ⟨[]⟩
    events := []
    logicalTime := 0
    terminalOutcome := none
    terminalFitSaturated := none
    terminalFitRoom := none
    terminalWriteFailed := false
    minimumFloor := config.minimumFloor
    turnWindow := 0
    pressureTierBefore := .disarmed
    noopSteps := 0 }

/-- A change of the tier is a signal for the monitor. -/
def observePressureSignal (controller : ProposalOnlyController) (before after : SafetyTier) :
    ProposalOnlyController :=
  let monitor := if before ≠ after then controller.monitor.observeThrash else controller.monitor
  { controller with monitor := monitor.beginWindow (after = .armed) }

def proposeBulk (controller : ProposalOnlyController) (tool : String) (inputBytes : Nat)
    (projectedPressure : ℚ) : Option (BulkProposal × ProposalOnlyController) := do
  let logicalTime := saturatingAdd controller.logicalTime 1
  let source := digest (utf8 tool)
  let pressure ← controller.pressure.observe projectedPressure projectedPressure
    controller.minimumFloor
  let (admission, governor) ← controller.governor.admitBytes source inputBytes controller.turnWindow
  return (⟨source, logicalTime, admission, pressure.tier = .armed, inputBytes,
      controller.turnWindow⟩,
    { controller with governor := governor, pressure := pressure, logicalTime := logicalTime })

/-- The governor with the window that was entered last closed. -/
def closeWindow (controller : ProposalOnlyController) : Option Governor :=
  if controller.governor.activeWindow.isSome then
    (controller.governor.finishWindow controller.turnWindow).map Prod.snd
  else
    some controller.governor

/-- The previous window is closed first. -/
def beginSessionWindow (controller : ProposalOnlyController) : Option ProposalOnlyController := do
  let governor ← controller.closeWindow
  return { controller with
    governor := governor.beginTurn
    turnWindow := saturatingAdd controller.turnWindow 1 }

def finishSessionWindow (controller : ProposalOnlyController) : Option ProposalOnlyController := do
  let state := controller.governor.state
  let noopSteps := if 0 < state.windowAdmitted ∧ state.windowReclaimed = 0 then
    saturatingAdd controller.noopSteps 1 else controller.noopSteps
  let (_, governor) ← controller.governor.finishWindow controller.turnWindow
  return { controller with governor := governor, noopSteps := noopSteps }

/-- The event of a completion and the terminal it records. -/
def recordCompletion (controller : ProposalOnlyController) (proposal : BulkProposal)
    (admittedBytes reclaimed : Nat) (armedAfter : Bool) : ProposalOnlyController :=
  let verdict := if controller.governor.state.quiescing then .quiesce else proposal.admission
  let operation := if verdict = .quiesce then .quiesceRate else rungOperation reclaimed
  { controller with
    events := controller.events ++ [⟨UInt64.ofNat proposal.logicalTime, proposal.source, operation,
      UInt64.ofNat proposal.inputBytes, UInt64.ofNat admittedBytes, UInt64.ofNat reclaimed,
      proposal.armed, armedAfter⟩]
    terminalOutcome := if verdict = .quiesce then some .quiesceRate else none }

def completeBulk (controller : ProposalOnlyController) (proposal : BulkProposal)
    (bytes admittedBytes : Nat) (admittedPressure : ℚ) : Option ProposalOnlyController := do
  let reclaimed := bytes - admittedBytes
  let settled := controller.governor.settleAdmission proposal.source proposal.window
    proposal.inputBytes admittedBytes
  let governor ← settled.observeReclaim reclaimed proposal.window
  let pressure ← controller.pressure.observe admittedPressure admittedPressure
    controller.minimumFloor
  let observed := { controller with
    governor := governor
    pressure := pressure
    pressureTierBefore := pressure.tier }.observePressureSignal controller.pressureTierBefore
      pressure.tier
  return observed.recordCompletion proposal admittedBytes reclaimed (pressure.tier = .armed)

/-- A failed store transaction. -/
def abortBulk (controller : ProposalOnlyController) (proposal : BulkProposal) :
    Option ProposalOnlyController := do
  let pressure ← controller.pressure.observe 0 0 controller.minimumFloor
  let armedAfter := pressure.tier = .armed
  let observed := { controller with
    pressure := pressure
    pressureTierBefore := pressure.tier }.observePressureSignal controller.pressureTierBefore
      pressure.tier
  return { observed with
    monitor := observed.monitor.beginWindow armedAfter
    events := observed.events ++ [⟨UInt64.ofNat proposal.logicalTime, proposal.source,
      .quiesceUnwritable, UInt64.ofNat proposal.inputBytes, 0, 0, proposal.armed, armedAfter⟩]
    terminalOutcome := some .quiesceUnwritable
    terminalWriteFailed := true }

def recordRateRefusal (controller : ProposalOnlyController) (proposal : BulkProposal) :
    ProposalOnlyController :=
  let armed := controller.pressure.tier = .armed
  { controller with
    monitor := controller.monitor.beginWindow armed
    events := controller.events ++ [⟨UInt64.ofNat proposal.logicalTime, proposal.source,
      .quiesceRate, UInt64.ofNat proposal.inputBytes, 0, 0, proposal.armed, armed⟩]
    terminalOutcome := some .quiesceRate }

/-- The wrap-up fits into what is left of the region. -/
def terminalReserve (wrapUpCost available : Nat) : Bool :=
  wrapUpCost ≤ available

def wrapUp (controller : ProposalOnlyController) (cost available : Nat) (writable : Bool) :
    ProposalOnlyController :=
  if controller.terminalWriteFailed then
    controller
  else if writable = false then
    { controller with
      terminalFitRoom := some available
      terminalWriteFailed := true
      terminalFitSaturated := some true
      terminalOutcome := some .quiesceUnwritable }
  else if terminalReserve cost available = false then
    { controller with
      terminalFitRoom := some available
      terminalFitSaturated := some true
      terminalOutcome := some .quiesceUnwritable }
  else
    let logicalTime := saturatingAdd controller.logicalTime 1
    let armed := controller.pressure.tier = .armed
    { controller with
      terminalFitRoom := some available
      logicalTime := logicalTime
      events := controller.events ++ [⟨UInt64.ofNat logicalTime, 0, .wrapUp, 0, 0, 0, armed, armed⟩]
      terminalFitSaturated := some false
      terminalOutcome := some .wrapUp }

def restoreTerminalOutcome (controller : ProposalOnlyController) (outcome : TerminalLabel)
    (fitSaturated : Option Bool) : ProposalOnlyController :=
  if controller.terminalOutcome = some .quiesceUnwritable ∨
      controller.terminalOutcome = some .quiesceRate then
    controller
  else
    { controller with
      terminalWriteFailed := controller.terminalWriteFailed || outcome = .quiesceUnwritable
      terminalOutcome := some outcome
      terminalFitSaturated := fitSaturated }

def perform (controller : ProposalOnlyController) : PolicyCall → Option ProposalOnlyController
  | .beginSessionWindow => controller.beginSessionWindow
  | .proposeBulk tool inputBytes projectedPressure =>
      (controller.proposeBulk tool inputBytes projectedPressure).map Prod.snd
  | .completeBulk proposal bytes admittedBytes admittedPressure =>
      controller.completeBulk proposal bytes admittedBytes admittedPressure
  | .abortBulk proposal => controller.abortBulk proposal
  | .finishSessionWindow => controller.finishSessionWindow
  | .recordRateRefusal proposal => some (controller.recordRateRefusal proposal)
  | .wrapUp cost available writable => some (controller.wrapUp cost available writable)

def run (controller : ProposalOnlyController) (calls : List PolicyCall) :
    Option ProposalOnlyController :=
  calls.foldlM perform controller

/-- The part of the controller that is published and recovered. -/
def durable (controller : ProposalOnlyController) : Controller where
  quiescing := controller.governor.state.quiescing
  cache := controller.cache
  events := controller.events
  logicalTime := UInt64.ofNat controller.logicalTime
  terminalOutcome := controller.terminalOutcome
  terminalFitSaturated := controller.terminalFitSaturated
  terminalFitRoom := controller.terminalFitRoom
  terminalWriteFailed := controller.terminalWriteFailed

/-- Recovery restores the terminal of the durable part. -/
theorem durable_restoreTerminalOutcome (controller : ProposalOnlyController)
    (outcome : TerminalLabel) (fitSaturated : Option Bool) :
    (controller.restoreTerminalOutcome outcome fitSaturated).durable =
      controller.durable.restoreTerminalOutcome outcome fitSaturated := by
  by_cases quiesced : controller.terminalOutcome = some .quiesceUnwritable ∨
      controller.terminalOutcome = some .quiesceRate
  · rw [restoreTerminalOutcome, if_pos quiesced, Controller.restoreTerminalOutcome,
      if_pos (by exact quiesced)]
  · rw [restoreTerminalOutcome, if_neg quiesced, Controller.restoreTerminalOutcome,
      if_neg (by exact quiesced)]
    rfl

section History

/-!
The windows of a history of calls, newest call first: what each call enters is told
by the calls before it and by the accounts of the governor, kept here without its
assertions.
-/

/-- The accounts of a window that was entered. -/
def accountsOf (governor : Governor) (window : Nat) : Governor :=
  if governor.activeWindow = some window then
    governor
  else
    { governor with
      activeWindow := some window
      sourceAdmitted := ∅
      state := { governor.state with windowAdmitted := 0, windowReclaimed := 0 } }

/-- The accounts after the rate of a window was judged. -/
def judged (governor : Governor) : Governor :=
  if governor.predicateHolds then { governor with floorViolationSeen := false }
  else governor.tighten

/-- The accounts after a call in a turn window. -/
def account (governor : Governor) (turn : Nat) : PolicyCall → Governor
  | .beginSessionWindow =>
      (if governor.activeWindow.isSome then judged governor else governor).beginTurn
  | .proposeBulk tool inputBytes _ =>
      if governor.state.quiescing then governor
      else ((accountsOf governor turn).decide (digest (utf8 tool)) inputBytes).2
  | .completeBulk proposal bytes admittedBytes _ =>
      let settled := accountsOf (governor.settleAdmission proposal.source proposal.window
        proposal.inputBytes admittedBytes) proposal.window
      { settled with state := { settled.state with
        windowReclaimed := saturatingAdd settled.state.windowReclaimed (bytes - admittedBytes) } }
  | .finishSessionWindow => judged governor
  | .abortBulk _ => governor
  | .recordRateRefusal _ => governor
  | .wrapUp _ _ _ => governor

/-- The turn window counts the windows that were begun. -/
def turnOf : List PolicyCall → Nat
  | [] => 0
  | call :: history =>
      match call with
      | .beginSessionWindow => saturatingAdd (turnOf history) 1
      | _ => turnOf history

def accounts (start : Governor) : List PolicyCall → Governor
  | [] => start
  | call :: history => account (accounts start history) (turnOf history) call

/-- The rate of the windows so far makes the governor refuse what is proposed. -/
def Quiesced (start : Governor) (history : List PolicyCall) : Prop :=
  (accounts start history).state.quiescing = true

instance (start : Governor) (history : List PolicyCall) : Decidable (Quiesced start history) :=
  inferInstanceAs (Decidable (_ = true))

/-- The window that a call enters: a proposal the current one, unless the governor
quiesced, and a completion the one of its proposal. -/
def enters (start : Governor) (history : List PolicyCall) : PolicyCall → Option Nat
  | .proposeBulk _ _ _ => if Quiesced start history then none else some (turnOf history)
  | .completeBulk proposal _ _ _ => some proposal.window
  | _ => none

/-- The window that the newest of the calls entered. -/
def lastEntered (start : Governor) : List PolicyCall → Option Nat
  | [] => none
  | call :: history => (enters start history call).or (lastEntered start history)

/-- No call enters a window behind the last one, and a window is closed only when it
is the current one that was entered last; the next window may also be begun when none
was entered at all. -/
def Keeps (start : Governor) (history : List PolicyCall) (call : PolicyCall) : Prop :=
  (∀ window ∈ enters start history call, ∀ last ∈ lastEntered start history, last ≤ window) ∧
  match call with
  | .beginSessionWindow => ∀ last ∈ lastEntered start history, last = turnOf history
  | .finishSessionWindow => lastEntered start history = some (turnOf history)
  | _ => True

instance (start : Governor) (history : List PolicyCall) (call : PolicyCall) :
    Decidable (Keeps start history call) := by
  unfold Keeps
  cases call <;> infer_instance

/-- Every call keeps the windows that the calls before it entered. -/
def Orderly (start : Governor) : List PolicyCall → List PolicyCall → Prop
  | _, [] => True
  | history, call :: calls => Keeps start history call ∧ Orderly start (call :: history) calls

instance orderlyDecidable (start : Governor) :
    ∀ history calls, Decidable (Orderly start history calls)
  | _, [] => isTrue trivial
  | history, call :: calls =>
      have := orderlyDecidable start (call :: history) calls
      inferInstanceAs (Decidable (_ ∧ _))

end History

section Panics

variable {controller : ProposalOnlyController} {call : PolicyCall}

/-- The window that was entered last is no later than the given one. -/
def Entered (controller : ProposalOnlyController) (window : Nat) : Prop :=
  ∀ active, controller.governor.activeWindow = some active → active ≤ window

/-- When a call can be made: a window is closed only when it was entered, and no
window is entered behind a later one. -/
def Ready (controller : ProposalOnlyController) : PolicyCall → Prop
  | .beginSessionWindow => controller.governor.activeWindow = none ∨
      controller.governor.activeWindow = some controller.turnWindow
  | .proposeBulk _ _ _ => controller.governor.state.quiescing = true ∨
      controller.Entered controller.turnWindow
  | .completeBulk proposal _ _ _ => controller.Entered proposal.window
  | .finishSessionWindow => controller.governor.activeWindow = some controller.turnWindow
  | .abortBulk _ => True
  | .recordRateRefusal _ => True
  | .wrapUp _ _ _ => True

/-- The floor of the pressure, read at every observation, is in the unit
interval. -/
def Floored (controller : ProposalOnlyController) : Prop :=
  0 ≤ controller.minimumFloor ∧ controller.minimumFloor ≤ 1

theorem isSome_enterWindow {governor : Governor} {window : Nat} :
    (governor.enterWindow window).isSome = true ↔
      ∀ active, governor.activeWindow = some active → active ≤ window := by
  unfold Governor.enterWindow
  by_cases same : governor.activeWindow = some window
  · rw [if_pos same, same]
    constructor
    · rintro _ active ⟨⟩
      exact Nat.le_refl _
    · exact fun _ => rfl
  · rw [if_neg same]
    cases current : governor.activeWindow with
    | none =>
        constructor
        · rintro _ active ⟨⟩
        · exact fun _ => rfl
    | some active =>
        rw [current] at same
        have other : active ≠ window := fun equal => same (congrArg some equal)
        by_cases later : active < window
        · simp only [if_pos later]
          constructor
          · rintro _ other ⟨⟩
            exact Nat.le_of_lt later
          · exact fun _ => rfl
        · simp only [if_neg later]
          constructor
          · intro none
            cases none
          · intro ordered
            exact absurd (Nat.lt_of_le_of_ne (ordered active rfl) other) later

theorem activeWindow_settleAdmission (governor : Governor) (source : UInt64)
    (window raw admitted : Nat) :
    (governor.settleAdmission source window raw admitted).activeWindow = governor.activeWindow := by
  unfold Governor.settleAdmission
  split <;> rfl

theorem isSome_finishWindow {governor : Governor} {window : Nat} :
    (governor.finishWindow window).isSome = true ↔ governor.activeWindow = some window := by
  unfold Governor.finishWindow
  by_cases active : governor.activeWindow = some window
  · rw [if_neg (not_not_intro active)]
    constructor
    · exact fun _ => active
    · intro _
      split <;> rfl
  · rw [if_pos active]
    constructor
    · intro none
      cases none
    · exact fun same => absurd same active

theorem observe_floored {pressure : Pressure} {projected occupancy floor : ℚ}
    (floored : 0 ≤ floor ∧ floor ≤ 1) :
    ∃ observed, pressure.observe projected occupancy floor = some observed := by
  unfold Pressure.observe
  rw [if_pos floored]
  exact ⟨_, rfl⟩

theorem isSome_bind_some {α β : Type} (value : Option α) (make : α → β) :
    (value.bind fun found => some (make found)).isSome = value.isSome := by
  cases value <;> rfl

/-- A call goes through exactly when it can be made. -/
theorem isSome_perform_iff (floored : controller.Floored) :
    (controller.perform call).isSome = true ↔ controller.Ready call := by
  cases call with
  | beginSessionWindow =>
      simp only [perform, beginSessionWindow, closeWindow, Ready]
      cases active : controller.governor.activeWindow with
      | none => simp
      | some window =>
          have closing := @isSome_finishWindow controller.governor controller.turnWindow
          rw [active] at closing
          simp [isSome_bind_some, closing]
  | proposeBulk tool inputBytes projectedPressure =>
      rcases @observe_floored controller.pressure projectedPressure projectedPressure _ floored with
        ⟨observed, pressure⟩
      have entering := @isSome_enterWindow controller.governor controller.turnWindow
      by_cases quiet : controller.governor.state.quiescing = true
      · simp [perform, proposeBulk, pressure, Governor.admitBytes, quiet, Ready]
      · simp [perform, proposeBulk, pressure, Governor.admitBytes, quiet, Ready, Entered,
          isSome_bind_some, entering]
  | completeBulk proposal bytes admittedBytes admittedPressure =>
      rcases @observe_floored controller.pressure admittedPressure admittedPressure _ floored with
        ⟨observed, pressure⟩
      have entering := @isSome_enterWindow (controller.governor.settleAdmission proposal.source
        proposal.window proposal.inputBytes admittedBytes) proposal.window
      rw [activeWindow_settleAdmission] at entering
      simp [perform, completeBulk, pressure, Governor.observeReclaim, Ready, Entered,
        isSome_bind_some, entering]
  | abortBulk proposal =>
      rcases @observe_floored controller.pressure 0 0 _ floored with ⟨observed, pressure⟩
      simp [perform, abortBulk, pressure, Ready]
  | finishSessionWindow =>
      simp [perform, finishSessionWindow, Ready, isSome_bind_some, isSome_finishWindow]
  | recordRateRefusal proposal => simp [perform, Ready]
  | wrapUp cost available writable => simp [perform, Ready]

/-- Every call keeps the floor. -/
theorem minimumFloor_perform {next : ProposalOnlyController}
    (done : controller.perform call = some next) :
    next.minimumFloor = controller.minimumFloor := by
  cases call with
  | beginSessionWindow =>
      simp only [perform, beginSessionWindow, Option.bind_eq_bind, Option.bind_eq_some_iff,
        Option.pure_def] at done
      rcases done with ⟨governor, _, ⟨⟩⟩
      rfl
  | proposeBulk tool inputBytes projectedPressure =>
      simp only [perform, proposeBulk, Option.bind_eq_bind, Option.map_eq_some_iff,
        Option.bind_eq_some_iff, Option.pure_def] at done
      rcases done with ⟨_, ⟨pressure, _, ⟨admission, governor⟩, _, ⟨⟩⟩, rfl⟩
      rfl
  | completeBulk proposal bytes admittedBytes admittedPressure =>
      simp only [perform, completeBulk, Option.bind_eq_bind, Option.bind_eq_some_iff,
        Option.pure_def] at done
      rcases done with ⟨governor, _, pressure, _, ⟨⟩⟩
      rfl
  | abortBulk proposal =>
      simp only [perform, abortBulk, Option.bind_eq_bind, Option.bind_eq_some_iff,
        Option.pure_def] at done
      rcases done with ⟨pressure, _, ⟨⟩⟩
      rfl
  | finishSessionWindow =>
      simp only [perform, finishSessionWindow, Option.bind_eq_bind, Option.bind_eq_some_iff,
        Option.pure_def] at done
      rcases done with ⟨⟨rate, governor⟩, _, ⟨⟩⟩
      rfl
  | recordRateRefusal proposal =>
      cases done
      rfl
  | wrapUp cost available writable =>
      cases done
      unfold wrapUp
      split
      · rfl
      · split
        · rfl
        · split <;> rfl

theorem run_cons (controller : ProposalOnlyController) (call : PolicyCall)
    (calls : List PolicyCall) :
    controller.run (call :: calls) = (controller.perform call).bind fun next => next.run calls :=
  rfl

theorem activeWindow_accountsOf (governor : Governor) (window : Nat) :
    (accountsOf governor window).activeWindow = some window := by
  unfold accountsOf
  split
  · assumption
  · rfl

theorem activeWindow_judged (governor : Governor) :
    (judged governor).activeWindow = governor.activeWindow := by
  unfold judged Governor.tighten
  split
  · rfl
  · dsimp only
    split
    · rfl
    · split <;> rfl

theorem activeWindow_decide (governor : Governor) (source : UInt64) (bytes : Nat) :
    (governor.decide source bytes).2.activeWindow = governor.activeWindow := by
  unfold Governor.decide
  dsimp only
  split <;> rfl

/-- The active window of the accounts is the one that was entered last. -/
theorem activeWindow_accounts {start : Governor} (unentered : start.activeWindow = none)
    (history : List PolicyCall) :
    (accounts start history).activeWindow = lastEntered start history := by
  induction history with
  | nil => exact unentered
  | cons call history ih =>
      cases call with
      | beginSessionWindow =>
          change Governor.activeWindow (if _ then _ else _) = _
          split
          · exact (activeWindow_judged _).trans ih
          · exact ih
      | proposeBulk tool inputBytes projectedPressure =>
          by_cases quiet : (accounts start history).state.quiescing = true
          · simp [accounts, account, lastEntered, enters, Quiesced, quiet, ih]
          · simp [accounts, account, lastEntered, enters, Quiesced, quiet, activeWindow_decide,
              activeWindow_accountsOf]
      | completeBulk proposal bytes admittedBytes admittedPressure =>
          simp [accounts, account, lastEntered, enters, activeWindow_accountsOf]
      | finishSessionWindow =>
          simp [accounts, account, lastEntered, enters, activeWindow_judged, ih]
      | abortBulk proposal => simp [accounts, account, lastEntered, enters, ih]
      | recordRateRefusal proposal => simp [accounts, account, lastEntered, enters, ih]
      | wrapUp cost available writable => simp [accounts, account, lastEntered, enters, ih]

theorem accountsOf_of_enterWindow {governor entered : Governor} {window : Nat}
    (done : governor.enterWindow window = some entered) : entered = accountsOf governor window := by
  unfold Governor.enterWindow at done
  unfold accountsOf
  split at done
  · cases done
    rw [if_pos ‹_›]
  · rw [if_neg ‹_›]
    dsimp only at done
    split at done
    · cases done
      rfl
    · split at done
      · cases done
        rfl
      · cases done

theorem judged_of_finishWindow {governor : Governor} {window : Nat} {closed : Bool × Governor}
    (done : governor.finishWindow window = some closed) : closed.2 = judged governor := by
  unfold Governor.finishWindow at done
  unfold judged
  split at done
  · cases done
  · split at done
    · cases done
      rw [if_pos ‹_›]
    · cases done
      rw [if_neg ‹_›]

/-- What the calls of a history leave of a controller that did not panic: the
accounts and the turn window. -/
structure Tracked (start : Governor) (history : List PolicyCall)
    (controller : ProposalOnlyController) : Prop where
  governor : controller.governor = accounts start history
  turn : controller.turnWindow = turnOf history

/-- A call that goes through keeps the accounts. -/
theorem Tracked.perform {start : Governor} {history : List PolicyCall}
    {next : ProposalOnlyController} (tracked : Tracked start history controller)
    (done : controller.perform call = some next) : Tracked start (call :: history) next := by
  rcases tracked with ⟨governed, turned⟩
  cases call with
  | beginSessionWindow =>
      simp only [perform, beginSessionWindow, closeWindow, Option.bind_eq_bind,
        Option.bind_eq_some_iff, Option.pure_def] at done
      rcases done with ⟨governor, closed, ⟨⟩⟩
      refine ⟨?_, congrArg (saturatingAdd · 1) turned⟩
      change governor.beginTurn = Governor.beginTurn (if _ then _ else _)
      rw [← governed]
      split at closed
      · rcases Option.map_eq_some_iff.mp closed with ⟨pair, finished, rfl⟩
        rw [if_pos ‹_›, judged_of_finishWindow finished]
      · cases closed
        rw [if_neg ‹_›]
  | proposeBulk tool inputBytes projectedPressure =>
      simp only [perform, proposeBulk, Option.bind_eq_bind, Option.map_eq_some_iff,
        Option.bind_eq_some_iff, Option.pure_def] at done
      rcases done with ⟨_, ⟨pressure, _, ⟨admission, governor⟩, admitted, ⟨⟩⟩, rfl⟩
      refine ⟨?_, turned⟩
      change governor = if _ then _ else _
      rw [← governed, ← turned]
      unfold Governor.admitBytes at admitted
      split at admitted
      · cases admitted
        rw [if_pos ‹_›]
      · rcases Option.map_eq_some_iff.mp admitted with ⟨entered, entering, decided⟩
        rw [if_neg ‹_›, ← accountsOf_of_enterWindow entering, decided]
  | completeBulk proposal bytes admittedBytes admittedPressure =>
      simp only [perform, completeBulk, Option.bind_eq_bind, Option.bind_eq_some_iff,
        Option.pure_def] at done
      rcases done with ⟨governor, reclaimed, pressure, _, ⟨⟩⟩
      refine ⟨?_, turned⟩
      rcases Option.map_eq_some_iff.mp reclaimed with ⟨entered, entering, rfl⟩
      change _ = account _ _ _
      rw [← governed, accountsOf_of_enterWindow entering]
      rfl
  | abortBulk proposal =>
      simp only [perform, abortBulk, Option.bind_eq_bind, Option.bind_eq_some_iff,
        Option.pure_def] at done
      rcases done with ⟨pressure, _, ⟨⟩⟩
      exact ⟨governed, turned⟩
  | finishSessionWindow =>
      simp only [perform, finishSessionWindow, Option.bind_eq_bind, Option.bind_eq_some_iff,
        Option.pure_def] at done
      rcases done with ⟨⟨rate, governor⟩, finished, ⟨⟩⟩
      refine ⟨?_, turned⟩
      change governor = judged _
      rw [← governed]
      exact judged_of_finishWindow finished
  | recordRateRefusal proposal =>
      cases done
      exact ⟨governed, turned⟩
  | wrapUp cost available writable =>
      cases done
      unfold wrapUp
      split
      · exact ⟨governed, turned⟩
      · split
        · exact ⟨governed, turned⟩
        · split <;> exact ⟨governed, turned⟩

/-- The assertions of a call are met exactly when it keeps the windows of the
history. -/
theorem ready_iff_keeps {start : Governor} {history : List PolicyCall}
    (unentered : start.activeWindow = none) (tracked : Tracked start history controller) :
    controller.Ready call ↔ Keeps start history call := by
  have active := activeWindow_accounts unentered history
  rw [← tracked.governor] at active
  cases call with
  | beginSessionWindow =>
      cases last : lastEntered start history <;>
        simp [Ready, Keeps, enters, active, last, tracked.turn]
  | proposeBulk tool inputBytes projectedPressure =>
      by_cases quiet : (accounts start history).state.quiescing = true
      · simp [Ready, Keeps, enters, Quiesced, quiet, tracked.governor]
      · have others : controller.governor.state.quiescing = false := by
          rw [tracked.governor]
          exact Bool.not_eq_true _ ▸ quiet
        simp [Ready, Entered, Keeps, enters, Quiesced, quiet, others, active, tracked.turn]
  | completeBulk proposal bytes admittedBytes admittedPressure =>
      simp [Ready, Entered, Keeps, enters, active]
  | finishSessionWindow => simp [Ready, Keeps, enters, active, tracked.turn]
  | abortBulk proposal => simp [Ready, Keeps, enters]
  | recordRateRefusal proposal => simp [Ready, Keeps, enters]
  | wrapUp cost available writable => simp [Ready, Keeps, enters]

/-- A run behind a history goes through exactly when its calls keep the windows in
order. -/
theorem isSome_run_iff {start : Governor} (unentered : start.activeWindow = none)
    {history calls : List PolicyCall} (tracked : Tracked start history controller)
    (floored : controller.Floored) :
    (controller.run calls).isSome = true ↔ Orderly start history calls := by
  induction calls generalizing controller history with
  | nil => exact ⟨fun _ => trivial, fun _ => rfl⟩
  | cons call calls ih =>
      have asserted : _ ↔ controller.Ready call := isSome_perform_iff floored
      rw [ready_iff_keeps unentered tracked] at asserted
      rw [Orderly, ← asserted, run_cons]
      cases done : controller.perform call with
      | none => simp
      | some next =>
          have kept : next.Floored := by
            unfold Floored
            rw [minimumFloor_perform done]
            exact floored
          simp [ih (tracked.perform done) kept]

end Panics

/-- A controller built from the registry panics in a run exactly when a call of the
run enters a window behind the last one or closes a window that was not the last to
be entered. -/
theorem run_isSome_iff {config : PolicyConfig} {controller : ProposalOnlyController}
    (built : fromRegistry config = some controller)
    (floored : 0 ≤ config.minimumFloor ∧ config.minimumFloor ≤ 1) (calls : List PolicyCall) :
    (controller.run calls).isSome = true ↔ Orderly controller.governor [] calls := by
  simp only [fromRegistry, Option.bind_eq_bind, Option.bind_eq_some_iff, Option.pure_def] at built
  rcases built with ⟨governor, made, thresholds, _, monitor, _, ⟨⟩⟩
  have unentered : governor.activeWindow = none := by
    unfold Governor.new at made
    split at made
    · cases made
      rfl
    · cases made
  exact isSome_run_iff unentered ⟨rfl, rfl⟩ floored

/-- The default calibrations. -/
def defaultPolicyConfig : PolicyConfig where
  governor := ⟨4096, 1024, 64, true, fun admitted reclaimed => 2 * admitted ≤ reclaimed⟩
  arm := 4 / 5
  disarm := 7 / 10
  target := 3 / 5
  minimumFloor := 0
  stickyCap := 8

/-- Admissions into two windows, each closed by the next one. -/
def orderlyCalls : List PolicyCall :=
  [.proposeBulk "read_file" 10 0, .beginSessionWindow, .proposeBulk "read_file" 10 0,
    .finishSessionWindow]

/-- A second window in which nothing is admitted. -/
def idleWindowCalls : List PolicyCall :=
  [.proposeBulk "read_file" 10 0, .beginSessionWindow, .beginSessionWindow]

/-- The controller that the default calibrations build. -/
def defaultController : ProposalOnlyController where
  governor := ⟨defaultPolicyConfig.governor, ⟨4096, 0, 0, 0, 0, false, false⟩, ∅, none, false⟩
  pressure := .new ⟨4 / 5, 7 / 10, 3 / 5⟩
  monitor := ⟨8, 0, false, 0⟩
  cache := ⟨[]⟩
  events := []
  logicalTime := 0
  terminalOutcome := none
  terminalFitSaturated := none
  terminalFitRoom := none
  terminalWriteFailed := false
  minimumFloor := 0
  turnWindow := 0
  pressureTierBefore := .disarmed
  noopSteps := 0

theorem fromRegistry_default : fromRegistry defaultPolicyConfig = some defaultController := by
  have thresholds : Thresholds.new defaultPolicyConfig.arm defaultPolicyConfig.disarm
      defaultPolicyConfig.target = some ⟨4 / 5, 7 / 10, 3 / 5⟩ := by
    unfold Thresholds.new defaultPolicyConfig
    rw [if_pos (by norm_num)]
  simp only [fromRegistry, thresholds]
  rfl

theorem run_isSome_orderly :
    Orderly defaultController.governor [] orderlyCalls ∧
      (defaultController.run orderlyCalls).isSome = true := by
  have orderly : Orderly defaultController.governor [] orderlyCalls := by
    decide +kernel
  exact ⟨orderly, (run_isSome_iff fromRegistry_default ⟨le_refl 0, by decide +kernel⟩
    orderlyCalls).mpr orderly⟩

/-- An empty window cannot be left: closing it panics. -/
theorem idle_window_panics :
    ¬∀ config controller, fromRegistry config = some controller →
      (0 ≤ config.minimumFloor ∧ config.minimumFloor ≤ 1) →
      ∀ calls, (controller.run calls).isSome = true := by
  intro through
  have ran := through defaultPolicyConfig defaultController fromRegistry_default
    ⟨le_refl 0, by decide +kernel⟩ idleWindowCalls
  exact absurd ran (by decide +kernel)

section Restart

variable {controller other fresh : ProposalOnlyController} {outcome : TerminalLabel}

/-- One later wrap-up: its cost, the room that is left, and whether the store can
be written. -/
structure WrapUp where
  cost : Nat
  available : Nat
  writable : Bool

def wrapUps (controller : ProposalOnlyController) (later : List WrapUp) : ProposalOnlyController :=
  later.foldl (fun controller call => controller.wrapUp call.cost call.available call.writable)
    controller

/-- The outcome of a wrap-up is decided by the outcome before it and by whether
a write has failed. -/
def Alike (left right : ProposalOnlyController) : Prop :=
  left.terminalOutcome = right.terminalOutcome ∧
    left.terminalWriteFailed = right.terminalWriteFailed

theorem Alike.wrapUp (alike : Alike controller other) (cost available : Nat) (writable : Bool) :
    Alike (controller.wrapUp cost available writable) (other.wrapUp cost available writable) := by
  rcases alike with ⟨sameOutcome, sameFailure⟩
  unfold ProposalOnlyController.wrapUp
  rw [sameFailure]
  by_cases failed : other.terminalWriteFailed = true
  · rw [if_pos failed, if_pos failed]
    exact ⟨sameOutcome, sameFailure⟩
  · rw [if_neg failed, if_neg failed]
    by_cases refused : writable = false
    · rw [if_pos refused, if_pos refused]
      exact ⟨rfl, rfl⟩
    · rw [if_neg refused, if_neg refused]
      by_cases tight : terminalReserve cost available = false
      · rw [if_pos tight, if_pos tight]
        exact ⟨rfl, rfl⟩
      · rw [if_neg tight, if_neg tight]
        exact ⟨rfl, rfl⟩

theorem Alike.wrapUps (alike : Alike controller other) (later : List WrapUp) :
    Alike (controller.wrapUps later) (other.wrapUps later) := by
  induction later generalizing controller other with
  | nil => exact alike
  | cons call later ih => exact ih (alike.wrapUp _ _ _)

/-- A controller that was just built has no terminal. -/
theorem fresh_of_fromRegistry {config : PolicyConfig}
    (built : fromRegistry config = some fresh) :
    fresh.terminalOutcome = none ∧ fresh.terminalWriteFailed = false := by
  simp only [fromRegistry, Option.bind_eq_bind, Option.bind_eq_some_iff, Option.pure_def] at built
  rcases built with ⟨governor, _, thresholds, _, monitor, _, ⟨⟩⟩
  exact ⟨rfl, rfl⟩

theorem restored_terminal (unused : fresh.terminalOutcome = none)
    (written : fresh.terminalWriteFailed = false) (saturated : Option Bool) :
    (fresh.restoreTerminalOutcome outcome saturated).terminalOutcome = some outcome ∧
      (fresh.restoreTerminalOutcome outcome saturated).terminalWriteFailed =
        decide (outcome = .quiesceUnwritable) := by
  unfold restoreTerminalOutcome
  rw [if_neg (by simp [unused])]
  exact ⟨rfl, by rw [written]; rfl⟩

/-- A writable wrap-up of no cost ends in the wrap-up, unless a write failed
before. -/
theorem terminalOutcome_free (controller : ProposalOnlyController) :
    (controller.wrapUps [⟨0, 0, true⟩]).terminalOutcome =
      if controller.terminalWriteFailed = true then controller.terminalOutcome
      else some .wrapUp := by
  simp only [ProposalOnlyController.wrapUps, List.foldl_cons, List.foldl_nil]
  unfold wrapUp
  split
  · rfl
  · rfl

theorem terminalOutcome_unwritable (controller : ProposalOnlyController) :
    (controller.wrapUps [⟨0, 0, false⟩]).terminalOutcome =
      if controller.terminalWriteFailed = true then controller.terminalOutcome
      else some .quiesceUnwritable := by
  simp only [ProposalOnlyController.wrapUps, List.foldl_cons, List.foldl_nil]
  unfold wrapUp
  split
  · rfl
  · rfl

/-- Controllers that differ in whether a write failed are told apart by some
wrap-up. -/
theorem failure_of_same_outcomes
    (agree : ∀ later, (controller.wrapUps later).terminalOutcome =
      (other.wrapUps later).terminalOutcome) :
    controller.terminalWriteFailed = other.terminalWriteFailed := by
  have free := agree [⟨0, 0, true⟩]
  have refused := agree [⟨0, 0, false⟩]
  rw [terminalOutcome_free, terminalOutcome_free] at free
  rw [terminalOutcome_unwritable, terminalOutcome_unwritable] at refused
  cases failed : controller.terminalWriteFailed with
  | true =>
      cases otherFailed : other.terminalWriteFailed with
      | true => rfl
      | false =>
          simp only [failed, otherFailed, if_true] at free refused
          rw [free] at refused
          cases refused
  | false =>
      cases otherFailed : other.terminalWriteFailed with
      | true =>
          simp only [failed, otherFailed, if_true] at free refused
          rw [← free] at refused
          cases refused
      | false => rfl

/-- The restored controller answers every later wrap-up as the original does
exactly when the original had seen a failed write in case of an unwritable
outcome, and in no other case. -/
theorem restored_iff {config otherConfig : PolicyConfig}
    (rebuilt : fromRegistry otherConfig = some fresh) :
    ∀ started, fromRegistry config = some started →
      ∀ calls reached, started.run calls = some reached →
        ∀ outcome, reached.terminalOutcome = some outcome →
          ((∀ later, ((fresh.restoreTerminalOutcome outcome
              reached.terminalFitSaturated).wrapUps later).terminalOutcome =
                (reached.wrapUps later).terminalOutcome) ↔
            (reached.terminalWriteFailed = true ↔ outcome = .quiesceUnwritable)) := by
  intro started _ calls reached _ outcome terminal
  rcases fresh_of_fromRegistry rebuilt with ⟨unused, written⟩
  rcases @restored_terminal fresh outcome unused written reached.terminalFitSaturated with
    ⟨restored, failure⟩
  constructor
  · intro agree
    have same := failure_of_same_outcomes agree
    rw [failure] at same
    rw [← same]
    exact decide_eq_true_iff
  · intro exact later
    have alike : Alike (fresh.restoreTerminalOutcome outcome reached.terminalFitSaturated)
        reached := by
      refine ⟨restored.trans terminal.symm, ?_⟩
      rw [failure, Bool.eq_iff_iff, decide_eq_true_iff]
      exact exact.symm
    exact (alike.wrapUps later).1

/-- The store refuses the wrap-up: the restored controller stays refused. -/
theorem restored_unwritable :
    (defaultController.wrapUp 1 5 false).terminalOutcome = some .quiesceUnwritable ∧
      ∀ later, ((defaultController.restoreTerminalOutcome .quiesceUnwritable
        (some true)).wrapUps later).terminalOutcome =
          ((defaultController.wrapUp 1 5 false).wrapUps later).terminalOutcome := by
  refine ⟨rfl, ?_⟩
  have condition : (defaultController.wrapUp 1 5 false).terminalWriteFailed = true ↔
      TerminalLabel.quiesceUnwritable = .quiesceUnwritable := by
    decide
  exact (restored_iff fromRegistry_default defaultController fromRegistry_default
    [.wrapUp 1 5 false] (defaultController.wrapUp 1 5 false) rfl .quiesceUnwritable rfl).mpr
      condition

/-- A wrap-up that is too large for the room is superseded by a later one, but
not after a restart. -/
theorem saturated_wrap_up_wedges :
    ¬∀ config fresh, fromRegistry config = some fresh →
      ∀ started, fromRegistry config = some started →
        ∀ calls reached, started.run calls = some reached →
          ∀ outcome, reached.terminalOutcome = some outcome →
            ∀ later, ((fresh.restoreTerminalOutcome outcome
              reached.terminalFitSaturated).wrapUps later).terminalOutcome =
                (reached.wrapUps later).terminalOutcome := by
  intro survives
  have agree := survives defaultPolicyConfig defaultController fromRegistry_default
    defaultController fromRegistry_default [.wrapUp 10 5 true]
    (defaultController.wrapUp 10 5 true) rfl .quiesceUnwritable rfl [⟨1, 5, true⟩]
  exact absurd agree (by decide)

end Restart

end ProposalOnlyController

end Llxprt.Policy

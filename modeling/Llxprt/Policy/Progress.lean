import Llxprt.Rust.Saturation
import Llxprt.Transaction.Operation

/-!
# Progress of an armed episode

An episode reclaims until its progress state or its degradation modes name a
terminal step.  The verifier of the reachable states runs every combination of
modes and initial states under a bound on the macrosteps and counts what it sees.
-/

namespace Llxprt.Policy

open Llxprt.Rust Llxprt.Transaction

inductive TerminalOutcome where
  | disarmed
  | wrapUp
  | quiesced

structure ProgressState where
  psi : Nat
  retriesRemaining : Nat

inductive Macrostep where
  | noOp
  | reclaim
  | wrapUp
  | quiesce
  | disarm

def lexicographicallyDecreases (before after : ProgressState) : Bool :=
  after.psi < before.psi ||
    (after.psi = before.psi && after.retriesRemaining < before.retriesRemaining)

def nextAction (current : ProgressState) (armed : Bool) : Option TerminalOutcome → Macrostep
  | some .disarmed => .disarm
  | some .wrapUp => .wrapUp
  | some .quiesced => .quiesce
  | none =>
      if !armed then .disarm
      else if current.psi = 0 then .disarm
      else if current.retriesRemaining = 0 then .quiesce
      else .reclaim

/-- The axes of degradation, one bit for each. -/
structure DegradationModes where
  bits : UInt8

namespace DegradationModes

def count : Nat := 2 ^ 7

def fromBits (bits : UInt8) : DegradationModes := ⟨bits &&& 127⟩

def obligationSaturated (modes : DegradationModes) : Bool := modes.bits &&& 1 ≠ 0

def flooredTail (modes : DegradationModes) : Bool := modes.bits &&& 2 ≠ 0

def scorerOutage (modes : DegradationModes) : Bool := modes.bits &&& 4 ≠ 0

def placeholderIntolerant (modes : DegradationModes) : Bool := modes.bits &&& 8 ≠ 0

def spendExhausted (modes : DegradationModes) : Bool := modes.bits &&& 16 ≠ 0

def pinSaturated (modes : DegradationModes) : Bool := modes.bits &&& 32 ≠ 0

def storageReadOnly (modes : DegradationModes) : Bool := modes.bits &&& 64 ≠ 0

end DegradationModes

structure AdversarialReport where
  reachableStates : Nat
  transitions : Nat
  outOfBranchWallHits : Nat
  armedNoops : Nat
  unterminatedEpisodes : Nat
  maxMacrosteps : Nat

def AdversarialReport.empty : AdversarialReport := ⟨0, 0, 0, 0, 0, 0⟩

def degradedAction (state : ProgressState) (modes : DegradationModes) : Macrostep :=
  if modes.storageReadOnly then .quiesce
  else if modes.spendExhausted && state.psi ≤ 1 then .wrapUp
  else if modes.flooredTail && state.psi = 0 then .wrapUp
  else nextAction state true none

def registeredOperation (action : Macrostep) (modes : DegradationModes) : Option String :=
  match action with
  | .reclaim =>
      if modes.obligationSaturated then some "compact"
      else if modes.placeholderIntolerant then some "drop-with-handle"
      else if modes.pinSaturated then some "pin-override-collapse"
      else if modes.flooredTail then some "condense"
      else if modes.scorerOutage then some "drop-with-handle"
      else some "placeholder-collapse"
  | .wrapUp => some "wrap-up"
  | .quiesce => some "quiesce-unwritable"
  | .disarm => some "disarm"
  | .noOp => none

/-- The macrosteps of one episode from `step` on, `remaining` of them at most. -/
def verifySteps (modes : DegradationModes) :
    Nat → Nat → ProgressState → AdversarialReport → AdversarialReport
  | 0, _, _, report =>
      { report with unterminatedEpisodes := saturatingAdd report.unterminatedEpisodes 1 }
  | remaining + 1, step, state, report =>
      let action := degradedAction state modes
      match registeredOperation action modes with
      | none => { report with armedNoops := saturatingAdd report.armedNoops 1 }
      | some operation =>
          if (Operation.find operation).isNone then
            { report with outOfBranchWallHits := saturatingAdd report.outOfBranchWallHits 1 }
          else
            let report := { report with transitions := saturatingAdd report.transitions 1 }
            match action with
            | .reclaim =>
                let after : ProgressState := ⟨state.psi - 1, state.retriesRemaining - 1⟩
                if !lexicographicallyDecreases state after then
                  { report with armedNoops := saturatingAdd report.armedNoops 1 }
                else
                  verifySteps modes remaining (step + 1) after report
            | _ => { report with maxMacrosteps := max report.maxMacrosteps (step + 1) }

def verifyEpisode (initial : ProgressState) (modes : DegradationModes) (macrostepBound : UInt32)
    (report : AdversarialReport) : AdversarialReport :=
  verifySteps modes macrostepBound.toNat 0 initial report

/-- One pass of the three nested loops. -/
def verifyCell (macrostepBound : UInt32) (modes : DegradationModes) (psi retries : Nat)
    (report : AdversarialReport) : AdversarialReport :=
  verifyEpisode ⟨psi, retries⟩ modes macrostepBound
    { report with reachableStates := saturatingAdd report.reachableStates 1 }

def verifyAdversarialReachableStates (maxPsi : UInt64) (maxRetries macrostepBound : UInt32) :
    AdversarialReport :=
  (List.range DegradationModes.count).foldl (fun report bits =>
    (List.range (maxPsi.toNat + 1)).foldl (fun report psi =>
      (List.range (maxRetries.toNat + 1)).foldl (fun report retries =>
        verifyCell macrostepBound (.fromBits (.ofNat bits)) psi retries report) report) report)
    .empty

section Episodes

/-- The number of macrosteps of an episode that is not cut off. -/
def episodeLength (modes : DegradationModes) (state : ProgressState) : Nat :=
  if modes.storageReadOnly then 1
  else if modes.spendExhausted then min (state.psi - 1) state.retriesRemaining + 1
  else min state.psi state.retriesRemaining + 1

variable {modes : DegradationModes} {state : ProgressState}

theorem episodeLength_le : episodeLength modes state ≤ min state.psi state.retriesRemaining + 1 := by
  unfold episodeLength
  split
  · exact Nat.le_add_left _ _
  · split
    · have less : state.psi - 1 ≤ state.psi := Nat.sub_le _ _
      omega
    · exact le_rfl

/-- Every step that an episode takes is a row of the registry. -/
theorem find_registeredOperation {action : Macrostep} (acts : action ≠ .noOp) :
    ∃ operation, registeredOperation action modes = some operation ∧
      (Operation.find operation).isNone = false := by
  cases action with
  | noOp => exact absurd rfl acts
  | reclaim =>
      simp only [registeredOperation]
      split
      · exact ⟨_, rfl, rfl⟩
      · split
        · exact ⟨_, rfl, rfl⟩
        · split
          · exact ⟨_, rfl, rfl⟩
          · split
            · exact ⟨_, rfl, rfl⟩
            · split
              · exact ⟨_, rfl, rfl⟩
              · exact ⟨_, rfl, rfl⟩
  | wrapUp => exact ⟨_, rfl, rfl⟩
  | quiesce => exact ⟨_, rfl, rfl⟩
  | disarm => exact ⟨_, rfl, rfl⟩

/-- An episode reclaims while both its measures are positive, and the step before
its last lowers its length by one. -/
theorem degradedAction_cases :
    (degradedAction state modes = .reclaim ∧ 0 < state.psi ∧ 0 < state.retriesRemaining ∧
      episodeLength modes state =
        episodeLength modes ⟨state.psi - 1, state.retriesRemaining - 1⟩ + 1) ∨
    (degradedAction state modes ≠ .reclaim ∧ degradedAction state modes ≠ .noOp ∧
      episodeLength modes state = 1) := by
  unfold degradedAction episodeLength
  by_cases readOnly : modes.storageReadOnly
  · right
    simp [readOnly]
  · by_cases spent : modes.spendExhausted
    · by_cases low : state.psi ≤ 1
      · right
        have none : state.psi - 1 = 0 := by omega
        simp [readOnly, spent, low, none]
      · by_cases retries : state.retriesRemaining = 0
        · right
          have some : state.psi ≠ 0 := by omega
          simp [readOnly, spent, low, nextAction, retries, some]
        · left
          have some : state.psi ≠ 0 := by omega
          simp only [readOnly, spent, low, nextAction, retries, some, decide_false, Bool.and_false,
            Bool.not_true, if_true, if_false, Bool.false_eq_true, true_and]
          omega
    · by_cases psi : state.psi = 0
      · right
        by_cases floored : modes.flooredTail <;> simp [readOnly, spent, psi, floored, nextAction]
      · by_cases retries : state.retriesRemaining = 0
        · right
          simp [readOnly, spent, psi, retries, nextAction]
        · left
          simp only [readOnly, spent, psi, nextAction, retries, decide_false, Bool.and_false,
            Bool.not_true, Bool.false_and, if_false, Bool.false_eq_true, true_and]
          omega

/-- What an episode adds to the report. -/
def AdversarialReport.episode (report : AdversarialReport) (bound step length : Nat) :
    AdversarialReport :=
  if length ≤ bound then
    { report with
      transitions := saturatingAdd report.transitions length
      maxMacrosteps := max report.maxMacrosteps (step + length) }
  else
    { report with
      transitions := saturatingAdd report.transitions bound
      unterminatedEpisodes := saturatingAdd report.unterminatedEpisodes 1 }

variable {report : AdversarialReport}

theorem saturatingAdd_succ (total count : Nat) :
    saturatingAdd (saturatingAdd total 1) count = saturatingAdd total (count + 1) := by
  rw [saturatingAdd_saturatingAdd, saturatingAdd_eq_min, Nat.add_assoc, Nat.add_comm 1 count]

/-- An episode ends after its length, or at the bound. -/
theorem verifySteps_eq (remaining step : Nat) (counted : report.transitions ≤ u64Max) :
    verifySteps modes remaining step state report =
      report.episode remaining step (episodeLength modes state) := by
  induction remaining generalizing step state report with
  | zero =>
      have positive : ¬ episodeLength modes state ≤ 0 := by
        rcases @degradedAction_cases modes state with ⟨_, _, _, long⟩ | ⟨_, _, last⟩ <;> omega
      have none : saturatingAdd report.transitions 0 = report.transitions :=
        Nat.min_eq_left counted
      rw [verifySteps, AdversarialReport.episode, if_neg positive, none]
  | succ remaining ih =>
      have acts : degradedAction state modes ≠ .noOp := by
        rcases @degradedAction_cases modes state with ⟨reclaims, _⟩ | ⟨_, acts, _⟩
        · rw [reclaims]
          exact Macrostep.noConfusion
        · exact acts
      rcases @find_registeredOperation modes _ acts with ⟨operation, named, registered⟩
      rw [verifySteps]
      simp only [named, registered, Bool.false_eq_true, if_false]
      rcases @degradedAction_cases modes state with
        ⟨reclaims, psi, retries, long⟩ | ⟨stops, _, last⟩
      · have lower : lexicographicallyDecreases state
            ⟨state.psi - 1, state.retriesRemaining - 1⟩ = true := by
          simp only [lexicographicallyDecreases, Bool.or_eq_true, decide_eq_true_eq]
          exact .inl (Nat.sub_lt psi Nat.one_pos)
        simp only [reclaims, lower, Bool.not_true, Bool.false_eq_true, if_false]
        rw [ih (step + 1) saturatingAdd_le, long]
        simp only [AdversarialReport.episode, Nat.add_le_add_iff_right, saturatingAdd_succ]
        rw [Nat.add_assoc step 1, Nat.add_comm 1]
      · have within : episodeLength modes state ≤ remaining + 1 := by
          rw [last]
          exact Nat.le_add_left 1 remaining
        have ended : report.episode (remaining + 1) step (episodeLength modes state) =
            { report with
              transitions := saturatingAdd report.transitions 1
              maxMacrosteps := max report.maxMacrosteps (step + 1) } := by
          rw [AdversarialReport.episode, if_pos within, last]
        rw [ended]
        cases action : degradedAction state modes with
        | reclaim => exact absurd action stops
        | noOp => exact absurd action acts
        | wrapUp => rfl
        | quiesce => rfl
        | disarm => rfl

end Episodes

section Reports

/-- The report over episodes of given lengths. -/
def AdversarialReport.over (bound : Nat) (lengths : List Nat) : AdversarialReport where
  reachableStates := min lengths.length u64Max
  transitions := min (lengths.map (min bound)).sum u64Max
  outOfBranchWallHits := 0
  armedNoops := 0
  unterminatedEpisodes := min (lengths.countP (bound < ·)) u64Max
  maxMacrosteps := (lengths.filter (· ≤ bound)).foldl max 0

theorem verifyCell_over (bound : UInt32) (modes : DegradationModes) (psi retries : Nat)
    (lengths : List Nat) :
    verifyCell bound modes psi retries (.over bound.toNat lengths) =
      .over bound.toNat (lengths ++ [episodeLength modes ⟨psi, retries⟩]) := by
  unfold verifyCell verifyEpisode
  rw [verifySteps_eq _ _ (Nat.min_le_right _ _), AdversarialReport.episode, Nat.zero_add]
  split
  · rename_i ends
    simp only [AdversarialReport.over, saturatingAdd, List.length_append, List.map_append,
      List.sum_append, List.countP_append, List.filter_append, List.foldl_append]
    simp [ends, Nat.not_lt.mpr ends]
    omega
  · rename_i cut
    simp only [AdversarialReport.over, saturatingAdd, List.length_append, List.map_append,
      List.sum_append, List.countP_append, List.filter_append, List.foldl_append]
    simp [cut, Nat.not_le.mp cut]
    omega

/-- A loop whose passes append to what was seen appends what all of them do. -/
theorem foldl_over {α β ρ : Type} (report : List β → ρ) (pass : ρ → α → ρ) (seen : α → List β)
    (appends : ∀ before item, pass (report before) item = report (before ++ seen item))
    (items : List α) (before : List β) :
    items.foldl pass (report before) = report (before ++ items.flatMap seen) := by
  induction items generalizing before with
  | nil => rw [List.foldl_nil, List.flatMap_nil, List.append_nil]
  | cons item items ih =>
      rw [List.foldl_cons, appends, ih, List.flatMap_cons, List.append_assoc]

/-- The lengths of all episodes. -/
def episodeLengths (maxPsi : UInt64) (maxRetries : UInt32) : List Nat :=
  (List.range DegradationModes.count).flatMap fun bits =>
    (List.range (maxPsi.toNat + 1)).flatMap fun psi =>
      (List.range (maxRetries.toNat + 1)).flatMap fun retries =>
        [episodeLength (.fromBits (.ofNat bits)) ⟨psi, retries⟩]

theorem verifyAdversarial_over (maxPsi : UInt64) (maxRetries macrostepBound : UInt32) :
    verifyAdversarialReachableStates maxPsi maxRetries macrostepBound =
      .over macrostepBound.toNat (episodeLengths maxPsi maxRetries) := by
  unfold verifyAdversarialReachableStates
  have empty : AdversarialReport.empty = .over macrostepBound.toNat [] := rfl
  rw [empty, ← List.nil_append (episodeLengths maxPsi maxRetries)]
  unfold episodeLengths
  apply foldl_over (AdversarialReport.over macrostepBound.toNat)
  intro before bits
  apply foldl_over (AdversarialReport.over macrostepBound.toNat)
  intro before psi
  apply foldl_over (AdversarialReport.over macrostepBound.toNat)
  intro before retries
  exact verifyCell_over macrostepBound _ psi retries before

variable {maxPsi : UInt64} {maxRetries : UInt32}

theorem length_episodeLengths : (episodeLengths maxPsi maxRetries).length =
    DegradationModes.count * ((maxPsi.toNat + 1) * (maxRetries.toNat + 1)) := by
  simp [episodeLengths, List.length_flatMap, List.map_const']

theorem episodeLengths_le {length : Nat} (member : length ∈ episodeLengths maxPsi maxRetries) :
    length ≤ min maxPsi.toNat maxRetries.toNat + 1 := by
  simp only [episodeLengths, List.mem_flatMap, List.mem_range, List.mem_singleton] at member
  rcases member with ⟨bits, _, psi, psiBound, retries, retriesBound, rfl⟩
  have short := @episodeLength_le (.fromBits (.ofNat bits)) ⟨psi, retries⟩
  simp only at short
  omega

/-- Without degradation the largest initial state has the longest episode. -/
theorem longest_mem_episodeLengths :
    min maxPsi.toNat maxRetries.toNat + 1 ∈ episodeLengths maxPsi maxRetries := by
  simp only [episodeLengths, List.mem_flatMap, List.mem_range, List.mem_singleton]
  exact ⟨0, by decide, maxPsi.toNat, Nat.lt_succ_self _, maxRetries.toNat, Nat.lt_succ_self _, rfl⟩

theorem foldl_max_le_iff {values : List Nat} {first bound : Nat} :
    values.foldl max first ≤ bound ↔ first ≤ bound ∧ ∀ value ∈ values, value ≤ bound := by
  induction values generalizing first with
  | nil => simp
  | cons value values ih =>
      rw [List.foldl_cons, ih, List.forall_mem_cons, Nat.max_le, and_assoc]

/-- The verifier sees no idle step and no unregistered operation, whatever the
bounds; and it sees every episode end exactly when the bound on the macrosteps is
above the smaller of the two measures, which then is one less than the longest
episode. -/
theorem verifyAdversarialReachableStates_exact (maxPsi : UInt64)
    (maxRetries macrostepBound : UInt32) :
    let report := verifyAdversarialReachableStates maxPsi maxRetries macrostepBound
    let measure := min maxPsi.toNat maxRetries.toNat
    report.armedNoops = 0 ∧ report.outOfBranchWallHits = 0 ∧
      report.reachableStates =
        min (DegradationModes.count * ((maxPsi.toNat + 1) * (maxRetries.toNat + 1))) u64Max ∧
      (report.unterminatedEpisodes = 0 ↔ measure < macrostepBound.toNat) ∧
      (measure < macrostepBound.toNat → report.maxMacrosteps = measure + 1) := by
  intro report measure
  have made : report = .over macrostepBound.toNat (episodeLengths maxPsi maxRetries) :=
    verifyAdversarial_over maxPsi maxRetries macrostepBound
  have longest : measure + 1 ∈ episodeLengths maxPsi maxRetries := longest_mem_episodeLengths
  rw [made]
  constructor
  · rfl
  constructor
  · rfl
  constructor
  · exact congrArg (min · u64Max) length_episodeLengths
  constructor
  · have cut : (AdversarialReport.over macrostepBound.toNat
        (episodeLengths maxPsi maxRetries)).unterminatedEpisodes = 0 ↔
        (episodeLengths maxPsi maxRetries).countP (macrostepBound.toNat < ·) = 0 := by
      simp only [AdversarialReport.over, u64Max]
      omega
    rw [cut, List.countP_eq_zero]
    simp only [decide_eq_true_eq, Nat.not_lt]
    constructor
    · intro ends
      exact ends _ longest
    · intro above length member
      exact Nat.le_trans (episodeLengths_le member) above
  · intro above
    apply Nat.le_antisymm
    · apply foldl_max_le_iff.mpr
      constructor
      · exact Nat.zero_le _
      · intro length member
        exact episodeLengths_le (List.mem_filter.mp member).1
    · apply (foldl_max_le_iff.mp le_rfl).2
      rw [List.mem_filter]
      exact ⟨longest, decide_eq_true above⟩

end Reports

end Llxprt.Policy

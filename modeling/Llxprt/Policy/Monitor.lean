import Llxprt.Policy.Governor
import Llxprt.Rust.Runs
import Mathlib.Data.List.TakeWhile

/-!
# The runtime monitor

Sticky counters of five signals, frozen by a failure, and the run of disarmed
windows that opens the relaxation gate.  The controller uses one of the counters.
-/

namespace Llxprt.Policy.Monitor

open Llxprt.Rust

inductive MonitorSignal where
  | reacquisition
  | rereadAfterReclaim
  | fullOutputAfterDigest
  | thrash
  | overprotectiveClassification
  deriving DecidableEq

def MonitorSignal.all : List MonitorSignal :=
  [reacquisition, rereadAfterReclaim, fullOutputAfterDigest, thrash, overprotectiveClassification]

structure MonitorProposal where
  signal : MonitorSignal
  relaxFilter : Bool
  disarmedWindowsSeen : Nat

structure MonitorCounters where
  reacquisition : Nat
  rereadAfterReclaim : Nat
  fullOutputAfterDigest : Nat
  thrash : Nat
  overprotective : Nat
  frozen : Bool

structure RuntimeMonitor where
  cap : Nat
  counters : MonitorCounters
  disarmedWindows : Nat

namespace RuntimeMonitor

/-- A cap of zero fails the assertion. -/
def new (cap : UInt32) : Option RuntimeMonitor :=
  if 0 < cap then some ⟨cap.toNat, ⟨0, 0, 0, 0, 0, false⟩, 0⟩ else none

def beginWindow (monitor : RuntimeMonitor) (armed : Bool) : RuntimeMonitor :=
  if armed then { monitor with disarmedWindows := 0 }
  else { monitor with disarmedWindows := saturatingAdd monitor.disarmedWindows 1 }

def counter (monitor : RuntimeMonitor) : MonitorSignal → Nat
  | .reacquisition => monitor.counters.reacquisition
  | .rereadAfterReclaim => monitor.counters.rereadAfterReclaim
  | .fullOutputAfterDigest => monitor.counters.fullOutputAfterDigest
  | .thrash => monitor.counters.thrash
  | .overprotectiveClassification => monitor.counters.overprotective

/-- `slot.saturating_add(1).min(cap)`. -/
def raised (monitor : RuntimeMonitor) (slot : Nat) : Nat :=
  min (min (slot + 1) (2 ^ 32 - 1)) monitor.cap

def observe (monitor : RuntimeMonitor) (signal : MonitorSignal) : RuntimeMonitor :=
  if monitor.counters.frozen then monitor
  else
    let counters := monitor.counters
    match signal with
    | .reacquisition => { monitor with
        counters := { counters with reacquisition := monitor.raised counters.reacquisition } }
    | .rereadAfterReclaim => { monitor with
        counters := { counters with
          rereadAfterReclaim := monitor.raised counters.rereadAfterReclaim } }
    | .fullOutputAfterDigest => { monitor with
        counters := { counters with
          fullOutputAfterDigest := monitor.raised counters.fullOutputAfterDigest } }
    | .thrash => { monitor with
        counters := { counters with thrash := monitor.raised counters.thrash } }
    | .overprotectiveClassification => { monitor with
        counters := { counters with overprotective := monitor.raised counters.overprotective } }

def fail (monitor : RuntimeMonitor) : RuntimeMonitor :=
  { monitor with counters := { monitor.counters with frozen := true } }

def proposals (monitor : RuntimeMonitor) : List MonitorProposal :=
  if monitor.disarmedWindows = 0 then []
  else MonitorSignal.all.map fun signal => ⟨signal, true, monitor.disarmedWindows⟩

end RuntimeMonitor

/-- One call on the monitor. -/
inductive Call where
  | beginWindow (armed : Bool)
  | observe (signal : MonitorSignal)
  | fail
  deriving DecidableEq

def RuntimeMonitor.step (monitor : RuntimeMonitor) : Call → RuntimeMonitor
  | .beginWindow armed => monitor.beginWindow armed
  | .observe signal => monitor.observe signal
  | .fail => monitor.fail

/-- The windows that were entered, the last one first, each with whether it was
armed. -/
def windows (calls : List Call) : List Bool :=
  (calls.filterMap fun
    | .beginWindow armed => some armed
    | _ => none).reverse

section Counting

variable {monitor : RuntimeMonitor}

theorem counter_observe (signal other : MonitorSignal) : (monitor.observe signal).counter other =
    if monitor.counters.frozen = false ∧ signal = other then monitor.raised (monitor.counter other)
    else monitor.counter other := by
  unfold RuntimeMonitor.observe
  by_cases frozen : monitor.counters.frozen = true
  · rw [if_pos frozen, if_neg (by simp [frozen])]
  · rw [Bool.not_eq_true] at frozen
    cases signal <;> cases other <;> simp [frozen, RuntimeMonitor.counter]

theorem frozen_step (call : Call) :
    (monitor.step call).counters.frozen = (monitor.counters.frozen || call = .fail) := by
  cases call with
  | beginWindow armed => cases armed <;> exact (Bool.or_false _).symm
  | observe signal =>
      change (monitor.observe signal).counters.frozen = _
      unfold RuntimeMonitor.observe
      split
      · exact (Bool.or_false _).symm
      · cases signal <;> exact (Bool.or_false _).symm
  | fail => exact (Bool.or_true _).symm

theorem cap_step (call : Call) : (monitor.step call).cap = monitor.cap := by
  cases call with
  | beginWindow armed => cases armed <;> rfl
  | observe signal =>
      change (monitor.observe signal).cap = _
      unfold RuntimeMonitor.observe
      split
      · rfl
      · cases signal <;> rfl
  | fail => rfl

theorem disarmedWindows_observe (signal : MonitorSignal) :
    (monitor.observe signal).disarmedWindows = monitor.disarmedWindows := by
  unfold RuntimeMonitor.observe
  split
  · rfl
  · cases signal <;> rfl

theorem windows_concat (calls : List Call) (call : Call) : windows (calls ++ [call]) =
    match call with
    | .beginWindow armed => armed :: windows calls
    | _ => windows calls := by
  cases call <;> simp [windows, List.filterMap_append]

/-- The signals before the first failure. -/
def heard (calls : List Call) : List Call :=
  calls.takeWhile (· ≠ .fail)

theorem heard_concat (calls : List Call) (call : Call) : heard (calls ++ [call]) =
    if .fail ∈ calls ∨ call = .fail then heard calls else heard calls ++ [call] := by
  unfold heard
  by_cases failed : .fail ∈ calls
  · rw [if_pos (.inl failed), List.takeWhile_append, if_neg]
    intro whole
    have same : calls.takeWhile (· ≠ .fail) = calls :=
      (List.takeWhile_prefix _).eq_of_length whole
    rw [List.takeWhile_eq_self_iff] at same
    exact of_decide_eq_true (same _ failed) rfl
  · have same : calls.takeWhile (· ≠ .fail) = calls := by
      rw [List.takeWhile_eq_self_iff]
      intro call member
      apply decide_eq_true
      rintro rfl
      exact failed member
    rw [List.takeWhile_append, same, if_pos rfl]
    by_cases fails : call = .fail
    · rw [if_pos (.inr fails), fails]
      simp
    · rw [if_neg (by simp [failed, fails])]
      simp [fails]

/-- What a monitor has counted after a sequence of calls. -/
structure Counted (cap : Nat) (calls : List Call) (monitor : RuntimeMonitor) : Prop where
  capped : monitor.cap = cap
  counters : ∀ signal, monitor.counter signal = min ((heard calls).count (.observe signal)) cap
  frozen : monitor.counters.frozen = true ↔ .fail ∈ calls
  disarmed : monitor.disarmedWindows = min ((windows calls).takeWhile (· = false)).length u64Max

theorem Counted.step {cap : Nat} (small : cap ≤ 2 ^ 32 - 1) {calls : List Call}
    (counted : Counted cap calls monitor) (call : Call) :
    Counted cap (calls ++ [call]) (monitor.step call) where
  capped := (cap_step call).trans counted.capped
  counters signal := by
    rw [heard_concat]
    have before := counted.counters signal
    cases call with
    | beginWindow armed =>
        have same : (monitor.step (.beginWindow armed)).counter signal = monitor.counter signal := by
          cases armed <;> rfl
        rw [same, before]
        split
        · rfl
        · rw [List.count_append]
          simp
    | fail =>
        rw [if_pos (.inr rfl)]
        exact before
    | observe observed =>
        change (monitor.observe observed).counter signal = _
        rw [counter_observe]
        by_cases failed : .fail ∈ calls
        · rw [if_neg (by simp [counted.frozen.mpr failed]), if_pos (.inl failed), before]
        · have running : monitor.counters.frozen = false := by
            rw [← Bool.not_eq_true, counted.frozen]
            exact failed
          have going : ¬ (.fail ∈ calls ∨ Call.observe observed = .fail) := by
            simp [failed]
          rw [if_neg going, List.count_append]
          by_cases same : observed = signal
          · rw [if_pos ⟨running, same⟩, same, RuntimeMonitor.raised, counted.capped, before,
              List.count_singleton_self]
            omega
          · have other : List.count (Call.observe signal) [.observe observed] = 0 := by
              rw [List.count_eq_zero, List.mem_singleton]
              intro equal
              cases equal
              exact same rfl
            rw [if_neg (fun both => same both.2), before, other, Nat.add_zero]
  frozen := by
    rw [frozen_step, Bool.or_eq_true, counted.frozen, decide_eq_true_eq, List.mem_append,
      List.mem_singleton, eq_comm (a := call)]
  disarmed := by
    rw [windows_concat]
    cases call with
    | beginWindow armed =>
        cases armed with
        | true => rfl
        | false =>
            change saturatingAdd monitor.disarmedWindows 1 = _
            rw [counted.disarmed, saturatingAdd]
            simp
            omega
    | observe signal => exact (disarmedWindows_observe signal).trans counted.disarmed
    | fail => exact counted.disarmed

/-- Whatever is called in whatever order: a counter is the number of its signals
before the first failure, up to the cap; a failure is for good; and the disarmed
windows are those entered since the last armed one.  So relaxations are proposed,
one for every signal, exactly while the last window that was entered is disarmed. -/
theorem monitor_exact {cap : UInt32} {start : RuntimeMonitor}
    (built : RuntimeMonitor.new cap = some start) (calls : List Call) :
    let monitor := run RuntimeMonitor.step start calls
    (∀ signal, monitor.counter signal =
      min ((calls.takeWhile (· ≠ .fail)).count (.observe signal)) cap.toNat) ∧
    (monitor.counters.frozen = true ↔ .fail ∈ calls) ∧
    monitor.disarmedWindows = min ((windows calls).takeWhile (· = false)).length u64Max ∧
    monitor.proposals.map MonitorProposal.signal =
      if (windows calls).head? = some false then MonitorSignal.all else [] := by
  intro monitor
  have counted : Counted cap.toNat calls monitor := by
    unfold RuntimeMonitor.new at built
    split at built
    · cases built
      have initial : Counted cap.toNat [] ⟨cap.toNat, ⟨0, 0, 0, 0, 0, false⟩, 0⟩ := by
        constructor
        · rfl
        · intro signal
          cases signal <;> exact (Nat.zero_min _).symm
        · simp
        · rfl
      induction calls using List.reverseRecOn with
      | nil => exact initial
      | append_singleton before call ih =>
          rw [show monitor = RuntimeMonitor.step _ call from run_concat]
          exact ih.step (Nat.le_pred_of_lt cap.toNat_lt) call
    · cases built
  constructor
  · exact counted.counters
  constructor
  · exact counted.frozen
  constructor
  · exact counted.disarmed
  · unfold RuntimeMonitor.proposals
    cases entered : windows calls with
    | nil =>
        rw [counted.disarmed, entered]
        rfl
    | cons armed earlier =>
        rw [counted.disarmed, entered]
        cases armed with
        | true => rfl
        | false =>
            rw [if_neg (by simp [u64Max])]
            rfl

/-- A cap of one, one signal before a failure and one after it. -/
theorem monitor_exact_sample :
    let start : RuntimeMonitor := ⟨1, ⟨0, 0, 0, 0, 0, false⟩, 0⟩
    let calls := [.observe .thrash, .beginWindow false, .fail, .observe .reacquisition]
    let monitor := run RuntimeMonitor.step start calls
    RuntimeMonitor.new 1 = some start ∧
    (∀ signal, monitor.counter signal =
      min ((calls.takeWhile (· ≠ .fail)).count (.observe signal)) (1 : UInt32).toNat) ∧
    (monitor.counters.frozen = true ↔ .fail ∈ calls) ∧
    monitor.disarmedWindows = min ((windows calls).takeWhile (· = false)).length u64Max ∧
    monitor.proposals.map MonitorProposal.signal =
      if (windows calls).head? = some false then MonitorSignal.all else [] :=
  ⟨rfl, @monitor_exact 1 _ rfl _⟩

end Counting

end Llxprt.Policy.Monitor

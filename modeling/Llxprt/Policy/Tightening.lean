import Llxprt.Policy.Governor
import Llxprt.Rust.Latches

/-!
# How the governor tightens

A window that violates its rate lowers the quota, a second violation at the
floor quiesces.  The rate test compares floating-point numbers, so a window is
closed here with any answer to it.
-/

namespace Llxprt.Policy

open Llxprt.Rust

namespace Governor

section Windows

variable {governor next : Governor} {window : Nat}

/-- The governor with empty counters in a newly entered window. -/
def entered (governor : Governor) (window : Nat) : Governor :=
  { governor with
    activeWindow := some window
    sourceAdmitted := ∅
    state := { governor.state with windowAdmitted := 0, windowReclaimed := 0 } }

theorem enterWindow_cases (done : governor.enterWindow window = some next) :
    governor.activeWindow = some window ∧ next = governor ∨
      (∀ active, governor.activeWindow = some active → active < window) ∧
        next = governor.entered window := by
  unfold enterWindow at done
  by_cases same : governor.activeWindow = some window
  · rw [if_pos same] at done
    cases done
    exact .inl ⟨same, rfl⟩
  · rw [if_neg same] at done
    right
    cases current : governor.activeWindow with
    | none =>
        rw [current] at done
        cases done
        exact ⟨by rintro _ ⟨⟩, rfl⟩
    | some active =>
        rw [current] at done
        by_cases later : active < window
        · simp only [if_pos later] at done
          cases done
          exact ⟨by rintro _ ⟨⟩; exact later, rfl⟩
        · simp [later] at done

/-- Closing the active window with a given answer of the rate test. -/
def finishWith (governor : Governor) (window : Nat) (holds : Bool) : Option (Bool × Governor) :=
  if governor.activeWindow ≠ some window then
    none
  else if holds then
    some (true, { governor with floorViolationSeen := false })
  else
    some (false, governor.tighten)

end Windows

/-- One transition of the governor. -/
inductive Transition where
  | beginTurn
  | admission (source : UInt64) (bytes window : Nat)
  | settleAdmission (source : UInt64) (window raw admitted : Nat)
  | observeReclaim (bytes window : Nat)
  | finishWindow (window : Nat) (holds : Bool)

/-- The governor after a transition.  An assertion fails before anything is
written, so a failed one leaves the governor as it was. -/
def move (governor : Governor) : Transition → Governor
  | .beginTurn => governor.beginTurn
  | .admission source bytes window =>
      ((governor.admitBytes source bytes window).map Prod.snd).getD governor
  | .settleAdmission source window raw admitted =>
      governor.settleAdmission source window raw admitted
  | .observeReclaim bytes window => (governor.observeReclaim bytes window).getD governor
  | .finishWindow window holds => ((governor.finishWith window holds).map Prod.snd).getD governor

/-- The transition closes the active window with the answer. -/
def Closes (governor : Governor) (holds : Bool) (call : Transition) : Prop :=
  ∃ window, call = .finishWindow window holds ∧ governor.activeWindow = some window

/-- What only the closing of a window changes. -/
structure Unmoved (governor next : Governor) : Prop where
  config : next.config = governor.config
  quota : next.state.quota = governor.state.quota
  atFloor : next.state.atFloor = governor.state.atFloor
  quiescing : next.state.quiescing = governor.state.quiescing
  floorViolationSeen : next.floorViolationSeen = governor.floorViolationSeen

section Moves

variable {governor next : Governor} {window : Nat} {call : Transition}

theorem unmoved_refl : governor.Unmoved governor :=
  ⟨rfl, rfl, rfl, rfl, rfl⟩

theorem unmoved_enterWindow (done : governor.enterWindow window = some next) :
    governor.Unmoved next := by
  rcases enterWindow_cases done with ⟨_, rfl⟩ | ⟨_, rfl⟩
  · exact unmoved_refl
  · exact ⟨rfl, rfl, rfl, rfl, rfl⟩

theorem unmoved_of_admission {source : UInt64} {bytes : Nat} {admission : Admission}
    (done : governor.admitBytes source bytes window = some (admission, next)) :
    governor.Unmoved next := by
  unfold admitBytes at done
  split at done
  · cases done
    exact unmoved_refl
  · rcases Option.map_eq_some_iff.mp done with ⟨middle, entering, decided⟩
    have entered := unmoved_enterWindow entering
    unfold Governor.decide at decided
    simp only at decided
    split at decided
    · cases decided
      exact entered
    · cases decided
      exact ⟨entered.config, entered.quota, entered.atFloor, entered.quiescing,
        entered.floorViolationSeen⟩

/-- What one transition can do to the tightening. -/
theorem move_cases (governor : Governor) (call : Transition) :
    governor.Closes true call ∧ governor.move call = { governor with floorViolationSeen := false } ∨
      governor.Closes false call ∧ governor.move call = governor.tighten ∨
      ¬ governor.Closes true call ∧ ¬ governor.Closes false call ∧
        governor.Unmoved (governor.move call) := by
  have other : (∀ window holds, call ≠ .finishWindow window holds) →
      ¬ governor.Closes true call ∧ ¬ governor.Closes false call := by
    intro differs
    constructor
    · rintro ⟨window, rfl, _⟩
      exact differs window true rfl
    · rintro ⟨window, rfl, _⟩
      exact differs window false rfl
  cases call with
  | beginTurn =>
      rcases other (by rintro _ _ ⟨⟩) with ⟨held, violated⟩
      exact .inr (.inr ⟨held, violated, ⟨rfl, rfl, rfl, rfl, rfl⟩⟩)
  | admission source bytes window =>
      rcases other (by rintro _ _ ⟨⟩) with ⟨held, violated⟩
      refine .inr (.inr ⟨held, violated, ?_⟩)
      cases done : governor.admitBytes source bytes window with
      | none =>
          simp only [move, done]
          exact unmoved_refl
      | some made =>
          simp only [move, done]
          exact unmoved_of_admission done
  | settleAdmission source window raw admitted =>
      rcases other (by rintro _ _ ⟨⟩) with ⟨held, violated⟩
      refine .inr (.inr ⟨held, violated, ?_⟩)
      simp only [move, settleAdmission]
      split
      · exact unmoved_refl
      · exact ⟨rfl, rfl, rfl, rfl, rfl⟩
  | observeReclaim bytes window =>
      rcases other (by rintro _ _ ⟨⟩) with ⟨held, violated⟩
      refine .inr (.inr ⟨held, violated, ?_⟩)
      cases done : governor.enterWindow window with
      | none =>
          simp only [move, observeReclaim, done]
          exact unmoved_refl
      | some middle =>
          have entered := unmoved_enterWindow done
          simp only [move, observeReclaim, done]
          exact ⟨entered.config, entered.quota, entered.atFloor, entered.quiescing,
            entered.floorViolationSeen⟩
  | finishWindow window holds =>
      by_cases active : governor.activeWindow = some window
      · cases holds with
        | true =>
            left
            exact ⟨⟨window, rfl, active⟩, by simp [move, finishWith, active]⟩
        | false =>
            right
            left
            exact ⟨⟨window, rfl, active⟩, by simp [move, finishWith, active]⟩
      · have inactive : ∀ answer, ¬ governor.Closes answer (.finishWindow window holds) := by
          rintro answer ⟨other, same, isActive⟩
          cases same
          exact active isActive
        refine .inr (.inr ⟨inactive true, inactive false, ?_⟩)
        simp only [move, finishWith, if_pos active]
        exact unmoved_refl

end Moves

section Violations

variable {governor : Governor} {call : Transition}

/-- Above the floor a violation halves the distance to it. -/
theorem tighten_above (above : governor.config.quotaFloor < governor.state.quota) :
    governor.tighten.state.quota = governor.config.quotaFloor +
        (governor.state.quota - governor.config.quotaFloor) / 2 ∧
      (governor.tighten.state.atFloor = true ↔
        governor.tighten.state.quota = governor.config.quotaFloor) ∧
      governor.tighten.state.quiescing = governor.state.quiescing ∧
      (governor.tighten.floorViolationSeen = true ↔ governor.floorViolationSeen = true ∨
        governor.tighten.state.quota = governor.config.quotaFloor) := by
  unfold tighten
  simp only [if_pos above]
  exact ⟨trivial, decide_eq_true_iff, trivial, by rw [Bool.or_eq_true, decide_eq_true_iff]⟩

/-- At the floor a violation is remembered, and the next one quiesces. -/
theorem tighten_at (atFloor : governor.state.quota ≤ governor.config.quotaFloor) :
    governor.tighten.state.quota = governor.state.quota ∧
      governor.tighten.state.atFloor = governor.state.atFloor ∧
      governor.tighten.state.quiescing =
        (governor.state.quiescing || governor.floorViolationSeen) ∧
      governor.tighten.floorViolationSeen = true := by
  unfold tighten
  simp only [if_neg (Nat.not_lt_of_le atFloor)]
  cases governor.floorViolationSeen <;> simp

theorem config_tighten : governor.tighten.config = governor.config := by
  unfold tighten
  simp only
  split
  · rfl
  · split <;> rfl

theorem quota_tighten_le : governor.tighten.state.quota ≤ governor.state.quota := by
  by_cases above : governor.config.quotaFloor < governor.state.quota
  · rw [(tighten_above above).1]
    omega
  · rw [(tighten_at (Nat.le_of_not_lt above)).1]

/-- A violation that leaves the quota no higher than its floor. -/
def FloorViolation (governor : Governor) (call : Transition) : Prop :=
  governor.Closes false call ∧ (governor.move call).state.quota ≤ governor.config.quotaFloor

theorem quota_move_le : (governor.move call).state.quota ≤ governor.state.quota := by
  rcases governor.move_cases call with ⟨_, moved⟩ | ⟨_, moved⟩ | ⟨_, _, unmoved⟩
  · rw [moved]
  · rw [moved]
    exact quota_tighten_le
  · exact unmoved.quota.le

theorem quiescing_move (quiescing : governor.state.quiescing = true) :
    (governor.move call).state.quiescing = true := by
  rcases governor.move_cases call with ⟨_, moved⟩ | ⟨_, moved⟩ | ⟨_, _, unmoved⟩
  · rw [moved]
    exact quiescing
  · rw [moved]
    by_cases above : governor.config.quotaFloor < governor.state.quota
    · rw [(tighten_above above).2.2.1]
      exact quiescing
    · rw [(tighten_at (Nat.le_of_not_lt above)).2.2.1, quiescing]
      rfl
  · exact unmoved.quiescing.trans quiescing

/-- Only a violation at the floor quiesces, and only while an earlier one is
remembered. -/
theorem quiescing_move_iff (active : governor.state.quiescing = false) :
    (governor.move call).state.quiescing = true ↔ governor.Closes false call ∧
      governor.state.quota ≤ governor.config.quotaFloor ∧ governor.floorViolationSeen = true := by
  rcases governor.move_cases call with ⟨⟨window, rfl, isActive⟩, moved⟩ | ⟨violated, moved⟩ |
    ⟨_, unviolated, unmoved⟩
  · rw [moved]
    constructor
    · intro quiescing
      rw [active] at quiescing
      cases quiescing
    · rintro ⟨⟨_, ⟨⟩, _⟩, _⟩
  · rw [moved]
    by_cases above : governor.config.quotaFloor < governor.state.quota
    · rw [(tighten_above above).2.2.1, active]
      constructor
      · intro impossible
        cases impossible
      · rintro ⟨_, atFloor, _⟩
        exact absurd above (Nat.not_lt_of_le atFloor)
    · have atFloor := Nat.le_of_not_lt above
      rw [(tighten_at atFloor).2.2.1, active, Bool.false_or]
      exact ⟨fun seen => ⟨violated, atFloor, seen⟩, fun all => all.2.2⟩
  · rw [unmoved.quiescing, active]
    constructor
    · intro impossible
      cases impossible
    · rintro ⟨violated, _⟩
      exact absurd violated unviolated

/-- The remembered violation is set at the floor and cleared by a window that
keeps its rate. -/
theorem latch_floorViolationSeen :
    Latch move (fun governor => governor.floorViolationSeen) FloorViolation
      (fun governor => governor.Closes true) := by
  constructor
  · rintro governor call ⟨⟨window, rfl, active⟩, atFloor⟩
    have moved : governor.move (.finishWindow window false) = governor.tighten := by
      simp [move, finishWith, active]
    rw [moved] at atFloor ⊢
    by_cases above : governor.config.quotaFloor < governor.state.quota
    · rcases tighten_above above with ⟨quota, _, _, seen⟩
      have landed : governor.tighten.state.quota = governor.config.quotaFloor := by
        omega
      exact seen.mpr (.inr landed)
    · exact (tighten_at (Nat.le_of_not_lt above)).2.2.2
  · rintro governor call ⟨window, rfl, active⟩
    simp [move, finishWith, active]
  · intro governor call unset unclear
    rcases governor.move_cases call with ⟨held, _⟩ | ⟨violated, moved⟩ | ⟨_, _, unmoved⟩
    · exact absurd held unclear
    · have higher : ¬ governor.tighten.state.quota ≤ governor.config.quotaFloor := by
        rw [← moved]
        exact fun atFloor => unset ⟨violated, atFloor⟩
      have above : governor.config.quotaFloor < governor.state.quota := by
        have lowered := @quota_tighten_le governor
        omega
      have off : governor.tighten.state.quota ≠ governor.config.quotaFloor :=
        fun landed => higher landed.le
      rw [moved, Bool.eq_iff_iff, (tighten_above above).2.2.2]
      simp [off]
    · exact unmoved.floorViolationSeen

end Violations

section Runs

variable {config : GovernorConfig} {governor : Governor} {calls : List Transition}

/-- The quota stays between its floor and its initial value, and the flag tells
when it is at the floor. -/
structure Within (config : GovernorConfig) (governor : Governor) : Prop where
  same : governor.config = config
  floor : config.quotaFloor ≤ governor.state.quota
  initial : governor.state.quota ≤ config.perWindowQuota
  flag : governor.state.atFloor = true ↔ governor.state.quota = config.quotaFloor

theorem within_new (built : Governor.new config = some governor) :
    governor.Within config ∧ governor.floorViolationSeen = false := by
  unfold Governor.new at built
  split at built
  · rename_i valid
    cases built
    exact ⟨⟨rfl, valid.2.2.2.1, le_refl _, decide_eq_true_iff⟩, rfl⟩
  · cases built

theorem within_move (within : governor.Within config) (call : Transition) :
    (governor.move call).Within config := by
  rcases within with ⟨rfl, floor, initial, flag⟩
  rcases governor.move_cases call with ⟨_, moved⟩ | ⟨_, moved⟩ | ⟨_, _, unmoved⟩
  · rw [moved]
    exact ⟨rfl, floor, initial, flag⟩
  · rw [moved]
    by_cases above : governor.config.quotaFloor < governor.state.quota
    · rcases tighten_above above with ⟨quota, atFloor, _, _⟩
      constructor
      · exact config_tighten
      · omega
      · omega
      · exact atFloor
    · rcases tighten_at (Nat.le_of_not_lt above) with ⟨quota, atFloor, _, _⟩
      constructor
      · exact config_tighten
      · rw [quota]
        exact floor
      · rw [quota]
        exact initial
      · rw [quota, atFloor]
        exact flag
  · constructor
    · exact unmoved.config
    · rw [unmoved.quota]
      exact floor
    · rw [unmoved.quota]
      exact initial
    · rw [unmoved.quota, unmoved.atFloor]
      exact flag

theorem within_run (within : governor.Within config) :
    (run move governor calls).Within config :=
  run_invariant (Within config) within (fun _ call _ before => within_move before call) calls
    (List.prefix_refl _)

/-- What a run of transitions does to the quota and to the quiescing flag. -/
structure Tightens (config : GovernorConfig) (governor : Governor) (calls : List Transition) :
    Prop where
  bounded : config.quotaFloor ≤ (run move governor calls).state.quota ∧
    (run move governor calls).state.quota ≤ config.perWindowQuota
  lowered : ∀ more, (run move governor (calls ++ more)).state.quota ≤
    (run move governor calls).state.quota
  atFloor : (run move governor calls).state.atFloor = true ↔
    (run move governor calls).state.quota = config.quotaFloor
  absorbed : (run move governor calls).state.quiescing = true →
    ∀ more, (run move governor (calls ++ more)).state.quiescing = true
  entered : ∀ call, (run move governor calls).state.quiescing = false →
    ((run move governor (calls ++ [call])).state.quiescing = true ↔
      (run move governor calls).Closes false call ∧
        (run move governor calls).state.quota = config.quotaFloor ∧
        Latched move FloorViolation (fun governor => governor.Closes true) governor calls)

/-- Every run of a new governor tightens, whatever the rate tests answer. -/
theorem tightens_of_new (built : Governor.new config = some governor)
    (calls : List Transition) : Tightens config governor calls := by
  rcases within_new built with ⟨start, unseen⟩
  have within := @within_run config governor calls start
  constructor
  · exact ⟨within.floor, within.initial⟩
  · exact run_antitone (fun governor : Governor => governor.state.quota) fun _ _ => quota_move_le
  · exact within.flag
  · intro quiescing
    exact run_stable (fun governor : Governor => governor.state.quiescing = true)
      (fun _ _ => quiescing_move) quiescing
  · intro call active
    rw [run_concat, quiescing_move_iff active, within.same, latch_floorViolationSeen.flag_run unseen]
    constructor
    · rintro ⟨violated, atFloor, latched⟩
      exact ⟨violated, Nat.le_antisymm atFloor within.floor, latched⟩
    · rintro ⟨violated, atFloor, latched⟩
      exact ⟨violated, atFloor.le, latched⟩

/-- Quota four, floor one, and windows that never keep their rate. -/
theorem tightens_four_to_one :
    Governor.new ⟨4, 1024, 1, true, fun _ _ => false⟩ =
        some ⟨⟨4, 1024, 1, true, fun _ _ => false⟩, ⟨4, 0, 0, 0, 0, false, false⟩, ∅, none, false⟩ ∧
      Tightens ⟨4, 1024, 1, true, fun _ _ => false⟩
        ⟨⟨4, 1024, 1, true, fun _ _ => false⟩, ⟨4, 0, 0, 0, 0, false, false⟩, ∅, none, false⟩
        [.admission 7 1 0, .finishWindow 0 false, .finishWindow 0 false, .finishWindow 0 false] := by
  have built : Governor.new ⟨4, 1024, 1, true, fun _ _ => false⟩ =
      some ⟨⟨4, 1024, 1, true, fun _ _ => false⟩, ⟨4, 0, 0, 0, 0, false, false⟩, ∅, none, false⟩ :=
    rfl
  exact ⟨built, tightens_of_new built _⟩

end Runs

end Governor

end Llxprt.Policy

import Llxprt.Policy.Accounting

/-!
# Runs of the session on its controller

Admission is charged when a proposal is made and corrected when it is completed.
The counters stay tallies of the recorded proposals in every run whose calls are
counted exactly.
-/

namespace Llxprt.Policy

open Llxprt.Kernel Llxprt.Rust

namespace ProposalOnlyController

section Calls

variable {controller next : ProposalOnlyController}

theorem proposeBulk_eq_some {tool : String} {inputBytes : Nat} {projectedPressure : ℚ}
    {proposal : BulkProposal}
    (done : controller.proposeBulk tool inputBytes projectedPressure = some (proposal, next)) :
    ∃ admission time armed,
      controller.governor.admitBytes (digest (utf8 tool)) inputBytes controller.turnWindow =
        some (admission, next.governor) ∧
      next.turnWindow = controller.turnWindow ∧
      proposal =
        ⟨digest (utf8 tool), time, admission, armed, inputBytes, controller.turnWindow⟩ := by
  simp only [proposeBulk, Option.bind_eq_bind, Option.bind_eq_some_iff, Option.pure_def] at done
  rcases done with ⟨pressure, _, ⟨admission, governor⟩, admitted, ⟨⟩⟩
  exact ⟨admission, _, _, admitted, rfl, rfl⟩

theorem completeBulk_eq_some {proposal : BulkProposal} {bytes admittedBytes : Nat}
    {admittedPressure : ℚ}
    (done : controller.completeBulk proposal bytes admittedBytes admittedPressure = some next) :
    (controller.governor.settleAdmission proposal.source proposal.window proposal.inputBytes
        admittedBytes).observeReclaim (bytes - admittedBytes) proposal.window =
          some next.governor ∧
      next.turnWindow = controller.turnWindow := by
  simp only [completeBulk, Option.bind_eq_bind, Option.bind_eq_some_iff, Option.pure_def] at done
  rcases done with ⟨governor, observed, pressure, _, ⟨⟩⟩
  exact ⟨observed, rfl⟩

theorem abortBulk_eq_some {proposal : BulkProposal}
    (done : controller.abortBulk proposal = some next) :
    next.governor = controller.governor ∧ next.turnWindow = controller.turnWindow := by
  simp only [abortBulk, Option.bind_eq_bind, Option.bind_eq_some_iff, Option.pure_def] at done
  rcases done with ⟨pressure, _, ⟨⟩⟩
  exact ⟨rfl, rfl⟩

theorem beginSessionWindow_eq_some (done : controller.beginSessionWindow = some next) :
    ∃ governor : Governor, next.governor = governor.beginTurn ∧
      next.turnWindow = saturatingAdd controller.turnWindow 1 ∧
      governor.activeWindow = controller.governor.activeWindow ∧
      governor.sourceAdmitted = controller.governor.sourceAdmitted ∧
      governor.state.windowAdmitted = controller.governor.state.windowAdmitted ∧
      governor.state.windowReclaimed = controller.governor.state.windowReclaimed := by
  simp only [beginSessionWindow, closeWindow, Option.bind_eq_bind, Option.bind_eq_some_iff,
    Option.pure_def] at done
  rcases done with ⟨governor, closed, ⟨⟩⟩
  refine ⟨governor, rfl, rfl, ?_⟩
  split at closed
  · rcases Option.map_eq_some_iff.mp closed with ⟨⟨rate, finished⟩, finish, rfl⟩
    exact Governor.finishWindow_counters finish
  · cases closed
    exact ⟨rfl, rfl, rfl, rfl⟩

end Calls

end ProposalOnlyController

/-- A controller with the record of its proposals. -/
structure Account where
  controller : ProposalOnlyController
  turn : Nat
  entries : List Entry

/-- One call of the session on its controller.  A completion and an abort name a
proposal by its place in the record. -/
inductive BulkCall where
  | beginSessionWindow
  | proposeBulk (tool : String) (inputBytes : Nat) (projectedPressure : ℚ)
  | completeBulk (index bytes admittedBytes : Nat) (admittedPressure : ℚ)
  | abortBulk (index : Nat)

namespace Account

/-- One step of a run; an assertion that fails ends the run. -/
def step (account : Account) : BulkCall → Option Account
  | .beginSessionWindow =>
      account.controller.beginSessionWindow.map fun controller =>
        { account with controller := controller, turn := account.turn + 1 }
  | .proposeBulk tool inputBytes projectedPressure =>
      (account.controller.proposeBulk tool inputBytes projectedPressure).map fun made =>
        { account with
          controller := made.2
          entries := account.entries ++ [⟨made.1, account.turn, none⟩] }
  | .completeBulk index bytes admittedBytes admittedPressure =>
      match account.entries[index]? with
      | none => some account
      | some entry =>
          (account.controller.completeBulk entry.proposal bytes admittedBytes
            admittedPressure).map fun controller =>
              { account with
                controller := controller
                entries := account.entries.set index (entry.complete admittedBytes) }
  | .abortBulk index =>
      match account.entries[index]? with
      | none => some account
      | some entry =>
          (account.controller.abortBulk entry.proposal).map fun controller =>
            { account with controller := controller }

/-- The accounts that permitted calls lead to from a new controller. -/
inductive Reached (permitted : Account → BulkCall → Prop) : Account → Prop
  | opened {config : PolicyConfig} {controller : ProposalOnlyController} :
      ProposalOnlyController.fromRegistry config = some controller →
        Reached permitted ⟨controller, 0, []⟩
  | stepped {account next : Account} {call : BulkCall} :
      Reached permitted account → permitted account call → account.step call = some next →
        Reached permitted next

/-- When a call is counted exactly.  A completion in the active window must leave
no difference between the written bytes and the admitted ones for the second
count, correct an admitted proposal downwards, and refund nothing for another
one; the remaining conditions exclude what saturates. -/
def CountedExactly (account : Account) : BulkCall → Prop
  | .beginSessionWindow => account.controller.turnWindow < u64Max
  | .proposeBulk _ inputBytes _ =>
      u64Max ≤ account.controller.governor.config.perTurnCeiling →
        account.controller.governor.state.turnAdmitted + inputBytes ≤ u64Max
  | .completeBulk index bytes admittedBytes _ => ∀ entry, account.entries[index]? = some entry →
      if account.controller.governor.activeWindow = some entry.proposal.window then
        account.controller.governor.Correctable entry admittedBytes ∧ bytes ≤ admittedBytes
      else
        bytes - admittedBytes = entry.proposal.inputBytes - admittedBytes ∧
          entry.proposal.inputBytes - admittedBytes ≤ u64Max
  | .abortBulk _ => True

/-- The counters are the tallies of the record. -/
def Exact (account : Account) : Prop :=
  account.controller.governor.Tallied account.turn account.entries

/-- What every step keeps besides the tallies. -/
structure Kept (account : Account) : Prop where
  exact : account.Exact
  placed : account.controller.governor.Placed account.turn account.entries
  window : account.controller.turnWindow = account.turn

section Steps

variable {account next : Account}

theorem kept_opened {config : PolicyConfig} {controller : ProposalOnlyController}
    (built : ProposalOnlyController.fromRegistry config = some controller) :
    Kept ⟨controller, 0, []⟩ := by
  simp only [ProposalOnlyController.fromRegistry, Option.bind_eq_bind, Option.bind_eq_some_iff,
    Option.pure_def] at built
  rcases built with ⟨governor, made, thresholds, _, monitor, _, ⟨⟩⟩
  unfold Governor.new at made
  split at made
  · cases made
    constructor
    · exact ⟨rfl, rfl, fun source => by simp, rfl⟩
    · exact ⟨by rintro _ ⟨⟩, by rintro _ ⟨⟩, by rintro _ ⟨⟩⟩
    · rfl
  · cases made

theorem Kept.beginSessionWindow (kept : account.Kept)
    (counted : account.CountedExactly .beginSessionWindow)
    (done : account.step .beginSessionWindow = some next) : next.Kept := by
  rcases Option.map_eq_some_iff.mp done with ⟨controller, begun, rfl⟩
  rcases ProposalOnlyController.beginSessionWindow_eq_some begun with
    ⟨governor, closed, window, same⟩
  constructor
  · unfold Exact
    rw [closed]
    exact kept.exact.beginTurn kept.placed same
  · have placed : governor.beginTurn.Placed account.turn account.entries :=
      kept.placed.frame same.1
    rw [closed]
    exact placed.later
  · have room : account.controller.turnWindow + 1 ≤ u64Max := counted
    rw [window, saturatingAdd_of_le room, kept.window]

theorem Kept.abortBulk (kept : account.Kept) {index : Nat}
    (done : account.step (.abortBulk index) = some next) : next.Kept := by
  unfold step at done
  simp only at done
  split at done
  · cases done
    exact kept
  · rcases Option.map_eq_some_iff.mp done with ⟨controller, aborted, rfl⟩
    rcases ProposalOnlyController.abortBulk_eq_some aborted with ⟨governor, window⟩
    constructor
    · unfold Exact
      rw [governor]
      exact kept.exact
    · rw [governor]
      exact kept.placed
    · exact window.trans kept.window

theorem Kept.proposeBulk (kept : account.Kept) {tool : String} {inputBytes : Nat}
    {projectedPressure : ℚ}
    (counted : account.CountedExactly (.proposeBulk tool inputBytes projectedPressure))
    (done : account.step (.proposeBulk tool inputBytes projectedPressure) = some next) :
    next.Kept := by
  rcases Option.map_eq_some_iff.mp done with ⟨⟨proposal, controller⟩, made, rfl⟩
  rcases ProposalOnlyController.proposeBulk_eq_some made with
    ⟨admission, time, armed, admitted, window, rfl⟩
  rw [kept.window] at admitted window ⊢
  rcases kept.exact.propose kept.placed counted admitted with ⟨exact_, placed⟩
  exact ⟨exact_, placed, window⟩

theorem Kept.completeBulk (kept : account.Kept) {index bytes admittedBytes : Nat}
    {admittedPressure : ℚ}
    (counted : account.CountedExactly (.completeBulk index bytes admittedBytes admittedPressure))
    (done : account.step (.completeBulk index bytes admittedBytes admittedPressure) = some next) :
    next.Kept := by
  unfold step at done
  simp only at done
  split at done
  · cases done
    exact kept
  · rename_i entry listed
    rcases Option.map_eq_some_iff.mp done with ⟨controller, completed, rfl⟩
    rcases ProposalOnlyController.completeBulk_eq_some completed with ⟨observed, window⟩
    rcases kept.exact.finish kept.placed listed (counted entry listed) observed with
      ⟨exact_, placed⟩
    exact ⟨exact_, placed, window.trans kept.window⟩

theorem Kept.step (kept : account.Kept) {call : BulkCall} (counted : account.CountedExactly call)
    (done : account.step call = some next) : next.Kept := by
  cases call with
  | beginSessionWindow => exact kept.beginSessionWindow counted done
  | proposeBulk => exact kept.proposeBulk counted done
  | completeBulk => exact kept.completeBulk counted done
  | abortBulk => exact kept.abortBulk done

theorem kept_of_reached (reached : Reached CountedExactly account) : account.Kept := by
  induction reached with
  | opened built => exact kept_opened built
  | stepped _ counted done kept => exact kept.step counted done

end Steps

/-- In every run whose calls are counted exactly the counters of the governor are
the tallies of the recorded proposals. -/
theorem exact_of_countedExactly {account : Account} (reached : Reached CountedExactly account) :
    account.Exact :=
  (kept_of_reached reached).exact

section Examples

/-- The default controller before its first call. -/
def fresh : Account :=
  ⟨ProposalOnlyController.defaultController, 0, []⟩

theorem reached_fresh {permitted : Account → BulkCall → Prop} : Reached permitted fresh :=
  .opened ProposalOnlyController.fromRegistry_default

/-- A result that enters the context as it is, without a difference to reclaim. -/
theorem exact_of_full_admission :
    ∃ account : Account, account.entries.map Entry.settled = [100] ∧ account.Exact := by
  have sizes : ((fresh.step (.proposeBulk "read_file" 100 0)).bind fun account =>
      account.step (.completeBulk 0 100 100 0)).map (fun account =>
        account.entries.map Entry.settled) = some [100] := by
    decide +kernel
  have proposed : (fresh.step (.proposeBulk "read_file" 100 0)).map (fun account =>
      (account.controller.governor.state.windowReclaimed,
        account.entries.map fun entry => (entry.proposal.inputBytes, entry.completed))) =
          some (0, [(100, none)]) := by
    decide +kernel
  rcases Option.map_eq_some_iff.mp sizes with ⟨account, ran, settled⟩
  rcases Option.bind_eq_some_iff.mp ran with ⟨made, first, second⟩
  rw [first, Option.map_some, Option.some.injEq, Prod.mk.injEq] at proposed
  rcases proposed with ⟨unreclaimed, listed⟩
  have room : fresh.CountedExactly (.proposeBulk "read_file" 100 0) :=
    fun wide => absurd wide (by decide)
  have counted : made.CountedExactly (.completeBulk 0 100 100 0) := by
    intro entry isEntry
    have found := congrArg (fun items => items[0]?) listed
    simp only [List.getElem?_map, isEntry, Option.map_some, List.getElem?_cons_zero,
      Option.some.injEq, Prod.mk.injEq] at found
    rcases found with ⟨size, pending⟩
    rw [size]
    split
    · refine ⟨⟨pending, fun _ => by rw [size], fun _ => .inl (by rw [size]), ?_⟩, le_refl _⟩
      rw [unreclaimed, size]
      decide
    · exact ⟨rfl, by decide⟩
  have reached : Reached CountedExactly account :=
    .stepped (.stepped reached_fresh room first) counted second
  exact ⟨account, settled, exact_of_countedExactly reached⟩

/-- The second count: sixty reclaimed bytes are counted as a hundred and twenty. -/
theorem reclaimed_twice :
    ¬ ∀ account : Account, Reached (fun _ _ => True) account → account.Exact := by
  intro always
  have counters : ((fresh.step (.proposeBulk "read_file" 100 0)).bind fun account =>
      account.step (.completeBulk 0 100 40 0)).map (fun account =>
        (account.controller.governor.state.windowReclaimed,
          tally (Entry.belongs account.controller.governor.activeWindow) Entry.reclaimed
            account.entries)) = some (120, 60) := by
    decide +kernel
  rcases Option.map_eq_some_iff.mp counters with ⟨account, ran, values⟩
  rcases Option.bind_eq_some_iff.mp ran with ⟨made, first, second⟩
  have exact_ := always account (.stepped (.stepped reached_fresh trivial first) trivial second)
  rw [Prod.mk.injEq] at values
  have reclaimed := exact_.reclaimed
  rw [values.1, values.2] at reclaimed
  cases reclaimed

end Examples

end Account

end Llxprt.Policy

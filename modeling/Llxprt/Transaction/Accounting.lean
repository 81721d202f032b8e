import Llxprt.Transaction.Records

/-!
# Region accounting

The region total is compared with an account kept on the side: the account notes
the bound that the port computes in the successful validation of a transaction,
and adds it up when a commit applies.  The receipt-checked commits charge exactly
that bound.  The generic commits charge the bound that their caller supplies.
-/

namespace Llxprt.Transaction

open Llxprt.Rust Llxprt.Kernel

section Proposals

variable [Wire] {π : Type}

/-- A fresh transaction: proposed, registered and without receipts. -/
structure Executor.Fresh (executor : Executor π) : Prop where
  proposed : executor.state = .proposed
  live : executor.Live
  unrecorded : executor.recordedBounds = []

/-- A proposal is refused without a trace or begins a fresh transaction. -/
theorem Executor.propose_cases (op : String) (parentVersion : Nat) (self : Executor π) :
    (∃ txn next, Executor.propose op parentVersion self = (.ok txn, next) ∧ next.Fresh) ∨
      ∃ error, Executor.propose op parentVersion self = (.err error, self) := by
  unfold Executor.propose
  by_cases unregistered : (Operation.find op).isNone
  · exact .inr ⟨_, by simp [Method.bind_apply, Method.refuse_apply, unregistered]; rfl⟩
  · by_cases busy : self.state ≠ .proposed ∧ self.state ≠ .committed ∧ self.state ≠ .aborted
    · right
      refine ⟨.illegalTransition self.state .proposed, ?_⟩
      rw [Method.bind_of_ok (Method.refuse_of_not unregistered self),
        Method.bind_of_ok (Method.read_apply self), Method.bind_apply, Method.refuse_apply,
        if_pos busy]
    · left
      rw [Method.bind_of_ok (Method.refuse_of_not unregistered self),
        Method.bind_of_ok (Method.read_apply self),
        Method.bind_of_ok (Method.refuse_of_not busy self)]
      refine ⟨_, _, rfl, rfl, ⟨_, rfl, ?_⟩, rfl⟩
      simpa [Option.isSome_iff_ne_none] using unregistered

theorem Executor.proposeAs_cases (op : String) (parentVersion : Nat) (principal : Proposer)
    (self : Executor π) :
    (∃ txn next, Executor.proposeAs op parentVersion principal self = (.ok txn, next) ∧
        next.Fresh) ∨
      ∃ error, Executor.proposeAs op parentVersion principal self = (.err error, self) := by
  unfold Executor.proposeAs
  cases registered : okOr (Operation.find op) (ExecutorError.capabilityNotLanded op) with
  | error error => exact .inr ⟨error, rfl⟩
  | ok row =>
      have found : (Method.ofExcept (.ok row) : Method (Executor π) ExecutorError Operation) self =
          (.ok row, self) := rfl
      rw [Method.bind_of_ok found]
      by_cases denied : ¬ (principal = row.proposer ∨ row.authority = some principal)
      · right
        refine ⟨.authorityDenied op principal, ?_⟩
        rw [Method.bind_apply, Method.refuse_apply, if_pos denied]
      · rw [Method.bind_of_ok (Method.refuse_of_not denied self)]
        rcases Executor.propose_cases op parentVersion self with
          ⟨txn, next, proposed, fresh⟩ | ⟨error, refused⟩
        · left
          rw [Method.bind_of_ok proposed]
          exact ⟨txn, _, rfl, fresh.proposed, fresh.live, fresh.unrecorded⟩
        · exact .inr ⟨error, Method.bind_of_err refused⟩

theorem calling_of_ok {ε α : Type} {wrap : ε → CallError} {method : Method (Executor π) ε α}
    {self next : Executor π} {value : α} (returned : method self = (.ok value, next)) :
    calling wrap method self = (.ok (), next) := by
  simp [calling, Method.discard, Method.mapErr, Outcome.mapErr, returned]

theorem calling_of_err {ε α : Type} {wrap : ε → CallError} {method : Method (Executor π) ε α}
    {self next : Executor π} {error : ε} (failed : method self = (.err error, next)) :
    calling wrap method self = (.err (wrap error), next) := by
  simp [calling, Method.discard, Method.mapErr, Outcome.mapErr, failed]

/-- A proposing call begins a fresh transaction exactly when it returns. -/
theorem Call.run_proposed [AccountingPort π] {call : Call π} {self : Executor π}
    (proposes : call.proposes = true) :
    (call.run self).1.isOk = true ∧ (call.run self).2.Fresh ∨
      (call.run self).1.isOk = false ∧ (call.run self).2 = self := by
  cases call with
  | propose op parentVersion =>
      rw [Call.run]
      rcases Executor.propose_cases op parentVersion self with
        ⟨txn, next, proposed, fresh⟩ | ⟨error, refused⟩
      · rw [calling_of_ok proposed]
        exact .inl ⟨rfl, fresh⟩
      · rw [calling_of_err refused]
        exact .inr ⟨rfl, rfl⟩
  | proposeAs op parentVersion principal =>
      rw [Call.run]
      rcases Executor.proposeAs_cases op parentVersion principal self with
        ⟨txn, next, proposed, fresh⟩ | ⟨error, refused⟩
      · rw [calling_of_ok proposed]
        exact .inl ⟨rfl, fresh⟩
      · rw [calling_of_err refused]
        exact .inr ⟨rfl, rfl⟩
  | _ => cases proposes

end Proposals

section Accounts

variable [Wire] {π : Type} [AccountingPort π]

/-- The bound that the port has computed for the live transaction, and the sum of
these bounds over all applied commits. -/
structure Account where
  validated : Option Nat
  total : Nat

/-- How a call changes the account. -/
def Account.after (account : Account) (self : Executor π) (call : Call π) : Account where
  validated :=
    if (call.run self).1.isOk then
      if call.proposes then none
      else if call.validates then call.computedBound self
      else account.validated
    else account.validated
  total := if call.applies self then account.total + account.validated.getD 0 else account.total

/-- The account agrees with the receipts on record. -/
structure Accounted (executor : Executor π) (account : Account) : Prop where
  registered : executor.current.isSome → executor.Live
  early : executor.state.index < TxnState.validated.index → executor.recordedBounds = []
  recorded : executor.state = .validated →
    ∀ bound ∈ executor.recordedBounds, account.validated = some bound
  computed : executor.state = .validated → executor.Live → account.validated.isSome

omit [Wire] [AccountingPort π] in
theorem index_lt_of_canTransition {before after : TxnState}
    (allowed : before.canTransition after = true)
    (early : after.index ≤ TxnState.validated.index) : before.index < TxnState.validated.index := by
  revert allowed early
  cases before <;> cases after <;> decide

omit [AccountingPort π] in
/-- A call that keeps the live transaction and adds no receipt keeps the account
in agreement, unless it steps into the validated state. -/
theorem Accounted.unextended {before after : Executor π} {account : Account} {target : TxnState}
    (accounted : Accounted before account) (unextended : Executor.Unextended before after)
    (moved : after.state = before.state ∨ after.state = .aborted ∨
      Executor.StepInto target before.state after.state)
    (unarrived : after.state = .validated → before.Live → before.state = .validated) :
    Accounted after account := by
  have sameLive : after.Live → before.Live := by
    rintro ⟨txn, current, registered⟩
    exact ⟨txn, unextended.live ▸ current, registered⟩
  have emptied : before.recordedBounds = [] → after.recordedBounds = [] := by
    intro empty
    apply List.eq_nil_iff_forall_not_mem.mpr
    intro bound member
    have earlier := unextended.recorded bound member
    rw [empty] at earlier
    cases earlier
  constructor
  · intro current
    rw [unextended.live] at current
    rcases accounted.registered current with ⟨txn, found, registered⟩
    exact ⟨txn, unextended.live.trans found, registered⟩
  · intro early
    rcases moved with same | aborted | stepped
    · rw [same] at early
      exact emptied (accounted.early early)
    · rw [aborted] at early
      exact absurd early (by decide)
    · exact emptied (accounted.early (index_lt_of_canTransition stepped.1 early.le))
  · intro validated bound member
    rcases moved with same | aborted | stepped
    · exact accounted.recorded (same.symm.trans validated) bound (unextended.recorded bound member)
    · cases validated.symm.trans aborted
    · have early := index_lt_of_canTransition stepped.1 (validated ▸ le_refl _)
      rw [emptied (accounted.early early)] at member
      cases member
  · intro validated live
    have before := unarrived validated (sameLive live)
    exact accounted.computed before (sameLive live)

theorem Account.after_validated_of_failed {account : Account} {self : Executor π} {call : Call π}
    (failed : (call.run self).1.isOk = false) :
    (account.after self call).validated = account.validated := by
  simp [Account.after, failed]

omit [AccountingPort π] in
/-- Only the noted bound matters for the agreement. -/
theorem Accounted.congr {executor : Executor π} {account other : Account}
    (accounted : Accounted executor account) (same : other.validated = account.validated) :
    Accounted executor other where
  registered := accounted.registered
  early := accounted.early
  recorded validated bound member := same.trans (accounted.recorded validated bound member)
  computed validated live := same ▸ accounted.computed validated live

/-- Every call keeps the account in agreement with the receipts. -/
theorem Accounted.step {self : Executor π} {account : Account} (accounted : Accounted self account)
    (call : Call π) : Accounted (call.run self).2 (account.after self call) := by
  cases proposes : call.proposes with
  | true =>
      rcases Call.run_proposed proposes with ⟨returned, fresh⟩ | ⟨failed, same⟩
      · have unvalidated : (call.run self).2.state ≠ .validated := by
          rw [fresh.proposed]
          exact nofun
        exact ⟨fun _ => fresh.live, fun _ => fresh.unrecorded,
          fun validated => absurd validated unvalidated,
          fun validated => absurd validated unvalidated⟩
      · rw [same]
        exact accounted.congr (Account.after_validated_of_failed failed)
  | false =>
      by_cases success : call.validates = true ∧ (call.run self).1.isOk = true
      · rcases Call.run_validated success.1 success.2 with ⟨bound, computed, validated⟩
        have noted : (account.after self call).validated = some bound := by
          simp [Account.after, success.1, success.2, proposes, computed]
        have empty : self.recordedBounds = [] := by
          apply accounted.early
          rw [validated.generated]
          decide
        constructor
        · intro current
          rw [validated.live] at current
          rcases accounted.registered current with ⟨txn, found, registered⟩
          exact ⟨txn, validated.live.trans found, registered⟩
        · intro early
          rw [validated.validated] at early
          exact absurd early (by decide)
        · intro _ found member
          rcases validated.recorded found member with rfl | earlier
          · exact noted
          · rw [empty] at earlier
            cases earlier
        · intro _ _
          rw [noted]
          rfl
      · have unvalidated : call.validates = false ∨ (call.run self).1.isOk = false := by
          simpa using not_and_or.mp success
        have same : (account.after self call).validated = account.validated := by
          rcases unvalidated with unvalidated | failed
          · simp [Account.after, unvalidated, proposes]
          · exact Account.after_validated_of_failed failed
        apply Accounted.congr _ same
        apply accounted.unextended (Call.run_unextended proposes unvalidated)
          (call.run_steps proposes self)
        intro arrived live
        rcases call.run_steps proposes self with kept | aborted | ⟨_, isGoal⟩
        · exact kept.symm.trans arrived
        · cases arrived.symm.trans aborted
        · have validates : call.validates = true := by
            simp [Call.validates, ← isGoal, arrived]
          have failed := unvalidated.resolve_left (by simp [validates])
          rcases Call.run_faults validates live failed with kept | aborted
          · exact kept.symm.trans arrived
          · cases arrived.symm.trans aborted

end Accounts

section Totals

variable [Wire] {π : Type} [AccountingPort π] {start : Start} {calls : List (Call π)}

/-- The account of a session. -/
def account (start : Start) (calls : List (Call π)) : Account :=
  (run (fun (state : Executor π × Account) call =>
    ((call.run state.1).2, state.2.after state.1 call)) (start.executor, ⟨none, 0⟩) calls).2

theorem account_concat {call : Call π} :
    account start (calls ++ [call]) = (account start calls).after (session start calls) call := by
  have same : ∀ calls : List (Call π),
      (run (fun (state : Executor π × Account) call =>
        ((call.run state.1).2, state.2.after state.1 call)) (start.executor, ⟨none, 0⟩) calls).1 =
      session start calls := by
    intro calls
    induction calls using List.reverseRecOn with
    | nil => rfl
    | append_singleton before call ih => rw [run_concat, session_concat, ih]
  rw [account, run_concat, same]
  rfl

/-- The account of every session agrees with the receipts on record. -/
theorem session_accounted (start : Start) (calls : List (Call π)) :
    Accounted (session start calls) (account start calls) := by
  induction calls using List.reverseRecOn with
  | nil => cases start <;> exact ⟨nofun, fun _ => rfl, nofun, nofun⟩
  | append_singleton before call ih =>
      rw [session_concat, account_concat]
      exact ih.step call

/-- The bound of every applied commit was computed by the port in the validation
of its transaction. -/
theorem validated_of_applies {call : Call π} (applies : call.applies (session start calls) = true) :
    (account start calls).validated.isSome = true := by
  rcases call.run_applied _ applies with ⟨effect, bound, _, applied⟩
  rcases applied.live with ⟨txn, current⟩
  have accounted := session_accounted start calls
  exact accounted.computed applied.validated (accounted.registered (by rw [current]; rfl))

omit [AccountingPort π] in
/-- A receipt-checked commit charges a bound on record. -/
theorem Call.run_recorded {call : Call π} {self : Executor π} (applies : call.applies self = true)
    (checked : call.generic = false) {effect : Option EventKind} {bound : Nat}
    (commits : call.commitment = some (effect, bound)) : bound ∈ self.recordedBounds := by
  cases call with
  | commitLedger =>
      rcases Outcome.satisfies_iff.mp applies with ⟨outcome, returned, _⟩
      have recorded := (Executor.commitLedger_ok (Prod.ext returned rfl)).2
      cases commits
      exact Executor.mem_recordedBounds.mpr (.inl ⟨_, recorded⟩)
  | commitSemantic =>
      rcases Outcome.satisfies_iff.mp applies with ⟨outcome, returned, _⟩
      have recorded := (Executor.commitSemantic_ok (Prod.ext returned rfl)).2
      cases commits
      exact Executor.mem_recordedBounds.mpr (.inr (.inl ⟨_, recorded⟩))
  | commitSecurity =>
      rcases Outcome.satisfies_iff.mp applies with ⟨outcome, returned, _⟩
      have recorded := (Executor.commitSecurity_ok (Prod.ext returned rfl)).2
      cases commits
      exact Executor.mem_recordedBounds.mpr (.inr (.inr (.inl ⟨_, recorded⟩)))
  | commitBranch =>
      rcases Outcome.satisfies_iff.mp applies with ⟨outcome, returned, _⟩
      have recorded := (Executor.commitBranch_ok (Prod.ext returned rfl)).2
      cases commits
      exact Executor.mem_recordedBounds.mpr (.inr (.inr (.inr ⟨_, recorded⟩)))
  | commit => cases checked
  | commitFenced => cases checked
  | _ => cases applies

/-- The region total is the sum of the account, in every state passed. -/
def Balanced (start : Start) (calls : List (Call π)) : Prop :=
  ∀ reached, reached <+: calls →
    (session start reached).regionAdmitted = (account start reached).total

/-- Every generic commit that applies charges the bound that the port computed. -/
def Honest (start : Start) (calls : List (Call π)) : Prop :=
  ∀ before call effect bound, before ++ [call] <+: calls → call.generic = true →
    call.applies (session start before) = true → call.commitment = some (effect, bound) →
    (account start before).validated = some bound

/-- No charge takes the region total out of its 64 bits. -/
def Unsaturated (start : Start) (calls : List (Call π)) : Prop :=
  ∀ before call effect bound, before ++ [call] <+: calls →
    call.applies (session start before) = true → call.commitment = some (effect, bound) →
    (session start before).regionAdmitted + bound ≤ u64Max

/-- The ceiling is armed at every commit that applies. -/
def Armed (start : Start) (calls : List (Call π)) (ceiling : Nat) : Prop :=
  ∀ before call, before ++ [call] <+: calls → call.applies (session start before) = true →
    (session start before).regionCeiling = some ceiling

/-- A call that does not apply keeps the region total and the sum. -/
theorem total_of_unapplied {call : Call π} (accounts : call.reaccounts = false)
    (unapplied : call.applies (session start calls) = false) :
    (session start (calls ++ [call])).regionAdmitted = (session start calls).regionAdmitted ∧
      (account start (calls ++ [call])).total = (account start calls).total := by
  rcases call.run_unapplied _ unapplied with ⟨units, kept, same⟩
  constructor
  · rw [session_concat]
    exact (congrArg Durable.regionAdmitted kept).trans (same accounts)
  · rw [account_concat]
    simp [Account.after, unapplied]

/-- A commit that applies adds its charge to the region total and the noted bound
to the sum. -/
theorem total_of_applies {call : Call π} (applies : call.applies (session start calls) = true) :
    ∃ effect bound noted, call.commitment = some (effect, bound) ∧
      (account start calls).validated = some noted ∧
      (session start (calls ++ [call])).regionAdmitted =
        saturatingAdd (session start calls).regionAdmitted bound ∧
      (account start (calls ++ [call])).total = (account start calls).total + noted := by
  rcases call.run_applied _ applies with ⟨effect, bound, commits, applied⟩
  rcases Option.isSome_iff_exists.mp (validated_of_applies applies) with ⟨noted, validated⟩
  refine ⟨effect, bound, noted, commits, validated, ?_, ?_⟩
  · rw [session_concat]
    exact applied.admitted
  · rw [account_concat]
    simp [Account.after, applies, validated]

theorem Honest.balanced (untouched : ∀ call ∈ calls, call.reaccounts = false)
    (unsaturated : Unsaturated start calls) (honest : Honest start calls) :
    Balanced start calls := by
  intro reached
  induction reached using List.reverseRecOn with
  | nil => exact fun _ => by cases start <;> rfl
  | append_singleton before call ih =>
      intro isPrefix
      have balanced := ih ((List.prefix_append _ _).trans isPrefix)
      cases applies : call.applies (session start before) with
      | false =>
          have member : call ∈ calls := isPrefix.subset (by simp)
          rcases total_of_unapplied (untouched call member) applies with ⟨admitted, total⟩
          rw [admitted, total, balanced]
      | true =>
          rcases total_of_applies applies with ⟨effect, bound, noted, commits, validated, admitted,
            total⟩
          have charged : noted = bound := by
            have paid : (account start before).validated = some bound := by
              cases generic : call.generic with
              | true => exact honest before call effect bound isPrefix generic applies commits
              | false =>
                  rcases call.run_applied _ applies with ⟨_, _, _, applied⟩
                  exact (session_accounted start before).recorded applied.validated bound
                    (Call.run_recorded applies generic commits)
            exact Option.some.inj (validated.symm.trans paid)
          rw [admitted, total, charged, ← balanced]
          exact saturatingAdd_of_le
            (unsaturated before call effect bound isPrefix applies commits)

theorem Balanced.honest (unsaturated : Unsaturated start calls) (balanced : Balanced start calls) :
    Honest start calls := by
  intro before call effect bound isPrefix _ applies commits
  rcases total_of_applies applies with ⟨_, _, noted, commits', validated, admitted, total⟩
  cases commits.symm.trans commits'
  have earlier := balanced before ((List.prefix_append _ _).trans isPrefix)
  have later := balanced _ isPrefix
  rw [admitted, total, ← earlier,
    saturatingAdd_of_le (unsaturated before call effect bound isPrefix applies commits)] at later
  rw [validated, Nat.add_left_cancel later]

theorem Armed.within (untouched : ∀ call ∈ calls, call.reaccounts = false) {ceiling : Nat}
    (armed : Armed start calls ceiling) (reached : List (Call π)) :
    reached <+: calls → (session start reached).regionAdmitted ≤ ceiling := by
  induction reached using List.reverseRecOn with
  | nil =>
      intro _
      cases start <;> exact Nat.zero_le ceiling
  | append_singleton before call ih =>
      intro isPrefix
      cases applies : call.applies (session start before) with
      | false =>
          have member : call ∈ calls := isPrefix.subset (by simp)
          rw [(total_of_unapplied (untouched call member) applies).1]
          exact ih ((List.prefix_append _ _).trans isPrefix)
      | true =>
          rcases call.run_applied _ applies with ⟨effect, bound, _, applied⟩
          rw [session_concat, applied.admitted]
          exact applied.within ceiling (armed before call isPrefix applies)

/-- In a session that leaves the region total to its commits and does not
saturate it, the total is the sum of the validated bounds of all applied commits
exactly when the generic commits charge what was validated.  An armed ceiling is
never exceeded. -/
theorem region_charges_validated (start : Start) (calls : List (Call π))
    (untouched : ∀ call ∈ calls, call.reaccounts = false) :
    (Unsaturated start calls → (Balanced start calls ↔ Honest start calls)) ∧
      ∀ ceiling, Armed start calls ceiling → ∀ reached, reached <+: calls →
        (session start reached).regionAdmitted ≤ ceiling := by
  constructor
  · intro unsaturated
    exact ⟨Balanced.honest unsaturated, Honest.balanced untouched unsaturated⟩
  · intro ceiling armed
    exact armed.within untouched

end Totals

section Charges

local instance chargesWire : Wire := .emptySession

/-- An admission without an effect under an armed ceiling.  The port computes a
bound of 64 for it, and the commit charges `payloadBound`. -/
def chargingCalls (payloadBound : Nat) : List (Call BoundPort) :=
  [.bindPort ⟨.v1, 0, 0⟩, .armRegionAccounting 100, .proposeAs "admit-ingress" 7 .s, .snapshot,
    .generate, .validate 64 ⟨1000, 0, 0⟩ 0 0 0 0, .commit 7 none payloadBound]

/-- An admission that charges the bound of the port. -/
theorem charge_of_validated_bound :
    ((session (.new 1 (.generous 1)) (chargingCalls 64)).regionAdmitted = 64 ∧
        (account (.new 1 (.generous 1)) (chargingCalls 64)).total = 64) ∧
      (Unsaturated (.new 1 (.generous 1)) (chargingCalls 64) →
        (Balanced (.new 1 (.generous 1)) (chargingCalls 64) ↔
          Honest (.new 1 (.generous 1)) (chargingCalls 64))) := by
  constructor
  · decide +kernel
  · exact (region_charges_validated _ _ (by decide)).1

/-- An admission that charges less than was validated for it. -/
theorem charge_below_validated_bound :
    (session (.new 1 (.generous 1)) (chargingCalls 5)).state = .committed ∧
      (session (.new 1 (.generous 1)) (chargingCalls 5)).regionAdmitted = 5 ∧
      (account (.new 1 (.generous 1)) (chargingCalls 5)).total = 64 ∧
      ¬ Balanced (.new 1 (.generous 1)) (chargingCalls 5) := by
  have charged : (session (.new 1 (.generous 1)) (chargingCalls 5)).state = .committed ∧
      (session (.new 1 (.generous 1)) (chargingCalls 5)).regionAdmitted = 5 ∧
      (account (.new 1 (.generous 1)) (chargingCalls 5)).total = 64 := by
    decide +kernel
  rcases charged with ⟨committed, admitted, total⟩
  refine ⟨committed, admitted, total, ?_⟩
  intro balanced
  have same := balanced _ (List.prefix_refl _)
  rw [admitted, total] at same
  cases same

end Charges

end Llxprt.Transaction

import Llxprt.Agent.Turns
import Llxprt.Log.Fencing
import Llxprt.Log.Reserve

/-!
# The prompts of a session

A branch keeps the prompt that it was reserved for.  A reclaim brings a prompt of
its own, but a request only reclaims a branch whose prompt it repeats.
-/

namespace Llxprt.Agent

open Llxprt.Kernel Llxprt.Kernel.Recorded Llxprt.Rust Llxprt.Gateway Llxprt.Log

variable {τ κ : Type} {checks : Checks τ κ} {state later : SessionState τ κ} {branchId : String}

def promptOf (state : SessionState τ κ) (branchId : String) : Option String :=
  (state.branch branchId).map BranchRecord.prompt

/-- Identifiers are unique, so a branch is found under its own. -/
theorem branch_of_mem {branch : BranchRecord τ κ}
    (ids : (state.branches.map BranchRecord.branchId).Nodup)
    (member : branch ∈ state.branches) : state.branch branch.branchId = some branch := by
  cases found : state.branch branch.branchId with
  | none =>
      have missed := List.find?_eq_none.mp found branch member
      simp at missed
  | some other =>
      have inside : other ∈ state.branches := List.mem_of_find?_eq_some found
      rw [List.inj_on_of_nodup_map ids inside member (branchId_of_branch found)]

/-- The place that is found from the end. -/
theorem rposition_eq_some {α : Type} {test : α → Bool} {items : List α} {index : Nat}
    (found : rposition test items = some index) :
    ∃ item, items[index]? = some item ∧ test item := by
  rw [rposition, Option.map_eq_some_iff] at found
  rcases found with ⟨⟨item, place⟩, last, rfl⟩
  have listed := List.mem_filter.mp (List.mem_of_getLast? last)
  exact ⟨item, List.mem_zipIdx_iff_getElem?.mp listed.1, listed.2⟩

/-- The same branch with the same prompt. -/
def Alike (branch next : BranchRecord τ κ) : Prop :=
  next.branchId = branch.branchId ∧ next.prompt = branch.prompt

section Keeping

theorem promptOf_of_alike
    (alike : List.Forall₂ Alike state.branches later.branches) (branchId : String) :
    promptOf later branchId = promptOf state branchId := by
  have named : ∀ branch next : BranchRecord τ κ, Alike branch next →
      decide (next.branchId = branchId) = decide (branch.branchId = branchId) := by
    intro branch next same
    rw [same.1]
  cases found : state.branch branchId with
  | some branch =>
      rcases forall₂_find? alike named found with ⟨next, present, same⟩
      rw [promptOf, promptOf, found, show later.branch branchId = some next from present]
      exact congrArg some same.2
  | none =>
      cases present : later.branch branchId with
      | none => rw [promptOf, promptOf, found, present]
      | some next =>
          rcases forall₂_find? alike.flip (fun next branch same =>
            (named branch next same).symm) present with ⟨branch, here, _⟩
          rw [show state.branch branchId = some branch from here] at found
          cases found

theorem alike_setBranch {branch next : BranchRecord τ κ}
    (present : state.branch branchId = some branch) (same : Alike branch next) :
    List.Forall₂ Alike state.branches (state.setBranch branchId next).branches := by
  apply forall₂_updateFirst
  · exact fun item => ⟨rfl, rfl⟩
  · intro item found
    rw [Option.some.inj (found.symm.trans present)]
    exact same

theorem alike_onPending {owner : String} {change : BranchRecord τ κ →
      Except StoreError (BranchRecord τ κ)}
    (keeps : ∀ branch next, change branch = .ok next → Alike branch next)
    (accepted : state.onPending branchId owner change = .ok later) :
    List.Forall₂ Alike state.branches later.branches := by
  simp only [SessionState.onPending, bind_eq_ok, pending_eq_ok, pure_eq_ok] at accepted
  rcases accepted with ⟨branch, ⟨present, _, _⟩, next, changed, rfl⟩
  exact alike_setBranch present (keeps branch next changed)

theorem alike_refl (state : SessionState τ κ) : List.Forall₂ Alike state.branches state.branches :=
  List.forall₂_same.mpr fun _ _ => ⟨rfl, rfl⟩

/-- No owner changes a prompt. -/
theorem promptOf_acting {event : Event τ κ}
    (applied : applyEvent checks state event = .ok later) (acts : event.acting ≠ none)
    (target : String) : promptOf later target = promptOf state target := by
  apply promptOf_of_alike
  cases event with
  | provider branchId owner command =>
      simp only [applyEvent, providerEvent, bind_eq_ok, pure_eq_ok] at applied
      rcases applied with ⟨_, _, _, _, turns, _, rfl⟩
      exact alike_refl state
  | renderContract branchId owner publication =>
      simp only [applyEvent, publishRender, bind_eq_ok, pure_eq_ok] at applied
      rcases applied with ⟨_, _, rfl⟩
      split <;> exact alike_refl state
  | telemetry branchId owner telemetry =>
      simp only [applyEvent, setTelemetry, bind_eq_ok, okOr_eq_ok, pure_eq_ok] at applied
      rcases applied with ⟨branch, present, _, _, rfl⟩
      exact alike_setBranch present ⟨rfl, rfl⟩
  | branchReserved => exact absurd rfl acts
  | branchReclaimed => exact absurd rfl acts
  | streamRetry branchId owner record =>
      apply alike_onPending _ applied
      intro branch next changed
      simp only [bind_eq_ok, pure_eq_ok] at changed
      rcases changed with ⟨_, _, rfl⟩
      exact ⟨rfl, rfl⟩
  | leaseRenewed branchId owner leaseExpiry =>
      apply alike_onPending _ applied
      intro branch next changed
      simp only [bind_eq_ok, pure_eq_ok] at changed
      rcases changed with ⟨_, _, rfl⟩
      exact ⟨rfl, rfl⟩
  | checkpoint branchId owner rounds leaseExpiry =>
      apply alike_onPending _ applied
      intro branch next changed
      simp only [bind_eq_ok, pure_eq_ok] at changed
      rcases changed with ⟨_, _, rfl⟩
      exact ⟨rfl, rfl⟩
  | branchCompleted branchId owner rounds summary =>
      apply alike_onPending _ applied
      intro branch next changed
      rw [← pure_eq_ok.mp changed]
      exact ⟨rfl, rfl⟩
  | branchFailed branchId owner rounds error =>
      apply alike_onPending _ applied
      intro branch next changed
      rw [← pure_eq_ok.mp changed]
      exact ⟨rfl, rfl⟩

/-- A reclaim with the prompt of the branch. -/
theorem promptOf_reclaim {prompt owner : String} {reservedAt leaseExpiry : UInt64}
    (applied : applyEvent checks state
      (.branchReclaimed branchId prompt owner reservedAt leaseExpiry) = .ok later)
    (same : promptOf state branchId = some prompt) (target : String) :
    promptOf later target = promptOf state target := by
  simp only [applyEvent, reclaim, bind_eq_ok, okOr_eq_ok, pure_eq_ok] at applied
  rcases applied with ⟨epoch, _, branch, present, _, _, rfl⟩
  apply promptOf_of_alike
  rw [promptOf, present, Option.map_some, Option.some.injEq] at same
  exact alike_setBranch present ⟨rfl, same.symm⟩

/-- A new branch has its prompt, and every other branch keeps its own. -/
theorem promptOf_reserve {cwd : Option String} {cwdDev cwdIno seq : UInt64}
    {branch : BranchRecord τ κ}
    (applied : applyEvent checks state (.branchReserved cwd cwdDev cwdIno branch seq) = .ok later) :
    promptOf later branch.branchId = some branch.prompt ∧
      ∀ target prompt, promptOf state target = some prompt → promptOf later target = some prompt
    := by
  rcases applyEvent_cases applied with ⟨_, _, _, added, _, same, fresh, branches, _⟩ | stays
  · cases same
    have looked : ∀ target, later.branch target =
        (state.branch target).or ([branch].find? fun other => other.branchId = target) := by
      intro target
      rw [SessionState.branch, branches, List.find?_append]
      rfl
    constructor
    · have missing : state.branch branch.branchId = none := by
        rw [SessionState.branch, List.find?_eq_none]
        intro other member named
        have held := contains_iff.mpr ⟨other, member, of_decide_eq_true named⟩
        rw [fresh] at held
        cases held
      rw [promptOf, looked, missing]
      simp
    · intro target prompt known
      rw [promptOf, Option.map_eq_some_iff] at known
      rcases known with ⟨other, present, rfl⟩
      rw [promptOf, looked, present]
      rfl
  · have reserves : (Event.branchReserved cwd cwdDev cwdIno branch seq).acting = none := rfl
    rcases stays with ⟨touched, _, _⟩
    simp only [applyEvent, reserve, bind_eq_ok, pure_eq_ok] at applied
    rcases applied with ⟨_, _, _, _, _, _, pinned, _, epoch, _, rfl⟩
    exact absurd touched.length_eq (by simp)

end Keeping

section Requests

/-- The branch that a request comes back to has its prompt. -/
theorem findExisting_prompt {current : Option Nat} {target : UInt32} {prompt : String} {index : Nat}
    {record : BranchRecord τ κ} (found : findExisting state current target prompt = some index)
    (present : state.branches[index]? = some record) : record.prompt = prompt := by
  have located : ∀ {test : BranchRecord τ κ → Bool},
      (∀ branch, test branch = true → branch.prompt = prompt) →
      rposition test state.branches = some index → record.prompt = prompt := by
    intro test asks found
    rcases rposition_eq_some found with ⟨item, here, hit⟩
    rw [present, Option.some.injEq] at here
    exact asks record (here ▸ hit)
  unfold findExisting at found
  split at found
  · apply located _ found
    intro branch hit
    simp only [Bool.and_eq_true, decide_eq_true_eq] at hit
    exact hit.2
  · simp only at found
    split at found
    · rename_i ancestor hit
      cases found
      have tested := List.find?_some hit
      rw [present] at tested
      simp only [Option.any_some, Bool.and_eq_true, decide_eq_true_eq] at tested
      exact tested.2
    · split at found
      · cases found
      · apply located _ found
        intro branch hit
        simp only [Bool.and_eq_true, decide_eq_true_eq] at hit
        exact hit.2

theorem prepareRequestState_branches {stored : SessionState τ κ}
    {sessionId prompt cwd : String} {identity : UInt64 × UInt64}
    (prepared : prepareRequestState stored sessionId prompt cwd identity = .ok state) :
    state.branches = stored.branches := by
  simp only [prepareRequestState, bind_eq_ok] at prepared
  rcases prepared with ⟨_, _, _, _, pinned⟩
  split at pinned
  · rw [← pure_eq_ok.mp pinned]
  · simp only [bind_eq_ok, pure_eq_ok] at pinned
    rcases pinned with ⟨_, _, _, _, rfl⟩
    rfl

variable [Recorded τ] [Recorded κ]

/-- A reservation is for the prompt of its branch, and no branch loses its own. -/
theorem startRequest_prompt {stored : SessionState τ κ}
    {request : StartRequest} {owner : String} {now : UInt64} {reserved : ReservedRequest κ}
    (ids : (stored.branches.map BranchRecord.branchId).Nodup)
    (started : startRequest checks stored request owner now = .ok (reserved, later)) :
    promptOf later reserved.branchId = some reserved.prompt ∧
      ∀ target prompt, promptOf stored target = some prompt → promptOf later target = some prompt
    := by
  simp only [startRequest, bind_eq_ok] at started
  rcases started with ⟨state, prepared, current, _, target, _, decided⟩
  have fresh : ∀ {parent retry prior},
      (do
        let pair ← pushNewBranch checks stored state target parent request.prompt
          ⟨owner, now, extendLease now⟩
        pure (makeReservation state pair.1 target retry prior, pair.2)) = .ok (reserved, later) →
      promptOf later reserved.branchId = some reserved.prompt ∧
        ∀ target prompt, promptOf stored target = some prompt →
          promptOf later target = some prompt := by
    intro parent retry prior pushed
    simp only [bind_eq_ok, pure_eq_ok, Prod.mk.injEq] at pushed
    rcases pushed with ⟨⟨branch, next⟩, pushed, rfl, rfl⟩
    rcases pushNewBranch_eq_ok pushed with ⟨cwd, cwdDev, cwdIno, seq, appended, held⟩
    exact promptOf_reserve (appendEvent_eq_ok appended).1
  split at decided
  · rename_i index record located
    rw [Option.bind_eq_some_iff] at located
    rcases located with ⟨place, found, read⟩
    rw [Option.map_eq_some_iff] at read
    rcases read with ⟨other, present, same⟩
    cases same
    have asked := findExisting_prompt found present
    have known : promptOf stored record.branchId = some record.prompt := by
      rw [prepareRequestState_branches prepared] at present
      rw [promptOf, branch_of_mem ids (List.mem_of_getElem? present), Option.map_some]
    simp only [reserveExisting] at decided
    split at decided
    · simp only [pure_eq_ok, Prod.mk.injEq] at decided
      rcases decided with ⟨rfl, rfl⟩
      exact ⟨known, fun _ _ same => same⟩
    · exact fresh decided
    · simp only [reclaimPending, bind_eq_ok, reject_eq_ok, pure_eq_ok, Prod.mk.injEq] at decided
      rcases decided with ⟨_, _, next, appended, rfl, rfl⟩
      have kept := promptOf_reclaim (appendEvent_eq_ok appended).1 (asked ▸ known)
      constructor
      · rw [kept, known, asked]
      · intro target prompt known
        rw [kept, known]
  · exact fresh decided

end Requests

end Llxprt.Agent

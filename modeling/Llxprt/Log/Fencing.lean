import Llxprt.Log.Replay
import Llxprt.Rust.Runs
import Mathlib.Data.List.Nodup

/-!
# Owners and history of a session log

Branches are only ever added, keep their place in the lineage and grow at the
end of their rounds; a terminal branch changes in its telemetry alone.  An event
acts for the owner that the last reservation or reclaim of its branch named.
-/

namespace Llxprt.Log

open Llxprt.Kernel Llxprt.Rust Llxprt.Gateway

variable {τ κ : Type} {checks : Checks τ κ} {state later : SessionState τ κ}

/-- The branch and the owner that an event acts for. -/
def Event.acting : Event τ κ → Option (String × String)
  | .provider branchId owner _ | .renderContract branchId owner _ | .telemetry branchId owner _
  | .streamRetry branchId owner _ | .leaseRenewed branchId owner _ | .checkpoint branchId owner _ _
  | .branchCompleted branchId owner _ _ | .branchFailed branchId owner _ _ => some (branchId, owner)
  | .branchReserved .. | .branchReclaimed .. => none

/-- The branch and the owner that an event passes it to. -/
def Event.reclaims : Event τ κ → Option (String × String)
  | .branchReclaimed branchId _ owner _ _ => some (branchId, owner)
  | _ => none

/-- The event makes a reservation. -/
def Event.reserves : Event τ κ → Bool
  | .branchReserved .. | .branchReclaimed .. => true
  | _ => false

/-- What events leave of a branch. -/
structure BranchRecord.Continued (branch next : BranchRecord τ κ) : Prop where
  branchId : next.branchId = branch.branchId
  turn : next.turn = branch.turn
  attempt : next.attempt = branch.attempt
  parentBranch : next.parentBranch = branch.parentBranch
  parentTurn : next.parentTurn = branch.parentTurn
  parentAttempt : next.parentAttempt = branch.parentAttempt
  rounds : branch.rounds <+: next.rounds
  terminal : branch.lifecycle ≠ .pending → next = { branch with telemetry := next.telemetry }

theorem BranchRecord.Continued.refl (branch : BranchRecord τ κ) : branch.Continued branch :=
  ⟨rfl, rfl, rfl, rfl, rfl, rfl, List.prefix_rfl, fun _ => rfl⟩

theorem BranchRecord.Continued.trans {branch next last : BranchRecord τ κ}
    (first : branch.Continued next) (second : next.Continued last) : branch.Continued last where
  branchId := second.branchId.trans first.branchId
  turn := second.turn.trans first.turn
  attempt := second.attempt.trans first.attempt
  parentBranch := second.parentBranch.trans first.parentBranch
  parentTurn := second.parentTurn.trans first.parentTurn
  parentAttempt := second.parentAttempt.trans first.parentAttempt
  rounds := first.rounds.trans second.rounds
  terminal closed := by
    have same := first.terminal closed
    have lifecycle : next.lifecycle = branch.lifecycle := by rw [same]
    have more := second.terminal (lifecycle ▸ closed)
    rw [more, same]

/-- What one event does to a branch: it continues it, and only a reclaim changes
its owner. -/
structure Touched (event : Event τ κ) (branch next : BranchRecord τ κ) : Prop where
  continued : branch.Continued next
  owner : next.owner = branch.owner ∨ event.reclaims = some (branch.branchId, next.owner)

section Steps

variable {branchId owner : String} {event : Event τ κ}

theorem Touched.refl (event : Event τ κ)
    (branch : BranchRecord τ κ) : Touched event branch branch :=
  ⟨.refl branch, .inl rfl⟩

theorem pending_eq_ok {branch : BranchRecord τ κ} :
    state.pending branchId owner = .ok branch ↔
      state.branch branchId = some branch ∧ branch.lifecycle = .pending ∧ branch.owner = owner := by
  simp only [SessionState.pending, bind_eq_ok, okOr_eq_ok, reject_eq_ok, pure_eq_ok, not_or,
    Decidable.not_not, exists_const]
  constructor
  · rintro ⟨found, present, ⟨lifecycle, same⟩, rfl⟩
    exact ⟨present, lifecycle, same⟩
  · rintro ⟨present, lifecycle, same⟩
    exact ⟨branch, present, ⟨lifecycle, same⟩, rfl⟩

/-- A change of the branch that a lookup found relates the branches in place. -/
theorem forall₂_setBranch {branch next : BranchRecord τ κ}
    (present : state.branch branchId = some branch) (touched : Touched event branch next) :
    List.Forall₂ (Touched event) state.branches (state.setBranch branchId next).branches := by
  refine forall₂_updateFirst (Touched.refl event) ?_
  intro item found
  have same : item = branch := Option.some.inj (found.symm.trans present)
  rw [same]
  exact touched

theorem branchId_of_branch {branch : BranchRecord τ κ}
    (present : state.branch branchId = some branch) : branch.branchId = branchId := by
  have hit := List.find?_some present
  exact of_decide_eq_true hit

/-- An event that does not reserve: it touches branches in place, acts for the
owner of the branch it names, and moves the epoch exactly when it reclaims. -/
structure Stays (state : SessionState τ κ)
    (event : Event τ κ) (later : SessionState τ κ) : Prop where
  touched : List.Forall₂ (Touched event) state.branches later.branches
  acting : ∀ branchId owner, event.acting = some (branchId, owner) →
    ∃ branch, state.branch branchId = some branch ∧ branch.owner = owner
  epoch : later.providerEpoch.toNat =
    state.providerEpoch.toNat + if event.reserves then 1 else 0

/-- A change of a pending branch by its owner that keeps who it belongs to. -/
theorem onPending_stays {change : BranchRecord τ κ →
      Except StoreError (BranchRecord τ κ)}
    (keeps : ∀ branch next, branch.lifecycle = .pending → change branch = .ok next →
      branch.Continued next ∧ next.owner = branch.owner)
    (acts : event.acting = some (branchId, owner)) (plain : event.reserves = false)
    (accepted : state.onPending branchId owner change = .ok later) : Stays state event later := by
  simp only [SessionState.onPending, bind_eq_ok, pending_eq_ok, pure_eq_ok] at accepted
  rcases accepted with ⟨branch, ⟨present, lifecycle, same⟩, next, changed, rfl⟩
  rcases keeps branch next lifecycle changed with ⟨continued, kept⟩
  refine ⟨forall₂_setBranch present ⟨continued, .inl kept⟩, ?_, by rw [plain]; rfl⟩
  intro target actor named
  rw [acts, Option.some.injEq, Prod.mk.injEq] at named
  exact ⟨branch, named.1 ▸ present, same.trans named.2⟩

/-- An event that looks at a pending branch and changes none. -/
theorem stays_of_pending {branch : BranchRecord τ κ}
    (acts : event.acting = some (branchId, owner)) (plain : event.reserves = false)
    (held : state.pending branchId owner = .ok branch) (branches : later.branches = state.branches)
    (epoch : later.providerEpoch = state.providerEpoch) : Stays state event later := by
  rcases pending_eq_ok.mp held with ⟨present, _, same⟩
  refine ⟨?_, ?_, by rw [plain, epoch]; rfl⟩
  · rw [branches]
    exact List.forall₂_same.mpr fun branch _ => .refl event branch
  · intro target actor named
    rw [acts, Option.some.injEq, Prod.mk.injEq] at named
    exact ⟨branch, named.1 ▸ present, same.trans named.2⟩

/-- What an accepted event does. -/
theorem applyEvent_cases (accepted : applyEvent checks state event = .ok later) :
    (∃ cwd cwdDev cwdIno branch nextBranchSeq,
      event = .branchReserved cwd cwdDev cwdIno branch nextBranchSeq ∧
      state.contains branch.branchId = false ∧ later.branches = state.branches ++ [branch] ∧
      later.providerEpoch.toNat = state.providerEpoch.toNat + 1) ∨
    Stays state event later := by
  cases event with
  | provider branchId owner command =>
      right
      simp only [applyEvent, providerEvent, bind_eq_ok, pure_eq_ok] at accepted
      rcases accepted with ⟨branch, held, _, _, turns, _, rfl⟩
      exact stays_of_pending rfl rfl held rfl rfl
  | renderContract branchId owner publication =>
      right
      simp only [applyEvent, publishRender, bind_eq_ok, pure_eq_ok] at accepted
      rcases accepted with ⟨branch, held, rfl⟩
      refine stays_of_pending rfl rfl held ?_ ?_
      · split <;> rfl
      · split <;> rfl
  | telemetry branchId owner telemetry =>
      right
      simp only [applyEvent, setTelemetry, bind_eq_ok, okOr_eq_ok, reject_eq_ok, pure_eq_ok, not_or,
        Decidable.not_not] at accepted
      rcases accepted with ⟨branch, present, _, ⟨same, _⟩, rfl⟩
      refine ⟨forall₂_setBranch present ⟨?_, .inl rfl⟩, ?_, rfl⟩
      · exact ⟨rfl, rfl, rfl, rfl, rfl, rfl, List.prefix_rfl, fun _ => rfl⟩
      · intro target actor named
        simp only [Event.acting, Option.some.injEq, Prod.mk.injEq] at named
        exact ⟨branch, named.1 ▸ present, same.trans named.2⟩
  | branchReserved cwd cwdDev cwdIno branch nextBranchSeq =>
      left
      simp only [applyEvent, reserve, bind_eq_ok, okOr_eq_ok, reject_eq_ok, pure_eq_ok, not_or,
        Bool.not_eq_true] at accepted
      rcases accepted with ⟨_, ⟨fresh, _⟩, _, _, _, _, pinned, _, epoch, counted, rfl⟩
      exact ⟨cwd, cwdDev, cwdIno, branch, nextBranchSeq, rfl, fresh, rfl,
        checkedIncrement_eq_some counted⟩
  | branchReclaimed branchId prompt owner reservedAt leaseExpiry =>
      right
      simp only [applyEvent, reclaim, bind_eq_ok, okOr_eq_ok, reject_eq_ok, pure_eq_ok, not_or,
        Decidable.not_not] at accepted
      rcases accepted with ⟨epoch, counted, branch, present, _, ⟨lifecycle, _⟩, rfl⟩
      refine ⟨forall₂_setBranch present ⟨?_, .inr ?_⟩, ?_, checkedIncrement_eq_some counted⟩
      · exact ⟨rfl, rfl, rfl, rfl, rfl, rfl, List.prefix_rfl, fun closed => absurd lifecycle closed⟩
      · simp only [Event.reclaims, branchId_of_branch present]
      · intro target actor named
        cases named
  | streamRetry branchId owner record =>
      right
      refine onPending_stays (fun branch next lifecycle changed => ?_) rfl rfl accepted
      simp only [bind_eq_ok, pure_eq_ok] at changed
      rcases changed with ⟨_, _, rfl⟩
      exact ⟨⟨rfl, rfl, rfl, rfl, rfl, rfl, List.prefix_rfl, fun closed => absurd lifecycle closed⟩,
        rfl⟩
  | leaseRenewed branchId owner leaseExpiry =>
      right
      refine onPending_stays (fun branch next lifecycle changed => ?_) rfl rfl accepted
      simp only [bind_eq_ok, pure_eq_ok] at changed
      rcases changed with ⟨_, _, rfl⟩
      exact ⟨⟨rfl, rfl, rfl, rfl, rfl, rfl, List.prefix_rfl, fun closed => absurd lifecycle closed⟩,
        rfl⟩
  | checkpoint branchId owner rounds leaseExpiry =>
      right
      refine onPending_stays (fun branch next lifecycle changed => ?_) rfl rfl accepted
      simp only [bind_eq_ok, pure_eq_ok] at changed
      rcases changed with ⟨_, _, rfl⟩
      exact ⟨⟨rfl, rfl, rfl, rfl, rfl, rfl, List.prefix_append _ _,
        fun closed => absurd lifecycle closed⟩, rfl⟩
  | branchCompleted branchId owner rounds summary =>
      right
      refine onPending_stays (fun branch next lifecycle changed => ?_) rfl rfl accepted
      obtain rfl := pure_eq_ok.mp changed
      exact ⟨⟨rfl, rfl, rfl, rfl, rfl, rfl, List.prefix_append _ _,
        fun closed => absurd lifecycle closed⟩, rfl⟩
  | branchFailed branchId owner rounds error =>
      right
      refine onPending_stays (fun branch next lifecycle changed => ?_) rfl rfl accepted
      obtain rfl := pure_eq_ok.mp changed
      exact ⟨⟨rfl, rfl, rfl, rfl, rfl, rfl, List.prefix_append _ _,
        fun closed => absurd lifecycle closed⟩, rfl⟩

end Steps

section Validated

theorem branchIndex_eq_ok {seen : BTreeSet String} {branches : List (BranchRecord τ κ)} :
    SessionState.branchIndex seen branches = .ok () ↔
      (∀ branch ∈ branches, branch.branchId ≠ "") ∧
        (branches.map BranchRecord.branchId).Nodup ∧
        ∀ branch ∈ branches, branch.branchId ∉ seen := by
  induction branches generalizing seen with
  | nil => simp [SessionState.branchIndex]
  | cons branch rest ih =>
      have unseen : ¬ seen.contains branch.branchId = true ↔ branch.branchId ∉ seen := by
        rw [Std.ExtTreeSet.contains_iff_mem]
      rw [List.forall_mem_cons, List.forall_mem_cons, List.map_cons, List.nodup_cons]
      simp only [SessionState.branchIndex, bind_eq_ok, reject_eq_ok, not_or, exists_const,
        String.isEmpty_iff, unseen, ih, forall_notMem_insert]
      constructor
      · rintro ⟨⟨named, first⟩, others, nodup, apart, missed⟩
        exact ⟨⟨named, others⟩, ⟨apart, nodup⟩, first, missed⟩
      · rintro ⟨⟨named, others⟩, ⟨apart, nodup⟩, first, missed⟩
        exact ⟨⟨named, first⟩, others, nodup, apart, missed⟩

/-- What the other parts of the store use of a validated state. -/
structure SessionState.Validated (state : SessionState τ κ) : Prop where
  ids : (state.branches.map BranchRecord.branchId).Nodup
  turns : WellFormed state.providerTurns
  epochs : ∀ record ∈ state.providerTurns, record.intent.epoch ≤ state.providerEpoch
  branches : ∀ record ∈ state.providerTurns, state.contains record.intent.branch = true

theorem validated_of_validate (valid : state.validate checks = .ok ()) : state.Validated := by
  simp only [SessionState.validate, bind_eq_ok, reject_eq_ok, mapError_eq_ok, List.any_eq_true,
    Bool.or_eq_true, decide_eq_true_eq, not_exists, not_and, not_or, Bool.not_eq_true,
    Bool.not_eq_false'] at valid
  rcases valid with ⟨_, _, _, records, _, fenced, _, _, _, index, _⟩
  refine ⟨(branchIndex_eq_ok.mp index).2.1, validateRecords_eq_ok.mp records, ?_, ?_⟩
  · intro record member
    exact UInt64.not_lt.mp (fenced record member).1
  · intro record member
    exact (fenced record member).2

theorem applyBatch_eq_ok {batch : EventBatch τ κ} :
    applyBatch checks state batch = .ok later ↔
      ∃ event, batch.events = [event] ∧ applyEvent checks state event = .ok later ∧
        later.validate checks = .ok () := by
  rcases batch with ⟨txnId, _ | ⟨event, _ | ⟨second, rest⟩⟩⟩
  · simp [applyBatch]
  · simp only [applyBatch, bind_eq_ok, pure_eq_ok]
    constructor
    · rintro ⟨candidate, applied, _, valid, rfl⟩
      exact ⟨event, rfl, applied, valid⟩
    · rintro ⟨other, same, applied, valid⟩
      cases same
      exact ⟨later, applied, (), valid, rfl⟩
  · simp [applyBatch]

end Validated

section Runs

variable {batches : List (EventBatch τ κ)}

/-- Every branch is still there after a transaction. -/
theorem applyBatch_getElem? {batch : EventBatch τ κ}
    (accepted : applyBatch checks state batch = .ok later) {index : Nat}
    {branch : BranchRecord τ κ} (present : state.branches[index]? = some branch) :
    ∃ next, later.branches[index]? = some next ∧ branch.Continued next := by
  rcases applyBatch_eq_ok.mp accepted with ⟨event, _, applied, _⟩
  rcases applyEvent_cases applied with ⟨_, _, _, added, _, _, _, branches, _⟩ | stays
  · refine ⟨branch, ?_, .refl branch⟩
    rw [branches, List.getElem?_append_left (List.getElem?_eq_some_iff.mp present).1]
    exact present
  · rcases forall₂_getElem? stays.touched present with ⟨next, found, touched⟩
    exact ⟨next, found, touched.continued⟩

theorem foldlM_branch_getElem? (accepted : batches.foldlM (applyBatch checks) state = .ok later)
    {index : Nat} {branch : BranchRecord τ κ} (present : state.branches[index]? = some branch) :
    ∃ next, later.branches[index]? = some next ∧ branch.Continued next := by
  induction batches generalizing state branch with
  | nil =>
      rw [List.foldlM_nil, pure_eq_ok] at accepted
      exact ⟨branch, accepted ▸ present, .refl branch⟩
  | cons batch rest ih =>
      rw [List.foldlM_cons, bind_eq_ok] at accepted
      rcases accepted with ⟨middle, first, others⟩
      rcases applyBatch_getElem? first present with ⟨moved, found, continued⟩
      rcases ih others found with ⟨next, last, more⟩
      exact ⟨next, last, continued.trans more⟩

/-- The last state of an accepted run is the first one or was validated. -/
theorem foldlM_validate (accepted : batches.foldlM (applyBatch checks) state = .ok later) :
    later = state ∨ later.validate checks = .ok () := by
  induction batches generalizing state with
  | nil =>
      rw [List.foldlM_nil, pure_eq_ok] at accepted
      exact .inl accepted.symm
  | cons batch rest ih =>
      rw [List.foldlM_cons, bind_eq_ok] at accepted
      rcases accepted with ⟨middle, first, others⟩
      rcases ih others with same | valid
      · rcases applyBatch_eq_ok.mp first with ⟨_, _, _, valid⟩
        exact .inr (same ▸ valid)
      · exact .inr valid

theorem applyBatch_epoch {batch : EventBatch τ κ}
    (accepted : applyBatch checks state batch = .ok later) :
    later.providerEpoch.toNat =
      state.providerEpoch.toNat + if batch.events.any Event.reserves then 1 else 0 := by
  rcases applyBatch_eq_ok.mp accepted with ⟨event, single, applied, _⟩
  rw [single, List.any_cons, List.any_nil, Bool.or_false]
  rcases applyEvent_cases applied with ⟨_, _, _, _, _, rfl, _, _, epoch⟩ | stays
  · exact epoch
  · exact stays.epoch

theorem foldlM_epoch (accepted : batches.foldlM (applyBatch checks) state = .ok later) :
    state.providerEpoch ≤ later.providerEpoch := by
  induction batches generalizing state with
  | nil =>
      rw [List.foldlM_nil, pure_eq_ok] at accepted
      rw [accepted]
      exact UInt64.le_refl _
  | cons batch rest ih =>
      rw [List.foldlM_cons, bind_eq_ok] at accepted
      rcases accepted with ⟨middle, first, others⟩
      have more := ih others
      have step := applyBatch_epoch first
      rw [UInt64.le_iff_toNat_le] at more ⊢
      omega

end Runs

section Owners

variable {batches : List (EventBatch τ κ)} {branchId owner : String}

/-- The branch exists and is not held by the owner. -/
structure SessionState.Disowned (state : SessionState τ κ) (branchId owner : String) : Prop where
  present : state.contains branchId = true
  held : ∀ branch ∈ state.branches, branch.branchId = branchId → branch.owner ≠ owner

theorem contains_iff {branchId : String} :
    state.contains branchId = true ↔ ∃ branch ∈ state.branches, branch.branchId = branchId := by
  simp [SessionState.contains]

/-- Only a reclaim that names the owner gives the branch back to it. -/
theorem SessionState.Disowned.step {event : Event τ κ}
    (disowned : state.Disowned branchId owner) (applied : applyEvent checks state event = .ok later)
    (other : event.reclaims ≠ some (branchId, owner)) : later.Disowned branchId owner := by
  rcases applyEvent_cases applied with ⟨_, _, _, added, _, _, fresh, branches, _⟩ | stays
  · rcases contains_iff.mp disowned.present with ⟨branch, member, named⟩
    refine ⟨contains_iff.mpr ⟨branch, by simp [branches, member], named⟩, ?_⟩
    intro next member same
    rw [branches, List.mem_append, List.mem_singleton] at member
    rcases member with earlier | rfl
    · exact disowned.held next earlier same
    · rw [same, disowned.present] at fresh
      cases fresh
  · constructor
    · rcases contains_iff.mp disowned.present with ⟨branch, member, named⟩
      rcases List.getElem?_of_mem member with ⟨index, found⟩
      rcases forall₂_getElem? stays.touched found with ⟨next, present, touched⟩
      exact contains_iff.mpr ⟨next, List.mem_of_getElem? present,
        touched.continued.branchId.trans named⟩
    · intro next member same held
      rcases List.getElem?_of_mem member with ⟨index, found⟩
      rcases forall₂_getElem? stays.touched.flip found with ⟨branch, present, touched⟩
      have named : branch.branchId = branchId := touched.continued.branchId.symm.trans same
      rcases touched.owner with kept | reclaimed
      · exact disowned.held branch (List.mem_of_getElem? present) named (kept.symm.trans held)
      · rw [named, held] at reclaimed
        exact other reclaimed

theorem SessionState.Disowned.run (disowned : state.Disowned branchId owner)
    (accepted : batches.foldlM (applyBatch checks) state = .ok later)
    (other : ∀ batch ∈ batches, ∀ event ∈ batch.events,
      event.reclaims ≠ some (branchId, owner)) : later.Disowned branchId owner := by
  induction batches generalizing state with
  | nil =>
      rw [List.foldlM_nil, pure_eq_ok] at accepted
      exact accepted ▸ disowned
  | cons batch rest ih =>
      rw [List.foldlM_cons, bind_eq_ok] at accepted
      rcases accepted with ⟨middle, first, others⟩
      rcases applyBatch_eq_ok.mp first with ⟨event, single, applied, _⟩
      have next := disowned.step applied (other batch List.mem_cons_self event (by simp [single]))
      exact ih next others fun batch member => other batch (List.mem_cons_of_mem _ member)

/-- An event of an owner that does not hold the branch is refused. -/
theorem SessionState.Disowned.refuses (disowned : state.Disowned branchId owner)
    {event : Event τ κ} (acts : event.acting = some (branchId, owner)) :
    (applyEvent checks state event).isOk = false := by
  cases accepted : applyEvent checks state event with
  | error error => rfl
  | ok later =>
      exfalso
      rcases applyEvent_cases accepted with ⟨_, _, _, _, _, rfl, _⟩ | stays
      · cases acts
      · rcases stays.acting branchId owner acts with ⟨branch, present, held⟩
        have member := List.mem_of_find?_eq_some present
        exact disowned.held branch member (branchId_of_branch present) held

/-- A reclaim takes the branch from everybody but the new owner. -/
theorem disowned_of_reclaim {prompt newOwner : String} {reservedAt leaseExpiry : UInt64}
    (accepted : applyEvent checks state
      (.branchReclaimed branchId prompt newOwner reservedAt leaseExpiry) = .ok later)
    (unique : (later.branches.map BranchRecord.branchId).Nodup) (other : owner ≠ newOwner) :
    later.Disowned branchId owner := by
  simp only [applyEvent, reclaim, bind_eq_ok, okOr_eq_ok, reject_eq_ok, pure_eq_ok] at accepted
  rcases accepted with ⟨epoch, _, branch, present, _, _, rfl⟩
  rcases updateFirst_of_find? present with ⟨before, after, _, _, _, updated⟩
  have named := branchId_of_branch present
  simp only [SessionState.setBranch, updated] at unique ⊢
  constructor
  · rw [contains_iff]
    exact ⟨_, List.mem_append_right _ List.mem_cons_self, named⟩
  · intro next member same
    have only := List.inj_on_of_nodup_map unique member
      (List.mem_append_right _ List.mem_cons_self) (same.trans named.symm)
    rw [only]
    exact other.symm

end Owners

section Laws

/-- The state after a transaction: a refused one leaves it as it was. -/
def applied (checks : Checks τ κ) (state : SessionState τ κ) (batch : EventBatch τ κ) :
    SessionState τ κ :=
  match applyBatch checks state batch with
  | .ok later => later
  | .error _ => state

/-- The laws between a state of the log and the state that further accepted
transactions lead to. -/
structure Fenced (checks : Checks τ κ) (sessionId : String) (state : SessionState τ κ)
    (after : List (EventBatch τ κ)) (later : SessionState τ κ) : Prop where
  validated : later = .empty sessionId ∨ later.validate checks = .ok ()
  distinct : (later.branches.map BranchRecord.branchId).Nodup
  continued : ∀ (index : Nat) (branch : BranchRecord τ κ),
    state.branches[index]? = some branch →
    ∃ next, later.branches[index]? = some next ∧ branch.Continued next
  fenced : ∀ (before : SessionState τ κ) (txnId branchId prompt owner : String)
    (reservedAt leaseExpiry : UInt64),
    applyBatch checks before
      ⟨txnId, [.branchReclaimed branchId prompt owner reservedAt leaseExpiry]⟩ = .ok state →
    ∀ earlier, earlier ≠ owner →
    (∀ batch ∈ after, ∀ event ∈ batch.events, event.reclaims ≠ some (branchId, earlier)) →
    ∀ event : Event τ κ, event.acting = some (branchId, earlier) →
    ∀ txnId, (applyBatch checks later ⟨txnId, [event]⟩).isOk = false
  grows : state.providerEpoch ≤ later.providerEpoch
  epochs : ∀ record ∈ later.providerTurns, record.intent.epoch ≤ later.providerEpoch
  opens : ∀ batch next, applyBatch checks later batch = .ok next →
    batch.events.any Event.reserves = true → later.providerEpoch < next.providerEpoch
  refused : ∀ batch error, applyBatch checks later batch = .error error →
    applied checks later batch = later

variable {sessionId : String} {before after : List (EventBatch τ κ)}

theorem validated_empty : (SessionState.empty sessionId : SessionState τ κ).Validated where
  ids := .nil
  turns := ⟨.nil, fun _ member => absurd member List.not_mem_nil⟩
  epochs _ member := absurd member List.not_mem_nil
  branches _ member := absurd member List.not_mem_nil

theorem isOk_applyBatch_of_applyEvent {event : Event τ κ} {txnId : String}
    (refused : (applyEvent checks state event).isOk = false) :
    (applyBatch checks state ⟨txnId, [event]⟩).isOk = false := by
  cases outcome : applyEvent checks state event with
  | error error =>
      change (applyEvent checks state event >>= _).isOk = false
      rw [outcome]
      rfl
  | ok later =>
      rw [outcome] at refused
      cases refused

/-- Owner fencing and immutability of the history, over every accepted run. -/
theorem fenced_of_accepted (accepted : before.foldlM (applyBatch checks) (.empty sessionId) = .ok state)
    (continued : after.foldlM (applyBatch checks) state = .ok later) :
    Fenced checks sessionId state after later := by
  have whole : (before ++ after).foldlM (applyBatch checks) (.empty sessionId) = .ok later := by
    rw [List.foldlM_append, accepted]
    exact continued
  have validated : later = .empty sessionId ∨ later.validate checks = .ok () :=
    foldlM_validate whole
  have known : later.Validated := by
    rcases validated with rfl | valid
    · exact validated_empty
    · exact validated_of_validate valid
  refine
    { validated := validated
      distinct := known.ids
      continued := fun index branch present => foldlM_branch_getElem? continued present
      fenced := ?_
      grows := foldlM_epoch continued
      epochs := known.epochs
      opens := ?_
      refused := ?_ }
  · intro start txnId branchId prompt owner reservedAt leaseExpiry reclaimed earlier other after
      event acts txnId
    rcases applyBatch_eq_ok.mp reclaimed with ⟨_, same, stepped, valid⟩
    cases same
    have disowned := disowned_of_reclaim stepped (validated_of_validate valid).ids other
    exact isOk_applyBatch_of_applyEvent ((disowned.run continued after).refuses acts)
  · intro batch next accepted reserves
    have step := applyBatch_epoch accepted
    rw [reserves] at step
    rw [UInt64.lt_iff_toNat_lt]
    simp only [if_true] at step
    omega
  · intro batch error refused
    rw [applied, refused]

end Laws

section Samples

/-- A store without telemetry or continuations. -/
def sampleChecks : Checks Unit Unit where
  telemetryValid _ := true
  continuationValid _ := .ok ()
  continuationBytes _ := 2
  argsObject args := args = "\x7b\x7d"

/-- A branch reserved at the first second for ten. -/
def sampleBranch : BranchRecord Unit Unit where
  telemetry := none
  branchId := "b1"
  turn := 1
  attempt := 1
  parentBranch := none
  parentTurn := 0
  parentAttempt := 0
  prompt := "hello"
  digest := promptDigest "hello"
  lifecycle := .pending
  rounds := []
  streamRetries := []
  summary := ""
  error := ""
  owner := "first"
  reservedAt := 1
  leaseExpiry := 10

def sampleReserved : EventBatch Unit Unit :=
  ⟨"", [.branchReserved (some "/work") 1 1 sampleBranch 1]⟩

/-- A reclaim of the branch after its lease. -/
def sampleReclaimed (owner : String) (reservedAt : UInt64) : EventBatch Unit Unit :=
  ⟨"", [.branchReclaimed "b1" "hello" owner reservedAt (reservedAt + 10)]⟩

/-- The state after the batches, when all are accepted. -/
def sampleState (batches : List (EventBatch Unit Unit)) : SessionState Unit Unit :=
  match batches.foldlM (applyBatch sampleChecks) (.empty "session") with
  | .ok state => state
  | .error _ => .empty "session"

theorem fenced_after_reclaim :
    Fenced sampleChecks "session" (sampleState [sampleReserved, sampleReclaimed "second" 10]) []
      (sampleState [sampleReserved, sampleReclaimed "second" 10]) := by
  have accepted : [sampleReserved, sampleReclaimed "second" 10].foldlM (applyBatch sampleChecks)
      (.empty "session") = .ok (sampleState [sampleReserved, sampleReclaimed "second" 10]) := by
    decide +kernel
  exact fenced_of_accepted accepted rfl

/-- A branch that was reclaimed by a new owner is reclaimed by its first owner
again, whose events are accepted from then on. -/
theorem earlier_owner_accepted :
    let taken := sampleState [sampleReserved, sampleReclaimed "second" 10]
    let returned := sampleState
      [sampleReserved, sampleReclaimed "second" 10, sampleReclaimed "first" 20]
    (taken.branches.map BranchRecord.owner = ["second"]) ∧
      applyBatch sampleChecks taken (sampleReclaimed "first" 20) = .ok returned ∧
      (applyBatch sampleChecks returned ⟨"", [.leaseRenewed "b1" "first" 40]⟩).isOk = true := by
  decide +kernel

end Samples

end Llxprt.Log

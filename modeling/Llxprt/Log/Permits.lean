import Llxprt.Log.Fencing
import Llxprt.Log.Provider

/-!
# Send permits across owners

Processes share one log and hold permits outside its lock.  A permit is used up
by the attempt to send, the store checks the reservation it was made under once
more, and owner tokens never repeat.  So every intent is sent at most once, while
the lease of its owner is live, and nothing is sent or admitted for it after
another owner has reclaimed the branch.
-/

namespace Llxprt.Log

open Llxprt.Kernel Llxprt.Kernel.Recorded Llxprt.Rust Llxprt.Gateway

variable {τ κ : Type}

/-- What the log and the transport have seen, the newest first. -/
inductive Notice where
  | recorded (intent : SendIntent)
  | sent (intent : SendIntent) (branchId holder : String) (leaseExpiry now : UInt64)
  | replied (identity : String)
  | reclaimed (branchId owner : String)

/-- The shared log, the clock, the permits with the reservations they were made
under, the owner tokens that were drawn, and what has happened. -/
structure World (τ κ : Type) where
  state : SessionState τ κ
  now : UInt64
  permits : List (ReservedRequest κ × SendIntent)
  owners : List String
  history : List Notice

/-- One atomic operation of some process. -/
inductive Call (τ κ : Type) where
  | tick (now : UInt64)
  | start (request : StartRequest) (owner : String)
  | intent (reserved : ReservedRequest κ) (intent : SendIntent) (published : Bool)
  | send (index : Nat)
  | command (reserved : ReservedRequest κ) (command : Gateway.Command)
  | recover (reserved : ReservedRequest κ)
  | append (event : Event τ κ)

/-- The token that a request draws. -/
def Call.drawn : Call τ κ → Option String
  | .start _ owner => some owner
  | _ => none

/-- What an accepted command leaves in the history. -/
def commandNotices : Gateway.Command → List Notice
  | .intent intent => [.recorded intent]
  | .admitReply identity _ => [.replied identity]
  | _ => []

/-- The event neither changes hands nor touches provider turns. -/
def Event.isPlain : Event τ κ → Bool
  | .provider .. | .branchReserved .. | .branchReclaimed .. => false
  | _ => true

namespace World

def start (sessionId : String) : World τ κ where
  state := .empty sessionId
  now := 0
  permits := []
  owners := []
  history := []

variable [Recorded τ] [Recorded κ]

/-- The world after an operation.  The clock never goes backwards; an intent whose
index could not be published is recorded and gives no permit. -/
def step (checks : Checks τ κ) (sessionId : String) (world : World τ κ) :
    Call τ κ → World τ κ
  | .tick now => { world with now := max world.now now }
  | .start request owner =>
      match startRequest checks world.state request owner world.now with
      | .error _ => { world with owners := owner :: world.owners }
      | .ok (reserved, later) =>
          { world with
            state := later
            owners := owner :: world.owners
            history :=
              if world.state.contains reserved.branchId && !reserved.replay then
                .reclaimed reserved.branchId owner :: world.history
              else world.history }
  | .intent reserved intent published =>
      match providerIntent checks sessionId world.state reserved intent world.now with
      | .error _ => world
      | .ok (recorded, later) =>
          { world with
            state := later
            permits := if published then (reserved, recorded) :: world.permits else world.permits
            history := .recorded recorded :: world.history }
  | .send index =>
      match world.permits[index]? with
      | none => world
      | some (reserved, intent) =>
          let spent := { world with permits := world.permits.eraseIdx index }
          match liveBranch world.state reserved world.now,
              admitSend world.state reserved intent world.now with
          | .ok branch, .ok admitted =>
              { spent with
                history := .sent admitted branch.branchId branch.owner branch.leaseExpiry
                  world.now :: world.history }
          | _, _ => spent
  | .command reserved command =>
      match providerCommand checks world.state reserved command world.now with
      | .error _ => world
      | .ok later =>
          { world with state := later, history := commandNotices command ++ world.history }
  | .recover reserved =>
      { world with state := (recoverProviderTurns checks world.state reserved world.now).2 }
  | .append event =>
      if event.isPlain then
        match appendEvent checks world.state event with
        | .error _ => world
        | .ok later => { world with state := later }
      else world

/-- What an operation makes of a world, one case for each branch of a step. -/
inductive Steps (checks : Checks τ κ) (sessionId : String)
    (world : World τ κ) :
    Call τ κ → World τ κ → Prop
  | ticked (now : UInt64) : Steps checks sessionId world (.tick now)
      { world with now := max world.now now }
  | refused {call : Call τ κ} (undrawn : call.drawn = none) :
      Steps checks sessionId world call world
  | unstarted {request : StartRequest} {owner : String} :
      Steps checks sessionId world (.start request owner)
        { world with owners := owner :: world.owners }
  | started {request : StartRequest} {owner : String} {reserved : ReservedRequest κ}
      {later : SessionState τ κ}
      (started : startRequest checks world.state request owner world.now = .ok (reserved, later)) :
      Steps checks sessionId world (.start request owner)
        { world with
          state := later
          owners := owner :: world.owners
          history :=
            if world.state.contains reserved.branchId && !reserved.replay then
              .reclaimed reserved.branchId owner :: world.history
            else world.history }
  | recorded {reserved : ReservedRequest κ} {intent recorded : SendIntent}
      {published : Bool} {later : SessionState τ κ}
      (accepted : providerIntent checks sessionId world.state reserved intent world.now =
        .ok (recorded, later)) :
      Steps checks sessionId world (.intent reserved intent published)
        { world with
          state := later
          permits := if published then (reserved, recorded) :: world.permits else world.permits
          history := .recorded recorded :: world.history }
  | spent {index : Nat} {permit : ReservedRequest κ × SendIntent}
      (held : world.permits[index]? = some permit) :
      Steps checks sessionId world (.send index)
        { world with permits := world.permits.eraseIdx index }
  | sent {index : Nat} {reserved : ReservedRequest κ} {intent admitted : SendIntent}
      {branch : BranchRecord τ κ}
      (held : world.permits[index]? = some (reserved, intent))
      (live : liveBranch world.state reserved world.now = .ok branch)
      (sends : admitSend world.state reserved intent world.now = .ok admitted) :
      Steps checks sessionId world (.send index)
        { world with
          permits := world.permits.eraseIdx index
          history := .sent admitted branch.branchId branch.owner branch.leaseExpiry world.now ::
            world.history }
  | commanded {reserved : ReservedRequest κ} {command : Gateway.Command}
      {later : SessionState τ κ}
      (accepted : providerCommand checks world.state reserved command world.now = .ok later) :
      Steps checks sessionId world (.command reserved command)
        { world with state := later, history := commandNotices command ++ world.history }
  | recovered {reserved : ReservedRequest κ} :
      Steps checks sessionId world (.recover reserved)
        { world with
          state := (recoverProviderTurns checks world.state reserved world.now).2 }
  | appended {event : Event τ κ} {later : SessionState τ κ}
      (plain : event.isPlain) (appended : appendEvent checks world.state event = .ok later) :
      Steps checks sessionId world (.append event) { world with state := later }

theorem steps (checks : Checks τ κ) (sessionId : String) (world : World τ κ) (call : Call τ κ) :
    Steps checks sessionId world call (world.step checks sessionId call) := by
  cases call with
  | tick now => exact .ticked now
  | start request owner =>
      simp only [step]
      split
      · exact .unstarted
      · rename_i started
        exact .started started
  | intent reserved intent published =>
      simp only [step]
      split
      · exact .refused rfl
      · rename_i accepted
        exact .recorded accepted
  | send index =>
      simp only [step]
      split
      · exact .refused rfl
      · rename_i held
        split
        · rename_i live sends
          exact .sent held live sends
        · exact .spent held
  | command reserved command =>
      simp only [step]
      split
      · exact .refused rfl
      · rename_i accepted
        exact .commanded accepted
  | recover reserved => exact .recovered
  | append event =>
      simp only [step]
      split
      · rename_i plain
        split
        · exact .refused rfl
        · rename_i appended
          exact .appended plain appended
      · exact .refused rfl

end World

/-- Another owner has reclaimed the branch since the intent was recorded. -/
def Superseded (intent : SendIntent) (history : List Notice) : Prop :=
  ∃ newer older owner, history = newer ++ .reclaimed intent.branch owner :: older ∧
    owner ≠ intent.owner ∧ .recorded intent ∈ older

/-- What must hold of everything that happened before a notice. -/
def Notice.Fair (older : List Notice) : Notice → Prop
  | .sent intent branchId holder leaseExpiry now =>
      .recorded intent ∈ older ∧ branchId = intent.branch ∧ holder = intent.owner ∧
        now < leaseExpiry ∧
        (∀ other branchId holder leaseExpiry now,
          .sent other branchId holder leaseExpiry now ∈ older → other.identity ≠ intent.identity) ∧
        ¬ Superseded intent older
  | .replied identity =>
      ∀ intent, .recorded intent ∈ older → intent.identity = identity → ¬ Superseded intent older
  | .recorded _ | .reclaimed _ _ => True

/-- Every notice is fair to those before it. -/
def AllFair (history : List Notice) : Prop :=
  ∀ newer notice older, history = newer ++ notice :: older → notice.Fair older

section History

variable {intent : SendIntent} {history : List Notice} {notice : Notice}

theorem superseded_cons (superseded : Superseded intent (notice :: history)) :
    Superseded intent history ∨
      ∃ owner, notice = .reclaimed intent.branch owner ∧ owner ≠ intent.owner ∧
        .recorded intent ∈ history := by
  rcases superseded with ⟨newer, older, owner, split, other, recorded⟩
  cases newer with
  | nil =>
      rw [List.nil_append, List.cons.injEq] at split
      exact .inr ⟨owner, split.1, other, split.2 ▸ recorded⟩
  | cons head newer =>
      rw [List.cons_append, List.cons.injEq] at split
      exact .inl ⟨newer, older, owner, split.2, other, recorded⟩

theorem allFair_cons (fair : notice.Fair history) (before : AllFair history) :
    AllFair (notice :: history) := by
  intro newer other older split
  cases newer with
  | nil =>
      rw [List.nil_append, List.cons.injEq] at split
      rw [← split.1, ← split.2]
      exact fair
  | cons head newer =>
      rw [List.cons_append, List.cons.injEq] at split
      exact before newer other older split.2

end History

section Operations

variable {checks : Checks τ κ} {state later : SessionState τ κ}
  {reserved : ReservedRequest κ} {now : UInt64}

theorem liveBranch_eq_ok {branch : BranchRecord τ κ}
    (live : liveBranch state reserved now = .ok branch) :
    state.branch reserved.branchId = some branch ∧ branch.owner = reserved.owner ∧
      now < branch.leaseExpiry := by
  simp only [liveBranch, bind_eq_ok, okOr_eq_ok, reject_eq_ok, pure_eq_ok, not_or,
    Decidable.not_not, exists_const] at live
  rcases live with ⟨found, present, ⟨_, owner, _⟩, lease, rfl⟩
  exact ⟨present, owner, UInt64.not_le.mp lease⟩

/-- A provider event changes the turns alone, by a command that passes the fence. -/
theorem providerEvent_eq_ok {branchId owner : String} {command : Gateway.Command}
    (accepted : providerEvent state branchId owner command = .ok later) :
    providerFence state branchId owner command = .ok () ∧
      ∃ turns, Gateway.apply state.providerTurns command = .ok turns ∧
        later = { state with providerTurns := turns } := by
  simp only [providerEvent, bind_eq_ok, pure_eq_ok, mapError_eq_ok] at accepted
  rcases accepted with ⟨_, _, _, fence, turns, applied, rfl⟩
  exact ⟨fence, turns, applied, rfl⟩

variable [Recorded τ] [Recorded κ]

theorem appendEvent_eq_ok {event : Event τ κ}
    (accepted : appendEvent checks state event = .ok later) :
    applyEvent checks state event = .ok later ∧ later.validate checks = .ok () := by
  simp only [appendEvent, bind_eq_ok, pure_eq_ok] at accepted
  rcases accepted with ⟨_, _, candidate, applied, _, _, rfl⟩
  rcases applyBatch_eq_ok.mp applied with ⟨_, same, stepped, valid⟩
  cases same
  exact ⟨stepped, valid⟩

theorem appendCommand_eq_ok {command : Gateway.Command}
    (accepted : appendCommand checks state reserved command = .ok later) :
    applyEvent checks state (.provider reserved.branchId reserved.owner command) = .ok later ∧
      later.validate checks = .ok () := by
  simp only [appendCommand, bind_eq_ok] at accepted
  rcases accepted with ⟨_, _, appended⟩
  exact appendEvent_eq_ok appended

theorem pushNewBranch_eq_ok {stored : SessionState τ κ} {target : UInt32}
    {parent : Option String × UInt32 × UInt32} {prompt : String} {lease : RequestLease}
    {branch : BranchRecord τ κ}
    (pushed : pushNewBranch checks stored state target parent prompt lease = .ok (branch, later)) :
    ∃ cwd cwdDev cwdIno seq, appendEvent checks stored
      (.branchReserved cwd cwdDev cwdIno branch seq) = .ok later ∧ branch.owner = lease.owner := by
  simp only [pushNewBranch, bind_eq_ok, pure_eq_ok, Prod.mk.injEq] at pushed
  rcases pushed with ⟨seq, _, attempt, _, appended, reserved, rfl, rfl⟩
  exact ⟨_, _, _, seq, reserved, rfl⟩

/-- A request replays, reserves a new branch, or reclaims an old one. -/
theorem startRequest_cases {stored : SessionState τ κ} {request : StartRequest}
    {owner : String} (started : startRequest checks stored request owner now = .ok (reserved, later)) :
    (reserved.replay = true ∧ later = stored) ∨
    (∃ cwd cwdDev cwdIno branch seq, appendEvent checks stored
      (.branchReserved cwd cwdDev cwdIno branch seq) = .ok later ∧ branch.owner = owner ∧
      reserved.branchId = branch.branchId) ∨
    (∃ prompt reservedAt leaseExpiry, appendEvent checks stored
      (.branchReclaimed reserved.branchId prompt owner reservedAt leaseExpiry) = .ok later ∧
      reserved.replay = false) := by
  simp only [startRequest, bind_eq_ok] at started
  rcases started with ⟨state, _, current, _, target, _, decided⟩
  have fresh : ∀ {parent retry prior},
      (do
        let pair ← pushNewBranch checks stored state target parent request.prompt
          ⟨owner, now, extendLease now⟩
        pure (makeReservation state pair.1 target retry prior, pair.2)) = .ok (reserved, later) →
      ∃ cwd cwdDev cwdIno branch seq, appendEvent checks stored
        (.branchReserved cwd cwdDev cwdIno branch seq) = .ok later ∧ branch.owner = owner ∧
        reserved.branchId = branch.branchId := by
    intro parent retry prior pushed
    simp only [bind_eq_ok, pure_eq_ok, Prod.mk.injEq] at pushed
    rcases pushed with ⟨⟨branch, next⟩, pushed, rfl, rfl⟩
    rcases pushNewBranch_eq_ok pushed with ⟨cwd, cwdDev, cwdIno, seq, appended, held⟩
    exact ⟨cwd, cwdDev, cwdIno, branch, seq, appended, held, rfl⟩
  split at decided
  · rename_i index record _
    simp only [reserveExisting] at decided
    split at decided
    · left
      simp only [pure_eq_ok, Prod.mk.injEq] at decided
      rcases decided with ⟨rfl, rfl⟩
      exact ⟨rfl, rfl⟩
    · right; left
      exact fresh decided
    · right; right
      simp only [reclaimPending, bind_eq_ok, reject_eq_ok, pure_eq_ok, Prod.mk.injEq] at decided
      rcases decided with ⟨_, _, next, appended, rfl, rfl⟩
      exact ⟨_, _, _, appended, rfl⟩
  · right; left
    exact fresh decided

end Operations

section Backing

variable {checks : Checks τ κ} {state later : SessionState τ κ}
  {owners : List String} {history : List Notice} {event : Event τ κ}

/-- The intent is that of a recorded turn. -/
def SessionState.Records (state : SessionState τ κ) (intent : SendIntent) : Prop :=
  ∃ record ∈ state.providerTurns, record.intent = intent

/-- The log stands behind the history: recorded intents are in it with owners that
were drawn, and a superseded owner does not hold its branch. -/
structure Backed (state : SessionState τ κ) (owners : List String)
    (history : List Notice) : Prop where
  validated : state.Validated
  recorded : ∀ intent, .recorded intent ∈ history →
    intent.owner ∈ owners ∧ state.Records intent
  held : ∀ branch ∈ state.branches, branch.owner ∈ owners
  superseded : ∀ intent, Superseded intent history → state.Disowned intent.branch intent.owner

theorem applyEvent_turns (applied : applyEvent checks state event = .ok later)
    (plain : ∀ branchId owner command, event ≠ .provider branchId owner command) :
    later.providerTurns = state.providerTurns := by
  have setBranch : ∀ {branchId owner change},
      state.onPending branchId owner change = .ok later →
      later.providerTurns = state.providerTurns := by
    intro branchId owner change changed
    simp only [SessionState.onPending, bind_eq_ok, pure_eq_ok] at changed
    rcases changed with ⟨_, _, _, _, rfl⟩
    rfl
  cases event with
  | provider branchId owner command => exact absurd rfl (plain branchId owner command)
  | renderContract branchId owner publication =>
      simp only [applyEvent, publishRender, bind_eq_ok, pure_eq_ok] at applied
      rcases applied with ⟨_, _, rfl⟩
      split <;> rfl
  | telemetry branchId owner telemetry =>
      simp only [applyEvent, setTelemetry, bind_eq_ok, pure_eq_ok] at applied
      rcases applied with ⟨_, _, _, _, rfl⟩
      rfl
  | branchReserved cwd cwdDev cwdIno branch nextBranchSeq =>
      simp only [applyEvent, reserve, bind_eq_ok, pure_eq_ok] at applied
      rcases applied with ⟨_, _, _, _, _, _, pinned, pins, _, _, rfl⟩
      unfold pinCwd at pins
      split at pins
      · simp only [bind_eq_ok, pure_eq_ok] at pins
        rcases pins with ⟨_, _, rfl⟩
        rfl
      · simp only [bind_eq_ok, pure_eq_ok] at pins
        rcases pins with ⟨_, _, rfl⟩
        rfl
      · cases pins
  | branchReclaimed branchId prompt owner reservedAt leaseExpiry =>
      simp only [applyEvent, reclaim, bind_eq_ok, pure_eq_ok] at applied
      rcases applied with ⟨_, _, _, _, _, _, rfl⟩
      rfl
  | streamRetry branchId owner record => exact setBranch applied
  | leaseRenewed branchId owner leaseExpiry => exact setBranch applied
  | checkpoint branchId owner rounds leaseExpiry => exact setBranch applied
  | branchCompleted branchId owner rounds summary => exact setBranch applied
  | branchFailed branchId owner rounds error => exact setBranch applied

/-- A branch is reserved under a name that no branch has. -/
theorem contains_of_reserved {cwd : Option String} {cwdDev cwdIno seq : UInt64}
    {branch : BranchRecord τ κ}
    (applied : applyEvent checks state (.branchReserved cwd cwdDev cwdIno branch seq) = .ok later) :
    state.contains branch.branchId = false := by
  simp only [applyEvent, reserve, bind_eq_ok, reject_eq_ok, not_or, Bool.not_eq_true] at applied
  rcases applied with ⟨_, ⟨fresh, _⟩, _⟩
  exact fresh

/-- No event forgets an intent. -/
theorem SessionState.Records.step {intent : SendIntent} (records : state.Records intent)
    (validated : state.Validated) (applied : applyEvent checks state event = .ok later) :
    later.Records intent := by
  rcases records with ⟨record, member, same⟩
  by_cases provider : ∃ branchId owner command, event = .provider branchId owner command
  · rcases provider with ⟨branchId, owner, command, rfl⟩
    rcases providerEvent_eq_ok applied with ⟨_, turns, accepted, rfl⟩
    rcases List.getElem?_of_mem member with ⟨index, present⟩
    rcases apply_getElem? accepted validated.turns present with ⟨next, found, grown, _⟩
    exact ⟨next, List.mem_of_getElem? found, grown.intent.trans same⟩
  · have kept := applyEvent_turns applied (by simpa using provider)
    exact ⟨record, kept ▸ member, same⟩

/-- The owner of a branch after an event was there before or is named by it. -/
theorem owner_of_applyEvent (applied : applyEvent checks state event = .ok later)
    {branch : BranchRecord τ κ} (member : branch ∈ later.branches) :
    (∃ earlier ∈ state.branches, earlier.owner = branch.owner) ∨
      (∃ cwd cwdDev cwdIno seq, event = .branchReserved cwd cwdDev cwdIno branch seq) ∨
      ∃ branchId, event.reclaims = some (branchId, branch.owner) := by
  rcases applyEvent_cases applied with ⟨cwd, cwdDev, cwdIno, added, seq, same, _, branches, _⟩ | stays
  · rw [branches, List.mem_append, List.mem_singleton] at member
    rcases member with earlier | rfl
    · exact .inl ⟨branch, earlier, rfl⟩
    · exact .inr (.inl ⟨cwd, cwdDev, cwdIno, seq, same⟩)
  · rcases List.getElem?_of_mem member with ⟨index, found⟩
    rcases forall₂_getElem? stays.touched.flip found with ⟨earlier, present, touched⟩
    rcases touched.owner with kept | reclaimed
    · exact .inl ⟨earlier, List.mem_of_getElem? present, kept.symm⟩
    · exact .inr (.inr ⟨_, reclaimed⟩)

/-- An event keeps the backing of the history when the owners it brings are new. -/
theorem Backed.step (backed : Backed state owners history) {drawn : List String}
    (applied : applyEvent checks state event = .ok later) (valid : later.validate checks = .ok ())
    (grown : ∀ owner ∈ owners, owner ∈ drawn) (reserves : ∀ cwd cwdDev cwdIno branch seq,
      event = .branchReserved cwd cwdDev cwdIno branch seq → branch.owner ∈ drawn)
    (reclaims : ∀ branchId owner, event.reclaims = some (branchId, owner) →
      owner ∈ drawn ∧ owner ∉ owners) : Backed later drawn history where
  validated := validated_of_validate valid
  recorded intent recorded := by
    rcases backed.recorded intent recorded with ⟨owner, records⟩
    exact ⟨grown _ owner, records.step backed.validated applied⟩
  held branch member := by
    rcases owner_of_applyEvent applied member with ⟨earlier, present, same⟩ |
      ⟨cwd, cwdDev, cwdIno, seq, same⟩ | ⟨branchId, reclaimed⟩
    · exact grown _ (same ▸ backed.held earlier present)
    · exact reserves cwd cwdDev cwdIno branch seq same
    · exact (reclaims branchId branch.owner reclaimed).1
  superseded intent superseded := by
    apply (backed.superseded intent superseded).step applied
    intro reclaimed
    rcases superseded with ⟨newer, older, owner, rfl, _, recorded⟩
    have drawnBefore := (backed.recorded intent (by simp [recorded])).1
    exact (reclaims intent.branch intent.owner reclaimed).2 drawnBefore

/-- An event that brings no owner. -/
theorem Backed.step_plain (backed : Backed state owners history)
    (applied : applyEvent checks state event = .ok later) (valid : later.validate checks = .ok ())
    (plain : event.reserves = false) : Backed later owners history := by
  refine backed.step applied valid (fun _ member => member) ?_ ?_
  · rintro cwd cwdDev cwdIno branch seq rfl
    cases plain
  · intro branchId owner reclaimed
    cases event with
    | branchReclaimed branchId prompt owner reservedAt leaseExpiry => cases plain
    | _ => cases reclaimed

/-- A notice that neither records nor reclaims needs no backing. -/
theorem Backed.notice (backed : Backed state owners history) {notice : Notice}
    (records : ∀ intent, notice = .recorded intent → intent.owner ∈ owners ∧ state.Records intent)
    (reclaims : ∀ branchId owner, notice = .reclaimed branchId owner → ∀ intent,
      intent.branch = branchId → owner ≠ intent.owner → .recorded intent ∈ history →
      state.Disowned intent.branch intent.owner) : Backed state owners (notice :: history) where
  validated := backed.validated
  recorded intent member := by
    rcases List.mem_cons.mp member with same | earlier
    · exact records intent same.symm
    · exact backed.recorded intent earlier
  held := backed.held
  superseded intent superseded := by
    rcases superseded_cons superseded with earlier | ⟨owner, same, other, recorded⟩
    · exact backed.superseded intent earlier
    · exact reclaims _ owner same intent rfl other recorded

end Backing

section Worlds

variable {checks : Checks τ κ} {sessionId : String} {world : World τ κ}

/-- Every permit is for one recorded intent of its reservation that was not sent. -/
structure World.Sound (world : World τ κ) : Prop where
  backed : Backed world.state world.owners world.history
  permits : ∀ permit ∈ world.permits, permit.2.owner = permit.1.owner ∧
    permit.2.branch = permit.1.branchId ∧ .recorded permit.2 ∈ world.history
  distinct : (world.permits.map fun permit => permit.2.identity).Nodup
  unsent : ∀ permit ∈ world.permits, ∀ other branchId holder leaseExpiry now,
    .sent other branchId holder leaseExpiry now ∈ world.history →
      other.identity ≠ permit.2.identity
  fair : AllFair world.history

theorem recorded_of_sent {history : List Notice} (fair : AllFair history) {intent : SendIntent}
    {branchId holder : String} {leaseExpiry now : UInt64}
    (member : .sent intent branchId holder leaseExpiry now ∈ history) :
    .recorded intent ∈ history := by
  rcases List.append_of_mem member with ⟨newer, older, split⟩
  have fair := fair newer _ older split
  rw [split]
  exact List.mem_append_right _ (List.mem_cons_of_mem _ fair.1)

/-- The world changes in nothing that the permits and the history rest on. -/
theorem World.Sound.of_state (sound : world.Sound) {state : SessionState τ κ} {owners : List String}
    (backed : Backed state owners world.history) :
    ({ world with state := state, owners := owners } : World τ κ).Sound where
  backed := backed
  permits := sound.permits
  distinct := sound.distinct
  unsent := sound.unsent
  fair := sound.fair

/-- A notice that sends nothing joins the history. -/
theorem World.Sound.notice (sound : world.Sound) {notice : Notice}
    {state : SessionState τ κ} {owners : List String}
    (backed : Backed state owners (notice :: world.history)) (fair : notice.Fair world.history)
    (silent : ∀ intent branchId holder leaseExpiry now,
      notice ≠ .sent intent branchId holder leaseExpiry now) :
    ({ world with state := state, owners := owners, history := notice :: world.history } :
      World τ κ).Sound where
  backed := backed
  permits permit member := by
    rcases sound.permits permit member with ⟨owner, branch, recorded⟩
    exact ⟨owner, branch, List.mem_cons_of_mem _ recorded⟩
  distinct := sound.distinct
  unsent permit member other branchId holder leaseExpiry now sent := by
    rcases List.mem_cons.mp sent with same | earlier
    · exact absurd same.symm (silent _ _ _ _ _)
    · exact sound.unsent permit member other branchId holder leaseExpiry now earlier
  fair := allFair_cons fair sound.fair

/-- Nobody superseded can pass the check of a live branch. -/
theorem not_superseded_of_live {reserved : ReservedRequest κ} {now : UInt64}
    {state : SessionState τ κ} {owners : List String} {history : List Notice}
    {branch : BranchRecord τ κ} {intent : SendIntent}
    (backed : Backed state owners history) (live : liveBranch state reserved now = .ok branch)
    (owner : intent.owner = reserved.owner) (named : intent.branch = reserved.branchId) :
    ¬ Superseded intent history := by
  intro superseded
  rcases liveBranch_eq_ok live with ⟨present, held, _⟩
  have disowned := backed.superseded intent superseded
  have member := List.mem_of_find?_eq_some present
  apply disowned.held branch member
  · rw [named]
    exact branchId_of_branch present
  · rw [held, owner]

/-- The key of an element that was taken out does not occur again. -/
theorem ne_of_mem_eraseIdx {α β : Type} {key : α → β} {items : List α} {index : Nat} {taken other : α}
    (distinct : (items.map key).Nodup) (found : items[index]? = some taken)
    (member : other ∈ items.eraseIdx index) : key other ≠ key taken := by
  intro same
  rcases List.mem_eraseIdx_iff_getElem?.mp member with ⟨place, apart, present⟩
  have inside : place < (items.map key).length := by
    rw [List.length_map]
    exact (List.getElem?_eq_some_iff.mp present).1
  apply apart
  apply (List.getElem?_inj inside distinct).mp
  rw [List.getElem?_map, List.getElem?_map, present, found, Option.map_some, Option.map_some, same]

theorem World.Sound.send (sound : world.Sound) [Recorded τ] [Recorded κ]
    (index : Nat) : (world.step checks sessionId (.send index)).Sound := by
  have kept : ∀ permit ∈ world.permits.eraseIdx index, permit ∈ world.permits :=
    fun permit => List.mem_of_mem_eraseIdx
  have spent : ({ world with permits := world.permits.eraseIdx index } :
      World τ κ).Sound :=
    { sound with
      permits := fun permit inside => sound.permits permit (kept permit inside)
      distinct := sound.distinct.sublist ((List.eraseIdx_sublist _ _).map _)
      unsent := fun permit inside => sound.unsent permit (kept permit inside) }
  have step := World.steps checks sessionId world (.send index)
  generalize world.step checks sessionId (.send index) = next at step
  cases step with
  | refused => exact sound
  | spent held => exact spent
  | sent held live sends =>
      rename_i reserved intent admitted branch
      have member := List.mem_of_getElem? held
      rcases sound.permits _ member with ⟨owner, named, recorded⟩
      have same : intent = admitted := by
        simp only [admitSend, bind_eq_ok, pure_eq_ok] at sends
        rcases sends with ⟨_, _, _, _, same⟩
        exact same
      subst same
      rcases liveBranch_eq_ok live with ⟨present, holder, lease⟩
      have fair : (Notice.sent intent branch.branchId branch.owner branch.leaseExpiry
          world.now).Fair world.history :=
        ⟨recorded, (branchId_of_branch present).trans named.symm, holder.trans owner.symm, lease,
          fun other branchId holder leaseExpiry now sent =>
            sound.unsent _ member other branchId holder leaseExpiry now sent,
          not_superseded_of_live sound.backed live owner named⟩
      constructor
      · exact sound.backed.notice (fun _ same => by cases same) (fun _ _ same => by cases same)
      · intro permit inside
        rcases spent.permits permit inside with ⟨owner, branch, recorded⟩
        exact ⟨owner, branch, List.mem_cons_of_mem _ recorded⟩
      · exact spent.distinct
      · intro permit inside other branchId holder leaseExpiry now sent
        rcases List.mem_cons.mp sent with same | earlier
        · cases same
          exact (ne_of_mem_eraseIdx sound.distinct held inside).symm
        · exact spent.unsent permit inside other branchId holder leaseExpiry now earlier
      · exact allFair_cons fair sound.fair

/-- A provider event that is accepted for a live reservation. -/
theorem backed_of_appendCommand [Recorded τ] [Recorded κ]
    {reserved : ReservedRequest κ} {command : Gateway.Command}
    {state later : SessionState τ κ} {owners : List String}
    {history : List Notice} (backed : Backed state owners history)
    (appended : appendCommand checks state reserved command = .ok later) :
    Backed later owners history := by
  rcases appendCommand_eq_ok appended with ⟨applied, valid⟩
  exact backed.step_plain applied valid rfl

theorem recorded_of_appendCommand [Recorded τ] [Recorded κ]
    {reserved : ReservedRequest κ} {intent : SendIntent} {state later : SessionState τ κ}
    (appended : appendCommand checks state reserved (.intent intent) = .ok later) :
    intent.branch = reserved.branchId ∧ intent.owner = reserved.owner ∧ later.Records intent ∧
      ∀ earlier, state.Records earlier → earlier.identity ≠ intent.identity := by
  rcases appendCommand_eq_ok appended with ⟨applied, _⟩
  rcases providerEvent_eq_ok applied with ⟨fence, turns, accepted, rfl⟩
  simp only [providerFence, reject_eq_ok, not_or, Decidable.not_not] at fence
  rcases insert_eq_ok.mp accepted with ⟨_, unused, rfl⟩
  constructor
  · exact fence.1
  constructor
  · exact fence.2.1
  constructor
  · exact ⟨.fresh intent, List.mem_append_right _ List.mem_cons_self, rfl⟩
  · rintro earlier ⟨record, member, rfl⟩
    exact unused record member

theorem owner_of_live {reserved : ReservedRequest κ} {now : UInt64}
    {state : SessionState τ κ} {owners : List String} {history : List Notice}
    {branch : BranchRecord τ κ} (backed : Backed state owners history)
    (live : liveBranch state reserved now = .ok branch) : reserved.owner ∈ owners := by
  rcases liveBranch_eq_ok live with ⟨present, held, _⟩
  rw [← held]
  exact backed.held branch (List.mem_of_find?_eq_some present)

variable [Recorded τ] [Recorded κ]

/-- An intent joins the log and the history, with or without a permit. -/
theorem World.Sound.record (sound : world.Sound) {reserved : ReservedRequest κ}
    {intent : SendIntent} {state : SessionState τ κ} {now : UInt64} {branch : BranchRecord τ κ}
    (live : liveBranch world.state reserved now = .ok branch)
    (appended : appendCommand checks world.state reserved (.intent intent) = .ok state) :
    ({ world with state := state, history := .recorded intent :: world.history } :
      World τ κ).Sound := by
  rcases recorded_of_appendCommand appended with ⟨_, owner, records, _⟩
  have fair : (Notice.recorded intent).Fair world.history := trivial
  apply sound.notice _ fair (fun _ _ _ _ _ same => by cases same)
  apply (backed_of_appendCommand sound.backed appended).notice
  · intro recorded same
    cases same
    exact ⟨owner ▸ owner_of_live sound.backed live, records⟩
  · intro _ _ same
    cases same

theorem World.Sound.intent (sound : world.Sound) (reserved : ReservedRequest κ)
    (intent : SendIntent) (published : Bool) :
    (world.step checks sessionId (.intent reserved intent published)).Sound := by
  have step := World.steps checks sessionId world (.intent reserved intent published)
  generalize world.step checks sessionId (.intent reserved intent published) = next at step
  cases step with
  | refused => exact sound
  | recorded accepted =>
    simp only [providerIntent, bind_eq_ok, pure_eq_ok, Prod.mk.injEq] at accepted
    rcases accepted with ⟨branch, live, next, appended, rfl, rfl⟩
    have plain := sound.record live appended
    rcases recorded_of_appendCommand appended with ⟨named, owner, _, unused⟩
    cases published with
    | false => exact plain
    | true =>
        constructor
        · exact plain.backed
        · intro permit member
          rcases List.mem_cons.mp member with rfl | earlier
          · exact ⟨owner, named, List.mem_cons_self⟩
          · exact plain.permits permit earlier
        · rw [if_pos rfl, List.map_cons, List.nodup_cons, List.mem_map]
          constructor
          · rintro ⟨permit, member, same⟩
            have recorded := (sound.permits permit member).2.2
            exact unused _ (sound.backed.recorded _ recorded).2 same
          · exact plain.distinct
        · intro permit member other branchId holder leaseExpiry now sent
          rcases List.mem_cons.mp member with rfl | earlier
          · rcases List.mem_cons.mp sent with same | before
            · cases same
            · have recorded := recorded_of_sent sound.fair before
              exact unused _ (sound.backed.recorded _ recorded).2
          · exact plain.unsent permit earlier other branchId holder leaseExpiry now sent
        · exact plain.fair

/-- A reply is admitted for the owner of its intent alone. -/
theorem World.Sound.command (sound : world.Sound) (reserved : ReservedRequest κ)
    (command : Gateway.Command) :
    (world.step checks sessionId (.command reserved command)).Sound := by
  have step := World.steps checks sessionId world (.command reserved command)
  generalize world.step checks sessionId (.command reserved command) = next at step
  cases step with
  | refused => exact sound
  | commanded accepted =>
    simp only [providerCommand, bind_eq_ok] at accepted
    rcases accepted with ⟨branch, live, appended⟩
    have backed := backed_of_appendCommand sound.backed appended
    cases command with
    | intent intent => exact sound.record live appended
    | admitReply identity executions =>
        have fair : (Notice.replied identity).Fair world.history := by
          intro intent recorded same
          rcases (sound.backed.recorded intent recorded).2 with ⟨record, member, rfl⟩
          rcases appendCommand_eq_ok appended with ⟨applied, _⟩
          rcases providerEvent_eq_ok applied with ⟨fence, _, _, _⟩
          simp only [providerFence, reject_eq_ok, Decidable.not_not, List.any_eq_true,
            Bool.and_eq_true, decide_eq_true_eq] at fence
          rcases fence with ⟨found, inside, ⟨called, named⟩, owner⟩
          have one : record = found := List.inj_on_of_nodup_map
            sound.backed.validated.turns.unique member inside (same.trans called.symm)
          rw [one]
          exact not_superseded_of_live sound.backed live owner named
        apply sound.notice _ fair (fun _ _ _ _ _ same => by cases same)
        exact backed.notice (fun _ same => by cases same) (fun _ _ same => by cases same)
    | stage identity bytes => exact sound.of_state backed
    | reject identity => exact sound.of_state backed
    | complete identity call ok result => exact sound.of_state backed
    | recover branch => exact sound.of_state backed

theorem World.Sound.recover (sound : world.Sound) (reserved : ReservedRequest κ) :
    (world.step checks sessionId (.recover reserved)).Sound := by
  simp only [World.step, recoverProviderTurns]
  split
  · exact sound
  · split
    · exact sound
    · split
      · exact sound
      · rename_i later appended
        rcases appendEvent_eq_ok appended with ⟨applied, valid⟩
        have backed := sound.backed.step_plain applied valid rfl
        split
        · exact sound.of_state backed
        · exact sound.of_state backed

theorem World.Sound.append (sound : world.Sound) (event : Event τ κ) :
    (world.step checks sessionId (.append event)).Sound := by
  have step := World.steps checks sessionId world (.append event)
  generalize world.step checks sessionId (.append event) = next at step
  cases step with
  | refused => exact sound
  | appended plain appended =>
      rcases appendEvent_eq_ok appended with ⟨applied, valid⟩
      apply sound.of_state
      apply sound.backed.step_plain applied valid
      cases event with
      | branchReserved cwd cwdDev cwdIno branch seq => cases plain
      | branchReclaimed branchId prompt owner reservedAt leaseExpiry => cases plain
      | _ => rfl

/-- A request draws a token that nobody holds. -/
theorem World.Sound.start (sound : world.Sound) (request : StartRequest) {owner : String}
    (unused : owner ∉ world.owners) :
    (world.step checks sessionId (.start request owner)).Sound := by
  have drawn : Backed world.state (owner :: world.owners) world.history :=
    { sound.backed with
      recorded := fun intent recorded =>
        ⟨List.mem_cons_of_mem _ (sound.backed.recorded intent recorded).1,
          (sound.backed.recorded intent recorded).2⟩
      held := fun branch member => List.mem_cons_of_mem _ (sound.backed.held branch member) }
  have step := World.steps checks sessionId world (.start request owner)
  generalize world.step checks sessionId (.start request owner) = next at step
  cases step with
  | refused undrawn => cases undrawn
  | unstarted => exact sound.of_state drawn
  | started started =>
    rename_i reserved later
    rcases startRequest_cases started with ⟨replay, rfl⟩ |
      ⟨cwd, cwdDev, cwdIno, branch, seq, appended, held, named⟩ |
      ⟨prompt, reservedAt, leaseExpiry, appended, replay⟩
    · rw [replay, Bool.not_true, Bool.and_false, if_neg Bool.false_ne_true]
      exact sound.of_state drawn
    · rcases appendEvent_eq_ok appended with ⟨applied, valid⟩
      have fresh : world.state.contains reserved.branchId = false := by
        rw [named]
        exact contains_of_reserved applied
      rw [fresh, Bool.false_and, if_neg Bool.false_ne_true]
      apply sound.of_state
      apply sound.backed.step applied valid (fun _ member => List.mem_cons_of_mem _ member)
      · intro _ _ _ _ _ same
        cases same
        exact held ▸ List.mem_cons_self
      · intro _ _ same
        cases same
    · rcases appendEvent_eq_ok appended with ⟨applied, valid⟩
      have backed : Backed later (owner :: world.owners) world.history := by
        apply sound.backed.step applied valid (fun _ member => List.mem_cons_of_mem _ member)
        · intro _ _ _ _ _ same
          cases same
        · intro _ _ same
          cases same
          exact ⟨List.mem_cons_self, unused⟩
      split
      · have fair : (Notice.reclaimed reserved.branchId owner).Fair world.history := trivial
        apply sound.notice _ fair (fun _ _ _ _ _ same => by cases same)
        apply backed.notice
        · intro _ same
          cases same
        · intro branchId taken same intent named other _
          cases same
          rw [named]
          exact disowned_of_reclaim applied backed.validated.ids other.symm
      · exact sound.of_state backed

theorem World.Sound.step (sound : world.Sound) (call : Call τ κ)
    (unused : ∀ owner, call.drawn = some owner → owner ∉ world.owners) :
    (world.step checks sessionId call).Sound := by
  cases call with
  | tick now =>
      constructor
      · exact sound.backed
      · exact sound.permits
      · exact sound.distinct
      · exact sound.unsent
      · exact sound.fair
  | start request owner => exact sound.start request (unused owner rfl)
  | intent reserved intent published => exact sound.intent reserved intent published
  | send index => exact sound.send index
  | command reserved command => exact sound.command reserved command
  | recover reserved => exact sound.recover reserved
  | append event => exact sound.append event

omit [Recorded τ] [Recorded κ] in
theorem World.sound_start : (World.start sessionId : World τ κ).Sound where
  backed :=
    { validated := validated_empty
      recorded := fun _ member => absurd member List.not_mem_nil
      held := fun _ member => absurd member List.not_mem_nil
      superseded := by
        rintro intent ⟨newer, older, owner, split, _⟩
        simp [World.start] at split }
  permits _ member := absurd member List.not_mem_nil
  distinct := .nil
  unsent _ member := absurd member List.not_mem_nil
  fair newer notice older split := by
    simp [World.start] at split

/-- The owners of a world are the tokens that were drawn. -/
theorem owners_step (call : Call τ κ) :
    (world.step checks sessionId call).owners = call.drawn.toList ++ world.owners := by
  have step := World.steps checks sessionId world call
  generalize world.step checks sessionId call = next at step
  cases step with
  | refused undrawn => rw [undrawn, Option.toList_none, List.nil_append]
  | _ => rfl

theorem owners_run (calls : List (Call τ κ)) :
    (run (World.step checks sessionId) (World.start sessionId) calls).owners =
      (calls.filterMap Call.drawn).reverse := by
  induction calls using List.reverseRecOn with
  | nil => rfl
  | append_singleton before call ih =>
      rw [run_concat, owners_step, ih, List.filterMap_append, List.reverse_append]
      cases drawn : call.drawn <;> simp [drawn]

/-- Over every order of the operations of every process, with owner tokens that
are not drawn twice: each intent is sent at most once, under the live lease of its
owner, and neither a send nor a reply to it is admitted after another owner has
reclaimed its branch. -/
theorem allFair_of_run (checks : Checks τ κ) (sessionId : String)
    (calls : List (Call τ κ)) (distinct : (calls.filterMap Call.drawn).Nodup) :
    AllFair (run (World.step checks sessionId) (World.start sessionId) calls).history := by
  have sound : (run (World.step checks sessionId) (World.start sessionId) calls).Sound := by
    apply run_invariant World.Sound World.sound_start _ calls List.prefix_rfl
    rintro before call ⟨rest, split⟩ sound
    apply sound.step
    intro owner drawn member
    rw [owners_run, List.mem_reverse] at member
    rw [← split, List.filterMap_append, List.filterMap_append, List.nodup_append] at distinct
    have apart := (List.nodup_append.mp distinct.1).2.2 owner member owner
    simp [drawn] at apart
  exact sound.fair

end Worlds

section Samples

def sampleRequest : StartRequest where
  sessionId := "session"
  requestedTurn := none
  branch := none
  prompt := "hello"
  cwd := "/work"
  identity := (1, 1)

def sampleReservation (owner : String) : ReservedRequest Unit where
  branchId := "b1"
  turn := 1
  attempt := 1
  replay := false
  retry := false
  rounds := []
  summary := ""
  prompt := "hello"
  history := []
  owner := owner

/-- The first owner records two intents and sends one; after its lease a second
owner reclaims the branch, and neither permit nor reply of the first passes. -/
def sampleCalls : List (Call Unit Unit) :=
  [.tick 1,
    .start sampleRequest "first",
    .intent (sampleReservation "first") (sampleIntent "") true,
    .intent (sampleReservation "first") (sampleIntent "") true,
    .send 0,
    .tick 4000,
    .start sampleRequest "second",
    .send 0,
    .command (sampleReservation "first") (.stage "session:2" [1]),
    .recover (sampleReservation "second")]

theorem allFair_sampleCalls :
    sampleCalls.filterMap Call.drawn = ["first", "second"] ∧
      AllFair (run (World.step sampleChecks "session") (World.start "session")
        sampleCalls).history := by
  constructor
  · rfl
  · exact allFair_of_run sampleChecks "session" sampleCalls (by decide)

end Samples

end Llxprt.Log

import Llxprt.Log.Frames
import Llxprt.Log.Replay

/-!
# Reservations

A request continues the selected lineage, retries a failed branch, reclaims a
pending one whose lease has passed, or replays a completed one.  All decisions
are made on the state that the lock protects, and at most one event is appended.
-/

namespace Llxprt.Log

open Llxprt.Kernel Llxprt.Kernel.Recorded Llxprt.Rust

def timeoutLeaseSeconds : Nat := 3600

variable {τ κ : Type}

structure HistoryTurn (κ : Type) where
  turn : UInt32
  attempt : UInt32
  branchId : String
  prompt : String
  rounds : List (RoundRecord κ)
  summary : String

structure ReservedRequest (κ : Type) where
  branchId : String
  turn : UInt32
  attempt : UInt32
  replay : Bool
  retry : Bool
  rounds : List (RoundRecord κ)
  summary : String
  prompt : String
  history : List (HistoryTurn κ)
  owner : String

structure RequestLease where
  owner : String
  now : UInt64
  leaseEnd : UInt64

/-- `u64::saturating_add`. -/
def extendLease (now : UInt64) : UInt64 :=
  UInt64.ofNat (saturatingAdd now.toNat timeoutLeaseSeconds)

section Appending

variable [Recorded τ] [Recorded κ] (checks : Checks τ κ)

/-- The state behind the log after an event was appended to it. -/
def appendEvent (state : SessionState τ κ) (event : Event τ κ) :
    Except StoreError (SessionState τ κ) := do
  let batch := batchOf [event]
  reject (maxFramePayload < (serialize batch).length)
    (.invalid "session transaction exceeds the frame byte cap")
  let candidate ← applyBatch checks state batch
  checkLogicalWrite checks candidate
  pure candidate

end Appending

section Lineages

variable (branches : List (BranchRecord τ κ))

def turnAt (index : Nat) : UInt32 :=
  (branches[index]?.map BranchRecord.turn).getD 0

/-- `iter().rposition(..)`. -/
def rposition {α : Type} (test : α → Bool) (items : List α) : Option Nat :=
  (items.zipIdx.filter fun item => test item.1).getLast?.map Prod.snd

/-- Follow the parents for at most as many steps as there are branches. -/
def ancestors : Nat → Nat → List Nat
  | 0, _ => []
  | steps + 1, current =>
      match branches[current]?.bind BranchRecord.parentBranch with
      | none => []
      | some parent =>
          match branches.findIdx? fun branch => branch.branchId = parent with
          | none => []
          | some next => next :: ancestors steps next

/-- The ancestors of a branch, the root first, down to the branch. -/
def lineage (start : Nat) : List Nat :=
  (start :: ancestors branches branches.length start).reverse

/-- `dedup_by_key` behind an element that is kept. -/
def dedupFrom {α β : Type} [DecidableEq β] (key : α → β) (last : α) : List α → List α
  | [] => []
  | item :: rest =>
      if key item = key last then dedupFrom key last rest else item :: dedupFrom key item rest

/-- The last branch of every turn on a chain, in the order of the turns. -/
def collapsePerTurn (chain : List Nat) : List Nat :=
  let byTurn := (chain.map fun index => (turnAt branches index, index)).mergeSort fun left right =>
    left.1 < right.1 || (left.1 = right.1 && left.2 ≤ right.2)
  let newest := match byTurn.reverse with
    | [] => []
    | first :: rest => first :: dedupFrom Prod.fst first rest
  (newest.reverse.map Prod.snd).mergeSort fun left right =>
    turnAt branches left ≤ turnAt branches right

def predecessorAt (chain : List Nat) (target : UInt32) : Option Nat :=
  if target = 0 then none else chain.find? fun index => turnAt branches index = target - 1

/-- The lineage that a new branch at the turn gets from its predecessor. -/
def predecessorParent (chain : List Nat) (target : UInt32) : Option String × UInt32 × UInt32 :=
  match (predecessorAt branches chain target).bind fun index => branches[index]? with
  | some parent => (some parent.branchId, parent.turn, parent.attempt)
  | none => (none, 0, 0)

end Lineages

section Requests

variable (state : SessionState τ κ)

def selectCurrent (branch : Option String) : Except StoreError (Option Nat) :=
  match branch with
  | some name => do
      let index ← okOr (state.branches.findIdx? fun branch => branch.branchId = name)
        (.invalid ("unknown branch " ++ name))
      reject ((state.branches[index]?.map BranchRecord.lifecycle) ≠ some .completed)
        (.invalid ("selected branch " ++ name ++ " is not completed"))
      pure (some index)
  | none => pure (rposition (fun branch => branch.lifecycle = .completed) state.branches)

def validateRequestedTurn (current : Option Nat) (requested : UInt32) : Except StoreError Unit := do
  reject (requested = 0) (.invalid "turn numbers are 1-based")
  match current with
  | none => pure ()
  | some index => do
      let latest := turnAt state.branches index
      reject (latest.toNat + 1 = UInt32.size) (.invalid "turn overflow")
      reject (latest + 1 < requested) (.invalid ("requested turn " ++ toString requested.toNat ++
        " is beyond the selected lineage's latest turn " ++ toString latest.toNat ++ " + 1"))

def requestTarget (current : Option Nat) (requested : Option UInt32) : Except StoreError UInt32 :=
  match requested with
  | some turn => do
      validateRequestedTurn state current turn
      pure turn
  | none =>
      match current with
      | none => pure 1
      | some index => do
          reject ((turnAt state.branches index).toNat + 1 = UInt32.size) (.invalid "turn overflow")
          pure (turnAt state.branches index + 1)

/-- The branch at the turn with the same prompt that continues the selected
lineage. -/
def findExisting (current : Option Nat) (target : UInt32) (prompt : String) : Option Nat :=
  match current with
  | none => rposition (fun branch => branch.turn = target && branch.prompt = prompt) state.branches
  | some index =>
      let collapsed := collapsePerTurn state.branches (lineage state.branches index)
      let ancestor := collapsed.reverse.find? fun other =>
        state.branches[other]?.any fun branch => branch.turn = target && branch.prompt = prompt
      match ancestor with
      | some found => some found
      | none =>
          match (predecessorAt state.branches collapsed target).bind fun other =>
              state.branches[other]? with
          | none => none
          | some predecessor => rposition (fun branch =>
              branch.turn = target && branch.parentBranch = some predecessor.branchId &&
                branch.prompt = prompt) state.branches

def priorHistory (current : Option Nat) (target : UInt32) : List (HistoryTurn κ) :=
  match current with
  | none => []
  | some index =>
      ((collapsePerTurn state.branches (lineage state.branches index)).filter fun other =>
        turnAt state.branches other < target).filterMap fun other =>
          state.branches[other]?.map fun branch =>
            ⟨branch.turn, branch.attempt, branch.branchId, branch.prompt, branch.rounds,
              branch.summary⟩

/-- The greatest attempt at the turn. -/
def lastAttempt (branches : List (BranchRecord τ κ)) (target : UInt32) : Option UInt32 :=
  ((branches.filter fun branch => branch.turn = target).map BranchRecord.attempt).max?

def nextAttempt (branches : List (BranchRecord τ κ)) (target : UInt32) : Except StoreError UInt32 :=
  match lastAttempt branches target with
  | some attempt => do
      reject (attempt.toNat + 1 = UInt32.size) (StoreError.invalid "attempt overflow")
      pure (attempt + 1)
  | none => pure 1

end Requests

section Starting

variable [Recorded τ] [Recorded κ] (checks : Checks τ κ)

/-- The state that a request is decided on: the stored one with the working
directory of the request pinned. -/
def prepareRequestState (stored : SessionState τ κ) (sessionId prompt cwd : String)
    (identity : UInt64 × UInt64) : Except StoreError (SessionState τ κ) := do
  reject (maxPromptBytes < prompt.utf8ByteSize)
    (.invalid ("prompt exceeds the " ++ toString maxPromptBytes ++ " byte limit"))
  reject (stored.sessionId ≠ sessionId) (.corrupt ("state session_id " ++
    debugText stored.sessionId ++ " does not match " ++ debugText sessionId))
  match stored.cwd with
  | none => pure { stored with cwd := some cwd, cwdDev := identity.1, cwdIno := identity.2 }
  | some pinned => do
      reject (pinned ≠ cwd)
        (.invalid ("session is pinned to " ++ pinned ++ "; this run used " ++ cwd))
      reject ((stored.cwdDev, stored.cwdIno) ≠ identity)
        (.invalid "session workspace identity changed")
      pure stored

/-- Allocate the next branch and append its reservation. -/
def pushNewBranch (stored state : SessionState τ κ) (target : UInt32)
    (parent : Option String × UInt32 × UInt32) (prompt : String) (lease : RequestLease) :
    Except StoreError (BranchRecord τ κ × SessionState τ κ) := do
  let seq ← okOr (checkedIncrement state.nextBranchSeq) (.invalid "branch sequence overflow")
  let attempt ← nextAttempt state.branches target
  let branch : BranchRecord τ κ :=
    { telemetry := none, branchId := "b" ++ toString seq.toNat, turn := target, attempt := attempt,
      parentBranch := parent.1, parentTurn := parent.2.1, parentAttempt := parent.2.2,
      prompt := prompt, digest := promptDigest prompt, lifecycle := .pending, rounds := [],
      streamRetries := [], summary := "", error := "", owner := lease.owner,
      reservedAt := lease.now, leaseExpiry := lease.leaseEnd }
  let later ← appendEvent checks stored
    (.branchReserved state.cwd state.cwdDev state.cwdIno branch seq)
  pure (branch, later)

/-- The reservation of a branch that was just pushed. -/
def makeReservation (state : SessionState τ κ)
    (branch : BranchRecord τ κ) (target : UInt32) (retry : Bool)
    (history : List (HistoryTurn κ)) : ReservedRequest κ where
  branchId := branch.branchId
  turn := target
  attempt := (lastAttempt (state.branches ++ [branch]) target).getD 1
  replay := false
  retry := retry
  rounds := []
  summary := ""
  prompt := branch.prompt
  history := history
  owner := branch.owner

def replayReservation (record : BranchRecord τ κ) (owner : String) : ReservedRequest κ where
  branchId := record.branchId
  turn := record.turn
  attempt := record.attempt
  replay := true
  retry := false
  rounds := record.rounds
  summary := record.summary
  prompt := record.prompt
  history := []
  owner := owner

def reserveRetry (stored state : SessionState τ κ) (current : Option Nat)
    (existing : Nat) (target : UInt32) (prompt : String) (lease : RequestLease) :
    Except StoreError (ReservedRequest κ × SessionState τ κ) := do
  let prior := priorHistory state current target
  let parent := predecessorParent state.branches (lineage state.branches existing) target
  let (branch, later) ← pushNewBranch checks stored state target parent prompt lease
  pure (makeReservation state branch target true prior, later)

/-- A pending branch passes to the new owner once its lease has run out. -/
def reclaimPending (stored state : SessionState τ κ) (current : Option Nat)
    (record : BranchRecord τ κ) (prompt : String) (lease : RequestLease) :
    Except StoreError (ReservedRequest κ × SessionState τ κ) := do
  reject (lease.now < record.leaseExpiry)
    (.busy ("branch " ++ record.branchId ++ " is pending for another process"))
  let prior := priorHistory state current record.turn
  let later ← appendEvent checks stored
    (.branchReclaimed record.branchId prompt lease.owner lease.now lease.leaseEnd)
  let reserved : ReservedRequest κ :=
    { branchId := record.branchId, turn := record.turn, attempt := record.attempt,
      replay := false, retry := false, rounds := [], summary := "", prompt := prompt,
      history := prior, owner := lease.owner }
  pure (reserved, later)

def reserveExisting (stored state : SessionState τ κ) (current : Option Nat)
    (existing : Nat) (record : BranchRecord τ κ) (target : UInt32)
    (prompt : String) (lease : RequestLease) :
    Except StoreError (ReservedRequest κ × SessionState τ κ) :=
  match record.lifecycle with
  | .completed => pure (replayReservation record lease.owner, stored)
  | .failed => reserveRetry checks stored state current existing target prompt lease
  | .pending => reclaimPending checks stored state current record prompt lease

/-- The place of a fresh branch: behind the predecessor in the selected lineage
when the turn was asked for, else behind the selected branch. -/
def freshParent (state : SessionState τ κ) (current : Option Nat)
    (requested : Option UInt32) (target : UInt32) : Option String × UInt32 × UInt32 :=
  match current, requested with
  | some index, some _ => predecessorParent state.branches (lineage state.branches index) target
  | some index, none =>
      match state.branches[index]? with
      | some parent => (some parent.branchId, parent.turn, parent.attempt)
      | none => (none, 0, 0)
  | none, _ => (none, 0, 0)

def reserveFresh (stored state : SessionState τ κ) (current : Option Nat)
    (requested : Option UInt32) (target : UInt32) (prompt : String) (lease : RequestLease) :
    Except StoreError (ReservedRequest κ × SessionState τ κ) := do
  let prior := priorHistory state current target
  let parent := freshParent state current requested target
  let (branch, later) ← pushNewBranch checks stored state target parent prompt lease
  pure (makeReservation state branch target false prior, later)

/-- What a caller asks for. -/
structure StartRequest where
  sessionId : String
  requestedTurn : Option UInt32
  branch : Option String
  prompt : String
  cwd : String
  identity : UInt64 × UInt64

def startRequest (stored : SessionState τ κ) (request : StartRequest)
    (owner : String) (now : UInt64) :
    Except StoreError (ReservedRequest κ × SessionState τ κ) := do
  let state ← prepareRequestState stored request.sessionId request.prompt request.cwd
    request.identity
  let current ← selectCurrent state request.branch
  let target ← requestTarget state current request.requestedTurn
  let lease := ⟨owner, now, extendLease now⟩
  let existing := (findExisting state current target request.prompt).bind fun index =>
    state.branches[index]?.map fun record => (index, record)
  match existing with
  | some (index, record) =>
      reserveExisting checks stored state current index record target request.prompt lease
  | none =>
      reserveFresh checks stored state current request.requestedTurn target request.prompt lease

end Starting

end Llxprt.Log

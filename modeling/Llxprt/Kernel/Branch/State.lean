import Llxprt.Kernel.Wire
import Llxprt.Rust.Integers

/-!
# Read-only branches

Namespaces with allotments, complete read sets and one return each.
-/

namespace Llxprt.Kernel

open Llxprt.Rust

structure BranchState where
  branches : BTreeMap String Branch
  deriving DecidableEq

/-- Domains whose recorded version has moved since the branch read them. -/
def branchConflicts (branch : Branch) (versions : BTreeMap String UInt64) : BTreeSet String :=
  .ofList ((branch.reads.toList.filter fun (domain, version) =>
    versions[domain]?.getD 0 ≠ version).map Prod.fst)

/-- Status a branch with the given conflicts must return with. -/
def expectedStatus (conflicts : BTreeSet String) : ReturnStatus :=
  if conflicts.isEmpty then .currentEvidence else .suggestionNeedsRevalidation

namespace BranchState

def initial : BranchState :=
  ⟨∅⟩

def activeSlots (state : BranchState) : Nat :=
  ((values state.branches).filter Branch.active).length

def encode [Wire] (state : BranchState) : Bytes :=
  Sink.tag "context-branches" ++ Sink.blob (Wire.branches state.branches)

def live (state : BranchState) (nameSpace : String) : Except BranchError Branch :=
  okOr (state.branches[nameSpace]?.filter Branch.active) .nameSpace

def returnStatus (state : BranchState) (nameSpace : String) (versions : BTreeMap String UInt64) :
    Except BranchError (ReturnStatus × BTreeSet String) := do
  let branch ← state.live nameSpace
  let conflicts := branchConflicts branch versions
  return (expectedStatus conflicts, conflicts)

def noChildren (state : BranchState) (nameSpace : String) : Except BranchError Unit :=
  reject ((values state.branches).any fun branch =>
    branch.active && branch.spawn.parent = some nameSpace) .nameSpace

def checkLimits (state : BranchState) (limits : Limits) : Except BranchError Unit :=
  reject (limits.depth = 0 ∨ Limits.default.depth < limits.depth ∨
    limits.concurrency = 0 ∨ Limits.default.concurrency < limits.concurrency ∨
    limits.context = 0 ∨ Limits.default.context < limits.context ∨
    limits.management = 0 ∨ Limits.default.management < limits.management ∨
    limits.concurrency ≤ state.activeSlots ∨
    (values state.branches).any fun branch =>
      branch.active && branch.spawn.limits.concurrency ≤ state.activeSlots) .limit

/-- Depth of a new branch, checked against its parent's allotment. -/
def depthOf (state : BranchState) (spawn : Spawn) : Except BranchError Nat :=
  match spawn.parent with
  | none => .ok 1
  | some nameSpace => do
      let parent ← state.live nameSpace
      reject (parent.spawn.limits.depth < spawn.limits.depth ∨
        parent.spawn.limits.concurrency < spawn.limits.concurrency ∨
        parent.spawn.limits.context < spawn.limits.context ∨
        parent.spawn.limits.management < spawn.limits.management) .limit
      return parent.depth + 1

/-- Open a branch. -/
def spawnBranch (state : BranchState) (spawn : Spawn) (constitution : BTreeMap String String) :
    Except BranchError BranchState := do
  reject (spawn.nameSpace.isEmpty ∨ 256 < spawn.nameSpace.utf8ByteSize ∨ spawn.parentVersion = 0 ∨
    state.branches.contains spawn.nameSpace ∨ 4096 ≤ state.branches.size) .nameSpace
  reject (spawn.constitutional ≠ constitution) .constitution
  reject (spawn.tools = [] ∨ (spawn.tools.any fun tool => !tool.permitsBranch) ∨
    (Std.ExtTreeSet.ofList (spawn.tools.map ToolContract.name) compare).size ≠
      spawn.tools.length) .tool
  state.checkLimits spawn.limits
  let depth ← state.depthOf spawn
  reject (spawn.limits.depth < depth) .limit
  return ⟨state.branches.insert spawn.nameSpace {
    spawn := spawn
    depth := depth
    rounds := []
    reads := ∅
    contextSpend := 0
    managementSpend := 0
    returned := none
    aborted := false }⟩

/-- Record one read-only round of a branch. -/
def round (state : BranchState) (nameSpace : String) (round : Round) :
    Except BranchError BranchState := do
  let branch ← state.live nameSpace
  let tool ← okOr (branch.spawn.tools.find? fun tool => tool.name = round.tool) .tool
  reject (¬ tool.permitsBranch) .tool
  reject (round.call.isEmpty ∨ round.storeHandle.isEmpty ∨ 4096 ≤ branch.rounds.length ∨
    keySet round.reads ≠ tool.reads ∨ (branch.rounds.any fun done => done.call = round.call) ∨
    branch.reads.toList.any fun (domain, version) =>
      match round.reads[domain]? with
      | some new => new ≠ version
      | none => false) .receipt
  let context ← okOr (checkedAdd branch.contextSpend round.contextSpend) .limit
  let management ← okOr (checkedAdd branch.managementSpend round.managementSpend) .limit
  reject (branch.spawn.limits.context < context ∨
    branch.spawn.limits.management < management) .limit
  return ⟨state.branches.modify nameSpace fun branch =>
    { branch with
      contextSpend := context
      managementSpend := management
      reads := branch.reads ∪ round.reads
      rounds := branch.rounds ++ [round] }⟩

def transition (event : BranchEvent) (constitution : BTreeMap String String)
    (versions : BTreeMap String UInt64) (state : BranchState) : Except BranchError BranchState :=
  match event with
  | .openBranch spawn => state.spawnBranch spawn constitution
  | .roundBranch nameSpace round => state.round nameSpace round
  | .returnBranch nameSpace returned => do
      let branch ← state.live nameSpace
      let conflicts := branchConflicts branch versions
      reject (returned.handle.isEmpty ∨ ¬ validHash returned.digest ∨
        returned.status ≠ expectedStatus conflicts ∨ returned.revalidate ≠ conflicts ∨
        branch.rounds.any fun round => !round.complete) .receipt
      state.noChildren nameSpace
      return ⟨state.branches.modify nameSpace fun branch =>
        { branch with returned := some returned }⟩
  | .abortBranch nameSpace => do
      let _ ← state.live nameSpace
      state.noChildren nameSpace
      return ⟨state.branches.modify nameSpace fun branch => { branch with aborted := true }⟩

def apply (event : BranchEvent) (constitution : BTreeMap String String)
    (versions : BTreeMap String UInt64) : Method BranchState BranchError Unit :=
  Method.staged (transition event constitution versions)

end BranchState

end Llxprt.Kernel

import Llxprt.Kernel.Branch.State

/-!
# What a branch event does

An accepted event changes one namespace: it opens it, adds a round to it, or
closes it.
-/

namespace Llxprt.Kernel

open Llxprt.Rust

/-- The allotments of a child lie inside those of its parent. -/
structure ChildOf (child parent : Branch) : Prop where
  depth : child.depth = parent.depth + 1
  depthLimit : child.spawn.limits.depth ≤ parent.spawn.limits.depth
  concurrency : child.spawn.limits.concurrency ≤ parent.spawn.limits.concurrency
  context : child.spawn.limits.context ≤ parent.spawn.limits.context
  management : child.spawn.limits.management ≤ parent.spawn.limits.management

theorem ChildOf.congr {child parent child' parent' : Branch} (isChild : ChildOf child parent)
    (childSpawn : child'.spawn = child.spawn) (childDepth : child'.depth = child.depth)
    (parentSpawn : parent'.spawn = parent.spawn) (parentDepth : parent'.depth = parent.depth) :
    ChildOf child' parent' := by
  rcases isChild with ⟨depth, depthLimit, concurrency, context, management⟩
  rw [← childSpawn, ← parentSpawn] at depthLimit concurrency context management
  rw [← childDepth, ← parentDepth] at depth
  exact ⟨depth, depthLimit, concurrency, context, management⟩

/-- The tool of the round is declared and read-only. -/
def UsesTool (spawn : Spawn) (round : Round) : Prop :=
  ∃ tool ∈ spawn.tools, tool.name = round.tool ∧ tool.permitsBranch = true

/-- A branch without rounds. -/
def Branch.fresh (spawn : Spawn) (depth : Nat) : Branch where
  spawn := spawn
  depth := depth
  rounds := []
  reads := ∅
  contextSpend := 0
  managementSpend := 0
  returned := none
  aborted := false

/-- The branch with one more round. -/
def Branch.extend (branch : Branch) (round : Round) : Branch :=
  { branch with
    contextSpend := branch.contextSpend + round.contextSpend
    managementSpend := branch.managementSpend + round.managementSpend
    reads := branch.reads ∪ round.reads
    rounds := branch.rounds ++ [round] }

namespace BranchState

/-- What the spawn of a branch has passed. -/
structure Opens (state : BranchState) (spawn : Spawn) (depth : Nat) : Prop where
  absent : state.branches[spawn.nameSpace]? = none
  slot : state.activeSlots < spawn.limits.concurrency
  default : spawn.limits.concurrency ≤ Limits.default.concurrency
  others : ∀ (nameSpace : String) branch, state.branches[nameSpace]? = some branch →
    branch.active = true → state.activeSlots < branch.spawn.limits.concurrency
  depthLimit : depth ≤ spawn.limits.depth
  parent : ∀ nameSpace, spawn.parent = some nameSpace → ∃ parent,
    state.branches[nameSpace]? = some parent ∧ parent.active = true ∧
      ChildOf (.fresh spawn depth) parent

/-- What a round of a branch has passed. -/
structure Extends (branch : Branch) (round : Round) : Prop where
  tool : UsesTool branch.spawn round
  consistent : ∀ (domain : String) version new, branch.reads[domain]? = some version →
    round.reads[domain]? = some new → new = version
  context : branch.contextSpend + round.contextSpend ≤ branch.spawn.limits.context
  management : branch.managementSpend + round.managementSpend ≤ branch.spawn.limits.management

/-- No active branch names the namespace as its parent. -/
def Childless (state : BranchState) (nameSpace : String) : Prop :=
  ∀ (key : String) branch, state.branches[key]? = some branch → branch.active = true →
    branch.spawn.parent ≠ some nameSpace

/-- The namespace that an accepted event changes, and its branch afterwards. -/
inductive Moves (versions : BTreeMap String UInt64) (state : BranchState) :
    BranchEvent → String → Branch → Prop
  | opened {spawn : Spawn} {depth : Nat} (opens : state.Opens spawn depth) :
      Moves versions state (.openBranch spawn) spawn.nameSpace (.fresh spawn depth)
  | rounded {nameSpace : String} {branch : Branch} {round : Round}
      (present : state.branches[nameSpace]? = some branch) (isActive : branch.active = true)
      (passes : Extends branch round) :
      Moves versions state (.roundBranch nameSpace round) nameSpace (branch.extend round)
  | returned {nameSpace : String} {branch : Branch} {returned : Returned}
      (present : state.branches[nameSpace]? = some branch) (isActive : branch.active = true)
      (childless : state.Childless nameSpace)
      (status : returned.status = expectedStatus (branchConflicts branch versions))
      (revalidate : returned.revalidate = branchConflicts branch versions) :
      Moves versions state (.returnBranch nameSpace returned) nameSpace
        { branch with returned := some returned }
  | aborted {nameSpace : String} {branch : Branch}
      (present : state.branches[nameSpace]? = some branch) (isActive : branch.active = true)
      (childless : state.Childless nameSpace) :
      Moves versions state (.abortBranch nameSpace) nameSpace { branch with aborted := true }

section Inversion

variable {state next : BranchState} {nameSpace : String} {branch : Branch} {spawn : Spawn}
  {constitution : BTreeMap String String} {versions : BTreeMap String UInt64}

theorem live_eq_ok : state.live nameSpace = .ok branch ↔
    state.branches[nameSpace]? = some branch ∧ branch.active = true := by
  rw [live, okOr_eq_ok, Option.filter_eq_some_iff]

/-- A test over all branches. -/
theorem any_values {test : Branch → Bool} : (values state.branches).any test = true ↔
    ∃ (nameSpace : String) (branch : Branch), state.branches[nameSpace]? = some branch ∧
      test branch = true := by
  simp only [values, List.any_map, List.any_eq_true, Prod.exists, Function.comp_apply,
    Std.ExtTreeMap.mem_toList_iff_getElem?_eq_some]

theorem noChildren_eq_ok {result : Unit} :
    state.noChildren nameSpace = .ok result ↔ state.Childless nameSpace := by
  rw [noChildren, reject_eq_ok, any_values]
  constructor
  · intro none key branch found isActive isChild
    apply none
    exact ⟨key, branch, found, by simp [isActive, isChild]⟩
  · rintro childless ⟨key, branch, found, isChild⟩
    rw [Bool.and_eq_true, decide_eq_true_eq] at isChild
    exact childless key branch found isChild.1 isChild.2

theorem depthOf_eq_ok {depth : Nat} (h : state.depthOf spawn = .ok depth) :
    ∀ nameSpace, spawn.parent = some nameSpace → ∃ parent,
      state.branches[nameSpace]? = some parent ∧ parent.active = true ∧
        ChildOf (.fresh spawn depth) parent := by
  intro nameSpace isParent
  simp only [depthOf, isParent, bind_eq_ok, reject_eq_ok, pure_eq_ok, not_or, not_lt,
    live_eq_ok] at h
  rcases h with ⟨parent, ⟨present, isActive⟩, _, ⟨depths, concurrency, context, management⟩, rfl⟩
  exact ⟨parent, present, isActive, rfl, depths, concurrency, context, management⟩

theorem modify_lookup {change : Branch → Branch} {key : String}
    (present : state.branches[nameSpace]? = some branch) :
    (state.branches.modify nameSpace change)[key]? =
      if nameSpace = key then some (change branch) else state.branches[key]? := by
  rw [Std.ExtTreeMap.getElem?_modify]
  simp only [Std.LawfulEqOrd.compare_eq_iff_eq]
  split
  · rw [present]
    rfl
  · rfl

theorem spawnBranch_opens (h : state.spawnBranch spawn constitution = .ok next) :
    ∃ depth, state.Opens spawn depth ∧ ∀ key : String, next.branches[key]? =
      if spawn.nameSpace = key then some (.fresh spawn depth) else state.branches[key]? := by
  simp only [spawnBranch, checkLimits, bind_eq_ok, reject_eq_ok, pure_eq_ok, not_or, not_lt, not_le,
    any_values] at h
  rcases h with ⟨_, ⟨_, _, _, absent, _⟩, _, _, _, _, _, ⟨_, _, _, default, _, _, _, _, slot, others⟩,
    depth, depthOk, _, depthLimit, rfl⟩
  have opens : state.Opens spawn depth := by
    refine ⟨?_, slot, default, ?_, depthLimit, depthOf_eq_ok depthOk⟩
    · exact Std.ExtTreeMap.getElem?_eq_none_of_contains_eq_false (Bool.eq_false_iff.mpr absent)
    · intro nameSpace branch found isActive
      by_contra full
      apply others
      exact ⟨nameSpace, branch, found, by simp [isActive, Nat.not_lt.mp full]⟩
  refine ⟨depth, opens, fun key => ?_⟩
  rw [Std.ExtTreeMap.getElem?_insert]
  simp only [Std.LawfulEqOrd.compare_eq_iff_eq]
  rfl

theorem checkedAdd_eq_some {left right sum : Nat} (h : checkedAdd left right = some sum) :
    sum = left + right := by
  unfold checkedAdd at h
  split at h
  · cases h
    rfl
  · cases h

theorem round_extends {round : Round} (h : state.round nameSpace round = .ok next) :
    ∃ branch, state.branches[nameSpace]? = some branch ∧ branch.active = true ∧
      Extends branch round ∧ ∀ key : String, next.branches[key]? =
        if nameSpace = key then some (branch.extend round) else state.branches[key]? := by
  simp only [BranchState.round, bind_eq_ok, reject_eq_ok, pure_eq_ok, okOr_eq_ok, not_or, not_lt,
    not_not, live_eq_ok] at h
  rcases h with ⟨branch, ⟨present, isActive⟩, tool, declared, _, permits, _,
    ⟨_, _, _, reads, _, consistent⟩, context, contextSum, management, managementSum, _,
    ⟨contextLimit, managementLimit⟩, rfl⟩
  cases checkedAdd_eq_some contextSum
  cases checkedAdd_eq_some managementSum
  refine ⟨branch, present, isActive, ⟨?_, ?_, contextLimit, managementLimit⟩, ?_⟩
  · have named := List.find?_some declared
    exact ⟨tool, List.mem_of_find?_eq_some declared, of_decide_eq_true named, permits⟩
  · intro domain version new recorded read
    by_contra differs
    apply consistent
    rw [List.any_eq_true]
    refine ⟨(domain, version), Std.ExtTreeMap.mem_toList_iff_getElem?_eq_some.mpr recorded, ?_⟩
    simp [read, differs]
  · intro key
    exact modify_lookup present

/-- Every accepted event moves one namespace. -/
theorem transition_moves {event : BranchEvent}
    (h : transition event constitution versions state = .ok next) :
    ∃ nameSpace after, state.Moves versions event nameSpace after ∧
      ∀ key : String, next.branches[key]? =
        if nameSpace = key then some after else state.branches[key]? := by
  cases event with
  | openBranch spawn =>
      rcases spawnBranch_opens h with ⟨depth, opens, lookup⟩
      exact ⟨_, _, .opened opens, lookup⟩
  | roundBranch nameSpace round =>
      rcases round_extends h with ⟨branch, present, isActive, passes, lookup⟩
      exact ⟨_, _, .rounded present isActive passes, lookup⟩
  | returnBranch nameSpace returned =>
      simp only [transition, bind_eq_ok, reject_eq_ok, pure_eq_ok, live_eq_ok, noChildren_eq_ok,
        not_or, not_not] at h
      rcases h with ⟨branch, ⟨present, isActive⟩, _, ⟨_, _, status, revalidate, _⟩, _, childless,
        rfl⟩
      exact ⟨_, _, .returned present isActive childless status revalidate,
        fun key => modify_lookup present⟩
  | abortBranch nameSpace =>
      simp only [transition, bind_eq_ok, pure_eq_ok, live_eq_ok, noChildren_eq_ok] at h
      rcases h with ⟨branch, ⟨present, isActive⟩, _, childless, rfl⟩
      exact ⟨_, _, .aborted present isActive childless, fun key => modify_lookup present⟩

end Inversion

end BranchState

end Llxprt.Kernel

import Llxprt.Kernel.Branch.Moves
import Llxprt.Rust.Runs

/-!
# Containment of branches

Branches stay inside their allotments, whatever events arrive: a child inside
its parent's, all active branches together inside the concurrency of each of
them.  A closed namespace stays as it was closed.
-/

namespace Llxprt.Kernel.BranchState

open Llxprt.Rust

/-- One event as the reducer hands it to the branches. -/
structure Call where
  event : BranchEvent
  constitution : BTreeMap String String
  versions : BTreeMap String UInt64

/-- The branches after a call, accepted or not. -/
def perform (state : BranchState) (call : Call) : BranchState :=
  (apply call.event call.constitution call.versions state).2

/-- The branches after a sequence of calls. -/
def after (calls : List Call) : BranchState :=
  run perform initial calls

/-- The accounts of one branch: its spends are those of its rounds and lie inside
its limits. -/
structure Accounted (branch : Branch) : Prop where
  context : branch.contextSpend = (branch.rounds.map Round.contextSpend).sum
  management : branch.managementSpend = (branch.rounds.map Round.managementSpend).sum
  contextLimit : branch.contextSpend ≤ branch.spawn.limits.context
  managementLimit : branch.managementSpend ≤ branch.spawn.limits.management
  depthLimit : branch.depth ≤ branch.spawn.limits.depth
  tools : ∀ round ∈ branch.rounds, UsesTool branch.spawn round

structure Contained (state : BranchState) : Prop where
  default : state.activeSlots ≤ Limits.default.concurrency
  concurrency : ∀ (nameSpace : String) branch, state.branches[nameSpace]? = some branch →
    branch.active = true → state.activeSlots ≤ branch.spawn.limits.concurrency
  accounted : ∀ (nameSpace : String) branch, state.branches[nameSpace]? = some branch →
    Accounted branch
  parent : ∀ (nameSpace : String) branch name, state.branches[nameSpace]? = some branch →
    branch.spawn.parent = some name → ∃ parent, state.branches[name]? = some parent ∧
      ChildOf branch parent ∧ (branch.active = true → parent.active = true)

section Steps

variable {state next : BranchState} {nameSpace : String} {current : Branch} {event : BranchEvent}
  {versions : BTreeMap String UInt64}

theorem accounted_fresh {spawn : Spawn} {depth : Nat} (depthLimit : depth ≤ spawn.limits.depth) :
    Accounted (.fresh spawn depth) where
  context := rfl
  management := rfl
  contextLimit := Nat.zero_le _
  managementLimit := Nat.zero_le _
  depthLimit := depthLimit
  tools _ member := absurd member List.not_mem_nil

theorem Accounted.extend {branch : Branch} {round : Round} (accounted : Accounted branch)
    (passes : Extends branch round) : Accounted (branch.extend round) where
  context := by simp [Branch.extend, accounted.context]
  management := by simp [Branch.extend, accounted.management]
  contextLimit := passes.context
  managementLimit := passes.management
  depthLimit := accounted.depthLimit
  tools done member := by
    rcases List.mem_append.mp member with earlier | last
    · exact accounted.tools done earlier
    · rw [List.mem_singleton.mp last]
      exact passes.tool

theorem Moves.accounted (moves : state.Moves versions event nameSpace current)
    (contained : state.Contained) : Accounted current := by
  cases moves with
  | opened opens => exact accounted_fresh opens.depthLimit
  | rounded present _ passes => exact (contained.accounted _ _ present).extend passes
  | returned present | aborted present =>
      rcases contained.accounted _ _ present with ⟨context, management, contextLimit,
        managementLimit, depthLimit, tools⟩
      exact ⟨context, management, contextLimit, managementLimit, depthLimit, tools⟩

/-- A namespace that was there keeps its spawn and its depth, and is active only
if it was. -/
theorem Moves.present {before : Branch} (moves : state.Moves versions event nameSpace current)
    (present : state.branches[nameSpace]? = some before) :
    current.spawn = before.spawn ∧ current.depth = before.depth ∧ before.active = true := by
  cases moves with
  | opened opens => cases present.symm.trans opens.absent
  | rounded found isActive | returned found isActive | aborted found isActive =>
      cases present.symm.trans found
      exact ⟨rfl, rfl, isActive⟩

section Slots

variable (lookup : ∀ key : String, next.branches[key]? =
  if nameSpace = key then some current else state.branches[key]?)

include lookup

/-- One changed namespace takes at most one slot. -/
theorem activeSlots_le : next.activeSlots ≤ 1 + state.activeSlots := by
  apply length_filter_values_le [nameSpace]
  intro key branch found isActive
  rw [lookup key] at found
  split at found
  · rename_i same
    exact .inl (same ▸ List.mem_singleton_self nameSpace)
  · exact .inr ⟨branch, found, isActive⟩

/-- A namespace that had a slot takes no new one. -/
theorem activeSlots_le_of_active {before : Branch}
    (present : state.branches[nameSpace]? = some before) (isActive : before.active = true) :
    next.activeSlots ≤ state.activeSlots := by
  rw [← Nat.zero_add state.activeSlots]
  apply length_filter_values_le []
  intro key branch found branchActive
  rw [lookup key] at found
  split at found
  · rename_i same
    exact .inr ⟨before, same ▸ present, isActive⟩
  · exact .inr ⟨branch, found, branchActive⟩

variable (moves : state.Moves versions event nameSpace current)

include moves

/-- The slots stay inside every concurrency limit: an opening was checked against
all of them, and the other events give slots back. -/
theorem Moves.concurrency (contained : state.Contained) :
    next.activeSlots ≤ Limits.default.concurrency ∧
      ∀ (key : String) branch, next.branches[key]? = some branch → branch.active = true →
        next.activeSlots ≤ branch.spawn.limits.concurrency := by
  have closing {before : Branch} (present : state.branches[nameSpace]? = some before)
      (isActive : before.active = true) (sameSpawn : current.spawn = before.spawn) :
      next.activeSlots ≤ Limits.default.concurrency ∧
        ∀ (key : String) branch, next.branches[key]? = some branch → branch.active = true →
          next.activeSlots ≤ branch.spawn.limits.concurrency := by
    have fewer := activeSlots_le_of_active lookup present isActive
    refine ⟨Nat.le_trans fewer contained.default, ?_⟩
    intro key branch found branchActive
    apply Nat.le_trans fewer
    rw [lookup key] at found
    split at found
    · cases found
      rw [sameSpawn]
      exact contained.concurrency _ _ present isActive
    · exact contained.concurrency _ _ found branchActive
  cases moves with
  | rounded present isActive | returned present isActive | aborted present isActive =>
      exact closing present isActive rfl
  | @opened spawn depth opens =>
      have more := activeSlots_le lookup
      have slot := opens.slot
      have default := opens.default
      refine ⟨by omega, ?_⟩
      intro key branch found branchActive
      rw [lookup key] at found
      split at found
      · cases found
        have own : next.activeSlots ≤ spawn.limits.concurrency := by omega
        exact own
      · have others := opens.others _ _ found branchActive
        omega

/-- A namespace that was there is still there, and loses its activity only when it
has no active children. -/
theorem Moves.successor {name : String} {before : Branch}
    (present : state.branches[name]? = some before) :
    ∃ later, next.branches[name]? = some later ∧ later.spawn = before.spawn ∧
      later.depth = before.depth ∧ (before.active = true →
        later.active = true ∨ name = nameSpace ∧ state.Childless name) := by
  by_cases same : nameSpace = name
  · subst same
    rw [lookup nameSpace, if_pos rfl]
    cases moves with
    | opened opens => cases present.symm.trans opens.absent
    | rounded found isActive _ =>
        cases present.symm.trans found
        exact ⟨_, rfl, rfl, rfl, fun _ => .inl isActive⟩
    | returned found _ childless | aborted found _ childless =>
        cases present.symm.trans found
        exact ⟨_, rfl, rfl, rfl, fun _ => .inr ⟨rfl, childless⟩⟩
  · rw [lookup name, if_neg same]
    exact ⟨before, present, rfl, rfl, .inl⟩

/-- Every child of the next state had its parent before the event, and an active
child protects it. -/
theorem Moves.parent_before (contained : state.Contained) {key name : String} {branch : Branch}
    (found : next.branches[key]? = some branch) (isParent : branch.spawn.parent = some name) :
    ∃ parent, state.branches[name]? = some parent ∧ ChildOf branch parent ∧
      (branch.active = true → parent.active = true ∧
        ¬ (name = nameSpace ∧ state.Childless name)) := by
  have earlier {child : Branch} {place : String} (present : state.branches[place]? = some child)
      (isParent : child.spawn.parent = some name) (sameSpawn : branch.spawn = child.spawn)
      (sameDepth : branch.depth = child.depth)
      (wasActive : branch.active = true → child.active = true) :
      ∃ parent, state.branches[name]? = some parent ∧ ChildOf branch parent ∧
        (branch.active = true → parent.active = true ∧
          ¬ (name = nameSpace ∧ state.Childless name)) := by
    rcases contained.parent _ _ _ present isParent with ⟨parent, parentFound, isChild, active⟩
    refine ⟨parent, parentFound, isChild.congr sameSpawn sameDepth rfl rfl, fun isActive => ?_⟩
    refine ⟨active (wasActive isActive), ?_⟩
    rintro ⟨_, childless⟩
    exact childless _ _ present (wasActive isActive) isParent
  rw [lookup key] at found
  split at found
  · cases found
    cases moves with
    | opened opens =>
        rcases opens.parent name isParent with ⟨parent, present, isActive, isChild⟩
        refine ⟨parent, present, isChild, fun _ => ⟨isActive, ?_⟩⟩
        rintro ⟨rfl, _⟩
        cases present.symm.trans opens.absent
    | rounded present isActive _ => exact earlier present isParent rfl rfl fun _ => isActive
    | returned present isActive | aborted present isActive =>
        exact earlier present isParent rfl rfl fun _ => isActive
  · exact earlier found isParent rfl rfl id

/-- One accepted event keeps the branches contained. -/
theorem Moves.contained (contained : state.Contained) : next.Contained := by
  rcases moves.concurrency lookup contained with ⟨default, concurrency⟩
  refine ⟨default, concurrency, ?_, ?_⟩
  · intro key branch found
    rw [lookup key] at found
    split at found
    · cases found
      exact moves.accounted contained
    · exact contained.accounted _ _ found
  · intro key branch name found isParent
    rcases moves.parent_before lookup contained found isParent with
      ⟨parent, present, isChild, protects⟩
    rcases moves.successor lookup present with ⟨later, laterFound, spawn, depth, closes⟩
    refine ⟨later, laterFound, isChild.congr rfl rfl spawn depth, fun isActive => ?_⟩
    rcases protects isActive with ⟨parentActive, isProtected⟩
    exact (closes parentActive).resolve_right isProtected

/-- A closed namespace is not touched. -/
theorem Moves.closed {name : String} {branch : Branch}
    (present : state.branches[name]? = some branch) (isClosed : branch.active = false) :
    next.branches[name]? = some branch := by
  rw [lookup name, if_neg, present]
  rintro rfl
  have isActive := (moves.present present).2.2
  rw [isClosed] at isActive
  cases isActive

end Slots

end Steps

section Runs

/-- A call is refused and changes nothing, or moves one namespace. -/
theorem perform_cases (state : BranchState) (call : Call) :
    state.perform call = state ∨ ∃ nameSpace current,
      state.Moves call.versions call.event nameSpace current ∧
        ∀ key : String, (state.perform call).branches[key]? =
          if nameSpace = key then some current else state.branches[key]? := by
  cases result : transition call.event call.constitution call.versions state with
  | error error => exact .inl (by simp [perform, apply, Method.staged, result])
  | ok next =>
      have performed : state.perform call = next := by
        simp [perform, apply, Method.staged, result]
      rw [performed]
      exact .inr (transition_moves result)

theorem contained_initial : initial.Contained where
  default := by decide
  concurrency nameSpace branch found := by simp [initial] at found
  accounted nameSpace branch found := by simp [initial] at found
  parent nameSpace branch name found := by simp [initial] at found

theorem after_contained (calls : List Call) : (after calls).Contained := by
  apply run_invariant Contained contained_initial _ calls (List.prefix_refl calls)
  intro before call _ contained
  rcases perform_cases (run perform initial before) call with same | ⟨_, _, moves, lookup⟩
  · rw [same]
    exact contained
  · exact moves.contained lookup contained

/-- After any sequence of events the branches are contained, and a closed
namespace stays the same through every further sequence. -/
theorem branch_containment (calls : List Call) :
    (after calls).Contained ∧ ∀ (more : List Call) (nameSpace : String) branch,
      (after calls).branches[nameSpace]? = some branch → branch.active = false →
        (after (calls ++ more)).branches[nameSpace]? = some branch := by
  refine ⟨after_contained calls, ?_⟩
  intro more nameSpace branch present isClosed
  rw [after, run_append]
  apply run_invariant (fun state : BranchState => state.branches[nameSpace]? = some branch) present _ more
    (List.prefix_refl more)
  intro before call _ found
  rcases perform_cases (run perform (after calls) before) call with
    same | ⟨_, _, moves, lookup⟩
  · rw [same]
    exact found
  · exact moves.closed lookup found isClosed

end Runs

end Llxprt.Kernel.BranchState

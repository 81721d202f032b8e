import Llxprt.Agent.Booking

/-!
# A round of tool calls

The records of a round follow the calls of its reply: first those that were
executed, then those over the budget, each with one return in the list.
-/

namespace Llxprt.Agent

open Llxprt.Kernel Llxprt.Rust Llxprt.Gateway Llxprt.Log

/-- The call that a record is for, and whether it was refused. -/
def LiveCall.mark (call : LiveCall) : ToolCall × Bool :=
  (⟨call.record.id, call.record.name, call.record.args⟩, call.record.refused)

/-- The request that returns the result of a call. -/
def LiveCall.returned (call : LiveCall) : ModelRequest :=
  toolReturnRequest call.record.name call.record.id call.record.ok call.resultLive

variable {τ : Type} {agent : CodingAgent τ}

/-- A round on its way: `executed` is recorded, `waiting` is not. -/
structure Work.Traced (agent : CodingAgent τ) (work : Work)
    (executed waiting : List ToolCall) : Prop where
  calls : work.reply.calls = executed ++ (waiting ++ work.skipped)
  records : work.round.calls.map LiveCall.mark = executed.map fun call => (call, false)
  continuation : work.round.continuation = work.reply.continuation
  requests : work.attempt.requests = work.base ++
    assistantRequest agent.compactJson work.reply :: work.round.calls.map LiveCall.returned
  current : work.attempt.current = none

/-- A round with all its records, joined to the rounds of its attempt. -/
structure Work.Closed (agent : CodingAgent τ) (work : Work) (executed : List ToolCall) : Prop where
  calls : work.reply.calls = executed ++ work.skipped
  records : work.round.calls.map LiveCall.mark =
    (executed.map fun call => (call, false)) ++ work.skipped.map fun call => (call, true)
  continuation : work.round.continuation = work.reply.continuation
  requests : work.attempt.requests = work.base ++
    assistantRequest agent.compactJson work.reply :: work.round.calls.map LiveCall.returned
  rounds : ∃ earlier, work.attempt.rounds = earlier ++ [work.round]
  current : work.attempt.current = none

section Budget

variable {budget : Option Nat} {usage : TurnUsage} {calls : List ToolCall}

theorem splitOverBudget_append : (splitOverBudget budget usage calls).1 ++
    (splitOverBudget budget usage calls).2 = calls := by
  unfold splitOverBudget
  split
  · exact List.append_nil calls
  · exact List.take_append_drop _ calls

/-- What fits stays within the budget. -/
theorem length_splitOverBudget {max : Nat} (limited : budget = some max)
    (some : (splitOverBudget budget usage calls).1 ≠ []) :
    usage.totalCalls + (splitOverBudget budget usage calls).1.length ≤ max := by
  subst limited
  simp only [splitOverBudget] at some ⊢
  have room : max - usage.totalCalls ≠ 0 := by
    intro none
    rw [none] at some
    exact some (List.take_zero)
  have taken := List.length_take_le (max - usage.totalCalls) calls
  omega

end Budget

theorem traced_opened (identity : String) (attempt : AttemptState) (reply : LlmResult)
    (ids : BTreeSet String) :
    (Work.opened agent identity attempt reply ids).Traced agent []
      (splitOverBudget agent.maxToolCalls attempt.usage reply.calls).1 where
  calls := splitOverBudget_append.symm
  records := rfl
  continuation := rfl
  requests := rfl
  current := rfl

theorem Work.Traced.record {work : Work} {executed waiting : List ToolCall} {call : ToolCall}
    (traced : work.Traced agent executed (call :: waiting)) (ok : Bool) (projection : Projection) :
    (work.record call ok projection).Traced agent (executed ++ [call]) waiting where
  calls := by
    rw [List.append_assoc]
    exact traced.calls
  records := by
    change (work.round.calls ++ [_]).map LiveCall.mark = _
    rw [List.map_append, List.map_append, traced.records]
    rfl
  continuation := traced.continuation
  requests := by
    change work.attempt.requests ++ [_] = _ ++ _ :: (work.round.calls ++ [_]).map _
    rw [traced.requests, List.map_append, List.append_assoc]
    rfl
  current := traced.current

theorem Work.Traced.close {work : Work} {executed : List ToolCall}
    (traced : work.Traced agent executed []) : (work.close agent).Closed agent executed where
  calls := traced.calls
  records := by
    change (work.round.calls ++ _).map LiveCall.mark = _
    rw [List.map_append, traced.records]
    congr 1
    simp only [refuseOverBudget, List.map_map]
    rfl
  continuation := traced.continuation
  requests := by
    have returns : (refuseOverBudget agent.maxToolCalls work.attempt.usage.totalCalls
        work.skipped).2 = (refuseOverBudget agent.maxToolCalls work.attempt.usage.totalCalls
        work.skipped).1.map LiveCall.returned := by
      simp only [refuseOverBudget, List.map_map]
      rfl
    change work.attempt.requests ++ _ = _ ++ _ :: (work.round.calls ++ _).map _
    rw [traced.requests, List.map_append, List.append_assoc, returns]
    rfl
  rounds := ⟨work.attempt.rounds, rfl⟩
  current := traced.current

end Llxprt.Agent

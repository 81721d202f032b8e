import Llxprt.Kernel.Ledger.Steps
import Llxprt.Rust.Runs

/-!
# Runs of the ledger

A ledger is driven by an arbitrary sequence of commands, each with its own
sequence number and scope registry.  A refused command leaves the ledger as it
was, so a run is a sequence of steps interleaved with refusals.
-/

namespace Llxprt.Kernel.Ledger

open Llxprt.Rust

/-- One command as the reducer hands it to the ledger. -/
structure Call where
  command : Command
  sequence : Nat
  scopes : ScopeRegistry

/-- Whether the ledger accepts the call. -/
def Accepts (ledger : Ledger) (call : Call) : Prop :=
  ∃ next, transition call.command call.sequence call.scopes ledger = .ok next

/-- The ledger after a call, accepted or not. -/
def perform (ledger : Ledger) (call : Call) : Ledger :=
  (apply call.command call.sequence call.scopes ledger).2

/-- The ledger after a sequence of calls. -/
def after (start : Ledger) (calls : List Call) : Ledger :=
  run perform start calls

/-- A call either is refused and changes nothing, or is a step. -/
theorem perform_cases (ledger : Ledger) (call : Call) :
    (¬ ledger.Accepts call ∧ ledger.perform call = ledger) ∨
      (ledger.Accepts call ∧ ledger.Step call.command call.sequence (ledger.perform call)) := by
  cases result : transition call.command call.sequence call.scopes ledger with
  | error error =>
      refine .inl ⟨?_, ?_⟩
      · rintro ⟨next, accepted⟩
        simp [result] at accepted
      · simp [perform, apply, Method.staged, result]
  | ok next =>
      have performed : ledger.perform call = next := by
        simp [perform, apply, Method.staged, result]
      rw [performed]
      exact .inr ⟨⟨next, result⟩, transition_step result⟩

theorem new_entries {params : LedgerParams} {start : Ledger} (h : Ledger.new params = .ok start) :
    start.entries = ∅ := by
  simp only [Ledger.new, bind_eq_ok, pure_eq_ok] at h
  obtain ⟨_, _, rfl⟩ := h
  rfl

section Sample

/-- One open scope. -/
def oneScope : ScopeRegistry where
  scopes := [{
    id := 1
    parent := none
    state := .open
    openedSequence := 1
    closedSequence := none
    lastItemSequence := 1 }]
  idlenessWindow := 32

/-- An agent's message in the open scope. -/
def agentSource : Source where
  leaf := "leaf"
  authority := .agent
  origin := .ingress
  scope := 1

/-- A useful empirical note backed by the agent's message. -/
def note : Entry where
  id := ⟨"build", "uses", 1⟩
  factClass := .convenience
  kind := .empirical
  source := agentSource
  freshness := .unknown
  evidence := .unverified
  unconfirmed := false
  utility := ⟨6000⟩
  usage := ⟨0, 3, 0⟩
  readSet := ∅
  premises := ∅
  bindings := ∅
  fold := ⟨"the build uses cargo", 0⟩
  rendered := true
  retired := false
  lastDecay := 0
  supersededBy := none

end Sample

end Llxprt.Kernel.Ledger

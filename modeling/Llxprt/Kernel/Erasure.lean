import Llxprt.Kernel.Ledger.Erasure
import Llxprt.Kernel.Ledger.Runs
import Llxprt.Kernel.Serde
import Llxprt.Kernel.Stages

/-!
# Erasures along a fold

A committed erasure names a leaf that must not come back.  The projection checks
the erased leaves of the security state before it publishes; the ledger does not
see them.
-/

namespace Llxprt.Kernel.Reducer

open Llxprt.Rust

section Overlay

variable {security next : SecurityState} {event : SecurityEvent} {sequence : Nat}
  {placed : BTreeSet Nat} {leaf : String}

theorem erase_erased {erasure : Erasure}
    (moved : SecurityState.transition (.erase erasure) sequence placed security = .ok next) :
    next.erased = security.erased.insert erasure.leaf erasure := by
  simp only [SecurityState.transition, bind_eq_ok, pure_eq_ok] at moved
  rcases moved with ⟨_, _, rfl⟩
  rfl

theorem transition_erased (noErasure : ∀ erasure, event ≠ .erase erasure)
    (moved : SecurityState.transition event sequence placed security = .ok next) :
    next.erased = security.erased := by
  cases event with
  | pin | unpin | expire =>
      simp only [SecurityState.transition, bind_eq_ok, pure_eq_ok] at moved
      rcases moved with ⟨_, _, rfl⟩
      rfl
  | escalatePending =>
      simp only [SecurityState.transition, SecurityState.pending, bind_eq_ok, pure_eq_ok] at moved
      rcases moved with ⟨_, _, rfl⟩
      rfl
  | escalateComplete =>
      simp only [SecurityState.transition, bind_eq_ok, pure_eq_ok] at moved
      rcases moved with ⟨_, _, _, _, rfl⟩
      rfl
  | erase erasure => exact absurd rfl (noErasure erasure)

/-- The erased leaves are those before the event and the one that it erases. -/
theorem Governs.mem_erased [Wire] {kind : EventKind} {before after : Governed}
    (governs : Governs sequence kind before after) :
    leaf ∈ after.security.erased ↔ leaf ∈ before.security.erased ∨
      ∃ erasure, kind = .security (.erase erasure) ∧ erasure.leaf = leaf := by
  cases governs with
  | erased moved =>
      rw [Governed.erase, erase_erased moved, Std.ExtTreeMap.mem_insert,
        Std.LawfulEqOrd.compare_eq_iff_eq]
      constructor
      · rintro (same | member)
        · exact .inr ⟨_, rfl, same⟩
        · exact .inl member
      · rintro (member | ⟨_, isErasure, same⟩)
        · exact .inr member
        · cases isErasure
          exact .inl same
  | secured noErasure moved =>
      rw [transition_erased noErasure moved]
      constructor
      · exact .inl
      · rintro (member | ⟨erasure, same, _⟩)
        · exact member
        · cases same
          exact absurd rfl (noErasure erasure)
  | kept isUngoverned =>
      constructor
      · exact .inl
      · rintro (member | ⟨_, rfl, _⟩)
        · exact member
        · cases isUngoverned
  | revoked | commanded _ | projected _ _ | branched _ =>
      constructor
      · exact .inl
      · rintro (member | ⟨_, same, _⟩)
        · exact member
        · cases same

end Overlay

section Permanence

variable [Wire] {window : Nat} {log : EventLog} {state : TypedState} {leaf : String}

/-- A stage holds exactly the leaves that the events before it erased. -/
theorem stage_erased {final : TypedState} (folds : fold window log = .ok final) :
    ∀ count state, count ≤ log.events.length → fold window (log.prefixLog count) = .ok state →
      ∀ leaf, leaf ∈ state.security.erased ↔ ∃ index < count, ∃ erasure,
        log.kindAt index = some (.security (.erase erasure)) ∧ erasure.leaf = leaf := by
  apply stage_induction (fun count state => ∀ leaf, leaf ∈ state.security.erased ↔
    ∃ index < count, ∃ erasure, log.kindAt index = some (.security (.erase erasure)) ∧
      erasure.leaf = leaf) folds
  · intro leaf
    constructor
    · intro member
      exact absurd member Std.ExtTreeMap.not_mem_empty
    · rintro ⟨index, before, _⟩
      exact absurd before (Nat.not_lt_zero index)
  · intro count event before after found beforeOk afterOk _ ih leaf
    have kindAt : log.kindAt count = some event.kind := by rw [EventLog.kindAt, found]; rfl
    have moved : leaf ∈ after.security.erased ↔ leaf ∈ before.security.erased ∨
        ∃ erasure, event.kind = .security (.erase erasure) ∧ erasure.leaf = leaf :=
      (stage_governs found beforeOk afterOk).mem_erased
    rw [moved, ih leaf]
    constructor
    · rintro (⟨index, earlier, erased⟩ | ⟨erasure, isErasure, same⟩)
      · exact ⟨index, Nat.lt_succ_of_lt earlier, erased⟩
      · exact ⟨count, Nat.lt_succ_self count, erasure, by rw [kindAt, isErasure], same⟩
    · rintro ⟨index, earlier, erasure, isErasure, same⟩
      rcases Nat.lt_succ_iff_lt_or_eq.mp earlier with earlier | rfl
      · exact .inl ⟨index, earlier, erasure, isErasure, same⟩
      · rw [kindAt] at isErasure
        exact .inr ⟨erasure, Option.some.inj isErasure, same⟩

/-- Every event keeps the entries of the ledger well stored. -/
theorem Governs.stored {sequence : Nat} {kind : EventKind} {before after : Governed}
    (governs : Governs sequence kind before after) (stored : before.ledger.EntriesStored) :
    after.ledger.EntriesStored := by
  cases governs with
  | kept _ | revoked | projected _ _ | branched _ | secured _ _ => exact stored
  | commanded moved => exact Ledger.transition_stored moved stored
  | @erased erasure _ _ _ _ =>
      have redacted : Ledger.transition (.redact erasure.leaf) sequence (.new 0) before.ledger =
          .ok (before.ledger.redact erasure.leaf) := rfl
      exact Ledger.transition_stored redacted stored

/-- An event that reattaches no erased leaf keeps them all forgotten. -/
theorem Governs.forgets {sequence : Nat} {kind : EventKind} {before after : Governed}
    (governs : Governs sequence kind before after) (stored : before.ledger.EntriesStored)
    (honest : ∀ command, kind = .ledger command → ∀ leaf ∈ before.security.erased,
      ¬ before.ledger.Reattaches leaf command)
    (forgets : ∀ leaf ∈ before.security.erased, before.ledger.Forgets leaf) :
    ∀ leaf ∈ after.security.erased, after.ledger.Forgets leaf := by
  intro leaf member
  have erased := governs.mem_erased.mp member
  cases governs with
  | kept _ | revoked | projected _ _ | branched _ => exact forgets leaf member
  | secured noErasure moved =>
      rw [transition_erased noErasure moved] at member
      exact forgets leaf member
  | commanded moved =>
      exact Ledger.transition_forgets moved stored (forgets leaf member) (honest _ rfl leaf member)
  | @erased erasure _ _ _ moved =>
      have redacted : Ledger.transition (.redact erasure.leaf) sequence (.new 0) before.ledger =
          .ok (before.ledger.redact erasure.leaf) := rfl
      rcases erased with earlier | ⟨_, isErasure, rfl⟩
      · apply Ledger.transition_forgets redacted stored (forgets leaf earlier)
        rintro ⟨_, attaches, _⟩
        cases attaches with
        | offered offer _ => cases offer
      · cases isErasure
        exact Ledger.redact_forgets stored

theorem stage_stored {final : TypedState} (folds : fold window log = .ok final) :
    ∀ count state, count ≤ log.events.length → fold window (log.prefixLog count) = .ok state →
      state.ledger.EntriesStored := by
  apply stage_induction (fun _ state => state.ledger.EntriesStored) folds
  · intro fact entry found
    exact absurd found (by simp [rehash, TypedState.genesis, Ledger.initial])
  · intro count event before after found beforeOk afterOk _ stored
    exact (stage_governs found beforeOk afterOk).stored stored

/-- An erased leaf stays out of the active ledger for the rest of a fold exactly
when no later ledger event brings an erased leaf back. -/
theorem erasure_permanent_iff (window : Nat) (log : EventLog) (state : TypedState)
    (folds : fold window log = .ok state) :
    (∀ index erasure, log.kindAt index = some (.security (.erase erasure)) →
      ∀ count later, index < count → fold window (log.prefixLog count) = .ok later →
        later.ledger.Forgets erasure.leaf) ↔
      ∀ index command before, log.kindAt index = some (.ledger command) →
        fold window (log.prefixLog index) = .ok before →
        ∀ leaf ∈ before.security.erased, ¬ before.ledger.Reattaches leaf command := by
  constructor
  · intro permanent index command before isCommand beforeOk leaf member reattaches
    rcases Option.map_eq_some_iff.mp isCommand with ⟨event, found, kind⟩
    have short : index < log.events.length := (List.getElem?_eq_some_iff.mp found).choose
    rcases exists_fold_prefixLog folds (index + 1) with ⟨after, afterOk⟩
    have governs := stage_governs found beforeOk afterOk
    rw [kind] at governs
    have stored := stage_stored folds index before (Nat.le_of_lt short) beforeOk
    rcases (stage_erased folds index before (Nat.le_of_lt short) beforeOk leaf).mp member with
      ⟨earlier, before, erasure, isErasure, rfl⟩
    have forgets := permanent earlier erasure isErasure (index + 1) after
      (Nat.lt_succ_of_lt before) afterOk
    generalize afterRecords : after.governed = records at governs
    cases governs with
    | commanded moved =>
        have ledger : after.ledger = _ := congrArg Governed.ledger afterRecords
        rw [ledger] at forgets
        exact Ledger.reattachment_recalls moved stored reattaches forgets
    | kept isUngoverned => cases isUngoverned
  · intro honest index erasure isErasure count later earlier laterOk
    rcases Option.map_eq_some_iff.mp isErasure with ⟨event, found, _⟩
    have short : index < log.events.length := (List.getElem?_eq_some_iff.mp found).choose
    rw [← EventLog.prefixLog_min] at laterOk
    have forgotten := stage_induction (fun _ state => ∀ leaf ∈ state.security.erased,
      state.ledger.Forgets leaf) folds
    apply forgotten _ _ _ later (Nat.min_le_right _ _) laterOk
    · apply (stage_erased folds _ later (Nat.min_le_right _ _) laterOk _).mpr
      exact ⟨index, Nat.lt_min.mpr ⟨earlier, short⟩, erasure, isErasure, rfl⟩
    · intro leaf member
      exact absurd member Std.ExtTreeMap.not_mem_empty
    · intro count event before after found beforeOk afterOk _ forgets
      have short : count < log.events.length := (List.getElem?_eq_some_iff.mp found).choose
      apply (stage_governs found beforeOk afterOk).forgets
        (stage_stored folds count before (Nat.le_of_lt short) beforeOk) _ forgets
      intro command isCommand
      apply honest count command before _ beforeOk
      rw [EventLog.kindAt, found, Option.map_some, isCommand]

end Permanence

section Relapse

local instance relapseWire : Wire := .serde

/-- The erasure of the agent's message. -/
def messageErasure : Erasure where
  leaf := "leaf"
  vaultHandle := "vault"
  postCheckpoint := "0123456789abcdef0123456789abcdef0123456789abcdef0123456789abcdef"
  preHashesUnverifiable := true

/-- A note backed by the erased message. -/
def recalledNote : Entry :=
  { Ledger.note with freshness := .current, evidence := .verified }

/-- The message is erased and then admitted again as the source of a note. -/
def relapseLog : EventLog :=
  (((EventLog.new v2).record 1 1000 (.operationCommit .scopeOpen 1 0)).record 1 1001
    (.security (.erase messageErasure))).record 1 1002 (.ledger (.admitConvenience recalledNote))

/-- The note of the erased message is active. -/
theorem recalledNote_active : (match fold idlenessWindow relapseLog with
    | .ok state => decide (state.ledger.entries[recalledNote.id]? = some recalledNote ∧
        state.ledger.active recalledNote = true)
    | _ => false) = true := by
  decide +kernel

theorem erased_leaf_recalled :
    ¬ ∀ (window : Nat) (log : EventLog) (state : TypedState), fold window log = .ok state →
      ∀ index erasure, log.kindAt index = some (.security (.erase erasure)) →
        ∀ count later, index < count → fold window (log.prefixLog count) = .ok later →
          later.ledger.Forgets erasure.leaf := by
  intro claim
  have succeeds : (fold idlenessWindow relapseLog).isOk = true := by
    decide +kernel
  rcases Outcome.isOk_iff.mp succeeds with ⟨state, folds⟩
  have recalled := recalledNote_active
  rw [folds] at recalled
  have present := of_decide_eq_true recalled
  apply claim idlenessWindow relapseLog state folds 1 messageErasure rfl 3 state (by decide) folds
    recalledNote.id recalledNote present.1 present.2
  exact .inl rfl

/-- A note of another message. -/
def keptNote : Entry :=
  { recalledNote with source := { recalledNote.source with leaf := "other" } }

/-- The message is erased before a note of another message is admitted. -/
def erasedLog : EventLog :=
  (((EventLog.new v2).record 1 1000 (.operationCommit .scopeOpen 1 0)).record 1 1001
    (.security (.erase messageErasure))).record 1 1002 (.ledger (.admitConvenience keptNote))

/-- The other note is admitted. -/
theorem keptNote_kept : (match fold idlenessWindow erasedLog with
    | .ok state => decide (state.ledger.entries[keptNote.id]? = some keptNote)
    | _ => false) = true := by
  decide +kernel

theorem keptNote_independent (ledger : Ledger) : ¬ ledger.Depends "leaf" keptNote := by
  rintro (source | binding | ⟨premise, uses, _⟩)
  · exact absurd source (by decide)
  · exact absurd binding Std.ExtTreeSet.not_mem_empty
  · exact absurd uses Std.ExtTreeSet.not_mem_empty

/-- The message is the only one that is erased, and the other note all that is
admitted. -/
theorem kinds_erasedLog (index : Nat) :
    (∀ erasure, erasedLog.kindAt index = some (.security (.erase erasure)) →
      erasure.leaf = "leaf") ∧
    ∀ command, erasedLog.kindAt index = some (.ledger command) →
      command = .admitConvenience keptNote := by
  match index with
  | 0 => exact ⟨fun _ => nofun, fun _ => nofun⟩
  | 1 => exact ⟨fun _ is => by cases is; rfl, fun _ => nofun⟩
  | 2 => exact ⟨fun _ => nofun, fun _ is => by cases is; rfl⟩
  | index + 3 =>
      have none : erasedLog.kindAt (index + 3) = none := rfl
      simp [none]

/-- The other note is kept, and nothing rests on the erased message. -/
theorem erasure_permanent_keptNote :
    ∃ state, fold idlenessWindow erasedLog = .ok state ∧
      state.ledger.entries[keptNote.id]? = some keptNote ∧
      ∀ count later, 1 < count → fold idlenessWindow (erasedLog.prefixLog count) = .ok later →
        later.ledger.Forgets "leaf" := by
  have succeeds : (fold idlenessWindow erasedLog).isOk = true := by
    decide +kernel
  rcases Outcome.isOk_iff.mp succeeds with ⟨state, folds⟩
  have kept := keptNote_kept
  rw [folds] at kept
  have permanent := (erasure_permanent_iff idlenessWindow erasedLog state folds).mpr ?_
  · exact ⟨state, folds, of_decide_eq_true kept, permanent 1 messageErasure rfl⟩
  rintro index command before isCommand beforeOk leaf member ⟨_, attaches, _⟩
  have found : erasedLog.kindAt index ≠ none := by simp [isCommand]
  have within : index ≤ erasedLog.events.length := by
    by_contra beyond
    exact found (by rw [EventLog.kindAt, List.getElem?_eq_none (by omega), Option.map_none])
  rcases (stage_erased folds index before within beforeOk leaf).mp member with
    ⟨earlier, _, erasure, isErasure, rfl⟩
  cases (kinds_erasedLog index).2 command isCommand
  cases attaches with
  | offered offer depends =>
      cases offer
      rw [(kinds_erasedLog earlier).1 erasure isErasure] at depends
      exact keptNote_independent before.ledger depends

end Relapse

end Llxprt.Kernel.Reducer

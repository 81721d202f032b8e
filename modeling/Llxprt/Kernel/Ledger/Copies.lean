import Llxprt.Kernel.Ledger.Erasure
import Llxprt.Kernel.Ledger.Runs

/-!
# Text copied between entries

Amendment, supersession and consolidation retire an entry and rewrite its
carried text to the text of its successor.  The copy is not linked to the leaf
of the successor, so a redaction that reaches the successor may miss the copy.
-/

namespace Llxprt.Kernel.Ledger

open Llxprt.Rust

/-- The command rewrites the text of `fact` to the text of `origin`. -/
inductive CopiesText (ledger : Ledger) : Command → FactId → FactId → String → Prop
  | amended {fact : FactId} {replacement : Entry} {principal : Source} :
      CopiesText ledger (.amend fact replacement principal) replacement.id fact
        replacement.fold.text
  | superseded {fact successor : FactId} {next : Entry}
      (present : ledger.entries[successor]? = some next) :
      CopiesText ledger (.discharge fact (.supersededBy successor)) successor fact next.fold.text
  | consolidated {facts : BTreeSet FactId} {composite : Entry} {support : GateSupport}
      {reclaim : Nat} {fact : FactId} (member : fact ∈ facts) :
      CopiesText ledger (.consolidate facts composite support reclaim) composite.id fact
        composite.fold.text

/-- Some accepted call of the run copied `text` from `origin` into `fact`. -/
def Copied (start : Ledger) (calls : List Call) (origin fact : FactId) (text : String) : Prop :=
  ∃ before call, before ++ [call] <+: calls ∧ (start.after before).Accepts call ∧
    (start.after before).CopiesText call.command origin fact text

/-- What a redaction leaves of an entry. -/
structure Tombstoned (entry : Entry) : Prop where
  text : entry.fold.text = erasedTombstone
  evidence : entry.evidence = .unverified
  freshness : entry.freshness = .unknown

/-- The ledger that a run ended in shows nothing of the redacted leaf: whatever
depends on it is a tombstone, and no other entry holds text, other than the
tombstone itself, that the run copied from one that does. -/
structure Clean (ledger start : Ledger) (calls : List Call) (leaf : String) : Prop where
  tombstoned : ∀ (fact : FactId) (entry : Entry), ledger.entries[fact]? = some entry →
    ledger.Depends leaf entry → Tombstoned entry
  noCopies : ∀ (origin fact : FactId) (text : String) (entry : Entry),
    Copied start calls origin fact text → text ≠ erasedTombstone → ledger.RestsOn leaf origin →
    ledger.entries[fact]? = some entry → ¬ ledger.Depends leaf entry → entry.fold.text ≠ text

/-- Every entry that gave way to a fact which rests on the leaf depends on the
leaf itself or is a tombstone already. -/
def CopiesLinked (ledger : Ledger) (leaf : String) : Prop :=
  ∀ (fact origin : FactId) (entry : Entry), ledger.entries[fact]? = some entry →
    entry.supersededBy = some origin → ledger.RestsOn leaf origin →
    ledger.Depends leaf entry ∨ entry.fold.text = erasedTombstone

/-- How an accepted command moves the text of an entry. -/
inductive TextMove (ledger : Ledger) (command : Command) (key : FactId) (before after : Entry) :
    Prop
  | kept (retired : before.retired = true → after.retired = true)
      (supersededBy : after.supersededBy = before.supersededBy)
      (text : after.fold.text = before.fold.text)
  | erased (retired : after.retired = before.retired)
      (supersededBy : after.supersededBy = before.supersededBy)
      (text : after.fold.text = erasedTombstone)
  | cleared (live : before.retired = false)
      (supersededBy : after.supersededBy = before.supersededBy)
  | copied {origin : FactId} (live : before.retired = false)
      (copies : ledger.CopiesText command origin key after.fold.text)
      (retired : after.retired = true) (supersededBy : after.supersededBy = some origin)

section Step

variable {ledger next : Ledger} {command : Command} {sequence : Nat} {key : FactId} {entry : Entry}

theorem Live.notRetired_of_present (live : ∃ found, ledger.Live key found)
    (present : ledger.entries[key]? = some entry) : entry.retired = false := by
  rcases live with ⟨found, live⟩
  have same : found = entry := Option.some.inj (live.present.symm.trans present)
  rw [← same]
  exact live.notRetired

theorem Step.text_move (step : ledger.Step command sequence next)
    (present : ledger.entries[key]? = some entry) :
    TextMove ledger command key entry (ledger.effect sequence command key entry) := by
  have guarded := step.guarded
  cases command with
  | admitObligation | admitConvenience => exact .kept id rfl rfl
  | demote | decay | promote | factInvalidate | revalidate | staleDemote =>
      simp only [effect, assign, invalidateEntry, revalidateEntry]
      split <;> exact .kept id rfl rfl
  | redact leaf =>
      simp only [effect]
      split
      · exact .erased rfl rfl rfl
      · exact .kept id rfl rfl
  | retract fact principal =>
      simp only [effect, assign]
      split
      · rename_i same
        subst same
        rcases guarded with ⟨found, live, _⟩
        exact .cleared (Live.notRetired_of_present ⟨found, live⟩ present) rfl
      · exact .kept id rfl rfl
  | amend fact replacement principal =>
      simp only [effect, assign]
      split
      · rename_i same
        subst same
        rcases guarded with ⟨_, found, live, _⟩
        exact .copied (Live.notRetired_of_present ⟨found, live⟩ present) .amended rfl rfl
      · exact .kept id rfl rfl
  | consolidate facts composite support reclaim =>
      simp only [effect]
      split
      · rename_i member
        rcases guarded.2 key member with ⟨found, live, _⟩
        exact .copied (Live.notRetired_of_present ⟨found, live⟩ present) (.consolidated member)
          rfl rfl
      · exact .kept id rfl rfl
  | discharge fact evidence =>
      by_cases same : fact = key
      · subst same
        cases evidence with
        | supersededBy successor =>
            rcases guarded with ⟨_, found, successorEntry, live, successorLive, _⟩
            have notRetired := Live.notRetired_of_present ⟨found, live⟩ present
            have copies : ledger.CopiesText (.discharge fact (.supersededBy successor)) successor
                fact successorEntry.fold.text := .superseded successorLive.present
            simp only [effect, assign_self, retireFor, Ledger.entry, successorLive.present,
              Option.map_some, Option.getD_some]
            exact .copied notRetired copies rfl rfl
        | insufficient | resolved | scopeClosed =>
            simp only [effect, assign_self]
            exact .kept (fun _ => rfl) rfl rfl
      · cases evidence <;> simp only [effect, assign_of_ne same] <;> exact .kept id rfl rfl

/-- The entry that an accepted command copies into. -/
theorem Step.copy_after {origin fact : FactId} {text : String}
    (step : ledger.Step command sequence next)
    (copies : ledger.CopiesText command origin fact text) :
    ∃ entry, next.entries[fact]? = some entry ∧ entry.retired = true ∧
      entry.supersededBy = some origin ∧ entry.fold.text = text := by
  have guarded := step.guarded
  cases copies with
  | amended =>
      rcases guarded with ⟨_, found, live, _⟩
      refine ⟨_, step.entry_after live.present, ?_⟩
      simp [effect, retireFor]
  | superseded successorPresent =>
      rcases guarded with ⟨_, found, _, live, _⟩
      refine ⟨_, step.entry_after live.present, ?_⟩
      simp [effect, retireFor, Ledger.entry, successorPresent]
  | consolidated member =>
      rcases guarded.2 fact member with ⟨found, live, _⟩
      refine ⟨_, step.entry_after live.present, ?_⟩
      simp [effect, retireFor, member]

end Step

section Runs

variable {ledger start : Ledger} {calls : List Call} {call : Call} {origin fact : FactId}
  {text leaf : String}

/-- The copies of a run and one more call. -/
theorem copied_concat :
    Copied start (calls ++ [call]) origin fact text ↔ Copied start calls origin fact text ∨
      (start.after calls).Accepts call ∧
        (start.after calls).CopiesText call.command origin fact text := by
  constructor
  · rintro ⟨before, copying, isPrefix, accepted, copies⟩
    rcases List.prefix_concat_iff.mp isPrefix with same | earlier
    · rcases List.append_inj' same rfl with ⟨rfl, isCall⟩
      cases isCall
      exact .inr ⟨accepted, copies⟩
    · exact .inl ⟨before, copying, earlier, accepted, copies⟩
  · rintro (⟨before, copying, earlier, accepted, copies⟩ | ⟨accepted, copies⟩)
    · exact ⟨before, copying, earlier.trans (List.prefix_append _ _), accepted, copies⟩
    · exact ⟨calls, call, List.prefix_refl _, accepted, copies⟩

/-- A call either changes nothing or is an accepted transition. -/
theorem perform_transition (ledger : Ledger) (call : Call) :
    ledger.perform call = ledger ∨
      transition call.command call.sequence call.scopes ledger = .ok (ledger.perform call) := by
  cases result : transition call.command call.sequence call.scopes ledger with
  | error error =>
      left
      simp [perform, apply, Method.staged, result]
  | ok next =>
      right
      simp [perform, apply, Method.staged, result]

theorem after_stored {params : LedgerParams} (fresh : Ledger.new params = .ok start)
    (calls : List Call) : (start.after calls).EntriesStored := by
  apply run_invariant EntriesStored _ _ calls (List.prefix_refl calls)
  · intro fact entry found
    simp [new_entries fresh] at found
  · intro before call _ stored
    rcases perform_transition (run perform start before) call with unchanged | moved
    · rw [unchanged]
      exact stored
    · exact transition_stored moved stored

/-- The links of a ledger record exactly the copies of its run. -/
structure CopiesRecorded (ledger start : Ledger) (calls : List Call) : Prop where
  held : ∀ origin fact text, Copied start calls origin fact text →
    ∃ entry : Entry, ledger.entries[fact]? = some entry ∧ entry.retired = true ∧
      entry.supersededBy = some origin ∧
      (entry.fold.text = text ∨ entry.fold.text = erasedTombstone)
  linked : ∀ (fact origin : FactId) (entry : Entry), ledger.entries[fact]? = some entry →
    entry.supersededBy = some origin → ∃ text, Copied start calls origin fact text

theorem Step.copiesRecorded {next : Ledger}
    (step : (start.after calls).Step call.command call.sequence next)
    (accepted : (start.after calls).Accepts call)
    (recorded : (start.after calls).CopiesRecorded start calls) :
    next.CopiesRecorded start (calls ++ [call]) := by
  constructor
  · intro origin fact text copied
    rcases copied_concat.mp copied with earlier | ⟨_, copies⟩
    · rcases recorded.held origin fact text earlier with
        ⟨entry, present, retired, superseded, holds⟩
      refine ⟨_, step.entry_after present, ?_⟩
      cases step.text_move present with
      | kept stays supersededBy sameText =>
          rw [sameText]
          exact ⟨stays retired, supersededBy.trans superseded, holds⟩
      | erased sameRetired supersededBy tombstone =>
          exact ⟨sameRetired.trans retired, supersededBy.trans superseded, .inr tombstone⟩
      | cleared live _ | copied live _ _ _ =>
          rw [retired] at live
          cases live
    · rcases step.copy_after copies with ⟨entry, found, retired, superseded, same⟩
      exact ⟨entry, found, retired, superseded, .inl same⟩
  · intro fact origin entry found superseded
    rcases step.entry_cases found with ⟨offer, _⟩ | ⟨old, present, same⟩
    · rw [(step.admissible entry offer).notSuperseded] at superseded
      cases superseded
    · have before : old.supersededBy = some origin →
          ∃ text, Copied start (calls ++ [call]) origin fact text := by
        intro oldSuperseded
        rcases recorded.linked fact origin old present oldSuperseded with ⟨text, copied⟩
        exact ⟨text, copied_concat.mpr (.inl copied)⟩
      rw [same] at superseded
      cases step.text_move present with
      | kept _ supersededBy _ | erased _ supersededBy _ | cleared _ supersededBy =>
          rw [supersededBy] at superseded
          exact before superseded
      | copied _ copies _ supersededBy =>
          rw [supersededBy] at superseded
          cases superseded
          exact ⟨_, copied_concat.mpr (.inr ⟨accepted, copies⟩)⟩

theorem after_copiesRecorded {params : LedgerParams} (fresh : Ledger.new params = .ok start)
    (calls : List Call) : (start.after calls).CopiesRecorded start calls := by
  induction calls using List.reverseRecOn with
  | nil =>
      constructor
      · rintro origin fact text ⟨before, call, isPrefix, _⟩
        simp at isPrefix
      · intro fact origin entry found
        simp [after, new_entries fresh] at found
  | append_singleton before call ih =>
      have performed : start.after (before ++ [call]) = (start.after before).perform call :=
        run_concat
      rw [performed]
      rcases (start.after before).perform_cases call with ⟨refused, unchanged⟩ | ⟨accepted, step⟩
      · rw [unchanged]
        constructor
        · intro origin fact text copied
          rcases copied_concat.mp copied with earlier | ⟨accepted, _⟩
          · exact ih.held origin fact text earlier
          · exact absurd accepted refused
        · intro fact origin entry found superseded
          rcases ih.linked fact origin entry found superseded with ⟨text, copied⟩
          exact ⟨text, copied_concat.mpr (.inl copied)⟩
      · exact step.copiesRecorded accepted ih

end Runs

section Redaction

variable {ledger start : Ledger} {leaf : String} {fact : FactId} {entry : Entry}

/-- A redaction leaves what rests on a leaf as it was. -/
theorem redact_restsOn (stored : ledger.EntriesStored) :
    (ledger.redact leaf).RestsOn leaf fact ↔ ledger.RestsOn leaf fact := by
  have redacted : transition (.redact leaf) 0 (.new 0) ledger = .ok (ledger.redact leaf) := rfl
  have step := transition_step redacted
  have nextStored := transition_stored redacted stored
  constructor
  · intro rests
    rcases restsOn_cases step stored nextStored rests with before | ⟨_, attaches, _⟩
    · exact before
    · cases attaches with
      | offered offer _ => cases offer
  · intro rests
    induction rests with
    | @direct entry member names =>
        have found := step.entry_after ((mem_values_iff stored).mp member)
        apply (restsOn_iff nextStored).mpr
        refine ⟨_, found, ?_⟩
        simp only [effect]
        split
        · rcases names with source | binding
          · exact .inl source
          · exact .inr (.inl binding)
        · rcases names with source | binding
          · exact .inl source
          · exact .inr (.inl binding)
    | @derived entry premise member uses _ ih =>
        have found := step.entry_after ((mem_values_iff stored).mp member)
        apply (restsOn_iff nextStored).mpr
        refine ⟨_, found, .inr (.inr ⟨premise, ?_, ih⟩)⟩
        rw [effect_premises]
        exact uses

/-- A redaction leaves an entry that does not depend on the leaf alone. -/
theorem redact_spared (stored : ledger.EntriesStored) (present : ledger.entries[fact]? = some entry)
    (free : ¬ ledger.Depends leaf entry) : (ledger.redact leaf).entries[fact]? = some entry := by
  apply (redact_entries fact).2 entry present
  intro rests
  rw [(stored fact entry present).keyed] at rests
  rcases (restsOn_iff stored).mp rests with ⟨other, otherPresent, depends⟩
  rw [present] at otherPresent
  cases otherPresent
  exact free depends

/-- After a redaction the run shows nothing of the leaf exactly when every entry
that gave way to a dependent of the leaf was linked to the leaf itself. -/
theorem redaction_clean_iff (params : LedgerParams) (start : Ledger)
    (fresh : Ledger.new params = .ok start) (calls : List Call) (leaf : String) (sequence : Nat)
    (scopes : ScopeRegistry) :
    (start.after (calls ++ [⟨.redact leaf, sequence, scopes⟩])).Clean start calls leaf ↔
      (start.after calls).CopiesLinked leaf := by
  have performed : start.after (calls ++ [⟨.redact leaf, sequence, scopes⟩]) =
      (start.after calls).redact leaf := run_concat
  have stored := after_stored fresh calls
  have recorded := after_copiesRecorded fresh calls
  have redacted : transition (.redact leaf) sequence scopes (start.after calls) =
      .ok ((start.after calls).redact leaf) := rfl
  have nextStored := transition_stored redacted stored
  rw [performed]
  constructor
  · intro clean fact origin entry present superseded rests
    by_contra unlinked
    rcases not_or.mp unlinked with ⟨free, readable⟩
    rcases recorded.linked fact origin entry present superseded with ⟨text, copied⟩
    rcases recorded.held origin fact text copied with ⟨holder, holderPresent, _, _, holds⟩
    rw [present] at holderPresent
    cases holderPresent
    have same : entry.fold.text = text := holds.resolve_right readable
    have spared := redact_spared stored present free
    apply clean.noCopies origin fact text entry copied _ ((redact_restsOn stored).mpr rests) spared
      _ same
    · rw [← same]
      exact readable
    · intro depends
      have restsAfter := (restsOn_iff nextStored).mpr ⟨entry, spared, depends⟩
      rcases (restsOn_iff stored).mp ((redact_restsOn stored).mp restsAfter) with
        ⟨other, otherPresent, otherDepends⟩
      rw [present] at otherPresent
      cases otherPresent
      exact free otherDepends
  · intro linked
    constructor
    · intro fact entry found depends
      have rests := (redact_restsOn stored).mp ((restsOn_iff nextStored).mpr ⟨entry, found, depends⟩)
      rcases (restsOn_iff stored).mp rests with ⟨old, present, _⟩
      rw [← (stored fact old present).keyed] at rests
      rw [(redact_entries fact).1 old present rests] at found
      cases found
      exact ⟨rfl, rfl, rfl⟩
    · intro origin fact text entry copied readable rests found free same
      rcases recorded.held origin fact text copied with ⟨old, present, _, superseded, _⟩
      have spared : ¬ (start.after calls).Depends leaf old := by
        intro depends
        have restsAfter := (redact_restsOn stored).mpr ((restsOn_iff stored).mpr
          ⟨old, present, depends⟩)
        rcases (restsOn_iff nextStored).mp restsAfter with ⟨other, otherFound, otherDepends⟩
        rw [found] at otherFound
        cases otherFound
        exact free otherDepends
      have unchanged := redact_spared stored present spared
      rw [found] at unchanged
      cases unchanged
      rcases linked fact origin entry present superseded ((redact_restsOn stored).mp rests) with
        depends | tombstone
      · exact spared depends
      · rw [same] at tombstone
        exact readable tombstone

end Redaction

section Leak

/-- A message of the user in the open scope. -/
def userSource : Source where
  leaf := "secret"
  authority := .user
  origin := .ingress
  scope := 1

/-- The amended note, backed by the user's message. -/
def amendedNote : Entry :=
  { note with
    id := ⟨"build", "signs", 1⟩
    source := userSource
    fold := ⟨"the build signs with the user's key", 0⟩ }

/-- Admit a note of the agent and amend it by the user's message. -/
def amendmentCalls : List Call :=
  [⟨.admitConvenience note, 1, oneScope⟩,
    ⟨.amend note.id amendedNote userSource, 2, oneScope⟩]

/-- The retired note, carrying the text of the amendment. -/
def carryingNote : Entry :=
  retireFor amendedNote.id amendedNote.fold.text note

/-- Redacting the user's message leaves its text in the retired note. -/
theorem copied_text_survives :
    ¬ ∀ (params : LedgerParams) (start : Ledger) (calls : List Call) (leaf : String)
      (sequence : Nat) (scopes : ScopeRegistry), Ledger.new params = .ok start →
      (start.after (calls ++ [⟨.redact leaf, sequence, scopes⟩])).Clean start calls leaf := by
  intro claim
  have fresh : Ledger.new .default = .ok .initial := rfl
  have clean := claim .default .initial amendmentCalls "secret" 3 oneScope fresh
  have accepted : (Ledger.initial.after [⟨.admitConvenience note, 1, oneScope⟩]).Accepts
      ⟨.amend note.id amendedNote userSource, 2, oneScope⟩ :=
    ⟨Ledger.initial.after amendmentCalls, by decide +kernel⟩
  have copied : Copied .initial amendmentCalls amendedNote.id note.id amendedNote.fold.text :=
    ⟨_, _, List.prefix_refl _, accepted, .amended⟩
  have found : (Ledger.initial.after
      (amendmentCalls ++ [⟨.redact "secret", 3, oneScope⟩])).entries[note.id]? =
        some carryingNote := by
    decide +kernel
  have erased : (Ledger.initial.after
      (amendmentCalls ++ [⟨.redact "secret", 3, oneScope⟩])).entries[amendedNote.id]?.map
        (fun entry => entry.source.leaf) = some "secret" := by
    decide +kernel
  rcases Option.map_eq_some_iff.mp erased with ⟨entry, present, named⟩
  apply clean.noCopies amendedNote.id note.id amendedNote.fold.text carryingNote copied (by decide)
    ((restsOn_iff (after_stored fresh _)).mpr ⟨entry, present, .inl named⟩) found _ rfl
  rintro (source | binding | ⟨premise, uses, _⟩)
  · exact absurd source (by decide)
  · exact absurd binding Std.ExtTreeSet.not_mem_empty
  · exact absurd uses Std.ExtTreeSet.not_mem_empty

/-- The agent's note, bound to the user's message. -/
def linkedNote : Entry :=
  { note with bindings := .ofList ["secret"] }

def linkedCalls : List Call :=
  [⟨.admitConvenience linkedNote, 1, oneScope⟩,
    ⟨.amend note.id amendedNote userSource, 2, oneScope⟩]

/-- The text of the amendment is copied into the bound note, and the redaction
clears both. -/
theorem redaction_clean_of_note :
    Ledger.new .default = .ok .initial ∧
      (Ledger.initial.after linkedCalls).entries[note.id]?.map (fun entry => entry.fold.text) =
        some amendedNote.fold.text ∧
      (Ledger.initial.after (linkedCalls ++ [⟨.redact "secret", 3, oneScope⟩])).Clean .initial
        linkedCalls "secret" := by
  have fresh : Ledger.new .default = .ok .initial := rfl
  refine ⟨fresh, by decide +kernel, (redaction_clean_iff .default .initial fresh linkedCalls
    "secret" 3 oneScope).mpr ?_⟩
  intro fact origin entry present _ _
  have bound : (Ledger.initial.after linkedCalls).entries.toList.all (fun pair =>
      pair.2.source.leaf = "secret" || pair.2.bindings.contains "secret") = true := by
    decide +kernel
  have own := List.all_eq_true.mp bound (fact, entry)
    (Std.ExtTreeMap.mem_toList_iff_getElem?_eq_some.mpr present)
  rw [Bool.or_eq_true] at own
  rcases own with source | binding
  · exact .inl (.inl (of_decide_eq_true source))
  · exact .inl (.inr (.inl (Std.ExtTreeSet.contains_iff_mem.mp binding)))

end Leak

end Llxprt.Kernel.Ledger

import Llxprt.Kernel.Ledger.Conflicts

/-!
# Classes of conflicts

A conflict is recorded with the kinds that its two facts have at that moment.
Only a promotion changes the kind of an entry, and it leaves the recorded
conflicts as they are.
-/

namespace Llxprt.Kernel

open Llxprt.Rust

/-- The kinds that a conflict ascribes to its first and its second fact. -/
def Conflict.kinds : Conflict → FactKind × FactKind
  | normative .. => (.normative, .normative)
  | empirical .. => (.empirical, .empirical)
  | premiseInvalidated .. => (.normative, .empirical)

/-- The conflict ascribes the kind to the fact. -/
def Conflict.Ascribes (conflict : Conflict) (fact : FactId) (kind : FactKind) : Prop :=
  (conflict.first = fact ∧ conflict.kinds.1 = kind) ∨
    (conflict.second = fact ∧ conflict.kinds.2 = kind)

namespace Ledger

/-- The fact has an entry of the kind. -/
def HasKind (ledger : Ledger) (fact : FactId) (kind : FactKind) : Prop :=
  ∃ entry, ledger.entries[fact]? = some entry ∧ entry.kind = kind

/-- Every recorded conflict ascribes to its facts the kinds that they have. -/
def Classified (ledger : Ledger) : Prop :=
  ∀ conflict ∈ ledger.conflicts, ledger.HasKind conflict.first conflict.kinds.1 ∧
    ledger.HasKind conflict.second conflict.kinds.2

/-- The command is a legal promotion of a fact that a recorded conflict calls
empirical. -/
def Reclassifies (ledger : Ledger) (command : Command) : Prop :=
  ∃ fact source adoption support, command = .promote fact source adoption support ∧
    ledger.Guarded command ∧ ∃ conflict ∈ ledger.conflicts, conflict.Ascribes fact .empirical

section Kinds

variable {ledger next : Ledger} {command : Command} {sequence : Nat} {scopes : ScopeRegistry}
  {entry incoming : Entry} {fact : FactId} {kind : FactKind} {conflict : Conflict}

/-- The kind of an entry changes by its promotion only. -/
theorem effect_kind (free : kind = .empirical → ∀ source adoption support,
      command ≠ .promote fact source adoption support) (before : entry.kind = kind) :
    (ledger.effect sequence command fact entry).kind = kind := by
  cases @effect_source ledger sequence command fact entry with
  | kept same source => rw [same, before]
  | promoted source adoption support isPromotion normative _ =>
      cases kind with
      | normative => exact normative
      | empirical => exact absurd isPromotion (free rfl source adoption support)
  | observed observation _ after wasEmpirical _ _ => rw [after, ← before, wasEmpirical]

theorem Step.hasKind (step : ledger.Step command sequence next)
    (free : kind = .empirical → ∀ source adoption support,
      command ≠ .promote fact source adoption support) (has : ledger.HasKind fact kind) :
    next.HasKind fact kind := by
  rcases has with ⟨entry, present, same⟩
  exact ⟨_, step.entry_after present, effect_kind free same⟩

/-- A conflict between two entries ascribes to them their kinds. -/
theorem kinds_of_conflictOf (clash : conflictOf entry incoming = some conflict) :
    (conflict.first = entry.id ∧ conflict.kinds.1 = entry.kind ∧
        conflict.second = incoming.id ∧ conflict.kinds.2 = incoming.kind) ∨
      conflict.first = incoming.id ∧ conflict.kinds.1 = incoming.kind ∧
        conflict.second = entry.id ∧ conflict.kinds.2 = entry.kind := by
  simp only [conflictOf] at clash
  split at clash
  · cases clash
  · cases old : entry.kind <;> cases new : incoming.kind <;> rw [old, new] at clash <;>
      cases clash <;> simp only [Conflict.kinds, Conflict.first, Conflict.second]
    · split <;> simp
    · simp
    · simp
    · split <;> simp

/-- A recorded conflict ascribes the kinds of the two entries that it is between. -/
theorem Raises.classified (step : ledger.Step command sequence next)
    (stored : ledger.EntriesStored) (raises : ledger.Raises sequence command conflict) :
    next.HasKind conflict.first conflict.kinds.1 ∧
      next.HasKind conflict.second conflict.kinds.2 := by
  cases raises with
  | @offered _ incoming entry key _ offer live clash =>
      have kept := step.live_of_rewritten stored live
      have arrived := step.offered_live offer
      rw [← kept.2] at kept
      rcases kinds_of_conflictOf clash with ⟨first, firstKind, second, secondKind⟩ |
        ⟨first, firstKind, second, secondKind⟩
      · rw [first, firstKind, second, secondKind]
        exact ⟨⟨_, kept.1.present, rfl⟩, _, arrived.present, rfl⟩
      · rw [first, firstKind, second, secondKind]
        exact ⟨⟨_, arrived.present, rfl⟩, _, kept.1.present, rfl⟩
  | @premise result writes key fact normative live kind uses stale =>
      have kept := step.live_of_rewritten stored live
      rw [← kept.2] at kept
      rcases mem_invalidatedBy stored stale with ⟨empirical, found, isEmpirical⟩
      have after := step.entry_after found.present
      exact ⟨⟨_, kept.1.present, kind⟩, _, after, effect_kind (by simp) isEmpirical⟩

/-- A command that promotes no fact that a conflict calls empirical keeps the
classes right. -/
theorem transition_classified (h : transition command sequence scopes ledger = .ok next)
    (stored : ledger.EntriesStored) (classified : ledger.Classified)
    (free : ¬ ledger.Reclassifies command) : next.Classified := by
  have step : ledger.Step command sequence next := transition_step h
  intro conflict recorded
  rcases (transition_conflicts h).mp recorded with ⟨member, _⟩ | raises
  · rcases classified conflict member with ⟨first, second⟩
    refine ⟨step.hasKind ?_ first, step.hasKind ?_ second⟩
    · rintro empirical source adoption support rfl
      exact free ⟨_, source, adoption, support, rfl, step.guarded, conflict, member,
        .inl ⟨rfl, empirical⟩⟩
    · rintro empirical source adoption support rfl
      exact free ⟨_, source, adoption, support, rfl, step.guarded, conflict, member,
        .inr ⟨rfl, empirical⟩⟩
  · exact raises.classified step stored

/-- A promotion passes exactly when its guard holds. -/
theorem promote_of_guarded {source : Source} {adoption : Option Source} {support : GateSupport}
    (guarded : ledger.Guarded (.promote fact source adoption support)) :
    transition (.promote fact source adoption support) sequence scopes ledger =
      .ok (ledger.modify fact fun entry =>
        { entry with kind := .normative, source := adoption.getD source }) := by
  rcases guarded with ⟨entry, live, convenience, backed, sustained⟩
  simp only [transition, promote, bind_eq_ok, live_eq_ok, reject_eq_ok, pure_eq_ok]
  refine ⟨entry, live, (), by simp [convenience], (), ?_, (), by simp [sustained], trivial⟩
  rintro ⟨notSame, notAdopted⟩
  rcases backed with same | adopted
  · exact notSame same
  · exact notAdopted adopted

/-- A promotion of a fact that a conflict calls empirical leaves a class wrong. -/
theorem reclassification_breaks_classes {call : Call}
    (reclassifies : ledger.Reclassifies call.command) : ¬ (ledger.perform call).Classified := by
  rcases call with ⟨command, sequence, scopes⟩
  rcases reclassifies with ⟨fact, source, adoption, support, isPromotion, guarded, conflict, member,
    ascribes⟩
  change command = _ at isPromotion
  subst isPromotion
  rcases guarded with ⟨entry, live, rest⟩
  have passed := @promote_of_guarded _ sequence scopes fact source adoption support
    ⟨entry, live, rest⟩
  rw [perform_of_ok passed]
  intro classified
  have normative : ¬ (ledger.modify fact fun entry =>
      { entry with kind := .normative, source := adoption.getD source }).HasKind fact
        .empirical := by
    rintro ⟨later, present, empirical⟩
    rw [modify_entries, assign_self, live.present, Option.map_some] at present
    cases present
    cases empirical
  rcases classified conflict member with ⟨first, second⟩
  rcases ascribes with ⟨same, kind⟩ | ⟨same, kind⟩
  · rw [same, kind] at first
    exact normative first
  · rw [same, kind] at second
    exact normative second

/-- Along a run of the ledger every conflict has the class of its facts exactly
when no promotion is of a fact that a conflict calls empirical. -/
theorem classified_iff (params : LedgerParams) (start : Ledger)
    (fresh : Ledger.new params = .ok start) (calls : List Call) :
    (∀ reached, reached <+: calls → (start.after reached).Classified) ↔
      ∀ before call, before ++ [call] <+: calls →
        ¬ (start.after before).Reclassifies call.command := by
  refine run_safe_iff (fun ledger : Ledger => ledger.EntriesStored ∧ ledger.Classified) Classified
    (fun ledger (call : Call) => ¬ ledger.Reclassifies call.command) ?_ (fun _ => And.right) ?_ ?_
  · refine ⟨new_entriesStored fresh, ?_⟩
    simp only [Ledger.new, bind_eq_ok, pure_eq_ok] at fresh
    rcases fresh with ⟨_, _, rfl⟩
    exact fun conflict recorded => absurd recorded Std.ExtTreeSet.not_mem_empty
  · rintro ledger call ⟨stored, classified⟩ free
    rcases ledger.perform_cases call with ⟨_, unchanged⟩ | ⟨⟨next, result⟩, _⟩
    · rw [unchanged]
      exact ⟨stored, classified⟩
    · rw [perform_of_ok result]
      exact ⟨transition_stored result stored, transition_classified result stored classified free⟩
  · intro ledger call classified reclassifies
    exact reclassification_breaks_classes reclassifies classified

end Kinds

section Promotion

/-- Two notes that contradict each other, the first of which is then promoted. -/
def promotedNote : List Call :=
  [⟨.admitConvenience note, 1, oneScope⟩, ⟨.admitConvenience otherNote, 2, oneScope⟩,
    ⟨.promote note.id agentSource none ⟨note.id, "the build uses cargo", .ofList ["leaf"]⟩, 3,
      oneScope⟩]

/-- The conflict between the two notes stays empirical. -/
theorem promoted_note_misclassified :
    ¬ ∀ (params : LedgerParams) (start : Ledger) (calls : List Call),
      Ledger.new params = .ok start → (start.after calls).Classified := by
  intro claim
  have classified := claim .default .initial promotedNote rfl (.empirical otherNote.id note.id)
    (by decide +kernel)
  rcases classified.2 with ⟨entry, present, empirical⟩
  have promoted : (Ledger.initial.after promotedNote).entries[note.id]?.map Entry.kind =
      some .normative := by
    decide +kernel
  rw [show (Ledger.initial.after promotedNote).entries[note.id]? = some entry from present,
    Option.map_some, empirical] at promoted
  cases promoted

/-- The criterion for the run up to the promotion. -/
theorem classified_before_promotion :
    Ledger.new .default = .ok .initial ∧
      (Ledger.initial.after (promotedNote.take 2)).Classified := by
  refine ⟨rfl, (classified_iff .default .initial rfl _).mpr ?_ _ (List.prefix_refl _)⟩
  rintro before call isPrefix ⟨fact, source, adoption, support, isPromotion, _⟩
  have member : call ∈ promotedNote.take 2 := isPrefix.subset (by simp)
  simp only [promotedNote, List.take_succ_cons, List.take_zero, List.mem_cons, List.not_mem_nil,
    or_false] at member
  rcases member with rfl | rfl <;> cases isPromotion

end Promotion

end Ledger

end Llxprt.Kernel

import Llxprt.Kernel.Ledger.Bounds
import Llxprt.Kernel.Ledger.Erasure

/-!
# Recorded conflicts

Conflicts are recorded when an entry is offered and when a tool write turns a
premise stale, and they are removed with the facts that a command retires.  The
set names live entries only, and it names every pair of known entries that say
different things about one subject.
-/

namespace Llxprt.Kernel

open Llxprt.Rust

/-- The conflict is between these two facts. -/
def Conflict.Names (conflict : Conflict) (left right : FactId) : Prop :=
  (conflict.first = left ∧ conflict.second = right) ∨
    (conflict.first = right ∧ conflict.second = left)

namespace Ledger

/-- The recorded conflicts are neither dangling nor incomplete. -/
structure ConflictsExact (ledger : Ledger) : Prop where
  sound : ∀ conflict ∈ ledger.conflicts, conflict.first ≠ conflict.second ∧
    (∃ entry, ledger.Live conflict.first entry) ∧ ∃ entry, ledger.Live conflict.second entry
  complete : ∀ (left right : FactId) (leftEntry rightEntry : Entry),
    ledger.Live left leftEntry → ledger.Live right rightEntry →
    leftEntry.freshness ≠ .unknown → rightEntry.freshness ≠ .unknown →
    left.subject = right.subject → left.scope = right.scope →
    leftEntry.fold.text ≠ rightEntry.fold.text →
    ∃ conflict ∈ ledger.conflicts, conflict.Names left right

/-- The command removes the conflicts of the fact. -/
def Silences : Command → FactId → Prop
  | .discharge fact _, key | .amend fact _ _, key | .retract fact _, key => fact = key
  | .consolidate facts _ _ _, key => key ∈ facts
  | _, _ => False

/-- The command records the conflict: between the offered entry and a live one,
or between a normative entry and a premise that a tool write turns stale. -/
inductive Raises (ledger : Ledger) (sequence : Nat) : Command → Conflict → Prop
  | offered {command : Command} {incoming entry : Entry} {key : FactId} {conflict : Conflict}
      (offer : offered command = some incoming)
      (live : (ledger.rewritten sequence command).Live key entry)
      (clash : conflictOf entry incoming = some conflict) : Raises ledger sequence command conflict
  | premise {result : ToolWrite} {writes : BTreeMap String UInt64} {key fact : FactId}
      {normative : Entry}
      (live : (ledger.rewritten sequence (.factInvalidate result writes)).Live key normative)
      (kind : normative.kind = .normative) (uses : fact ∈ normative.premises)
      (stale : fact ∈ ledger.invalidatedBy writes) :
      Raises ledger sequence (.factInvalidate result writes)
        (.premiseInvalidated normative.id fact)

section Recording

variable {ledger : Ledger} {entry : Entry} {fact : FactId} {conflict : Conflict}

/-- What a loop that may add one conflict for each item adds. -/
theorem mem_foldl_insert {α : Type} (raise : α → Option Conflict) (items : List α)
    (conflicts : BTreeSet Conflict) :
    conflict ∈ items.foldl (fun conflicts item =>
        match raise item with
        | some conflict => conflicts.insert conflict
        | none => conflicts) conflicts ↔
      conflict ∈ conflicts ∨ ∃ item ∈ items, raise item = some conflict := by
  induction items generalizing conflicts with
  | nil => simp
  | cons item items ih =>
      rw [List.foldl_cons, ih]
      cases raised : raise item with
      | none => simp [raised]
      | some added =>
          simp only [Std.ExtTreeSet.mem_insert, Std.LawfulEqOrd.compare_eq_iff_eq,
            List.exists_mem_cons_iff, raised, Option.some.injEq]
          tauto

theorem mem_values_iff_exists {map : BTreeMap FactId Entry} :
    entry ∈ values map ↔ ∃ key : FactId, map[key]? = some entry := by
  rw [values, List.mem_map]
  constructor
  · rintro ⟨⟨key, value⟩, member, rfl⟩
    exact ⟨key, Std.ExtTreeMap.mem_toList_iff_getElem?_eq_some.mp member⟩
  · rintro ⟨key, present⟩
    exact ⟨(key, entry), Std.ExtTreeMap.mem_toList_iff_getElem?_eq_some.mpr present, rfl⟩

/-- A recording adds the conflicts with the live entries. -/
theorem mem_recordConflicts : conflict ∈ (ledger.recordConflicts entry).conflicts ↔
    conflict ∈ ledger.conflicts ∨
      ∃ key found, ledger.Live key found ∧ conflictOf found entry = some conflict := by
  apply (mem_foldl_insert (fun found => conflictOf found entry) _ _).trans
  apply or_congr_right
  constructor
  · rintro ⟨found, member, clash⟩
    rcases List.mem_filter.mp member with ⟨member, alive⟩
    rcases mem_values_iff_exists.mp member with ⟨key, present⟩
    refine ⟨key, found, ⟨present, ?_⟩, clash⟩
    simpa [Entry.isLive] using alive
  · rintro ⟨key, found, live, clash⟩
    refine ⟨found, List.mem_filter.mpr ⟨mem_values_iff_exists.mpr ⟨key, live.present⟩, ?_⟩, clash⟩
    simp [Entry.isLive, live.notRetired]

theorem mem_removeConflicts : conflict ∈ (ledger.removeConflicts fact).conflicts ↔
    conflict ∈ ledger.conflicts ∧ conflict.mentions fact = false := by
  rw [removeConflicts, ← Std.ExtTreeSet.mem_toList, Std.ExtTreeSet.toList_filter, List.mem_filter,
    Std.ExtTreeSet.mem_toList, Bool.not_eq_true']

theorem mem_retireConstituents {composite : Entry} {facts : List FactId} :
    conflict ∈ (facts.foldl (retireConstituent composite) ledger).conflicts ↔
      conflict ∈ ledger.conflicts ∧ ∀ fact ∈ facts, conflict.mentions fact = false := by
  induction facts generalizing ledger with
  | nil => simp
  | cons head facts ih =>
      rw [List.foldl_cons, ih, retireConstituent, mem_removeConflicts, List.forall_mem_cons, and_assoc]
      rfl

theorem live_congr {other : Ledger} (entries : ledger.entries = other.entries) :
    ledger.Live fact entry ↔ other.Live fact entry := by
  constructor
  · rintro ⟨present, notRetired⟩
    exact ⟨entries ▸ present, notRetired⟩
  · rintro ⟨present, notRetired⟩
    exact ⟨entries ▸ present, notRetired⟩

/-- An entry has no conflict with itself. -/
theorem conflictOf_self : conflictOf entry entry = none := by
  simp [conflictOf]

end Recording

section Steps

variable {ledger next : Ledger} {command : Command} {sequence : Nat} {scopes : ScopeRegistry}
  {entry : Entry} {fact : FactId} {conflict : Conflict}

/-- A command that offers nothing and is no tool write records nothing. -/
theorem not_raises (offer : offered command = none)
    (notWrite : ∀ result writes, command ≠ .factInvalidate result writes) :
    ¬ ledger.Raises sequence command conflict := by
  rintro (⟨other, _, _⟩ | _)
  · rw [offer] at other
    cases other
  · exact notWrite _ _ rfl

/-- Conflicts of a command that records nothing and removes what it silences. -/
theorem mem_conflicts_of_quiet (offer : offered command = none)
    (notWrite : ∀ result writes, command ≠ .factInvalidate result writes)
    (kept : conflict ∈ next.conflicts ↔ conflict ∈ ledger.conflicts ∧
      ∀ fact, Silences command fact → conflict.mentions fact = false) :
    conflict ∈ next.conflicts ↔
      (conflict ∈ ledger.conflicts ∧ ∀ fact, Silences command fact → conflict.mentions fact = false) ∨
        ledger.Raises sequence command conflict := by
  rw [kept, or_iff_left (not_raises offer notWrite)]

theorem raises_iff_offered {incoming : Entry} (offer : offered command = some incoming) :
    ledger.Raises sequence command conflict ↔
      ∃ key entry, (ledger.rewritten sequence command).Live key entry ∧
        conflictOf entry incoming = some conflict := by
  constructor
  · rintro (⟨other, live, clash⟩ | _)
    · rw [offer] at other
      cases other
      exact ⟨_, _, live, clash⟩
    · cases offer
  · rintro ⟨key, entry, live, clash⟩
    exact .offered offer live clash

theorem admitObligation_conflicts {grammar : Grammar}
    (h : ledger.admitObligation entry grammar scopes = .ok next) :
    conflict ∈ next.conflicts ↔ conflict ∈ ledger.conflicts ∨
      ∃ key found, ledger.Live key found ∧ conflictOf found entry = some conflict := by
  rcases admitObligation_eq_ok h with ⟨_, _, rfl⟩
  exact mem_recordConflicts

theorem amend_conflicts (sequence : Nat) {replacement : Entry} {principal : Source}
    (h : ledger.amend fact replacement principal scopes = .ok next) :
    conflict ∈ next.conflicts ↔
      (conflict ∈ ledger.conflicts ∧ conflict.mentions fact = false) ∨
        ledger.Raises sequence (.amend fact replacement principal) conflict := by
  have step : ledger.Step (.amend fact replacement principal) sequence next := amend_step h
  have absent := (step.admissible replacement rfl).absent
  simp only [amend, bind_eq_ok, pure_eq_ok] at h
  rcases h with ⟨_, _, _, _, _, _, _, _, _, _, _, _, rfl⟩
  rw [mem_recordConflicts, mem_removeConflicts, raises_iff_offered rfl]
  apply or_congr_right
  constructor
  · rintro ⟨key, found, live, clash⟩
    have present := live.present
    rw [removeConflicts_entries, insert_entries] at present
    split at present
    · cases present
      rw [conflictOf_self] at clash
      cases clash
    · rw [modify_entries] at present
      refine ⟨key, found, ⟨?_, live.notRetired⟩, clash⟩
      rw [rewritten, Std.ExtTreeMap.getElem?_map]
      exact present
  · rintro ⟨key, found, live, clash⟩
    refine ⟨key, found, ⟨?_, live.notRetired⟩, clash⟩
    have present := live.present
    rw [rewritten, Std.ExtTreeMap.getElem?_map] at present
    rw [removeConflicts_entries, insert_entries, if_neg, modify_entries]
    · exact present
    · rintro rfl
      rw [absent] at present
      cases present

theorem consolidate_conflicts (sequence : Nat) {facts : BTreeSet FactId} {composite : Entry}
    {support : GateSupport} {reclaim : Nat}
    (h : ledger.consolidate facts composite support reclaim scopes = .ok next) :
    conflict ∈ next.conflicts ↔
      (conflict ∈ ledger.conflicts ∧ ∀ fact ∈ facts, conflict.mentions fact = false) ∨
        ledger.Raises sequence (.consolidate facts composite support reclaim) conflict := by
  simp only [consolidate, bind_eq_ok] at h
  rcases h with ⟨_, _, _, _, _, _, _, _, _, _, admitted⟩
  rw [admitObligation_conflicts admitted, mem_retireConstituents, raises_iff_offered rfl]
  simp only [Std.ExtTreeSet.mem_toList]
  apply or_congr_right
  have entries : (facts.toList.foldl (retireConstituent composite)
      { ledger with attempts := ledger.attempts + 1 }).entries =
      (ledger.rewritten sequence (.consolidate facts composite support reclaim)).entries := by
    apply Std.ExtTreeMap.ext_getElem?
    intro key
    rw [retireConstituents_entries, rewritten, Std.ExtTreeMap.getElem?_map]
    simp only [effect, Std.ExtTreeSet.mem_toList]
  simp only [live_congr entries]

theorem invalidate_conflicts (sequence : Nat) {result : ToolWrite} {writes : BTreeMap String UInt64}
    (h : ledger.invalidate result writes = .ok next) :
    conflict ∈ next.conflicts ↔ conflict ∈ ledger.conflicts ∨
      ledger.Raises sequence (.factInvalidate result writes) conflict := by
  simp only [invalidate, bind_eq_ok, pure_eq_ok] at h
  rcases h with ⟨_, _, _, _, rfl⟩
  apply (mem_foldl_insert some _ _).trans
  apply or_congr_right
  constructor
  · rintro ⟨raised, member, same⟩
    cases same
    rcases List.mem_flatMap.mp member with ⟨normative, among, premise⟩
    rcases List.mem_filter.mp among with ⟨found, test⟩
    rcases mem_values_iff_exists.mp found with ⟨key, present⟩
    simp only [Bool.and_eq_true, decide_eq_true_eq, Bool.not_eq_true'] at test
    simp only [premiseConflicts, List.mem_map, List.mem_filter, Std.ExtTreeSet.mem_toList] at premise
    rcases premise with ⟨fact, ⟨uses, stale⟩, rfl⟩
    have live : (ledger.rewritten sequence (.factInvalidate result writes)).Live key normative :=
      ⟨present, test.2⟩
    exact .premise live test.1 uses stale
  · rintro (⟨offer, _, _⟩ | @⟨_, _, key, fact, normative, live, kind, uses, stale⟩)
    · cases offer
    · refine ⟨_, List.mem_flatMap.mpr ⟨normative, List.mem_filter.mpr
        ⟨mem_values_iff_exists.mpr ⟨key, live.present⟩, ?_⟩, ?_⟩, rfl⟩
      · simp [kind, live.notRetired]
      · simp only [premiseConflicts, List.mem_map, List.mem_filter, Std.ExtTreeSet.mem_toList]
        exact ⟨fact, ⟨uses, stale⟩, rfl⟩

/-- What an accepted command leaves of the conflicts and what it adds. -/
theorem transition_conflicts (h : transition command sequence scopes ledger = .ok next) :
    conflict ∈ next.conflicts ↔
      (conflict ∈ ledger.conflicts ∧ ∀ fact, Silences command fact → conflict.mentions fact = false) ∨
        ledger.Raises sequence command conflict := by
  cases command with
  | admitObligation admitted grammar =>
      have kept : (ledger.rewritten sequence (.admitObligation admitted grammar)).entries =
          ledger.entries := rewritten_of_kept fun _ _ => rfl
      rw [admitObligation_conflicts h, raises_iff_offered rfl]
      simp [Silences, live_congr kept]
  | admitConvenience admitted =>
      have kept : (ledger.rewritten sequence (.admitConvenience admitted)).entries =
          ledger.entries := rewritten_of_kept fun _ _ => rfl
      simp only [transition, admitConvenience, bind_eq_ok, pure_eq_ok] at h
      rcases h with ⟨_, _, _, _, _, _, rfl⟩
      rw [raises_iff_offered rfl]
      apply mem_recordConflicts.trans
      simp [Silences, live_congr kept]
  | consolidate facts composite support reclaim => exact consolidate_conflicts sequence h
  | amend fact replacement principal =>
      apply (amend_conflicts sequence h).trans
      simp [Silences]
  | factInvalidate result writes =>
      apply (invalidate_conflicts sequence h).trans
      simp [Silences]
  | discharge fact evidence =>
      apply mem_conflicts_of_quiet rfl (by simp)
      rcases discharge_eq_ok h with ⟨_, rfl⟩
      rw [mem_removeConflicts]
      simp [Silences, modify]
  | retract fact principal =>
      apply mem_conflicts_of_quiet rfl (by simp)
      simp only [transition, retract, bind_eq_ok, pure_eq_ok] at h
      rcases h with ⟨_, _, _, _, _, _, rfl⟩
      rw [mem_removeConflicts]
      simp [Silences, modify]
  | demote fact reclaim =>
      apply mem_conflicts_of_quiet rfl (by simp)
      simp only [transition, demote, bind_eq_ok, pure_eq_ok] at h
      rcases h with ⟨_, _, _, _, _, _, rfl⟩
      simp [Silences, modify]
  | decay fact usage =>
      apply mem_conflicts_of_quiet rfl (by simp)
      simp only [transition, decay, bind_eq_ok, pure_eq_ok] at h
      rcases h with ⟨_, _, _, _, _, _, _, _, rfl⟩
      simp [Silences, modify]
  | promote fact source adoption support =>
      apply mem_conflicts_of_quiet rfl (by simp)
      simp only [transition, promote, bind_eq_ok, pure_eq_ok] at h
      rcases h with ⟨_, _, _, _, _, _, _, _, rfl⟩
      simp [Silences, modify]
  | revalidate observation =>
      apply mem_conflicts_of_quiet rfl (by simp)
      simp only [transition, revalidate, bind_eq_ok, pure_eq_ok] at h
      rcases h with ⟨_, _, rfl⟩
      simp [Silences, modifyAll]
  | staleDemote domains =>
      apply mem_conflicts_of_quiet rfl (by simp)
      have done : ledger.staleDemote domains = next := by simpa [transition] using h
      rw [← done]
      simp [Silences, staleDemote, modifyAll]
  | redact leaf =>
      apply mem_conflicts_of_quiet rfl (by simp)
      have done : ledger.redact leaf = next := by simpa [transition] using h
      rw [← done]
      simp [Silences, redact, modifyAll]

/-- A command silences every fact that it retires. -/
theorem silences_of_retired (alive : entry.retired = false)
    (retired : (ledger.effect sequence command fact entry).retired = true) :
    Silences command fact := by
  cases effect_retirement ledger sequence command fact entry with
  | kept same _ =>
      rw [same, alive] at retired
      cases retired
  | withdrawn isWithdrawal _ =>
      rcases isWithdrawal with ⟨_, rfl⟩ | ⟨_, _, rfl⟩ <;> rfl
  | discharged _ isDischarge _ _ _ =>
      subst isDischarge
      rfl
  | superseded _ isDischarge _ _ =>
      subst isDischarge
      rfl
  | consolidated _ _ _ _ isConsolidation member _ _ =>
      subst isConsolidation
      exact member

/-- A command retires every fact that it silences. -/
theorem retired_of_silences (silenced : Silences command fact) :
    (ledger.effect sequence command fact entry).retired = true := by
  cases command with
  | discharge other evidence =>
      cases silenced
      cases evidence <;> simp [effect, retireFor]
  | amend other replacement principal =>
      cases silenced
      simp [effect, retireFor]
  | retract other principal =>
      cases silenced
      simp [effect]
  | consolidate facts composite support reclaim =>
      have member : fact ∈ facts := silenced
      simp [effect, retireFor, member]
  | admitObligation | admitConvenience | demote | promote | factInvalidate | revalidate
  | staleDemote | decay | redact => cases silenced

/-- No command makes an unknown entry known. -/
theorem fresh_of_effect
    (known : (ledger.effect sequence command fact entry).freshness ≠ .unknown) :
    entry.freshness ≠ .unknown := by
  cases command with
  | admitObligation | admitConvenience => exact known
  | demote | decay | retract | promote | amend | consolidate | staleDemote =>
      simp only [effect, assign] at known
      split at known <;> exact known
  | discharge _ evidence =>
      cases evidence <;> simp only [effect, assign] at known <;> split at known <;> exact known
  | factInvalidate result writes =>
      simp only [effect, invalidateEntry] at known
      split at known
      · rename_i spoiled
        simp only [Bool.and_eq_true, decide_eq_true_eq] at spoiled
        rw [spoiled.2]
        rintro ⟨⟩
      · exact known
  | revalidate observation =>
      simp only [effect, revalidateEntry] at known
      split at known
      · rename_i selected
        simp only [Bool.and_eq_true, decide_eq_true_eq] at selected
        rw [selected.1.2]
        rintro ⟨⟩
      · exact known
  | redact leaf =>
      simp only [effect] at known
      split at known
      · exact absurd rfl known
      · exact known

/-- An entry that is live and known after a command was so before, with the same
text. -/
theorem known_of_effect (alive : (ledger.effect sequence command fact entry).retired = false)
    (known : (ledger.effect sequence command fact entry).freshness ≠ .unknown) :
    entry.retired = false ∧ entry.freshness ≠ .unknown ∧
      (ledger.effect sequence command fact entry).fold.text = entry.fold.text := by
  refine ⟨live_of_effect alive, fresh_of_effect known, ?_⟩
  by_cases redacts : ∃ leaf, command = .redact leaf
  · rcases redacts with ⟨leaf, rfl⟩
    simp only [effect] at known ⊢
    split at known
    · exact absurd rfl known
    · rename_i free
      rw [if_neg free]
  · exact effect_text (not_exists.mp redacts) alive

end Steps

section Exactness

variable {ledger next : Ledger} {command : Command} {sequence : Nat} {scopes : ScopeRegistry}
  {entry incoming : Entry} {fact : FactId} {conflict : Conflict}

/-- Both facts of a conflict between two entries. -/
theorem names_of_conflictOf (clash : conflictOf entry incoming = some conflict) :
    conflict.Names entry.id incoming.id := by
  simp only [conflictOf] at clash
  split at clash
  · cases clash
  · split at clash <;> cases clash <;> simp only [Conflict.Names, Conflict.first, Conflict.second]
    · split <;> simp
    · split <;> simp
    · simp
    · simp

theorem conflictOf_isSome (subject : entry.id.subject = incoming.id.subject)
    (scope : entry.id.scope = incoming.id.scope) (text : entry.fold.text ≠ incoming.fold.text) :
    ∃ conflict, conflictOf entry incoming = some conflict := by
  rw [conflictOf, if_neg (by simp [subject, scope, text])]
  cases entry.kind <;> cases incoming.kind <;> exact ⟨_, rfl⟩

theorem mentions_iff : conflict.mentions fact = true ↔
    conflict.first = fact ∨ conflict.second = fact := by
  simp [Conflict.mentions]

/-- A live entry that the command does not silence stays live. -/
theorem Step.live_kept (step : ledger.Step command sequence next) (live : ledger.Live fact entry)
    (free : ¬ Silences command fact) :
    next.Live fact (ledger.effect sequence command fact entry) := by
  constructor
  · exact step.entry_after live.present
  · cases retired : (ledger.effect sequence command fact entry).retired with
    | false => rfl
    | true => exact absurd (silences_of_retired live.notRetired retired) free

/-- A live rewritten entry is live after the step unless the offered one has its
place, and it is stored under its identity. -/
theorem Step.live_of_rewritten (step : ledger.Step command sequence next)
    (stored : ledger.EntriesStored) (live : (ledger.rewritten sequence command).Live fact entry) :
    next.Live fact entry ∧ entry.id = fact := by
  have present := live.present
  rw [rewritten, Std.ExtTreeMap.getElem?_map, Option.map_eq_some_iff] at present
  rcases present with ⟨old, found, rfl⟩
  refine ⟨⟨step.entry_after found, live.notRetired⟩, ?_⟩
  exact (effect_identity ledger sequence command fact old).id.trans (stored fact old found).keyed

theorem Step.offered_live (step : ledger.Step command sequence next)
    (offer : offered command = some incoming) : next.Live incoming.id incoming := by
  constructor
  · rw [step.entries, offer]
    exact if_pos rfl
  · exact (step.admissible incoming offer).notRetired

/-- The facts that a tool write invalidates are live and empirical. -/
theorem mem_invalidatedBy {writes : BTreeMap String UInt64} (stored : ledger.EntriesStored)
    (stale : fact ∈ ledger.invalidatedBy writes) :
    ∃ entry, ledger.Live fact entry ∧ entry.kind = .empirical := by
  simp only [invalidatedBy, Std.ExtTreeSet.mem_ofList, List.contains_eq_mem, List.mem_map,
    List.mem_filter, decide_eq_true_eq, Bool.and_eq_true, Bool.not_eq_true'] at stale
  rcases stale with ⟨entry, ⟨member, ⟨⟨alive, _⟩, _⟩, empirical⟩, rfl⟩
  exact ⟨entry, ⟨(mem_values_iff stored).mp member, alive⟩, empirical⟩

theorem invalidateEntry_kind {writes : BTreeMap String UInt64} :
    (invalidateEntry writes entry).kind = entry.kind := by
  simp only [invalidateEntry]
  split <;> rfl

/-- A recorded conflict is between two live entries. -/
theorem Raises.sound (step : ledger.Step command sequence next) (stored : ledger.EntriesStored)
    (raises : ledger.Raises sequence command conflict) :
    conflict.first ≠ conflict.second ∧
      (∃ entry, next.Live conflict.first entry) ∧ ∃ entry, next.Live conflict.second entry := by
  cases raises with
  | @offered _ incoming entry key _ offer live clash =>
      have kept := step.live_of_rewritten stored live
      have arrived := step.offered_live offer
      have distinct : entry.id ≠ incoming.id := by
        intro same
        have present := live.present
        rw [rewritten, Std.ExtTreeMap.getElem?_map, ← kept.2, same,
          (step.admissible incoming offer).absent] at present
        cases present
      rw [← kept.2] at kept
      rcases names_of_conflictOf clash with ⟨first, second⟩ | ⟨first, second⟩
      · rw [first, second]
        exact ⟨distinct, ⟨_, kept.1⟩, _, arrived⟩
      · rw [first, second]
        exact ⟨distinct.symm, ⟨_, arrived⟩, _, kept.1⟩
  | @premise result writes key fact normative live kind uses stale =>
      have kept := step.live_of_rewritten stored live
      rw [← kept.2] at kept
      rcases mem_invalidatedBy stored stale with ⟨empirical, found, isEmpirical⟩
      have after := step.live_kept found id
      refine ⟨?_, ⟨normative, kept.1⟩, _, after⟩
      intro meet
      change normative.id = fact at meet
      subst meet
      have same : normative = invalidateEntry writes empirical :=
        Option.some.inj (kept.1.present.symm.trans after.present)
      rw [same, invalidateEntry_kind, isEmpirical] at kind
      cases kind

theorem transition_sound (h : transition command sequence scopes ledger = .ok next)
    (stored : ledger.EntriesStored) (exact : ledger.ConflictsExact)
    (recorded : conflict ∈ next.conflicts) :
    conflict.first ≠ conflict.second ∧
      (∃ entry, next.Live conflict.first entry) ∧ ∃ entry, next.Live conflict.second entry := by
  have step : ledger.Step command sequence next := transition_step h
  rcases (transition_conflicts h).mp recorded with ⟨member, heard⟩ | raises
  · rcases exact.sound conflict member with ⟨distinct, ⟨first, firstLive⟩, second, secondLive⟩
    refine ⟨distinct, ⟨_, step.live_kept firstLive ?_⟩, _, step.live_kept secondLive ?_⟩
    · intro silenced
      have mentioned := mentions_iff.mpr (.inl (rfl : conflict.first = conflict.first))
      rw [heard _ silenced] at mentioned
      cases mentioned
    · intro silenced
      have mentioned := mentions_iff.mpr (.inr (rfl : conflict.second = conflict.second))
      rw [heard _ silenced] at mentioned
      cases mentioned
  · exact raises.sound step stored

/-- Two known live entries that the step has only rewritten keep their conflict. -/
theorem complete_of_rewritten (h : transition command sequence scopes ledger = .ok next)
    (exact : ledger.ConflictsExact) {left right : FactId} {leftOld rightOld : Entry}
    (leftFound : ledger.entries[left]? = some leftOld)
    (rightFound : ledger.entries[right]? = some rightOld)
    (leftLive : (ledger.effect sequence command left leftOld).retired = false)
    (rightLive : (ledger.effect sequence command right rightOld).retired = false)
    (leftKnown : (ledger.effect sequence command left leftOld).freshness ≠ .unknown)
    (rightKnown : (ledger.effect sequence command right rightOld).freshness ≠ .unknown)
    (subject : left.subject = right.subject) (scope : left.scope = right.scope)
    (text : (ledger.effect sequence command left leftOld).fold.text ≠
      (ledger.effect sequence command right rightOld).fold.text) :
    ∃ conflict ∈ next.conflicts, conflict.Names left right := by
  rcases known_of_effect leftLive leftKnown with ⟨leftAlive, leftFresh, leftText⟩
  rcases known_of_effect rightLive rightKnown with ⟨rightAlive, rightFresh, rightText⟩
  rw [leftText, rightText] at text
  rcases exact.complete left right leftOld rightOld ⟨leftFound, leftAlive⟩
    ⟨rightFound, rightAlive⟩ leftFresh rightFresh subject scope text with ⟨conflict, member, names⟩
  refine ⟨conflict, (transition_conflicts h).mpr (.inl ⟨member, ?_⟩), names⟩
  intro fact silenced
  cases mentioned : conflict.mentions fact with
  | false => rfl
  | true =>
      have either : fact = left ∨ fact = right := by
        rcases names with ⟨first, second⟩ | ⟨first, second⟩ <;>
          rcases mentions_iff.mp mentioned with same | same <;> simp [← same, first, second]
      rcases either with rfl | rfl
      · rw [retired_of_silences silenced] at leftLive
        cases leftLive
      · rw [retired_of_silences silenced] at rightLive
        cases rightLive

/-- An offered entry is in conflict with every live entry that contradicts it. -/
theorem complete_of_offered (h : transition command sequence scopes ledger = .ok next)
    (stored : ledger.EntriesStored) (offer : offered command = some incoming)
    (live : (ledger.rewritten sequence command).Live fact entry)
    (subject : fact.subject = incoming.id.subject) (scope : fact.scope = incoming.id.scope)
    (text : entry.fold.text ≠ incoming.fold.text) :
    ∃ conflict ∈ next.conflicts, conflict.Names fact incoming.id := by
  have step : ledger.Step command sequence next := transition_step h
  have keyed := (step.live_of_rewritten stored live).2
  rw [← keyed] at subject scope ⊢
  rcases conflictOf_isSome subject scope text with ⟨conflict, clash⟩
  exact ⟨conflict, (transition_conflicts h).mpr (.inr (.offered offer live clash)),
    names_of_conflictOf clash⟩

theorem transition_complete (h : transition command sequence scopes ledger = .ok next)
    (stored : ledger.EntriesStored) (exact : ledger.ConflictsExact) {left right : FactId}
    {leftEntry rightEntry : Entry} (leftLive : next.Live left leftEntry)
    (rightLive : next.Live right rightEntry) (leftKnown : leftEntry.freshness ≠ .unknown)
    (rightKnown : rightEntry.freshness ≠ .unknown) (subject : left.subject = right.subject)
    (scope : left.scope = right.scope) (text : leftEntry.fold.text ≠ rightEntry.fold.text) :
    ∃ conflict ∈ next.conflicts, conflict.Names left right := by
  have step : ledger.Step command sequence next := transition_step h
  have rewrites : ∀ {fact : FactId} {old : Entry}, ledger.entries[fact]? = some old →
      (ledger.rewritten sequence command).entries[fact]? =
        some (ledger.effect sequence command fact old) := by
    intro fact old found
    rw [rewritten, Std.ExtTreeMap.getElem?_map, found]
    rfl
  rcases step.entry_cases leftLive.present with
      ⟨leftOffer, rfl⟩ | ⟨leftOld, leftFound, rfl⟩ <;>
    rcases step.entry_cases rightLive.present with
      ⟨rightOffer, rfl⟩ | ⟨rightOld, rightFound, rfl⟩
  · have same := Option.some.inj (leftOffer.symm.trans rightOffer)
    rw [same] at text
    exact absurd rfl text
  · rcases complete_of_offered h stored leftOffer ⟨rewrites rightFound, rightLive.notRetired⟩
      subject.symm scope.symm text.symm with ⟨conflict, recorded, names⟩
    exact ⟨conflict, recorded, names.symm⟩
  · exact complete_of_offered h stored rightOffer ⟨rewrites leftFound, leftLive.notRetired⟩
      subject scope text
  · exact complete_of_rewritten h exact leftFound rightFound leftLive.notRetired
      rightLive.notRetired leftKnown rightKnown subject scope text

theorem new_entriesStored {params : LedgerParams} (fresh : Ledger.new params = .ok ledger) :
    ledger.EntriesStored := by
  intro fact entry present
  rw [new_entries fresh] at present
  simp at present

theorem new_conflictsExact {params : LedgerParams} (fresh : Ledger.new params = .ok ledger) :
    ledger.ConflictsExact := by
  have entries := new_entries fresh
  simp only [Ledger.new, bind_eq_ok, pure_eq_ok] at fresh
  rcases fresh with ⟨_, _, rfl⟩
  constructor
  · intro conflict recorded
    exact absurd recorded Std.ExtTreeSet.not_mem_empty
  · intro left right leftEntry rightEntry leftLive
    have present := leftLive.present
    rw [entries] at present
    simp at present

/-- In every reachable ledger the conflicts are exact. -/
theorem conflictsExact_of_run (params : LedgerParams) (start : Ledger)
    (fresh : Ledger.new params = .ok start) (calls : List Call) :
    (start.after calls).ConflictsExact := by
  have kept : ∀ reached, reached <+: calls →
      (run perform start reached).EntriesStored ∧ (run perform start reached).ConflictsExact := by
    apply run_invariant fun ledger : Ledger => ledger.EntriesStored ∧ ledger.ConflictsExact
    · exact ⟨new_entriesStored fresh, new_conflictsExact fresh⟩
    · rintro before call _ ⟨stored, exact⟩
      generalize run perform start before = ledger at stored exact ⊢
      rcases ledger.perform_cases call with ⟨_, unchanged⟩ | ⟨⟨next, result⟩, _⟩
      · rw [unchanged]
        exact ⟨stored, exact⟩
      · rw [perform_of_ok result]
        refine ⟨transition_stored result stored, ?_, ?_⟩
        · intro conflict recorded
          exact transition_sound result stored exact recorded
        · intro left right leftEntry rightEntry
          exact transition_complete result stored exact
  exact (kept calls List.prefix_rfl).2

end Exactness

section Clash

/-- A second note about the subject that says something else. -/
def otherNote : Entry :=
  { note with
    id := ⟨"build", "needs", 1⟩
    fold := ⟨"the build uses make", 0⟩ }

theorem conflictsExact_of_notes :
    Ledger.new .default = .ok .initial ∧
      (Ledger.initial.after [⟨.admitConvenience note, 1, oneScope⟩,
        ⟨.admitConvenience otherNote, 2, oneScope⟩]).ConflictsExact := by
  constructor
  · rfl
  · exact conflictsExact_of_run .default .initial rfl _

/-- The run does record a conflict. -/
example : (Ledger.initial.after [⟨.admitConvenience note, 1, oneScope⟩,
    ⟨.admitConvenience otherNote, 2, oneScope⟩]).conflicts.toList =
      [.empirical otherNote.id note.id] := by
  decide +kernel

end Clash

end Ledger

end Llxprt.Kernel

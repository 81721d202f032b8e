import Llxprt.Kernel.Ledger.Dependents

/-!
# Erased leaves

A redaction turns every entry that rests on its leaf inactive.  The ledger does
not remember the leaf, so a later command may bring it back: an offered entry
may depend on it, and a promotion or an observation may make it the source of a
stored entry.
-/

namespace Llxprt.Kernel.Ledger

open Llxprt.Rust

/-- The entry names the leaf or was derived from a fact that rests on it. -/
def Depends (ledger : Ledger) (leaf : String) (entry : Entry) : Prop :=
  entry.source.leaf = leaf ∨ leaf ∈ entry.bindings ∨
    ∃ premise ∈ entry.premises, ledger.RestsOn leaf premise

/-- No active entry depends on the leaf. -/
def Forgets (ledger : Ledger) (leaf : String) : Prop :=
  ∀ (fact : FactId) (entry : Entry), ledger.entries[fact]? = some entry →
    ledger.active entry = true → ¬ ledger.Depends leaf entry

/-- Whether an observation refreshes the entry. -/
def refreshes (versions : BTreeMap String UInt64) (observation : Observation) (entry : Entry) :
    Bool :=
  !entry.retired && readsAny entry observation.readSet.contains &&
    observation.supports.contains entry.id && observation.source.scope = entry.id.scope &&
    entry.freshness = .stale && observationMatches versions observation entry

/-- The command makes `fact` rest on the leaf: by an offered entry that depends
on it, or by a source of a stored entry that names it. -/
inductive Attaches (ledger : Ledger) (leaf : String) : Command → FactId → Prop
  | offered {command : Command} {entry : Entry} (offer : offered command = some entry)
      (depends : ledger.Depends leaf entry) : Attaches ledger leaf command entry.id
  | promoted {fact : FactId} {source : Source} {adoption : Option Source} {support : GateSupport}
      (named : (adoption.getD source).leaf = leaf) :
      Attaches ledger leaf (.promote fact source adoption support) fact
  | observed {observation : Observation} {fact : FactId} {entry : Entry}
      (present : ledger.entries[fact]? = some entry) (empirical : entry.kind = .empirical)
      (selected : refreshes ledger.versions observation entry = true)
      (named : observation.source.leaf = leaf) :
      Attaches ledger leaf (.revalidate observation) fact

/-- A chain of premises of stored entries that leads from a fact to `target`. -/
inductive LeadsTo (ledger : Ledger) (target : FactId) : FactId → Prop
  | refl : LeadsTo ledger target target
  | derived {fact premise : FactId} {entry : Entry} (present : ledger.entries[fact]? = some entry)
      (uses : premise ∈ entry.premises) (rest : LeadsTo ledger target premise) :
      LeadsTo ledger target fact

/-- Entries that a command retires in favour of the entry it offers. -/
def retires : Command → FactId → Prop
  | .amend fact _ _, key => fact = key
  | .consolidate facts _ _ _, key => key ∈ facts
  | _, _ => False

/-- The command brings the leaf back under an active entry. -/
def Reattaches (ledger : Ledger) (leaf : String) (command : Command) : Prop :=
  ∃ fact, ledger.Attaches leaf command fact ∧
    ((∃ entry, offered command = some entry ∧ entry.id = fact ∧ ledger.active entry = true) ∨
      ∃ key entry, ledger.entries[key]? = some entry ∧ ledger.active entry = true ∧
        ¬ retires command key ∧ ledger.LeadsTo fact key)

/-- An entry is stored under its identity and carries the utility of its usage. -/
structure Stored (ledger : Ledger) (fact : FactId) (entry : Entry) : Prop where
  keyed : entry.id = fact
  scored : entry.utility = ledger.utility entry.usage

def EntriesStored (ledger : Ledger) : Prop :=
  ∀ (fact : FactId) (entry : Entry), ledger.entries[fact]? = some entry → ledger.Stored fact entry

section Lookup

variable {ledger next : Ledger} {leaf : String} {fact : FactId} {entry : Entry}

theorem mem_values_iff (stored : ledger.EntriesStored) :
    entry ∈ values ledger.entries ↔ ledger.entries[entry.id]? = some entry := by
  rw [values, List.mem_map]
  constructor
  · rintro ⟨⟨key, value⟩, member, rfl⟩
    have present : ledger.entries[key]? = some value :=
      Std.ExtTreeMap.mem_toList_iff_getElem?_eq_some.mp member
    have keyed := (stored key value present).keyed
    simp only at keyed ⊢
    rw [keyed]
    exact present
  · intro present
    exact ⟨(entry.id, entry), Std.ExtTreeMap.mem_toList_iff_getElem?_eq_some.mpr present, rfl⟩

/-- A fact rests on the leaf exactly when its entry depends on it. -/
theorem restsOn_iff (stored : ledger.EntriesStored) :
    ledger.RestsOn leaf fact ↔
      ∃ entry, ledger.entries[fact]? = some entry ∧ ledger.Depends leaf entry := by
  constructor
  · intro rests
    cases rests with
    | direct member names =>
        refine ⟨_, (mem_values_iff stored).mp member, ?_⟩
        rcases names with source | binding
        · exact .inl source
        · exact .inr (.inl binding)
    | derived member uses rests =>
        exact ⟨_, (mem_values_iff stored).mp member, .inr (.inr ⟨_, uses, rests⟩)⟩
  · rintro ⟨entry, present, depends⟩
    have keyed := (stored fact entry present).keyed
    subst keyed
    have member := (mem_values_iff stored).mpr present
    rcases depends with source | binding | ⟨premise, uses, rests⟩
    · exact .direct member (.inl source)
    · exact .direct member (.inr binding)
    · exact .derived member uses rests

theorem active_congr (params : next.params = ledger.params) :
    next.active entry = ledger.active entry := by
  rw [active, active, params]

theorem utility_congr (params : next.params = ledger.params) (usage : Usage) :
    next.utility usage = ledger.utility usage := by
  rw [utility, utility, params]

end Lookup

section Activity

variable {ledger next : Ledger} {command : Command} {sequence : Nat} {scopes : ScopeRegistry}
  {key : FactId} {entry : Entry}

theorem checkEntry_scored {result : Unit} (h : ledger.checkEntry entry scopes = .ok result) :
    entry.utility = ledger.utility entry.usage := by
  simp only [checkEntry, bind_eq_ok, reject_eq_ok, not_or, not_not] at h
  rcases h with ⟨_, _, _, ⟨_, scored⟩, _⟩
  exact scored

theorem admitObligation_scored {grammar : Grammar}
    (h : ledger.admitObligation entry grammar scopes = .ok next) :
    entry.utility = ledger.utility entry.usage := by
  simp only [admitObligation, bind_eq_ok, reject_eq_ok] at h
  rcases h with ⟨_, _, _, _, _, _, _, _, _, checked, _⟩
  exact checkEntry_scored checked

/-- An accepted entry carries the utility of its usage. -/
theorem offered_scored (h : transition command sequence scopes ledger = .ok next)
    (offer : offered command = some entry) : entry.utility = ledger.utility entry.usage := by
  cases command with
  | admitObligation admitted grammar =>
      cases offer
      exact admitObligation_scored h
  | admitConvenience admitted =>
      cases offer
      simp only [transition, admitConvenience, bind_eq_ok] at h
      rcases h with ⟨_, checked, _⟩
      exact checkEntry_scored checked
  | consolidate facts composite support reclaim =>
      cases offer
      simp only [transition, consolidate, bind_eq_ok] at h
      rcases h with ⟨_, _, _, _, _, _, _, _, _, _, admitted⟩
      rw [admitObligation_scored admitted]
      apply utility_congr
      rw [retireConstituents_params]
  | amend fact replacement principal =>
      cases offer
      simp only [transition, amend, bind_eq_ok] at h
      rcases h with ⟨_, _, _, _, _, _, _, _, _, _, _, checked, _⟩
      exact checkEntry_scored checked
  | demote | discharge | retract | promote | factInvalidate | revalidate | staleDemote | decay
  | redact => cases offer

/-- How a command moves the usage of an entry. -/
inductive UsageMove (ledger : Ledger) (command : Command) (key : FactId) (before after : Entry) :
    Prop
  | kept (utility : after.utility = before.utility) (usage : after.usage = before.usage)
  | decayed (usage : Usage) (isDecay : command = .decay key usage)
      (utility : after.utility = ledger.utility usage) (counted : after.usage = usage)

theorem effect_usage (ledger : Ledger) (sequence : Nat) (command : Command) (key : FactId)
    (entry : Entry) :
    UsageMove ledger command key entry (ledger.effect sequence command key entry) := by
  cases command with
  | admitObligation | admitConvenience => exact .kept rfl rfl
  | demote | retract | promote | amend | consolidate | factInvalidate | revalidate | staleDemote
  | redact =>
      simp only [effect, assign, invalidateEntry, revalidateEntry]
      split <;> exact .kept rfl rfl
  | discharge fact evidence =>
      cases evidence <;> simp only [effect, assign] <;> split <;> exact .kept rfl rfl
  | decay fact usage =>
      simp only [effect, assign]
      split
      · rename_i same
        subst same
        exact .decayed usage rfl rfl rfl
      · exact .kept rfl rfl

theorem transition_stored (h : transition command sequence scopes ledger = .ok next)
    (stored : ledger.EntriesStored) : next.EntriesStored := by
  have params := transition_params h
  intro fact entry found
  rcases (transition_step h).entry_cases found with ⟨offer, keyed⟩ | ⟨old, present, rfl⟩
  · exact ⟨keyed, by rw [utility_congr params, offered_scored h offer]⟩
  · have before := stored fact old present
    refine ⟨(effect_identity ledger sequence command fact old).id.trans before.keyed, ?_⟩
    rw [utility_congr params]
    cases effect_usage ledger sequence command fact old with
    | kept utility usage => rw [utility, usage, before.scored]
    | decayed usage isDecay utility counted => rw [utility, counted]

/-- Ageing never raises a utility. -/
theorem decay_lowers {fact : FactId} {usage : Usage} (h : ledger.decay fact usage sequence = .ok next)
    (present : ledger.entries[fact]? = some entry) :
    (ledger.utility usage).value ≤ (ledger.utility entry.usage).value := by
  simp only [decay, bind_eq_ok, live_eq_ok, reject_eq_ok, not_or, not_not] at h
  rcases h with ⟨found, live, _, _, _, ⟨_, older⟩, _, ⟨accesses, reuses⟩, _⟩
  have same : found = entry := Option.some.inj (live.present.symm.trans present)
  subst same
  have aged : found.usage.ageWindows * ledger.params.decayWeight ≤
      usage.ageWindows * ledger.params.decayWeight :=
    Nat.mul_le_mul_right _ (Nat.le_of_lt (Nat.lt_of_not_le older))
  simp only [utility, accesses, reuses]
  omega

/-- A command activates no entry that was inactive, and no entry that it
retires stays active. -/
theorem active_of_effect (h : transition command sequence scopes ledger = .ok next)
    (stored : ledger.EntriesStored) (present : ledger.entries[key]? = some entry)
    (active : ledger.active (ledger.effect sequence command key entry) = true) :
    ledger.active entry = true ∧ ¬ retires command key := by
  cases command with
  | admitObligation | admitConvenience => exact ⟨active, id⟩
  | demote | promote | staleDemote =>
      simp only [effect, assign] at active
      split at active <;> exact ⟨active, id⟩
  | retract fact principal =>
      simp only [effect, assign] at active
      split at active
      · simp [Ledger.active] at active
      · exact ⟨active, id⟩
  | redact leaf =>
      simp only [effect] at active
      split at active
      · simp [Ledger.active] at active
      · exact ⟨active, id⟩
  | amend fact replacement principal =>
      simp only [effect, assign] at active
      split at active
      · simp [Ledger.active, retireFor] at active
      · rename_i other
        exact ⟨active, other⟩
  | consolidate facts composite support reclaim =>
      simp only [effect] at active
      split at active
      · simp [Ledger.active, retireFor] at active
      · rename_i other
        exact ⟨active, other⟩
  | discharge fact evidence =>
      refine ⟨?_, id⟩
      cases evidence <;> simp only [effect, assign] at active <;> split at active <;>
        first | exact active | simp [Ledger.active, retireFor] at active
  | factInvalidate result writes =>
      refine ⟨?_, id⟩
      simp only [effect, invalidateEntry] at active
      split at active
      · rename_i spoiled
        simp_all [Ledger.active]
      · exact active
  | revalidate observation =>
      refine ⟨?_, id⟩
      simp only [effect, revalidateEntry] at active
      split at active
      · rename_i selected
        simp_all [Ledger.active]
      · exact active
  | decay fact usage =>
      refine ⟨?_, id⟩
      simp only [effect, assign] at active
      split at active
      · rename_i same
        subst same
        have lower := decay_lowers h present
        rw [← (stored fact entry present).scored] at lower
        simp only [Ledger.active, Bool.and_eq_true, Bool.or_eq_true, decide_eq_true_eq] at active ⊢
        rcases active with ⟨alive, obligation | useful⟩
        · exact ⟨alive, .inl obligation⟩
        · exact ⟨alive, .inr (Nat.lt_of_lt_of_le useful lower)⟩
      · exact active

end Activity

section Reattachment

variable {ledger next : Ledger} {command : Command} {sequence : Nat} {scopes : ScopeRegistry}
  {leaf : String} {fact key : FactId} {entry : Entry}

/-- The source of a rewritten entry names the leaf only if it did before or the
command attached it. -/
theorem attaches_of_source (present : ledger.entries[fact]? = some entry)
    (named : (ledger.effect sequence command fact entry).source.leaf = leaf) :
    entry.source.leaf = leaf ∨ ledger.Attaches leaf command fact := by
  cases command with
  | admitObligation | admitConvenience => exact .inl named
  | demote | decay | retract | amend | consolidate | factInvalidate | staleDemote | redact =>
      simp only [effect, assign, invalidateEntry] at named
      split at named <;> exact .inl named
  | discharge other evidence =>
      cases evidence <;> simp only [effect, assign] at named <;> split at named <;>
        exact .inl named
  | promote other source adoption support =>
      simp only [effect, assign] at named
      split at named
      · rename_i same
        subst same
        exact .inr (.promoted named)
      · exact .inl named
  | revalidate observation =>
      simp only [effect, revalidateEntry] at named
      split at named
      · rename_i selected
        by_cases empirical : entry.kind = .empirical
        · rw [if_pos empirical] at named
          exact .inr (.observed present empirical selected named)
        · rw [if_neg empirical] at named
          exact .inl named
      · exact .inl named

/-- A command that offers an entry attaches the leaf to that entry only. -/
theorem Attaches.id_eq (attaches : ledger.Attaches leaf command fact)
    (offer : Ledger.offered command = some entry) : entry.id = fact := by
  cases attaches with
  | offered same _ => rw [Option.some.inj (offer.symm.trans same)]
  | promoted _ => cases offer
  | observed _ _ _ _ => cases offer

/-- What rests on the leaf after a step did so before, or leads to the fact the
leaf was attached to. -/
theorem restsOn_cases (step : ledger.Step command sequence next) (stored : ledger.EntriesStored)
    (nextStored : next.EntriesStored) (rests : next.RestsOn leaf fact) :
    ledger.RestsOn leaf fact ∨
      ∃ target, ledger.Attaches leaf command target ∧ ledger.LeadsTo target fact := by
  induction rests with
  | @direct entry member names =>
      have found := (mem_values_iff nextStored).mp member
      rcases step.entry_cases found with ⟨offer, _⟩ | ⟨old, present, same⟩
      · right
        refine ⟨entry.id, .offered offer ?_, .refl⟩
        rcases names with source | binding
        · exact .inl source
        · exact .inr (.inl binding)
      · rcases names with source | binding
        · rw [same] at source
          rcases attaches_of_source present source with before | attaches
          · exact .inl ((restsOn_iff stored).mpr ⟨old, present, .inl before⟩)
          · exact .inr ⟨entry.id, attaches, .refl⟩
        · rw [same, (effect_identity ledger sequence command _ old).bindings] at binding
          exact .inl ((restsOn_iff stored).mpr ⟨old, present, .inr (.inl binding)⟩)
  | @derived entry premise member uses _ earlier =>
      have found := (mem_values_iff nextStored).mp member
      rcases step.entry_cases found with ⟨offer, _⟩ | ⟨old, present, same⟩
      · right
        rcases earlier with before | ⟨target, attaches, _⟩
        · exact ⟨entry.id, .offered offer (.inr (.inr ⟨premise, uses, before⟩)), .refl⟩
        · have isTarget := attaches.id_eq offer
          rw [← isTarget] at attaches
          exact ⟨entry.id, attaches, .refl⟩
      · rw [same, effect_premises] at uses
        rcases earlier with before | ⟨target, attaches, leads⟩
        · exact .inl ((restsOn_iff stored).mpr ⟨old, present, .inr (.inr ⟨premise, uses, before⟩)⟩)
        · exact .inr ⟨target, attaches, .derived present uses leads⟩

/-- A step that does not reattach the leaf keeps it forgotten. -/
theorem transition_forgets (h : transition command sequence scopes ledger = .ok next)
    (stored : ledger.EntriesStored) (forgets : ledger.Forgets leaf)
    (honest : ¬ ledger.Reattaches leaf command) : next.Forgets leaf := by
  have step := transition_step h
  have nextStored := transition_stored h stored
  intro fact entry found active depends
  rw [active_congr (transition_params h)] at active
  have rests : next.RestsOn leaf fact := (restsOn_iff nextStored).mpr ⟨entry, found, depends⟩
  have origin := restsOn_cases step stored nextStored rests
  rcases step.entry_cases found with ⟨offer, keyed⟩ | ⟨old, present, same⟩
  · have absent := (step.admissible entry offer).absent
    rw [keyed] at absent
    rcases origin with before | ⟨target, attaches, leads⟩
    · rcases (restsOn_iff stored).mp before with ⟨other, present, _⟩
      rw [absent] at present
      cases present
    · have isTarget := attaches.id_eq offer
      exact honest ⟨target, attaches, .inl ⟨entry, offer, isTarget, active⟩⟩
  · rw [same] at active
    rcases active_of_effect h stored present active with ⟨wasActive, kept⟩
    rcases origin with before | ⟨target, attaches, leads⟩
    · rcases (restsOn_iff stored).mp before with ⟨other, otherPresent, otherDepends⟩
      rw [present] at otherPresent
      cases otherPresent
      exact forgets fact old present wasActive otherDepends
    · exact honest ⟨target, attaches, .inr ⟨fact, old, present, wasActive, kept, leads⟩⟩

/-- A command that offers an entry leaves the sources of the others alone. -/
theorem effect_source_of_offer {offeredEntry : Entry}
    (offer : offered command = some offeredEntry) :
    (ledger.effect sequence command key entry).source = entry.source := by
  cases effect_source ledger sequence command key entry with
  | kept _ source => exact source
  | promoted _ _ _ isPromotion _ _ =>
      subst isPromotion
      cases offer
  | observed _ isObservation _ _ _ _ =>
      subst isObservation
      cases offer

/-- What rests on a leaf still does when an entry is offered. -/
theorem restsOn_of_offer {offeredEntry : Entry} (step : ledger.Step command sequence next)
    (offer : offered command = some offeredEntry) (stored : ledger.EntriesStored)
    (nextStored : next.EntriesStored) (rests : ledger.RestsOn leaf fact) :
    next.RestsOn leaf fact := by
  induction rests with
  | @direct entry member names =>
      have found := step.entry_after ((mem_values_iff stored).mp member)
      apply (restsOn_iff nextStored).mpr
      refine ⟨_, found, ?_⟩
      rcases names with source | binding
      · exact .inl ((congrArg Source.leaf (effect_source_of_offer offer)).trans source)
      · right
        left
        rw [(effect_identity ledger sequence command _ entry).bindings]
        exact binding
  | @derived entry premise member uses _ later =>
      have found := step.entry_after ((mem_values_iff stored).mp member)
      apply (restsOn_iff nextStored).mpr
      refine ⟨_, found, .inr (.inr ⟨premise, ?_, later⟩)⟩
      rw [effect_premises]
      exact uses

/-- After an attachment the fact rests on the leaf. -/
theorem Attaches.restsOn (attaches : ledger.Attaches leaf command fact)
    (step : ledger.Step command sequence next) (stored : ledger.EntriesStored)
    (nextStored : next.EntriesStored) : next.RestsOn leaf fact := by
  apply (restsOn_iff nextStored).mpr
  cases attaches with
  | @offered _ entry offer depends =>
      have found : next.entries[entry.id]? = some entry := by
        rw [step.entries, offer]
        simp
      refine ⟨entry, found, ?_⟩
      rcases depends with source | binding | ⟨premise, uses, rests⟩
      · exact .inl source
      · exact .inr (.inl binding)
      · exact .inr (.inr ⟨premise, uses, restsOn_of_offer step offer stored nextStored rests⟩)
  | promoted named =>
      rcases step.guarded with ⟨entry, live, _⟩
      refine ⟨_, step.entry_after live.present, .inl ?_⟩
      rw [effect, assign_self]
      exact named
  | @observed observation _ entry present empirical selected named =>
      refine ⟨_, step.entry_after present, .inl ?_⟩
      have rewritten : (ledger.effect sequence (.revalidate observation) fact entry).source =
          observation.source :=
        (congrArg Entry.source (if_pos selected)).trans (if_pos empirical)
      rw [rewritten]
      exact named

theorem LeadsTo.restsOn {target : FactId} (leads : ledger.LeadsTo target fact)
    (step : ledger.Step command sequence next) (nextStored : next.EntriesStored)
    (rests : next.RestsOn leaf target) : next.RestsOn leaf fact := by
  induction leads with
  | refl => exact rests
  | @derived fact premise entry present uses _ ih =>
      apply (restsOn_iff nextStored).mpr
      refine ⟨_, step.entry_after present, .inr (.inr ⟨premise, ?_, ih⟩)⟩
      rw [effect_premises]
      exact uses

/-- A command that attaches a leaf keeps the entries active that it does not
retire. -/
theorem Attaches.active (attaches : ledger.Attaches leaf command fact)
    (active : ledger.active entry = true) (kept : ¬ retires command key) :
    ledger.active (ledger.effect sequence command key entry) = true := by
  cases attaches with
  | offered offer _ =>
      cases command with
      | admitObligation | admitConvenience => exact active
      | amend other replacement principal =>
          rw [effect, assign_of_ne kept]
          exact active
      | consolidate facts composite support reclaim =>
          simp only [retires] at kept
          simp only [effect, if_neg kept]
          exact active
      | demote | discharge | retract | promote | factInvalidate | revalidate | staleDemote
      | decay | redact => cases offer
  | promoted _ =>
      simp only [effect, assign]
      split <;> exact active
  | observed _ _ _ _ =>
      simp only [effect, revalidateEntry]
      split
      · simp only [Ledger.active, Bool.and_eq_true] at active ⊢
        exact ⟨⟨active.1.1, rfl⟩, active.2⟩
      · exact active

/-- A reattachment that is accepted is visible in the next state. -/
theorem reattachment_recalls (h : transition command sequence scopes ledger = .ok next)
    (stored : ledger.EntriesStored) (reattaches : ledger.Reattaches leaf command) :
    ¬ next.Forgets leaf := by
  have step := transition_step h
  have nextStored := transition_stored h stored
  have params := transition_params h
  intro forgets
  have active_recalled : ∀ (key : FactId) (entry : Entry), next.entries[key]? = some entry →
      ledger.active entry = true → ¬ next.RestsOn leaf key := by
    intro key entry found active rests
    rcases (restsOn_iff nextStored).mp rests with ⟨other, otherFound, depends⟩
    rw [found] at otherFound
    cases otherFound
    rw [← active_congr params] at active
    exact forgets key entry found active depends
  rcases reattaches with ⟨fact, attaches, exposed⟩
  have rests := attaches.restsOn step stored nextStored
  rcases exposed with ⟨entry, offer, rfl, active⟩ | ⟨key, entry, present, active, kept, leads⟩
  · apply active_recalled entry.id entry _ active rests
    rw [step.entries, offer]
    simp
  · exact active_recalled key _ (step.entry_after present) (attaches.active active kept)
      (leads.restsOn step nextStored rests)

/-- A redaction makes its own leaf forgotten. -/
theorem redact_forgets (stored : ledger.EntriesStored) : (ledger.redact leaf).Forgets leaf := by
  have h : transition (.redact leaf) 0 (.new 0) ledger = .ok (ledger.redact leaf) := rfl
  have step := transition_step h
  have nextStored := transition_stored h stored
  intro fact entry found active depends
  rcases restsOn_cases step stored nextStored
    ((restsOn_iff nextStored).mpr ⟨entry, found, depends⟩) with rests | ⟨target, attaches, _⟩
  · rcases (restsOn_iff stored).mp rests with ⟨old, present, _⟩
    rw [← (stored fact old present).keyed] at rests
    rw [(redact_entries fact).1 old present rests] at found
    cases found
    simp [Ledger.active] at active
  · cases attaches with
    | offered offer _ => cases offer

end Reattachment

end Llxprt.Kernel.Ledger

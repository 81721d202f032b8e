import Llxprt.Kernel.Ledger.Runs

/-!
# Obligations are never lost

An obligation keeps its class, bindings and source for as long as the ledger
lives.  It stops binding by an explicit discharge or by giving way to a
successor, and the successors of an obligation form a finite chain that ends in
an obligation which still binds or was explicitly discharged.
-/

namespace Llxprt.Kernel.Ledger

open Llxprt.Rust

/-- A call that discharges `fact` because it is resolved or its scope closed. -/
def Discharges (command : Command) (fact : FactId) : Prop :=
  (∃ support, command = .discharge fact (.resolved support)) ∨
    command = .discharge fact .scopeClosed

/-- Some accepted call of the run discharged `fact`. -/
def Discharged (start : Ledger) (calls : List Call) (fact : FactId) : Prop :=
  ∃ before call, before ++ [call] <+: calls ∧ (start.after before).Accepts call ∧
    Discharges call.command fact

/-- One hop of the succession of obligations. -/
def Hop (ledger : Ledger) (fact successor : FactId) : Prop :=
  ∃ entry next : Entry, ledger.entries[fact]? = some entry ∧
    ledger.entries[successor]? = some next ∧ entry.factClass = .obligation ∧
    next.factClass = .obligation ∧ entry.retired = true ∧ entry.supersededBy = some successor ∧
    next.id.scope = entry.id.scope ∧ entry.source.authority ≤ next.source.authority ∧
    isSubset entry.bindings next.bindings

/-- An obligation without a successor that binds, or was discharged. -/
def Rests (ledger : Ledger) (discharged : FactId → Prop) (fact : FactId) : Prop :=
  ∃ entry : Entry, ledger.entries[fact]? = some entry ∧ entry.factClass = .obligation ∧
    entry.supersededBy = none ∧ (entry.retired = false ∨ entry.retired = true ∧ discharged fact)

/-- The chain that following `superseded_by` from `fact` visits. -/
structure Succession (ledger : Ledger) (discharged : FactId → Prop) (fact : FactId)
    (path : List FactId) : Prop where
  starts : path.head? = some fact
  hops : path.IsChain ledger.Hop
  acyclic : path.Nodup
  ends : ∃ last, path.getLast? = some last ∧ ledger.Rests discharged last

/-- Derivations of a succession, one constructor for each hop. -/
inductive Settles (ledger : Ledger) (discharged : FactId → Prop) : FactId → List FactId → Prop
  | rest {fact : FactId} (rests : ledger.Rests discharged fact) :
      Settles ledger discharged fact [fact]
  | hop {fact successor : FactId} {path : List FactId} (hop : ledger.Hop fact successor)
      (settles : Settles ledger discharged successor path) :
      Settles ledger discharged fact (fact :: path)

/-- What holds of every entry of a ledger along a run. -/
structure EntrySound (ledger : Ledger) (discharged : FactId → Prop) (fact : FactId)
    (entry : Entry) : Prop where
  keyed : entry.id = fact
  normative : entry.factClass = .obligation → entry.kind = .normative
  binding : entry.retired = false → entry.supersededBy = none
  settles : entry.factClass = .obligation → ∃ path, ledger.Settles discharged fact path

section Chains

variable {ledger : Ledger} {discharged : FactId → Prop} {fact : FactId} {path : List FactId}

theorem Settles.head (h : ledger.Settles discharged fact path) : path.head? = some fact := by
  cases h <;> rfl

/-- The succession of an obligation is determined by the ledger. -/
theorem Settles.unique {other : List FactId} (h : ledger.Settles discharged fact path)
    (k : ledger.Settles discharged fact other) : path = other := by
  induction h generalizing other with
  | rest rests =>
      obtain ⟨entry, present, _, unsuperseded, _⟩ := rests
      cases k with
      | rest _ => rfl
      | hop hop _ =>
          obtain ⟨found, _, foundPresent, _, _, _, _, superseded, _⟩ := hop
          simp_all
  | hop hop settles ih =>
      obtain ⟨entry, _, present, _, _, _, _, superseded, _⟩ := hop
      cases k with
      | rest rests =>
          obtain ⟨found, foundPresent, _, unsuperseded, _⟩ := rests
          simp_all
      | hop otherHop otherSettles =>
          obtain ⟨found, _, foundPresent, _, _, _, _, foundSuperseded, _⟩ := otherHop
          obtain rfl : entry = found := Option.some.inj (present.symm.trans foundPresent)
          obtain rfl := Option.some.inj (superseded.symm.trans foundSuperseded)
          rw [ih otherSettles]

/-- Every member of a succession has a succession that is a suffix of it. -/
theorem Settles.suffix (h : ledger.Settles discharged fact path) :
    ∀ member ∈ path, ∃ rest, ledger.Settles discharged member rest ∧ rest <:+ path := by
  induction h with
  | rest rests =>
      intro member mem
      obtain rfl := List.mem_singleton.mp mem
      exact ⟨_, .rest rests, List.suffix_refl _⟩
  | hop hop settles ih =>
      intro member mem
      rcases List.mem_cons.mp mem with rfl | mem
      · exact ⟨_, .hop hop settles, List.suffix_refl _⟩
      · obtain ⟨rest, restSettles, isSuffix⟩ := ih member mem
        exact ⟨rest, restSettles, isSuffix.trans (List.suffix_cons _ _)⟩

/-- A succession never returns to an obligation it left: the chain from there
would be a proper suffix of itself. -/
theorem Settles.nodup (h : ledger.Settles discharged fact path) : path.Nodup := by
  induction h with
  | rest _ => simp
  | @hop fact successor path hop settles ih =>
      refine List.nodup_cons.mpr ⟨fun mem => ?_, ih⟩
      obtain ⟨rest, restSettles, isSuffix⟩ := settles.suffix fact mem
      have same : fact :: path = rest := (Settles.hop hop settles).unique restSettles
      have shorter := isSuffix.length_le
      rw [← same] at shorter
      simp only [List.length_cons] at shorter
      omega

theorem Settles.succession (h : ledger.Settles discharged fact path) :
    ledger.Succession discharged fact path where
  starts := h.head
  acyclic := h.nodup
  hops := by
    induction h with
    | rest _ => exact .singleton _
    | hop hop settles ih =>
        cases settles with
        | rest _ => exact List.isChain_cons_cons.mpr ⟨hop, ih⟩
        | hop _ _ => exact List.isChain_cons_cons.mpr ⟨hop, ih⟩
  ends := by
    induction h with
    | rest rests => exact ⟨_, rfl, rests⟩
    | hop hop settles ih =>
        obtain ⟨last, isLast, rests⟩ := ih
        cases settles with
        | rest _ => exact ⟨last, isLast, rests⟩
        | hop _ _ => exact ⟨last, isLast, rests⟩

end Chains

/-- How a command retires the entry stored under a key. -/
inductive RetirementMove (command : Command) (key : FactId) (before after : Entry) : Prop
  | kept (retired : after.retired = before.retired)
      (supersededBy : after.supersededBy = before.supersededBy)
  | withdrawn (isWithdrawal : (∃ principal, command = .retract key principal) ∨
      ∃ replacement principal, command = .amend key replacement principal)
      (retired : after.retired = true)
  | discharged (evidence : DischargeEvidence) (isDischarge : command = .discharge key evidence)
      (notSuperseded : ∀ successor, evidence ≠ .supersededBy successor)
      (retired : after.retired = true) (supersededBy : after.supersededBy = before.supersededBy)
  | superseded (successor : FactId)
      (isDischarge : command = .discharge key (.supersededBy successor))
      (retired : after.retired = true) (supersededBy : after.supersededBy = some successor)
  | consolidated (facts : BTreeSet FactId) (composite : Entry) (support : GateSupport)
      (reclaim : Nat) (isConsolidation : command = .consolidate facts composite support reclaim)
      (member : key ∈ facts)
      (retired : after.retired = true) (supersededBy : after.supersededBy = some composite.id)

theorem effect_retirement (ledger : Ledger) (sequence : Nat) (command : Command) (key : FactId)
    (entry : Entry) :
    RetirementMove command key entry (ledger.effect sequence command key entry) := by
  cases command with
  | admitObligation | admitConvenience => exact .kept rfl rfl
  | demote | decay | promote | factInvalidate | revalidate | staleDemote | redact =>
      simp only [effect, assign, invalidateEntry, revalidateEntry]
      split <;> exact .kept rfl rfl
  | retract fact principal =>
      simp only [effect, assign]
      split
      · rename_i same
        subst same
        exact .withdrawn (.inl ⟨_, rfl⟩) rfl
      · exact .kept rfl rfl
  | amend fact replacement principal =>
      simp only [effect, assign]
      split
      · rename_i same
        subst same
        exact .withdrawn (.inr ⟨_, _, rfl⟩) rfl
      · exact .kept rfl rfl
  | consolidate facts composite support reclaim =>
      simp only [effect]
      split
      · exact .consolidated facts composite support reclaim rfl ‹_› rfl rfl
      · exact .kept rfl rfl
  | discharge fact evidence =>
      by_cases same : fact = key
      · subst same
        cases evidence with
        | supersededBy successor =>
            simp only [effect, assign_self]
            exact .superseded successor rfl rfl rfl
        | insufficient | resolved | scopeClosed =>
            simp only [effect, assign_self]
            exact .discharged _ rfl (by simp) rfl rfl
      · cases evidence <;> simp only [effect, assign_of_ne same] <;> exact .kept rfl rfl

section Step

variable {ledger next : Ledger} {command : Command} {sequence : Nat}
  {discharged later : FactId → Prop} {fact : FactId} {entry : Entry}

/-- An obligation is never withdrawn. -/
theorem Step.not_withdrawn (step : ledger.Step command sequence next)
    (present : ledger.entries[fact]? = some entry) (obligation : entry.factClass = .obligation) :
    ¬ ((∃ principal, command = .retract fact principal) ∨
      ∃ replacement principal, command = .amend fact replacement principal) := by
  have guarded := step.guarded
  rintro (⟨principal, rfl⟩ | ⟨replacement, principal, rfl⟩)
  · obtain ⟨found, live, convenience⟩ := guarded
    obtain rfl : entry = found := Option.some.inj (present.symm.trans live.present)
    simp [convenience] at obligation
  · obtain ⟨_, found, live, convenience⟩ := guarded
    obtain rfl : entry = found := Option.some.inj (present.symm.trans live.present)
    simp [convenience] at obligation

/-- A step keeps the source of a normative obligation. -/
theorem Step.obligation_source (step : ledger.Step command sequence next)
    (present : ledger.entries[fact]? = some entry) (obligation : entry.factClass = .obligation)
    (normative : entry.kind = .normative) :
    (ledger.effect sequence command fact entry).source = entry.source := by
  cases effect_source ledger sequence command fact entry with
  | kept _ source => exact source
  | promoted _ _ _ isPromotion _ _ =>
      subst isPromotion
      obtain ⟨found, live, convenience, _⟩ := step.guarded
      obtain rfl : entry = found := Option.some.inj (present.symm.trans live.present)
      simp [convenience] at obligation
  | observed _ _ _ wasEmpirical _ _ => simp [normative] at wasEmpirical

/-- No command turns a normative entry back into an empirical one. -/
theorem effect_normative (normative : entry.kind = .normative) :
    (ledger.effect sequence command fact entry).kind = .normative := by
  cases effect_source ledger sequence command fact entry with
  | kept kind _ => rw [kind, normative]
  | promoted _ _ _ _ normative _ => exact normative
  | observed _ _ _ wasEmpirical _ _ => simp [normative] at wasEmpirical

/-- A retired obligation keeps its successor. -/
theorem Step.retired_kept (step : ledger.Step command sequence next)
    (present : ledger.entries[fact]? = some entry) (obligation : entry.factClass = .obligation)
    (retired : entry.retired = true) :
    (ledger.effect sequence command fact entry).retired = true ∧
      (ledger.effect sequence command fact entry).supersededBy = entry.supersededBy := by
  have guarded := step.guarded
  cases effect_retirement ledger sequence command fact entry with
  | kept keptRetired supersededBy => exact ⟨keptRetired.trans retired, supersededBy⟩
  | withdrawn isWithdrawal _ =>
      exact absurd isWithdrawal (step.not_withdrawn present obligation)
  | discharged evidence isDischarge _ retired supersededBy => exact ⟨retired, supersededBy⟩
  | superseded successor isDischarge _ _ =>
      subst isDischarge
      obtain ⟨_, found, _, live, _⟩ := guarded
      obtain rfl : entry = found := Option.some.inj (present.symm.trans live.present)
      simp [live.notRetired] at retired
  | consolidated facts composite support reclaim isConsolidation member _ _ =>
      subst isConsolidation
      obtain ⟨found, live, _⟩ := guarded.2 fact member
      obtain rfl : entry = found := Option.some.inj (present.symm.trans live.present)
      simp [live.notRetired] at retired

/-- What holds of every entry of the ledger. -/
def ObligationsSound (ledger : Ledger) (discharged : FactId → Prop) : Prop :=
  ∀ (fact : FactId) (entry : Entry), ledger.entries[fact]? = some entry →
    ledger.EntrySound discharged fact entry

/-- A hop, once made, stays. -/
theorem Step.hop_kept (step : ledger.Step command sequence next)
    (sound : ledger.ObligationsSound discharged) {successor : FactId}
    (hop : ledger.Hop fact successor) : next.Hop fact successor := by
  obtain ⟨entry, successorEntry, present, successorPresent, obligation, successorObligation,
    retired, superseded, scope, authority, bindings⟩ := hop
  have identity := effect_identity ledger sequence command fact entry
  have successorIdentity := effect_identity ledger sequence command successor successorEntry
  have kept := step.retired_kept present obligation retired
  have source := step.obligation_source present obligation
    ((sound _ _ present).normative obligation)
  have successorSource := step.obligation_source successorPresent successorObligation
    ((sound _ _ successorPresent).normative successorObligation)
  refine ⟨_, _, step.entry_after present, step.entry_after successorPresent,
    identity.factClass.trans obligation, successorIdentity.factClass.trans successorObligation,
    kept.1, kept.2.trans superseded, ?_, ?_, ?_⟩
  · rw [identity.id, successorIdentity.id]
    exact scope
  · rw [source, successorSource]
    exact authority
  · rw [identity.bindings, successorIdentity.bindings]
    exact bindings

/-- An obligation that a discharge replaces gives way to a binding successor. -/
theorem Step.superseded_settles {successor : FactId}
    (step : ledger.Step (.discharge fact (.supersededBy successor)) sequence next)
    (sound : ledger.ObligationsSound discharged) (present : ledger.entries[fact]? = some entry)
    (retired : (ledger.effect sequence (.discharge fact (.supersededBy successor)) fact
      entry).retired = true)
    (supersededBy : (ledger.effect sequence (.discharge fact (.supersededBy successor)) fact
      entry).supersededBy = some successor) :
    ∃ path, next.Settles later fact path := by
  obtain ⟨distinct, found, successorEntry, live, successorLive, obligation, superseding⟩ :=
    step.guarded
  obtain rfl : entry = found := Option.some.inj (present.symm.trans live.present)
  simp only [supersedes, Bool.and_eq_true, decide_eq_true_eq] at superseding
  obtain ⟨⟨⟨⟨successorObligation, _⟩, scope⟩, authority⟩, bindings⟩ := superseding
  have identity := effect_identity ledger sequence (.discharge fact (.supersededBy successor)) fact
    entry
  have source := step.obligation_source present obligation
    ((sound _ _ present).normative obligation)
  have successorFound : next.entries[successor]? = some successorEntry := by
    rw [step.entry_after successorLive.present]
    simp [effect, assign_of_ne (Ne.symm distinct)]
  have rests : next.Rests later successor :=
    ⟨successorEntry, successorFound, successorObligation,
      (sound _ _ successorLive.present).binding successorLive.notRetired,
      .inl successorLive.notRetired⟩
  refine ⟨_, .hop ⟨_, successorEntry, step.entry_after present, successorFound,
    identity.factClass.trans obligation, successorObligation, retired, supersededBy, ?_, ?_, ?_⟩
    (.rest rests)⟩
  · rw [identity.id, (sound _ _ present).keyed]
    exact scope
  · rw [source]
    exact authority
  · rw [identity.bindings]
    exact bindings

/-- A consolidated obligation gives way to the composite. -/
theorem Step.consolidated_settles {facts : BTreeSet FactId} {composite : Entry}
    {support : GateSupport} {reclaim : Nat}
    (step : ledger.Step (.consolidate facts composite support reclaim) sequence next)
    (sound : ledger.ObligationsSound discharged) (present : ledger.entries[fact]? = some entry)
    (member : fact ∈ facts)
    (retired : (ledger.effect sequence (.consolidate facts composite support reclaim) fact
      entry).retired = true)
    (supersededBy : (ledger.effect sequence (.consolidate facts composite support reclaim) fact
      entry).supersededBy = some composite.id) :
    ∃ path, next.Settles later fact path := by
  obtain ⟨⟨compositeObligation, _⟩, constituents⟩ := step.guarded
  obtain ⟨found, live, obligation, scope, authority, bindings⟩ := constituents fact member
  obtain rfl : entry = found := Option.some.inj (present.symm.trans live.present)
  have admissible := step.admissible composite rfl
  have identity := effect_identity ledger sequence (.consolidate facts composite support reclaim)
    fact entry
  have source := step.obligation_source present obligation
    ((sound _ _ present).normative obligation)
  have compositeFound : next.entries[composite.id]? = some composite := by
    rw [step.entries]
    simp [offered]
  have rests : next.Rests later composite.id :=
    ⟨composite, compositeFound, compositeObligation, admissible.notSuperseded,
      .inl admissible.notRetired⟩
  refine ⟨_, .hop ⟨_, composite, step.entry_after present, compositeFound,
    identity.factClass.trans obligation, compositeObligation, retired, supersededBy, ?_, ?_, ?_⟩
    (.rest rests)⟩
  · rw [identity.id]
    exact scope.symm
  · rw [source]
    exact authority
  · rw [identity.bindings]
    exact bindings

/-- An obligation at rest before a step settles after it. -/
theorem Step.rests_settles (step : ledger.Step command sequence next)
    (sound : ledger.ObligationsSound discharged) (grows : ∀ fact, discharged fact → later fact)
    (records : ∀ fact, Discharges command fact → later fact)
    (rests : ledger.Rests discharged fact) : ∃ path, next.Settles later fact path := by
  obtain ⟨entry, present, obligation, unsuperseded, status⟩ := rests
  have identity := effect_identity ledger sequence command fact entry
  have restsAfter (supersededBy : (ledger.effect sequence command fact entry).supersededBy =
        entry.supersededBy)
      (status : (ledger.effect sequence command fact entry).retired = false ∨
        (ledger.effect sequence command fact entry).retired = true ∧ later fact) :
      ∃ path, next.Settles later fact path :=
    ⟨_, .rest ⟨_, step.entry_after present, identity.factClass.trans obligation,
      supersededBy.trans unsuperseded, status⟩⟩
  rcases status with binding | ⟨retired, wasDischarged⟩
  · cases effect_retirement ledger sequence command fact entry with
    | kept retired supersededBy => exact restsAfter supersededBy (.inl (retired.trans binding))
    | withdrawn isWithdrawal _ =>
        exact absurd isWithdrawal (step.not_withdrawn present obligation)
    | discharged evidence isDischarge notSuperseded retired supersededBy =>
        refine restsAfter supersededBy (.inr ⟨retired, records fact ?_⟩)
        have guarded := step.guarded
        subst isDischarge
        cases evidence with
        | insufficient => exact guarded.elim
        | resolved support => exact .inl ⟨support, rfl⟩
        | scopeClosed => exact .inr rfl
        | supersededBy successor => exact absurd rfl (notSuperseded successor)
    | superseded successor isDischarge retired supersededBy =>
        subst isDischarge
        exact step.superseded_settles sound present retired supersededBy
    | consolidated facts composite support reclaim isConsolidation member retired supersededBy =>
        subst isConsolidation
        exact step.consolidated_settles sound present member retired supersededBy
  · have kept := step.retired_kept present obligation retired
    exact restsAfter kept.2 (.inr ⟨kept.1, grows fact wasDischarged⟩)

/-- Every succession survives a step, possibly extended at its end. -/
theorem Step.settles_kept (step : ledger.Step command sequence next)
    (sound : ledger.ObligationsSound discharged) (grows : ∀ fact, discharged fact → later fact)
    (records : ∀ fact, Discharges command fact → later fact) {path : List FactId}
    (settles : ledger.Settles discharged fact path) : ∃ path, next.Settles later fact path := by
  induction settles with
  | rest rests => exact step.rests_settles sound grows records rests
  | hop hop _ ih =>
      obtain ⟨path, settles⟩ := ih
      exact ⟨_, .hop (step.hop_kept sound hop) settles⟩

/-- An obligation that an accepted command stores is normative. -/
theorem Step.offered_normative (step : ledger.Step command sequence next)
    (offer : offered command = some entry) (obligation : entry.factClass = .obligation) :
    entry.kind = .normative := by
  have guarded := step.guarded
  cases command with
  | admitObligation | admitConvenience | consolidate | amend =>
      simp only [offered, Option.some.injEq] at offer
      subst offer
      simp_all [Guarded]
  | demote | discharge | retract | promote | factInvalidate | revalidate | staleDemote | decay
  | redact => simp [offered] at offer

/-- No command leaves a binding entry with a successor. -/
theorem effect_binding (binding : entry.retired = false → entry.supersededBy = none)
    (live : (ledger.effect sequence command fact entry).retired = false) :
    (ledger.effect sequence command fact entry).supersededBy = none := by
  cases effect_retirement ledger sequence command fact entry with
  | kept retired supersededBy => rw [supersededBy, binding (retired ▸ live)]
  | withdrawn _ retired | discharged _ _ _ retired _ | superseded _ _ retired _
  | consolidated _ _ _ _ _ _ retired _ => simp [retired] at live

theorem Step.obligationsSound (step : ledger.Step command sequence next)
    (sound : ledger.ObligationsSound discharged) (grows : ∀ fact, discharged fact → later fact)
    (records : ∀ fact, Discharges command fact → later fact) :
    next.ObligationsSound later := by
  intro fact entry found
  rcases step.entry_cases found with ⟨offer, rfl⟩ | ⟨old, present, rfl⟩
  · have admissible := step.admissible entry offer
    exact {
      keyed := rfl
      normative := step.offered_normative offer
      binding := fun _ => admissible.notSuperseded
      settles := fun obligation =>
        ⟨_, .rest ⟨entry, found, obligation, admissible.notSuperseded,
          .inl admissible.notRetired⟩⟩ }
  · have identity := effect_identity ledger sequence command fact old
    have oldSound := sound fact old present
    exact {
      keyed := identity.id.trans oldSound.keyed
      normative := fun obligation =>
        effect_normative (oldSound.normative (identity.factClass ▸ obligation))
      binding := effect_binding oldSound.binding
      settles := fun obligation => by
        obtain ⟨path, settles⟩ := oldSound.settles (identity.factClass ▸ obligation)
        exact step.settles_kept sound grows records settles }

end Step

section Runs

variable {ledger start : Ledger} {discharged later : FactId → Prop} {calls : List Call}

theorem Settles.mono {fact : FactId} {path : List FactId}
    (settles : ledger.Settles discharged fact path) (grows : ∀ fact, discharged fact → later fact) :
    ledger.Settles later fact path := by
  induction settles with
  | rest rests =>
      obtain ⟨entry, present, obligation, unsuperseded, status⟩ := rests
      refine .rest ⟨entry, present, obligation, unsuperseded, status.imp_right ?_⟩
      exact fun ⟨retired, wasDischarged⟩ => ⟨retired, grows _ wasDischarged⟩
  | hop hop _ ih => exact .hop hop ih

theorem ObligationsSound.mono (sound : ledger.ObligationsSound discharged)
    (grows : ∀ fact, discharged fact → later fact) : ledger.ObligationsSound later := by
  intro fact entry present
  have entrySound := sound fact entry present
  exact { entrySound with
    settles := fun obligation => by
      obtain ⟨path, settles⟩ := entrySound.settles obligation
      exact ⟨path, settles.mono grows⟩ }

theorem Discharged.concat {call : Call} {fact : FactId} (h : Discharged start calls fact) :
    Discharged start (calls ++ [call]) fact := by
  obtain ⟨before, discharge, isPrefix, accepted, discharges⟩ := h
  exact ⟨before, discharge, isPrefix.trans (List.prefix_append _ _), accepted, discharges⟩

/-- Every state of a run is sound for the discharges of the run so far. -/
theorem after_obligationsSound {params : LedgerParams} (fresh : Ledger.new params = .ok start)
    (calls : List Call) : (start.after calls).ObligationsSound (Discharged start calls) := by
  induction calls using List.reverseRecOn with
  | nil =>
      intro fact entry found
      simp [after, new_entries fresh] at found
  | append_singleton before call ih =>
      have performed : start.after (before ++ [call]) = (start.after before).perform call :=
        run_concat
      rw [performed]
      rcases (start.after before).perform_cases call with ⟨_, unchanged⟩ | ⟨accepted, step⟩
      · rw [unchanged]
        exact ih.mono fun _ => Discharged.concat
      · exact step.obligationsSound ih (fun _ => Discharged.concat) fun _ discharges =>
          ⟨before, call, List.prefix_refl _, accepted, discharges⟩

/-- A sound ledger keeps an obligation, its class, bindings and source through
any further calls. -/
theorem obligation_kept {fact : FactId} {admitted : Entry}
    (present : ledger.entries[fact]? = some admitted)
    (obligation : admitted.factClass = .obligation) (normative : admitted.kind = .normative)
    (calls : List Call) :
    ∃ entry : Entry, (ledger.after calls).entries[fact]? = some entry ∧
      entry.factClass = .obligation ∧ entry.kind = .normative ∧
      entry.bindings = admitted.bindings ∧ entry.source = admitted.source := by
  refine run_invariant (fun state : Ledger => ∃ entry : Entry,
      state.entries[fact]? = some entry ∧ entry.factClass = .obligation ∧
      entry.kind = .normative ∧ entry.bindings = admitted.bindings ∧
      entry.source = admitted.source)
    ⟨admitted, present, obligation, normative, rfl, rfl⟩ ?_ calls (List.prefix_refl _)
  rintro before call _ ⟨entry, found, entryObligation, entryNormative, bindings, source⟩
  rcases (run perform ledger before).perform_cases call with ⟨_, unchanged⟩ | ⟨_, step⟩
  · rw [unchanged]
    exact ⟨entry, found, entryObligation, entryNormative, bindings, source⟩
  · have identity := effect_identity (run perform ledger before) call.sequence call.command fact
      entry
    exact ⟨_, step.entry_after found, identity.factClass.trans entryObligation,
      effect_normative entryNormative, identity.bindings.trans bindings,
      (step.obligation_source found entryObligation entryNormative).trans source⟩

/-- Obligations are never silently lost: whatever was admitted as an obligation
anywhere in a run is still there, unchanged in class, bindings and source; it
binds, was explicitly discharged, or carries a successor; and its successors
form a finite acyclic chain of obligations that ends in one of the first two. -/
theorem obligations_never_lost (params : LedgerParams) (start : Ledger)
    (fresh : Ledger.new params = .ok start) (calls reached : List Call)
    (isPrefix : reached <+: calls) (fact : FactId) (admitted : Entry)
    (present : (start.after reached).entries[fact]? = some admitted)
    (obligation : admitted.factClass = .obligation) :
    ∃ entry : Entry, (start.after calls).entries[fact]? = some entry ∧
      entry.factClass = admitted.factClass ∧ entry.bindings = admitted.bindings ∧
      entry.source = admitted.source ∧
      (entry.retired = false ∨ Discharged start calls fact ∨ entry.supersededBy.isSome) ∧
      ∃ path, (start.after calls).Succession (Discharged start calls) fact path := by
  obtain ⟨rest, rfl⟩ := isPrefix
  have reachedSound := after_obligationsSound fresh reached fact admitted present
  obtain ⟨entry, found, entryObligation, _, bindings, source⟩ :=
    obligation_kept present obligation (reachedSound.normative obligation) rest
  have resumed : start.after (reached ++ rest) = (start.after reached).after rest :=
    run_append
  rw [← resumed] at found
  obtain ⟨path, settles⟩ :=
    (after_obligationsSound fresh (reached ++ rest) fact entry found).settles entryObligation
  refine ⟨entry, found, entryObligation.trans obligation.symm, bindings, source, ?_, path,
    settles.succession⟩
  cases settles with
  | rest rests =>
      obtain ⟨resting, restingFound, _, _, status⟩ := rests
      obtain rfl : entry = resting := Option.some.inj (found.symm.trans restingFound)
      rcases status with binding | ⟨_, wasDischarged⟩
      · exact .inl binding
      · exact .inr (.inl wasDischarged)
  | hop hop _ =>
      obtain ⟨hopping, _, hoppingFound, _, _, _, _, superseded, _⟩ := hop
      obtain rfl : entry = hopping := Option.some.inj (found.symm.trans hoppingFound)
      exact .inr (.inr (by simp [superseded]))

end Runs

section Supersession

/-- A confirmed rule of the agent. -/
def rule (predicate : String) (bindings : BTreeSet String) : Entry :=
  { note with
    id := ⟨"build", predicate, 1⟩
    factClass := .obligation
    kind := .normative
    bindings := bindings }

def offlineRule : Entry :=
  rule "offline" (.ofList ["cargo"])

def hermeticRule : Entry :=
  rule "hermetic" (.ofList ["cargo", "npm"])

/-- A rule, a broader rule, and the discharge of the first by the second. -/
def supersessionCalls : List Call :=
  [⟨.admitObligation offlineRule .obligation, 1, oneScope⟩,
    ⟨.admitObligation hermeticRule .obligation, 2, oneScope⟩,
    ⟨.discharge offlineRule.id (.supersededBy hermeticRule.id), 3, oneScope⟩]

/-- The superseded rule is still there after the run. -/
theorem superseded_rule_kept :
    ∃ entry : Entry,
      (Ledger.initial.after supersessionCalls).entries[offlineRule.id]? = some entry ∧
      entry.factClass = offlineRule.factClass ∧ entry.bindings = offlineRule.bindings ∧
      entry.source = offlineRule.source ∧
      (entry.retired = false ∨ Discharged .initial supersessionCalls offlineRule.id ∨
        entry.supersededBy.isSome) ∧
      ∃ path, (Ledger.initial.after supersessionCalls).Succession
        (Discharged .initial supersessionCalls) offlineRule.id path :=
  obligations_never_lost .default .initial rfl supersessionCalls (supersessionCalls.take 1)
    (List.take_prefix _ _) offlineRule.id offlineRule (by decide +kernel) rfl

/-- The run does retire the rule in favour of the broader one. -/
example :
    ((Ledger.initial.after supersessionCalls).entries[offlineRule.id]?.map
      fun entry => (entry.retired, entry.supersededBy)) = some (true, some hermeticRule.id) := by
  decide +kernel

end Supersession

end Llxprt.Kernel.Ledger

import Llxprt.Kernel.Ledger.State

/-!
# What one ledger command can do

Every accepted command rewrites the entries that were there by one function of
the entry, stores at most one new entry, and moves the recorded versions only
when it is a tool write.  Invariants of the ledger are read off this
description and never unfold the transition functions again.
-/

namespace Llxprt.Kernel.Ledger

open Llxprt.Rust

/-- The entry that a command asks the ledger to store. -/
def offered : Command → Option Entry
  | .admitObligation entry _ => some entry
  | .admitConvenience entry => some entry
  | .consolidate _ composite _ _ => some composite
  | .amend _ replacement _ => some replacement
  | _ => none

/-- The domain versions that a command declares written. -/
def written : Command → BTreeMap String UInt64
  | .factInvalidate _ writes => writes
  | _ => ∅

/-- Rewrite the entry of one fact. -/
def assign (fact : FactId) (change : Entry → Entry) (key : FactId) (entry : Entry) : Entry :=
  if fact = key then change entry else entry

/-- An entry retired in favour of `successor`, carrying its text. -/
def retireFor (successor : FactId) (text : String) (entry : Entry) : Entry :=
  { entry with
    retired := true
    supersededBy := some successor
    fold := { entry.fold with text := text } }

/-- How a command rewrites the entry stored under a key. -/
def effect (ledger : Ledger) (sequence : Nat) : Command → FactId → Entry → Entry
  | .admitObligation .. | .admitConvenience .. => fun _ entry => entry
  | .demote fact _ => assign fact fun entry => { entry with rendered := false }
  | .decay fact usage => assign fact fun entry =>
      { entry with utility := ledger.utility usage, usage := usage, lastDecay := sequence }
  | .discharge fact (.supersededBy successor) => assign fact fun entry =>
      retireFor successor (((ledger.entry successor).map fun next => next.fold.text).getD "") entry
  | .discharge fact _ => assign fact fun entry => { entry with retired := true }
  | .consolidate facts composite _ _ => fun key entry =>
      if key ∈ facts then retireFor composite.id composite.fold.text entry else entry
  | .amend fact replacement _ => assign fact (retireFor replacement.id replacement.fold.text)
  | .retract fact _ => assign fact fun entry =>
      { entry with fold := { entry.fold with text := "" }, rendered := false, retired := true }
  | .promote fact source adoption _ => assign fact fun entry =>
      { entry with kind := .normative, source := adoption.getD source }
  | .factInvalidate _ writes => fun _ => invalidateEntry writes
  | .revalidate observation => fun _ => revalidateEntry ledger.versions observation
  | .staleDemote domains => fun _ entry =>
      if entry.freshness = .stale && readsAny entry domains.contains then
        { entry with evidence := .unverified }
      else
        entry
  | .redact leaf => fun _ entry =>
      if (ledger.dependents leaf).contains entry.id then
        { entry with
          evidence := .unverified
          freshness := .unknown
          fold := { entry.fold with text := erasedTombstone } }
      else
        entry

/-- The live entry of a fact. -/
structure Live (ledger : Ledger) (fact : FactId) (entry : Entry) : Prop where
  present : ledger.entries[fact]? = some entry
  notRetired : entry.retired = false

/-- Conditions on a stored entry that `check_entry` establishes. -/
structure Admissible (ledger : Ledger) (entry : Entry) : Prop where
  absent : ledger.entries[entry.id]? = none
  notRetired : entry.retired = false
  notSuperseded : entry.supersededBy = none
  inScope : entry.source.scope = entry.id.scope
  leaf : entry.source.leaf ≠ ""

/-- What the source of a normative entry must be. -/
def Sanctioned (source : Source) : Prop :=
  source.origin = .ingress ∧ .agent ≤ source.authority

/-- What an accepted command has checked against the ledger before it. -/
def Guarded (ledger : Ledger) : Command → Prop
  | .admitObligation entry _ =>
      entry.factClass = .obligation ∧ entry.kind = .normative ∧ Sanctioned entry.source
  | .admitConvenience entry =>
      entry.factClass = .convenience ∧ (entry.kind = .normative → Sanctioned entry.source)
  | .consolidate facts composite _ _ =>
      (composite.factClass = .obligation ∧ composite.kind = .normative ∧
        Sanctioned composite.source) ∧
      ∀ fact ∈ facts, ∃ entry, ledger.Live fact entry ∧ entry.factClass = .obligation ∧
        entry.id.scope = composite.id.scope ∧
        entry.source.authority ≤ composite.source.authority ∧
        isSubset entry.bindings composite.bindings
  | .amend fact replacement _ =>
      (replacement.factClass = .convenience ∧
        (replacement.kind = .normative → Sanctioned replacement.source)) ∧
      ∃ entry, ledger.Live fact entry ∧ entry.factClass = .convenience
  | .discharge fact (.supersededBy successor) =>
      successor ≠ fact ∧ ∃ entry next, ledger.Live fact entry ∧ ledger.Live successor next ∧
        entry.factClass = .obligation ∧ supersedes next fact entry
  | .discharge _ .insufficient => False
  | .discharge fact (.resolved _) | .discharge fact .scopeClosed =>
      ∃ entry, ledger.Live fact entry ∧ entry.factClass = .obligation
  | .promote fact source adoption support =>
      ∃ entry, ledger.Live fact entry ∧ entry.factClass = .convenience ∧
        (sameSource entry fact source ∨ adopted entry fact adoption) ∧
        supported support fact entry.fold.text
  | .demote fact _ | .decay fact _ | .retract fact _ =>
      ∃ entry, ledger.Live fact entry ∧ entry.factClass = .convenience
  | .revalidate observation =>
      observation.source.origin = .ingress ∧ observation.source.leaf ≠ ""
  | .factInvalidate .. | .staleDemote _ | .redact _ => True

/-- The complete description of an accepted command. -/
structure Step (ledger : Ledger) (command : Command) (sequence : Nat) (next : Ledger) :
    Prop where
  guarded : ledger.Guarded command
  admissible : ∀ entry, offered command = some entry → ledger.Admissible entry
  entries : ∀ fact : FactId, next.entries[fact]? =
    match offered command with
    | some entry =>
        if entry.id = fact then some entry
        else ledger.entries[fact]?.map (ledger.effect sequence command fact)
    | none => ledger.entries[fact]?.map (ledger.effect sequence command fact)
  versions : next.versions = ledger.versions ∪ written command

/-- An entry found after a step was offered by the command or is the rewritten
form of an entry found before it. -/
theorem Step.entry_cases {ledger next : Ledger} {command : Command} {sequence : Nat}
    (step : ledger.Step command sequence next) {fact : FactId} {entry : Entry}
    (found : next.entries[fact]? = some entry) :
    (offered command = some entry ∧ entry.id = fact) ∨
      ∃ old, ledger.entries[fact]? = some old ∧
        entry = ledger.effect sequence command fact old := by
  rw [step.entries fact] at found
  cases offer : offered command with
  | none =>
      simp only [offer, Option.map_eq_some_iff] at found
      obtain ⟨old, present, rfl⟩ := found
      exact .inr ⟨old, present, rfl⟩
  | some incoming =>
      simp only [offer] at found
      split at found
      · rename_i same
        obtain rfl := Option.some.inj found
        exact .inl ⟨rfl, same⟩
      · obtain ⟨old, present, rfl⟩ := Option.map_eq_some_iff.mp found
        exact .inr ⟨old, present, rfl⟩

/-- An entry found before a step is found rewritten after it. -/
theorem Step.entry_after {ledger next : Ledger} {command : Command} {sequence : Nat}
    (step : ledger.Step command sequence next) {fact : FactId} {entry : Entry}
    (present : ledger.entries[fact]? = some entry) :
    next.entries[fact]? = some (ledger.effect sequence command fact entry) := by
  rw [step.entries fact]
  cases offer : offered command with
  | none => simp [present]
  | some incoming =>
      have fresh : incoming.id ≠ fact := by
        rintro rfl
        simp [(step.admissible incoming offer).absent] at present
      simp [fresh, present]

section Lookup

variable {ledger : Ledger} {fact other : FactId} {entry : Entry} {change : Entry → Entry}

@[simp]
theorem live_eq_ok : ledger.live fact = .ok entry ↔ ledger.Live fact entry := by
  simp only [live, Ledger.entry, bind_eq_ok, okOr_eq_ok, reject_eq_ok, pure_eq_ok]
  constructor
  · rintro ⟨found, present, _, notRetired, rfl⟩
    exact ⟨present, by simpa using notRetired⟩
  · intro h
    exact ⟨entry, h.present, (), by simp [h.notRetired], rfl⟩

@[simp]
theorem assign_self : assign fact change fact = change := by
  funext entry
  simp [assign]

theorem assign_of_ne (h : fact ≠ other) : assign fact change other = id := by
  funext entry
  simp [assign, h]

@[simp]
theorem recordConflicts_entries : (ledger.recordConflicts entry).entries = ledger.entries :=
  rfl

@[simp]
theorem recordConflicts_versions : (ledger.recordConflicts entry).versions = ledger.versions :=
  rfl

@[simp]
theorem removeConflicts_entries : (ledger.removeConflicts fact).entries = ledger.entries :=
  rfl

@[simp]
theorem removeConflicts_versions : (ledger.removeConflicts fact).versions = ledger.versions :=
  rfl

@[simp]
theorem insert_versions : (ledger.insert entry).versions = ledger.versions :=
  rfl

@[simp]
theorem modify_versions : (ledger.modify fact change).versions = ledger.versions :=
  rfl

@[simp]
theorem modifyAll_versions : (ledger.modifyAll change).versions = ledger.versions :=
  rfl

@[simp]
theorem insert_entries : (ledger.insert entry).entries[other]? =
    if entry.id = other then some entry else ledger.entries[other]? := by
  simp [Ledger.insert, Std.ExtTreeMap.getElem?_insert]

@[simp]
theorem modify_entries : (ledger.modify fact change).entries[other]? =
    ledger.entries[other]?.map (assign fact change other) := by
  by_cases h : fact = other
  · subst h
    simp [Ledger.modify, assign_self]
  · simp [Ledger.modify, assign_of_ne h, Std.ExtTreeMap.getElem?_modify, h]

@[simp]
theorem modifyAll_entries :
    (ledger.modifyAll change).entries[other]? = ledger.entries[other]?.map change := by
  simp [modifyAll]

end Lookup

section Frame

variable (ledger : Ledger) (sequence : Nat) (command : Command) (key : FactId) (entry : Entry)

/-- No command renames an entry, changes its class or changes its bindings. -/
structure SameIdentity (before after : Entry) : Prop where
  id : after.id = before.id
  factClass : after.factClass = before.factClass
  bindings : after.bindings = before.bindings

theorem SameIdentity.refl {entry : Entry} : SameIdentity entry entry :=
  ⟨rfl, rfl, rfl⟩

theorem effect_identity : SameIdentity entry (ledger.effect sequence command key entry) := by
  cases command with
  | admitObligation | admitConvenience => exact .refl
  | demote | decay | retract | promote | amend | consolidate | factInvalidate | revalidate
  | staleDemote | redact =>
      simp only [effect, assign, invalidateEntry, revalidateEntry]
      split
      · exact ⟨rfl, rfl, rfl⟩
      · exact .refl
  | discharge fact evidence =>
      cases evidence <;> simp only [effect, assign] <;> split <;> exact ⟨rfl, rfl, rfl⟩

/-- No command changes what an entry was derived from. -/
theorem effect_premises :
    (ledger.effect sequence command key entry).premises = entry.premises := by
  cases command with
  | admitObligation | admitConvenience => rfl
  | demote | decay | retract | promote | amend | consolidate | factInvalidate | revalidate
  | staleDemote | redact =>
      simp only [effect, assign, invalidateEntry, revalidateEntry]
      split <;> rfl
  | discharge fact evidence =>
      cases evidence <;> simp only [effect, assign] <;> split <;> rfl

/-- The source and the kind of an entry change only by promotion of the entry
or, for an empirical entry, by an observation of the same scope. -/
inductive SourceMove (command : Command) (key : FactId) (before after : Entry) : Prop
  | kept (kind : after.kind = before.kind) (source : after.source = before.source)
  | promoted (promotedFrom : Source) (adoption : Option Source) (support : GateSupport)
      (isPromotion : command = .promote key promotedFrom adoption support)
      (normative : after.kind = .normative) (source : after.source = adoption.getD promotedFrom)
  | observed (observation : Observation) (isObservation : command = .revalidate observation)
      (empirical : after.kind = .empirical) (wasEmpirical : before.kind = .empirical)
      (scope : observation.source.scope = before.id.scope)
      (source : after.source = observation.source)

theorem effect_source :
    SourceMove command key entry (ledger.effect sequence command key entry) := by
  cases command with
  | admitObligation | admitConvenience => exact .kept rfl rfl
  | demote | decay | retract | amend | consolidate | factInvalidate | staleDemote | redact =>
      simp only [effect, assign, invalidateEntry]
      split <;> exact .kept rfl rfl
  | discharge fact evidence =>
      cases evidence <;> simp only [effect, assign] <;> split <;> exact .kept rfl rfl
  | promote fact source adoption support =>
      simp only [effect, assign]
      split
      · rename_i same
        subst same
        exact .promoted source adoption support rfl rfl rfl
      · exact .kept rfl rfl
  | revalidate observation =>
      simp only [effect, revalidateEntry]
      split
      · rename_i selected
        simp only [Bool.and_eq_true, decide_eq_true_eq] at selected
        by_cases empirical : entry.kind = .empirical
        · exact .observed observation rfl empirical empirical selected.1.1.2 (by simp [empirical])
        · exact .kept rfl (by simp [empirical])
      · exact .kept rfl rfl

end Frame

section Operations

variable {ledger next : Ledger} {fact : FactId} {entry : Entry} {scopes : ScopeRegistry}
  {sequence : Nat}

theorem union_empty {versions : BTreeMap String UInt64} : versions ∪ ∅ = versions := by
  apply Std.ExtTreeMap.ext_getElem?
  intro domain
  simp [Std.ExtTreeMap.getElem?_union]

/-- A command that offers no entry and writes no domain is described by its
effect alone. -/
theorem Step.ofEffect {command : Command} (guarded : ledger.Guarded command)
    (noOffer : offered command = none) (noWrite : written command = ∅)
    (entries : ∀ fact : FactId, next.entries[fact]? =
      ledger.entries[fact]?.map (ledger.effect sequence command fact))
    (versions : next.versions = ledger.versions) :
    ledger.Step command sequence next where
  guarded := guarded
  admissible := by simp [noOffer]
  entries := by simpa [noOffer] using entries
  versions := by rw [noWrite, union_empty, versions]

theorem checkEntry_admissible {result : Unit} (h : ledger.checkEntry entry scopes = .ok result) :
    ledger.Admissible entry := by
  simp only [checkEntry, bind_eq_ok, reject_eq_ok, not_or] at h
  obtain ⟨_, ⟨absent, notRetired, notSuperseded⟩, _, _, _, ⟨inScope, leaf⟩, _⟩ := h
  exact {
    absent := by simpa using absent
    notRetired := by simpa using notRetired
    notSuperseded := by simpa using notSuperseded
    inScope := by simpa using inScope
    leaf := by simpa using leaf }

theorem sanctioned_of_ne_environment {source : Source} (origin : source.origin = .ingress)
    (authority : source.authority ≠ .environment) : Sanctioned source := by
  refine ⟨origin, ?_⟩
  cases h : source.authority with
  | environment => exact absurd h authority
  | agent | user | operator => decide

/-- What an accepted obligation has passed, and where it is stored. -/
theorem admitObligation_eq_ok {grammar : Grammar}
    (h : ledger.admitObligation entry grammar scopes = .ok next) :
    (entry.factClass = .obligation ∧ entry.kind = .normative ∧ Sanctioned entry.source) ∧
      ledger.Admissible entry ∧ next = (ledger.recordConflicts entry).insert entry := by
  simp only [admitObligation, bind_eq_ok, reject_eq_ok, pure_eq_ok, not_or, not_not] at h
  obtain ⟨_, ⟨notEnvironment, _⟩, _, ⟨origin, factClass, kind⟩, _, _, _, _, _, checked, _, _,
    rfl⟩ := h
  exact ⟨⟨factClass, kind, sanctioned_of_ne_environment origin notEnvironment⟩,
    checkEntry_admissible checked, rfl⟩

theorem admitObligation_step {grammar : Grammar}
    (h : ledger.admitObligation entry grammar scopes = .ok next) :
    ledger.Step (.admitObligation entry grammar) sequence next := by
  obtain ⟨guarded, admissible, rfl⟩ := admitObligation_eq_ok h
  exact {
    guarded := guarded
    admissible := by simpa [offered] using admissible
    entries := by simp [offered, effect]
    versions := by simp [written, union_empty] }

theorem admitConvenience_step (h : ledger.admitConvenience entry scopes = .ok next) :
    ledger.Step (.admitConvenience entry) sequence next := by
  simp only [admitConvenience, bind_eq_ok, reject_eq_ok, pure_eq_ok, not_or, not_and,
    not_not, Authority.not_lt] at h
  obtain ⟨_, checked, _, ⟨factClass, _⟩, _, sanctioned, rfl⟩ := h
  exact {
    guarded := ⟨factClass, fun kind => ⟨(sanctioned kind).2, (sanctioned kind).1⟩⟩
    admissible := by simpa [offered] using checkEntry_admissible checked
    entries := by simp [offered, effect]
    versions := by simp [written, union_empty] }

theorem convenience_of_ne {entry : Entry} (h : entry.factClass ≠ .obligation) :
    entry.factClass = .convenience := by
  cases k : entry.factClass with
  | obligation => exact absurd k h
  | convenience => rfl

theorem demote_step {reclaim : Nat} (h : ledger.demote fact reclaim = .ok next) :
    ledger.Step (.demote fact reclaim) sequence next := by
  simp only [demote, bind_eq_ok, live_eq_ok, reject_eq_ok, pure_eq_ok] at h
  obtain ⟨entry, live, _, convenience, _, _, rfl⟩ := h
  exact .ofEffect ⟨entry, live, convenience_of_ne convenience⟩ rfl rfl
    (fun _ => modify_entries) rfl

theorem decay_step {usage : Usage} (h : ledger.decay fact usage sequence = .ok next) :
    ledger.Step (.decay fact usage) sequence next := by
  simp only [decay, bind_eq_ok, live_eq_ok, reject_eq_ok, pure_eq_ok] at h
  obtain ⟨entry, live, _, convenience, _, _, _, _, rfl⟩ := h
  exact .ofEffect ⟨entry, live, convenience_of_ne convenience⟩ rfl rfl
    (fun _ => modify_entries) rfl

theorem retract_step {principal : Source} (h : ledger.retract fact principal = .ok next) :
    ledger.Step (.retract fact principal) sequence next := by
  simp only [retract, bind_eq_ok, live_eq_ok, reject_eq_ok, pure_eq_ok] at h
  obtain ⟨entry, live, _, convenience, _, _, rfl⟩ := h
  exact .ofEffect ⟨entry, live, convenience_of_ne convenience⟩ rfl rfl
    (fun _ => modify_entries) rfl

theorem promote_step {source : Source} {adoption : Option Source} {support : GateSupport}
    (h : ledger.promote fact source adoption support = .ok next) :
    ledger.Step (.promote fact source adoption support) sequence next := by
  simp only [promote, bind_eq_ok, live_eq_ok, reject_eq_ok, pure_eq_ok, not_and, not_not] at h
  obtain ⟨entry, live, _, convenience, _, backed, _, gate, rfl⟩ := h
  refine .ofEffect ⟨entry, live, convenience_of_ne convenience, ?_, gate⟩ rfl rfl
    (fun _ => modify_entries) rfl
  exact or_iff_not_imp_left.mpr backed

theorem discharge_step {evidence : DischargeEvidence}
    (h : ledger.discharge fact evidence scopes = .ok next) :
    ledger.Step (.discharge fact evidence) sequence next := by
  simp only [discharge, bind_eq_ok, live_eq_ok, reject_eq_ok, not_not] at h
  obtain ⟨entry, live, _, obligation, h⟩ := h
  cases evidence with
  | insufficient => simp at h
  | resolved support =>
      simp only [bind_eq_ok, reject_eq_ok, pure_eq_ok] at h
      obtain ⟨_, _, rfl⟩ := h
      exact .ofEffect ⟨entry, live, obligation⟩ rfl rfl (fun _ => modify_entries) rfl
  | scopeClosed =>
      simp only [bind_eq_ok, reject_eq_ok, pure_eq_ok] at h
      obtain ⟨_, _, rfl⟩ := h
      exact .ofEffect ⟨entry, live, obligation⟩ rfl rfl (fun _ => modify_entries) rfl
  | supersededBy successor =>
      simp only [bind_eq_ok, reject_eq_ok] at h
      obtain ⟨_, distinct, h⟩ := h
      cases found : ledger.live successor with
      | error error => simp [found] at h
      | ok successorEntry =>
          simp only [found, bind_eq_ok, reject_eq_ok, pure_eq_ok, not_not] at h
          obtain ⟨_, superseding, rfl⟩ := h
          have successorLive := live_eq_ok.mp found
          refine .ofEffect ⟨distinct, entry, successorEntry, live, successorLive, obligation,
            superseding⟩ rfl rfl (fun key => ?_) rfl
          simp [effect, Ledger.entry, successorLive.present, retireFor]

/-- A discharge changes the entry and settles its conflicts. -/
theorem discharge_eq_ok {evidence : DischargeEvidence}
    (h : ledger.discharge fact evidence scopes = .ok next) :
    ∃ change, next = (ledger.modify fact change).removeConflicts fact := by
  simp only [discharge, bind_eq_ok, reject_eq_ok] at h
  rcases h with ⟨_, _, _, _, h⟩
  cases evidence with
  | insufficient => cases h
  | resolved | scopeClosed =>
      simp only [bind_eq_ok, pure_eq_ok] at h
      rcases h with ⟨_, _, rfl⟩
      exact ⟨_, rfl⟩
  | supersededBy successor =>
      simp only [bind_eq_ok] at h
      rcases h with ⟨_, _, h⟩
      cases found : ledger.live successor with
      | error error => simp [found] at h
      | ok successorEntry =>
          simp only [found, bind_eq_ok, pure_eq_ok] at h
          rcases h with ⟨_, _, rfl⟩
          exact ⟨_, rfl⟩

theorem amend_step {replacement : Entry} {principal : Source}
    (h : ledger.amend fact replacement principal scopes = .ok next) :
    ledger.Step (.amend fact replacement principal) sequence next := by
  simp only [amend, bind_eq_ok, live_eq_ok, reject_eq_ok, pure_eq_ok, not_or, not_and,
    not_not, Authority.not_lt] at h
  obtain ⟨old, live, _, convenience, _, _, _, ⟨sameClass, _⟩, _, sanctioned, _, checked,
    rfl⟩ := h
  have oldConvenience := convenience_of_ne convenience
  exact {
    guarded := ⟨⟨sameClass.trans oldConvenience, sanctioned⟩, old, live, oldConvenience⟩
    admissible := by simpa [offered] using checkEntry_admissible checked
    entries := by
      intro key
      simp [offered, effect]
      rfl
    versions := by simp [written, union_empty] }

theorem invalidate_step {result : ToolWrite} {writes : BTreeMap String UInt64}
    (h : ledger.invalidate result writes = .ok next) :
    ledger.Step (.factInvalidate result writes) sequence next := by
  simp only [invalidate, bind_eq_ok, reject_eq_ok, pure_eq_ok] at h
  obtain ⟨_, _, _, _, rfl⟩ := h
  exact {
    guarded := trivial
    admissible := by simp [offered]
    entries := by simp [offered, effect]
    versions := rfl }

theorem revalidate_step {observation : Observation}
    (h : ledger.revalidate observation = .ok next) :
    ledger.Step (.revalidate observation) sequence next := by
  simp only [revalidate, bind_eq_ok, reject_eq_ok, pure_eq_ok, not_or, not_not] at h
  obtain ⟨_, ⟨origin, leaf⟩, rfl⟩ := h
  exact .ofEffect ⟨origin, by simpa using leaf⟩ rfl rfl (fun _ => modifyAll_entries) rfl

theorem staleDemote_step {domains : BTreeSet String} :
    ledger.Step (.staleDemote domains) sequence (ledger.staleDemote domains) :=
  .ofEffect trivial rfl rfl (fun _ => modifyAll_entries) rfl

theorem redact_step {leaf : String} :
    ledger.Step (.redact leaf) sequence (ledger.redact leaf) :=
  .ofEffect trivial rfl rfl (fun _ => modifyAll_entries) rfl

end Operations

section Consolidation

variable {ledger next : Ledger} {composite : Entry} {scopes : ScopeRegistry} {sequence : Nat}

/-- What the constituent loop has checked about one constituent. -/
def Constituent (ledger : Ledger) (composite : Entry) (bindings : BTreeSet String)
    (fact : FactId) : Prop :=
  ∃ entry, ledger.Live fact entry ∧ entry.factClass = .obligation ∧
    entry.id.scope = composite.id.scope ∧ entry.source.authority ≤ composite.source.authority ∧
    isSubset entry.bindings bindings

theorem Constituent.mono {small large : BTreeSet String} {fact : FactId}
    (h : ledger.Constituent composite small fact) (subset : isSubset small large) :
    ledger.Constituent composite large fact := by
  obtain ⟨entry, live, obligation, scope, authority, bound⟩ := h
  refine ⟨entry, live, obligation, scope, authority, ?_⟩
  rw [isSubset_iff] at *
  exact fun key mem => subset key (bound key mem)

theorem collectConstituent_eq_ok {collected result : BTreeSet String × Nat} {fact : FactId}
    (h : ledger.collectConstituent composite collected fact = .ok result) :
    ledger.Constituent composite result.1 fact ∧ isSubset collected.1 result.1 := by
  simp only [collectConstituent, bind_eq_ok, live_eq_ok, reject_eq_ok, pure_eq_ok, not_or,
    not_not, Authority.not_lt] at h
  obtain ⟨entry, live, _, ⟨obligation, scope, authority⟩, rfl⟩ := h
  refine ⟨⟨entry, live, obligation, scope, authority, ?_⟩, ?_⟩
  · rw [isSubset_iff]
    exact fun key mem => Std.ExtTreeSet.mem_union_iff.mpr (.inr mem)
  · rw [isSubset_iff]
    exact fun key mem => Std.ExtTreeSet.mem_union_iff.mpr (.inl mem)

theorem collectConstituents_eq_ok {facts : List FactId} {collected result : BTreeSet String × Nat}
    (h : facts.foldlM (ledger.collectConstituent composite) collected = .ok result) :
    (∀ fact ∈ facts, ledger.Constituent composite result.1 fact) ∧
      isSubset collected.1 result.1 := by
  induction facts generalizing collected with
  | nil =>
      simp only [List.foldlM_nil, pure_eq_ok] at h
      subst h
      simp [isSubset_iff]
  | cons head tail ih =>
      simp only [List.foldlM_cons, bind_eq_ok] at h
      obtain ⟨middle, headOk, tailOk⟩ := h
      obtain ⟨headConstituent, headSubset⟩ := collectConstituent_eq_ok headOk
      obtain ⟨tailConstituents, tailSubset⟩ := ih tailOk
      constructor
      · intro fact mem
        rcases List.mem_cons.mp mem with rfl | mem
        · exact headConstituent.mono tailSubset
        · exact tailConstituents fact mem
      · rw [isSubset_iff] at *
        exact fun key mem => tailSubset key (headSubset key mem)

theorem retireConstituents_entries {facts : List FactId} {key : FactId} :
    (facts.foldl (retireConstituent composite) ledger).entries[key]? =
      ledger.entries[key]?.map fun entry =>
        if key ∈ facts then retireFor composite.id composite.fold.text entry else entry := by
  induction facts generalizing ledger with
  | nil => simp
  | cons head tail ih =>
      rw [List.foldl_cons, ih]
      simp only [retireConstituent, removeConflicts_entries, modify_entries, Option.map_map]
      congr 1
      funext entry
      by_cases same : head = key
      · subst same
        by_cases mem : head ∈ tail <;> simp [retireFor, mem]
      · simp [assign_of_ne same, Ne.symm same]

theorem retireConstituents_versions {facts : List FactId} :
    (facts.foldl (retireConstituent composite) ledger).versions = ledger.versions := by
  induction facts generalizing ledger with
  | nil => rfl
  | cons head tail ih => rw [List.foldl_cons, ih]; rfl

theorem retireConstituents_params {facts : List FactId} :
    (facts.foldl (retireConstituent composite) ledger).params = ledger.params := by
  induction facts generalizing ledger with
  | nil => rfl
  | cons head tail ih => rw [List.foldl_cons, ih]; rfl

theorem consolidate_step {facts : BTreeSet FactId} {support : GateSupport} {reclaim : Nat}
    (h : ledger.consolidate facts composite support reclaim scopes = .ok next) :
    ledger.Step (.consolidate facts composite support reclaim) sequence next := by
  simp only [consolidate, bind_eq_ok, reject_eq_ok, not_or, not_not] at h
  obtain ⟨_, _, collected, collectedOk, _, ⟨bindings, _⟩, _, _, _, _, admitted⟩ := h
  obtain ⟨constituents, _⟩ := collectConstituents_eq_ok collectedOk
  obtain ⟨guarded, admissible, rfl⟩ := admitObligation_eq_ok admitted
  rw [bindings] at constituents
  exact {
    guarded := ⟨guarded, fun fact mem => constituents fact (by simpa using mem)⟩
    admissible := by
      intro entry offer
      obtain rfl : composite = entry := by simpa [offered] using offer
      exact { admissible with
        absent := by simpa [retireConstituents_entries] using admissible.absent }
    entries := by simp [offered, effect, retireConstituents_entries]
    versions := by simp [written, union_empty, retireConstituents_versions] }

end Consolidation

/-- Every accepted command is a step. -/
theorem transition_step {ledger next : Ledger} {command : Command} {sequence : Nat}
    {scopes : ScopeRegistry} (h : transition command sequence scopes ledger = .ok next) :
    ledger.Step command sequence next := by
  cases command with
  | admitObligation => exact admitObligation_step h
  | admitConvenience => exact admitConvenience_step h
  | demote => exact demote_step h
  | discharge => exact discharge_step h
  | consolidate => exact consolidate_step h
  | amend => exact amend_step h
  | retract => exact retract_step h
  | promote => exact promote_step h
  | factInvalidate => exact invalidate_step h
  | revalidate => exact revalidate_step h
  | staleDemote domains =>
      obtain rfl : ledger.staleDemote domains = next := by simpa [transition] using h
      exact staleDemote_step
  | decay => exact decay_step h
  | redact leaf =>
      obtain rfl : ledger.redact leaf = next := by simpa [transition] using h
      exact redact_step

/-- No command changes the parameters. -/
theorem transition_params {ledger next : Ledger} {command : Command} {sequence : Nat}
    {scopes : ScopeRegistry} (h : transition command sequence scopes ledger = .ok next) :
    next.params = ledger.params := by
  cases command with
  | admitObligation entry grammar =>
      simp only [transition, admitObligation, bind_eq_ok, reject_eq_ok, pure_eq_ok] at h
      rcases h with ⟨_, _, _, _, _, _, _, _, _, _, _, _, rfl⟩
      rfl
  | admitConvenience entry =>
      simp only [transition, admitConvenience, bind_eq_ok, reject_eq_ok, pure_eq_ok] at h
      rcases h with ⟨_, _, _, _, _, _, rfl⟩
      rfl
  | demote fact reclaim =>
      simp only [transition, demote, bind_eq_ok, reject_eq_ok, pure_eq_ok] at h
      rcases h with ⟨_, _, _, _, _, _, rfl⟩
      rfl
  | decay fact usage =>
      simp only [transition, decay, bind_eq_ok, reject_eq_ok, pure_eq_ok] at h
      rcases h with ⟨_, _, _, _, _, _, _, _, rfl⟩
      rfl
  | retract fact principal =>
      simp only [transition, retract, bind_eq_ok, reject_eq_ok, pure_eq_ok] at h
      rcases h with ⟨_, _, _, _, _, _, rfl⟩
      rfl
  | promote fact source adoption support =>
      simp only [transition, promote, bind_eq_ok, reject_eq_ok, pure_eq_ok] at h
      rcases h with ⟨_, _, _, _, _, _, _, _, rfl⟩
      rfl
  | amend fact replacement principal =>
      simp only [transition, amend, bind_eq_ok, reject_eq_ok, pure_eq_ok] at h
      rcases h with ⟨_, _, _, _, _, _, _, _, _, _, _, _, rfl⟩
      rfl
  | factInvalidate result writes =>
      simp only [transition, invalidate, bind_eq_ok, reject_eq_ok, pure_eq_ok] at h
      rcases h with ⟨_, _, _, _, rfl⟩
      rfl
  | revalidate observation =>
      simp only [transition, revalidate, bind_eq_ok, reject_eq_ok, pure_eq_ok] at h
      rcases h with ⟨_, _, rfl⟩
      rfl
  | staleDemote domains =>
      simp only [transition, Except.ok.injEq] at h
      rw [← h]
      rfl
  | redact leaf =>
      simp only [transition, Except.ok.injEq] at h
      rw [← h]
      rfl
  | discharge fact evidence =>
      rcases discharge_eq_ok h with ⟨_, rfl⟩
      rfl
  | consolidate facts composite support reclaim =>
      simp only [transition, consolidate, bind_eq_ok] at h
      rcases h with ⟨_, _, _, _, _, _, _, _, _, _, admitted⟩
      rcases admitObligation_eq_ok admitted with ⟨_, _, rfl⟩
      change (facts.toList.foldl (retireConstituent composite) _).params = _
      rw [retireConstituents_params]

end Llxprt.Kernel.Ledger

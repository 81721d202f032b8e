import Llxprt.Kernel.Ledger.Runs

/-!
# Authority of normative entries

A normative entry must rest on an authenticated source of its own scope.  Every
command that creates one checks this.  Promotion checks its source or its
adoption, but installs the adoption whenever there is one, checked or not.
-/

namespace Llxprt.Kernel.Ledger

open Llxprt.Rust

/-- A source that may back a normative fact of the given scope. -/
def Backs (source : Source) (scope : ScopeId) : Prop :=
  source.origin = .ingress ∧ .agent ≤ source.authority ∧ source.leaf ≠ "" ∧ source.scope = scope

instance (source : Source) (scope : ScopeId) : Decidable (Backs source scope) :=
  inferInstanceAs (Decidable (_ ∧ _))

/-- No normative entry rests on laundered authority. -/
def AuthorityIntact (ledger : Ledger) : Prop :=
  ∀ (fact : FactId) (entry : Entry), ledger.entries[fact]? = some entry →
    entry.kind = .normative → Backs entry.source fact.scope

/-- A promotion backed by the entry's own source that carries an adoption which
could not back the fact. -/
def LaundersAuthority (ledger : Ledger) (command : Command) : Prop :=
  ∃ fact source adoption support entry,
    command = .promote fact source (some adoption) support ∧ ledger.Live fact entry ∧
      entry.factClass = .convenience ∧ sameSource entry fact source ∧
      supported support fact entry.fold.text ∧ ¬ Backs adoption fact.scope

/-- Every entry is stored under its identity, has a scoped and authenticated
source leaf, and is sanctioned when it is normative. -/
structure SourceSound (fact : FactId) (entry : Entry) : Prop where
  keyed : entry.id = fact
  leaf : entry.source.leaf ≠ ""
  inScope : entry.source.scope = entry.id.scope
  sanctioned : entry.kind = .normative → Sanctioned entry.source

def SourcesSound (ledger : Ledger) : Prop :=
  ∀ (fact : FactId) (entry : Entry), ledger.entries[fact]? = some entry → SourceSound fact entry

theorem SourceSound.backs {fact : FactId} {entry : Entry} (h : SourceSound fact entry)
    (normative : entry.kind = .normative) : Backs entry.source fact.scope :=
  ⟨(h.sanctioned normative).1, (h.sanctioned normative).2, h.leaf, h.keyed ▸ h.inScope⟩

theorem SourcesSound.authorityIntact {ledger : Ledger} (h : ledger.SourcesSound) :
    ledger.AuthorityIntact :=
  fun fact entry present normative => (h fact entry present).backs normative

section Step

variable {ledger next : Ledger} {command : Command} {sequence : Nat}

/-- An entry that an accepted command stores has a sound source. -/
theorem Step.offered_sound (step : ledger.Step command sequence next) {entry : Entry}
    (offer : offered command = some entry) : SourceSound entry.id entry := by
  have admissible := step.admissible entry offer
  refine ⟨rfl, admissible.leaf, admissible.inScope, fun normative => ?_⟩
  have guarded := step.guarded
  cases command with
  | admitObligation | admitConvenience | consolidate | amend =>
      simp only [offered, Option.some.injEq] at offer
      subst offer
      simp_all [Guarded]
  | demote | discharge | retract | promote | factInvalidate | revalidate | staleDemote | decay
  | redact => simp [offered] at offer

/-- The source that a promotion installs backs the fact unless it launders. -/
theorem promotion_backs {fact : FactId} {entry : Entry} {source : Source}
    {adoption : Option Source} {support : GateSupport}
    (guarded : ledger.Guarded (.promote fact source adoption support))
    (honest : ¬ ledger.LaundersAuthority (.promote fact source adoption support))
    (present : ledger.entries[fact]? = some entry) (sound : SourceSound fact entry) :
    Backs (adoption.getD source) fact.scope := by
  obtain ⟨found, live, convenience, backed, gate⟩ := guarded
  obtain rfl : entry = found := Option.some.inj (present.symm.trans live.present)
  cases adoption with
  | none =>
      have same : sameSource entry fact source := by simpa [adopted] using backed
      simp only [sameSource, Bool.and_eq_true, decide_eq_true_eq] at same
      obtain ⟨⟨⟨origin, authority⟩, scope⟩, leaf⟩ := same
      refine ⟨origin, Authority.le_trans Authority.right_le_max authority, ?_, scope⟩
      rw [Option.getD_none, leaf]
      exact sound.leaf
  | some principal =>
      rcases backed with same | adopts
      · by_contra unbacked
        exact honest ⟨_, _, _, _, entry, rfl, live, convenience, same, gate, unbacked⟩
      · simp only [adopted, Bool.and_eq_true, decide_eq_true_eq, Bool.not_eq_true',
          String.isEmpty_eq_false_iff] at adopts
        obtain ⟨⟨⟨origin, authority⟩, scope⟩, leaf⟩ := adopts
        exact ⟨origin, Authority.le_trans Authority.right_le_max authority, leaf, scope⟩

/-- Rewriting by an accepted command keeps a sound source unless it launders. -/
theorem Step.effect_sound (step : ledger.Step command sequence next)
    (honest : ¬ ledger.LaundersAuthority command) {fact : FactId} {entry : Entry}
    (present : ledger.entries[fact]? = some entry) (sound : SourceSound fact entry) :
    SourceSound fact (ledger.effect sequence command fact entry) := by
  have identity := effect_identity ledger sequence command fact entry
  cases effect_source ledger sequence command fact entry with
  | kept kind source =>
      exact ⟨identity.id.trans sound.keyed, by rw [source]; exact sound.leaf,
        by rw [source, identity.id]; exact sound.inScope,
        by rw [kind, source]; exact sound.sanctioned⟩
  | promoted promotedFrom adoption support isPromotion _ source =>
      subst isPromotion
      have backs := promotion_backs step.guarded honest present sound
      rw [← source] at backs
      refine ⟨identity.id.trans sound.keyed, backs.2.2.1, ?_, fun _ => ⟨backs.1, backs.2.1⟩⟩
      rw [identity.id, sound.keyed]
      exact backs.2.2.2
  | observed observation isObservation empirical wasEmpirical scope source =>
      subst isObservation
      have guarded := step.guarded
      refine ⟨identity.id.trans sound.keyed, by rw [source]; exact guarded.2,
        by rw [source, identity.id]; exact scope, fun normative => ?_⟩
      simp [empirical] at normative

theorem Step.sourcesSound (step : ledger.Step command sequence next)
    (honest : ¬ ledger.LaundersAuthority command) (sound : ledger.SourcesSound) :
    next.SourcesSound := by
  intro fact entry found
  rcases step.entry_cases found with ⟨offer, rfl⟩ | ⟨old, present, rfl⟩
  · exact step.offered_sound offer
  · exact step.effect_sound honest present (sound fact old present)

/-- A laundering promotion is accepted and leaves a normative entry behind that
rests on the unchecked adoption. -/
theorem laundering_breaks_authority {call : Call}
    (launders : ledger.LaundersAuthority call.command) :
    ¬ (ledger.perform call).AuthorityIntact := by
  obtain ⟨fact, source, adoption, support, entry, isPromotion, live, convenience, same, gate,
    unbacked⟩ := launders
  have found : ledger.live fact = .ok entry := live_eq_ok.mpr live
  have accepted : ledger.promote fact source (some adoption) support = .ok (ledger.modify fact
      fun entry => { entry with kind := .normative, source := adoption }) := by
    simp [promote, found, reject, convenience, same, gate, bind, Except.bind, pure, Except.pure]
  intro intact
  refine unbacked (intact fact { entry with kind := .normative, source := adoption } ?_ rfl)
  simp [perform, apply, Method.staged, transition, isPromotion, accepted, live.present]

end Step

/-- Along a run of the ledger the authority of normative entries stays intact
exactly when no call is a laundering promotion. -/
theorem authority_intact_iff (params : LedgerParams) (start : Ledger)
    (fresh : Ledger.new params = .ok start) (calls : List Call) :
    (∀ reached, reached <+: calls → (start.after reached).AuthorityIntact) ↔
      ∀ before call, before ++ [call] <+: calls →
        ¬ (start.after before).LaundersAuthority call.command := by
  refine run_safe_iff SourcesSound AuthorityIntact
    (fun ledger (call : Call) => ¬ ledger.LaundersAuthority call.command) ?_
    (fun _ => SourcesSound.authorityIntact) ?_ ?_
  · intro fact entry found
    simp [new_entries fresh] at found
  · intro ledger call sound honest
    rcases ledger.perform_cases call with ⟨_, unchanged⟩ | ⟨_, step⟩
    · rwa [unchanged]
    · exact step.sourcesSound honest sound
  · intro ledger call intact launders
    exact laundering_breaks_authority launders intact

section Laundering

/-- An unauthenticated adoption of another scope. -/
def forgedAdoption : Source where
  leaf := ""
  authority := .environment
  origin := .generated
  scope := 7

/-- Admit the note, then promote it by its own source and the forged adoption. -/
def launderingCalls : List Call :=
  [⟨.admitConvenience note, 1, oneScope⟩,
    ⟨.promote note.id agentSource (some forgedAdoption)
      ⟨note.id, note.fold.text, .ofList ["leaf"]⟩, 2, oneScope⟩]

/-- The forged adoption becomes the source of a normative entry. -/
theorem forged_adoption_installed :
    ¬ ∀ (params : LedgerParams) (start : Ledger) (calls : List Call),
      Ledger.new params = .ok start → (start.after calls).AuthorityIntact := by
  intro claim
  have intact := claim .default .initial launderingCalls rfl note.id
    { note with kind := .normative, source := forgedAdoption } (by decide +kernel) rfl
  exact absurd intact (by decide)

/-- The user's own message in the scope of the note. -/
def userAdoption : Source :=
  { agentSource with
    leaf := "answer"
    authority := .user }

/-- Admit the note, then promote it by its own source and the user's adoption. -/
def honestCalls : List Call :=
  [⟨.admitConvenience note, 1, oneScope⟩,
    ⟨.promote note.id agentSource (some userAdoption)
      ⟨note.id, note.fold.text, .ofList ["leaf"]⟩, 2, oneScope⟩]

/-- The promoted note is normative and rests on the user's message. -/
theorem authority_intact_of_note :
    Ledger.new .default = .ok .initial ∧ (Ledger.initial.after honestCalls).AuthorityIntact ∧
      (Ledger.initial.after honestCalls).entries[note.id]? =
        some { note with kind := .normative, source := userAdoption } := by
  refine ⟨rfl, (authority_intact_iff .default .initial rfl _).mpr ?_ _ (List.prefix_refl _),
    by decide +kernel⟩
  rintro before call isPrefix ⟨fact, source, adoption, support, entry, isPromotion, _, _, _, _,
    unbacked⟩
  have member : call ∈ honestCalls := isPrefix.subset (by simp)
  simp only [honestCalls, List.mem_cons, List.not_mem_nil, or_false] at member
  rcases member with rfl | rfl
  · cases isPromotion
  · cases isPromotion
    exact unbacked (by decide)

end Laundering

end Llxprt.Kernel.Ledger

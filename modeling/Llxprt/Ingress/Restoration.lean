import Llxprt.Ingress.Filter

/-!
# Restored and reached registries

A registry is reached from the seeded one by the updates that succeed.  A rule
history is restored exactly when such a registry has it.  The vocabulary side
accepts a first snapshot with more than the baseline labels, which no registry
has.
-/

namespace Llxprt.Ingress

open Llxprt.Rust

/-- The durable form of one vocabulary version. -/
def Vocabulary.snapshot (vocabulary : Vocabulary) : VocabularySnapshot :=
  ⟨vocabulary.version, vocabulary.labels⟩

/-- The vocabulary that a snapshot brings back. -/
def VocabularySnapshot.vocabulary (snapshot : VocabularySnapshot) : Vocabulary :=
  ⟨snapshot.version, snapshot.labels⟩

namespace FilterRegistry

/-- The registries that successful updates lead to. -/
inductive Reached : FilterRegistry → Prop
  | new : Reached new
  | updateRules {registry : FilterRegistry} {update : FilterRules} {version : Nat} :
      Reached registry → (registry.updateRules update).1 = .ok version →
        Reached (registry.updateRules update).2
  | updateVocabulary {registry : FilterRegistry} {update : Vocabulary} {version : Nat} :
      Reached registry → (registry.updateVocabulary update).1 = .ok version →
        Reached (registry.updateVocabulary update).2

section Updates

variable {registry : FilterRegistry}

/-- A later relaxation is appended. -/
theorem updateRules_of_relaxes {update : FilterRules}
    (relaxes : Relaxes registry.currentRules update) :
    registry.updateRules update =
      (.ok update.version, { registry with rules := registry.rules ++ [update] }) := by
  rcases relaxes with ⟨newer, relaxation⟩
  simp [updateRules, Nat.not_le_of_lt newer, relaxation]

theorem updateVocabulary_of_extends {update : Vocabulary}
    (addition : Extends registry.currentVocabulary update) :
    registry.updateVocabulary update =
      (.ok update.version, { registry with vocabulary := registry.vocabulary ++ [update] }) := by
  rcases addition with ⟨newer, kept⟩
  simp [updateVocabulary, Nat.not_le_of_lt newer, kept]

/-- A rule update changes nothing or appends a relaxation. -/
theorem updateRules_cases (update : FilterRules) :
    (registry.updateRules update).2 = registry ∨
      Relaxes registry.currentRules update ∧
        (registry.updateRules update).2 = { registry with rules := registry.rules ++ [update] } := by
  by_cases older : update.version ≤ registry.currentRules.version
  · left
    simp [updateRules, older]
  · cases relaxation : registry.currentRules.isRelaxationOf update with
    | false =>
        left
        simp [updateRules, older, relaxation]
    | true =>
        right
        have relaxes : Relaxes registry.currentRules update :=
          ⟨Nat.lt_of_not_le older, relaxation⟩
        exact ⟨relaxes, by rw [updateRules_of_relaxes relaxes]⟩

theorem updateVocabulary_cases (update : Vocabulary) :
    (registry.updateVocabulary update).2 = registry ∨
      Extends registry.currentVocabulary update ∧
        (registry.updateVocabulary update).2 =
          { registry with vocabulary := registry.vocabulary ++ [update] } := by
  by_cases older : update.version ≤ registry.currentVocabulary.version
  · left
    simp [updateVocabulary, older]
  · cases kept : keepsLabels registry.currentVocabulary.labels update.labels with
    | false =>
        left
        simp [updateVocabulary, older, kept]
    | true =>
        right
        have addition : Extends registry.currentVocabulary update :=
          ⟨Nat.lt_of_not_le older, kept⟩
        exact ⟨addition, by rw [updateVocabulary_of_extends addition]⟩

end Updates

section Histories

/-- Every history of relaxations is reached, beside any vocabulary that is. -/
theorem Reached.rules {rules : List FilterRules} {vocabulary : List Vocabulary}
    (grown : Grown Relaxes .v1 rules) (seeded : Reached ⟨[.v1], vocabulary⟩) :
    Reached ⟨rules, vocabulary⟩ := by
  refine grown.induction (motive := fun rules => Reached ⟨rules, vocabulary⟩) seeded ?_
  intro history rules update _ relaxes reached
  have current : Relaxes (currentRules ⟨history ++ [rules], vocabulary⟩) update := by
    simpa [currentRules] using relaxes
  have updated := updateRules_of_relaxes current
  have next := Reached.updateRules reached (congrArg Prod.fst updated)
  rwa [updated] at next

theorem Reached.vocabulary {vocabulary : List Vocabulary} (grown : Grown Extends .v1 vocabulary) :
    Reached ⟨[.v1], vocabulary⟩ := by
  refine grown.induction (motive := fun vocabulary => Reached ⟨[.v1], vocabulary⟩) .new ?_
  intro history vocabulary update _ addition reached
  have current : Extends (currentVocabulary ⟨[.v1], history ++ [vocabulary]⟩) update := by
    simpa [currentVocabulary] using addition
  have updated := updateVocabulary_of_extends current
  have next := Reached.updateVocabulary reached (congrArg Prod.fst updated)
  rwa [updated] at next

/-- The reached registries are the two histories grown from their baselines. -/
theorem reached_iff {registry : FilterRegistry} :
    Reached registry ↔
      Grown Relaxes .v1 registry.rules ∧ Grown Extends .v1 registry.vocabulary := by
  constructor
  · intro reached
    induction reached with
    | new => exact ⟨grown_singleton, grown_singleton⟩
    | @updateRules _ update _ _ _ ih =>
        rcases updateRules_cases update with kept | ⟨relaxes, appended⟩
        · rw [kept]
          exact ih
        · rw [appended]
          exact ⟨ih.1.concat relaxes, ih.2⟩
    | @updateVocabulary _ update _ _ _ ih =>
        rcases updateVocabulary_cases update with kept | ⟨addition, appended⟩
        · rw [kept]
          exact ih
        · rw [appended]
          exact ⟨ih.1, ih.2.concat addition⟩
  · rintro ⟨rules, vocabulary⟩
    exact Reached.rules rules (Reached.vocabulary vocabulary)

theorem Reached.producible {registry : FilterRegistry} (reached : Reached registry) :
    registry.Producible := by
  rcases reached_iff.mp reached with ⟨rules, vocabulary⟩
  exact ⟨rules.begins, rules.advances, ⟨.v1, vocabulary.begins, rfl, by decide⟩,
    vocabulary.advances⟩

end Histories

section Acceptance

/-- One snapshot may follow another. -/
def Follows (snapshot next : VocabularySnapshot) : Prop :=
  snapshot.version < next.version ∧ keepsLabels snapshot.labels next.labels = true

/-- Version 1 with at least the baseline labels first, and then each snapshot
newer than the one before it with no label dropped. -/
structure Succeeding (snapshots : List VocabularySnapshot) : Prop where
  first : ∃ first ∈ snapshots.head?, first.version = 1 ∧
    keepsLabels Vocabulary.v1.labels first.labels = true
  later : snapshots.IsChain Follows

/-- What the two restoring functions are for: they succeed exactly on what a
reached registry publishes, and bring that registry back. -/
structure RestoresReached (registry : FilterRegistry) (rules : List FilterRules)
    (snapshots : List VocabularySnapshot) : Prop where
  rules : (∃ restored, registry.restoreHistories rules = .ok restored) ↔
    ∃ reached, Reached reached ∧ reached.rules = rules
  vocabulary : (∃ restored, registry.restoreVocabularySnapshots snapshots = .ok restored) ↔
    ∃ reached, Reached reached ∧ reached.vocabularySnapshots = snapshots
  roundTrip : ∀ reached, Reached reached → ∃ halfway,
    registry.restoreHistories reached.rules = .ok halfway ∧
      halfway.restoreVocabularySnapshots reached.vocabularySnapshots = .ok reached

variable {registry : FilterRegistry}

theorem restoreHistories_iff_reached {rules : List FilterRules} :
    (∃ restored, registry.restoreHistories rules = .ok restored) ↔
      ∃ reached, Reached reached ∧ reached.rules = rules := by
  constructor
  · rintro ⟨restored, accepted⟩
    rcases restoreHistories_eq_ok_iff.mp accepted with ⟨begins, advances, _⟩
    exact ⟨⟨rules, [.v1]⟩, Reached.rules ⟨begins, advances⟩ .new, rfl⟩
  · rintro ⟨reached, isReached, rfl⟩
    rcases reached_iff.mp isReached with ⟨grown, _⟩
    exact ⟨_, restoreHistories_eq_ok_iff.mpr ⟨grown.begins, grown.advances, rfl⟩⟩

theorem map_snapshot (snapshots : List VocabularySnapshot) :
    (snapshots.map VocabularySnapshot.vocabulary).map Vocabulary.snapshot = snapshots := by
  rw [List.map_map]
  exact List.map_id snapshots

theorem succeeding_map {history : List Vocabulary} :
    Succeeding (history.map Vocabulary.snapshot) ↔
      (∃ first ∈ history.head?, first.version = 1 ∧
        keepsLabels Vocabulary.v1.labels first.labels = true) ∧ history.IsChain Extends := by
  have chain : (history.map Vocabulary.snapshot).IsChain Follows ↔ history.IsChain Extends :=
    List.isChain_map Vocabulary.snapshot
  constructor
  · rintro ⟨⟨first, begins, kept⟩, later⟩
    refine ⟨?_, chain.mp later⟩
    cases history with
    | nil => cases begins
    | cons vocabulary rest =>
        cases begins
        exact ⟨vocabulary, rfl, kept⟩
  · rintro ⟨⟨first, begins, kept⟩, later⟩
    refine ⟨?_, chain.mpr later⟩
    cases history with
    | nil => cases begins
    | cons vocabulary rest =>
        cases begins
        exact ⟨_, rfl, kept⟩

theorem restoreVocabularySnapshots_iff_succeeding {snapshots : List VocabularySnapshot} :
    (∃ restored, registry.restoreVocabularySnapshots snapshots = .ok restored) ↔
      Succeeding snapshots := by
  constructor
  · rintro ⟨restored, accepted⟩
    rcases restoreVocabularySnapshots_eq_ok_iff.mp accepted with
      ⟨history, first, advances, rfl, _⟩
    exact succeeding_map.mpr ⟨first, advances⟩
  · intro succeeding
    rw [← map_snapshot snapshots] at succeeding
    rcases succeeding_map.mp succeeding with ⟨first, advances⟩
    exact ⟨_, restoreVocabularySnapshots_eq_ok_iff.mpr
      ⟨_, first, advances, (map_snapshot snapshots).symm, rfl⟩⟩

/-- A registry publishes the baseline labels, and successions from them. -/
theorem reached_snapshots_iff {snapshots : List VocabularySnapshot} :
    (∃ reached, Reached reached ∧ reached.vocabularySnapshots = snapshots) ↔
      Succeeding snapshots ∧ ∃ first ∈ snapshots.head?, first.labels = Vocabulary.v1.labels := by
  constructor
  · rintro ⟨reached, isReached, rfl⟩
    rcases reached_iff.mp isReached with ⟨_, ⟨begins, advances⟩⟩
    constructor
    · exact succeeding_map.mpr ⟨⟨.v1, begins, rfl, by decide⟩, advances⟩
    · exact ⟨Vocabulary.v1.snapshot, by simp [vocabularySnapshots, begins, Vocabulary.snapshot], rfl⟩
  · rintro ⟨succeeding, first, begins, labels⟩
    rw [← map_snapshot snapshots] at succeeding begins
    rcases succeeding_map.mp succeeding with ⟨⟨vocabulary, seeded, numbered, _⟩, advances⟩
    have baseline : vocabulary = .v1 := by
      rw [List.head?_map, Option.mem_def.mp seeded] at begins
      cases begins
      cases vocabulary
      cases numbered
      cases labels
      rfl
    rw [baseline] at seeded
    exact ⟨_, Reached.vocabulary ⟨seeded, advances⟩, map_snapshot snapshots⟩

/-- The restoring functions do what they are for exactly as long as the first
vocabulary snapshot of a succession carries no more than the baseline labels. -/
theorem restoresReached_iff {rules : List FilterRules} {snapshots : List VocabularySnapshot} :
    RestoresReached registry rules snapshots ↔
      (Succeeding snapshots → ∃ first ∈ snapshots.head?, first.labels = Vocabulary.v1.labels) := by
  constructor
  · rintro ⟨_, vocabulary, _⟩ succeeding
    rw [restoreVocabularySnapshots_iff_succeeding, reached_snapshots_iff] at vocabulary
    exact (vocabulary.mp succeeding).2
  · intro baseline
    constructor
    · exact restoreHistories_iff_reached
    · rw [restoreVocabularySnapshots_iff_succeeding, reached_snapshots_iff]
      exact ⟨fun succeeding => ⟨succeeding, baseline succeeding⟩, And.left⟩
    · intro reached isReached
      exact ⟨_, isReached.producible.restore registry⟩

/-- A third label under version 1 is restored, and no registry has it there. -/
theorem not_restoresReached_third_label :
    ¬ ∀ (registry : FilterRegistry) (rules : List FilterRules)
      (snapshots : List VocabularySnapshot), RestoresReached registry rules snapshots := by
  intro always
  have vocabulary :=
    (always new [.v1] [⟨1, ["error-span", "identifier", "commit-hash"]⟩]).vocabulary
  have accepted : ∃ restored, new.restoreVocabularySnapshots
      [⟨1, ["error-span", "identifier", "commit-hash"]⟩] = .ok restored :=
    ⟨⟨[.v1], [⟨1, ["error-span", "identifier", "commit-hash"]⟩]⟩, by decide⟩
  rcases reached_snapshots_iff.mp (vocabulary.mp accepted) with ⟨_, first, begins, labels⟩
  cases begins
  exact absurd labels (by decide)

end Acceptance

end FilterRegistry

end Llxprt.Ingress

import Llxprt.Rust.Histories

/-!
# The filter registry

Rules and preservation vocabularies are versioned, and a session only ever
relaxes them.  A restored history must be one that such relaxations can produce
from the baseline.
-/

namespace Llxprt.Ingress

open Llxprt.Rust

structure FilterRules where
  version : Nat
  sizeFloor : Nat
  unknownBound : Nat
  verbatimTools : List String
  deriving DecidableEq

/-- The default bulk-evidence admission floor. -/
def defaultDigestSizeFloor : Nat := 1024

def FilterRules.v1 : FilterRules :=
  ⟨1, defaultDigestSizeFloor, 64, []⟩

/-- Whether `update` relaxes these rules. -/
def FilterRules.isRelaxationOf (rules update : FilterRules) : Bool :=
  rules.sizeFloor ≤ update.sizeFloor && rules.unknownBound ≤ update.unknownBound &&
    rules.verbatimTools.all fun tool => update.verbatimTools.contains tool

structure Vocabulary where
  version : Nat
  labels : List String
  deriving DecidableEq

def Vocabulary.v1 : Vocabulary :=
  ⟨1, ["error-span", "identifier"]⟩

/-- The durable form of a vocabulary. -/
structure VocabularySnapshot where
  version : Nat
  labels : List String

inductive RejectedUpdate where
  | tighteningRequiresOffline (before after : Nat)
  | baselineRulesMismatch (version : Nat)
  deriving DecidableEq

/-- Both histories, oldest first. -/
structure FilterRegistry where
  rules : List FilterRules
  vocabulary : List Vocabulary
  deriving DecidableEq

/-- Whether every label of one list occurs in another. -/
def keepsLabels (labels later : List String) : Bool :=
  labels.all fun label => later.contains label

namespace FilterRegistry

def new : FilterRegistry :=
  ⟨[.v1], [.v1]⟩

/-- The current rules of a seeded registry. -/
def currentRules (registry : FilterRegistry) : FilterRules :=
  registry.rules.getLastD .v1

/-- The current vocabulary of a seeded registry. -/
def currentVocabulary (registry : FilterRegistry) : Vocabulary :=
  registry.vocabulary.getLastD .v1

def updateRules (registry : FilterRegistry) (update : FilterRules) :
    Except RejectedUpdate Nat × FilterRegistry :=
  let current := registry.currentRules
  if update.version ≤ current.version then
    (.ok current.version, registry)
  else if current.isRelaxationOf update = false then
    (.error (.tighteningRequiresOffline current.version update.version), registry)
  else
    (.ok update.version, { registry with rules := registry.rules ++ [update] })

def updateVocabulary (registry : FilterRegistry) (update : Vocabulary) :
    Except RejectedUpdate Nat × FilterRegistry :=
  let current := registry.currentVocabulary
  if update.version ≤ current.version then
    (.ok current.version, registry)
  else if keepsLabels current.labels update.labels = false then
    (.error (.tighteningRequiresOffline current.version update.version), registry)
  else
    (.ok update.version, { registry with vocabulary := registry.vocabulary ++ [update] })

def vocabularySnapshots (registry : FilterRegistry) : List VocabularySnapshot :=
  registry.vocabulary.map fun vocabulary => ⟨vocabulary.version, vocabulary.labels⟩

/-- The rules after the baseline, each a later relaxation of the one before. -/
def checkRules (current : FilterRules) : List FilterRules → Except RejectedUpdate Unit
  | [] => .ok ()
  | update :: rest =>
      if update.version ≤ current.version ∨ current.isRelaxationOf update = false then
        .error (.tighteningRequiresOffline current.version update.version)
      else
        checkRules update rest

def restoreHistories (registry : FilterRegistry) (rules : List FilterRules) :
    Except RejectedUpdate FilterRegistry :=
  match rules with
  | [] => .error (.tighteningRequiresOffline 1 0)
  | first :: rest =>
      if first.version ≠ 1 then
        .error (.tighteningRequiresOffline 1 first.version)
      else if first ≠ .v1 then
        .error (.baselineRulesMismatch first.version)
      else
        match checkRules first rest with
        | .error error => .error error
        | .ok () => .ok { registry with rules := rules }

/-- The snapshots after the first: strictly newer, and no label dropped. -/
def checkVocabularies (version : Nat) (labels : List String) :
    List VocabularySnapshot → Except RejectedUpdate (List Vocabulary)
  | [] => .ok []
  | snapshot :: rest =>
      if snapshot.version ≤ version ∨ keepsLabels labels snapshot.labels = false then
        .error (.tighteningRequiresOffline version snapshot.version)
      else
        match checkVocabularies snapshot.version snapshot.labels rest with
        | .error error => .error error
        | .ok restored => .ok (⟨snapshot.version, snapshot.labels⟩ :: restored)

def restoreVocabularySnapshots (registry : FilterRegistry) (snapshots : List VocabularySnapshot) :
    Except RejectedUpdate FilterRegistry :=
  match snapshots with
  | [] => .error (.tighteningRequiresOffline 0 0)
  | first :: rest =>
      if first.version ≠ 1 ∨ keepsLabels Vocabulary.v1.labels first.labels = false then
        .error (.tighteningRequiresOffline 1 first.version)
      else
        match checkVocabularies first.version first.labels rest with
        | .error error => .error error
        | .ok restored =>
            .ok { registry with vocabulary := ⟨first.version, first.labels⟩ :: restored }

/-- One accepted rule update. -/
def Relaxes (rules update : FilterRules) : Prop :=
  rules.version < update.version ∧ rules.isRelaxationOf update = true

/-- One accepted vocabulary update. -/
def Extends (vocabulary update : Vocabulary) : Prop :=
  vocabulary.version < update.version ∧ keepsLabels vocabulary.labels update.labels = true

/-- The histories that a session can reach from the baseline. -/
structure Producible (registry : FilterRegistry) : Prop where
  baseline : registry.rules.head? = some .v1
  relaxed : registry.rules.IsChain Relaxes
  seeded : ∃ first ∈ registry.vocabulary.head?, first.version = 1 ∧
    keepsLabels Vocabulary.v1.labels first.labels = true
  extended : registry.vocabulary.IsChain Extends

theorem producible_new : new.Producible := by
  constructor
  · rfl
  · exact .singleton _
  · exact ⟨.v1, rfl, rfl, by decide⟩
  · exact .singleton _

section Updates

variable {registry : FilterRegistry}

theorem Producible.updateRules (producible : registry.Producible) (update : FilterRules) :
    (registry.updateRules update).2.Producible := by
  unfold FilterRegistry.updateRules
  simp only
  split
  · exact producible
  · rename_i newer
    split
    · exact producible
    · rename_i relaxation
      have step : Relaxes registry.currentRules update :=
        ⟨Nat.lt_of_not_le newer, by simpa using relaxation⟩
      have grown := Grown.concat ⟨producible.baseline, producible.relaxed⟩ step
      exact ⟨grown.begins, grown.advances, producible.seeded, producible.extended⟩

theorem Producible.updateVocabulary (producible : registry.Producible) (update : Vocabulary) :
    (registry.updateVocabulary update).2.Producible := by
  unfold FilterRegistry.updateVocabulary
  simp only
  split
  · exact producible
  · rename_i newer
    split
    · exact producible
    · rename_i addition
      have step : Extends registry.currentVocabulary update :=
        ⟨Nat.lt_of_not_le newer, by simpa using addition⟩
      rcases producible.seeded with ⟨first, begins, baseline⟩
      have grown := Grown.concat ⟨begins, producible.extended⟩ step
      exact ⟨producible.baseline, producible.relaxed, ⟨first, grown.begins, baseline⟩,
        grown.advances⟩

end Updates

section Restoring

variable {registry restored : FilterRegistry}

theorem checkRules_eq_ok_iff {current : FilterRules} {rules : List FilterRules} :
    checkRules current rules = .ok () ↔ (current :: rules).IsChain Relaxes := by
  induction rules generalizing current with
  | nil => simp [checkRules]
  | cons update rules ih =>
      rw [checkRules, List.isChain_cons_cons, ← ih]
      by_cases refused : update.version ≤ current.version ∨ current.isRelaxationOf update = false
      · rw [if_pos refused]
        constructor
        · intro impossible
          cases impossible
        · rintro ⟨⟨newer, relaxation⟩, _⟩
          rcases refused with older | tightening
          · exact absurd older (Nat.not_le_of_lt newer)
          · rw [relaxation] at tightening
            cases tightening
      · rw [if_neg refused]
        rw [not_or, Nat.not_le, Bool.not_eq_false] at refused
        constructor
        · exact fun rest => ⟨refused, rest⟩
        · exact fun both => both.2

theorem checkVocabularies_eq_ok_iff {current : Vocabulary} {history : List Vocabulary}
    {snapshots : List VocabularySnapshot} :
    checkVocabularies current.version current.labels snapshots = .ok history ↔
      (current :: history).IsChain Extends ∧
        snapshots = history.map fun vocabulary => ⟨vocabulary.version, vocabulary.labels⟩ := by
  induction snapshots generalizing current history with
  | nil =>
      cases history <;> simp [checkVocabularies]
  | cons snapshot snapshots ih =>
      rw [checkVocabularies]
      by_cases refused : snapshot.version ≤ current.version ∨
          keepsLabels current.labels snapshot.labels = false
      · rw [if_pos refused]
        constructor
        · intro impossible
          cases impossible
        · rintro ⟨chain, listed⟩
          cases history with
          | nil => cases listed
          | cons update history =>
              cases listed
              rcases (List.isChain_cons_cons.mp chain).1 with ⟨newer, addition⟩
              rcases refused with older | dropped
              · exact absurd older (Nat.not_le_of_lt newer)
              · rw [addition] at dropped
                cases dropped
      · rw [if_neg refused]
        rw [not_or, Nat.not_le, Bool.not_eq_false] at refused
        have next := @ih ⟨snapshot.version, snapshot.labels⟩
        constructor
        · intro accepted
          split at accepted
          · cases accepted
          · rename_i rest loaded
            cases accepted
            rcases next.mp loaded with ⟨chain, listed⟩
            exact ⟨List.isChain_cons_cons.mpr ⟨refused, chain⟩, by rw [listed]; rfl⟩
        · rintro ⟨chain, listed⟩
          cases history with
          | nil => cases listed
          | cons update history =>
              cases listed
              rw [next.mpr ⟨(List.isChain_cons_cons.mp chain).2, rfl⟩]

/-- A rule history is restored exactly when it starts at the baseline and only
relaxes. -/
theorem restoreHistories_eq_ok_iff {rules : List FilterRules} :
    registry.restoreHistories rules = .ok restored ↔
      rules.head? = some .v1 ∧ rules.IsChain Relaxes ∧
        restored = { registry with rules := rules } := by
  unfold restoreHistories
  cases rules with
  | nil => simp
  | cons first rest =>
      simp only [List.head?_cons, Option.some.injEq, ← checkRules_eq_ok_iff]
      by_cases baseline : first = .v1
      · subst baseline
        have numbered : ¬ FilterRules.v1.version ≠ 1 := by decide
        rw [if_neg numbered, if_neg (fun differs => differs rfl)]
        cases checked : checkRules .v1 rest with
        | error error => simp
        | ok accepted => simp [eq_comm]
      · simp only [baseline, false_and, iff_false]
        split
        · intro impossible
          cases impossible
        · intro impossible
          cases impossible

theorem restoreVocabularySnapshots_eq_ok_iff {snapshots : List VocabularySnapshot} :
    registry.restoreVocabularySnapshots snapshots = .ok restored ↔
      ∃ history : List Vocabulary,
        (∃ first ∈ history.head?, first.version = 1 ∧
          keepsLabels Vocabulary.v1.labels first.labels = true) ∧
        history.IsChain Extends ∧
        snapshots = (history.map fun vocabulary => ⟨vocabulary.version, vocabulary.labels⟩) ∧
        restored = { registry with vocabulary := history } := by
  unfold restoreVocabularySnapshots
  cases snapshots with
  | nil =>
      constructor
      · intro impossible
        cases impossible
      · rintro ⟨history, ⟨first, begins, _⟩, _, listed, _⟩
        cases history with
        | nil => cases begins
        | cons _ _ => cases listed
  | cons snapshot snapshots =>
      simp only
      have check := @checkVocabularies_eq_ok_iff ⟨snapshot.version, snapshot.labels⟩
      by_cases refused : snapshot.version ≠ 1 ∨
          keepsLabels Vocabulary.v1.labels snapshot.labels = false
      · rw [if_pos refused]
        constructor
        · intro impossible
          cases impossible
        · rintro ⟨history, ⟨first, begins, numbered, kept⟩, _, listed, _⟩
          cases history with
          | nil => cases begins
          | cons _ _ =>
              cases begins
              cases listed
              rcases refused with otherNumber | dropped
              · exact absurd numbered otherNumber
              · rw [kept] at dropped
                cases dropped
      · rw [if_neg refused]
        rw [not_or, Bool.not_eq_false, not_not] at refused
        constructor
        · intro accepted
          split at accepted
          · cases accepted
          · rename_i rest loaded
            cases accepted
            rcases check.mp loaded with ⟨chain, listed⟩
            exact ⟨_, ⟨_, rfl, refused⟩, chain, by rw [listed]; rfl, rfl⟩
        · rintro ⟨history, ⟨first, begins, _⟩, chain, listed, rfl⟩
          cases history with
          | nil => cases begins
          | cons _ history =>
              cases listed
              rw [check.mpr ⟨chain, rfl⟩]

/-- What a session published is restored into any registry. -/
theorem Producible.restore (producible : registry.Producible) (opened : FilterRegistry) :
    opened.restoreHistories registry.rules = .ok { opened with rules := registry.rules } ∧
      ({ opened with rules := registry.rules } : FilterRegistry).restoreVocabularySnapshots
        registry.vocabularySnapshots = .ok registry := by
  constructor
  · exact restoreHistories_eq_ok_iff.mpr ⟨producible.baseline, producible.relaxed, rfl⟩
  · exact restoreVocabularySnapshots_eq_ok_iff.mpr
      ⟨registry.vocabulary, producible.seeded, producible.extended, rfl, rfl⟩

/-- Whatever is restored could have been produced. -/
theorem producible_of_restore {opened : FilterRegistry} {rules : List FilterRules}
    {snapshots : List VocabularySnapshot} (first : opened.restoreHistories rules = .ok registry)
    (second : registry.restoreVocabularySnapshots snapshots = .ok restored) :
    restored.Producible := by
  rcases restoreHistories_eq_ok_iff.mp first with ⟨baseline, relaxed, rfl⟩
  rcases restoreVocabularySnapshots_eq_ok_iff.mp second with ⟨history, seeded, extended, _, rfl⟩
  exact ⟨baseline, relaxed, seeded, extended⟩

end Restoring

end FilterRegistry

end Llxprt.Ingress

import Llxprt.Kernel.Ledger.Conflicts

/-!
# Activity of entries

Entries are never removed, and whatever happens to one makes it less active: it
stays retired once it is, stays unknown once it is, and its utility only falls.
-/

namespace Llxprt.Kernel.Ledger

open Llxprt.Rust

/-- What the commands of a ledger may make of an entry. -/
structure Fades (ledger : Ledger) (before after : Entry) : Prop where
  active : ledger.active before = false → ledger.active after = false
  retired : before.retired = true → after.retired = true
  unknown : before.freshness = .unknown → after.freshness = .unknown
  factClass : after.factClass = before.factClass
  utility : after.utility.value ≤ before.utility.value

theorem Fades.refl (ledger : Ledger) (entry : Entry) : ledger.Fades entry entry :=
  ⟨id, id, id, rfl, Nat.le_refl _⟩

theorem Fades.trans {ledger : Ledger} {first second third : Entry} (sooner : ledger.Fades first second)
    (later : ledger.Fades second third) : ledger.Fades first third where
  active := later.active ∘ sooner.active
  retired := later.retired ∘ sooner.retired
  unknown := later.unknown ∘ sooner.unknown
  factClass := later.factClass.trans sooner.factClass
  utility := later.utility.trans sooner.utility

section Steps

variable {ledger next : Ledger} {command : Command} {sequence : Nat} {scopes : ScopeRegistry}
  {fact : FactId} {entry : Entry}

/-- An accepted command fades every entry that it finds. -/
theorem fades_of_effect (h : transition command sequence scopes ledger = .ok next)
    (stored : ledger.EntriesStored) (present : ledger.entries[fact]? = some entry) :
    ledger.Fades entry (ledger.effect sequence command fact entry) where
  active inactive := by
    cases active : ledger.active (ledger.effect sequence command fact entry) with
    | false => rfl
    | true =>
        rw [(active_of_effect h stored present active).1] at inactive
        cases inactive
  retired isRetired := by
    cases alive : (ledger.effect sequence command fact entry).retired with
    | true => rfl
    | false =>
        rw [live_of_effect alive] at isRetired
        cases isRetired
  unknown isUnknown := by
    by_contra known
    exact fresh_of_effect known isUnknown
  factClass := (effect_identity ledger sequence command fact entry).factClass
  utility := by
    cases effect_usage ledger sequence command fact entry with
    | kept utility _ => rw [utility]
    | decayed usage isDecay utility _ =>
        subst isDecay
        rw [utility, (stored fact entry present).scored]
        exact decay_lowers h present

theorem perform_stored (call : Call) (stored : ledger.EntriesStored) :
    (ledger.perform call).EntriesStored := by
  rcases ledger.perform_cases call with ⟨_, unchanged⟩ | ⟨⟨next, result⟩, _⟩
  · rwa [unchanged]
  · rw [perform_of_ok result]
    exact transition_stored result stored

/-- A call, accepted or not, fades every entry that it finds. -/
theorem perform_fades (call : Call) (stored : ledger.EntriesStored)
    (present : ledger.entries[fact]? = some entry) :
    ∃ after, (ledger.perform call).entries[fact]? = some after ∧ ledger.Fades entry after := by
  rcases ledger.perform_cases call with ⟨_, unchanged⟩ | ⟨⟨next, result⟩, step⟩
  · rw [unchanged]
    exact ⟨entry, present, .refl ledger entry⟩
  · exact ⟨_, step.entry_after present, fades_of_effect result stored present⟩

end Steps

section Runs

variable {start : Ledger} {fact : FactId} {entry : Entry}

theorem Fades.congr {ledger other : Ledger} {before after : Entry}
    (fades : ledger.Fades before after) (params : other.params = ledger.params) :
    other.Fades before after :=
  { fades with active := by rw [active_congr params, active_congr params]; exact fades.active }

theorem entriesStored_calls (stored : start.EntriesStored) (calls : List Call) :
    (start.after calls).EntriesStored := by
  apply run_invariant EntriesStored stored _ calls List.prefix_rfl
  intro before call _ kept
  exact perform_stored call kept

/-- A run fades every entry that it finds, by the parameters that it started with. -/
theorem after_fades (stored : start.EntriesStored) (present : start.entries[fact]? = some entry)
    (calls : List Call) :
    ∃ last, (start.after calls).entries[fact]? = some last ∧ start.Fades entry last := by
  induction calls using List.reverseRecOn with
  | nil => exact ⟨entry, present, .refl start entry⟩
  | append_singleton before call ih =>
      rcases ih with ⟨middle, found, sooner⟩
      rcases perform_fades call (entriesStored_calls stored before) found with ⟨last, there, later⟩
      refine ⟨last, ?_, sooner.trans (later.congr after_params.symm)⟩
      rw [after, run_concat]
      exact there

/-- In every reachable ledger an entry carries the utility of its usage, and every
continuation keeps the entry and fades it. -/
theorem activity_antitone (params : LedgerParams) (start : Ledger)
    (fresh : Ledger.new params = .ok start) (calls later : List Call) (fact : FactId)
    (entry : Entry) (present : (start.after calls).entries[fact]? = some entry) :
    entry.utility = (start.after calls).utility entry.usage ∧
      ∃ last, (start.after (calls ++ later)).entries[fact]? = some last ∧
        (start.after calls).Fades entry last := by
  have stored := entriesStored_calls (new_entriesStored fresh) calls
  rcases after_fades stored present later with ⟨last, found, fades⟩
  refine ⟨(stored fact entry present).scored, last, ?_, fades⟩
  rw [after, run_append]
  exact found

/-- The note of an agent under an erasure of its leaf and a later decay. -/
theorem note_fades :
    ∃ last, (Ledger.initial.after ([⟨.admitConvenience note, 1, oneScope⟩] ++
        [⟨.redact "leaf", 2, oneScope⟩, ⟨.decay note.id ⟨0, 3, 4⟩, 40, oneScope⟩])).entries[note.id]? =
          some last ∧
      (Ledger.initial.after [⟨.admitConvenience note, 1, oneScope⟩]).Fades note last :=
  (activity_antitone .default .initial rfl [⟨.admitConvenience note, 1, oneScope⟩] _ note.id note
    (by decide +kernel)).2

end Runs

end Llxprt.Kernel.Ledger

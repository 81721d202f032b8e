import Llxprt.Kernel.Ledger.Runs

/-!
# Freshness of entries

An entry marked current must have been read at the versions that the ledger
records.  Tool writes and observations keep this; admission, amendment and
consolidation take the mark of the incoming entry on trust.
-/

namespace Llxprt.Kernel.Ledger

open Llxprt.Rust

/-- Every version that the entry read is either unrecorded or still recorded. -/
def Agrees (versions : BTreeMap String UInt64) (entry : Entry) : Prop :=
  ∀ (domain : String) (version : UInt64), entry.readSet[domain]? = some version →
    versions[domain]? = none ∨ versions[domain]? = some version

/-- No live entry is presented as current while a domain it read has moved. -/
def FreshnessSound (ledger : Ledger) : Prop :=
  ∀ (fact : FactId) (entry : Entry), ledger.entries[fact]? = some entry →
    entry.retired = false → entry.freshness = .current → Agrees ledger.versions entry

/-- An accepted call whose offered entry is marked current although the ledger
records another version of a domain it read. -/
def AdmitsStale (ledger : Ledger) (call : Call) : Prop :=
  ledger.Accepts call ∧ ∃ entry, offered call.command = some entry ∧
    entry.freshness = .current ∧ ¬ Agrees ledger.versions entry

/-- How a command moves the freshness of an entry. -/
inductive FreshnessMove (ledger : Ledger) (command : Command) (before after : Entry) : Prop
  | kept (readSet : after.readSet = before.readSet)
      (retired : after.retired = false → before.retired = false)
      (freshness : after.freshness = .current → before.freshness = .current)
      (untouched : before.retired = false → before.freshness = .current →
        after.freshness = .current → ∀ domain : String, before.readSet[domain]?.isSome →
          (written command)[domain]? = none)
  | observed (observation : Observation) (isObservation : command = .revalidate observation)
      (complete : observationMatches ledger.versions observation before)
      (readSet : after.readSet = before.readSet.map fun domain version =>
        (observation.readSet[domain]?).getD version)

section Step

variable {ledger next : Ledger} {command : Command} {sequence : Nat}

theorem written_of_offered {entry : Entry} (offer : offered command = some entry) :
    written command = ∅ := by
  cases command <;> simp_all [offered, written]

/-- A command that writes no domain and neither changes the reads nor the mark
of an entry moves nothing. -/
theorem FreshnessMove.keep {before after : Entry} (noWrite : written command = ∅)
    (readSet : after.readSet = before.readSet)
    (retired : after.retired = false → before.retired = false)
    (freshness : after.freshness = .current → before.freshness = .current) :
    FreshnessMove ledger command before after :=
  .kept readSet retired freshness (by simp [noWrite])

theorem effect_freshness (ledger : Ledger) (sequence : Nat) (command : Command) (key : FactId)
    (entry : Entry) :
    FreshnessMove ledger command entry (ledger.effect sequence command key entry) := by
  cases command with
  | admitObligation | admitConvenience => exact .keep rfl rfl id id
  | demote | decay | retract | promote | amend | consolidate | staleDemote | redact =>
      simp only [effect, assign]
      split
      · exact .keep rfl rfl (by simp [retireFor]) (by simp [retireFor])
      · exact .keep rfl rfl id id
  | discharge fact evidence =>
      cases evidence <;> simp only [effect, assign] <;> split <;>
        first | exact .keep rfl rfl id id | exact .keep rfl rfl (by simp [retireFor]) id
  | factInvalidate result writes =>
      simp only [effect, invalidateEntry]
      split
      · exact .kept rfl id (by simp) (by simp)
      · rename_i spared
        refine .kept rfl id id fun live current _ domain reads => ?_
        simp only [live, current, readsAny, Bool.not_false, Bool.true_and, decide_true,
          Bool.and_true, List.any_eq_true, not_exists, not_and, Std.ExtTreeMap.mem_keys,
          Bool.not_eq_true] at spared
        have notWritten := spared domain (by simpa using reads)
        exact Std.ExtTreeMap.getElem?_eq_none_of_contains_eq_false notWritten
  | revalidate observation =>
      simp only [effect, revalidateEntry]
      split
      · rename_i selected
        simp only [Bool.and_eq_true] at selected
        exact .observed observation rfl selected.2 rfl
      · exact .keep rfl rfl id id

/-- A complete observation leaves the entry at the recorded versions. -/
theorem observed_agrees {versions : BTreeMap String UInt64} {observation : Observation}
    {before after : Entry} (complete : observationMatches versions observation before)
    (readSet : after.readSet = before.readSet.map fun domain version =>
      (observation.readSet[domain]?).getD version) :
    Agrees versions after := by
  intro domain version found
  rw [readSet, Std.ExtTreeMap.getElem?_map, Option.map_eq_some_iff] at found
  obtain ⟨old, present, rfl⟩ := found
  simp only [observationMatches, List.all_eq_true, Bool.and_eq_true, decide_eq_true_eq,
    Std.ExtTreeMap.mem_keys] at complete
  obtain ⟨observed, same⟩ := complete domain (by simp [Std.ExtTreeMap.mem_iff_isSome_getElem?, present])
  cases recorded : versions[domain]? with
  | none => exact .inl rfl
  | some current =>
      rw [recorded, Option.some_or] at same
      exact .inr (by simp [same])

theorem Step.freshnessSound (step : ledger.Step command sequence next)
    (honest : ∀ entry, offered command = some entry → entry.freshness = .current →
      Agrees ledger.versions entry)
    (sound : ledger.FreshnessSound) : next.FreshnessSound := by
  intro fact entry found live current
  rcases step.entry_cases found with ⟨offer, _⟩ | ⟨old, present, rfl⟩
  · rw [step.versions, written_of_offered offer, union_empty]
    exact honest entry offer current
  · cases effect_freshness ledger sequence command fact old with
    | observed observation isObservation complete readSet =>
        subst isObservation
        have versions : next.versions = ledger.versions := step.versions.trans union_empty
        rw [versions]
        exact observed_agrees complete readSet
    | kept readSet retired freshness untouched =>
        intro domain version reads
        rw [readSet] at reads
        have notWritten := untouched (retired live) (freshness current) current domain
          (by simp [reads])
        rw [step.versions, Std.ExtTreeMap.getElem?_union, notWritten, Option.none_or]
        exact sound fact old present (retired live) (freshness current) domain version reads

end Step

/-- An accepted stale admission is visible in the next state. -/
theorem stale_admission_breaks_freshness {ledger : Ledger} {call : Call}
    (stale : ledger.AdmitsStale call) : ¬ (ledger.perform call).FreshnessSound := by
  obtain ⟨accepted, entry, offer, current, disagrees⟩ := stale
  rcases ledger.perform_cases call with ⟨refused, _⟩ | ⟨_, step⟩
  · exact absurd accepted refused
  · intro sound
    have stored : (ledger.perform call).entries[entry.id]? = some entry := by
      rw [step.entries]
      simp [offer]
    have agrees := sound entry.id entry stored (step.admissible entry offer).notRetired current
    rw [step.versions, written_of_offered offer, union_empty] at agrees
    exact disagrees agrees

/-- Along a run of the ledger every entry presented as current is current
exactly when no accepted call brings in an entry that is already stale. -/
theorem freshness_sound_iff (params : LedgerParams) (start : Ledger)
    (fresh : Ledger.new params = .ok start) (calls : List Call) :
    (∀ reached, reached <+: calls → (start.after reached).FreshnessSound) ↔
      ∀ before call, before ++ [call] <+: calls → ¬ (start.after before).AdmitsStale call := by
  refine run_safe_iff FreshnessSound FreshnessSound
    (fun ledger (call : Call) => ¬ ledger.AdmitsStale call) ?_ (fun _ => id) ?_ ?_
  · intro fact entry found
    simp [new_entries fresh] at found
  · intro ledger call sound honest
    rcases ledger.perform_cases call with ⟨_, unchanged⟩ | ⟨accepted, step⟩
    · rwa [unchanged]
    · refine step.freshnessSound (fun entry offer current => ?_) sound
      by_contra disagrees
      exact honest ⟨accepted, entry, offer, current, disagrees⟩
  · intro ledger call sound stale
    exact stale_admission_breaks_freshness stale sound

section StaleAdmission

/-- A note that claims to have read version 1 of the file domain. -/
def readNote : Entry :=
  { note with
    freshness := .current
    evidence := .verified
    readSet := .ofList [("file", (1 : UInt64))] }

/-- A tool result that writes version 2 of the file domain. -/
def fileWrite : Call where
  command := .factInvalidate ⟨"call", "write_file", 1, []⟩ (.ofList [("file", (2 : UInt64))])
  sequence := 1
  scopes := oneScope

/-- The note is admitted as current after the write it never saw. -/
theorem overwritten_note_admitted :
    ¬ ∀ (params : LedgerParams) (start : Ledger) (calls : List Call),
      Ledger.new params = .ok start → (start.after calls).FreshnessSound := by
  intro claim
  have agrees := claim .default .initial [fileWrite, ⟨.admitConvenience readNote, 2, oneScope⟩] rfl
    readNote.id readNote (by decide +kernel) rfl rfl "file" 1 (by decide +kernel)
  exact absurd agrees (by decide +kernel)

/-- The criterion applied to the same two calls in the other order. -/
theorem freshness_sound_of_read_before_write :
    Ledger.new .default = .ok .initial ∧
      (Ledger.initial.after
        [⟨.admitConvenience readNote, 1, oneScope⟩, fileWrite]).FreshnessSound := by
  refine ⟨rfl, (freshness_sound_iff .default .initial rfl _).mpr ?_ _ (List.prefix_refl _)⟩
  rintro before call isPrefix ⟨_, entry, offer, _, disagrees⟩
  match before with
  | [] =>
      refine disagrees fun domain version _ => .inl ?_
      simp [after, Ledger.initial]
  | [_] =>
      obtain ⟨rfl, rfl⟩ : _ ∧ call = fileWrite := by simpa [List.cons_prefix_cons] using isPrefix
      simp [fileWrite, offered] at offer
  | _ :: _ :: _ => simp [List.cons_prefix_cons] at isPrefix

end StaleAdmission

end Llxprt.Kernel.Ledger

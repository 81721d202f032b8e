import Llxprt.Kernel.Ledger.Dependents
import Llxprt.Kernel.Ledger.Obligations
import Llxprt.Rust.Totals

/-!
# Bounds of the ledger

The three bounds are checked when an entry is offered.  No later command brings
an entry back to life, confirms less than before or lengthens a live obligation,
but a redaction writes its tombstone over every live entry that rests on the
leaf without looking at the bound again.
-/

namespace Llxprt.Kernel.Ledger

open Llxprt.Rust

/-- Obligations that bind but are unconfirmed. -/
def unconfirmedCount (ledger : Ledger) : Nat :=
  ((values ledger.entries).filter fun entry =>
    entry.isLiveObligation && entry.unconfirmed).length

/-- The bounds that the parameters set. -/
structure Bounded (ledger : Ledger) : Prop where
  live : ledger.liveCount ≤ ledger.params.capacity
  unconfirmed : ledger.unconfirmedCount ≤ ledger.params.unconfirmedCapacity
  bytes : ledger.obligationBytes ≤ ledger.params.protectionBytes

/-- The ledger with the entries that a command rewrites, before an offered entry
is stored. -/
def rewritten (ledger : Ledger) (sequence : Nat) (command : Command) : Ledger :=
  { ledger with entries := ledger.entries.map (ledger.effect sequence command) }

open Classical in
/-- Bytes that the live obligations carry once the ones that rest on the leaf
carry the tombstone. -/
noncomputable def erasedBytes (ledger : Ledger) (leaf : String) : Nat :=
  (((values ledger.entries).filter Entry.isLiveObligation).map fun entry =>
    if ledger.RestsOn leaf entry.id then erasedTombstone.utf8ByteSize else entry.textBytes).sum

/-- Either the tombstones of a redaction do not fit, or the texts of the
obligations no longer fit the counter that sums them up. -/
def Overruns (ledger : Ledger) (call : Call) : Prop :=
  (∃ leaf, call.command = .redact leaf ∧ ledger.params.protectionBytes < ledger.erasedBytes leaf) ∨
    (ledger.Accepts call ∧ ∃ entry, offered call.command = some entry ∧
      entry.factClass = .obligation ∧
      u64Max < (ledger.rewritten call.sequence call.command).obligationBytes + entry.textBytes)

section Weights

/-- One for a live entry. -/
def liveWeight (entry : Entry) : Nat :=
  if entry.isLive then 1 else 0

/-- One for a live unconfirmed obligation. -/
def unconfirmedWeight (entry : Entry) : Nat :=
  if entry.isLiveObligation && entry.unconfirmed then 1 else 0

/-- The text bytes of a live obligation. -/
def obligationWeight (entry : Entry) : Nat :=
  if entry.isLiveObligation then entry.textBytes else 0

variable {ledger next : Ledger} {command : Command} {sequence : Nat} {scopes : ScopeRegistry}
  {fact : FactId} {entry : Entry}

theorem liveCount_eq_weigh : ledger.liveCount = weigh liveWeight ledger.entries :=
  length_filter_values Entry.isLive

theorem unconfirmedCount_eq_weigh :
    ledger.unconfirmedCount = weigh unconfirmedWeight ledger.entries :=
  length_filter_values fun entry : Entry => entry.isLiveObligation && entry.unconfirmed

theorem obligationBytes_eq_weigh :
    ledger.obligationBytes = weigh obligationWeight ledger.entries :=
  sum_filter_values Entry.isLiveObligation

end Weights

section Effects

variable {ledger next : Ledger} {command : Command} {sequence : Nat} {scopes : ScopeRegistry}
  {fact : FactId} {entry : Entry}

/-- No command brings an entry back to life. -/
theorem live_of_effect (alive : (ledger.effect sequence command fact entry).retired = false) :
    entry.retired = false := by
  cases effect_retirement ledger sequence command fact entry with
  | kept retired _ => exact retired.symm.trans alive
  | withdrawn _ retired | discharged _ _ _ retired _ | superseded _ _ retired _
  | consolidated _ _ _ _ _ _ retired _ =>
      rw [retired] at alive
      cases alive

theorem effect_unconfirmed :
    (ledger.effect sequence command fact entry).unconfirmed = entry.unconfirmed := by
  cases command with
  | admitObligation | admitConvenience => rfl
  | demote | decay | retract | promote | amend | consolidate | factInvalidate | revalidate
  | staleDemote | redact =>
      simp only [effect, assign, invalidateEntry, revalidateEntry]
      split <;> rfl
  | discharge _ evidence =>
      cases evidence <;> simp only [effect, assign] <;> split <;> rfl

/-- Only a redaction changes the text of an entry that stays live. -/
theorem effect_text (spared : ∀ leaf, command ≠ .redact leaf)
    (alive : (ledger.effect sequence command fact entry).retired = false) :
    (ledger.effect sequence command fact entry).fold.text = entry.fold.text := by
  cases command with
  | admitObligation | admitConvenience => rfl
  | demote | decay | promote | factInvalidate | revalidate | staleDemote =>
      simp only [effect, assign, invalidateEntry, revalidateEntry]
      split <;> rfl
  | redact leaf => exact absurd rfl (spared leaf)
  | retract | amend | consolidate =>
      simp only [effect, assign, retireFor] at alive ⊢
      split at alive
      · cases alive
      · rename_i other
        rw [if_neg other]
  | discharge _ evidence =>
      cases evidence <;> simp only [effect, assign, retireFor] at alive ⊢ <;> split at alive <;>
        first | cases alive | rename_i other; rw [if_neg other]

theorem liveObligation_of_effect
    (alive : (ledger.effect sequence command fact entry).isLiveObligation = true) :
    entry.isLiveObligation = true := by
  simp only [Entry.isLiveObligation, Bool.and_eq_true, Bool.not_eq_true', decide_eq_true_eq]
    at alive ⊢
  constructor
  · exact live_of_effect alive.1
  · rw [← (effect_identity ledger sequence command fact entry).factClass]
    exact alive.2

theorem rewritten_liveCount : (ledger.rewritten sequence command).liveCount ≤ ledger.liveCount := by
  rw [liveCount_eq_weigh, liveCount_eq_weigh]
  apply weigh_map_le
  intro key entry _
  simp only [liveWeight, Entry.isLive, Bool.not_eq_true']
  split
  · rename_i alive
    rw [if_pos (live_of_effect alive)]
  · exact Nat.zero_le _

theorem rewritten_unconfirmedCount :
    (ledger.rewritten sequence command).unconfirmedCount ≤ ledger.unconfirmedCount := by
  rw [unconfirmedCount_eq_weigh, unconfirmedCount_eq_weigh]
  apply weigh_map_le
  intro key entry _
  simp only [unconfirmedWeight, Bool.and_eq_true, effect_unconfirmed]
  split
  · rename_i counted
    rw [if_pos ⟨liveObligation_of_effect counted.1, counted.2⟩]
  · exact Nat.zero_le _

theorem rewritten_obligationBytes (spared : ∀ leaf, command ≠ .redact leaf) :
    (ledger.rewritten sequence command).obligationBytes ≤ ledger.obligationBytes := by
  rw [obligationBytes_eq_weigh, obligationBytes_eq_weigh]
  apply weigh_map_le
  intro key entry _
  simp only [obligationWeight]
  split
  · rename_i alive
    have text : (ledger.effect sequence command key entry).fold.text = entry.fold.text := by
      apply effect_text spared
      simp only [Entry.isLiveObligation, Bool.and_eq_true, Bool.not_eq_true'] at alive
      exact alive.1
    rw [if_pos (liveObligation_of_effect alive), Entry.textBytes, text, Entry.textBytes]
  · exact Nat.zero_le _

/-- A redaction leaves exactly the erased bytes. -/
theorem redacted_obligationBytes {leaf : String} :
    (ledger.rewritten sequence (.redact leaf)).obligationBytes = ledger.erasedBytes leaf := by
  rw [obligationBytes_eq_weigh, erasedBytes, sum_filter_values]
  apply weigh_map_eq
  intro key entry _
  by_cases rests : ledger.RestsOn leaf entry.id
  · have collected : (ledger.dependents leaf).contains entry.id := mem_dependents.mpr rests
    simp only [effect, obligationWeight, if_pos collected, if_pos rests]
    rfl
  · have missing : ¬ (ledger.dependents leaf).contains entry.id :=
      fun collected => rests (mem_dependents.mp collected)
    simp only [effect, obligationWeight, if_neg missing, if_neg rests]

end Effects

section Room

variable {ledger other next : Ledger} {command : Command} {sequence : Nat}
  {scopes : ScopeRegistry} {entry : Entry}

/-- Room for one more entry. -/
structure Room (ledger : Ledger) (entry : Entry) : Prop where
  live : ledger.liveCount < ledger.params.capacity
  bytes : entry.factClass = .obligation →
    saturatingAdd ledger.obligationBytes entry.textBytes ≤ ledger.params.protectionBytes
  unconfirmed : entry.factClass = .obligation → entry.unconfirmed = true →
    ledger.unconfirmedCount < ledger.params.unconfirmedCapacity

/-- The bounds depend on the entries and the parameters only. -/
theorem Room.congr (room : other.Room entry) (entries : ledger.entries = other.entries)
    (params : ledger.params = other.params) : ledger.Room entry := by
  have live : ledger.liveCount = other.liveCount := by rw [liveCount, entries, liveCount]
  have bytes : ledger.obligationBytes = other.obligationBytes := by
    rw [obligationBytes, entries, obligationBytes]
  have unconfirmed : ledger.unconfirmedCount = other.unconfirmedCount := by
    rw [unconfirmedCount, entries, unconfirmedCount]
  constructor
  · rw [live, params]
    exact room.live
  · rw [bytes, params]
    exact room.bytes
  · rw [unconfirmed, params]
    exact room.unconfirmed

theorem checkEntry_live {result : Unit} (h : ledger.checkEntry entry scopes = .ok result) :
    ledger.liveCount < ledger.params.capacity := by
  simp only [checkEntry, bind_eq_ok, reject_eq_ok, not_le] at h
  rcases h with ⟨_, _, _, _, _, _, _, _, _, _, room⟩
  exact room

theorem admitObligation_room {grammar : Grammar}
    (h : ledger.admitObligation entry grammar scopes = .ok next) : ledger.Room entry := by
  simp only [admitObligation, checkObligationBound, bind_eq_ok, reject_eq_ok, not_and, not_lt,
    not_le] at h
  rcases h with ⟨_, _, _, _, _, _, _, _, _, checked, _, ⟨_, bytes, unconfirmed⟩, _⟩
  constructor
  · exact checkEntry_live checked
  · exact fun _ => bytes
  · exact fun _ => unconfirmed

/-- A command that rewrites nothing leaves the ledger as it is. -/
theorem rewritten_of_kept
    (kept : ∀ key found, ledger.effect sequence command key found = found) :
    (ledger.rewritten sequence command).entries = ledger.entries := by
  apply Std.ExtTreeMap.ext_getElem?
  intro key
  rw [rewritten, Std.ExtTreeMap.getElem?_map]
  cases ledger.entries[key]? with
  | none => rfl
  | some found => rw [Option.map_some, kept]

/-- An accepted entry finds room in the ledger that its command rewrites. -/
theorem transition_room (h : transition command sequence scopes ledger = .ok next)
    (offer : offered command = some entry) : (ledger.rewritten sequence command).Room entry := by
  cases command with
  | admitObligation admitted grammar =>
      cases offer
      exact (admitObligation_room h).congr (rewritten_of_kept fun _ _ => rfl) rfl
  | admitConvenience admitted =>
      cases offer
      simp only [transition, admitConvenience, bind_eq_ok, reject_eq_ok, not_or, not_not] at h
      rcases h with ⟨_, checked, _, ⟨convenience, _⟩, _⟩
      constructor
      · exact rewritten_liveCount.trans_lt (checkEntry_live checked)
      · rw [convenience]
        rintro ⟨⟩
      · rw [convenience]
        rintro ⟨⟩
  | amend fact replacement principal =>
      cases offer
      have convenience := (transition_step h).guarded.1.1
      simp only [transition, amend, bind_eq_ok] at h
      rcases h with ⟨_, _, _, _, _, _, _, _, _, _, _, checked, _⟩
      constructor
      · exact rewritten_liveCount.trans_lt (checkEntry_live checked)
      · rw [convenience]
        rintro ⟨⟩
      · rw [convenience]
        rintro ⟨⟩
  | consolidate facts composite support reclaim =>
      cases offer
      simp only [transition, consolidate, bind_eq_ok] at h
      rcases h with ⟨_, _, _, _, _, _, _, _, _, _, admitted⟩
      apply (admitObligation_room admitted).congr
      · apply Std.ExtTreeMap.ext_getElem?
        intro key
        rw [retireConstituents_entries, rewritten, Std.ExtTreeMap.getElem?_map]
        simp only [effect, Std.ExtTreeSet.mem_toList]
      · rw [retireConstituents_params, rewritten]
  | demote | discharge | retract | promote | factInvalidate | revalidate | staleDemote | decay
  | redact => cases offer

/-- The entries after a step are the rewritten ones and the offered one. -/
theorem Step.entries_eq (step : ledger.Step command sequence next) :
    next.entries = match offered command with
      | some entry => (ledger.rewritten sequence command).entries.insert entry.id entry
      | none => (ledger.rewritten sequence command).entries := by
  apply Std.ExtTreeMap.ext_getElem?
  intro key
  rw [step.entries key]
  cases offered command with
  | none => rw [rewritten, Std.ExtTreeMap.getElem?_map]
  | some entry =>
      rw [Std.ExtTreeMap.getElem?_insert, rewritten, Std.ExtTreeMap.getElem?_map]
      simp only [Std.LawfulEqOrd.compare_eq_iff_eq]

/-- What the entries weigh after a step. -/
theorem Step.weigh_eq (step : ledger.Step command sequence next) (weight : Entry → Nat) :
    weigh weight next.entries = ((offered command).map weight).getD 0 +
      weigh weight (ledger.rewritten sequence command).entries := by
  rw [step.entries_eq]
  cases offer : offered command with
  | none => rw [Option.map_none, Option.getD_none, Nat.zero_add]
  | some entry =>
      apply weigh_insert
      rw [rewritten, Std.ExtTreeMap.getElem?_map, (step.admissible entry offer).absent]
      rfl

end Room

section Runs

variable {ledger next : Ledger} {call : Call} {command : Command} {sequence : Nat}
  {scopes : ScopeRegistry}

theorem perform_of_ok (result : transition call.command call.sequence call.scopes ledger = .ok next) :
    ledger.perform call = next := by
  simp [perform, apply, Method.staged, result]

theorem perform_params : (ledger.perform call).params = ledger.params := by
  rcases ledger.perform_cases call with ⟨_, kept⟩ | ⟨⟨next, result⟩, _⟩
  · rw [kept]
  · rw [perform_of_ok result, transition_params result]

/-- No redaction and no offered obligation lengthens the texts over the bound. -/
theorem rewritten_obligationBytes_le (bounded : ledger.Bounded)
    (fits : ∀ leaf, command = .redact leaf → ledger.erasedBytes leaf ≤ ledger.params.protectionBytes) :
    (ledger.rewritten sequence command).obligationBytes ≤ ledger.params.protectionBytes := by
  by_cases redacts : ∃ leaf, command = .redact leaf
  · rcases redacts with ⟨leaf, rfl⟩
    rw [redacted_obligationBytes]
    exact fits leaf rfl
  · apply (rewritten_obligationBytes (not_exists.mp redacts)).trans
    exact bounded.bytes

theorem offered_notRedact {entry : Entry} (offer : offered command = some entry) (leaf : String) :
    command ≠ .redact leaf := by
  rintro rfl
  cases offer

/-- A step that offers nothing keeps the bounds when its tombstones fit. -/
theorem Step.bounded_of_rewriting (step : ledger.Step command sequence next)
    (params : next.params = ledger.params) (bounded : ledger.Bounded)
    (offer : offered command = none)
    (fits : ∀ leaf, command = .redact leaf → ledger.erasedBytes leaf ≤ ledger.params.protectionBytes) :
    next.Bounded := by
  have weights : ∀ weight, weigh weight next.entries =
      weigh weight (ledger.rewritten sequence command).entries := by
    intro weight
    rw [step.weigh_eq, offer, Option.map_none, Option.getD_none, Nat.zero_add]
  constructor
  · rw [liveCount_eq_weigh, weights, ← liveCount_eq_weigh, params]
    exact rewritten_liveCount.trans bounded.live
  · rw [unconfirmedCount_eq_weigh, weights, ← unconfirmedCount_eq_weigh, params]
    exact rewritten_unconfirmedCount.trans bounded.unconfirmed
  · rw [obligationBytes_eq_weigh, weights, ← obligationBytes_eq_weigh, params]
    exact rewritten_obligationBytes_le bounded fits

/-- A step that found room for its entry keeps the bounds when the counter of the
texts does not saturate. -/
theorem Step.bounded_of_offer (step : ledger.Step command sequence next)
    (params : next.params = ledger.params) (bounded : ledger.Bounded) {entry : Entry}
    (offer : offered command = some entry) (room : (ledger.rewritten sequence command).Room entry)
    (counted : entry.factClass = .obligation →
      (ledger.rewritten sequence command).obligationBytes + entry.textBytes ≤ u64Max) :
    next.Bounded := by
  have weights : ∀ weight, weigh weight next.entries =
      weight entry + weigh weight (ledger.rewritten sequence command).entries := by
    intro weight
    rw [step.weigh_eq, offer, Option.map_some, Option.getD_some]
  have kept : (ledger.rewritten sequence command).params = ledger.params := rfl
  constructor
  · have single : liveWeight entry ≤ 1 := by
      unfold liveWeight
      split <;> omega
    have live := room.live
    rw [kept] at live
    rw [liveCount_eq_weigh, weights, ← liveCount_eq_weigh, params]
    omega
  · rw [unconfirmedCount_eq_weigh, weights, ← unconfirmedCount_eq_weigh, params]
    by_cases counts : entry.isLiveObligation && entry.unconfirmed
    · simp only [Bool.and_eq_true, Entry.isLiveObligation, decide_eq_true_eq] at counts
      have found := room.unconfirmed counts.1.2 counts.2
      rw [kept] at found
      have single : unconfirmedWeight entry ≤ 1 := by
        unfold unconfirmedWeight
        split <;> omega
      omega
    · rw [unconfirmedWeight, if_neg counts, Nat.zero_add]
      exact rewritten_unconfirmedCount.trans bounded.unconfirmed
  · rw [obligationBytes_eq_weigh, weights, ← obligationBytes_eq_weigh, params]
    by_cases counts : entry.isLiveObligation
    · have obligation : entry.factClass = .obligation := by
        simp only [Entry.isLiveObligation, Bool.and_eq_true, decide_eq_true_eq] at counts
        exact counts.2
      have bytes := room.bytes obligation
      rw [saturatingAdd_of_le (counted obligation), kept] at bytes
      rw [obligationWeight, if_pos counts]
      omega
    · rw [obligationWeight, if_neg counts, Nat.zero_add]
      exact (rewritten_obligationBytes (offered_notRedact offer)).trans bounded.bytes

theorem perform_bounded (bounded : ledger.Bounded) (within : ¬ ledger.Overruns call) :
    (ledger.perform call).Bounded := by
  simp only [Overruns, not_or, not_exists, not_and, not_lt] at within
  rcases within with ⟨tombstones, counter⟩
  rcases ledger.perform_cases call with ⟨_, kept⟩ | ⟨accepted, step⟩
  · rw [kept]
    exact bounded
  · cases offer : offered call.command with
    | none => exact step.bounded_of_rewriting perform_params bounded offer tombstones
    | some entry =>
        rcases accepted with ⟨next, result⟩
        apply step.bounded_of_offer perform_params bounded offer (transition_room result offer)
        exact counter ⟨next, result⟩ entry offer

/-- An overrun is visible in the next state. -/
theorem overrun_breaks_bounds (typed : ledger.params.protectionBytes ≤ u64Max)
    (overruns : ledger.Overruns call) : ¬ (ledger.perform call).Bounded := by
  intro bounded
  have bytes := bounded.bytes
  rw [perform_params, obligationBytes_eq_weigh] at bytes
  rcases overruns with ⟨leaf, redacts, exceeds⟩ | ⟨⟨next, result⟩, entry, offer, obligation, wraps⟩
  · have result : transition call.command call.sequence call.scopes ledger =
        .ok (ledger.redact leaf) := by
      rw [redacts]
      rfl
    rw [perform_of_ok result, (transition_step result).weigh_eq, redacts,
      ← obligationBytes_eq_weigh, redacted_obligationBytes] at bytes
    simp only [offered, Option.map_none, Option.getD_none] at bytes
    omega
  · have step := transition_step result
    have alive := (step.admissible entry offer).notRetired
    have counts : entry.isLiveObligation = true := by
      simp [Entry.isLiveObligation, alive, obligation]
    rw [perform_of_ok result, step.weigh_eq, offer, Option.map_some, Option.getD_some,
      obligationWeight, if_pos counts, ← obligationBytes_eq_weigh] at bytes
    omega

theorem after_params {start : Ledger} {calls : List Call} :
    (start.after calls).params = start.params := by
  have kept : ∀ reached, reached <+: calls → (run perform start reached).params = start.params := by
    apply run_invariant (fun ledger : Ledger => ledger.params = start.params) rfl
    intro before call _ same
    exact perform_params.trans same
  exact kept calls List.prefix_rfl

theorem new_bounded {params : LedgerParams} (fresh : Ledger.new params = .ok ledger) :
    ledger.Bounded := by
  have none : values ledger.entries = [] := by
    rw [new_entries fresh]
    rfl
  constructor
  · rw [liveCount, none]
    exact Nat.zero_le _
  · rw [unconfirmedCount, none]
    exact Nat.zero_le _
  · rw [obligationBytes, none]
    exact Nat.zero_le _

theorem new_params {params : LedgerParams} (fresh : Ledger.new params = .ok ledger) :
    ledger.params = params := by
  simp only [Ledger.new, bind_eq_ok, pure_eq_ok] at fresh
  rcases fresh with ⟨_, _, rfl⟩
  rfl

/-- Along a run of the ledger the three bounds hold exactly when no call overruns
the bytes of the obligations. -/
theorem bounded_iff (params : LedgerParams) (start : Ledger)
    (typed : params.protectionBytes ≤ u64Max) (fresh : Ledger.new params = .ok start)
    (calls : List Call) :
    (∀ reached, reached <+: calls → (start.after reached).Bounded) ↔
      ∀ before call, before ++ [call] <+: calls → ¬ (start.after before).Overruns call := by
  constructor
  · intro safe before call isPrefix overruns
    have bounded := safe _ isPrefix
    rw [after, run_concat] at bounded
    apply overrun_breaks_bounds _ overruns bounded
    rw [after_params, new_params fresh]
    exact typed
  · intro within reached isPrefix
    apply run_invariant Bounded (new_bounded fresh) _ reached isPrefix
    intro before call member bounded
    exact perform_bounded bounded (within before call member)

end Runs

section Tombstones

/-- A text of the given length. -/
def filler : Nat → String
  | 0 => ""
  | length + 1 => (filler length).push 'x'

theorem utf8ByteSize_filler (length : Nat) : (filler length).utf8ByteSize = length := by
  induction length with
  | zero => rfl
  | succ length ih =>
      rw [filler, String.utf8ByteSize_push, ih]
      rfl

/-- A rule with the given text, backed by the given message of the agent. -/
def ruleOf (predicate leaf text : String) : Entry :=
  { rule predicate ∅ with
    source := { agentSource with leaf := leaf }
    fold := ⟨text, 0⟩ }

/-- The rule nearly exhausts the default bound. -/
def longRule : Entry :=
  ruleOf "long" "leaf" (filler 65530)

def shortRule : Entry :=
  ruleOf "short" "other" "cargo"

/-- Admit both rules, then redact the message behind the short one. -/
def redactingCalls : List Call :=
  [⟨.admitObligation longRule .obligation, 1, oneScope⟩,
    ⟨.admitObligation shortRule .obligation, 2, oneScope⟩,
    ⟨.redact "other", 3, oneScope⟩]

/-- The ledger with the long rule. -/
def halfFilled : Ledger :=
  (Ledger.initial.recordConflicts longRule).insert longRule

/-- The ledger with both rules. -/
def filled : Ledger :=
  (halfFilled.recordConflicts shortRule).insert shortRule

theorem weigh_initial (weight : Entry → Nat) : weigh weight Ledger.initial.entries = 0 :=
  rfl

theorem obligationWeight_ruleOf {predicate leaf text : String} :
    obligationWeight (ruleOf predicate leaf text) = text.utf8ByteSize :=
  rfl

theorem textBytes_ruleOf {predicate leaf text : String} :
    (ruleOf predicate leaf text).textBytes = text.utf8ByteSize :=
  rfl

theorem textBytes_longRule : longRule.textBytes = 65530 := by
  rw [longRule, textBytes_ruleOf, utf8ByteSize_filler]

theorem obligationBytes_halfFilled : halfFilled.obligationBytes = 65530 := by
  have entries : halfFilled.entries = Ledger.initial.entries.insert longRule.id longRule := rfl
  rw [obligationBytes_eq_weigh, entries, weigh_insert (by decide +kernel), weigh_initial, longRule,
    obligationWeight_ruleOf, utf8ByteSize_filler]

theorem long_admitted :
    Ledger.initial.admitObligation longRule .obligation oneScope = .ok halfFilled := by
  have room : ¬ Ledger.initial.params.protectionBytes <
      saturatingAdd Ledger.initial.obligationBytes longRule.textBytes := by
    rw [textBytes_longRule]
    decide
  simp only [admitObligation, checkEntry, checkObligationBound, reject, if_neg room]
  rw [if_neg, if_neg, if_neg, if_neg, if_neg, if_neg, if_neg, if_neg, if_neg, if_neg, if_neg]
  · rfl
  all_goals decide +kernel

theorem short_admitted :
    halfFilled.admitObligation shortRule .obligation oneScope = .ok filled := by
  have room : ¬ halfFilled.params.protectionBytes <
      saturatingAdd halfFilled.obligationBytes shortRule.textBytes := by
    rw [obligationBytes_halfFilled]
    decide
  simp only [admitObligation, checkEntry, checkObligationBound, reject, if_neg room]
  rw [if_neg, if_neg, if_neg, if_neg, if_neg, if_neg, if_neg, if_neg, if_neg, if_neg, if_neg]
  · rfl
  all_goals decide +kernel

/-- The short rule carries the tombstone after the redaction. -/
theorem erasedBytes_filled : filled.erasedBytes "other" = 65560 := by
  have short : filled.RestsOn "other" shortRule.id := by
    rw [← mem_dependents]
    decide +kernel
  have long : ¬ filled.RestsOn "other" longRule.id := by
    rw [← mem_dependents]
    decide +kernel
  have entries : filled.entries =
      (Ledger.initial.entries.insert longRule.id longRule).insert shortRule.id shortRule := rfl
  have tombstone : erasedTombstone.utf8ByteSize = 30 := by decide +kernel
  have longLive : longRule.isLiveObligation = true := rfl
  have shortLive : shortRule.isLiveObligation = true := rfl
  rw [erasedBytes, sum_filter_values, entries, weigh_insert (by decide +kernel),
    weigh_insert (by decide +kernel), if_pos shortLive, if_pos short, if_pos longLive, if_neg long,
    textBytes_longRule, weigh_initial, tombstone]

theorem perform_long :
    Ledger.initial.perform ⟨.admitObligation longRule .obligation, 1, oneScope⟩ = halfFilled :=
  perform_of_ok long_admitted

theorem perform_short :
    halfFilled.perform ⟨.admitObligation shortRule .obligation, 2, oneScope⟩ = filled :=
  perform_of_ok short_admitted

theorem after_redactingCalls :
    Ledger.initial.after redactingCalls = filled.perform ⟨.redact "other", 3, oneScope⟩ := by
  have unrolled : Ledger.initial.after redactingCalls =
      ((Ledger.initial.perform ⟨.admitObligation longRule .obligation, 1, oneScope⟩).perform
        ⟨.admitObligation shortRule .obligation, 2, oneScope⟩).perform
          ⟨.redact "other", 3, oneScope⟩ := rfl
  rw [unrolled, perform_long, perform_short]

theorem filled_protection : filled.params.protectionBytes = 65536 :=
  rfl

/-- The tombstone of the short rule does not fit beside the long rule. -/
theorem tombstone_exceeds_protection :
    ¬ ∀ (params : LedgerParams) (start : Ledger) (calls : List Call),
      Ledger.new params = .ok start → (start.after calls).Bounded := by
  intro claim
  have bounded := claim .default .initial redactingCalls rfl
  rw [after_redactingCalls] at bounded
  apply overrun_breaks_bounds _ _ bounded
  · rw [filled_protection]
    decide
  · apply Or.inl
    refine ⟨"other", rfl, ?_⟩
    rw [erasedBytes_filled, filled_protection]
    decide

/-- With room for a tombstone beside every text a redaction fits. -/
theorem erasedBytes_le (ledger : Ledger) (leaf : String) :
    ledger.erasedBytes leaf ≤ (((values ledger.entries).filter Entry.isLiveObligation).map fun entry =>
      erasedTombstone.utf8ByteSize + entry.textBytes).sum := by
  apply List.sum_le_sum
  intro entry _
  split
  · exact Nat.le_add_right _ _
  · exact Nat.le_add_left _ _

/-- Admit the short rule alone, then redact its message. -/
def shortCalls : List Call :=
  [⟨.admitObligation shortRule .obligation, 1, oneScope⟩, ⟨.redact "other", 2, oneScope⟩]

/-- The tombstone of the short rule fits when the rule is alone. -/
theorem bounded_shortCalls :
    (∀ reached, reached <+: shortCalls → (Ledger.initial.after reached).Bounded) ∧
      (Ledger.initial.after shortCalls).entries[shortRule.id]?.map (fun entry => entry.fold.text) =
        some erasedTombstone := by
  refine ⟨(bounded_iff .default .initial (by decide) rfl shortCalls).mpr ?_, by decide +kernel⟩
  let fits := fun (ledger : Ledger) (call : Call) => ¬ ledger.Overruns call
  apply @forall_steps_cons _ _ Ledger.perform .initial _ fits
  · rintro (⟨leaf, isRedaction, _⟩ | ⟨_, entry, offer, _, overflow⟩)
    · cases isRedaction
    · cases offer
      revert overflow
      decide +kernel
  · apply @forall_steps_cons _ _ Ledger.perform _ _ fits _ _ forall_steps_nil
    rintro (⟨leaf, isRedaction, overflow⟩ | ⟨_, entry, offer, _⟩)
    · cases isRedaction
      have fits := erasedBytes_le (Ledger.initial.perform
        ⟨.admitObligation shortRule .obligation, 1, oneScope⟩) "other"
      have small := Nat.lt_of_lt_of_le overflow fits
      revert small
      decide +kernel
    · cases offer

end Tombstones

end Llxprt.Kernel.Ledger

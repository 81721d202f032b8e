import Llxprt.Policy.Controller
import Llxprt.Policy.Tightening
import Llxprt.Rust.Saturation
import Llxprt.Rust.Tallies

/-!
# What the governor counts

Beside the controller a run keeps a record of every proposal, of the turn in
which it was made and of the size it was completed with.  The counters of the
governor are tallies over that record as long as no completion reclaims
anything, since a reclaimed byte is counted twice, and as long as what was never
charged is not refunded.
-/

namespace Llxprt.Policy

open Llxprt.Rust

/-- One proposal of a run. -/
structure Entry where
  proposal : BulkProposal
  turn : Nat
  completed : Option Nat

namespace Entry

def admitted (entry : Entry) : Bool :=
  entry.proposal.admission = .admits

/-- The size that was admitted, the raw bound until the completion. -/
def settled (entry : Entry) : Nat :=
  entry.completed.getD entry.proposal.inputBytes

/-- What the completion, if there was one, left of the input. -/
def reclaimed (entry : Entry) : Nat :=
  match entry.completed with
  | some admittedBytes => entry.proposal.inputBytes - admittedBytes
  | none => 0

/-- The entry was proposed in the window that was entered last. -/
def belongs (active : Option Nat) (entry : Entry) : Bool :=
  active = some entry.proposal.window

/-- The entry after its completion. -/
def complete (entry : Entry) (admittedBytes : Nat) : Entry :=
  { entry with completed := some admittedBytes }

end Entry

namespace Governor

section Tallies

/-- Every counter is the tally of its scope. -/
structure Tallied (governor : Governor) (turn : Nat) (entries : List Entry) : Prop where
  inWindow : governor.state.windowAdmitted =
    tally (fun entry => entry.admitted && entry.belongs governor.activeWindow) Entry.settled entries
  inTurn : governor.state.turnAdmitted =
    tally (fun entry => entry.admitted && entry.turn = turn) Entry.settled entries
  ofSource : ∀ source, governor.sourceAdmitted[source]?.getD 0 =
    tally (fun entry => entry.admitted && entry.belongs governor.activeWindow &&
      entry.proposal.source = source) Entry.settled entries
  reclaimed : governor.state.windowReclaimed =
    tally (Entry.belongs governor.activeWindow) Entry.reclaimed entries

/-- Windows are turns; what was charged or completed belongs to a window that was
entered, and no later window than the current turn was. -/
structure Placed (governor : Governor) (turn : Nat) (entries : List Entry) : Prop where
  numbered : ∀ entry ∈ entries, entry.turn = entry.proposal.window ∧ entry.turn ≤ turn
  entered : ∀ entry ∈ entries, entry.proposal.admission ≠ .quiesce ∨ entry.completed ≠ none →
    ∃ active, governor.activeWindow = some active ∧ entry.proposal.window ≤ active
  active : ∀ active, governor.activeWindow = some active → active ≤ turn

end Tallies

section Scopes

variable {governor : Governor} {turn : Nat} {entries : List Entry}

theorem admission_of_admitted {entry : Entry} (admitted : entry.admitted = true) :
    entry.proposal.admission = .admits := by
  simpa [Entry.admitted] using admitted

/-- In a turn whose window was not entered nothing is charged. -/
theorem Placed.no_turn (placed : governor.Placed turn entries)
    (behind : governor.activeWindow ≠ some turn) :
    tally (fun entry => entry.admitted && entry.turn = turn) Entry.settled entries = 0 := by
  apply tally_eq_zero
  intro entry member counted
  rw [Bool.and_eq_true, decide_eq_true_eq] at counted
  rcases counted with ⟨admitted, current⟩
  have charged : entry.proposal.admission ≠ .quiesce := by
    rw [admission_of_admitted admitted]
    decide
  rcases placed.entered entry member (.inl charged) with ⟨active, isActive, within⟩
  have window := (placed.numbered entry member).1
  have limit := placed.active active isActive
  have same : active = turn := by omega
  rw [same] at isActive
  exact absurd isActive behind

/-- In the window of the current turn the two scopes are one. -/
theorem Placed.turn_eq_window (placed : governor.Placed turn entries)
    (current : governor.activeWindow = some turn) :
    tally (fun entry => entry.admitted && entry.turn = turn) Entry.settled entries =
      tally (fun entry => entry.admitted && entry.belongs governor.activeWindow) Entry.settled entries := by
  apply tally_congr
  intro entry member
  have window := (placed.numbered entry member).1
  rw [Entry.belongs, current, window]
  congr 1
  exact decide_eq_decide.mpr
    ⟨fun same => congrArg some same.symm, fun same => (Option.some.inj same).symm⟩

theorem Tallied.turn_le_window (tallied : governor.Tallied turn entries)
    (placed : governor.Placed turn entries) :
    governor.state.turnAdmitted ≤ governor.state.windowAdmitted := by
  rw [tallied.inTurn, tallied.inWindow]
  by_cases current : governor.activeWindow = some turn
  · exact (placed.turn_eq_window current).le
  · rw [placed.no_turn current]
    exact Nat.zero_le _

theorem Tallied.source_le_window (tallied : governor.Tallied turn entries) (source : UInt64) :
    governor.sourceAdmitted[source]?.getD 0 ≤ governor.state.windowAdmitted := by
  rw [tallied.ofSource, tallied.inWindow]
  apply tally_le_tally
  intro entry counted
  rw [Bool.and_eq_true] at counted
  exact counted.1

end Scopes

section Moves

variable {governor next : Governor} {turn window : Nat} {entries : List Entry} {entry : Entry}

/-- What was charged or completed before a new window is entered lies behind
it. -/
theorem Placed.behind (placed : governor.Placed turn entries)
    (later : ∀ active, governor.activeWindow = some active → active < window)
    (member : entry ∈ entries)
    (used : entry.proposal.admission ≠ .quiesce ∨ entry.completed ≠ none) :
    entry.proposal.window < window := by
  rcases placed.entered entry member used with ⟨active, isActive, within⟩
  exact Nat.lt_of_le_of_lt within (later active isActive)

theorem Tallied.enter (tallied : governor.Tallied turn entries)
    (placed : governor.Placed turn entries)
    (later : ∀ active, governor.activeWindow = some active → active < window) :
    (governor.entered window).Tallied turn entries := by
  have uncharged : ∀ entry ∈ entries, entry.admitted = true →
      entry.belongs (governor.entered window).activeWindow = false := by
    intro entry member admitted
    have charged : entry.proposal.admission ≠ .quiesce := by
      rw [admission_of_admitted admitted]
      decide
    have before := placed.behind later member (.inl charged)
    simp only [Entry.belongs, entered, Option.some.injEq, decide_eq_false_iff_not]
    omega
  constructor
  · symm
    apply tally_eq_zero
    intro entry member counted
    rw [Bool.and_eq_true] at counted
    rw [uncharged entry member counted.1] at counted
    cases counted.2
  · exact tallied.inTurn
  · intro source
    symm
    apply tally_eq_zero
    intro entry member counted
    rw [Bool.and_eq_true, Bool.and_eq_true] at counted
    rw [uncharged entry member counted.1.1] at counted
    cases counted.1.2
  · symm
    apply tally_eq_zero
    intro entry member counted
    cases finished : entry.completed with
    | none => rw [Entry.reclaimed, finished]
    | some size =>
        have before := placed.behind later member (.inr (by rw [finished]; simp))
        simp only [Entry.belongs, entered, Option.some.injEq, decide_eq_true_eq] at counted
        omega

theorem Placed.enter (placed : governor.Placed turn entries)
    (later : ∀ active, governor.activeWindow = some active → active < window)
    (limit : window ≤ turn) : (governor.entered window).Placed turn entries := by
  constructor
  · exact placed.numbered
  · intro entry member used
    exact ⟨window, rfl, (placed.behind later member used).le⟩
  · rintro active ⟨⟩
    exact limit

/-- A proposal that was not admitted is charged to no counter. -/
theorem Tallied.concat_refused (tallied : governor.Tallied turn entries)
    (refused : entry.admitted = false) (open_ : entry.completed = none) :
    governor.Tallied turn (entries ++ [entry]) := by
  have nothing : entry.reclaimed = 0 := by
    rw [Entry.reclaimed, open_]
  constructor
  · simpa [tally_concat, refused] using tallied.inWindow
  · simpa [tally_concat, refused] using tallied.inTurn
  · intro source
    simpa [tally_concat, refused] using tallied.ofSource source
  · simpa [tally_concat, nothing] using tallied.reclaimed

theorem Placed.concat (placed : governor.Placed turn entries)
    (numbered : entry.turn = entry.proposal.window ∧ entry.turn ≤ turn)
    (within : entry.proposal.admission ≠ .quiesce ∨ entry.completed ≠ none →
      ∃ active, governor.activeWindow = some active ∧ entry.proposal.window ≤ active) :
    governor.Placed turn (entries ++ [entry]) := by
  constructor
  · exact List.forall_mem_append.mpr ⟨placed.numbered, List.forall_mem_singleton.mpr numbered⟩
  · exact List.forall_mem_append.mpr ⟨placed.entered, List.forall_mem_singleton.mpr within⟩
  · exact placed.active

theorem Placed.frame (placed : governor.Placed turn entries)
    (same : next.activeWindow = governor.activeWindow) : next.Placed turn entries := by
  constructor
  · exact placed.numbered
  · rw [same]
    exact placed.entered
  · rw [same]
    exact placed.active

end Moves

section Charges

variable {governor next : Governor} {turn : Nat} {entries : List Entry} {admission : Admission}
  {source : UInt64} {bytes time : Nat} {armed : Bool}

/-- An admitted proposal is charged to the three counters of its scopes. -/
theorem Tallied.charge (tallied : governor.Tallied turn entries)
    (placed : governor.Placed turn entries) (current : governor.activeWindow = some turn)
    (fits : u64Max ≤ governor.config.perTurnCeiling →
      governor.state.turnAdmitted + bytes ≤ u64Max)
    (decided : governor.decide source bytes = (admission, next)) :
    next.Tallied turn (entries ++ [⟨⟨source, time, admission, armed, bytes, turn⟩, turn, none⟩]) := by
  unfold Governor.decide at decided
  simp only at decided
  split at decided
  · cases decided
    exact tallied.concat_refused rfl rfl
  · rename_i accepted
    cases decided
    rw [not_or, Nat.not_lt, Nat.not_lt] at accepted
    have same : governor.state.turnAdmitted = governor.state.windowAdmitted := by
      rw [tallied.inTurn, tallied.inWindow, placed.turn_eq_window current]
    have exactTurn : governor.state.turnAdmitted + bytes ≤ u64Max := by
      by_cases wide : u64Max ≤ governor.config.perTurnCeiling
      · exact fits wide
      · have ceiling := accepted.1
        unfold saturatingAdd at ceiling
        omega
    have exactSource : governor.sourceAdmitted[source]?.getD 0 + bytes ≤ u64Max := by
      have within := tallied.source_le_window source
      omega
    constructor
    · rw [tally_concat]
      simp only [Entry.admitted, decide_true, Entry.belongs, current, Bool.and_self, if_true,
        Entry.settled, Option.getD_none]
      rw [saturatingAdd_of_le (by omega), tallied.inWindow, current]
      rfl
    · rw [tally_concat]
      simp only [Entry.admitted, decide_true, Bool.and_self, if_true, Entry.settled,
        Option.getD_none]
      rw [saturatingAdd_of_le exactTurn, tallied.inTurn]
      rfl
    · intro other
      rw [tally_concat, Std.ExtTreeMap.getElem?_insert, saturatingAdd_of_le exactSource]
      have earlier := tallied.ofSource other
      by_cases own : source = other
      · subst own
        rw [if_pos Std.ReflCmp.compare_self, Option.getD_some, earlier]
        simp [Entry.admitted, Entry.belongs, current, Entry.settled]
      · rw [if_neg (fun equal => own (Std.LawfulEqOrd.compare_eq_iff_eq.mp equal)), earlier]
        simp [Entry.admitted, own]
    · rw [tally_concat]
      simpa [Entry.reclaimed] using tallied.reclaimed

theorem activeWindow_decide : (governor.decide source bytes).2.activeWindow =
    governor.activeWindow := by
  unfold Governor.decide
  simp only
  split <;> rfl

/-- A proposal is recorded with the verdict that it was charged for. -/
theorem Tallied.propose (tallied : governor.Tallied turn entries)
    (placed : governor.Placed turn entries)
    (fits : u64Max ≤ governor.config.perTurnCeiling →
      governor.state.turnAdmitted + bytes ≤ u64Max)
    (admitted : governor.admitBytes source bytes turn = some (admission, next)) :
    next.Tallied turn (entries ++ [⟨⟨source, time, admission, armed, bytes, turn⟩, turn, none⟩]) ∧
      next.Placed turn
        (entries ++ [⟨⟨source, time, admission, armed, bytes, turn⟩, turn, none⟩]) := by
  unfold Governor.admitBytes at admitted
  split at admitted
  · cases admitted
    constructor
    · exact tallied.concat_refused rfl rfl
    · apply placed.concat ⟨rfl, le_refl turn⟩
      rintro (charged | finished)
      · exact absurd rfl charged
      · exact absurd rfl finished
  · rcases Option.map_eq_some_iff.mp admitted with ⟨middle, entering, decided⟩
    have active : next.activeWindow = middle.activeWindow := by
      have kept := @activeWindow_decide middle source bytes
      rw [decided] at kept
      exact kept
    rcases enterWindow_cases entering with ⟨current, rfl⟩ | ⟨later, rfl⟩
    · constructor
      · exact tallied.charge placed current fits decided
      · apply (placed.frame active).concat ⟨rfl, le_refl turn⟩
        exact fun _ => ⟨turn, active.trans current, le_refl turn⟩
    · have newly := placed.enter later (le_refl turn)
      constructor
      · exact (tallied.enter placed later).charge newly rfl fits decided
      · apply (newly.frame active).concat ⟨rfl, le_refl turn⟩
        exact fun _ => ⟨turn, active, le_refl turn⟩

end Charges

section Settlements

variable {governor : Governor} {turn : Nat} {entries : List Entry} {index : Nat} {entry : Entry}
  {admittedBytes : Nat}

/-- A completion in the active window corrects what was charged: it refunds what
was charged for an admitted proposal, and nothing for another one. -/
structure Correctable (governor : Governor) (entry : Entry) (admittedBytes : Nat) : Prop where
  open_ : entry.completed = none
  charged : entry.admitted = true → admittedBytes ≤ entry.proposal.inputBytes
  uncharged : entry.admitted = false →
    entry.proposal.inputBytes ≤ admittedBytes ∨ governor.state.windowAdmitted = 0
  fits : governor.state.windowReclaimed + (entry.proposal.inputBytes - admittedBytes) ≤ u64Max

/-- A counted entry gives back what its completion did not admit. -/
theorem tally_complete {counted : Entry → Bool} (listed : entries[index]? = some entry)
    (open_ : entry.completed = none)
    (same : counted (entry.complete admittedBytes) = counted entry)
    (within : counted entry = true → admittedBytes ≤ entry.proposal.inputBytes) :
    tally counted Entry.settled (entries.set index (entry.complete admittedBytes)) =
      tally counted Entry.settled entries -
        if counted entry then entry.proposal.inputBytes - admittedBytes else 0 := by
  have moved := @tally_set _ counted Entry.settled entries entry (entry.complete admittedBytes)
    index listed
  have before : entry.settled = entry.proposal.inputBytes := by
    rw [Entry.settled, open_, Option.getD_none]
  have after : (entry.complete admittedBytes).settled = admittedBytes :=
    rfl
  rw [same, before, after] at moved
  cases isCounted : counted entry with
  | false =>
      simpa [isCounted] using moved
  | true =>
      have limit := within isCounted
      rw [isCounted, if_pos rfl, if_pos rfl] at moved
      rw [if_pos rfl]
      omega

theorem Tallied.settle (tallied : governor.Tallied turn entries)
    (placed : governor.Placed turn entries) (listed : entries[index]? = some entry)
    (active : governor.activeWindow = some entry.proposal.window)
    (correctable : governor.Correctable entry admittedBytes) :
    (governor.settleAdmission entry.proposal.source entry.proposal.window
      entry.proposal.inputBytes admittedBytes).Tallied turn
        (entries.set index (entry.complete admittedBytes)) := by
  rcases correctable with ⟨open_, charged, uncharged, fits⟩
  have belongs : entry.belongs governor.activeWindow = true := by
    simp [Entry.belongs, active]
  have numbered := placed.numbered entry (List.mem_of_getElem? listed)
  have turnLimit := tallied.turn_le_window placed
  have sourceLimit := tallied.source_le_window entry.proposal.source
  rw [settleAdmission, if_neg (not_not_intro active)]
  constructor
  · have corrected := @tally_complete entries index entry admittedBytes
      (fun entry => entry.admitted && entry.belongs governor.activeWindow) listed open_ rfl
      (fun counted => charged (Bool.and_eq_true _ _ ▸ counted).1)
    change governor.state.windowAdmitted - (entry.proposal.inputBytes - admittedBytes) = _
    rw [corrected, ← tallied.inWindow, belongs]
    cases admitted : entry.admitted with
    | true => rfl
    | false =>
        have nothing := uncharged admitted
        simp
        omega
  · have corrected := @tally_complete entries index entry admittedBytes
      (fun entry => entry.admitted && entry.turn = turn) listed open_ rfl
      (fun counted => charged (Bool.and_eq_true _ _ ▸ counted).1)
    change governor.state.turnAdmitted - (entry.proposal.inputBytes - admittedBytes) = _
    rw [corrected, ← tallied.inTurn]
    cases admitted : entry.admitted with
    | true =>
        by_cases current : entry.turn = turn
        · simp [current]
        · have behind : governor.activeWindow ≠ some turn := by
            rw [active, ← numbered.1]
            exact fun same => current (Option.some.inj same)
          have nothing : governor.state.turnAdmitted = 0 := by
            rw [tallied.inTurn, placed.no_turn behind]
          rw [nothing]
          simp
    | false =>
        have nothing := uncharged admitted
        simp
        omega
  · intro other
    have corrected := @tally_complete entries index entry admittedBytes
      (fun entry => entry.admitted && entry.belongs governor.activeWindow &&
        entry.proposal.source = other) listed open_ rfl
      (fun counted => charged
        (Bool.and_eq_true _ _ ▸ (Bool.and_eq_true _ _ ▸ counted).1).1)
    change (governor.sourceAdmitted.insert entry.proposal.source _)[other]?.getD 0 = _
    rw [corrected, ← tallied.ofSource other, belongs, Std.ExtTreeMap.getElem?_insert]
    by_cases own : entry.proposal.source = other
    · subst own
      rw [if_pos Std.ReflCmp.compare_self, Option.getD_some]
      cases admitted : entry.admitted with
      | true => simp
      | false =>
          have nothing := uncharged admitted
          simp
          omega
    · rw [if_neg (fun equal => own (Std.LawfulEqOrd.compare_eq_iff_eq.mp equal))]
      simp [own]
  · have moved := @tally_set _ (Entry.belongs governor.activeWindow) Entry.reclaimed entries entry
      (entry.complete admittedBytes) index listed
    have before : entry.reclaimed = 0 := by
      rw [Entry.reclaimed, open_]
    have same : (entry.complete admittedBytes).belongs governor.activeWindow = true :=
      belongs
    change saturatingAdd governor.state.windowReclaimed
      (entry.proposal.inputBytes - admittedBytes) = _
    rw [belongs, same, before, if_pos rfl, if_pos rfl] at moved
    rw [saturatingAdd_of_le fits, tallied.reclaimed]
    exact moved.symm

/-- Observing what was not reclaimed changes nothing. -/
theorem observeReclaim_zero {window : Nat} (active : governor.activeWindow = some window)
    (limit : governor.state.windowReclaimed ≤ u64Max) :
    governor.observeReclaim 0 window = some governor := by
  rw [observeReclaim, enterWindow, if_pos active, Option.map_some,
    saturatingAdd_of_le (by omega)]
  rfl

/-- A completion that enters its window is the first use of that window. -/
theorem Tallied.observe (tallied : governor.Tallied turn entries)
    (placed : governor.Placed turn entries) (listed : entries[index]? = some entry)
    (later : ∀ active, governor.activeWindow = some active → active < entry.proposal.window)
    (fits : entry.proposal.inputBytes - admittedBytes ≤ u64Max) :
    ({ governor.entered entry.proposal.window with
      state := { (governor.entered entry.proposal.window).state with
        windowReclaimed := saturatingAdd 0 (entry.proposal.inputBytes - admittedBytes) } } :
      Governor).Tallied turn (entries.set index (entry.complete admittedBytes)) := by
  have member := List.mem_of_getElem? listed
  have unused : ¬ (entry.proposal.admission ≠ .quiesce ∨ entry.completed ≠ none) :=
    fun used => lt_irrefl _ (placed.behind later member used)
  rw [not_or, not_not, not_not] at unused
  have refused : entry.admitted = false := by
    rw [Entry.admitted, unused.1]
    rfl
  have fresh := tallied.enter placed later
  constructor
  · rw [tally_complete listed unused.2 rfl (by rw [refused]; rintro ⟨⟩), refused]
    exact fresh.inWindow
  · rw [tally_complete listed unused.2 rfl (by rw [refused]; rintro ⟨⟩), refused]
    exact fresh.inTurn
  · intro source
    rw [tally_complete listed unused.2 rfl (by rw [refused]; rintro ⟨⟩), refused]
    exact fresh.ofSource source
  · have moved := @tally_set _ (Entry.belongs (some entry.proposal.window)) Entry.reclaimed entries
      entry (entry.complete admittedBytes) index listed
    have before : entry.reclaimed = 0 := by
      rw [Entry.reclaimed, unused.2]
    have belongs : (entry.complete admittedBytes).belongs (some entry.proposal.window) = true := by
      simp [Entry.belongs, Entry.complete]
    have nothing : tally (Entry.belongs (some entry.proposal.window)) Entry.reclaimed entries = 0 :=
      fresh.reclaimed.symm
    rw [belongs, before, nothing, if_pos rfl, ite_self, Nat.add_zero, Nat.zero_add] at moved
    change saturatingAdd 0 _ = tally (Entry.belongs (some entry.proposal.window)) _ _
    rw [moved, saturatingAdd_of_le (by omega), Nat.zero_add]
    rfl

theorem Placed.complete (placed : governor.Placed turn entries)
    (listed : entries[index]? = some entry) {active : Nat}
    (isActive : governor.activeWindow = some active) (within : entry.proposal.window ≤ active) :
    governor.Placed turn (entries.set index (entry.complete admittedBytes)) := by
  constructor
  · intro other member
    rcases List.mem_or_eq_of_mem_set member with earlier | rfl
    · exact placed.numbered other earlier
    · exact placed.numbered entry (List.mem_of_getElem? listed)
  · intro other member used
    rcases List.mem_or_eq_of_mem_set member with earlier | rfl
    · exact placed.entered other earlier used
    · exact ⟨active, isActive, within⟩
  · exact placed.active

/-- A completion settles the active window or enters its own, and the proposal is
recorded as completed. -/
theorem Tallied.finish {next : Governor} {bytes : Nat} (tallied : governor.Tallied turn entries)
    (placed : governor.Placed turn entries) (listed : entries[index]? = some entry)
    (counted : if governor.activeWindow = some entry.proposal.window then
        governor.Correctable entry admittedBytes ∧ bytes ≤ admittedBytes
      else
        bytes - admittedBytes = entry.proposal.inputBytes - admittedBytes ∧
          entry.proposal.inputBytes - admittedBytes ≤ u64Max)
    (observed : (governor.settleAdmission entry.proposal.source entry.proposal.window
      entry.proposal.inputBytes admittedBytes).observeReclaim (bytes - admittedBytes)
        entry.proposal.window = some next) :
    next.Tallied turn (entries.set index (entry.complete admittedBytes)) ∧
      next.Placed turn (entries.set index (entry.complete admittedBytes)) := by
  have numbered := placed.numbered entry (List.mem_of_getElem? listed)
  by_cases active : governor.activeWindow = some entry.proposal.window
  · rw [if_pos active] at counted
    rcases counted with ⟨correctable, once⟩
    have settled := tallied.settle placed listed active correctable
    have keeps := ProposalOnlyController.activeWindow_settleAdmission governor
      entry.proposal.source entry.proposal.window entry.proposal.inputBytes admittedBytes
    have limit : (governor.settleAdmission entry.proposal.source entry.proposal.window
        entry.proposal.inputBytes admittedBytes).state.windowReclaimed ≤ u64Max := by
      rw [settleAdmission, if_neg (not_not_intro active)]
      exact saturatingAdd_le
    rw [Nat.sub_eq_zero_of_le once, observeReclaim_zero (keeps.trans active) limit] at observed
    cases observed
    exact ⟨settled, (placed.frame keeps).complete listed (keeps.trans active) (le_refl _)⟩
  · rw [if_neg active] at counted
    rw [settleAdmission, if_pos active, counted.1] at observed
    rcases Option.map_eq_some_iff.mp observed with ⟨middle, entering, rfl⟩
    rcases enterWindow_cases entering with ⟨current, _⟩ | ⟨later, rfl⟩
    · exact absurd current active
    · have newly := placed.enter later (numbered.1 ▸ numbered.2)
      constructor
      · exact tallied.observe placed listed later counted.2
      · exact (newly.complete listed rfl (le_refl _)).frame rfl

end Settlements

section Frames

variable {governor next : Governor} {turn : Nat} {entries : List Entry}

/-- Closing a window leaves the counters as they are. -/
theorem finishWindow_counters {window : Nat} {rate : Bool}
    (done : governor.finishWindow window = some (rate, next)) :
    next.activeWindow = governor.activeWindow ∧ next.sourceAdmitted = governor.sourceAdmitted ∧
      next.state.windowAdmitted = governor.state.windowAdmitted ∧
      next.state.windowReclaimed = governor.state.windowReclaimed := by
  unfold finishWindow at done
  split at done
  · cases done
  · split at done
    · cases done
      exact ⟨rfl, rfl, rfl, rfl⟩
    · cases done
      unfold tighten
      simp only
      split
      · exact ⟨rfl, rfl, rfl, rfl⟩
      · split
        · exact ⟨rfl, rfl, rfl, rfl⟩
        · exact ⟨rfl, rfl, rfl, rfl⟩

/-- A new turn keeps the counters of the window, which stays the active one until
an admission enters the next. -/
theorem Tallied.beginTurn (tallied : governor.Tallied turn entries)
    (placed : governor.Placed turn entries)
    (same : next.activeWindow = governor.activeWindow ∧
      next.sourceAdmitted = governor.sourceAdmitted ∧
      next.state.windowAdmitted = governor.state.windowAdmitted ∧
      next.state.windowReclaimed = governor.state.windowReclaimed) :
    next.beginTurn.Tallied (turn + 1) entries := by
  rcases same with ⟨active, sources, admitted, reclaimed⟩
  have activeNext : next.beginTurn.activeWindow = governor.activeWindow :=
    active
  constructor
  · rw [activeNext]
    exact admitted.trans tallied.inWindow
  · symm
    apply tally_eq_zero
    intro entry member counted
    rw [Bool.and_eq_true, decide_eq_true_eq] at counted
    have limit := (placed.numbered entry member).2
    omega
  · intro source
    rw [activeNext]
    change next.sourceAdmitted[source]?.getD 0 = _
    rw [sources]
    exact tallied.ofSource source
  · rw [activeNext]
    exact reclaimed.trans tallied.reclaimed

theorem Placed.later (placed : governor.Placed turn entries) :
    governor.Placed (turn + 1) entries := by
  constructor
  · intro entry member
    rcases placed.numbered entry member with ⟨numbered, limit⟩
    exact ⟨numbered, by omega⟩
  · exact placed.entered
  · intro active isActive
    exact (placed.active active isActive).trans (Nat.le_succ turn)

end Frames

end Governor

end Llxprt.Policy

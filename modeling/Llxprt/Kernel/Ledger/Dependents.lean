import Llxprt.Kernel.Ledger.Steps

/-!
# Facts that rest on a leaf

A redaction collects the facts that rest on its leaf by passes over the entries
until a pass adds nothing.  The loop ends, and what it has collected is the
least set that contains the direct uses of the leaf and is closed under
premises.
-/

namespace Llxprt.Kernel.Ledger

open Llxprt.Rust

/-- A fact rests on a leaf that its entry names, or on one that a premise rests
on. -/
inductive RestsOn (ledger : Ledger) (leaf : String) : FactId → Prop
  | direct {entry : Entry} (member : entry ∈ values ledger.entries)
      (names : entry.source.leaf = leaf ∨ leaf ∈ entry.bindings) : RestsOn ledger leaf entry.id
  | derived {entry : Entry} {premise : FactId} (member : entry ∈ values ledger.entries)
      (uses : premise ∈ entry.premises) (rests : RestsOn ledger leaf premise) :
      RestsOn ledger leaf entry.id

/-- A pass over some of the entries. -/
def passOver (entries : List Entry) (dependent : BTreeSet FactId) : BTreeSet FactId :=
  entries.foldl (fun dependent entry =>
    if entry.premises.toList.any fun premise => dependent.contains premise then
      dependent.insert entry.id
    else
      dependent) dependent

variable {ledger : Ledger} {leaf : String} {entries : List Entry} {dependent : BTreeSet FactId}
  {fact : FactId}

theorem passOver_cons {entry : Entry} :
    passOver (entry :: entries) dependent =
      passOver entries
        (if entry.premises.toList.any fun premise => dependent.contains premise then
          dependent.insert entry.id
        else
          dependent) :=
  rfl

/-- A pass only adds. -/
theorem mem_passOver_of_mem (member : fact ∈ dependent) : fact ∈ passOver entries dependent := by
  induction entries generalizing dependent with
  | nil => exact member
  | cons entry entries ih =>
      rw [passOver_cons]
      apply ih
      split
      · exact Std.ExtTreeSet.mem_insert.mpr (.inr member)
      · exact member

/-- A pass adds every entry with a collected premise. -/
theorem id_mem_passOver {entry : Entry} {premise : FactId} (member : entry ∈ entries)
    (uses : premise ∈ entry.premises) (collected : premise ∈ dependent) :
    entry.id ∈ passOver entries dependent := by
  induction entries generalizing dependent with
  | nil => cases member
  | cons first entries ih =>
      rw [passOver_cons]
      rcases List.mem_cons.mp member with rfl | member
      · have found : (entry.premises.toList.any fun premise => dependent.contains premise) := by
          apply List.any_eq_true.mpr
          exact ⟨premise, Std.ExtTreeSet.mem_toList.mpr uses, collected⟩
        rw [if_pos found]
        exact mem_passOver_of_mem Std.ExtTreeSet.mem_insert_self
      · apply ih member
        split
        · exact Std.ExtTreeSet.mem_insert.mpr (.inr collected)
        · exact collected

/-- What holds of the collected facts and passes from premises to entries holds
after a pass. -/
theorem passOver_preserves {property : FactId → Prop}
    (closed : ∀ entry ∈ entries, ∀ premise ∈ entry.premises, property premise → property entry.id)
    (holds : ∀ fact ∈ dependent, property fact) :
    ∀ fact ∈ passOver entries dependent, property fact := by
  induction entries generalizing dependent with
  | nil => exact holds
  | cons entry entries ih =>
      rw [passOver_cons]
      rw [List.forall_mem_cons] at closed
      apply ih closed.2
      split
      · rename_i found
        rcases List.any_eq_true.mp found with ⟨premise, uses, collected⟩
        have rests := closed.1 premise (Std.ExtTreeSet.mem_toList.mp uses) (holds premise collected)
        intro fact member
        rcases Std.ExtTreeSet.mem_insert.mp member with same | member
        · rw [← Std.LawfulEqOrd.compare_eq_iff_eq.mp same]
          exact rests
        · exact holds fact member
      · exact holds

/-- The collected facts are closed under premises. -/
def Closed (ledger : Ledger) (dependent : BTreeSet FactId) : Prop :=
  ledger.dependentPass dependent = dependent

/-- Identities of the entries, in key order. -/
def ids (ledger : Ledger) : List FactId :=
  (values ledger.entries).map Entry.id

theorem dependentPass_ids (inside : ∀ fact ∈ dependent, fact ∈ ledger.ids) :
    ∀ fact ∈ ledger.dependentPass dependent, fact ∈ ledger.ids := by
  apply passOver_preserves
  · intro entry member _ _ _
    exact List.mem_map_of_mem member
  · exact inside

/-- With one pass more than facts still to be collected the loop ends in a
closed set. -/
theorem dependentLoop_closed {fuel : Nat} (inside : ∀ fact ∈ dependent, fact ∈ ledger.ids)
    (enough : ledger.ids.length < fuel + dependent.size) :
    ledger.Closed (ledger.dependentLoop fuel dependent) := by
  induction fuel generalizing dependent with
  | zero =>
      have bounded := size_le_length inside
      omega
  | succ fuel ih =>
      have grows : ∀ fact ∈ dependent, fact ∈ ledger.dependentPass dependent :=
        fun fact => mem_passOver_of_mem
      rw [dependentLoop]
      split
      · rename_i same
        have settled := eq_of_subset_of_size_eq grows same
        rw [settled]
        exact settled
      · rename_i larger
        apply ih (dependentPass_ids inside)
        have bounded : dependent.size ≤ (ledger.dependentPass dependent).size := by
          rw [← Std.ExtTreeSet.length_toList (t := ledger.dependentPass dependent)]
          apply size_le_length
          intro fact member
          exact Std.ExtTreeSet.mem_toList.mpr (grows fact member)
        omega

theorem dependentLoop_contains {fuel : Nat} (member : fact ∈ dependent) :
    fact ∈ ledger.dependentLoop fuel dependent := by
  induction fuel generalizing dependent with
  | zero => exact member
  | succ fuel ih =>
      have kept : fact ∈ ledger.dependentPass dependent := mem_passOver_of_mem member
      rw [dependentLoop]
      split
      · exact kept
      · exact ih kept

theorem dependentLoop_preserves {fuel : Nat} {property : FactId → Prop}
    (closed : ∀ entry ∈ values ledger.entries, ∀ premise ∈ entry.premises,
      property premise → property entry.id)
    (holds : ∀ fact ∈ dependent, property fact) :
    ∀ fact ∈ ledger.dependentLoop fuel dependent, property fact := by
  induction fuel generalizing dependent with
  | zero => exact holds
  | succ fuel ih =>
      have passed : ∀ fact ∈ ledger.dependentPass dependent, property fact :=
        passOver_preserves closed holds
      rw [dependentLoop]
      split
      · exact passed
      · exact ih passed

/-- The redaction loop collects exactly the facts that rest on the leaf. -/
theorem mem_dependents : fact ∈ ledger.dependents leaf ↔ ledger.RestsOn leaf fact := by
  have start : ∀ fact, fact ∈ Std.ExtTreeSet.ofList (((values ledger.entries).filter fun entry =>
      entry.source.leaf = leaf || entry.bindings.contains leaf).map Entry.id) compare ↔
      ∃ entry ∈ values ledger.entries, (entry.source.leaf = leaf ∨ leaf ∈ entry.bindings) ∧
        entry.id = fact := by
    intro fact
    simp [Std.ExtTreeSet.mem_ofList, and_assoc]
  have closed : ledger.Closed (ledger.dependents leaf) := by
    apply dependentLoop_closed
    · intro fact member
      rcases (start fact).mp member with ⟨entry, entryMember, _, rfl⟩
      exact List.mem_map_of_mem entryMember
    · simp only [ids, values, List.length_map, Std.ExtTreeMap.length_toList]
      omega
  constructor
  · apply dependentLoop_preserves
    · intro entry member premise uses rests
      exact .derived member uses rests
    · intro fact member
      rcases (start fact).mp member with ⟨entry, entryMember, names, rfl⟩
      exact .direct entryMember names
  · intro rests
    induction rests with
    | direct member names =>
        apply dependentLoop_contains
        exact (start _).mpr ⟨_, member, names, rfl⟩
    | derived member uses _ collected =>
        rw [← closed]
        exact id_mem_passOver member uses collected

/-- A redaction puts the tombstone on the entries that rest on the leaf and
leaves every other entry as it was. -/
theorem redact_entries (key : FactId) :
    (∀ entry, ledger.entries[key]? = some entry → ledger.RestsOn leaf entry.id →
      (ledger.redact leaf).entries[key]? = some { entry with
        evidence := .unverified
        freshness := .unknown
        fold := { entry.fold with text := erasedTombstone } }) ∧
    (∀ entry, ledger.entries[key]? = some entry → ¬ ledger.RestsOn leaf entry.id →
      (ledger.redact leaf).entries[key]? = some entry) := by
  constructor
  · intro entry found rests
    have collected : (ledger.dependents leaf).contains entry.id := mem_dependents.mpr rests
    rw [redact, modifyAll_entries, found, Option.map_some, if_pos collected]
  · intro entry found free
    have missing : ¬ (ledger.dependents leaf).contains entry.id :=
      fun collected => free (mem_dependents.mp collected)
    rw [redact, modifyAll_entries, found, Option.map_some, if_neg missing]

end Llxprt.Kernel.Ledger

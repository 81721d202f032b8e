import Llxprt.Kernel.Canonical
import Llxprt.Rust.Collections
import Llxprt.Rust.Text

/-!
# The encrypted vault

Sealed slots under minted handles.  A handle ends with the number of its slot,
and the counter stays above every number in use, so a restored vault never mints
a handle again.  The cipher is a parameter.
-/

namespace Llxprt.Store

open Llxprt.Kernel Llxprt.Rust

/-- An authenticated cipher with associated data. -/
structure Cipher where
  encrypt (key nonce associated message : Bytes) : Option Bytes
  decrypt (key nonce associated ciphertext : Bytes) : Option Bytes

/-- Decryption undoes encryption. -/
def Cipher.Lawful (cipher : Cipher) : Prop :=
  ∀ key nonce associated message ciphertext,
    cipher.encrypt key nonce associated message = some ciphertext →
    cipher.decrypt key nonce associated ciphertext = some message

inductive VaultError where
  | unavailable
  | unknownHandle
  | erased
  | openFailure
  | nonceLength
  deriving DecidableEq

inductive Slot where
  | live (nonce ciphertext : Bytes)
  | tombstone
  deriving DecidableEq

structure Vault where
  key : Bytes
  slots : BTreeMap String Slot
  next : Nat
  noncePrefix : UInt32

structure VaultSlotSnapshot where
  handle : String
  nonce : String
  ciphertext : String
  erased : Bool

structure VaultSnapshot where
  noncePrefix : UInt32
  next : Nat
  slots : List VaultSlotSnapshot

/-- The text behind the last hyphen. -/
def behindLastHyphen (text : List Char) : Option (List Char) :=
  if '-' ∈ text then
    some (text.reverse.takeWhile (· ≠ '-')).reverse
  else
    none

/-- How every minted handle begins. -/
def handlePrefix : List Char :=
  "vault-".toList

/-- The slot number at the end of a minted handle. -/
def embeddedSlotNumber (handle : String) : Option Nat :=
  if handlePrefix.isPrefixOf handle.toList then
    match behindLastHyphen (handle.toList.drop handlePrefix.length) with
    | some slot => Text.parseU64 slot
    | none => none
  else
    none

def mintedHandle (reason : String) (slot : Nat) : String :=
  String.ofList (handlePrefix ++ (reason.toList ++ '-' :: Nat.toDigits 10 slot))

/-- The length of a nonce. -/
def nonceLen : Nat := 12

namespace Vault

variable (cipher : Cipher)

def openWithPrefix (key : Bytes) (noncePrefix : UInt32) : Vault :=
  ⟨key, ∅, 0, noncePrefix⟩

/-- The nonce of the next seal: the prefix of the process and the slot number. -/
def nextNonce (vault : Vault) : Bytes :=
  leBytes32 vault.noncePrefix ++ leBytes (UInt64.ofNat vault.next)

def spend (vault : Vault) : Vault :=
  { vault with next := (vault.next + 1) % 2 ^ 64 }

/-- The counter is spent before the cipher runs, so a failed seal leaves a gap. -/
def put (vault : Vault) (raw : Bytes) (reason : String) : Except VaultError String × Vault :=
  match cipher.encrypt vault.key vault.nextNonce (utf8 (mintedHandle reason vault.next)) raw with
  | none => (.error .unavailable, vault.spend)
  | some ciphertext =>
      (.ok (mintedHandle reason vault.next),
        { vault.spend with
          slots := vault.slots.insert (mintedHandle reason vault.next)
            (.live vault.nextNonce ciphertext) })

def get (vault : Vault) (handle : String) : Except VaultError Bytes :=
  match vault.slots[handle]? with
  | none => .error .unknownHandle
  | some .tombstone => .error .unknownHandle
  | some (.live nonce ciphertext) =>
      match cipher.decrypt vault.key nonce (utf8 handle) ciphertext with
      | some message => .ok message
      | none => .error .openFailure

def erase (vault : Vault) (handle : String) : Except VaultError Vault :=
  match vault.slots[handle]? with
  | none => .error .unknownHandle
  | some _ => .ok { vault with slots := vault.slots.insert handle .tombstone }

def slotSnapshot : String × Slot → VaultSlotSnapshot
  | (handle, .live nonce ciphertext) =>
      ⟨handle, String.ofList (Text.hex nonce), String.ofList (Text.hex ciphertext), false⟩
  | (handle, .tombstone) => ⟨handle, "", "", true⟩

/-- Slots are listed in the order of their handles. -/
def snapshot (vault : Vault) : VaultSnapshot :=
  ⟨vault.noncePrefix, vault.next, vault.slots.toList.map slotSnapshot⟩

def restoreSlot (slot : VaultSlotSnapshot) : Except VaultError Slot :=
  if slot.erased then
    .ok .tombstone
  else
    match Text.unhex slot.nonce.toList with
    | none => .error .unavailable
    | some nonce =>
        if nonce.length ≠ nonceLen then
          .error .nonceLength
        else
          match Text.unhex slot.ciphertext.toList with
          | none => .error .unavailable
          | some ciphertext => .ok (.live nonce ciphertext)

/-- The restoring loop: the slots read so far and one past their highest
number. -/
def restoreSlots (next : Nat) : List VaultSlotSnapshot → BTreeMap String Slot → Nat →
    Except VaultError (BTreeMap String Slot × Nat)
  | [], slots, floor => .ok (slots, floor)
  | slot :: rest, slots, floor =>
      if slots.contains slot.handle then
        .error .unavailable
      else
        match restoreSlot slot with
        | .error error => .error error
        | .ok restored =>
            match embeddedSlotNumber slot.handle with
            | some number =>
                if next ≤ number then
                  .error .unavailable
                else
                  restoreSlots next rest (slots.insert slot.handle restored)
                    (max floor (saturatingAdd number 1))
            | none =>
                if slot.erased then
                  restoreSlots next rest (slots.insert slot.handle restored) floor
                else
                  .error .unavailable

/-- The recorded prefix belongs to the previous process; `fresh` is drawn for
this one. -/
def restore (vault : Vault) (snapshot : VaultSnapshot) (fresh : UInt32) : Except VaultError Vault :=
  match restoreSlots snapshot.next snapshot.slots ∅ 0 with
  | .error error => .error error
  | .ok (slots, floor) =>
      .ok { vault with slots := slots, next := max snapshot.next floor, noncePrefix := fresh }

/-- A slot that a restore accepts under the given counter. -/
structure Kept (next : Nat) (handle : String) (slot : Slot) : Prop where
  numbered : ∀ nonce ciphertext, slot = .live nonce ciphertext →
    nonce.length = nonceLen ∧ ∃ number, embeddedSlotNumber handle = some number
  below : ∀ number, embeddedSlotNumber handle = some number → number < next

/-- Every slot of the vault was minted before the counter. -/
def Minted (vault : Vault) : Prop :=
  ∀ handle slot, vault.slots[handle]? = some slot → Kept vault.next handle slot

section Handles

theorem behindLastHyphen_append {before digits : List Char} (plain : '-' ∉ digits) :
    behindLastHyphen (before ++ '-' :: digits) = some digits := by
  have member : '-' ∈ before ++ '-' :: digits :=
    List.mem_append_right _ List.mem_cons_self
  have reversed : (before ++ '-' :: digits).reverse = digits.reverse ++ '-' :: before.reverse := by
    simp
  have taken : (digits.reverse ++ '-' :: before.reverse).takeWhile (· ≠ '-') = digits.reverse := by
    rw [List.takeWhile_append_of_pos]
    · simp
    · intro char inside
      have distinct : char ≠ '-' := by
        rintro rfl
        exact plain (List.mem_reverse.mp inside)
      simpa using distinct
  rw [behindLastHyphen, if_pos member, reversed, taken, List.reverse_reverse]

theorem hyphen_notMem_toDigits (slot : Nat) : '-' ∉ Nat.toDigits 10 slot := by
  intro member
  exact absurd (Text.isDigit_of_mem_toDigits member) (by decide)

/-- A minted handle carries its slot number. -/
theorem embeddedSlotNumber_mintedHandle {reason : String} {slot : Nat} (fits : slot ≤ u64Max) :
    embeddedSlotNumber (mintedHandle reason slot) = some slot := by
  have plain := hyphen_notMem_toDigits slot
  have spelled : (mintedHandle reason slot).toList =
      handlePrefix ++ (reason.toList ++ '-' :: Nat.toDigits 10 slot) :=
    String.toList_ofList
  have begins : handlePrefix.isPrefixOf (mintedHandle reason slot).toList = true := by
    rw [spelled, List.isPrefixOf_iff_prefix]
    exact List.prefix_append _ _
  rw [embeddedSlotNumber, if_pos begins, spelled, List.drop_left, behindLastHyphen_append plain]
  exact Text.parseU64_toDigits fits

/-- Handles of different reasons differ. -/
theorem reason_of_mintedHandle {reason other : String} {slot number : Nat}
    (same : mintedHandle reason slot = mintedHandle other number) : reason = other := by
  have spelled := List.append_cancel_left (String.ofList_injective same)
  have numbers := @behindLastHyphen_append reason.toList _ (hyphen_notMem_toDigits slot)
  rw [spelled, behindLastHyphen_append (hyphen_notMem_toDigits number)] at numbers
  rw [Option.some.inj numbers] at spelled
  exact String.toList_inj.mp (List.append_cancel_right spelled)

end Handles

section Sealing

variable {cipher : Cipher} {vault sealed : Vault} {raw found : Bytes} {reason handle other : String}

theorem minted_openWithPrefix (key : Bytes) (noncePrefix : UInt32) :
    (openWithPrefix key noncePrefix).Minted := by
  intro handle slot found
  simp [openWithPrefix] at found

theorem Kept.mono {next later : Nat} {slot : Slot} (kept : Kept next handle slot)
    (le : next ≤ later) : Kept later handle slot :=
  ⟨kept.numbered, fun number embedded => Nat.lt_of_lt_of_le (kept.below number embedded) le⟩

/-- A seal fails and leaves a gap, or adds the slot of its own handle. -/
theorem put_cases (cipher : Cipher) (vault : Vault) (raw : Bytes) (reason : String) :
    vault.put cipher raw reason = (.error .unavailable, vault.spend) ∨
    ∃ ciphertext, cipher.encrypt vault.key vault.nextNonce
        (utf8 (mintedHandle reason vault.next)) raw = some ciphertext ∧
      vault.put cipher raw reason = (.ok (mintedHandle reason vault.next),
        { vault.spend with
          slots := vault.slots.insert (mintedHandle reason vault.next)
            (.live vault.nextNonce ciphertext) }) := by
  unfold put
  cases encrypted : cipher.encrypt vault.key vault.nextNonce
      (utf8 (mintedHandle reason vault.next)) raw with
  | none => exact .inl rfl
  | some ciphertext => exact .inr ⟨ciphertext, rfl, rfl⟩

@[simp]
theorem put_key : (vault.put cipher raw reason).2.key = vault.key := by
  rcases put_cases cipher vault raw reason with failed | ⟨ciphertext, _, added⟩
  · rw [failed, spend]
  · rw [added, spend]

theorem spend_next (free : vault.next < u64Max) : vault.spend.next = vault.next + 1 := by
  unfold u64Max at free
  unfold spend
  apply Nat.mod_eq_of_lt
  omega

theorem kept_minted {ciphertext : Bytes} (free : vault.next < u64Max) :
    Kept (vault.next + 1) (mintedHandle reason vault.next) (.live vault.nextNonce ciphertext) := by
  have embedded : embeddedSlotNumber (mintedHandle reason vault.next) = some vault.next :=
    embeddedSlotNumber_mintedHandle (Nat.le_of_lt free)
  constructor
  · rintro nonce _ ⟨⟩
    exact ⟨rfl, vault.next, embedded⟩
  · intro number found
    cases embedded.symm.trans found
    exact Nat.lt_succ_self _

theorem Minted.put (minted : vault.Minted) (free : vault.next < u64Max) :
    (vault.put cipher raw reason).2.Minted := by
  have older : ∀ handle slot, vault.slots[handle]? = some slot →
      Kept (vault.next + 1) handle slot :=
    fun handle slot found => (minted handle slot found).mono (Nat.le_succ _)
  intro handle slot found
  rcases put_cases cipher vault raw reason with failed | ⟨ciphertext, _, added⟩
  · rw [failed] at found ⊢
    rw [spend_next free]
    exact older handle slot found
  · rw [added] at found ⊢
    rw [Std.ExtTreeMap.getElem?_insert] at found
    have counted : vault.spend.next = vault.next + 1 := spend_next free
    simp only [counted]
    split at found
    · rename_i own
      cases found
      rw [← Std.LawfulEqOrd.compare_eq_iff_eq.mp own]
      exact kept_minted free
    · exact older handle slot found

/-- What was sealed is read back. -/
theorem get_put (lawful : cipher.Lawful) (sealed : (vault.put cipher raw reason).1 = .ok handle) :
    (vault.put cipher raw reason).2.get cipher handle = .ok raw := by
  rcases put_cases cipher vault raw reason with failed | ⟨ciphertext, encrypted, added⟩
  · rw [failed] at sealed
    cases sealed
  · rw [added] at sealed ⊢
    cases sealed
    simp [get, spend, lawful _ _ _ _ _ encrypted]

theorem handle_of_put (sealed : (vault.put cipher raw reason).1 = .ok handle) :
    handle = mintedHandle reason vault.next := by
  rcases put_cases cipher vault raw reason with failed | ⟨ciphertext, _, added⟩
  · rw [failed] at sealed
    cases sealed
  · rw [added] at sealed
    cases sealed
    rfl

/-- The next handle is none of the handles that can be read. -/
theorem mintedHandle_ne_of_get (minted : vault.Minted) (free : vault.next < u64Max)
    (readable : vault.get cipher other = .ok found) : mintedHandle reason vault.next ≠ other := by
  rintro rfl
  unfold get at readable
  split at readable
  · cases readable
  · cases readable
  · rename_i nonce ciphertext bound
    have below := (minted _ _ bound).below _
      (embeddedSlotNumber_mintedHandle (Nat.le_of_lt free))
    exact absurd below (Nat.lt_irrefl _)

/-- Handles that can be read are unchanged by a seal. -/
theorem get_put_other (minted : vault.Minted) (free : vault.next < u64Max)
    (readable : vault.get cipher other = .ok found) :
    (vault.put cipher raw reason).2.get cipher other = .ok found := by
  have distinct : mintedHandle reason vault.next ≠ other :=
    mintedHandle_ne_of_get minted free readable
  have same : (vault.put cipher raw reason).2.slots[other]? = vault.slots[other]? := by
    rcases put_cases cipher vault raw reason with failed | ⟨ciphertext, _, added⟩
    · rw [failed, spend]
    · rw [added, Std.ExtTreeMap.getElem?_insert, if_neg]
      exact fun equal => distinct (Std.LawfulEqOrd.compare_eq_iff_eq.mp equal)
  unfold get at readable ⊢
  rw [same, put_key]
  exact readable

theorem Minted.erase {erased : Vault} (minted : vault.Minted)
    (success : vault.erase handle = .ok erased) : erased.Minted := by
  unfold Vault.erase at success
  split at success
  · cases success
  · rename_i slot bound
    cases success
    intro other slot found
    rw [Std.ExtTreeMap.getElem?_insert] at found
    split at found
    · rename_i own
      cases found
      rw [← Std.LawfulEqOrd.compare_eq_iff_eq.mp own]
      constructor
      · rintro nonce ciphertext ⟨⟩
      · exact (minted handle _ bound).below
    · exact minted other slot found

theorem erase_key {erased : Vault} (success : vault.erase handle = .ok erased) :
    erased.key = vault.key := by
  unfold erase at success
  split at success
  · cases success
  · cases success
    rfl

/-- Erasing one handle leaves the others readable. -/
theorem get_erase_other {erased : Vault} (success : vault.erase handle = .ok erased)
    (distinct : handle ≠ other) : erased.get cipher other = vault.get cipher other := by
  unfold erase at success
  split at success
  · cases success
  · cases success
    simp [get, Std.ExtTreeMap.getElem?_insert, distinct]

end Sealing

section Restoring

variable {vault restored : Vault} {snapshot : VaultSnapshot} {fresh : UInt32} {next floor : Nat}
  {slots result : BTreeMap String Slot} {handle : String} {slot : Slot}

theorem restoreSlot_snapshot (kept : Kept next handle slot) :
    restoreSlot (slotSnapshot (handle, slot)) = .ok slot := by
  cases slot with
  | tombstone => rfl
  | live nonce ciphertext =>
      have length := (kept.numbered nonce ciphertext rfl).1
      simp [restoreSlot, slotSnapshot, Text.unhex_hex, length]

/-- Slots listed under distinct handles are restored one by one. -/
theorem restoreSlots_snapshot {entries : List (String × Slot)}
    (kept : ∀ entry ∈ entries, Kept next entry.1 entry.2)
    (distinct : entries.Pairwise fun left right => left.1 ≠ right.1)
    (absent : ∀ entry ∈ entries, entry.1 ∉ slots) (low : floor ≤ next) :
    ∃ last, restoreSlots next (entries.map slotSnapshot) slots floor =
      .ok (entries.foldl (fun slots entry => slots.insert entry.1 entry.2) slots, last) ∧
      last ≤ next := by
  induction entries generalizing slots floor with
  | nil => exact ⟨floor, rfl, low⟩
  | cons entry entries ih =>
      rcases entry with ⟨handle, slot⟩
      have own := kept (handle, slot) List.mem_cons_self
      have unseen : handle ∉ slots := absent (handle, slot) List.mem_cons_self
      have named : (slotSnapshot (handle, slot)).handle = handle := by
        cases slot <;> rfl
      have fresh : ¬ slots.contains handle = true := by
        rw [← Std.ExtTreeMap.mem_iff_contains]
        exact unseen
      rw [List.pairwise_cons] at distinct
      have later : ∀ entry ∈ entries, entry.1 ∉ slots.insert handle slot := by
        intro entry member bound
        rcases Std.ExtTreeMap.mem_insert.mp bound with own | old
        · exact distinct.1 entry member (Std.LawfulEqOrd.compare_eq_iff_eq.mp own)
        · exact absent entry (List.mem_cons_of_mem _ member) old
      have keptLater : ∀ entry ∈ entries, Kept next entry.1 entry.2 :=
        fun entry member => kept entry (List.mem_cons_of_mem _ member)
      rw [List.map_cons, restoreSlots, named, if_neg fresh, restoreSlot_snapshot own,
        List.foldl_cons]
      cases embedded : embeddedSlotNumber handle with
      | some number =>
          have below := own.below number embedded
          have step : max floor (saturatingAdd number 1) ≤ next := by
            apply max_le low
            unfold saturatingAdd
            exact Nat.le_trans (Nat.min_le_left _ _) below
          simp only [if_neg (Nat.not_le_of_lt below)]
          exact ih keptLater distinct.2 later step
      | none =>
          have erased : (slotSnapshot (handle, slot)).erased = true := by
            cases slot with
            | tombstone => rfl
            | live nonce ciphertext =>
                rcases (own.numbered nonce ciphertext rfl).2 with ⟨number, found⟩
                cases embedded.symm.trans found
          simp only [erased, if_true]
          exact ih keptLater distinct.2 later low

/-- Inserting the bindings of a map one by one gives the map. -/
theorem foldl_insert_toList (slots : BTreeMap String Slot) :
    slots.toList.foldl (fun slots entry => slots.insert entry.1 entry.2) ∅ = slots := by
  have collected : slots.toList.foldl (fun slots entry => slots.insert entry.1 entry.2)
      (∅ : BTreeMap String Slot) = Std.ExtTreeMap.ofList slots.toList compare := by
    rw [Std.ExtTreeMap.ofList_eq_insertMany_empty, Std.ExtTreeMap.insertMany_list_eq_foldl]
  rw [collected]
  apply Std.ExtTreeMap.ext_getElem?
  intro handle
  cases bound : slots[handle]? with
  | some slot =>
      have member := Std.ExtTreeMap.mem_toList_iff_getElem?_eq_some.mpr bound
      exact Std.ExtTreeMap.getElem?_ofList_of_mem Std.ReflCmp.compare_self
        slots.distinct_keys_toList member
  | none =>
      apply Std.ExtTreeMap.getElem?_ofList_of_contains_eq_false
      simpa using bound

/-- A vault is restored from its snapshot, under a fresh nonce prefix. -/
theorem restore_snapshot (minted : vault.Minted) (opened : Vault) :
    opened.restore vault.snapshot fresh =
      .ok { opened with slots := vault.slots, next := vault.next, noncePrefix := fresh } := by
  have kept : ∀ entry ∈ vault.slots.toList, Kept vault.next entry.1 entry.2 := by
    rintro ⟨handle, slot⟩ member
    exact minted handle slot (Std.ExtTreeMap.mem_toList_iff_getElem?_eq_some.mp member)
  have distinct : vault.slots.toList.Pairwise fun left right => left.1 ≠ right.1 := by
    apply vault.slots.distinct_keys_toList.imp
    intro left right differ same
    exact differ (Std.LawfulEqOrd.compare_eq_iff_eq.mpr same)
  have absent : ∀ entry ∈ vault.slots.toList, entry.1 ∉ (∅ : BTreeMap String Slot) :=
    fun _ _ => Std.ExtTreeMap.not_mem_empty
  rcases restoreSlots_snapshot kept distinct absent (Nat.zero_le _) with ⟨last, loaded, low⟩
  rw [foldl_insert_toList] at loaded
  simp only [restore, snapshot, loaded, Nat.max_eq_left low]

theorem restoreSlot_live {listing : VaultSlotSnapshot} {nonce ciphertext : Bytes}
    (shaped : restoreSlot listing = .ok (.live nonce ciphertext)) :
    nonce.length = nonceLen ∧ listing.erased = false := by
  unfold restoreSlot at shaped
  split at shaped
  · cases shaped
  · rename_i live
    split at shaped
    · cases shaped
    · split at shaped
      · cases shaped
      · rename_i length
        split at shaped
        · cases shaped
        · cases shaped
          exact ⟨Decidable.not_not.mp length, Bool.eq_false_of_not_eq_true live⟩

/-- The loop accepts only slots that are numbered below the counter. -/
theorem restoreSlots_minted {listed : List VaultSlotSnapshot} {last : Nat}
    (accepted : restoreSlots next listed slots floor = .ok (result, last))
    (minted : ∀ handle slot, slots[handle]? = some slot → Kept next handle slot) :
    ∀ handle slot, result[handle]? = some slot → Kept next handle slot := by
  induction listed generalizing slots floor with
  | nil =>
      cases accepted
      exact minted
  | cons listing listed ih =>
      have extend : ∀ restored, Kept next listing.handle restored →
          ∀ handle slot, (slots.insert listing.handle restored)[handle]? = some slot →
            Kept next handle slot := by
        intro restored kept handle slot found
        rw [Std.ExtTreeMap.getElem?_insert] at found
        split at found
        · rename_i own
          cases found
          rw [← Std.LawfulEqOrd.compare_eq_iff_eq.mp own]
          exact kept
        · exact minted handle slot found
      rw [restoreSlots] at accepted
      split at accepted
      · cases accepted
      · split at accepted
        · cases accepted
        · rename_i restored shaped
          split at accepted
          · rename_i number embedded
            split at accepted
            · cases accepted
            · rename_i below
              apply ih accepted
              apply extend
              constructor
              · rintro nonce ciphertext rfl
                exact ⟨(restoreSlot_live shaped).1, number, embedded⟩
              · intro other found
                cases embedded.symm.trans found
                exact Nat.lt_of_not_le below
          · rename_i foreign
            split at accepted
            · rename_i erased
              apply ih accepted
              apply extend
              constructor
              · rintro nonce ciphertext rfl
                exact absurd erased (by simp [(restoreSlot_live shaped).2])
              · intro number found
                cases foreign.symm.trans found
            · cases accepted

theorem minted_of_restore (accepted : vault.restore snapshot fresh = .ok restored) :
    restored.Minted := by
  unfold restore at accepted
  split at accepted
  · cases accepted
  · rename_i slots floor loaded
    cases accepted
    have below := restoreSlots_minted loaded
      (by
        intro handle slot found
        simp at found)
    intro handle slot found
    exact (below handle slot found).mono (Nat.le_max_left _ _)

theorem restore_key (accepted : vault.restore snapshot fresh = .ok restored) :
    restored.key = vault.key := by
  unfold restore at accepted
  split at accepted
  · cases accepted
  · cases accepted
    rfl

end Restoring

end Vault
end Llxprt.Store

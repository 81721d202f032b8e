import Llxprt.Store.Vault
import Mathlib.Data.List.Induction

/-!
# Runs of the vault

Seals, erasures and restarts in any order.  The counter only grows, also through
a restart, so every seal has a handle and a nonce of its own.
-/

namespace Llxprt.Store

open Llxprt.Kernel Llxprt.Rust

/-- A restart opens a vault under the same key and restores the snapshot that the
old one took; both nonce prefixes are drawn by the new process. -/
inductive VaultCall where
  | put (raw : Bytes) (reason : String)
  | erase (handle : String)
  | restart (opening fresh : UInt32)

/-- One seal, with the handle and the nonce it was made under and its answer. -/
structure Seal where
  handle : String
  noncePrefix : UInt32
  slot : Nat
  raw : Bytes
  answer : Except VaultError String

/-- The vault with the seals made so far and the handles erased so far. -/
structure VaultRun where
  vault : Vault
  seals : List Seal
  erased : List String

namespace VaultRun

variable (cipher : Cipher)

def start (key : Bytes) (noncePrefix : UInt32) : VaultRun :=
  ⟨.openWithPrefix key noncePrefix, [], []⟩

def perform (run : VaultRun) : VaultCall → VaultRun
  | .put raw reason =>
      let (answer, vault) := run.vault.put cipher raw reason
      let handle := mintedHandle reason run.vault.next
      { run with
        vault := vault
        seals := run.seals ++ [⟨handle, run.vault.noncePrefix, run.vault.next, raw, answer⟩] }
  | .erase handle =>
      match run.vault.erase handle with
      | .error _ => run
      | .ok vault => { run with vault := vault, erased := handle :: run.erased }
  | .restart opening fresh =>
      match (Vault.openWithPrefix run.vault.key opening).restore run.vault.snapshot fresh with
      | .error _ => run
      | .ok vault => { run with vault := vault }

def after (key : Bytes) (noncePrefix : UInt32) (calls : List VaultCall) : VaultRun :=
  calls.foldl (perform cipher) (start key noncePrefix)

/-- What the vault holds for a seal that was answered with a handle: the erasure
of the handle, or the ciphertext of the sealed bytes. -/
def Answered (run : VaultRun) (key : Bytes) (entry : Seal) : Prop :=
  ∀ handle, entry.answer = .ok handle → handle = entry.handle ∧
    (handle ∈ run.erased ∨ ∃ nonce ciphertext,
      run.vault.slots[handle]? = some (.live nonce ciphertext) ∧
      cipher.encrypt key nonce (utf8 handle) entry.raw = some ciphertext)

/-- The counter is above every slot, the slots of the seals differ, and every
seal is erased or still in the vault. -/
structure Safe (key : Bytes) (run : VaultRun) : Prop where
  minted : run.vault.Minted
  keyed : run.vault.key = key
  ended : ∀ entry ∈ run.seals, entry.slot < run.vault.next
  slots : run.seals.Pairwise fun left right => left.slot < right.slot
  handles : ∀ entry ∈ run.seals, embeddedSlotNumber entry.handle = some entry.slot
  answered : ∀ entry ∈ run.seals, run.Answered cipher key entry
  erased : ∀ handle ∈ run.erased, run.vault.slots[handle]? = some .tombstone

variable {cipher} {key : Bytes} {run : VaultRun}

theorem safe_start (key : Bytes) (noncePrefix : UInt32) :
    (start key noncePrefix).Safe cipher key where
  minted := Vault.minted_openWithPrefix key noncePrefix
  keyed := rfl
  ended := by
    intro entry member
    cases member
  slots := .nil
  handles := by
    intro entry member
    cases member
  answered := by
    intro entry member
    cases member
  erased := by
    intro handle member
    cases member

/-- The next handle is in no slot. -/
theorem Safe.unused {reason : String} (safe : run.Safe cipher key)
    (free : run.vault.next < u64Max) :
    run.vault.slots[mintedHandle reason run.vault.next]? = none := by
  cases bound : run.vault.slots[mintedHandle reason run.vault.next]? with
  | none => rfl
  | some slot =>
      have below := (safe.minted _ _ bound).below _
        (Vault.embeddedSlotNumber_mintedHandle (Nat.le_of_lt free))
      exact absurd below (Nat.lt_irrefl _)

/-- The slots that the old seals stand on survive the insertion of a fresh
handle. -/
theorem getElem?_insert_unused {slots : BTreeMap String Slot} {fresh handle : String}
    {slot held : Slot} (unused : slots[fresh]? = none) (bound : slots[handle]? = some held) :
    (slots.insert fresh slot)[handle]? = some held := by
  rw [Std.ExtTreeMap.getElem?_insert, if_neg]
  · exact bound
  · intro same
    rw [Std.LawfulEqOrd.compare_eq_iff_eq.mp same, bound] at unused
    cases unused

theorem Safe.put {raw : Bytes} {reason : String} (safe : run.Safe cipher key)
    (free : run.vault.next < u64Max) : (run.perform cipher (.put raw reason)).Safe cipher key := by
  let handle := mintedHandle reason run.vault.next
  have unused : run.vault.slots[handle]? = none := safe.unused free
  have embedded : embeddedSlotNumber handle = some run.vault.next :=
    Vault.embeddedSlotNumber_mintedHandle (Nat.le_of_lt free)
  have counted : (run.vault.put cipher raw reason).2.next = run.vault.next + 1 := by
    rcases Vault.put_cases cipher run.vault raw reason with failed | ⟨ciphertext, _, added⟩
    · rw [failed]
      exact Vault.spend_next free
    · rw [added]
      exact Vault.spend_next free
  have kept : ∀ (other : String) (held : Slot), run.vault.slots[other]? = some held →
      (run.vault.put cipher raw reason).2.slots[other]? = some held := by
    intro other held bound
    rcases Vault.put_cases cipher run.vault raw reason with failed | ⟨ciphertext, _, added⟩
    · rw [failed]
      exact bound
    · rw [added]
      exact getElem?_insert_unused unused bound
  constructor
  · exact safe.minted.put free
  · exact Vault.put_key.trans safe.keyed
  · intro entry member
    change entry.slot < (run.vault.put cipher raw reason).2.next
    rw [counted]
    rcases List.mem_append.mp member with old | fresh
    · exact Nat.lt_succ_of_lt (safe.ended entry old)
    · rw [List.mem_singleton.mp fresh]
      exact Nat.lt_succ_self _
  · apply List.pairwise_append.mpr
    refine ⟨safe.slots, List.pairwise_singleton _ _, ?_⟩
    intro left member right fresh
    rw [List.mem_singleton.mp fresh]
    exact safe.ended left member
  · exact List.forall_mem_append.mpr ⟨safe.handles, List.forall_mem_singleton.mpr embedded⟩
  · intro entry member answer answered
    rcases List.mem_append.mp member with old | fresh
    · rcases safe.answered entry old answer answered with
        ⟨own, gone | ⟨nonce, ciphertext, bound, sealed⟩⟩
      · exact ⟨own, .inl gone⟩
      · exact ⟨own, .inr ⟨nonce, ciphertext, kept answer _ bound, sealed⟩⟩
    · rw [List.mem_singleton.mp fresh] at answered ⊢
      change (run.vault.put cipher raw reason).1 = .ok answer at answered
      have minted : answer = handle := Vault.handle_of_put answered
      refine ⟨minted, .inr ?_⟩
      rcases Vault.put_cases cipher run.vault raw reason with failed | ⟨ciphertext, sealed, added⟩
      · rw [failed] at answered
        cases answered
      · refine ⟨run.vault.nextNonce, ciphertext, ?_, ?_⟩
        · change (run.vault.put cipher raw reason).2.slots[answer]? = _
          rw [added, minted]
          exact Std.ExtTreeMap.getElem?_insert_self
        · rw [minted, ← safe.keyed]
          exact sealed
  · intro gone member
    exact kept gone _ (safe.erased gone member)

theorem Safe.erase {handle : String} (safe : run.Safe cipher key) :
    (run.perform cipher (.erase handle)).Safe cipher key := by
  rw [VaultRun.perform]
  split
  · exact safe
  · rename_i vault success
    have slots : vault.slots = run.vault.slots.insert handle .tombstone ∧
        vault.next = run.vault.next := by
      unfold Vault.erase at success
      split at success
      · cases success
      · cases success
        exact ⟨rfl, rfl⟩
    constructor
    · exact safe.minted.erase success
    · exact (Vault.erase_key success).trans safe.keyed
    · intro entry member
      rw [slots.2]
      exact safe.ended entry member
    · exact safe.slots
    · exact safe.handles
    · intro entry member answer answered
      rcases safe.answered entry member answer answered with ⟨own, held⟩
      refine ⟨own, ?_⟩
      by_cases erased : handle = answer
      · rw [erased]
        exact .inl List.mem_cons_self
      · rcases held with gone | ⟨nonce, ciphertext, bound, sealed⟩
        · exact .inl (List.mem_cons_of_mem _ gone)
        · refine .inr ⟨nonce, ciphertext, ?_, sealed⟩
          rw [slots.1, Std.ExtTreeMap.getElem?_insert, if_neg]
          · exact bound
          · exact fun same => erased (Std.LawfulEqOrd.compare_eq_iff_eq.mp same)
    · intro gone member
      rw [slots.1, Std.ExtTreeMap.getElem?_insert]
      split
      · rfl
      · rename_i other
        rcases List.mem_cons.mp member with rfl | member
        · exact absurd Std.ReflCmp.compare_self other
        · exact safe.erased gone member

/-- A restart keeps the slots and the counter and changes the prefix alone. -/
theorem Safe.restart {opening fresh : UInt32} (safe : run.Safe cipher key) :
    (run.perform cipher (.restart opening fresh)).Safe cipher key := by
  have restored := @Vault.restore_snapshot run.vault fresh safe.minted
    (.openWithPrefix run.vault.key opening)
  rw [VaultRun.perform, restored]
  exact ⟨safe.minted, safe.keyed, safe.ended, safe.slots, safe.handles, safe.answered, safe.erased⟩

theorem Safe.perform {call : VaultCall} (safe : run.Safe cipher key)
    (free : run.vault.next < u64Max) : (run.perform cipher call).Safe cipher key := by
  cases call with
  | put raw reason => exact safe.put free
  | erase handle => exact safe.erase
  | restart opening fresh => exact safe.restart

/-- The counter stays below its greatest value in every state of the run. -/
def Counted (cipher : Cipher) (key : Bytes) (noncePrefix : UInt32) (calls : List VaultCall) :
    Prop :=
  ∀ earlier, earlier <+: calls → (after cipher key noncePrefix earlier).vault.next < u64Max

theorem safe_after {noncePrefix : UInt32} {calls : List VaultCall}
    (counted : Counted cipher key noncePrefix calls) :
    (after cipher key noncePrefix calls).Safe cipher key := by
  induction calls using List.reverseRecOn with
  | nil => exact safe_start key noncePrefix
  | append_singleton calls call ih =>
      have earlier : Counted cipher key noncePrefix calls :=
        fun first isPrefix => counted first (isPrefix.trans (List.prefix_append _ _))
      have free := counted calls (List.prefix_append _ _)
      unfold after at free ⊢
      rw [List.foldl_append, List.foldl_cons, List.foldl_nil]
      exact (ih earlier).perform free

theorem Safe.next_perform {call : VaultCall} (safe : run.Safe cipher key)
    (free : run.vault.next < u64Max) :
    (run.perform cipher call).vault.next ≤ run.vault.next + 1 := by
  cases call with
  | put raw reason =>
      change (run.vault.put cipher raw reason).2.next ≤ _
      rcases Vault.put_cases cipher run.vault raw reason with failed | ⟨ciphertext, _, added⟩
      · rw [failed, Vault.spend_next free]
      · rw [added]
        exact Nat.le_of_eq (Vault.spend_next free)
  | erase handle =>
      rw [VaultRun.perform]
      split
      · exact Nat.le_succ _
      · rename_i vault success
        unfold Vault.erase at success
        split at success
        · cases success
        · cases success
          exact Nat.le_succ _
  | restart opening fresh =>
      have restored := @Vault.restore_snapshot run.vault fresh safe.minted
        (.openWithPrefix run.vault.key opening)
      rw [VaultRun.perform, restored]
      exact Nat.le_succ _

/-- A run of fewer calls than the counter has values never exhausts it. -/
theorem counted_of_length {noncePrefix : UInt32} {calls : List VaultCall}
    (few : calls.length < u64Max) : Counted cipher key noncePrefix calls ∧
      (after cipher key noncePrefix calls).vault.next ≤ calls.length := by
  induction calls using List.reverseRecOn with
  | nil =>
      constructor
      · intro earlier isPrefix
        rw [List.prefix_nil.mp isPrefix]
        exact few
      · exact Nat.le_refl 0
  | append_singleton calls call ih =>
      rw [List.length_append, List.length_singleton] at few ⊢
      rcases ih (Nat.lt_of_succ_lt few) with ⟨counted, low⟩
      have free := counted calls (List.prefix_refl calls)
      have step := @Safe.next_perform cipher key _ call (safe_after counted) free
      have bound : (after cipher key noncePrefix (calls ++ [call])).vault.next ≤
          calls.length + 1 := by
        unfold after at step low ⊢
        rw [List.foldl_append, List.foldl_cons, List.foldl_nil]
        omega
      refine ⟨?_, bound⟩
      intro earlier isPrefix
      rcases List.prefix_concat_iff.mp isPrefix with rfl | inside
      · exact Nat.lt_of_le_of_lt bound few
      · exact counted earlier inside

/-- Two seals differ in their handles and in their nonces, a handle that is not
erased reads back the sealed bytes, and an erased handle reads nothing. -/
theorem seals_safe (lawful : cipher.Lawful) (key : Bytes) (noncePrefix : UInt32)
    (calls : List VaultCall) (counted : Counted cipher key noncePrefix calls) :
    let run := after cipher key noncePrefix calls
    run.seals.Pairwise (fun left right => left.handle ≠ right.handle ∧
      (left.noncePrefix, left.slot) ≠ (right.noncePrefix, right.slot)) ∧
    (∀ entry ∈ run.seals, ∀ handle, entry.answer = .ok handle →
      handle = entry.handle ∧
      (handle ∉ run.erased → run.vault.get cipher handle = .ok entry.raw)) ∧
    ∀ handle ∈ run.erased, ∀ bytes, run.vault.get cipher handle ≠ .ok bytes := by
  have safe := safe_after counted
  constructor
  · apply safe.slots.imp_of_mem
    intro left right leftMember rightMember ordered
    constructor
    · intro same
      have number := safe.handles left leftMember
      rw [same, safe.handles right rightMember] at number
      rw [Option.some.inj number] at ordered
      exact Nat.lt_irrefl _ ordered
    · intro same
      rw [(Prod.mk.inj same).2] at ordered
      exact Nat.lt_irrefl _ ordered
  constructor
  · intro entry member handle answered
    rcases safe.answered entry member handle answered with ⟨own, held⟩
    refine ⟨own, ?_⟩
    intro live
    rcases held with gone | ⟨nonce, ciphertext, bound, sealed⟩
    · exact absurd gone live
    · have opened := lawful _ _ _ _ _ sealed
      simp only [Vault.get, bound, safe.keyed, opened]
  · intro handle member bytes readable
    have tombstone := safe.erased handle member
    simp only [Vault.get, tombstone] at readable
    cases readable

/-- A cipher that binds key, nonce and associated data by writing them down. -/
def labellingCipher : Cipher where
  encrypt key nonce associated message := some (key ++ nonce ++ associated ++ message)
  decrypt key nonce associated ciphertext :=
    if (key ++ nonce ++ associated).isPrefixOf ciphertext then
      some (ciphertext.drop (key ++ nonce ++ associated).length)
    else
      none

theorem lawful_labellingCipher : labellingCipher.Lawful := by
  intro key nonce associated message ciphertext encrypted
  have written : key ++ nonce ++ associated ++ message = ciphertext := Option.some.inj encrypted
  have labelled : (key ++ nonce ++ associated).isPrefixOf ciphertext = true := by
    rw [← written]
    exact List.isPrefixOf_iff_prefix.mpr (List.prefix_append _ _)
  simp only [labellingCipher, labelled, if_true]
  rw [← written, List.drop_left]

/-- A seal, its erasure, a restart under the old prefix and a second seal. -/
def sampleVaultCalls : List VaultCall :=
  [.put [1] "leak", .erase "vault-leak-0", .restart 5 7, .put [2] "leak"]

theorem seals_safe_sample :
    Counted labellingCipher [] 7 sampleVaultCalls ∧
      ∀ bytes, (after labellingCipher [] 7 sampleVaultCalls).vault.get labellingCipher
        "vault-leak-0" ≠ .ok bytes := by
  have counted := (@counted_of_length labellingCipher [] 7 sampleVaultCalls (by decide)).1
  have erased : "vault-leak-0" ∈ (after labellingCipher [] 7 sampleVaultCalls).erased := by
    decide +kernel
  exact ⟨counted, (seals_safe lawful_labellingCipher [] 7 sampleVaultCalls counted).2.2 _ erased⟩

end VaultRun
end Llxprt.Store

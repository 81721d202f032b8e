import Llxprt.Store.Spine
import Llxprt.Store.Vault

/-!
# The context store

The facade over the spine and the vault.  Writes are refused in every mode but
the normal one, and both loaders accept only what the writes can produce.
-/

namespace Llxprt.Store

open Llxprt.Kernel Llxprt.Rust

inductive StoreMode where
  | normal
  | readOnly
  | unavailable
  deriving DecidableEq

def StoreMode.name : StoreMode → String
  | normal => "normal"
  | readOnly => "read-only"
  | unavailable => "unavailable"

def StoreMode.writable : StoreMode → Bool
  | normal => true
  | _ => false

inductive StoreError where
  | vault (error : VaultError)
  | blocked (mode : StoreMode)
  deriving DecidableEq

structure IndexEntry where
  handle : String
  ranges : List ByteRange
  labels : List String

structure Checkpoint where
  applied : Nat
  spineLen : Nat

structure ContextStore where
  mode : StoreMode
  spine : Spine
  vault : Vault
  index : List IndexEntry
  checkpoint : Option Checkpoint

namespace ContextStore

variable (cipher : Cipher)

/-- A store in normal mode; `noncePrefix` is drawn by the process. -/
def openWith (key : Bytes) (noncePrefix : UInt32) : ContextStore :=
  ⟨.normal, .new, .openWithPrefix key noncePrefix, [], none⟩

def setMode (store : ContextStore) (mode : StoreMode) : ContextStore :=
  { store with mode := mode }

def indexEntry (record : SpineRecord) : IndexEntry :=
  ⟨record.handle, [record.range], []⟩

def rebuildIndex (store : ContextStore) : ContextStore :=
  { store with index := store.spine.records.map indexEntry }

def sanitizedAppend (store : ContextStore) (bytes : Bytes) :
    Except StoreError (String × ByteRange) × ContextStore :=
  if store.mode.writable then
    let handle := canonicalHandle store.spine.len bytes
    let range := ⟨store.spine.len, store.spine.len + bytes.length⟩
    (.ok (handle, range),
      { store with
        spine := store.spine.append handle bytes
        index := store.index ++ [⟨handle, [range], []⟩] })
  else
    (.error (.blocked store.mode), store)

def vaultPut (store : ContextStore) (raw : Bytes) (reason : String) :
    Except StoreError String × ContextStore :=
  if store.mode.writable then
    let (result, vault) := store.vault.put cipher raw reason
    (result.mapError .vault, { store with vault := vault })
  else
    (.error (.blocked store.mode), store)

def vaultGet (store : ContextStore) (handle : String) : Except StoreError Bytes :=
  (store.vault.get cipher handle).mapError .vault

def takeCheckpoint (store : ContextStore) : ContextStore :=
  { store with checkpoint := some ⟨store.spine.records.length, store.spine.len⟩ }

def vaultErase (store : ContextStore) (handle : String) : Except StoreError Unit × ContextStore :=
  if store.mode.writable then
    match store.vault.erase handle with
    | .error error => (.error (.vault error), store)
    | .ok vault => (.ok (), takeCheckpoint { store with vault := vault })
  else
    (.error (.blocked store.mode), store)

def loadSpineTyped (store : ContextStore) (encoded : Bytes) : Except SpineLoadError ContextStore :=
  match Spine.loadTyped encoded with
  | .error error => .error error
  | .ok spine => .ok (rebuildIndex { store with spine := spine })

def restoreVault (store : ContextStore) (snapshot : VaultSnapshot) (fresh : UInt32) :
    Except StoreError ContextStore :=
  match store.vault.restore snapshot fresh with
  | .error error => .error (.vault error)
  | .ok vault => .ok { store with vault := vault }

/-- The spine was admitted and the slots were minted. -/
structure Sound (store : ContextStore) : Prop where
  admitted : store.spine.Admitted
  minted : store.vault.Minted

variable {cipher} {store loaded : ContextStore} {raw found : Bytes} {reason handle other : String}

theorem sound_openWith (key : Bytes) (noncePrefix : UInt32) : (openWith key noncePrefix).Sound :=
  ⟨Spine.admitted_new, Vault.minted_openWithPrefix key noncePrefix⟩

theorem Sound.sanitizedAppend (sound : store.Sound) (bytes : Bytes) :
    (store.sanitizedAppend bytes).2.Sound := by
  unfold ContextStore.sanitizedAppend
  split
  · exact ⟨sound.admitted.admitFrame bytes, sound.minted⟩
  · exact sound

@[simp]
theorem sanitizedAppend_vault (bytes : Bytes) :
    (store.sanitizedAppend bytes).2.vault = store.vault := by
  unfold sanitizedAppend
  split <;> rfl

/-- A put runs the vault's seal, or is refused by the mode. -/
theorem vaultPut_vault : (store.vaultPut cipher raw reason).2.vault = store.vault ∨
    (store.vaultPut cipher raw reason).2.vault = (store.vault.put cipher raw reason).2 := by
  unfold vaultPut
  split
  · exact .inr rfl
  · exact .inl rfl

theorem vaultPut_spine : (store.vaultPut cipher raw reason).2.spine = store.spine := by
  unfold vaultPut
  split <;> rfl

theorem Sound.vaultPut (sound : store.Sound) (free : store.vault.next < u64Max) :
    (store.vaultPut cipher raw reason).2.Sound := by
  constructor
  · rw [vaultPut_spine]
    exact sound.admitted
  · rcases @vaultPut_vault cipher store raw reason with same | put
    · rw [same]
      exact sound.minted
    · rw [put]
      exact sound.minted.put free

theorem vaultPut_key : (store.vaultPut cipher raw reason).2.vault.key = store.vault.key := by
  rcases @vaultPut_vault cipher store raw reason with same | put
  · rw [same]
  · rw [put, Vault.put_key]

theorem vaultGet_eq_ok_iff :
    store.vaultGet cipher handle = .ok found ↔ store.vault.get cipher handle = .ok found := by
  unfold vaultGet
  cases store.vault.get cipher handle <;> simp [Except.mapError]

/-- An accepted put is a seal of the vault. -/
theorem vaultPut_eq_ok (put : (store.vaultPut cipher raw reason).1 = .ok handle) :
    (store.vault.put cipher raw reason).1 = .ok handle ∧
      (store.vaultPut cipher raw reason).2.vault = (store.vault.put cipher raw reason).2 := by
  unfold vaultPut at put ⊢
  split at put
  · rename_i writable
    rw [if_pos writable]
    cases sealed : (store.vault.put cipher raw reason).1 with
    | error error =>
        simp only [sealed] at put
        cases put
    | ok minted =>
        simp only [sealed] at put
        cases put
        exact ⟨rfl, rfl⟩
  · cases put

/-- A put keeps all slots, and an accepted one adds the slot of its handle. -/
theorem vaultPut_slots :
    (store.vaultPut cipher raw reason).2.vault.slots = store.vault.slots ∨
      ∃ nonce ciphertext,
        (store.vaultPut cipher raw reason).1 = .ok (mintedHandle reason store.vault.next) ∧
        (store.vaultPut cipher raw reason).2.vault.slots =
          store.vault.slots.insert (mintedHandle reason store.vault.next)
            (.live nonce ciphertext) := by
  unfold vaultPut
  split
  · rcases Vault.put_cases cipher store.vault raw reason with failed | ⟨ciphertext, _, added⟩
    · rw [failed]
      exact .inl rfl
    · rw [added]
      exact .inr ⟨_, ciphertext, rfl, rfl⟩
  · exact .inl rfl

theorem vaultPut_mode : (store.vaultPut cipher raw reason).2.mode = store.mode := by
  unfold vaultPut
  split <;> rfl

theorem writable_of_vaultPut (put : (store.vaultPut cipher raw reason).1 = .ok handle) :
    store.mode.writable = true := by
  unfold vaultPut at put
  split at put
  · assumption
  · cases put

/-- What was put is read back. -/
theorem vaultGet_vaultPut (lawful : cipher.Lawful)
    (put : (store.vaultPut cipher raw reason).1 = .ok handle) :
    (store.vaultPut cipher raw reason).2.vaultGet cipher handle = .ok raw := by
  rcases vaultPut_eq_ok put with ⟨sealed, vault⟩
  rw [vaultGet_eq_ok_iff, vault]
  exact Vault.get_put lawful sealed

/-- The handle of a put is none of the handles that could be read before. -/
theorem handle_ne_of_vaultPut (sound : store.Sound) (free : store.vault.next < u64Max)
    (put : (store.vaultPut cipher raw reason).1 = .ok handle)
    (readable : store.vaultGet cipher other = .ok found) : other ≠ handle := by
  rw [Vault.handle_of_put (vaultPut_eq_ok put).1]
  rw [vaultGet_eq_ok_iff] at readable
  exact (Vault.mintedHandle_ne_of_get sound.minted free readable).symm

theorem vaultGet_vaultPut_other (sound : store.Sound) (free : store.vault.next < u64Max)
    (readable : store.vaultGet cipher other = .ok found) :
    (store.vaultPut cipher raw reason).2.vaultGet cipher other = .ok found := by
  rw [vaultGet_eq_ok_iff] at readable ⊢
  rcases @vaultPut_vault cipher store raw reason with same | put
  · rw [same]
    exact readable
  · rw [put]
    exact Vault.get_put_other sound.minted free readable

/-- An erasure runs on the vault, or changes nothing. -/
theorem vaultErase_cases : (store.vaultErase handle).2 = store ∨
    ∃ vault, store.vault.erase handle = .ok vault ∧
      (store.vaultErase handle).2 = takeCheckpoint { store with vault := vault } := by
  unfold vaultErase
  split
  · cases erased : store.vault.erase handle with
    | error error => exact .inl rfl
    | ok vault => exact .inr ⟨vault, rfl, rfl⟩
  · exact .inl rfl

/-- A refused erasure leaves the store as it was. -/
theorem vaultErase_of_error {error : StoreError}
    (refused : (store.vaultErase handle).1 = .error error) : (store.vaultErase handle).2 = store := by
  unfold vaultErase at refused ⊢
  split
  · rename_i writable
    rw [if_pos writable] at refused
    cases erased : store.vault.erase handle with
    | error error => rfl
    | ok vault =>
        rw [erased] at refused
        cases refused
  · rfl

/-- A handle that can be read can be erased. -/
theorem vaultErase_eq_ok (writable : store.mode.writable = true)
    (readable : store.vaultGet cipher handle = .ok found) :
    (store.vaultErase handle).1 = .ok () ∧
      (store.vaultErase handle).2.vault.slots = store.vault.slots.insert handle .tombstone := by
  rw [vaultGet_eq_ok_iff] at readable
  have present : ∃ slot, store.vault.slots[handle]? = some slot := by
    unfold Vault.get at readable
    split at readable
    · cases readable
    · cases readable
    · rename_i bound
      exact ⟨_, bound⟩
  rcases present with ⟨slot, bound⟩
  simp [vaultErase, writable, Vault.erase, bound, takeCheckpoint]

theorem Sound.vaultErase (sound : store.Sound) : (store.vaultErase handle).2.Sound := by
  rcases @vaultErase_cases store handle with same | ⟨vault, erased, done⟩
  · rw [same]
    exact sound
  · rw [done]
    exact ⟨sound.admitted, sound.minted.erase erased⟩

theorem vaultErase_key : (store.vaultErase handle).2.vault.key = store.vault.key := by
  rcases @vaultErase_cases store handle with same | ⟨vault, erased, done⟩
  · rw [same]
  · rw [done]
    exact Vault.erase_key erased

theorem vaultGet_vaultErase_other (distinct : handle ≠ other) :
    (store.vaultErase handle).2.vaultGet cipher other = store.vaultGet cipher other := by
  rcases @vaultErase_cases store handle with same | ⟨vault, erased, done⟩
  · rw [same]
  · rw [done]
    unfold vaultGet
    rw [← Vault.get_erase_other erased distinct]
    rfl

theorem Sound.loadSpineTyped {encoded : Bytes} (sound : store.Sound)
    (accepted : store.loadSpineTyped encoded = .ok loaded) :
    loaded.Sound ∧ loaded.vault = store.vault := by
  unfold ContextStore.loadSpineTyped at accepted
  split at accepted
  · cases accepted
  · rename_i spine read
    cases accepted
    exact ⟨⟨Spine.admitted_of_loadTyped read, sound.minted⟩, rfl⟩

theorem Sound.restoreVault {snapshot : VaultSnapshot} {fresh : UInt32} (sound : store.Sound)
    (accepted : store.restoreVault snapshot fresh = .ok loaded) :
    loaded.Sound ∧ loaded.vault.key = store.vault.key := by
  unfold ContextStore.restoreVault at accepted
  split at accepted
  · cases accepted
  · rename_i vault restored
    cases accepted
    exact ⟨⟨sound.admitted, Vault.minted_of_restore restored⟩, Vault.restore_key restored⟩

end ContextStore

end Llxprt.Store

import Llxprt.Ingress.Filter
import Llxprt.Kernel.Serde
import Llxprt.Policy.Runtime
import Llxprt.Store.ContextStore

/-!
# The context state of a session

The live state behind the context artifacts, and the rule that ties its parts
together: every request prefix names a known epoch and a vault slot that still
opens to the bytes it was recorded for.  The request type, its serializer, the
cipher and the readers of JSON are parameters.
-/

namespace Llxprt.Session

open Llxprt.Kernel Llxprt.Rust Llxprt.Store Llxprt.Ingress Llxprt.Policy

structure RequestPrefix where
  epoch : Nat
  handle : String
  digest : String
  requests : Nat

abbrev RequestPrefixes := BTreeMap String RequestPrefix

/-- The facts that the manifest carries. -/
structure Manifest where
  generation : Nat
  mode : String
  quiesce : Option String
  detail : Option String
  rules : List FilterRules
  vocabularies : List VocabularySnapshot
  terminalOutcome : Option String
  terminalFitSaturated : Option Bool
  terminalFitAvailable : Option Nat
  preserved : List String

/-- The libraries that the session calls. -/
structure Libraries (Request : Type) where
  cipher : Cipher
  encodeRequests : List Request → Except String Bytes
  decodeRequests : Bytes → Except String (List Request)
  parseValue : Bytes → Except String Json
  decodeVault : Bytes → Except String VaultSnapshot
  decodeEpochs : Bytes → Except String EpochCache
  decodePrefixes : Bytes → Except String RequestPrefixes
  decodeManifest : Bytes → Except String Manifest

inductive StoreError where
  | invalid (text : String)
  | corrupt (text : String)
  deriving DecidableEq

def StoreError.text : StoreError → String
  | invalid text => text
  | corrupt text => "corrupt session state: " ++ text

structure ContextState where
  store : ContextStore
  generation : Nat
  filters : FilterRegistry
  quiesce : Option String
  detail : Option String
  preserved : List String
  policy : Controller
  regionAdmitted : Nat
  kernelChain : UInt64 × Digest
  recoveredCheckpoints : Option Bytes
  requestPrefixes : RequestPrefixes

def newContextState (key : Bytes) (noncePrefix : UInt32) : ContextState where
  store := .openWith key noncePrefix
  generation := 0
  filters := .new
  quiesce := none
  detail := none
  preserved := []
  policy := .default
  regionAdmitted := 0
  kernelChain := (1, 0)
  recoveredCheckpoints := none
  requestPrefixes := ∅

variable {Request : Type} (libraries : Libraries Request)

/-- The requests that a recorded prefix stands for. -/
def load (state : ContextState) (recorded : RequestPrefix) : Except StoreError (List Request) :=
  match state.store.vaultGet libraries.cipher recorded.handle with
  | .error _ => .error (.corrupt "context request prefix vault refused read")
  | .ok bytes =>
      if Sha256.digest bytes ≠ recorded.digest then
        .error (.corrupt "context request prefix digest mismatch")
      else
        match libraries.decodeRequests bytes with
        | .error error => .error (.corrupt ("context request prefix corrupt: " ++ error))
        | .ok requests =>
            if requests.length ≠ recorded.requests then
              .error (.corrupt "context request prefix length mismatch")
            else
              .ok requests

/-- The check of the recorded prefixes, in the order of their branches. -/
def validatePrefixes (state : ContextState) : List RequestPrefix → Except String Unit
  | [] => .ok ()
  | recorded :: rest =>
      if state.policy.cache.records.any (·.epoch == recorded.epoch) = false then
        .error "context request prefix names an unknown epoch"
      else
        match load libraries state recorded with
        | .error error => .error error.text
        | .ok _ => validatePrefixes state rest

def validate (state : ContextState) : Except String Unit :=
  validatePrefixes libraries state (values state.requestPrefixes)

/-- A prefix whose epoch is recorded and whose slot opens to the bytes it was
recorded for. -/
structure Backed (state : ContextState) (recorded : RequestPrefix) : Prop where
  known : ∃ record ∈ state.policy.cache.records, record.epoch = recorded.epoch
  opens : ∃ bytes, state.store.vaultGet libraries.cipher recorded.handle = .ok bytes ∧
    Sha256.digest bytes = recorded.digest

/-- The payload of every prefix is read back with as many requests as were
recorded.  The reader gives up on documents that nest too deep. -/
def ContextState.Readable (state : ContextState) : Prop :=
  ∀ (branch : String) recorded, state.requestPrefixes[branch]? = some recorded →
    ∀ bytes, state.store.vaultGet libraries.cipher recorded.handle = .ok bytes →
    ∃ requests, libraries.decodeRequests bytes = .ok requests ∧
      requests.length = recorded.requests

/-- What every live state of a session satisfies. -/
structure ContextState.Sound (state : ContextState) : Prop where
  store : state.store.Sound
  filters : state.filters.Producible
  cache : state.policy.cache.Valid
  prefixes : ∀ (branch : String) recorded, state.requestPrefixes[branch]? = some recorded →
    Backed libraries state recorded

section Validation

variable {libraries} {state other : ContextState} {recorded : RequestPrefix}

/-- A prefix loads when its slot opens to the recorded bytes and these are read. -/
theorem load_eq_ok_iff {requests : List Request} :
    load libraries state recorded = .ok requests ↔
      ∃ bytes, state.store.vaultGet libraries.cipher recorded.handle = .ok bytes ∧
        Sha256.digest bytes = recorded.digest ∧
        libraries.decodeRequests bytes = .ok requests ∧ requests.length = recorded.requests := by
  unfold load
  cases readable : state.store.vaultGet libraries.cipher recorded.handle with
  | error error => simp
  | ok bytes =>
      by_cases same : Sha256.digest bytes = recorded.digest
      · cases decoded : libraries.decodeRequests bytes with
        | error error => simp [same, decoded]
        | ok loaded =>
            by_cases length : loaded.length = recorded.requests
            · simp only [same, ne_eq, not_true_eq_false, if_false, decoded, length,
                Except.ok.injEq, exists_eq_left', true_and]
              constructor
              · rintro rfl
                exact ⟨rfl, length⟩
              · exact fun both => both.1
            · simp only [same, ne_eq, not_true_eq_false, if_false, decoded, length,
                not_false_eq_true, if_true, reduceCtorEq, Except.ok.injEq, exists_eq_left',
                true_and, false_iff, not_and]
              rintro rfl
              exact length
      · simp [same]

/-- The check accepts the listed prefixes exactly when each is known and loads. -/
theorem validatePrefixes_eq_ok_iff {listed : List RequestPrefix} :
    validatePrefixes libraries state listed = .ok () ↔
      ∀ recorded ∈ listed,
        (∃ record ∈ state.policy.cache.records, record.epoch = recorded.epoch) ∧
          ∃ requests, load libraries state recorded = .ok requests := by
  induction listed with
  | nil => simp [validatePrefixes]
  | cons recorded listed ih =>
      rw [validatePrefixes, List.forall_mem_cons, ← ih]
      have known : state.policy.cache.records.any (·.epoch == recorded.epoch) = true ↔
          ∃ record ∈ state.policy.cache.records, record.epoch = recorded.epoch := by
        simp
      by_cases named : ∃ record ∈ state.policy.cache.records, record.epoch = recorded.epoch
      · rw [if_neg (by simp only [known.mpr named]; decide)]
        cases loaded : load libraries state recorded with
        | error error => simp
        | ok requests => simp [named]
      · rw [if_pos (Bool.eq_false_of_not_eq_true fun any => named (known.mp any))]
        simp [named]

/-- The check accepts exactly the states whose prefixes are all backed and can
be read. -/
theorem validate_eq_ok_iff : validate libraries state = .ok () ↔
    (∀ (branch : String) recorded, state.requestPrefixes[branch]? = some recorded →
      Backed libraries state recorded) ∧ state.Readable libraries := by
  unfold validate values
  rw [validatePrefixes_eq_ok_iff]
  constructor
  · intro all
    have listed : ∀ (branch : String) recorded, state.requestPrefixes[branch]? = some recorded →
        recorded ∈ state.requestPrefixes.toList.map Prod.snd := by
      intro branch recorded found
      exact List.mem_map.mpr
        ⟨(branch, recorded), Std.ExtTreeMap.mem_toList_iff_getElem?_eq_some.mpr found, rfl⟩
    constructor
    · intro branch recorded found
      rcases all recorded (listed branch recorded found) with ⟨known, requests, loaded⟩
      rcases load_eq_ok_iff.mp loaded with ⟨bytes, readable, same, _⟩
      exact ⟨known, bytes, readable, same⟩
    · intro branch recorded found bytes readable
      rcases all recorded (listed branch recorded found) with ⟨_, requests, loaded⟩
      rcases load_eq_ok_iff.mp loaded with ⟨opened, opens, _, decoded, length⟩
      cases opens.symm.trans readable
      exact ⟨requests, decoded, length⟩
  · rintro ⟨backed, reads⟩ recorded member
    rcases List.mem_map.mp member with ⟨⟨branch, found⟩, listed, rfl⟩
    have named := Std.ExtTreeMap.mem_toList_iff_getElem?_eq_some.mp listed
    rcases (backed branch found named).opens with ⟨bytes, readable, same⟩
    rcases reads branch found named bytes readable with ⟨requests, decoded, length⟩
    exact ⟨(backed branch found named).known, requests,
      load_eq_ok_iff.mpr ⟨bytes, readable, same, decoded, length⟩⟩

/-- Vaults with one key and the same slots serve the same payloads. -/
theorem vaultGet_congr {cipher : Cipher} (key : other.store.vault.key = state.store.vault.key)
    (slots : other.store.vault.slots = state.store.vault.slots) (handle : String) :
    other.store.vaultGet cipher handle = state.store.vaultGet cipher handle := by
  unfold ContextStore.vaultGet Vault.get
  rw [key, slots]

theorem readable_congr (prefixes : other.requestPrefixes = state.requestPrefixes)
    (serves : ∀ handle, other.store.vaultGet libraries.cipher handle =
      state.store.vaultGet libraries.cipher handle) :
    other.Readable libraries ↔ state.Readable libraries := by
  simp only [ContextState.Readable, prefixes, serves]

theorem sound_newContextState (key : Bytes) (noncePrefix : UInt32) :
    (newContextState key noncePrefix).Sound libraries := by
  constructor
  · exact ContextStore.sound_openWith key noncePrefix
  · exact FilterRegistry.producible_new
  · intro index record found
    cases found
  · intro branch recorded found
    simp [newContextState] at found

end Validation

end Llxprt.Session

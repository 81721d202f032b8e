import Llxprt.Session.Context

/-!
# How the context state moves

Everything a session does to its live state between two publications: appends
and seals, filter relaxations, policy and epoch accounting, and the recording of
request prefixes.  Each step keeps the state sound while the vault has slot
numbers left.
-/

namespace Llxprt.Session

open Llxprt.Kernel Llxprt.Rust Llxprt.Store Llxprt.Ingress Llxprt.Policy

section Recording

variable {Request : Type} (libraries : Libraries Request)

def encode (requests : List Request) : Except StoreError Bytes :=
  (libraries.encodeRequests requests).mapError fun error =>
    .invalid ("encode request prefix: " ++ error)

/-- The requests of the prefix recorded for the branch so far. -/
def loadPrior (state : ContextState) :
    Option RequestPrefix → Except StoreError (Option (List Request))
  | none => .ok none
  | some prior => (load libraries state prior).map some

/-- Whether the requests continue the old ones, compared as serialized. -/
def isAppend (old : Option (List Request)) (requests : List Request) : Except StoreError Bool :=
  match old with
  | none => .ok true
  | some old =>
      if old.length ≤ requests.length then
        match encode libraries (requests.take old.length) with
        | .error error => .error error
        | .ok head =>
            match encode libraries old with
            | .error error => .error error
            | .ok before => .ok (head = before)
      else
        .ok false

/-- The length of the old prefix as it was sent. -/
def oldBytes : Option (List Request) → Except StoreError Nat
  | none => .ok 0
  | some old => (encode libraries old).map List.length

/-- The cut that a recording with a trigger asks for. -/
def requestedCut (requests : List Request) (bytes : Bytes) (trigger : CutTrigger) (length : Nat) :
    CheckpointCut where
  headDigest := Sha256.digest bytes
  headRequests := requests.length
  trigger := trigger
  armed := trigger = .budgetPressure
  bytesReclaimed := length - bytes.length
  bytesInvalidated := length
  tokensInvalidated := none

/-- The epoch of the new prefix: a cut opens one, a first prefix starts one and
an append stays in the prior one. -/
def prefixEpoch (state : ContextState) (prior : Option RequestPrefix)
    (old : Option (List Request)) (requests : List Request) (bytes : Bytes)
    (trigger : Option CutTrigger) : Except StoreError (Nat × ContextState) :=
  match trigger with
  | some trigger =>
      match oldBytes libraries old with
      | .error error => .error error
      | .ok length =>
          match state.policy.checkpoint (requestedCut requests bytes trigger length) with
          | .error error => .error (.invalid error.text)
          | .ok (epoch, policy) => .ok (epoch, { state with policy := policy })
  | none =>
      match prior with
      | some prior => .ok (prior.epoch, state)
      | none =>
          match state.policy.cache.start (Sha256.digest bytes) requests.length with
          | .error error => .error (.invalid error.text)
          | .ok (epoch, cache) =>
              .ok (epoch, { state with policy := { state.policy with cache := cache } })

/-- Erase the payload of the replaced prefix, unless another branch shares it. -/
def retire (state : ContextState) (branch : String) (prior : Option RequestPrefix) :
    Except StoreError Unit × ContextState :=
  match prior with
  | none => (.ok (), state)
  | some old =>
      if state.requestPrefixes.toList.any fun entry =>
          entry.1 ≠ branch && entry.2.handle = old.handle then
        (.ok (), state)
      else
        let (erased, store) := state.store.vaultErase old.handle
        (erased.mapError fun _ => .invalid "context prefix retirement failed",
          { state with store := store })

/-- Everything that the recording of a prefix does before it publishes. -/
def recordRequestPrefix (state : ContextState) (branch : String) (requests : List Request)
    (trigger : Option CutTrigger) : Except StoreError Nat × ContextState :=
  let prior := state.requestPrefixes[branch]?
  match loadPrior libraries state prior with
  | .error error => (.error error, state)
  | .ok old =>
      match isAppend libraries old requests with
      | .error error => (.error error, state)
      | .ok append =>
          if append = false ∧ trigger = none then
            (.error (.invalid EpochError.prefixChanged.text), state)
          else if trigger.any (fun trigger => !state.policy.checkpointAllowed trigger) then
            (.error (.invalid EpochError.governorRefused.text), state)
          else
            match encode libraries requests with
            | .error error => (.error error, state)
            | .ok bytes =>
                match prefixEpoch libraries state prior old requests bytes trigger with
                | .error error => (.error error, state)
                | .ok (epoch, opened) =>
                    let put := opened.store.vaultPut libraries.cipher bytes "request-prefix"
                    let stored := { opened with store := put.2 }
                    match put.1 with
                    | .error _ =>
                        (.error (.invalid "context request prefix vault refused write"), stored)
                    | .ok handle =>
                        match retire stored branch prior with
                        | (.error error, retired) => (.error error, retired)
                        | (.ok (), retired) =>
                            (.ok epoch, { retired with
                              requestPrefixes := retired.requestPrefixes.insert branch
                                ⟨epoch, handle, Sha256.digest bytes, requests.length⟩ })

/-- A new turn takes over the prefix that its parent sent. -/
def resumeRequestPrefix (state : ContextState) (parent branch : String) : ContextState :=
  match state.requestPrefixes[parent]? with
  | none => state
  | some recorded =>
      match load libraries state recorded with
      | .error _ => state
      | .ok _ =>
          { state with requestPrefixes := state.requestPrefixes.insert branch recorded }

end Recording

/-- One step of a live session between two publications. -/
inductive Mutation (Request : Type) where
  | append (bytes : Bytes)
  | quarantine (raw : Bytes) (reason : String)
  | relax (rules : FilterRules)
  | extend (vocabulary : Vocabulary)
  | policy (controller : Controller)
  | usage (epoch : Nat) (input cached : Option Nat) (armed : Bool)
  | resume (parent branch : String)
  | record (branch : String) (requests : List Request) (trigger : Option CutTrigger)
  | annotate (quiesce detail : Option String) (preserved : List String) (regionAdmitted : Nat)
      (kernelChain : UInt64 × Digest)

namespace Mutation

variable {Request : Type} (libraries : Libraries Request)

/-- The step on the live state, whether or not the call behind it succeeds.  A
policy operation may leave any controller with the same epoch accounting. -/
def apply (state : ContextState) : Mutation Request → ContextState
  | append bytes => { state with store := (state.store.sanitizedAppend bytes).2 }
  | quarantine raw reason =>
      { state with store := (state.store.vaultPut libraries.cipher raw reason).2 }
  | relax rules => { state with filters := (state.filters.updateRules rules).2 }
  | extend vocabulary => { state with filters := (state.filters.updateVocabulary vocabulary).2 }
  | policy controller =>
      { state with policy := { controller with cache := state.policy.cache } }
  | usage epoch input cached armed =>
      { state with
        policy := { state.policy with
          cache := (state.policy.cache.observe epoch input cached armed).2 } }
  | resume parent branch => resumeRequestPrefix libraries state parent branch
  | record branch requests trigger =>
      (recordRequestPrefix libraries state branch requests trigger).2
  | annotate quiesce detail preserved regionAdmitted kernelChain =>
      { state with quiesce, detail, preserved, regionAdmitted, kernelChain }

/-- The step needs a fresh slot number, or there is one. -/
def Roomy (state : ContextState) : Mutation Request → Prop
  | quarantine _ _ | record _ _ _ => state.store.vault.next < u64Max
  | _ => True

end Mutation

section Prefixes

variable {Request : Type} {libraries : Libraries Request} {state moved : ContextState}
  {recorded : RequestPrefix}

/-- The epochs that are recorded stay recorded. -/
def KeepsEpochs (cache later : EpochCache) : Prop :=
  ∀ record ∈ cache.records, ∃ kept ∈ later.records, kept.epoch = record.epoch

theorem keepsEpochs_append (cache : EpochCache) (added : List EpochRecord) :
    KeepsEpochs cache ⟨cache.records ++ added⟩ :=
  fun record member => ⟨record, List.mem_append_left _ member, rfl⟩

/-- A backed prefix stays backed when its epoch and its payload are kept. -/
theorem Backed.transfer (backed : Backed libraries state recorded)
    (epochs : KeepsEpochs state.policy.cache moved.policy.cache)
    (payload : ∀ bytes, state.store.vaultGet libraries.cipher recorded.handle = .ok bytes →
      moved.store.vaultGet libraries.cipher recorded.handle = .ok bytes) :
    Backed libraries moved recorded := by
  rcases backed.known with ⟨record, member, named⟩
  rcases epochs record member with ⟨kept, keptMember, sameEpoch⟩
  rcases backed.opens with ⟨bytes, found, same⟩
  constructor
  · exact ⟨kept, keptMember, sameEpoch.trans named⟩
  · exact ⟨bytes, payload bytes found, same⟩

/-- A move that changes neither the prefixes nor the store keeps the prefixes
backed. -/
theorem ContextState.Sound.move (sound : state.Sound libraries) (store : moved.store = state.store)
    (prefixes : moved.requestPrefixes = state.requestPrefixes)
    (filters : moved.filters.Producible) (cache : moved.policy.cache.Valid)
    (epochs : KeepsEpochs state.policy.cache moved.policy.cache) : moved.Sound libraries := by
  constructor
  · rw [store]
    exact sound.store
  · exact filters
  · exact cache
  · intro branch recorded found
    rw [prefixes] at found
    apply (sound.prefixes branch recorded found).transfer epochs
    intro bytes readable
    rw [store]
    exact readable

theorem keepsEpochs_refl (cache : EpochCache) : KeepsEpochs cache cache :=
  fun record member => ⟨record, member, rfl⟩

theorem keepsEpochs_observe (cache : EpochCache) (epoch : Nat) (input cached : Option Nat)
    (armed : Bool) : KeepsEpochs cache (cache.observe epoch input cached armed).2 := by
  intro record member
  rcases EpochCache.observe_keeps member epoch input cached armed with ⟨kept, inside, same⟩
  exact ⟨kept, inside, same⟩

end Prefixes

section Soundness

variable {Request : Type} {libraries : Libraries Request} {state : ContextState}

/-- The state after a change of its store alone. -/
theorem ContextState.Sound.store_moved {store : ContextStore} (sound : state.Sound libraries)
    (storeSound : store.Sound)
    (serves : ∀ branch recorded, state.requestPrefixes[(branch : String)]? = some recorded →
      ∀ bytes, state.store.vaultGet libraries.cipher recorded.handle = .ok bytes →
        store.vaultGet libraries.cipher recorded.handle = .ok bytes) :
    ({ state with store := store } : ContextState).Sound libraries := by
  constructor
  · exact storeSound
  · exact sound.filters
  · exact sound.cache
  · intro branch recorded found
    exact (sound.prefixes branch recorded found).transfer (keepsEpochs_refl _)
      (serves branch recorded found)

theorem ContextState.Sound.append (sound : state.Sound libraries) (bytes : Bytes) :
    ({ state with store := (state.store.sanitizedAppend bytes).2 } : ContextState).Sound
      libraries := by
  apply sound.store_moved (sound.store.sanitizedAppend bytes)
  intro branch recorded found bytes readable
  unfold ContextStore.vaultGet at readable ⊢
  rw [ContextStore.sanitizedAppend_vault]
  exact readable

theorem ContextState.Sound.put (sound : state.Sound libraries)
    (free : state.store.vault.next < u64Max) (raw : Bytes) (reason : String) :
    ({ state with store := (state.store.vaultPut libraries.cipher raw reason).2 } :
      ContextState).Sound libraries := by
  apply sound.store_moved (sound.store.vaultPut free)
  intro branch recorded found bytes readable
  exact ContextStore.vaultGet_vaultPut_other sound.store free readable

theorem ContextState.Sound.inserted {branch : String} {recorded : RequestPrefix}
    (sound : state.Sound libraries) (backed : Backed libraries state recorded) :
    ({ state with requestPrefixes := state.requestPrefixes.insert branch recorded } :
      ContextState).Sound libraries := by
  constructor
  · exact sound.store
  · exact sound.filters
  · exact sound.cache
  · intro other listed found
    have kept : Backed libraries state listed := by
      rw [Std.ExtTreeMap.getElem?_insert] at found
      split at found
      · cases found
        exact backed
      · exact sound.prefixes other listed found
    exact ⟨kept.known, kept.opens⟩

theorem ContextState.Sound.resume (sound : state.Sound libraries) (parent branch : String) :
    (resumeRequestPrefix libraries state parent branch).Sound libraries := by
  unfold resumeRequestPrefix
  split
  · exact sound
  · rename_i recorded found
    split
    · exact sound
    · exact sound.inserted (sound.prefixes parent recorded found)

theorem digestShaped_digest (bytes : Bytes) :
    EpochRecord.digestShaped (Sha256.digest bytes) = true := by
  have digits : (Sha256.digest bytes).toList.all (fun char => (Text.hexValue char).isSome) =
      true := by
    rw [List.all_eq_true]
    intro char member
    rcases Sha256.mem_digest member with ⟨value, small, rfl⟩
    rw [Text.hexValue_digitChar small]
    rfl
  simp [EpochRecord.digestShaped, Sha256.length_digest, digits]

/-- The state after one more epoch record. -/
theorem ContextState.Sound.accounted {policy : Controller} {record : EpochRecord}
    (sound : state.Sound libraries) (valid : policy.cache.Valid)
    (shape : policy.cache = ⟨state.policy.cache.records ++ [record]⟩) :
    ({ state with policy := policy } : ContextState).Sound libraries := by
  have epochs : KeepsEpochs state.policy.cache policy.cache := by
    rw [shape]
    exact keepsEpochs_append _ _
  constructor
  · exact sound.store
  · exact sound.filters
  · exact valid
  · intro branch recorded found
    exact (sound.prefixes branch recorded found).transfer epochs fun _ readable => readable

/-- The state in which a prefix of the given epoch can be recorded: sound, with
the old store and prefixes, and with the epoch accounted. -/
structure Opened (libraries : Libraries Request) (state opened : ContextState) (epoch : Nat) :
    Prop where
  sound : opened.Sound libraries
  store : opened.store = state.store
  prefixes : opened.requestPrefixes = state.requestPrefixes
  known : ∃ record ∈ opened.policy.cache.records, record.epoch = epoch

theorem opened_of_record {policy : Controller} {record : EpochRecord}
    (sound : state.Sound libraries) (valid : policy.cache.Valid)
    (shape : policy.cache = ⟨state.policy.cache.records ++ [record]⟩) :
    Opened libraries state { state with policy := policy } record.epoch := by
  constructor
  · exact sound.accounted valid shape
  · rfl
  · rfl
  · rw [shape]
    exact ⟨record, List.mem_append_right _ List.mem_cons_self, rfl⟩

theorem prefixEpoch_opened {prior : Option RequestPrefix} {old : Option (List Request)}
    {requests : List Request} {bytes : Bytes} {trigger : Option CutTrigger} {epoch : Nat}
    {opened : ContextState} {branch : String} (sound : state.Sound libraries)
    (recorded : state.requestPrefixes[branch]? = prior)
    (done : prefixEpoch libraries state prior old requests bytes trigger = .ok (epoch, opened)) :
    Opened libraries state opened epoch := by
  unfold prefixEpoch at done
  split at done
  · split at done
    · cases done
    · rename_i trigger _ length _
      have shaped : EpochRecord.digestShaped
          (requestedCut requests bytes trigger length).headDigest = true := by
        rw [requestedCut]
        exact digestShaped_digest bytes
      split at done
      · cases done
      · rename_i checked
        cases done
        rcases Controller.checkpoint_eq_ok sound.cache shaped checked with
          ⟨valid, record, rfl, rfl⟩
        exact opened_of_record sound valid rfl
  · split at done
    · rename_i prior
      cases done
      exact ⟨sound, rfl, rfl, (sound.prefixes branch prior recorded).known⟩
    · split at done
      · cases done
      · rename_i started
        cases done
        have valid := sound.cache.start (digestShaped_digest bytes) started
        rcases EpochCache.start_epoch sound.cache started with ⟨_, rfl⟩
        let record : EpochRecord := .new epoch (Sha256.digest bytes) requests.length
        have shape : ({ state.policy with cache := ⟨state.policy.cache.records ++ [record]⟩ } :
            Controller).cache = ⟨state.policy.cache.records ++ [record]⟩ := rfl
        exact opened_of_record sound valid shape

/-- The payload of a prefix is erased exactly when no other branch needs it. -/
theorem retire_cases (state : ContextState) (branch : String) (prior : Option RequestPrefix) :
    (retire state branch prior = (.ok (), state) ∧ ∀ old, prior = some old →
      ∃ (other : String) (recorded : RequestPrefix), other ≠ branch ∧
        state.requestPrefixes[other]? = some recorded ∧ recorded.handle = old.handle) ∨
    ∃ old, prior = some old ∧
      (∀ other recorded, state.requestPrefixes[(other : String)]? = some recorded →
        other ≠ branch → old.handle ≠ recorded.handle) ∧
      retire state branch prior =
        ((state.store.vaultErase old.handle).1.mapError fun _ =>
          .invalid "context prefix retirement failed",
          { state with store := (state.store.vaultErase old.handle).2 }) := by
  unfold retire
  cases prior with
  | none =>
      refine .inl ⟨rfl, ?_⟩
      intro old isPrior
      cases isPrior
  | some old =>
      simp only
      by_cases shared : state.requestPrefixes.toList.any (fun entry =>
          entry.1 ≠ branch && entry.2.handle = old.handle) = true
      · rw [if_pos shared]
        refine .inl ⟨rfl, ?_⟩
        rintro _ ⟨⟩
        rcases List.any_eq_true.mp shared with ⟨⟨other, recorded⟩, listed, both⟩
        simp only [ne_eq, decide_not, Bool.and_eq_true, Bool.not_eq_eq_eq_not, Bool.not_true,
          decide_eq_false_iff_not, decide_eq_true_eq] at both
        exact ⟨other, recorded, both.1,
          Std.ExtTreeMap.mem_toList_iff_getElem?_eq_some.mp listed, both.2⟩
      · rw [if_neg shared]
        refine .inr ⟨old, rfl, ?_, rfl⟩
        intro other recorded found differs same
        apply shared
        rw [List.any_eq_true]
        refine ⟨(other, recorded), Std.ExtTreeMap.mem_toList_iff_getElem?_eq_some.mpr found, ?_⟩
        simp [differs, same]

theorem ContextState.Sound.retire_error {branch : String} {prior : Option RequestPrefix}
    {error : StoreError} {retired : ContextState} (sound : state.Sound libraries)
    (refused : retire state branch prior = (.error error, retired)) :
    retired.Sound libraries := by
  rcases retire_cases state branch prior with ⟨same, _⟩ | ⟨old, _, _, erased⟩
  · rw [same] at refused
    cases refused
  · rw [erased] at refused
    cases outcome : (state.store.vaultErase old.handle).1 with
    | ok done =>
        rw [outcome] at refused
        cases refused
    | error blocked =>
        rw [outcome, ContextStore.vaultErase_of_error outcome] at refused
        cases refused
        exact sound

/-- The new prefix takes the place of the retired one. -/
theorem ContextState.Sound.replaced {branch : String} {prior : Option RequestPrefix}
    {recorded : RequestPrefix} {retired : ContextState} (sound : state.Sound libraries)
    (listed : state.requestPrefixes[branch]? = prior)
    (done : retire state branch prior = (.ok (), retired))
    (backed : Backed libraries state recorded)
    (fresh : ∀ old, prior = some old → old.handle ≠ recorded.handle) :
    ({ retired with requestPrefixes := retired.requestPrefixes.insert branch recorded } :
      ContextState).Sound libraries := by
  rcases retire_cases state branch prior with ⟨same, _⟩ | ⟨old, isPrior, unshared, erased⟩
  · rw [same] at done
    cases done
    exact sound.inserted backed
  · rw [erased] at done
    rcases Prod.mk.inj done with ⟨_, rfl⟩
    constructor
    · exact sound.store.vaultErase
    · exact sound.filters
    · exact sound.cache
    · intro other named found
      have kept : Backed libraries state named ∧ old.handle ≠ named.handle := by
        rw [Std.ExtTreeMap.getElem?_insert] at found
        split at found
        · cases found
          exact ⟨backed, fresh old isPrior⟩
        · rename_i differs
          have distinct : other ≠ branch := by
            rintro rfl
            exact differs Std.ReflCmp.compare_self
          exact ⟨sound.prefixes other named found, unshared other named found distinct⟩
      apply kept.1.transfer
      · exact keepsEpochs_refl _
      · intro bytes readable
        rw [ContextStore.vaultGet_vaultErase_other kept.2]
        exact readable

theorem encode_eq_ok_iff {requests : List Request} {bytes : Bytes} :
    encode libraries requests = .ok bytes ↔ libraries.encodeRequests requests = .ok bytes := by
  unfold encode
  cases libraries.encodeRequests requests <;> simp [Except.mapError]

/-- A payload that was just sealed backs a prefix of a known epoch. -/
theorem backed_of_put {bytes : Bytes} {requests : List Request} {epoch : Nat} {handle : String}
    (lawful : libraries.cipher.Lawful)
    (put : (state.store.vaultPut libraries.cipher bytes "request-prefix").1 = .ok handle)
    (known : ∃ record ∈ state.policy.cache.records, record.epoch = epoch) :
    Backed libraries
      { state with store := (state.store.vaultPut libraries.cipher bytes "request-prefix").2 }
      ⟨epoch, handle, Sha256.digest bytes, requests.length⟩ :=
  ⟨known, bytes, ContextStore.vaultGet_vaultPut lawful put, rfl⟩

/-- What a recording has established when it seals its payload. -/
structure Ready (libraries : Libraries Request) (state : ContextState) (branch : String)
    (requests : List Request) (trigger : Option CutTrigger) (old : Option (List Request))
    (append : Bool) (bytes : Bytes) (epoch : Nat) (opened : ContextState) : Prop where
  loaded : loadPrior libraries state state.requestPrefixes[branch]? = .ok old
  compared : isAppend libraries old requests = .ok append
  covered : append = true ∨ trigger ≠ none
  allowed : ∀ named, trigger = some named → state.policy.checkpointAllowed named = true
  encoded : encode libraries requests = .ok bytes
  accounted : prefixEpoch libraries state state.requestPrefixes[branch]? old requests bytes
    trigger = .ok (epoch, opened)

/-- How a recording ends once it is ready: the vault refuses the payload, the
old payload cannot be retired, or the new prefix takes its place. -/
inductive Concluded (libraries : Libraries Request) (branch : String) (requests : List Request)
    (prior : Option RequestPrefix) (bytes : Bytes) (epoch : Nat) (opened : ContextState) :
    Except StoreError Nat × ContextState → Prop
  | refused {error : Store.StoreError}
      (put : (opened.store.vaultPut libraries.cipher bytes "request-prefix").1 = .error error) :
      Concluded libraries branch requests prior bytes epoch opened
        (.error (.invalid "context request prefix vault refused write"),
          { opened with
            store := (opened.store.vaultPut libraries.cipher bytes "request-prefix").2 })
  | unretired {handle : String} {error : StoreError} {retired : ContextState}
      (put : (opened.store.vaultPut libraries.cipher bytes "request-prefix").1 = .ok handle)
      (failed : retire
        { opened with
          store := (opened.store.vaultPut libraries.cipher bytes "request-prefix").2 }
        branch prior = (.error error, retired)) :
      Concluded libraries branch requests prior bytes epoch opened (.error error, retired)
  | recorded {handle : String} {retired : ContextState}
      (put : (opened.store.vaultPut libraries.cipher bytes "request-prefix").1 = .ok handle)
      (done : retire
        { opened with
          store := (opened.store.vaultPut libraries.cipher bytes "request-prefix").2 }
        branch prior = (.ok (), retired)) :
      Concluded libraries branch requests prior bytes epoch opened
        (.ok epoch, { retired with
          requestPrefixes := retired.requestPrefixes.insert branch
            ⟨epoch, handle, Sha256.digest bytes, requests.length⟩ })

/-- A recording changes nothing, or was ready and ends in one of three ways. -/
theorem recordRequestPrefix_cases (libraries : Libraries Request) (state : ContextState)
    (branch : String) (requests : List Request) (trigger : Option CutTrigger) :
    (∃ error, recordRequestPrefix libraries state branch requests trigger =
        (.error error, state)) ∨
      ∃ old append bytes epoch opened,
        Ready libraries state branch requests trigger old append bytes epoch opened ∧
        Concluded libraries branch requests state.requestPrefixes[branch]? bytes epoch opened
          (recordRequestPrefix libraries state branch requests trigger) := by
  generalize result : recordRequestPrefix libraries state branch requests trigger = outcome
  unfold recordRequestPrefix at result
  simp only at result
  split at result
  · exact .inl ⟨_, result.symm⟩
  · rename_i old loaded
    split at result
    · exact .inl ⟨_, result.symm⟩
    · rename_i append compared
      split at result
      · exact .inl ⟨_, result.symm⟩
      · rename_i covered
        split at result
        · exact .inl ⟨_, result.symm⟩
        · rename_i allowed
          split at result
          · exact .inl ⟨_, result.symm⟩
          · rename_i bytes encoded
            split at result
            · exact .inl ⟨_, result.symm⟩
            · rename_i epoch opened accounted
              refine .inr ⟨old, append, bytes, epoch, opened, ⟨loaded, compared, ?_, ?_, encoded,
                accounted⟩, ?_⟩
              · rw [not_and_or] at covered
                rcases covered with same | asked
                · exact .inl (Bool.eq_true_of_not_eq_false same)
                · exact .inr asked
              · rintro named rfl
                simpa using allowed
              · split at result
                · rename_i put
                  rw [← result]
                  exact .refused put
                · rename_i handle put
                  split at result
                  · rename_i failed
                    rw [← result]
                    exact .unretired put failed
                  · rename_i done
                    rw [← result]
                    exact .recorded put done

theorem ContextState.Sound.record {branch : String} {requests : List Request}
    {trigger : Option CutTrigger} (lawful : libraries.cipher.Lawful) (sound : state.Sound libraries)
    (free : state.store.vault.next < u64Max) :
    (recordRequestPrefix libraries state branch requests trigger).2.Sound libraries := by
  rcases recordRequestPrefix_cases libraries state branch requests trigger with
    ⟨error, same⟩ | ⟨old, append, bytes, epoch, opened, ready, concluded⟩
  · rw [same]
    exact sound
  · have openedReady := prefixEpoch_opened sound rfl ready.accounted
    have openedFree : opened.store.vault.next < u64Max := by
      rw [openedReady.store]
      exact free
    have stored := openedReady.sound.put openedFree bytes "request-prefix"
    generalize recordRequestPrefix libraries state branch requests trigger = outcome at concluded ⊢
    cases concluded with
    | refused put => exact stored
    | unretired put failed => exact stored.retire_error failed
    | recorded put done =>
        have listed : opened.requestPrefixes[branch]? = state.requestPrefixes[branch]? := by
          rw [openedReady.prefixes]
        apply stored.replaced listed done (backed_of_put lawful put openedReady.known)
        intro old isPrior
        rcases (sound.prefixes branch old isPrior).opens with ⟨found, readable, _⟩
        rw [← openedReady.store] at readable
        exact ContextStore.handle_ne_of_vaultPut openedReady.sound.store openedFree put readable

end Soundness

section Keys

variable {Request : Type} {libraries : Libraries Request} {state : ContextState}

theorem prefixEpoch_store {prior : Option RequestPrefix} {old : Option (List Request)}
    {requests : List Request} {bytes : Bytes} {trigger : Option CutTrigger} {epoch : Nat}
    {opened : ContextState}
    (done : prefixEpoch libraries state prior old requests bytes trigger = .ok (epoch, opened)) :
    opened.store = state.store ∧ opened.requestPrefixes = state.requestPrefixes := by
  unfold prefixEpoch at done
  split at done
  · split at done
    · cases done
    · split at done
      · cases done
      · cases done
        exact ⟨rfl, rfl⟩
  · split at done
    · cases done
      exact ⟨rfl, rfl⟩
    · split at done
      · cases done
      · cases done
        exact ⟨rfl, rfl⟩

theorem retire_key (branch : String) (prior : Option RequestPrefix) :
    (retire state branch prior).2.store.vault.key = state.store.vault.key := by
  rcases retire_cases state branch prior with ⟨same, _⟩ | ⟨old, _, _, erased⟩
  · rw [same]
  · rw [erased]
    exact ContextStore.vaultErase_key

/-- No step of a session changes the key of its vault. -/
theorem Mutation.apply_key (mutation : Mutation Request) :
    (mutation.apply libraries state).store.vault.key = state.store.vault.key := by
  cases mutation with
  | append bytes => exact congrArg Vault.key (ContextStore.sanitizedAppend_vault bytes)
  | quarantine raw reason => exact ContextStore.vaultPut_key
  | relax rules => rfl
  | extend vocabulary => rfl
  | policy controller => rfl
  | usage epoch input cached armed => rfl
  | resume parent branch =>
      change (resumeRequestPrefix libraries state parent branch).store.vault.key = _
      unfold resumeRequestPrefix
      split
      · rfl
      · split <;> rfl
  | record branch requests trigger =>
      change (recordRequestPrefix libraries state branch requests trigger).2.store.vault.key = _
      rcases recordRequestPrefix_cases libraries state branch requests trigger with
        ⟨error, same⟩ | ⟨old, append, bytes, epoch, opened, ready, concluded⟩
      · rw [same]
      · have sealedKey : (opened.store.vaultPut libraries.cipher bytes
            "request-prefix").2.vault.key = state.store.vault.key := by
          rw [ContextStore.vaultPut_key, (prefixEpoch_store ready.accounted).1]
        generalize recordRequestPrefix libraries state branch requests trigger = outcome
          at concluded ⊢
        cases concluded with
        | refused put => exact sealedKey
        | unretired put failed =>
            have kept := @retire_key
              { opened with
                store := (opened.store.vaultPut libraries.cipher bytes "request-prefix").2 }
              branch state.requestPrefixes[branch]?
            rw [failed] at kept
            exact kept.trans sealedKey
        | recorded put done =>
            have kept := @retire_key
              { opened with
                store := (opened.store.vaultPut libraries.cipher bytes "request-prefix").2 }
              branch state.requestPrefixes[branch]?
            rw [done] at kept
            exact kept.trans sealedKey
  | annotate quiesce detail preserved regionAdmitted kernelChain => rfl

end Keys

section Steps

variable {Request : Type} {libraries : Libraries Request} {state : ContextState}

/-- Every step of a session keeps its state sound. -/
theorem Mutation.apply_sound (lawful : libraries.cipher.Lawful) (sound : state.Sound libraries)
    (mutation : Mutation Request) (roomy : mutation.Roomy state) :
    (mutation.apply libraries state).Sound libraries := by
  cases mutation with
  | append bytes => exact sound.append bytes
  | quarantine raw reason => exact sound.put roomy raw reason
  | relax rules =>
      exact sound.move rfl rfl (sound.filters.updateRules rules) sound.cache (keepsEpochs_refl _)
  | extend vocabulary =>
      exact sound.move rfl rfl (sound.filters.updateVocabulary vocabulary) sound.cache
        (keepsEpochs_refl _)
  | policy controller => exact sound.move rfl rfl sound.filters sound.cache (keepsEpochs_refl _)
  | usage epoch input cached armed =>
      exact sound.move rfl rfl sound.filters sound.cache.observe
        (keepsEpochs_observe _ epoch input cached armed)
  | resume parent branch => exact sound.resume parent branch
  | record branch requests trigger => exact sound.record lawful roomy
  | annotate quiesce detail preserved regionAdmitted kernelChain =>
      exact sound.move rfl rfl sound.filters sound.cache (keepsEpochs_refl _)

end Steps

end Llxprt.Session

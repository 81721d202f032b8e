import Llxprt.Rust.Runs
import Llxprt.Session.Crashes

/-!
# Request prefixes over a session

Every prefix that a branch records extends the last one it recorded, or was cut
with a trigger, and every live payload belongs to some branch.  Both fail when a
branch that has recorded a prefix of its own takes over the prefix of its parent
again.
-/

namespace Llxprt.Session

open Llxprt.Kernel Llxprt.Kernel.Recorded Llxprt.Rust Llxprt.Store Llxprt.Policy

/-- The label of the sealed prefixes. -/
def prefixLabel : String := "request-prefix"

/-- Every live payload of a prefix is named by some branch. -/
def ContextState.Referenced (state : ContextState) : Prop :=
  ∀ number nonce ciphertext,
    state.store.vault.slots[mintedHandle prefixLabel number]? = some (.live nonce ciphertext) →
    ∃ (branch : String) (own : RequestPrefix), state.requestPrefixes[branch]? = some own ∧
      own.handle = mintedHandle prefixLabel number

/-- A session and the lists that its branches recorded last. -/
structure Sending (Request : Type) where
  state : ContextState
  last : String → Option (List Request)

section Steps

variable {Request : Type} (libraries : Libraries Request)

/-- The session before its first call: the last lists are those it has stored. -/
def Sending.start (state : ContextState) : Sending Request where
  state := state
  last branch := state.requestPrefixes[branch]?.bind fun own => (load libraries state own).toOption

/-- A recording that succeeds is the branch's last. -/
def Sending.step (sending : Sending Request) (mutation : Mutation Request) : Sending Request where
  state := mutation.apply libraries sending.state
  last :=
    match mutation with
    | .record branch requests trigger =>
        match (recordRequestPrefix libraries sending.state branch requests trigger).1 with
        | .ok _ => fun other => if other = branch then some requests else sending.last other
        | .error _ => sending.last
    | _ => sending.last

/-- As far as the list can be read back, it has the same length and is written
again with the same bytes. -/
def Reencodes (requests : List Request) : Prop :=
  ∀ bytes loaded, libraries.encodeRequests requests = .ok bytes →
    libraries.decodeRequests bytes = .ok loaded →
    loaded.length = requests.length ∧ libraries.encodeRequests loaded = .ok bytes

/-- The vault has slot numbers left, the label is used by recordings alone, a
recorded list is not changed by reading it back, and a branch takes over its
parent's prefix only before it records one of its own. -/
def Sending.Orderly (sending : Sending Request) (mutation : Mutation Request) : Prop :=
  mutation.Roomy sending.state ∧
    match mutation with
    | .quarantine _ reason => reason ≠ prefixLabel
    | .record _ requests _ => Reencodes libraries requests
    | .resume parent branch =>
        ∀ own inherited, sending.state.requestPrefixes[branch]? = some own →
          sending.state.requestPrefixes[parent]? = some inherited → own.handle = inherited.handle
    | _ => True

/-- The branch has a stored prefix, and whatever it loads is the list, as
serialized. -/
def Stores (state : ContextState) (branch : String) (listed : List Request) : Prop :=
  ∃ own bytes, state.requestPrefixes[branch]? = some own ∧
    state.store.vaultGet libraries.cipher own.handle = .ok bytes ∧
    ∀ loaded, libraries.decodeRequests bytes = .ok loaded →
      loaded.length = listed.length ∧ encode libraries loaded = encode libraries listed

/-- What every orderly call keeps. -/
structure Sending.Faithful (sending : Sending Request) : Prop where
  sound : sending.state.Sound libraries
  referenced : sending.state.Referenced
  stores : ∀ branch listed, sending.last branch = some listed →
    Stores libraries sending.state branch listed

end Steps

section Keeping

variable {Request : Type} {libraries : Libraries Request} {state later : ContextState}

/-- The branch keeps its prefix and the payload behind it. -/
structure KeepsPrefix (libraries : Libraries Request) (state later : ContextState)
    (branch : String) : Prop where
  named : later.requestPrefixes[branch]? = state.requestPrefixes[branch]?
  payload : ∀ own, state.requestPrefixes[branch]? = some own → ∀ bytes,
    state.store.vaultGet libraries.cipher own.handle = .ok bytes →
    later.store.vaultGet libraries.cipher own.handle = .ok bytes

theorem Stores.keep {branch : String} {listed : List Request}
    (stores : Stores libraries state branch listed)
    (keeps : KeepsPrefix libraries state later branch) : Stores libraries later branch listed := by
  rcases stores with ⟨own, bytes, found, readable, rest⟩
  exact ⟨own, bytes, keeps.named.trans found, keeps.payload own found bytes readable, rest⟩

/-- A change that touches neither prefixes nor the vault keeps every branch. -/
theorem keepsPrefix_of_eq {branch : String}
    (prefixes : later.requestPrefixes = state.requestPrefixes)
    (vault : later.store.vault = state.store.vault) : KeepsPrefix libraries state later branch := by
  constructor
  · rw [prefixes]
  · intro own _ bytes readable
    unfold ContextStore.vaultGet at readable ⊢
    rw [vault]
    exact readable

theorem ContextState.Referenced.move (referenced : state.Referenced)
    (prefixes : later.requestPrefixes = state.requestPrefixes)
    (slots : later.store.vault.slots = state.store.vault.slots) : later.Referenced := by
  intro number nonce ciphertext live
  rw [slots] at live
  rw [prefixes]
  exact referenced number nonce ciphertext live

end Keeping

section Recording

variable {Request : Type} {libraries : Libraries Request} {state opened stored retired : ContextState}
  {branch : String} {requests : List Request} {trigger : Option CutTrigger}
  {old : Option (List Request)} {append : Bool} {bytes : Bytes} {epoch : Nat} {handle : String}

/-- A recording in the middle: the new payload is sealed and nothing is lost. -/
structure Sealed (libraries : Libraries Request) (state stored : ContextState) : Prop where
  prefixes : stored.requestPrefixes = state.requestPrefixes
  payload : ∀ handle bytes, state.store.vaultGet libraries.cipher handle = .ok bytes →
    stored.store.vaultGet libraries.cipher handle = .ok bytes

theorem Ready.sealed (ready : Ready libraries state branch requests trigger old append bytes epoch
      opened) (sound : state.Sound libraries) (free : state.store.vault.next < u64Max) :
    Sealed libraries state
      { opened with
        store := (opened.store.vaultPut libraries.cipher bytes "request-prefix").2 } := by
  rcases prefixEpoch_store ready.accounted with ⟨store, prefixes⟩
  constructor
  · exact prefixes
  · intro handle found readable
    rw [store]
    exact ContextStore.vaultGet_vaultPut_other sound.store free readable

/-- The replaced payload could be read, so it is retired without an error. -/
theorem Ready.retires (ready : Ready libraries state branch requests trigger old append bytes epoch
      opened) (sound : state.Sound libraries) (free : state.store.vault.next < u64Max)
    (put : (opened.store.vaultPut libraries.cipher bytes "request-prefix").1 = .ok handle)
    {error : StoreError} :
    retire
      { opened with store := (opened.store.vaultPut libraries.cipher bytes "request-prefix").2 }
      branch state.requestPrefixes[branch]? ≠ (.error error, retired) := by
  intro failed
  have writable : (opened.store.vaultPut libraries.cipher bytes "request-prefix").2.mode.writable =
      true := by
    rw [ContextStore.vaultPut_mode]
    exact ContextStore.writable_of_vaultPut put
  rcases retire_cases
    { opened with store := (opened.store.vaultPut libraries.cipher bytes "request-prefix").2 }
    branch state.requestPrefixes[branch]? with ⟨same, _⟩ | ⟨own, isPrior, _, erased⟩
  · rw [same] at failed
    cases failed
  · rcases (sound.prefixes branch own isPrior).opens with ⟨found, readable, _⟩
    have kept := (ready.sealed sound free).payload own.handle found readable
    rw [erased, (ContextStore.vaultErase_eq_ok writable kept).1] at failed
    cases failed

/-- Retiring keeps the payloads of all other branches. -/
theorem retire_keeps {prior : Option RequestPrefix}
    (done : retire stored branch prior = (.ok (), retired)) :
    retired.requestPrefixes = stored.requestPrefixes ∧
      ∀ other own, other ≠ branch → stored.requestPrefixes[(other : String)]? = some own →
        retired.store.vaultGet libraries.cipher own.handle =
          stored.store.vaultGet libraries.cipher own.handle := by
  rcases retire_cases stored branch prior with ⟨same, _⟩ | ⟨old, _, unshared, erased⟩
  · rw [same] at done
    cases done
    exact ⟨rfl, fun _ _ _ _ => rfl⟩
  · rw [erased] at done
    rcases Prod.mk.inj done with ⟨_, rfl⟩
    refine ⟨rfl, ?_⟩
    intro other own differs found
    exact ContextStore.vaultGet_vaultErase_other (unshared other own found differs)

theorem getElem?_insert_of_ne {prefixes : RequestPrefixes} {other : String} {own : RequestPrefix}
    (differs : other ≠ branch) : (prefixes.insert branch own)[other]? = prefixes[other]? := by
  rw [Std.ExtTreeMap.getElem?_insert, if_neg]
  intro equal
  exact differs (Std.LawfulEqOrd.compare_eq_iff_eq.mp equal).symm

/-- A recording keeps the prefixes of the other branches, and its own when it
fails. -/
theorem recordRequestPrefix_keeps (sound : state.Sound libraries)
    (free : state.store.vault.next < u64Max) {other : String}
    (kept : other ≠ branch ∨
      ∀ epoch, (recordRequestPrefix libraries state branch requests trigger).1 ≠ .ok epoch) :
    KeepsPrefix libraries state (recordRequestPrefix libraries state branch requests trigger).2
      other := by
  rcases recordRequestPrefix_cases libraries state branch requests trigger with
    ⟨error, same⟩ | ⟨old, append, bytes, epoch, opened, ready, concluded⟩
  · rw [same]
    exact ⟨rfl, fun _ _ _ readable => readable⟩
  · have ofSeal := ready.sealed sound free
    have store := (prefixEpoch_store ready.accounted).1
    generalize recordRequestPrefix libraries state branch requests trigger = outcome
      at concluded kept ⊢
    cases concluded with
    | refused put =>
        constructor
        · rw [show opened.requestPrefixes = state.requestPrefixes from ofSeal.prefixes]
        · exact fun own _ found readable => ofSeal.payload own.handle found readable
    | unretired put failed => exact absurd failed (ready.retires sound free put)
    | @recorded handle retired put done =>
        have differs : other ≠ branch := by
          rcases kept with differs | failed
          · exact differs
          · exact absurd rfl (failed epoch)
        rcases @retire_keeps _ libraries _ _ _ _ done with ⟨prefixes, payloads⟩
        have listed : retired.requestPrefixes = state.requestPrefixes :=
          prefixes.trans ofSeal.prefixes
        constructor
        · rw [listed]
          exact getElem?_insert_of_ne differs
        · intro own found payload readable
          rw [← ofSeal.prefixes] at found
          exact (payloads other own differs found).trans
            (ofSeal.payload own.handle payload readable)

/-- A recording that succeeds stores its list. -/
theorem recordRequestPrefix_stores (lawful : libraries.cipher.Lawful)
    (reencodes : Reencodes libraries requests) (sound : state.Sound libraries)
    (free : state.store.vault.next < u64Max) {epoch : Nat}
    (success : (recordRequestPrefix libraries state branch requests trigger).1 = .ok epoch) :
    Stores libraries (recordRequestPrefix libraries state branch requests trigger).2 branch
      requests := by
  rcases recordRequestPrefix_cases libraries state branch requests trigger with
    ⟨error, same⟩ | ⟨old, append, bytes, epoch, opened, ready, concluded⟩
  · rw [same] at success
    cases success
  · have store := (prefixEpoch_store ready.accounted).1
    have same : ∀ loaded, libraries.decodeRequests bytes = .ok loaded →
        loaded.length = requests.length ∧
          encode libraries loaded = encode libraries requests := by
      intro loaded decoded
      rcases reencodes bytes loaded (encode_eq_ok_iff.mp ready.encoded) decoded with
        ⟨length, again⟩
      rw [ready.encoded]
      exact ⟨length, encode_eq_ok_iff.mpr again⟩
    generalize recordRequestPrefix libraries state branch requests trigger = outcome
      at concluded success ⊢
    cases concluded with
    | refused put => cases success
    | unretired put failed => cases success
    | @recorded handle retired put done =>
        have readable : retired.store.vaultGet libraries.cipher handle = .ok bytes := by
          have sealedPayload := ContextStore.vaultGet_vaultPut lawful put
          rcases retire_cases _ branch state.requestPrefixes[branch]? with
            ⟨unchanged, _⟩ | ⟨own, isPrior, _, erased⟩
          · rw [unchanged] at done
            cases done
            exact sealedPayload
          · rw [erased] at done
            rcases Prod.mk.inj done with ⟨_, rfl⟩
            rcases (sound.prefixes branch own isPrior).opens with ⟨found, wasReadable, _⟩
            rw [← store] at wasReadable
            have distinct := ContextStore.handle_ne_of_vaultPut (store ▸ sound.store)
              (store ▸ free) put wasReadable
            exact (ContextStore.vaultGet_vaultErase_other distinct).trans sealedPayload
        exact ⟨_, bytes, Std.ExtTreeMap.getElem?_insert_self, readable, same⟩

/-- A payload that is live after a put was live before, or was just put. -/
theorem live_of_put
    (put : (opened.store.vaultPut libraries.cipher bytes "request-prefix").1 = .ok handle)
    (store : opened.store = state.store) (named : String) (nonce ciphertext : Bytes)
    (live : (opened.store.vaultPut libraries.cipher bytes
      "request-prefix").2.vault.slots[named]? = some (.live nonce ciphertext)) :
    handle = named ∨ state.store.vault.slots[named]? = some (.live nonce ciphertext) := by
  rw [← store]
  rcases @ContextStore.vaultPut_slots libraries.cipher opened.store bytes "request-prefix"
    with kept | ⟨_, _, accepted, grown⟩
  · rw [kept] at live
    exact .inr live
  · rw [grown, Std.ExtTreeMap.getElem?_insert] at live
    split at live
    · rename_i equal
      cases accepted.symm.trans put
      exact .inl (Std.LawfulEqOrd.compare_eq_iff_eq.mp equal)
    · exact .inr live

/-- Every live payload stays referenced by a recording. -/
theorem recordRequestPrefix_referenced (sound : state.Sound libraries)
    (free : state.store.vault.next < u64Max) (referenced : state.Referenced) :
    (recordRequestPrefix libraries state branch requests trigger).2.Referenced := by
  rcases recordRequestPrefix_cases libraries state branch requests trigger with
    ⟨error, same⟩ | ⟨old, append, bytes, epoch, opened, ready, concluded⟩
  · rw [same]
    exact referenced
  · rcases prefixEpoch_store ready.accounted with ⟨store, prefixes⟩
    generalize recordRequestPrefix libraries state branch requests trigger = outcome
      at concluded ⊢
    cases concluded with
    | refused put =>
        have slots : (opened.store.vaultPut libraries.cipher bytes "request-prefix").2.vault.slots =
            state.store.vault.slots := by
          rcases @ContextStore.vaultPut_slots libraries.cipher opened.store bytes "request-prefix"
            with kept | ⟨_, _, accepted, _⟩
          · rw [kept, store]
          · cases accepted.symm.trans put
        exact fun number nonce ciphertext live =>
          prefixes ▸ referenced number nonce ciphertext (slots ▸ live)
    | unretired put failed => exact absurd failed (ready.retires sound free put)
    | @recorded handle retired put done =>
        intro number nonce ciphertext live
        have added : ∀ other own, other ≠ branch → state.requestPrefixes[other]? = some own →
            retired.requestPrefixes = state.requestPrefixes →
            (retired.requestPrefixes.insert branch
              ⟨epoch, handle, Sha256.digest bytes, requests.length⟩)[other]? = some own := by
          intro other own differs found listed
          rw [getElem?_insert_of_ne differs, listed]
          exact found
        have origin := live_of_put put store
        rcases retire_cases _ branch state.requestPrefixes[branch]? with
          ⟨unchanged, shared⟩ | ⟨prior, isPrior, _, erased⟩
        · rw [unchanged] at done
          cases done
          rcases origin _ _ _ live with rfl | before
          · exact ⟨branch, _, Std.ExtTreeMap.getElem?_insert_self, rfl⟩
          · rcases referenced number nonce ciphertext before with ⟨holder, own, found, named⟩
            by_cases isOwn : holder = branch
            · rw [isOwn] at found
              rcases shared own found with ⟨other, recorded, differs, listed, same⟩
              rw [prefixes] at listed
              exact ⟨other, recorded, added other recorded differs listed prefixes,
                same.trans named⟩
            · exact ⟨holder, own, added holder own isOwn found prefixes, named⟩
        · rw [erased] at done
          rcases Prod.mk.inj done with ⟨_, rfl⟩
          rcases (sound.prefixes branch prior isPrior).opens with ⟨payload, readable, _⟩
          have writable :
              (opened.store.vaultPut libraries.cipher bytes "request-prefix").2.mode.writable =
                true := by
            rw [ContextStore.vaultPut_mode]
            exact ContextStore.writable_of_vaultPut put
          have slots := (ContextStore.vaultErase_eq_ok writable
            ((ready.sealed sound free).payload prior.handle payload readable)).2
          rw [slots, Std.ExtTreeMap.getElem?_insert] at live
          split at live
          · cases live
          · rename_i distinct
            rcases origin _ _ _ live with rfl | before
            · exact ⟨branch, _, Std.ExtTreeMap.getElem?_insert_self, rfl⟩
            · rcases referenced number nonce ciphertext before with ⟨holder, own, found, named⟩
              have isOther : holder ≠ branch := by
                rintro rfl
                cases isPrior.symm.trans found
                exact distinct (Std.LawfulEqOrd.compare_eq_iff_eq.mpr named)
              exact ⟨holder, own, added holder own isOther found prefixes, named⟩

end Recording

section Sessions

variable {Request : Type} {libraries : Libraries Request} {sending : Sending Request}
  {state : ContextState}

theorem resumeRequestPrefix_keeps {parent branch other : String} (differs : other ≠ branch) :
    KeepsPrefix libraries state (resumeRequestPrefix libraries state parent branch) other := by
  unfold resumeRequestPrefix
  split
  · exact ⟨rfl, fun _ _ _ readable => readable⟩
  · split
    · exact ⟨rfl, fun _ _ _ readable => readable⟩
    · exact ⟨getElem?_insert_of_ne differs, fun _ _ _ readable => readable⟩

/-- Taking over a prefix with the same payload changes no list. -/
theorem Stores.resume {parent branch : String} {listed : List Request}
    (stores : Stores libraries state branch listed)
    (orderly : ∀ own inherited, state.requestPrefixes[branch]? = some own →
      state.requestPrefixes[parent]? = some inherited → own.handle = inherited.handle) :
    Stores libraries (resumeRequestPrefix libraries state parent branch) branch listed := by
  unfold resumeRequestPrefix
  split
  · exact stores
  · rename_i inherited inheritedFound
    split
    · exact stores
    · rcases stores with ⟨own, bytes, found, readable, same⟩
      have shared := orderly own inherited found inheritedFound
      exact ⟨inherited, bytes, Std.ExtTreeMap.getElem?_insert_self, shared ▸ readable, same⟩

theorem ContextState.Referenced.resume {parent branch : String} (referenced : state.Referenced)
    (orderly : ∀ own inherited, state.requestPrefixes[branch]? = some own →
      state.requestPrefixes[parent]? = some inherited → own.handle = inherited.handle) :
    (resumeRequestPrefix libraries state parent branch).Referenced := by
  unfold resumeRequestPrefix
  split
  · exact referenced
  · rename_i inherited inheritedFound
    split
    · exact referenced
    · intro number nonce ciphertext live
      rcases referenced number nonce ciphertext live with ⟨holder, own, found, named⟩
      by_cases isOwn : holder = branch
      · rw [isOwn] at found
        exact ⟨branch, inherited, Std.ExtTreeMap.getElem?_insert_self,
          (orderly own inherited found inheritedFound).symm.trans named⟩
      · exact ⟨holder, own, (getElem?_insert_of_ne isOwn).trans found, named⟩

theorem ContextState.Referenced.quarantine {raw : Bytes} {reason : String}
    (referenced : state.Referenced) (otherLabel : reason ≠ prefixLabel) :
    ({ state with store := (state.store.vaultPut libraries.cipher raw reason).2 } :
      ContextState).Referenced := by
  intro number nonce ciphertext live
  refine referenced number nonce ciphertext ?_
  rcases @ContextStore.vaultPut_slots libraries.cipher state.store raw reason with
    kept | ⟨_, _, _, grown⟩
  · exact kept ▸ live
  · have grown : (state.store.vaultPut libraries.cipher raw reason).2.vault.slots = _ := grown
    rw [grown, Std.ExtTreeMap.getElem?_insert, if_neg] at live
    · exact live
    · intro equal
      exact otherLabel
        (Vault.reason_of_mintedHandle (Std.LawfulEqOrd.compare_eq_iff_eq.mp equal))

/-- An orderly call keeps the session faithful. -/
theorem Sending.Faithful.step (lawful : libraries.cipher.Lawful)
    (faithful : sending.Faithful libraries) (mutation : Mutation Request)
    (orderly : sending.Orderly libraries mutation) :
    (sending.step libraries mutation).Faithful libraries := by
  have sound := mutation.apply_sound lawful faithful.sound orderly.1
  -- every mutation but a recording and a resumption keeps all prefixes
  have unmoved : (∀ branch, KeepsPrefix libraries sending.state
      (mutation.apply libraries sending.state) branch) →
      (mutation.apply libraries sending.state).Referenced →
      (sending.step libraries mutation).last = sending.last →
      (sending.step libraries mutation).Faithful libraries := by
    intro keeps referenced same
    refine ⟨sound, referenced, ?_⟩
    intro branch listed found
    rw [same] at found
    exact (faithful.stores branch listed found).keep (keeps branch)
  cases mutation with
  | append bytes =>
      have vault := @ContextStore.sanitizedAppend_vault sending.state.store bytes
      exact unmoved (fun _ => keepsPrefix_of_eq rfl vault)
        (faithful.referenced.move rfl (congrArg Vault.slots vault)) rfl
  | quarantine raw reason =>
      refine unmoved ?_ (faithful.referenced.quarantine orderly.2) rfl
      exact fun _ => ⟨rfl, fun own _ bytes readable =>
        ContextStore.vaultGet_vaultPut_other faithful.sound.store orderly.1 readable⟩
  | relax rules | extend vocabulary | policy controller | usage epoch input cached armed
  | annotate quiesce detail preserved regionAdmitted kernelChain =>
      exact unmoved (fun _ => keepsPrefix_of_eq rfl rfl) (faithful.referenced.move rfl rfl) rfl
  | resume parent branch =>
      refine ⟨sound, faithful.referenced.resume orderly.2, ?_⟩
      intro other listed found
      have stores := faithful.stores other listed found
      by_cases isOwn : other = branch
      · rw [isOwn] at stores ⊢
        exact stores.resume orderly.2
      · exact stores.keep (resumeRequestPrefix_keeps isOwn)
  | record branch requests trigger =>
      refine ⟨sound, recordRequestPrefix_referenced faithful.sound orderly.1 faithful.referenced, ?_⟩
      intro other listed found
      simp only [Sending.step] at found
      cases outcome : (recordRequestPrefix libraries sending.state branch requests trigger).1 with
      | error error =>
          rw [outcome] at found
          refine (faithful.stores other listed found).keep
            (recordRequestPrefix_keeps faithful.sound orderly.1 (.inr ?_))
          intro epoch succeeded
          cases outcome.symm.trans succeeded
      | ok epoch =>
          rw [outcome] at found
          simp only at found
          split at found
          · rename_i isOwn
            cases found
            rw [isOwn]
            exact recordRequestPrefix_stores lawful orderly.2 faithful.sound orderly.1 outcome
          · rename_i differs
            exact (faithful.stores other listed found).keep
              (recordRequestPrefix_keeps faithful.sound orderly.1 (.inl differs))

theorem isAppend_congr {listed loaded requests : List Request}
    (length : loaded.length = listed.length)
    (same : encode libraries loaded = encode libraries listed) :
    isAppend libraries (some loaded) requests = isAppend libraries (some listed) requests := by
  unfold isAppend
  simp only [length, same]

/-- A recording that succeeds extends the branch's last list, or was cut with a
trigger that the policy allowed. -/
theorem Sending.Faithful.extends (faithful : sending.Faithful libraries) {branch : String}
    {requests : List Request} {trigger : Option CutTrigger} {epoch : Nat}
    (success : (recordRequestPrefix libraries sending.state branch requests trigger).1 =
      .ok epoch) :
    (∀ listed, sending.last branch = some listed →
        isAppend libraries (some listed) requests = .ok true) ∨
      ∃ named, trigger = some named ∧ sending.state.policy.checkpointAllowed named = true := by
  rcases recordRequestPrefix_cases libraries sending.state branch requests trigger with
    ⟨error, same⟩ | ⟨old, append, bytes, epoch, opened, ready, _⟩
  · rw [same] at success
    cases success
  · rcases ready.covered with appended | cut
    · left
      intro listed found
      rcases faithful.stores branch listed found with ⟨own, bytes, named, readable, same⟩
      have prior := ready.loaded
      rw [named, loadPrior] at prior
      cases loads : load libraries sending.state own with
      | error error =>
          rw [loads] at prior
          cases prior
      | ok loaded =>
          rw [loads] at prior
          cases prior
          rcases load_eq_ok_iff.mp loads with ⟨others, readableToo, _, decoded, _⟩
          cases readable.symm.trans readableToo
          rcases same loaded decoded with ⟨length, sameBytes⟩
          rw [← isAppend_congr length sameBytes, ← appended]
          exact ready.compared
    · right
      rcases Option.ne_none_iff_exists'.mp cut with ⟨named, rfl⟩
      exact ⟨named, rfl, ready.allowed named rfl⟩

theorem faithful_start (sound : state.Sound libraries) (referenced : state.Referenced) :
    (Sending.start libraries state).Faithful libraries := by
  refine ⟨sound, referenced, ?_⟩
  intro branch listed found
  rcases Option.bind_eq_some_iff.mp found with ⟨own, named, loads⟩
  cases outcome : load libraries state own with
  | error error =>
      rw [outcome] at loads
      cases loads
  | ok loaded =>
      rw [outcome] at loads
      cases loads
      rcases load_eq_ok_iff.mp outcome with ⟨bytes, readable, _, decoded, _⟩
      refine ⟨own, bytes, named, readable, ?_⟩
      intro again decodedAgain
      cases decoded.symm.trans decodedAgain
      exact ⟨rfl, rfl⟩

/-- While no branch takes over a prefix after it recorded its own, every list
that a branch records extends its last one or was cut, and every live payload
belongs to a branch. -/
theorem prefixes_grow_or_cut (lawful : libraries.cipher.Lawful)
    (sound : state.Sound libraries) (referenced : state.Referenced)
    {calls : List (Mutation Request)}
    (orderly : ∀ before call, before ++ [call] <+: calls →
      (run (Sending.step libraries) (.start libraries state) before).Orderly libraries call) :
    (∀ before branch requests trigger epoch, before ++ [.record branch requests trigger] <+: calls →
      (recordRequestPrefix libraries
        (run (Sending.step libraries) (.start libraries state) before).state branch requests
        trigger).1 = .ok epoch →
      (∀ listed,
          (run (Sending.step libraries) (.start libraries state) before).last branch =
            some listed →
          isAppend libraries (some listed) requests = .ok true) ∨
        ∃ named, trigger = some named ∧
          (run (Sending.step libraries) (.start libraries
            state) before).state.policy.checkpointAllowed named = true) ∧
    ∀ reached, reached <+: calls →
      (run (Sending.step libraries) (.start libraries state) reached).state.Referenced := by
  have faithful := run_invariant (Sending.Faithful libraries) (faithful_start sound referenced)
    (fun before call member holds => holds.step lawful call (orderly before call member))
  constructor
  · intro before branch requests trigger epoch member success
    exact (faithful before ((List.prefix_append _ _).trans member)).extends success
  · intro reached isPrefix
    exact (faithful reached isPrefix).referenced

end Sessions

section Samples

/-- Requests of one byte, written as they are. -/
def byteLibraries : Libraries UInt8 where
  cipher := ⟨fun _ _ _ message => some (message ++ List.replicate 16 0),
    fun _ _ _ ciphertext => some (ciphertext.take (ciphertext.length - 16))⟩
  encodeRequests requests := .ok requests
  decodeRequests bytes := .ok bytes
  parseValue _ := .error "expected value"
  decodeVault _ := .error "expected value"
  decodeEpochs _ := .error "expected value"
  decodePrefixes _ := .error "expected value"
  decodeManifest _ := .error "expected value"

def quietState : ContextState :=
  newContextState (List.replicate 32 0) 0

/-- A turn and its successor, which takes over the prefix and extends it. -/
def twoTurns : List (Mutation UInt8) :=
  [.record "first" [1] none, .resume "first" "second", .record "second" [1, 2] none]

theorem byteLibraries_lawful : byteLibraries.cipher.Lawful := by
  intro key nonce associated message ciphertext encrypted
  rw [← Option.some.inj encrypted]
  simp [byteLibraries]

theorem byteLibraries_reencodes (requests : List UInt8) : Reencodes byteLibraries requests := by
  intro bytes loaded encoded decoded
  cases encoded
  cases decoded
  exact ⟨rfl, rfl⟩

theorem prefixes_grow_two_turns :
    (run (Sending.step byteLibraries) (.start byteLibraries quietState) twoTurns).state.Referenced := by
  have referenced : quietState.Referenced := by
    intro number nonce ciphertext live
    simp [quietState, newContextState, ContextStore.openWith, Vault.openWithPrefix] at live
  have sound : quietState.Sound byteLibraries := sound_newContextState _ _
  let recorded := Sending.step byteLibraries (.start byteLibraries quietState)
    (.record "first" [1] none)
  have facts : recorded.state.requestPrefixes["second"]? = none ∧
      (recorded.step byteLibraries (.resume "first" "second")).state.store.vault.next < u64Max := by
    decide +kernel
  have begins : (Sending.start byteLibraries quietState).Orderly byteLibraries
      (.record "first" [1] none) :=
    ⟨(by decide : quietState.store.vault.next < u64Max), byteLibraries_reencodes [1]⟩
  have resumes : recorded.Orderly byteLibraries (.resume "first" "second") := by
    refine ⟨trivial, ?_⟩
    intro own inherited found
    cases facts.1.symm.trans found
  have continues : (recorded.step byteLibraries (.resume "first" "second")).Orderly byteLibraries
      (.record "second" [1, 2] none) := ⟨facts.2, byteLibraries_reencodes [1, 2]⟩
  exact (prefixes_grow_or_cut byteLibraries_lawful sound referenced
    (forall_steps_cons begins (forall_steps_cons resumes (forall_steps_cons continues
      forall_steps_nil)))).2 twoTurns List.prefix_rfl

/-- The second turn is taken over by a new owner, who resumes it again. -/
def reclaimedTurn : Sending UInt8 :=
  run (Sending.step byteLibraries) (.start byteLibraries quietState)
    (twoTurns ++ [.resume "first" "second"])

/-- The branch then records a list that does not extend its last one, without a
trigger, and the payload of that last list belongs to no branch. -/
theorem reclaimed_turn_diverges :
    reclaimedTurn.last "second" = some [1, 2] ∧
      isAppend byteLibraries (some [1, 2]) [1, 3] = .ok false ∧
      (recordRequestPrefix byteLibraries reclaimedTurn.state "second" [1, 3] none).1 = .ok 0 ∧
      ¬ reclaimedTurn.state.Referenced := by
  have facts : reclaimedTurn.last "second" = some [1, 2] ∧
      isAppend byteLibraries (some [1, 2]) [1, 3] = .ok false ∧
      (recordRequestPrefix byteLibraries reclaimedTurn.state "second" [1, 3] none).1 = .ok 0 := by
    decide +kernel
  refine ⟨facts.1, facts.2.1, facts.2.2, ?_⟩
  intro referenced
  have live : reclaimedTurn.state.store.vault.slots[mintedHandle prefixLabel 1]? =
      some (.live (List.replicate 4 0 ++ 1 :: List.replicate 7 0)
        ([1, 2] ++ List.replicate 16 0)) := by
    decide +kernel
  have unnamed : reclaimedTurn.state.requestPrefixes.toList.all
      (fun entry => entry.2.handle ≠ mintedHandle prefixLabel 1) = true := by
    decide +kernel
  rcases referenced 1 _ _ live with ⟨branch, own, found, named⟩
  have listed := List.all_eq_true.mp unnamed (branch, own)
    (Std.ExtTreeMap.mem_toList_iff_getElem?_eq_some.mpr found)
  exact of_decide_eq_true listed named

end Samples

end Llxprt.Session

import Llxprt.Ingress.Redaction
import Llxprt.Ingress.Transaction

/-!
# Laundering of quarantined bytes

A transaction keeps the digests of the tokens of its payloads, and of every payload in
the vault.  An artifact is refused when one of its own tokens has such a digest: what
the guard sees is whole tokens, not the spans that the redactor detects.
-/

namespace Llxprt.Ingress

open Llxprt.Kernel Llxprt.Rust Llxprt.Store

section Guard

/-- What the guard reads of a record. -/
structure QuarantineRecord where
  vault : Option Digest
  secretDigests : List Digest

/-- What a transaction with these detectors records of a payload. -/
def quarantineRecord (listed : List Detector) (raw : Bytes) : QuarantineRecord where
  vault :=
    match redactWith raw listed raw [] with
    | .sanitized _ _ => none
    | .vaulted _ _ => some (digest raw)
  secretDigests := secretTokenDigests raw

def QuarantineRecord.digests (record : QuarantineRecord) : List Digest :=
  record.vault.toList ++ record.secretDigests

/-- `QuarantineSet::from_records`. -/
def quarantineSet (records : List QuarantineRecord) : List Digest :=
  records.flatMap QuarantineRecord.digests

inductive LaunderVerdict where
  | clean
  | laundered (secretDigest : Digest)
  deriving DecidableEq

/-- `QuarantineSet::check`. -/
def check (digests : List Digest) (artifact : Bytes) : LaunderVerdict :=
  match (tokens artifact).find? fun token => digests.contains (digest token) with
  | some token => .laundered (digest token)
  | none => .clean

end Guard

section Exactness

variable {listed : List Detector} {payloads : List Bytes} {artifact raw : Bytes}

/-- The bytes of a payload that the redactor overwrites. -/
def detectedSpans (listed : List Detector) (raw : Bytes) : List Bytes :=
  match redactWith raw listed raw [] with
  | .sanitized _ redactions =>
      redactions.map fun found => (raw.drop found.span.start).take (found.span.stop - found.span.start)
  | .vaulted _ _ => []

/-- The payload went to the vault. -/
def Vaulted (listed : List Detector) (raw : Bytes) : Prop :=
  (quarantineRecord listed raw).vault ≠ none

/-- The artifact has a detected span or a whole payload of the vault in it. -/
def Copied (listed : List Detector) (payloads : List Bytes) (artifact : Bytes) : Prop :=
  ∃ raw ∈ payloads, (∃ secret ∈ detectedSpans listed raw, secret <:+: artifact) ∨
    (Vaulted listed raw ∧ raw <:+: artifact)

/-- Nothing was detected and nothing went to the vault. -/
def Harmless (listed : List Detector) (payloads : List Bytes) : Prop :=
  ∀ raw ∈ payloads, detectedSpans listed raw = [] ∧ ¬ Vaulted listed raw

/-- The byte strings whose digests are in the set. -/
def quarantined (listed : List Detector) (payloads : List Bytes) : List Bytes :=
  payloads.flatMap fun raw =>
    (if (quarantineRecord listed raw).vault = none then [] else [raw]) ++ secretTokens raw

/-- A token of the artifact is among them. -/
def SharesToken (listed : List Detector) (payloads : List Bytes) (artifact : Bytes) : Prop :=
  ∃ token ∈ tokens artifact, token ∈ quarantined listed payloads

/-- Different strings among the tokens of the artifact and the quarantined ones have
different digests. -/
def NoCollision (listed : List Detector) (payloads : List Bytes) (artifact : Bytes) : Prop :=
  ∀ token ∈ tokens artifact, ∀ secret ∈ quarantined listed payloads,
    digest token = digest secret → token = secret

/-- The guard refuses what is copied, and nothing when there was nothing to hide. -/
structure GuardExact (listed : List Detector) (payloads : List Bytes) (artifact : Bytes) :
    Prop where
  laundered : Copied listed payloads artifact → ∃ secretDigest,
    check (quarantineSet (payloads.map (quarantineRecord listed))) artifact =
      .laundered secretDigest
  clean : Harmless listed payloads →
    check (quarantineSet (payloads.map (quarantineRecord listed))) artifact = .clean

theorem quarantineSet_eq (listed : List Detector) (payloads : List Bytes) :
    quarantineSet (payloads.map (quarantineRecord listed)) =
      (quarantined listed payloads).map digest := by
  induction payloads with
  | nil => rfl
  | cons raw payloads ih =>
      have one : (quarantineRecord listed raw).digests =
          ((if (quarantineRecord listed raw).vault = none then [] else [raw]) ++
            secretTokens raw).map digest := by
        rw [QuarantineRecord.digests, List.map_append]
        congr 1
        rw [quarantineRecord]
        cases redactWith raw listed raw [] with
        | sanitized bytes redactions => rfl
        | vaulted reason byteLen => rfl
      have rest : quarantined listed (raw :: payloads) =
          ((if (quarantineRecord listed raw).vault = none then [] else [raw]) ++
            secretTokens raw) ++ quarantined listed payloads := List.flatMap_cons
      rw [quarantineSet, List.map_cons, List.flatMap_cons, ← quarantineSet, ih, one, rest,
        ← List.map_append]

theorem check_cases (digests : List Digest) (artifact : Bytes) :
    (check digests artifact = .clean ∧ ∀ token ∈ tokens artifact, digest token ∉ digests) ∨
    ∃ token ∈ tokens artifact, digest token ∈ digests ∧
      check digests artifact = .laundered (digest token) := by
  rw [check]
  cases found : (tokens artifact).find? fun token => digests.contains (digest token) with
  | none =>
      apply Or.inl
      constructor
      · rfl
      · intro token member listed
        rw [List.find?_eq_none] at found
        exact found token member (List.contains_iff_mem.mpr listed)
  | some token =>
      apply Or.inr
      have known := List.find?_some found
      exact ⟨token, List.mem_of_find?_eq_some found, List.contains_iff_mem.mp known, rfl⟩

/-- Without collisions the guard refuses the artifact just when it shares a token. -/
theorem check_iff (apart : NoCollision listed payloads artifact) :
    ((∃ secretDigest, check (quarantineSet (payloads.map (quarantineRecord listed))) artifact =
      .laundered secretDigest) ↔ SharesToken listed payloads artifact) ∧
    (check (quarantineSet (payloads.map (quarantineRecord listed))) artifact = .clean ↔
      ¬ SharesToken listed payloads artifact) := by
  rw [quarantineSet_eq]
  have shares : ∀ token ∈ tokens artifact, digest token ∈ (quarantined listed payloads).map digest →
      SharesToken listed payloads artifact := by
    intro token member digested
    rcases List.mem_map.mp digested with ⟨secret, known, same⟩
    rw [← apart token member secret known same.symm] at known
    exact ⟨token, member, known⟩
  rcases check_cases ((quarantined listed payloads).map digest) artifact with
    ⟨clean, absent⟩ | ⟨token, member, digested, laundered⟩
  · have none : ¬ SharesToken listed payloads artifact := by
      rintro ⟨token, member, known⟩
      exact absent token member (List.mem_map_of_mem known)
    rw [clean]
    refine ⟨⟨?_, fun shared => absurd shared none⟩, fun _ => none, fun _ => rfl⟩
    rintro ⟨_, ⟨⟩⟩
  · have shared := shares token member digested
    rw [laundered]
    refine ⟨⟨fun _ => shared, fun _ => ⟨_, rfl⟩⟩, nofun, fun none => absurd shared none⟩

end Exactness

section Transactions

variable {cipher : Cipher} {txn : IngressTxn} {store later : ContextStore}

/-- What the guard reads of the records of a transaction. -/
def quarantineRecords (records : List IngressRecord) : List QuarantineRecord :=
  records.map fun record =>
    ⟨record.vault.map VaultReference.contentDigest, record.secretDigests⟩

theorem quarantineRecord_of_transactOne {slot : CaptureSlot} {validated : ValidatedSlot}
    {record : IngressRecord} (accepted : txn.validateSlot slot.bytes = .ok validated)
    (done : IngressTxn.transactOne cipher store slot validated = (.ok record, later)) :
    (⟨record.vault.map VaultReference.contentDigest, record.secretDigests⟩ : QuarantineRecord) =
      quarantineRecord (detectors txn.workBudget) slot.bytes := by
  rw [IngressTxn.validateSlot, redact] at accepted
  rw [quarantineRecord]
  cases outcome : redactWith slot.bytes (detectors txn.workBudget) slot.bytes [] with
  | sanitized bytes redactions =>
      rw [outcome] at accepted
      dsimp only at accepted
      split at accepted
      · cases accepted
      · cases accepted
        rw [IngressTxn.transactOne] at done
        split at done
        · cases done
        · cases done
          rfl
  | vaulted reason byteLen =>
      rw [outcome] at accepted
      dsimp only at accepted
      split at accepted
      · cases accepted
      · cases accepted
        rw [IngressTxn.transactOne] at done
        split at done
        · cases done
        · split at done
          · cases done
          · cases done
            rfl

theorem quarantineRecords_of_transactAll {slots : List CaptureSlot}
    {validated : List ValidatedSlot} {records : List IngressRecord}
    (accepted : txn.validateSlots slots = .ok validated)
    (done : IngressTxn.transactAll cipher store (slots.zip validated) = (.ok records, later)) :
    quarantineRecords records =
      slots.map fun slot => quarantineRecord (detectors txn.workBudget) slot.bytes := by
  induction slots generalizing validated records store with
  | nil =>
      cases done
      rfl
  | cons slot slots ih =>
      simp only [IngressTxn.validateSlots, bind_eq_ok, pure_eq_ok] at accepted
      rcases accepted with ⟨first, valid, others, rest, rfl⟩
      rw [List.zip_cons_cons, IngressTxn.transactAll] at done
      split at done
      · cases done
      · rename_i record between stored
        split at done
        · cases done
        · rename_i more after continued
          cases done
          have here := quarantineRecord_of_transactOne valid stored
          have later := ih rest continued
          rw [quarantineRecords, List.map_cons, ← quarantineRecords, later, here, List.map_cons]

/-- The records of a committed transaction are those of its payloads. -/
theorem quarantineRecords_of_commit {records : List IngressRecord}
    (committed : txn.commit cipher store = (.ok records, later)) :
    quarantineRecords records =
      txn.slots.map fun slot => quarantineRecord (detectors txn.workBudget) slot.bytes := by
  rw [IngressTxn.commit] at committed
  split at committed
  · cases committed
  · split at committed
    · cases committed
    · rename_i validated accepted
      split at committed
      · cases committed
      · rename_i found between done
        split at committed
        · cases committed
        · cases committed
          exact quarantineRecords_of_transactAll accepted done

end Transactions

section Claims

variable {listed : List Detector} {payloads : List Bytes} {artifact : Bytes}

/-- The guard is exact just when copied spans and payloads of the vault share a whole
token with what is quarantined, and nothing harmless does. -/
theorem guardExact_iff (apart : NoCollision listed payloads artifact) :
    (GuardExact listed payloads artifact ↔
      (Copied listed payloads artifact → SharesToken listed payloads artifact) ∧
      (Harmless listed payloads → ¬ SharesToken listed payloads artifact)) ∧
    ∀ (cipher : Cipher) (txn : IngressTxn) (store later : ContextStore)
      (records : List IngressRecord), txn.commit cipher store = (.ok records, later) →
      quarantineRecords records =
        (txn.slots.map CaptureSlot.bytes).map (quarantineRecord (detectors txn.workBudget)) := by
  rcases check_iff apart with ⟨laundered, clean⟩
  constructor
  · constructor
    · rintro ⟨refuses, passes⟩
      exact ⟨fun copied => laundered.mp (refuses copied), fun harmless => clean.mp (passes harmless)⟩
    · rintro ⟨shared, apart⟩
      exact ⟨fun copied => laundered.mpr (shared copied),
        fun harmless => clean.mpr (apart harmless)⟩
  · intro cipher txn store later records committed
    rw [quarantineRecords_of_commit committed, List.map_map]
    rfl

/-- A token that is a detected span as a whole is refused, so the guard is exact. -/
theorem guardExact_wholeToken :
    GuardExact (detectors 64) [utf8 "key CTXEVAL-SECRET-1 end"] (utf8 "CTXEVAL-SECRET-1") := by
  have apart : NoCollision (detectors 64) [utf8 "key CTXEVAL-SECRET-1 end"]
      (utf8 "CTXEVAL-SECRET-1") := by
    unfold NoCollision
    decide +kernel
  have shared : SharesToken (detectors 64) [utf8 "key CTXEVAL-SECRET-1 end"]
      (utf8 "CTXEVAL-SECRET-1") := by
    unfold SharesToken
    decide +kernel
  have detected : detectedSpans (detectors 64) (utf8 "key CTXEVAL-SECRET-1 end") ≠ [] := by
    decide +kernel
  apply (guardExact_iff apart).1.mpr
  refine ⟨fun _ => shared, ?_⟩
  intro harmless
  exact absurd (harmless _ List.mem_cons_self).1 detected

/-- A detected span within a longer token is copied out unseen. -/
theorem guard_misses_innerSpan :
    ¬ ∀ (listed : List Detector) (payloads : List Bytes) (artifact : Bytes),
      NoCollision listed payloads artifact → GuardExact listed payloads artifact := by
  intro always
  have exact_ := always (detectors 64) [utf8 "xCTXEVAL-SECRET-1"] (utf8 "CTXEVAL-SECRET-1") (by
    unfold NoCollision
    decide +kernel)
  have copied : Copied (detectors 64) [utf8 "xCTXEVAL-SECRET-1"] (utf8 "CTXEVAL-SECRET-1") :=
    ⟨_, List.mem_cons_self, Or.inl ⟨utf8 "CTXEVAL-SECRET-1", by decide +kernel,
      List.infix_refl _⟩⟩
  rcases exact_.laundered copied with ⟨secretDigest, refused⟩
  have passed : check (quarantineSet ([utf8 "xCTXEVAL-SECRET-1"].map
      (quarantineRecord (detectors 64)))) (utf8 "CTXEVAL-SECRET-1") = .clean := by
    decide +kernel
  rw [passed] at refused
  cases refused

end Claims

end Llxprt.Ingress

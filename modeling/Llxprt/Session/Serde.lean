import Llxprt.Session.Context

/-!
# Context records as JSON

The derived serializers of the records in the context artifacts.
-/

namespace Llxprt.Session

open Llxprt.Kernel Llxprt.Kernel.Recorded Llxprt.Rust Llxprt.Store Llxprt.Ingress Llxprt.Policy

section Vault

/-- A slot of `vault.json`; an erased one keeps its place. -/
instance : Recorded VaultSlotSnapshot where
  json value := .object
    [("handle", json value.handle), ("nonce", json value.nonce),
      ("ciphertext", json value.ciphertext), ("erased", json value.erased)]

/-- The vault without its key. -/
instance : Recorded VaultSnapshot where
  json value := .object
    [("nonce_prefix", json value.noncePrefix), ("next", json value.next),
      ("slots", json value.slots)]

end Vault

section Policy

instance : Recorded CutTrigger where
  json
    | .budgetPressure => .string "budget_pressure"
    | .explicitRequest => .string "explicit_request"
    | .erasure => .string "erasure"

instance : Recorded EpochRecord where
  json value := .object
    [("epoch", json value.epoch), ("head_digest", json value.headDigest),
      ("head_requests", json value.headRequests), ("trigger", optional value.trigger),
      ("armed", json value.armed), ("bytes_reclaimed", json value.bytesReclaimed),
      ("bytes_invalidated", json value.bytesInvalidated),
      ("tokens_invalidated", optional value.tokensInvalidated),
      ("tokens_reclaimed", optional value.tokensReclaimed),
      ("invalidations", json value.invalidations),
      ("aggregate_valid", json value.aggregateValid), ("calls", json value.calls),
      ("measured_calls", json value.measuredCalls), ("input_tokens", json value.inputTokens),
      ("cached_tokens", json value.cachedTokens),
      ("armed_input_tokens", json value.armedInputTokens),
      ("armed_cached_tokens", json value.armedCachedTokens),
      ("disarmed_input_tokens", json value.disarmedInputTokens),
      ("disarmed_cached_tokens", json value.disarmedCachedTokens)]
  json_injective := by
    intro left right same
    simp only [Json.object.injEq, List.cons.injEq, Prod.mk.injEq, true_and, json_inj,
      optional_inj, and_true] at same
    cases left
    cases right
    simpa using same

instance : Recorded EpochCache where
  json value := .object [("records", json value.records)]

/-- What is recorded of a request list; the list itself is in the vault. -/
instance : Recorded RequestPrefix where
  json value := .object
    [("epoch", json value.epoch), ("handle", json value.handle), ("digest", json value.digest),
      ("requests", json value.requests)]

end Policy

section Manifest

/-- The rules in force when the manifest was written. -/
instance : Recorded FilterRules where
  json value := .object
    [("version", json value.version), ("size_floor", json value.sizeFloor),
      ("unknown_bound", json value.unknownBound), ("verbatim_tools", json value.verbatimTools)]

instance : Recorded VocabularySnapshot where
  json value := .object [("version", json value.version), ("labels", json value.labels)]

/-- The manifest names the generation of the other artifacts. -/
instance : Recorded Manifest where
  json value := .object
    [("generation", json value.generation), ("mode", json value.mode),
      ("quiesce", optional value.quiesce), ("detail", optional value.detail),
      ("rules", json value.rules), ("vocabularies", json value.vocabularies),
      ("terminal_outcome", optional value.terminalOutcome),
      ("terminal_fit_saturated", optional value.terminalFitSaturated),
      ("terminal_fit_available", optional value.terminalFitAvailable),
      ("preserved", json value.preserved)]

end Manifest

section Index

instance : Recorded ByteRange where
  json value := .object [("start", json value.start), ("end", json value.stop)]

/-- Where a payload of the spine lies. -/
instance : Recorded SpineRecord where
  json value := .object
    [("handle", json value.handle), ("range", json value.range),
      ("content_digest", json value.contentDigest)]

end Index

end Llxprt.Session

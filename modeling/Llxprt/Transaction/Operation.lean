import Llxprt.Transaction.Budget

/-!
# Closed operation registry

One row for each operation: who may propose it, its typed commit precondition,
whether it reclaims and by how much, whether it re-applies on a moved parent,
and the phase that owns it.
-/

namespace Llxprt.Transaction

/-- Who may propose an operation: system, controller, model, operator, user or
fact ledger. -/
inductive Proposer where
  | s
  | c
  | m
  | o
  | u
  | l
  deriving DecidableEq

/-- Governed facts that a typed precondition is evaluated over. -/
structure PreconditionFacts where
  parentVersion : Nat
  projected : Nat
  budget : Budget
  phiPre : Nat
  phiPost : Nat
  bar : Nat
  emergency : Bool

/-- Typed commit preconditions. -/
inductive Precondition where
  | always
  | fitsBound
  | reclaimsBar

/-- An emergency rung is exempt from the bar but may not raise the potential. -/
def Precondition.holds : Precondition → PreconditionFacts → Bool
  | always, _ => true
  | fitsBound, facts => fits facts.projected facts.budget
  | reclaimsBar, facts =>
      if facts.emergency then facts.phiPost ≤ facts.phiPre
      else netReclaimOk facts.phiPre facts.phiPost facts.bar

/-- A single registry row.  The defaults are those of an unconditional row. -/
structure Operation where
  name : String
  proposer : Proposer
  authority : Option Proposer := none
  precondition : Precondition := .always
  reclamation : Bool := false
  rebaseSafe : Bool := false
  ownerPhase : Nat
  bar : Nat := 0
  emergency : Bool := false

namespace Operation

/-- The closed operation registry. -/
def registry : List Operation :=
  [
    { name := "admit-ingress", proposer := .s, precondition := .fitsBound, ownerPhase := 2 },
    { name := "admit-observation", proposer := .s, ownerPhase := 4 },
    { name := "admit-as-handle", proposer := .s, ownerPhase := 4 },
    { name := "admit-feedback", proposer := .s, ownerPhase := 4 },
    { name := "pending-response-stage", proposer := .s, ownerPhase := 7 },
    { name := "admit-response", proposer := .s, ownerPhase := 7 },
    { name := "admit-obligation", proposer := .s, ownerPhase := 5 },
    { name := "admit-convenience", proposer := .s, ownerPhase := 5 },
    { name := "sanitize", proposer := .s, ownerPhase := 2 },
    { name := "redact", proposer := .o, ownerPhase := 2 },
    { name := "note", proposer := .m, authority := some .c, precondition := .fitsBound,
      rebaseSafe := true, ownerPhase := 6 },
    { name := "read-back", proposer := .m, rebaseSafe := true, ownerPhase := 6 },
    { name := "re-promote", proposer := .c, ownerPhase := 4, emergency := true },
    { name := "placeholder-collapse", proposer := .c, precondition := .reclaimsBar,
      reclamation := true, ownerPhase := 4, bar := 8, emergency := true },
    { name := "drop-with-handle", proposer := .c, precondition := .reclaimsBar,
      reclamation := true, ownerPhase := 4, bar := 8, emergency := true },
    { name := "fold-away-ephemeral", proposer := .c, precondition := .reclaimsBar,
      reclamation := true, ownerPhase := 4, bar := 8, emergency := true },
    { name := "condense", proposer := .c, precondition := .reclaimsBar, reclamation := true,
      ownerPhase := 6, bar := 8, emergency := true },
    { name := "fold", proposer := .c, precondition := .reclaimsBar, reclamation := true,
      ownerPhase := 6, bar := 8, emergency := true },
    { name := "compact", proposer := .c, precondition := .reclaimsBar, reclamation := true,
      ownerPhase := 6, bar := 8, emergency := true },
    { name := "regenerate", proposer := .c, precondition := .reclaimsBar, reclamation := true,
      ownerPhase := 6, bar := 8, emergency := true },
    { name := "pin-override-collapse", proposer := .c, precondition := .reclaimsBar,
      reclamation := true, ownerPhase := 4, bar := 8, emergency := true },
    { name := "demote", proposer := .l, precondition := .reclaimsBar, reclamation := true,
      ownerPhase := 5, bar := 8, emergency := true },
    { name := "discharge", proposer := .l, ownerPhase := 5 },
    { name := "consolidate-obligations", proposer := .l, precondition := .reclaimsBar,
      reclamation := true, ownerPhase := 5, bar := 8, emergency := true },
    { name := "escalate-pending", proposer := .o, ownerPhase := 8 },
    { name := "escalate-complete", proposer := .o, ownerPhase := 8 },
    { name := "amend", proposer := .m, ownerPhase := 5 },
    { name := "retract", proposer := .m, ownerPhase := 5 },
    { name := "promote", proposer := .m, ownerPhase := 5 },
    { name := "reclassify", proposer := .m, ownerPhase := 6 },
    { name := "resegment", proposer := .m, authority := some .c, ownerPhase := 6 },
    { name := "reopen", proposer := .m, ownerPhase := 6 },
    { name := "pin", proposer := .m, ownerPhase := 8 },
    { name := "unpin", proposer := .m, ownerPhase := 8 },
    { name := "expire-pin", proposer := .s, ownerPhase := 8 },
    { name := "scope-close-by-declaration", proposer := .c, ownerPhase := 4 },
    { name := "scope-open", proposer := .s, ownerPhase := 1 },
    { name := "scope-close-by-event", proposer := .s, ownerPhase := 1 },
    { name := "decay", proposer := .s, ownerPhase := 5 },
    { name := "flush-notes", proposer := .s, authority := some .c, ownerPhase := 4 },
    { name := "arm", proposer := .s, ownerPhase := 4 },
    { name := "disarm", proposer := .s, ownerPhase := 4 },
    { name := "rule-update", proposer := .m, authority := some .c, ownerPhase := 2 },
    { name := "vocabulary-update", proposer := .m, authority := some .c, ownerPhase := 2 },
    { name := "fact-invalidate", proposer := .s, ownerPhase := 5 },
    { name := "revalidate", proposer := .l, ownerPhase := 5 },
    { name := "stale-demote", proposer := .s, ownerPhase := 5 },
    { name := "repair-result", proposer := .s, ownerPhase := 7 },
    { name := "branch-open", proposer := .m, ownerPhase := 8 },
    { name := "branch-return", proposer := .m, ownerPhase := 8 },
    { name := "branch-abort", proposer := .m, authority := some .c, ownerPhase := 8 },
    { name := "checkpoint", proposer := .s, ownerPhase := 1 },
    { name := "lease-acquire", proposer := .s, ownerPhase := 4, emergency := true },
    { name := "render-contract-observed", proposer := .s, ownerPhase := 7 },
    { name := "calibration-update", proposer := .s, ownerPhase := 4 },
    { name := "margin-recalibrate", proposer := .s, ownerPhase := 4 },
    { name := "store-mode", proposer := .s, ownerPhase := 2 },
    { name := "queue-service", proposer := .s, ownerPhase := 4 },
    { name := "spend-account", proposer := .s, ownerPhase := 4, emergency := true },
    { name := "journal-append", proposer := .s, ownerPhase := 4, emergency := true },
    { name := "wrap-up", proposer := .c, ownerPhase := 4 },
    { name := "quiesce-unwritable", proposer := .s, ownerPhase := 4 },
    { name := "index-rebuild", proposer := .s, authority := some .o, ownerPhase := 2 },
    { name := "import", proposer := .o, ownerPhase := 2 },
    { name := "consolidate-head", proposer := .o, ownerPhase := 4 },
    { name := "consolidate-notes", proposer := .c, precondition := .reclaimsBar,
      reclamation := true, ownerPhase := 4, bar := 8, emergency := true },
    { name := "place", proposer := .s, precondition := .fitsBound, ownerPhase := 1 },
    { name := "unplace", proposer := .s, ownerPhase := 1 },
    { name := "lane-policy-update", proposer := .c, ownerPhase := 4 },
    { name := "migration-select", proposer := .s, ownerPhase := 2 }
  ]

/-- Look a row up by name. -/
def find (name : String) : Option Operation :=
  registry.find? fun row => row.name = name

/-- Stable refusal name of the typed precondition. -/
def preconditionName (row : Operation) : String :=
  if row.reclamation then "reclamation-bar" else "fit-bound"

end Operation

end Llxprt.Transaction

import Llxprt.Rust.Integers
import Llxprt.Rust.Result

/-!
# Budgets, margins and the accounting port

The bound that a commit is charged comes from a port, never from the caller.
The port is a capability of the session, so the executor is generic over it;
the production port charges the governed units, the declared tool surface, the
effect and a fixed commit frame.
-/

namespace Llxprt.Transaction

open Llxprt.Rust

/-- One version of the margin table. -/
structure Margins where
  version : Nat
  perToolDeclaration : Nat
  commitFrame : Nat

namespace Margins

def v1 : Margins where
  version := 1
  perToolDeclaration := 32
  commitFrame := 64

/-- Recalibrates under a strictly newer version. -/
def recalibrate (margins : Margins) (version perToolDeclaration : Nat) :
    Except String Margins :=
  if version ≤ margins.version then
    .error "margin version must be strictly newer"
  else
    .ok { margins with version := version, perToolDeclaration := perToolDeclaration }

/-- Charge for the declared tool surface. -/
def toolSurface (margins : Margins) (declarations : Nat) : Nat :=
  min (margins.perToolDeclaration * min declarations (2 ^ 32 - 1)) u64Max

end Margins

/-- Read-only port that the executor asks for a bound.  A bound is a function
of the margin version and the effect size. -/
class AccountingPort (π : Type) where
  bound : π → Nat → Nat → Nat
  boundMargins : π → Option Margins
  recalibrated : π → Nat → Nat → Option (Except String π)

/-- The bound under the margin table that the port carries. -/
def AccountingPort.computed {π : Type} [AccountingPort π] (port : π) (effectBytes : Nat) : Nat :=
  bound port (((boundMargins port).map Margins.version).getD Margins.v1.version) effectBytes

/-- The production port. -/
structure BoundPort where
  margins : Margins
  toolDeclarations : Nat
  governed : Nat

namespace BoundPort

def toolSurface (port : BoundPort) : Nat :=
  port.margins.toolSurface port.toolDeclarations

/-- The governed units already committed, charged unless the table was
recalibrated past the validated version. -/
def bound (port : BoundPort) (version effectBytes : Nat) : Nat :=
  let governed := if port.margins.version ≤ version then port.governed else 0
  saturatingAdd (saturatingAdd (saturatingAdd governed port.toolSurface) effectBytes)
    port.margins.commitFrame

def afterRecalibration (port : BoundPort) (version perToolDeclaration : Nat) :
    Except String BoundPort := do
  let margins ← port.margins.recalibrate version perToolDeclaration
  return { port with margins := margins }

instance : AccountingPort BoundPort where
  bound := bound
  boundMargins port := some port.margins
  recalibrated port version perToolDeclaration :=
    some (port.afterRecalibration version perToolDeclaration)

end BoundPort

/-- Region budget, reclamation reserve and headroom. -/
structure Budget where
  b : Nat
  r : Nat
  h : Nat

/-- The largest bound a commit may reach. -/
def Budget.commitCeiling (budget : Budget) : Nat :=
  budget.b - budget.r - budget.h

/-- The projected fit. -/
def fits (bound : Nat) (budget : Budget) : Bool :=
  bound ≤ budget.commitCeiling

/-- The protection floor fits the budget. -/
def feasible (floor : Nat) (budget : Budget) : Bool :=
  saturatingAdd (saturatingAdd floor budget.r) budget.h ≤ budget.b

/-- The potential drops by at least the bar. -/
def netReclaimOk (phiPre phiPost bar : Nat) : Bool :=
  phiPost ≤ phiPre && bar ≤ phiPre - phiPost

end Llxprt.Transaction

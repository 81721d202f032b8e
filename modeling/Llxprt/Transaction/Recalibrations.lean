import Llxprt.Rust.Runs
import Llxprt.Rust.Saturation
import Llxprt.Transaction.Budget

/-!
# Bounds under older margin tables

The port keeps one margin table only.  A bound asked for under an older version
is computed from the newest table, and the governed units are left out of it.
It is the bound of that time exactly when the newest charge for the declared
tools happens to be the old one and the governed units together, or when both
sums saturate.
-/

namespace Llxprt.Transaction

open Llxprt.Rust

/-- One request to recalibrate. -/
structure Recalibration where
  version : Nat
  perToolDeclaration : Nat

namespace BoundPort

/-- Recalibrates in place; a refused request leaves the port as it was. -/
def recalibrate (port : BoundPort) (version perToolDeclaration : Nat) :
    Except String Unit × BoundPort :=
  match port.margins.recalibrate version perToolDeclaration with
  | .error reason => (.error reason, port)
  | .ok margins => (.ok (), { port with margins := margins })

/-- The port after one request. -/
def request (port : BoundPort) (call : Recalibration) : BoundPort :=
  (port.recalibrate call.version call.perToolDeclaration).2

end BoundPort

/-- The requests that are granted from a version on: each strictly newer than
those before it. -/
def granted (version : Nat) : List Recalibration → List Recalibration
  | [] => []
  | call :: rest =>
      if call.version ≤ version then granted version rest
      else call :: granted call.version rest

/-- The charge for the declared tools under the table of a request. -/
def BoundPort.surfaceUnder (port : BoundPort) (call : Recalibration) : Nat :=
  ({ port.margins with
    version := call.version, perToolDeclaration := call.perToolDeclaration } : Margins).toolSurface
      port.toolDeclarations

/-- The bound of the port's own version survives the requests: none is granted,
or the last one granted charges for the tools what the tools and the governed
units were charged together, or both sums saturate. -/
def Reproducible (port : BoundPort) (calls : List Recalibration) (effectBytes : Nat) : Prop :=
  ∀ last ∈ (granted port.margins.version calls).getLast?,
    port.governed + port.toolSurface = port.surfaceUnder last ∨
      u64Max ≤ port.governed + port.toolSurface + effectBytes + port.margins.commitFrame ∧
        u64Max ≤ port.surfaceUnder last + effectBytes + port.margins.commitFrame

section Requests

variable {port : BoundPort} {calls : List Recalibration} {call : Recalibration}

theorem request_of_older (older : call.version ≤ port.margins.version) :
    port.request call = port := by
  simp [BoundPort.request, BoundPort.recalibrate, Margins.recalibrate, older]

theorem request_of_newer (newer : ¬ call.version ≤ port.margins.version) :
    port.request call = { port with margins := { port.margins with
      version := call.version, perToolDeclaration := call.perToolDeclaration } } := by
  simp [BoundPort.request, BoundPort.recalibrate, Margins.recalibrate, newer]

/-- Granted requests are newer than the version they start from. -/
theorem lt_of_mem_granted {version : Nat} (member : call ∈ granted version calls) :
    version < call.version := by
  induction calls generalizing version with
  | nil => cases member
  | cons first rest ih =>
      rw [granted] at member
      split at member
      · exact ih member
      · rename_i newer
        rw [Nat.not_le] at newer
        rcases List.mem_cons.mp member with rfl | later
        · exact newer
        · exact newer.trans (ih later)

/-- The table of a run is that of the last granted request. -/
theorem run_request : run BoundPort.request port calls =
    match (granted port.margins.version calls).getLast? with
    | none => port
    | some last => { port with margins := { port.margins with
        version := last.version, perToolDeclaration := last.perToolDeclaration } } := by
  induction calls generalizing port with
  | nil => rfl
  | cons first rest ih =>
      change run BoundPort.request (port.request first) rest = _
      rw [ih, granted]
      by_cases older : first.version ≤ port.margins.version
      · rw [request_of_older older, if_pos older]
      · rw [request_of_newer older, if_neg older, List.getLast?_cons]
        cases (granted first.version rest).getLast? <;> rfl

end Requests

section Bounds

variable {port : BoundPort} {calls : List Recalibration} {effectBytes : Nat}

/-- The bound is one cut-off sum. -/
theorem bound_eq {version : Nat} : port.bound version effectBytes =
    min ((if port.margins.version ≤ version then port.governed else 0) + port.toolSurface +
      effectBytes + port.margins.commitFrame) u64Max := by
  unfold BoundPort.bound
  rw [saturatingAdd_eq_min, saturatingAdd_saturatingAdd, ← saturatingAdd_eq_min,
    saturatingAdd_eq_min]
  omega

/-- A bound is reproduced under its version after any recalibrations exactly
under the stated coincidence. -/
theorem bound_after_recalibrations_iff :
    (run BoundPort.request port calls).bound port.margins.version effectBytes =
        port.bound port.margins.version effectBytes ↔
      Reproducible port calls effectBytes := by
  rw [run_request, Reproducible]
  cases last : (granted port.margins.version calls).getLast? with
  | none => simp
  | some call =>
      have newer : ¬ call.version ≤ port.margins.version :=
        Nat.not_le_of_lt (lt_of_mem_granted (List.mem_of_getLast? last))
      have surface : ({ port with margins := { port.margins with
          version := call.version,
          perToolDeclaration := call.perToolDeclaration } } : BoundPort).toolSurface =
            port.surfaceUnder call :=
        rfl
      simp only [bound_eq, newer, if_false, le_refl, if_true, surface, Nat.zero_add,
        min_u64Max_eq_iff, Option.mem_def, Option.some.injEq, forall_eq']
      omega

/-- A recalibration changes the bound of the version before it. -/
theorem bound_of_older_table_changes :
    ¬ ∀ (port : BoundPort) (calls : List Recalibration) (effectBytes : Nat),
      (run BoundPort.request port calls).bound port.margins.version effectBytes =
        port.bound port.margins.version effectBytes := by
  intro always
  exact absurd (always ⟨.v1, 4, 100⟩ [⟨2, 128⟩] 10) (by decide)

end Bounds

end Llxprt.Transaction

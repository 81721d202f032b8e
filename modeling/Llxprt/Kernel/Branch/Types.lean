import Llxprt.Kernel.Ledger.Types

/-!
# Vocabulary of read-only branches
-/

namespace Llxprt.Kernel

open Llxprt.Rust

/-- Harness declaration of one tool. -/
structure ToolContract where
  name : String
  readOnly : Bool
  reads : BTreeSet String
  writes : BTreeSet String
  deriving DecidableEq

/-- Whether a branch may call the tool. -/
def ToolContract.permitsBranch (contract : ToolContract) : Bool :=
  contract.readOnly && contract.writes.isEmpty &&
    (contract.name = "read_file" || contract.name = "list_directory" ||
      contract.name = "search_file_content")

structure Limits where
  depth : Nat
  concurrency : Nat
  context : Nat
  management : Nat
  deriving DecidableEq

/-- The declared defaults. -/
def Limits.default : Limits where
  depth := 4
  concurrency := 4
  context := 65536
  management := 1000000

structure Spawn where
  nameSpace : String
  parent : Option String
  parentVersion : Nat
  scope : ScopeId
  constitutional : BTreeMap String String
  notes : BTreeSet String
  limits : Limits
  tools : List ToolContract
  deriving DecidableEq

structure Round where
  call : String
  tool : String
  reads : BTreeMap String UInt64
  storeHandle : String
  contextSpend : Nat
  managementSpend : Nat
  complete : Bool
  deriving DecidableEq

inductive ReturnStatus where
  | currentEvidence
  | suggestionNeedsRevalidation
  deriving DecidableEq

structure Returned where
  handle : String
  digest : String
  status : ReturnStatus
  revalidate : BTreeSet String
  deriving DecidableEq

structure Branch where
  spawn : Spawn
  depth : Nat
  rounds : List Round
  reads : BTreeMap String UInt64
  contextSpend : Nat
  managementSpend : Nat
  returned : Option Returned
  aborted : Bool
  deriving DecidableEq

def Branch.active (branch : Branch) : Bool :=
  !branch.aborted && branch.returned.isNone

inductive BranchEvent where
  | openBranch (spawn : Spawn)
  | roundBranch (nameSpace : String) (round : Round)
  | returnBranch (nameSpace : String) (returned : Returned)
  | abortBranch (nameSpace : String)
  deriving DecidableEq

/-- Registered operation name of a branch event. -/
def BranchEvent.operation : BranchEvent → String
  | .openBranch _ => "branch-open"
  | .returnBranch .. => "branch-return"
  | .roundBranch .. => "admit-observation"
  | .abortBranch _ => "branch-abort"

inductive BranchError where
  | nameSpace
  | constitution
  | limit
  | tool
  | receipt
  deriving DecidableEq

end Llxprt.Kernel

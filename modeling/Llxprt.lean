import Llxprt.Rust.Integers
import Llxprt.Rust.Method
import Llxprt.Rust.Collections
import Llxprt.Kernel.Lanes
import Llxprt.Kernel.Ledger.Authority
import Llxprt.Kernel.Ledger.Obligations
import Llxprt.Kernel.Ledger.Freshness
import Llxprt.Kernel.Ledger.Dependents
import Llxprt.Kernel.Ledger.Copies
import Llxprt.Kernel.Ledger.Conflicts
import Llxprt.Kernel.Tombstones
import Llxprt.Kernel.Security.State
import Llxprt.Kernel.Validation.State
import Llxprt.Kernel.Branch.Containment
import Llxprt.Kernel.Ir
import Llxprt.Kernel.Events
import Llxprt.Kernel.Migration
import Llxprt.Kernel.Versions
import Llxprt.Kernel.Moves
import Llxprt.Kernel.Resegments
import Llxprt.Kernel.Pins
import Llxprt.Kernel.Refusals
import Llxprt.Kernel.Evidence
import Llxprt.Transaction.Calls
import Llxprt.Transaction.Accounting
import Llxprt.Session.Crashes
import Llxprt.Session.Recovery
import Llxprt.Session.Admission
import Llxprt.Session.Prefixes
import Llxprt.Gateway.Snapshots
import Llxprt.Log.Fencing
import Llxprt.Log.Permits
import Llxprt.Log.Tails
import Llxprt.Log.Store
import Llxprt.Store.Salvage
import Llxprt.Store.Seals
import Llxprt.Ingress.Commits
import Llxprt.Policy.Queue
import Llxprt.Policy.Controller
import Llxprt.Management.GateCalls
import Llxprt.Management.Exchange
import Llxprt.Agent.Elision
import Llxprt.Agent.Budget
import Llxprt.Kernel.Ledger.Classes
import Llxprt.Kernel.Ledger.Activity
import Llxprt.Kernel.Covers
import Llxprt.Transaction.Authority
import Llxprt.Transaction.Recalibrations
import Llxprt.Ingress.Redaction
import Llxprt.Ingress.Verdict
import Llxprt.Policy.Accounts
import Llxprt.Policy.Epochs
import Llxprt.Session.Compaction
import Llxprt.Session.SafeFile
import Llxprt.Tools.Replace
import Llxprt.Tools.SearchReports
import Llxprt.Kernel.Slices
import Llxprt.Kernel.Codes
import Llxprt.Tools.LossyPrefix
import Llxprt.Agent.Malformed
import Llxprt.Kernel.Encoding
import Llxprt.Ingress.Validity
import Llxprt.Agent.Reservation
import Llxprt.Redact.Secrets
import Llxprt.Ingress.Launder
import Llxprt.Tools.ReadWindow
import Llxprt.Policy.Progress
import Llxprt.Policy.Parameters
import Llxprt.Policy.Ladder
import Llxprt.Policy.Monitor
import Llxprt.Agent.Prompts
import Llxprt.Agent.Mission
import Llxprt.Agent.OverLimit
import Llxprt.Log.Artifacts
import Llxprt.Log.Durability
import Llxprt.Log.Handles

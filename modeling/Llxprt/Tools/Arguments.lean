import Llxprt.Rust.Json
import Llxprt.Rust.Result

/-!
# Arguments of a tool call

The typed readers of an argument map.  An argument of another type is refused,
not replaced by a default.
-/

namespace Llxprt.Tools

open Llxprt.Rust

/-- An argument map; names stand for values in the order of the names. -/
abbrev Arguments := List (String × Json)

/-- `MAX_FILE_BYTES`. -/
def maxFileBytes : Nat :=
  1024 * 1024

def rejectUnknown (args : Arguments) (known : List String) : Except String Unit :=
  match args.find? fun arg => arg.1 ∉ known with
  | some (key, _) => .error ("unknown argument '" ++ key ++ "' for this tool")
  | none => .ok ()

def argStr (args : Arguments) (key : String) (required : Bool) : Except String (Option String) :=
  match args.lookup key with
  | none =>
      if required then .error ("missing required argument '" ++ key ++ "'") else .ok none
  | some (.string value) => .ok (some value)
  | some _ => .error ("argument '" ++ key ++ "' must be a string")

def argU64 (args : Arguments) (key : String) : Except String (Option Nat) :=
  match args.lookup key with
  | none => .ok none
  | some (.number value) =>
      if value ≤ u64Max then
        .ok (some value)
      else
        .error ("argument '" ++ key ++ "' must be a non-negative integer")
  | some _ => .error ("argument '" ++ key ++ "' must be an integer")

/-- A required text argument, unwrapped. -/
def requiredStr (args : Arguments) (key : String) : Except String String := do
  okOr (← argStr args key true) ""

variable {args : Arguments} {key value : String}

end Llxprt.Tools

import Llxprt.Kernel.Canonical
import Llxprt.Rust.Collections
import Llxprt.Rust.Method

/-!
# Scope registry

Scopes are created, closed and attributed to by logged events only.
-/

namespace Llxprt.Kernel

open Llxprt.Rust

/-- Scope identifier. -/
abbrev ScopeId := UInt64

/-- Lifecycle state of a scope. -/
inductive ScopeState where
  | open
  | closedByEvent
  | closedByDeclaration
  deriving DecidableEq

namespace ScopeState

def name : ScopeState → String
  | .open => "open"
  | closedByEvent => "closed-by-event"
  | closedByDeclaration => "closed-by-declaration"

/-- Whether the scope is still open. -/
def isOpen (state : ScopeState) : Bool :=
  state = .open

end ScopeState

/-- One scope with its lineage and log-derived activity. -/
structure Scope where
  id : ScopeId
  parent : Option ScopeId
  state : ScopeState
  openedSequence : Nat
  closedSequence : Option Nat
  lastItemSequence : Nat
  deriving DecidableEq

/-- Errors raised by scope operations. -/
inductive ScopeError where
  | unknownScope (id : ScopeId)
  | alreadyClosed (id : ScopeId)
  | unknownParent (id : ScopeId)
  | closedScope (id : ScopeId)
  deriving DecidableEq

/-- Registry of scopes owned by the IR boundary. -/
structure ScopeRegistry where
  scopes : List Scope
  idlenessWindow : Nat
  deriving DecidableEq

namespace ScopeRegistry

def new (idlenessWindow : Nat) : ScopeRegistry :=
  ⟨[], idlenessWindow⟩

/-- Look a scope up. -/
def scope (registry : ScopeRegistry) (id : ScopeId) : Except ScopeError Scope :=
  okOr (registry.scopes.find? fun scope => scope.id = id) (.unknownScope id)

/-- Lifecycle state of a scope. -/
def state (registry : ScopeRegistry) (id : ScopeId) : Except ScopeError ScopeState := do
  let scope ← registry.scope id
  return scope.state

/-- `self.state(id).is_ok_and(|scope| scope.is_open())`. -/
def isOpen (registry : ScopeRegistry) (id : ScopeId) : Bool :=
  match registry.state id with
  | .ok state => state.isOpen
  | .error _ => false

/-- `self.state(id).is_ok_and(|scope| !scope.is_open())`. -/
def isClosed (registry : ScopeRegistry) (id : ScopeId) : Bool :=
  match registry.state id with
  | .ok state => !state.isOpen
  | .error _ => false

/-- Open a scope.  Opening a registered scope again changes nothing. -/
def «open» (id : ScopeId) (parent : Option ScopeId) (atSequence : Nat) :
    Method ScopeRegistry ScopeError Unit := do
  let self ← Method.read
  match parent with
  | some parentId => let _ ← Method.ofExcept (self.scope parentId)
  | none => pure ()
  if self.scopes.any fun scope => scope.id = id then
    return ()
  Method.update fun self =>
    { self with
      scopes := self.scopes ++ [{
        id := id
        parent := parent
        state := .open
        openedSequence := atSequence
        closedSequence := none
        lastItemSequence := atSequence }] }

def close (id : ScopeId) (atSequence : Nat) (state : ScopeState) :
    Method ScopeRegistry ScopeError Unit := do
  let self ← Method.read
  let scope ← Method.ofExcept (self.scope id)
  Method.refuse (¬ scope.state.isOpen) (.alreadyClosed id)
  Method.update fun self =>
    { self with
      scopes := updateFirst (fun scope => scope.id = id)
        (fun scope => { scope with state := state, closedSequence := some atSequence })
        self.scopes }

def closeByEvent (id : ScopeId) (atSequence : Nat) : Method ScopeRegistry ScopeError Unit :=
  close id atSequence .closedByEvent

def closeByDeclaration (id : ScopeId) (atSequence : Nat) :
    Method ScopeRegistry ScopeError Unit :=
  close id atSequence .closedByDeclaration

/-- Attribute an item to an open scope. -/
def attributeItem (id : ScopeId) (atSequence : Nat) : Method ScopeRegistry ScopeError Unit := do
  let self ← Method.read
  let scope ← Method.ofExcept (self.scope id)
  Method.refuse (¬ scope.state.isOpen) (.closedScope id)
  Method.update fun self =>
    { self with
      scopes := updateFirst (fun scope => scope.id = id)
        (fun scope => { scope with lastItemSequence := atSequence }) self.scopes }

def encode (registry : ScopeRegistry) : Bytes :=
  Sink.tag "scope-registry" ++ Sink.count registry.idlenessWindow ++
    registry.scopes.flatMap fun scope =>
      Sink.int scope.id ++ Sink.int (scope.parent.getD 0) ++ Sink.tag scope.state.name ++
        Sink.count scope.openedSequence ++ Sink.count (scope.closedSequence.getD 0) ++
        Sink.count scope.lastItemSequence

end ScopeRegistry

end Llxprt.Kernel

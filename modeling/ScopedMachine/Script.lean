import ScopedMachine.Directive
import ScopedMachine.View

/-!
# Host code

A `Script` is a piece of code of the host: a callback, or the main program. It works on the host's
own state, reads the world, and makes calls; a call may run other host code before its answer comes
back. `H` is the state of the host.
-/

namespace ScopedMachine

/-- What a call answers. -/
inductive Answer where
  | unit
  | scope (id : ScopeId)
  | manager (id : ManagerId)
  | stream (id : StreamId)
  /-- How a callback ended. -/
  | result (r : Except Fault Unit)
  | report (r : Report)
  | collected (r : Except DefinitionError (Collected Unit))
  | entered (r : Except DefinitionError Unit)
  | started (r : Except MachineError MachineId)
  | delivered (r : Except MachineError Delivery)
  /-- The changes read from a stream, and whether more can come. -/
  | changes (items : List Change) (isOpen : Bool)
  /-- The caller holds no handle on the machine, or does not own the scope. -/
  | absent

/-- All that a machine is started with: its settings, and the scope whose release stops it. -/
structure Setup where
  settings : Settings := {}
  signal : Option ScopeId := none
deriving DecidableEq

/-- What host code can ask for; `S` is the type of the callbacks handed over. -/
inductive Call (S : Type) where
  | newManager
  /-- Make a scope, counted by a manager if one is named. -/
  | newScope (manager : Option ManagerId)
  /-- Release a scope of the host's own. -/
  | release (scope : ScopeId)
  /-- Run a teardown when the scope is released, or at once if it was. -/
  | onCancel (token : ScopeId) (teardown : S)
  /-- Listen to an event type on a source until the token is cancelled. -/
  | listen (slot : Nat) (kind : String) (handler : Event → S) (token : ScopeId)
  | emit (slot : Nat) (event : Event)
  /-- Fire `kind` once `after` has passed, unless the token is cancelled first. -/
  | arm (slot : Nat) (kind : String) (after : Span) (token : ScopeId)
  | advance (slot : Nat) (span : Span)
  | collect (definition : Definition) (limit : Nat)
  /-- Collect a definition and run its entry actions with a token. -/
  | enter (definition : Definition) (limit : Nat) (token : ScopeId)
  /-- Start a machine, which stops when the signal is cancelled. -/
  | start (initial : Definition) (settings : Settings) (signal : Option ScopeId)
  /-- Take another handle on a machine. -/
  | hold (machine : MachineId)
  /-- Give a handle up; the machine is taken down with its last one. -/
  | drop (machine : MachineId)
  | send (machine : MachineId) (source : SourceId) (event : Event)
  /-- Send to a machine that may be gone, as its own listeners do. -/
  | forward (machine : MachineId) (source : SourceId) (event : Event)
  | stop (machine : MachineId)
  | observe (machine : MachineId) (observer : Change → S) (token : ScopeId)
  /-- Observe a machine by a queue that is read later. -/
  | stream (machine : MachineId) (token : ScopeId)
  | read (stream : StreamId)

/-- A piece of host code. -/
inductive Script (H : Type) where
  | done (r : Except Fault Unit)
  /-- Give up everything that is under way. -/
  | panic (message : String)
  | update (f : H → H) (next : Script H)
  | look (k : H → View → Script H)
  | call (c : Call (Script H)) (k : Answer → Script H)

/-- An entry action is given the token of the activation. -/
abbrev Entry (H : Type) := ScopeId → Script H

/-- A handler is given the event that is delivered. -/
abbrev Handler (H : Type) := Event → Script H

namespace Script

variable {H : Type}

/-- Code that ends at once. -/
abbrev ok : Script H := .done (.ok ())

/-- Run `s`, then go on with how it ended. -/
def andThen (s : Script H) (k : Except Fault Unit → Script H) : Script H :=
  match s with
  | .done r => k r
  | .panic message => .panic message
  | .update f next => .update f (next.andThen k)
  | .look l => .look fun h v => (l h v).andThen k
  | .call c l => .call c fun a => (l a).andThen k

end Script

end ScopedMachine

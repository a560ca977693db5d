import ScopedMachine.Report

/-!
# What can be seen of a world

Host code reads the world through a `View`: first-order facts only, so that looking changes nothing
and hands out no code.
-/

namespace ScopedMachine

/-- The place of a scope in the world. A scope and the token that observes it are one place. -/
structure ScopeId where
  index : Nat
deriving DecidableEq

/-- The place of a counter of scopes in the world. -/
structure ManagerId where
  index : Nat
deriving DecidableEq

/-- The place of a machine in the world. -/
structure MachineId where
  index : Nat
deriving DecidableEq

/-- The place of a stream of changes in the world. -/
structure StreamId where
  index : Nat
deriving DecidableEq

/-- What can be seen of a machine. -/
structure MachineView where
  label : String
  snapshot : Snapshot
  history : History
  /-- The listeners held by the current activation. -/
  subscriptions : Nat
  scopes : Tally

/-- What can be seen of a source. -/
structure SourceView where
  /-- The event types of the registered listeners, in registration order. -/
  topics : List String := []
  /-- The number of armed timers. -/
  pending : Nat := 0
  now : Span := Span.zero

/-- What can be seen of a world. -/
structure View where
  cancelled : ScopeId → Bool
  /-- A machine is seen as long as somebody holds a handle on it. -/
  machine? : MachineId → Option MachineView
  source : Nat → SourceView
  manager : ManagerId → Tally

end ScopedMachine

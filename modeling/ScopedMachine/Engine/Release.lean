import ScopedMachine.Engine.Config

/-!
# Releasing scopes, stopping machines, giving handles up

A release cancels the token of a scope and takes all teardowns off it before the first one runs. The
teardowns run one after the other, and the release counts once they are all over. What is registered
after the release began runs at once.
-/

namespace ScopedMachine

variable {H : Type}

namespace MachineCell

/-- Stop: no activation is current any more. -/
def stop (m : MachineCell H) : MachineCell H := { m with status := .stopped, current := none }

/-- No activation is current any more. -/
def clearCurrent (m : MachineCell H) : MachineCell H := { m with current := none }

/-- Forget the events that wait. -/
def clearPending (m : MachineCell H) : MachineCell H :=
  { m with inbox := { m.inbox with pending := [] } }

/-- Forget the events that wait and the one being handled. -/
def resetInbox (m : MachineCell H) : MachineCell H := { m with inbox := {} }

/-- Forget all observers. -/
def clearObservers (m : MachineCell H) : MachineCell H :=
  { m with observers := m.observers.clear }

/-- Take a handle for a call. -/
def pin (m : MachineCell H) : MachineCell H := { m with pins := m.pins + 1 }

/-- Give the handle of a call back. -/
def unpin (m : MachineCell H) : MachineCell H := { m with pins := m.pins - 1 }

/-- Take a handle for the host. -/
def hold (m : MachineCell H) : MachineCell H := { m with handles := m.handles + 1 }

/-- Give a handle of the host back. -/
def dropHandle (m : MachineCell H) : MachineCell H := { m with handles := m.handles - 1 }

end MachineCell

namespace World

/-- Cancel the token of a scope and take its teardowns off it. -/
def cancel (s : ScopeId) (w : World H) : World H :=
  w.modifyScope s fun cell => { cell with released := true, teardowns := [] }

/-- Count the release of a scope with its manager. -/
def countRelease (s : ScopeId) (w : World H) : World H :=
  match (w.scopes[s.index]?).bind ScopeCell.manager with
  | some i => w.modifyManager i fun t => { t with released := t.released + 1 }
  | none => w

/-- The teardowns that wait for the release of a scope. -/
def teardowns (s : ScopeId) (w : World H) : List (Teardown H) :=
  ((w.scopes[s.index]?).map ScopeCell.teardowns).getD []

/-- Whether a machine exists. -/
def isAlive (m : MachineId) (w : World H) : Bool :=
  ((w.machine? m).map MachineCell.isAlive).getD false

/-- Whether the host holds a handle on a machine. -/
def isHeld (m : MachineId) (w : World H) : Bool :=
  ((w.machine? m).map fun cell => decide (0 < cell.handles)).getD false

/-- The current activation of a machine. -/
def current? (m : MachineId) (w : World H) : Option (Activation H) :=
  (w.machine? m).bind MachineCell.current

end World

namespace Config

/-- Release a scope, unless that has happened. -/
def performRelease (scope : ScopeId) (c : Config H) : Config H :=
  if c.world.isCancelled scope then c.give .unit
  else
    ((c.mapWorld (World.cancel scope)).push (.releasing scope (c.world.teardowns scope))).give .unit

/-- Release the scope of an activation next, if there is one. -/
def releaseActivation (a : Option (Activation H)) (c : Config H) : Config H :=
  match a with
  | some a => c.release a.scope
  | none => c.give .unit

/-- Stop a machine, unless it was stopped. -/
def performStop (m : MachineId) (c : Config H) : Config H :=
  match c.world.machine? m with
  | none => c.give .unit
  | some cell =>
    if cell.status = .stopped then c.give .unit
    else
      ((c.mapWorld (World.modifyMachine m MachineCell.stop)).push (.stopping m)).releaseActivation
        cell.current

/-- Take a machine down, then let an activity end. -/
def dismantle (m : MachineId) (o : Outcome) (c : Config H) : Config H :=
  (((c.mapWorld (World.modifyMachine m MachineCell.clearCurrent)).push (.settling o)).push
    (.dismantling m)).releaseActivation (c.world.current? m)

/-- Let an activity end after a handle was given back. -/
def settleHandle (m : MachineId) (o : Outcome) (c : Config H) : Config H :=
  if c.world.isAlive m then c.settle o else c.dismantle m o

/-- Give the handle of a call back, then let an activity end. -/
def unpin (m : MachineId) (o : Outcome) (c : Config H) : Config H :=
  (c.mapWorld (World.modifyMachine m MachineCell.unpin)).settleHandle m o

/-- Hold a handle on a machine for a call. -/
def pin (m : MachineId) (c : Config H) : Config H :=
  (c.mapWorld (World.modifyMachine m MachineCell.pin)).push (.holding m)

/-- Perform a teardown. -/
def performTeardown (t : Teardown H) (c : Config H) : Config H :=
  match t with
  | .unlisten slot number =>
    (c.mapWorld (World.modifySource slot fun s =>
      { s with registry := s.registry.remove number })).give .unit
  | .disarm slot number =>
    (c.mapWorld (World.modifySource slot (SourceCell.modifyClock (Clock.disarm number)))).give .unit
  | .unobserve m number =>
    (c.mapWorld (World.modifyMachine m fun cell =>
      { cell with observers := cell.observers.remove number })).give .unit
  | .stop m => if c.world.isAlive m then (c.pin m).stop m else c.give .unit
  | .run s => c.run s

/-- Go on with the teardowns of a scope. -/
def runTeardowns (scope : ScopeId) (ts : List (Teardown H)) (c : Config H) : Config H :=
  match ts with
  | [] => (c.mapWorld (World.countRelease scope)).give .unit
  | t :: rest => (c.push (.releasing scope rest)).performTeardown t

/-- Register a teardown, or perform it at once if the scope was released. -/
def onCancel (scope : ScopeId) (t : Teardown H) (c : Config H) : Config H :=
  if c.world.isCancelled scope then c.performTeardown t
  else (c.mapWorld (World.addTeardown scope t)).give .unit

end Config

end ScopedMachine

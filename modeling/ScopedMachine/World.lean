import ScopedMachine.Body
import ScopedMachine.Clock
import ScopedMachine.Registry
import ScopedMachine.RouteTable

/-!
# Worlds

A world holds everything that host code can reach: scopes with the teardowns that hang off them,
counters of scopes, event sources, machines, and streams of changes. Things are never removed from a
world; a scope is released, a machine is taken down.
-/

namespace ScopedMachine

variable {H : Type}

/-! ## Scopes -/

/-- What happens when a scope is released. -/
inductive Teardown (H : Type) where
  /-- Remove a listener from a source. -/
  | unlisten (slot number : Nat)
  /-- Take an armed timer off a clock. -/
  | disarm (slot number : Nat)
  /-- Remove an observer from a machine. -/
  | unobserve (machine : MachineId) (number : Nat)
  /-- Stop a machine, if it still exists. -/
  | stop (machine : MachineId)
  | run (script : Script H)

/-- A scope. Its token is cancelled from the moment the release begins. -/
structure ScopeCell (H : Type) where
  released : Bool := false
  /-- The teardowns that wait for the release, in registration order. -/
  teardowns : List (Teardown H) := []
  /-- The machine whose activation lives in the scope; the other scopes are the host's. Only the
  owner releases a scope, everybody else sees its token. -/
  owner : Option MachineId
  /-- Who counts the release. -/
  manager : Option ManagerId

/-! ## Sources -/

/-- What a registered listener does. -/
inductive Listener (H : Type) where
  /-- Send the event to a machine as coming from a source. -/
  | route (machine : MachineId) (source : SourceId)
  | handler (f : Handler H)

/-- How a source takes subscriptions. -/
inductive SourceKind (H : Type) where
  /-- Listeners are registered and events dispatched to them. -/
  | emitter
  /-- The same, and events are fired by a clock. -/
  | timer (clock : Clock)
  /-- Host code decides what a subscription of a handler to an event type means. -/
  | hosted (subscribe : Handler H → String → ScopeId → Script H)

/-- An event source. -/
structure SourceCell (H : Type) where
  id : SourceId
  label : String
  kind : SourceKind H
  registry : Registry (Listener H) := {}

namespace SourceCell

/-- The clock of a timer; other sources have none, which shows as one that never moved. -/
def clock (s : SourceCell H) : Clock :=
  match s.kind with
  | .timer clock => clock
  | .emitter | .hosted _ => {}

/-- Change the clock of a timer. -/
def modifyClock (f : Clock → Clock) (s : SourceCell H) : SourceCell H :=
  match s.kind with
  | .timer clock => { s with kind := .timer (f clock) }
  | .emitter | .hosted _ => s

/-- What can be seen of a source. -/
def view (s : SourceCell H) : SourceView where
  topics := s.registry.topics
  pending := s.clock.pending.length
  now := s.clock.now

end SourceCell

/-! ## Machines -/

/-- What a registered observer does. -/
inductive Observer (H : Type) where
  | script (f : Change → Script H)
  /-- Put the change on a stream. -/
  | stream (id : StreamId)

/-- A state that has been entered: its directives, its routes and the scope it lives in. -/
structure Activation (H : Type) where
  collected : Collected (Entry H)
  routes : RouteTable
  scope : ScopeId

/-- The events that wait for a machine, and whether one is being handled. -/
structure Inbox where
  pending : List (SourceId × Event) := []
  draining : Bool := false
deriving DecidableEq

/-- A machine. -/
structure MachineCell (H : Type) where
  uuid : Uuid
  settings : Settings
  /-- Counts the scopes of the machine's activations. -/
  manager : ManagerId
  status : Status := .idle
  state : String := ""
  aliases : List String := []
  terminal : Bool := false
  accumulator : Option Value := none
  current : Option (Activation H) := none
  history : History := {}
  sequence : Nat := 0
  inbox : Inbox := {}
  observers : Registry (Observer H) := {}
  /-- The handles held by the host. -/
  handles : Nat := 0
  /-- The handles held by calls under way. -/
  pins : Nat := 0

namespace MachineCell

/-- A machine exists while somebody holds a handle on it. -/
def isAlive (m : MachineCell H) : Bool := 0 < m.handles + m.pins

/-- Make an activation the current one and describe it. -/
def install (a : Activation H) (m : MachineCell H) : MachineCell H :=
  { m with
    state := a.collected.name
    aliases := a.collected.aliases
    terminal := a.collected.isTerminal
    accumulator := a.collected.accumulator
    current := some a }

/-- The point-in-time view of a machine. -/
def snapshot (m : MachineCell H) : Snapshot where
  machine := m.uuid
  state := m.state
  aliases := m.aliases
  status := m.status
  terminal := m.terminal
  accumulator := m.accumulator
  transitions := m.sequence

end MachineCell

/-! ## The world -/

/-- All there is. -/
structure World (H : Type) where
  scopes : Array (ScopeCell H) := #[]
  managers : Array Tally := #[]
  sources : Array (SourceCell H) := #[]
  machines : Array (MachineCell H) := #[]
  /-- The changes that wait on each stream. -/
  streams : Array (List Change) := #[]
  /-- What the wall clock shows each time it is read. -/
  wallClock : Nat → Moment
  readings : Nat := 0

namespace World

/-- Whether a scope has been released. A scope that does not exist counts as released. -/
def isCancelled (w : World H) (s : ScopeId) : Bool :=
  match w.scopes[s.index]? with
  | some cell => cell.released
  | none => true

/-- Whether a scope is the host's own. -/
def isExternal (w : World H) (s : ScopeId) : Bool :=
  match w.scopes[s.index]? with
  | some cell => cell.owner.isNone
  | none => false

/-- The machine at a place. -/
def machine? (w : World H) (m : MachineId) : Option (MachineCell H) := w.machines[m.index]?

/-- The source at a place. -/
def source? (w : World H) (slot : Nat) : Option (SourceCell H) := w.sources[slot]?

/-- Change a scope. -/
def modifyScope (s : ScopeId) (f : ScopeCell H → ScopeCell H) (w : World H) : World H :=
  { w with scopes := w.scopes.modify s.index f }

/-- Change a machine. -/
def modifyMachine (m : MachineId) (f : MachineCell H → MachineCell H) (w : World H) : World H :=
  { w with machines := w.machines.modify m.index f }

/-- Change a source. -/
def modifySource (slot : Nat) (f : SourceCell H → SourceCell H) (w : World H) : World H :=
  { w with sources := w.sources.modify slot f }

/-- Change a counter of scopes. -/
def modifyManager (i : ManagerId) (f : Tally → Tally) (w : World H) : World H :=
  { w with managers := w.managers.modify i.index f }

/-- Add a scope, counted by a manager if one is named. -/
def addScope (owner : Option MachineId) (manager : Option ManagerId) (w : World H) :
    ScopeId × World H :=
  let w := match manager with
    | some i => w.modifyManager i fun t => { t with acquired := t.acquired + 1 }
    | none => w
  (⟨w.scopes.size⟩, { w with scopes := w.scopes.push { owner, manager } })

/-- Add a counter of scopes. -/
def addManager (w : World H) : ManagerId × World H :=
  (⟨w.managers.size⟩, { w with managers := w.managers.push {} })

/-- Add a source with an identity of its own, or with that of another source. -/
def addSource (label : String) (kind : SourceKind H) (id : Option SourceId) (w : World H) :
    Source × World H :=
  let slot := w.sources.size
  let id := id.getD ⟨Uuid.ofNat slot⟩
  (⟨slot, id, label⟩, { w with sources := w.sources.push { id, label, kind } })

/-- Add a teardown to a scope. -/
def addTeardown (s : ScopeId) (t : Teardown H) (w : World H) : World H :=
  w.modifyScope s fun cell => { cell with teardowns := cell.teardowns ++ [t] }

/-- Register a listener on a source until the token is cancelled. -/
def register (slot : Nat) (topic : String) (token : ScopeId) (l : Listener H) (w : World H) :
    World H :=
  match w.source? slot with
  | none => w
  | some source =>
    if w.isCancelled token then w
    else
      (w.modifySource slot fun s => { s with registry := s.registry.add topic token l }).addTeardown
        token (.unlisten slot source.registry.nextNumber)

/-- Arm a timer until the token is cancelled. -/
def arm (slot : Nat) (kind : String) (after : Span) (token : ScopeId) (w : World H) : World H :=
  match w.source? slot with
  | none => w
  | some source =>
    if w.isCancelled token then w
    else
      (w.modifySource slot (SourceCell.modifyClock (Clock.arm kind after token))).addTeardown
        token (.disarm slot source.clock.nextNumber)

/-- Register an observer on a machine until the token is cancelled. -/
def addObserver (m : MachineId) (token : ScopeId) (o : Observer H) (w : World H) : World H :=
  match w.machine? m with
  | none => w
  | some machine =>
    if w.isCancelled token then w
    else
      (w.modifyMachine m fun c =>
          { c with observers := c.observers.add Change.topic token o }).addTeardown
        token (.unobserve m machine.observers.nextNumber)

/-- The counts of a manager. -/
def tally (w : World H) (i : ManagerId) : Tally := w.managers[i.index]?.getD {}

/-- The listeners held by the current activation of a machine. -/
def subscriptions (w : World H) (m : MachineCell H) : Nat :=
  match m.current with
  | some a => if w.isCancelled a.scope then 0 else a.routes.size
  | none => 0

/-- What can be seen of a machine on which the host holds a handle. -/
def machineView? (w : World H) (m : MachineId) : Option MachineView := do
  let cell ← w.machine? m
  if cell.handles = 0 then none
  else some {
    label := cell.settings.label
    snapshot := cell.snapshot
    history := cell.history
    subscriptions := w.subscriptions cell
    scopes := w.tally cell.manager }

/-- What can be seen of a world. -/
def view (w : World H) : View where
  cancelled := w.isCancelled
  machine? := w.machineView?
  source slot := ((w.source? slot).map SourceCell.view).getD {}
  manager := w.tally

end World

end ScopedMachine

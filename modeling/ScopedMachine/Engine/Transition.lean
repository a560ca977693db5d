import ScopedMachine.Engine.Dispatch

/-!
# Transitions

A transition goes through fixed phases: the target is collected, the current activation is released,
the entry actions of the target run with a new scope, its routes are subscribed, the activation is
installed, and observers are told. If the target cannot be entered, the previous state is entered
again from the directives it had; if that fails too, the machine stops.
-/

namespace ScopedMachine

variable {H : Type}

namespace MachineCell

/-- Install the first activation. -/
def begin (a : Activation H) (m : MachineCell H) : MachineCell H :=
  { m.install a with status := .running }

/-- Install an activation that was reached by an event, at a point in time. -/
def commit (a : Activation H) (event : String) (time : Moment) (m : MachineCell H) :
    MachineCell H :=
  let n := m.install a
  { n with
    sequence := m.sequence + 1
    history :=
      if m.settings.recordHistory then m.history.record ⟨m.state, n.state, some event, time⟩
      else m.history }

/-- What observers are told of the transition that led from `previous` to the current state. -/
def change (previous event : String) (m : MachineCell H) : Change where
  machine := m.uuid
  sequence := m.sequence
  previous := previous
  state := m.state
  aliases := m.aliases
  event := some event
  accumulator := m.accumulator

end MachineCell

namespace Config

/-- Run the entry actions of a state, one after the other. -/
def act (state : String) (token : ScopeId) (actions : List (Entry H)) (c : Config H) : Config H :=
  (c.push (.acting state token actions)).give (.result (.ok ()))

/-- Go on with the entry actions of a state. -/
def actNext (state : String) (token : ScopeId) (actions : List (Entry H)) (c : Config H) :
    Config H :=
  match actions with
  | [] => c.give (.entered (.ok ()))
  | a :: rest => (c.push (.acting state token rest)).run (a token)

/-- Enter a state with a new scope of a machine. -/
def activate (m : MachineId) (collected : Collected (Entry H)) (stage : Stage H) (c : Config H) :
    Config H :=
  let (scope, world) := c.world.addScope (some m) ((c.world.machine? m).map MachineCell.manager)
  (({ c with world }).push (.activating m collected scope stage)).act collected.name scope
    collected.actions

/-- Install an activation whose routes are all subscribed. -/
def install (p : Program H) (m : MachineId) (a : Activation H) (stage : Stage H) (c : Config H) :
    Config H :=
  match c.world.machine? m with
  | none => c.give .absent
  | some cell =>
    match stage with
    | .initial =>
      if cell.status = .stopped then
        (((c.mapWorld (World.modifyMachine m fun n => (n.install a).clearCurrent)).record p
          (.started cell.settings.label a.collected.name)).push
            (.settling (.gave (.entered (.ok ()))))).release a.scope
      else
        ((c.mapWorld (World.modifyMachine m (MachineCell.begin a))).record p
          (.started cell.settings.label a.collected.name)).give (.entered (.ok ()))
    | .commit event _ =>
      if cell.status = .running then
        let time := c.world.wallClock c.world.readings
        let next := cell.commit a event time
        let c := c.mapWorld fun w =>
          { w.modifyMachine m (MachineCell.commit a event time) with
            readings := w.readings + if cell.settings.recordHistory then 1 else 0 }
        (c.record p (.transitioned cell.state next.state event)).publish m
          (next.change cell.state event) (cell.observers.matching Change.topic)
      else (c.push (.settling (.gave (.delivered (.ok .ignored))))).release a.scope
    | .restore _ cause =>
      let answer := Answer.delivered (.error (.definition cause))
      if cell.status = .running then
        (c.mapWorld (World.modifyMachine m fun n => { n with current := some a })).give answer
      else (c.push (.settling (.gave answer))).release a.scope

/-- Subscribe the routes of an activation, one after the other, then install it. -/
def subscribe (m : MachineId) (a : Activation H) (stage : Stage H) (c : Config H) : Config H :=
  (c.push (.subscribing m a a.routes.routes stage)).give (.result (.ok ()))

/-- Go on with the routes of an activation: subscribe the next one, or install the activation. -/
def subscribeNext (p : Program H) (m : MachineId) (a : Activation H) (routes : List Route)
    (stage : Stage H) (c : Config H) : Config H :=
  match routes with
  | [] => (c.record p (.entered a.collected.name a.routes.size)).install p m a stage
  | r :: rest =>
    let c := c.push (.subscribing m a rest stage)
    match (c.world.source? r.source.slot).map SourceCell.kind with
    | some (.hosted subscribe) =>
      c.run (subscribe (fun e => .call (.forward m r.source.id e) fun
        | .result x => .done x
        | _ => .ok) r.type a.scope)
    | _ =>
      (c.mapWorld (World.register r.source.slot r.type a.scope (.route m r.source.id))).give
        (.result (.ok ()))

/-- Go on after `state` could not be entered and its scope was released. -/
def fallBack (p : Program H) (m : MachineId) (state : String) (error : DefinitionError)
    (stage : Stage H) (c : Config H) : Config H :=
  match stage with
  | .initial => c.give (.entered (.error error))
  | .commit _ previous =>
    (c.record p (.restoring state previous.name error)).activate m previous (.restore state error)
  | .restore target cause =>
    ((c.record p (.restoreFailed state error)).push
      (.settling (.gave (.delivered (.error (.restoreFailed target state cause error)))))).stop m

/-- Go on with a collection that is over. -/
def useCollected (p : Program H) (purpose : Purpose)
    (r : Except DefinitionError (Collected (Entry H))) (c : Config H) : Config H :=
  let c := match r with
    | .ok x => c.record p (.collected x.name x.directives.length)
    | .error _ => c
  match purpose, r with
  | .view, r => c.give (.collected (r.map (Collected.map fun _ => ())))
  | .enter token, .ok x => c.act x.name token x.actions
  | .enter _, .error e => c.give (.entered (.error e))
  | .initial m, .ok x => c.activate m x .initial
  | .initial _, .error e => c.give (.entered (.error e))
  | .transition _ _, .error e => (c.record p (.collectFailed e)).deliver (.error (.definition e))
  | .transition m kind, .ok x =>
    match c.world.machine? m with
    | none => c.deliver (.ok .ignored)
    | some cell =>
      match cell.status, cell.current with
      | .running, some previous =>
        ((c.mapWorld (World.modifyMachine m MachineCell.clearCurrent)).push
          (.leaving m previous.collected x kind)).release previous.scope
      | _, _ => c.deliver (.ok .ignored)

/-- Start a machine. -/
def start (p : Program H) (initial : Definition) (settings : Settings) (signal : Option ScopeId)
    (c : Config H) : Config H :=
  match settings.validate with
  | .error e => c.give (.started (.error (.build e)))
  | .ok () =>
    let (manager, world) := c.world.addManager
    let m : MachineId := ⟨world.machines.size⟩
    let cell : MachineCell H := { uuid := Uuid.ofNat m.index, settings, manager, pins := 1 }
    ((({ c with world := { world with machines := world.machines.push cell } }).push
      (.starting m signal)).push (.collecting (.initial m))).gather
        (p.collect settings.delegationLimit initial)

/-- Hand a machine that was started over to the host. -/
def handOver (m : MachineId) (c : Config H) : Config H :=
  (c.mapWorld (World.modifyMachine m fun cell => cell.unpin.hold)).give (.started (.ok m))

end Config

end ScopedMachine

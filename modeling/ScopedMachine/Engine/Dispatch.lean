import ScopedMachine.Engine.Release

/-!
# Dispatching events and changes

A dispatch takes the list of matching listeners when it begins, so a listener registered during it
hears only later values. A listener whose token is cancelled before its turn is passed over. How one
listener ends does not matter to the others.

A machine handles one event at a time. An event that is sent while another one is being handled waits
in the inbox, and is routed when its turn comes.
-/

namespace ScopedMachine

variable {H : Type}

namespace MachineCell

/-- Let an event wait. -/
def enqueue (source : SourceId) (e : Event) (m : MachineCell H) : MachineCell H :=
  { m with inbox := { m.inbox with pending := m.inbox.pending ++ [(source, e)] } }

/-- Begin to handle events. -/
def beginDraining (m : MachineCell H) : MachineCell H :=
  { m with inbox := { m.inbox with draining := true } }

/-- No event waits and none is being handled. -/
def endDraining (m : MachineCell H) : MachineCell H :=
  { m with inbox := { m.inbox with draining := false } }

/-- Take the event that waits longest. -/
def dequeue (m : MachineCell H) : MachineCell H :=
  { m with inbox := { m.inbox with pending := m.inbox.pending.tail } }

end MachineCell

namespace Config

/-- Answer how the routing of an event went. -/
def deliver (r : Except MachineError Delivery) (c : Config H) : Config H := c.give (.delivered r)

/-- Route an event against the current state of a machine. -/
def performRoute (p : Program H) (m : MachineId) (source : SourceId) (e : Event) (c : Config H) :
    Config H :=
  match c.world.machine? m with
  | none => c.deliver (.ok .ignored)
  | some cell =>
    if cell.status ≠ .running then c.deliver (.ok .ignored)
    else
      match cell.current with
      | none => c.deliver (.ok .ignored)
      | some a =>
        if cell.terminal then
          (c.record p (.terminalIgnored cell.state e.kind)).deliver (.ok .ignored)
        else
          let collect (target : Definition) (c : Config H) : Config H :=
            (c.push (.collecting (.transition m e.kind))).gather
              (p.collect cell.settings.delegationLimit target)
          match a.routes.resolve source e.kind with
          | .unmatched => (c.record p (.unmatched cell.state e.kind)).deliver (.ok .ignored)
          | .matched target => collect target c
          | .ambiguous target candidates =>
            collect target
              (c.record p (.ambiguous (.ambiguousTransition cell.state e.kind candidates)))

/-- Send an event to a machine: it waits if another one is being handled. -/
def performSend (p : Program H) (m : MachineId) (source : SourceId) (e : Event) (c : Config H) :
    Config H :=
  match c.world.machine? m with
  | none => c.deliver (.ok .ignored)
  | some cell =>
    if cell.inbox.draining then
      ((c.mapWorld (World.modifyMachine m (MachineCell.enqueue source e))).record p
        (.queued e.kind)).deliver (.ok .queued)
    else
      ((c.mapWorld (World.modifyMachine m MachineCell.beginDraining)).push
        (.draining m e.kind none)).route m source e

/-- Send an event to a machine that may be gone, and answer as a listener does. -/
def forward (m : MachineId) (source : SourceId) (e : Event) (c : Config H) : Config H :=
  if c.world.isAlive m then ((c.push .forwarding).pin m).send m source e
  else c.give (.result (.ok ()))

/-- Go on with the events that wait for a machine, or answer how the first one went. -/
def drain (m : MachineId) (first : Except MachineError Delivery) (c : Config H) : Config H :=
  match (c.world.machine? m).bind (·.inbox.pending.head?) with
  | none => (c.mapWorld (World.modifyMachine m MachineCell.endDraining)).deliver first
  | some (source, e) =>
    ((c.mapWorld (World.modifyMachine m MachineCell.dequeue)).push
      (.draining m e.kind (some first))).route m source e

/-- Call a listener. -/
def invoke (l : Listener H) (e : Event) (c : Config H) : Config H :=
  match l with
  | .route m source => c.forward m source e
  | .handler f => c.run (f e)

/-- Go on with a dispatch: call the next listener, unless its token is cancelled. -/
def dispatchNext (e : Event) (ls : List (Registration (Listener H))) (report : Report)
    (c : Config H) : Config H :=
  match ls with
  | [] => c.give (.report report)
  | r :: rest =>
    if c.world.isCancelled r.token then
      (c.push (.dispatching e rest report)).give (.result (.ok ()))
    else
      (c.push (.dispatching e rest { report with delivered := report.delivered + 1 })).invoke
        r.listener e

/-- Dispatch an event on a source. -/
def emit (p : Program H) (slot : Nat) (e : Event) (c : Config H) : Config H :=
  match c.world.source? slot with
  | none => c.give (.report {})
  | some s =>
    ((c.record p (.dispatching s.label e.kind)).push
      (.dispatching e (s.registry.matching e.kind) {})).give (.result (.ok ()))

/-- Tell an observer of a change. -/
def notify (o : Observer H) (change : Change) (c : Config H) : Config H :=
  match o with
  | .script f => c.run (f change)
  | .stream id =>
    (c.mapWorld fun w => { w with streams := w.streams.modify id.index (· ++ [change]) }).give
      (.result (.ok ()))

/-- Tell observers of a change of a machine, one after the other. -/
def publish (m : MachineId) (change : Change) (os : List (Registration (Observer H)))
    (c : Config H) : Config H :=
  (c.push (.publishing m change os)).give (.result (.ok ()))

/-- Go on with the publication of a change: tell the next observer, unless its token is cancelled. -/
def publishNext (m : MachineId) (change : Change) (os : List (Registration (Observer H)))
    (c : Config H) : Config H :=
  match os with
  | [] => c.deliver (.ok (.transitioned change.previous change.state))
  | r :: rest =>
    if c.world.isCancelled r.token then c.publish m change rest
    else (c.push (.publishing m change rest)).notify r.listener change

/-- The event of a timer that has come due. -/
def firing (d : DueTimer) : Event where
  kind := d.timer.kind
  detail := .object [("elapsed_ms", .int d.due.millis)]

/-- Go on with the advance of a clock: fire the next timer that is due by `target`. -/
def advanceNext (p : Program H) (slot : Nat) (target : Span) (report : Report) (c : Config H) :
    Config H :=
  match c.world.source? slot with
  | none => c.give (.report report)
  | some s =>
    match s.clock.take? target with
    | none =>
      let stop := SourceCell.modifyClock fun clock => { clock with now := target }
      (c.mapWorld (World.modifySource slot stop)).give (.report report)
    | some (d, clock) =>
      let c := (c.mapWorld (World.modifySource slot (SourceCell.modifyClock fun _ => clock))).push
        (.advancing slot target report)
      if c.world.isCancelled d.timer.token then c.give (.report {})
      else (c.record p (.timerFired s.label d.timer.kind)).emit p slot (firing d)

/-- Advance the clock of a timer. -/
def advance (slot : Nat) (span : Span) (c : Config H) : Config H :=
  match c.world.source? slot with
  | none => c.give (.report {})
  | some s => (c.push (.advancing slot (s.clock.now.addSaturating span) {})).give (.report {})

end Config

end ScopedMachine

import ScopedMachine.Engine.Transition

/-!
# Steps

`Program.step` performs the innermost activity of a configuration by one step. A configuration with
an empty stack that answers or panics is at rest. A panic that meets an activity which is itself
only waiting to go on with a panic has nowhere to go, so there is no step.
-/

namespace ScopedMachine

variable {H : Type}

/-- Whether a stream can still receive: an observer feeds it, or a dispatch under way is about to
do so. -/
def Config.isOpen (s : StreamId) (c : Config H) : Bool :=
  let feeds : Observer H → Bool
    | .stream id => id == s
    | .script _ => false
  let pending : Frame H → Bool
    | .publishing _ _ rest => rest.any (feeds ·.listener)
    | _ => false
  c.world.machines.any (fun m => m.observers.entries.any (feeds ·.listener)) || c.stack.any pending

/-- Unwind a frame; it is no longer on the stack. -/
def Config.unwind (f : Frame H) (message : String) (c : Config H) : Option (Config H) :=
  match f with
  | .activating _ _ scope _ => some ((c.push (.settling (.panicked message))).release scope)
  | .subscribing _ a _ _ => some ((c.push (.settling (.panicked message))).release a.scope)
  | .draining m _ _ =>
    some ((c.mapWorld (World.modifyMachine m MachineCell.resetInbox)).panic message)
  | .holding m | .starting m _ | .signalled m => some (c.unpin m (.panicked message))
  | .dismantling m =>
    some ((c.mapWorld (World.modifyMachine m MachineCell.clearObservers)).panic message)
  | .settling (.panicked _) => none
  | _ => some (c.panic message)

namespace Program

variable (p : Program H)

/-- Perform a call of host code. -/
def call (s : Call (Script H)) (c : Config H) : Config H :=
  match s with
  | .newManager =>
    let (i, world) := c.world.addManager
    ({ c with world }).give (.manager i)
  | .newScope manager =>
    let (i, world) := c.world.addScope none manager
    ({ c with world }).give (.scope i)
  | .release scope => if c.world.isExternal scope then c.release scope else c.give .absent
  | .onCancel token s => (c.push (.settling (.gave .unit))).onCancel token (.run s)
  | .listen slot kind handler token =>
    match (c.world.source? slot).map SourceCell.kind with
    | some (.hosted subscribe) =>
      (c.push (.settling (.gave .unit))).run (subscribe handler kind token)
    | _ => (c.mapWorld (World.register slot kind token (.handler handler))).give .unit
  | .emit slot e => c.emit p slot e
  | .arm slot kind after token => (c.mapWorld (World.arm slot kind after token)).give .unit
  | .advance slot span => c.advance slot span
  | .collect d limit => (c.push (.collecting .view)).gather (p.collect limit d)
  | .enter d limit token => (c.push (.collecting (.enter token))).gather (p.collect limit d)
  | .start initial settings signal => c.start p initial settings signal
  | .hold m =>
    if c.world.isHeld m then (c.mapWorld (World.modifyMachine m MachineCell.hold)).give .unit
    else c.give .absent
  | .drop m =>
    if c.world.isHeld m then
      (c.mapWorld (World.modifyMachine m MachineCell.dropHandle)).settleHandle m (.gave .unit)
    else c.give .absent
  | .send m source e => if c.world.isHeld m then (c.pin m).send m source e else c.give .absent
  | .forward m source e => c.forward m source e
  | .stop m => if c.world.isHeld m then (c.pin m).stop m else c.give .absent
  | .observe m f token =>
    if c.world.isHeld m then (c.mapWorld (World.addObserver m token (.script f))).give .unit
    else c.give .absent
  | .stream m token =>
    if c.world.isHeld m then
      let id : StreamId := ⟨c.world.streams.size⟩
      (c.mapWorld fun w =>
        { w with streams := w.streams.push [] }.addObserver m token (.stream id)).give (.stream id)
    else c.give .absent
  | .read s =>
    (c.mapWorld fun w => { w with streams := w.streams.modify s.index fun _ => [] }).give
      (.changes (c.world.streams[s.index]?.getD []) (c.isOpen s))

/-- Give an answer to a frame; the frame is no longer on the stack. -/
def resume (f : Frame H) (a : Answer) (c : Config H) : Option (Config H) :=
  match f, a with
  | .await k, a => some (c.run (k a))
  | .gathering k, .result r => some (c.gather (k r))
  | .acting state token rest, .result (.ok ()) => some (c.actNext state token rest)
  | .acting state _ _, .result (.error e) => some (c.give (.entered (.error (.entry state e))))
  | .activating m collected scope stage, .entered (.ok ()) =>
    some (c.subscribe m ⟨collected, RouteTable.build collected.directives, scope⟩ stage)
  | .activating m collected scope stage, .entered (.error e) =>
    some ((c.push (.abandoning m collected.name e stage)).release scope)
  | .subscribing m activation rest stage, .result _ =>
    some (c.subscribeNext p m activation rest stage)
  | .abandoning m state e stage, .unit => some (c.fallBack p m state e stage)
  | .leaving m previous next event, .unit =>
    some ((c.record p (.scopeReleased previous.name)).activate m next (.commit event previous))
  | .publishing m change rest, .result (.ok ()) => some (c.publishNext m change rest)
  | .publishing m change rest, .result (.error e) =>
    some ((c.record p (.listenerFailed Change.topic e)).publishNext m change rest)
  | .releasing scope rest, _ => some (c.runTeardowns scope rest)
  | .dispatching event rest report, .result (.ok ()) => some (c.dispatchNext event rest report)
  | .dispatching event rest report, .result (.error e) =>
    some ((c.record p (.listenerFailed event.kind e)).dispatchNext event rest
      { report with failures := report.failures ++ [e] })
  | .forwarding, .delivered r => some (c.give (.result ((r.map fun _ => ()).mapError .machine)))
  | .draining m _ none, .delivered r => some (c.drain m r)
  | .draining m kind (some first), .delivered r =>
    let c := match r with
      | .error e => c.record p (.queuedFailed kind e)
      | .ok _ => c
    some (c.drain m first)
  | .stopping m, .unit =>
    let label := ((c.world.machine? m).map (·.settings.label)).getD ""
    some (((c.mapWorld (World.modifyMachine m MachineCell.clearPending)).record p
      (.stopped label)).give .unit)
  | .holding m, a => some (c.unpin m (.gave a))
  | .starting m _, .entered (.error e) =>
    some (c.unpin m (.gave (.started (.error (.definition e)))))
  | .starting m none, .entered (.ok ()) => some (c.handOver m)
  | .starting m (some signal), .entered (.ok ()) =>
    some ((c.push (.signalled m)).onCancel signal (.stop m))
  | .signalled m, .unit => some (c.handOver m)
  | .dismantling m, .unit =>
    some ((c.mapWorld (World.modifyMachine m MachineCell.clearObservers)).give .unit)
  | .advancing slot target report, .report r => some (c.advanceNext p slot target (report.absorb r))
  | .settling o, _ => some (c.settle o)
  | _, _ => none

/-- One step. -/
def step (c : Config H) : Option (Config H) :=
  match c.control with
  | .run s =>
    match s with
    | .done r => some (c.give (.result r))
    | .panic message => some (c.panic message)
    | .update f next => some (({ c with host := f c.host }).run next)
    | .look k => some (c.run (k c.host c.world.view))
    | .call s k => some (p.call s (c.push (.await k)))
  | .gather g =>
    match g with
    | .done r =>
      match c.stack with
      | .collecting purpose :: rest => some (({ c with stack := rest }).useCollected p purpose r)
      | _ => none
    | .perform s k => some ((c.push (.gathering k)).run s)
    | .look k => some (c.gather (k c.host c.world.view))
  | .release scope => some (c.performRelease scope)
  | .stop m => some (c.performStop m)
  | .send m source e => some (c.performSend p m source e)
  | .route m source e => some (c.performRoute p m source e)
  | .give a =>
    match c.stack with
    | [] => none
    | f :: rest => p.resume f a { c with stack := rest }
  | .panic message =>
    match c.stack with
    | [] => none
    | f :: rest => ({ c with stack := rest } : Config H).unwind f message

/-- Take up to `fuel` steps, stopping where there is none. -/
def run : (fuel : Nat) → Config H → Config H
  | 0, c => c
  | fuel + 1, c =>
    match p.step c with
    | none => c
    | some c' => run fuel c'

end Program

end ScopedMachine

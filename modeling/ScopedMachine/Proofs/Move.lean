import ScopedMachine.Proofs.Run

/-!
# What a step can do

`Move` says once what a step can do. A move concerns at most one machine: then it is a `Turn` of that
machine, which looks only at the cell of the machine, the control and the frames on top, and has at
most one `Effect` elsewhere. The other moves leave all machines as they are. `Program.move_of_step`
shows that every step is a move; everything that holds at every instant is derived from it.
-/

namespace ScopedMachine

variable {H : Type}

/-! ## Frames and controls -/

namespace Frame

/-- The machine that a frame works for. -/
def machine? : Frame H → Option MachineId
  | .collecting (.initial m) | .collecting (.transition m _) | .activating m .. | .subscribing m ..
  | .abandoning m .. | .leaving m .. | .publishing m .. | .draining m .. | .stopping m
  | .holding m | .starting m _ | .signalled m | .dismantling m => some m
  | _ => none

section

variable {m : MachineId} {x y : Collected (Entry H)} {scope : ScopeId} {stage : Stage H}

@[simp] theorem machine?_initial : (collecting (.initial m) : Frame H).machine? = some m := rfl

@[simp] theorem machine?_transition {kind : String} :
    (collecting (.transition m kind) : Frame H).machine? = some m := rfl

@[simp] theorem machine?_activating : (activating m x scope stage).machine? = some m := rfl

@[simp] theorem machine?_subscribing {a : Activation H} {rest : List Route} :
    (subscribing m a rest stage).machine? = some m := rfl

@[simp] theorem machine?_abandoning {state : String} {error : DefinitionError} :
    (abandoning m state error stage).machine? = some m := rfl

@[simp] theorem machine?_leaving {event : String} :
    (leaving m x y event).machine? = some m := rfl

@[simp] theorem machine?_publishing {change : Change} {rest : List (Registration (Observer H))} :
    (publishing m change rest).machine? = some m := rfl

@[simp] theorem machine?_draining {kind : String} {first : Option (Except MachineError Delivery)} :
    (draining m kind first : Frame H).machine? = some m := rfl

@[simp] theorem machine?_stopping : (stopping m : Frame H).machine? = some m := rfl

@[simp] theorem machine?_holding : (holding m : Frame H).machine? = some m := rfl

@[simp] theorem machine?_starting {signal : Option ScopeId} :
    (starting m signal : Frame H).machine? = some m := rfl

@[simp] theorem machine?_signalled : (signalled m : Frame H).machine? = some m := rfl

@[simp] theorem machine?_dismantling : (dismantling m : Frame H).machine? = some m := rfl

@[simp] theorem machine?_acting {state : String} {rest : List (Entry H)} :
    (acting state scope rest).machine? = none := rfl

@[simp] theorem machine?_releasing {rest : List (Teardown H)} :
    (releasing scope rest).machine? = none := rfl

@[simp] theorem machine?_settling {o : Outcome} : (settling o : Frame H).machine? = none := rfl

end

/-- Whether a frame works for a machine. -/
def concerns (m : MachineId) (f : Frame H) : Bool := f.machine? == some m

/-- Whether a frame works for no machine and has no teardowns to run. -/
def isInert : Frame H → Bool
  | .releasing _ (_ :: _) => false
  | f => f.machine?.isNone

/-- Whether a frame is inert, no collection waits in it, and it releases nothing. -/
def isPlain : Frame H → Bool
  | .gathering _ | .releasing .. => false
  | f => f.isInert

end Frame

namespace Config

variable {w : World H} {h : H} {m : MachineId} {rest : List (Frame H)}

@[simp] theorem deed?_run {s : Script H} : deed? m ⟨w, h, .run s, rest⟩ = none := by
  unfold deed?
  split <;> rfl

@[simp] theorem deed?_gather {g} : deed? m ⟨w, h, .gather g, rest⟩ = none := by
  unfold deed?
  split <;> rfl

@[simp] theorem deed?_release {s} : deed? m ⟨w, h, .release s, rest⟩ = none := by
  unfold deed?
  split <;> rfl

@[simp] theorem deed?_stop {n} : deed? m ⟨w, h, .stop n, rest⟩ = none := by
  unfold deed?
  split <;> rfl

@[simp] theorem deed?_panic {message} : deed? m ⟨w, h, .panic message, rest⟩ = none := by
  unfold deed?
  split <;> rfl

/-- Nothing is done to a machine when an answer goes to a frame of another one, or of none. -/
theorem deed?_give {a : Answer} {f : Frame H} (hf : f.machine? ≠ some m) :
    deed? m ⟨w, h, .give a, f :: rest⟩ = none := by
  unfold deed?
  split
  · rfl
  · split <;> simp_all [Frame.machine?]

theorem deed?_free {a : Answer} {f : Frame H} (hf : f.machine? = none) :
    deed? m ⟨w, h, .give a, f :: rest⟩ = none :=
  deed?_give (by rw [hf]; nofun)

end Config

namespace Control

/-- Whether host code runs, an answer is given, or a panic unwinds the stack. -/
def isPlain : Control H → Bool
  | .run _ | .give _ | .panic _ => true
  | _ => false

/-- The machine that an operation is about to be carried out on. -/
def machine? : Control H → Option MachineId
  | .send m .. | .route m .. | .stop m => some m
  | _ => none

/-- Whether no operation on a machine is about to be carried out. -/
def isQuiet (ctl : Control H) : Bool := ctl.machine?.isNone

/-- Whether an operation on a machine that was pinned is about to be carried out. -/
def isCallOn (m : MachineId) : Control H → Bool
  | .send n .. | .stop n => n == m
  | _ => false

section

variable {m : MachineId} {source : SourceId} {e : Event} {ctl : Control H}

@[simp] theorem machine?_run {s : Script H} : (run s).machine? = none := rfl

@[simp] theorem machine?_gather {g : Gather H (Except DefinitionError (Collected (Entry H)))} :
    (gather g).machine? = none := rfl

@[simp] theorem machine?_release {s : ScopeId} : (release s : Control H).machine? = none := rfl

@[simp] theorem machine?_give {a : Answer} : (give a : Control H).machine? = none := rfl

@[simp] theorem machine?_panic {message : String} :
    (panic message : Control H).machine? = none := rfl

@[simp] theorem machine?_send : (send m source e : Control H).machine? = some m := rfl

@[simp] theorem machine?_route : (route m source e : Control H).machine? = some m := rfl

@[simp] theorem machine?_stop : (stop m : Control H).machine? = some m := rfl

theorem machine?_of_isPlain (plain : ctl.isPlain) : ctl.machine? = none := by
  cases ctl <;> simp_all [isPlain]

theorem machine?_of_isQuiet (quiet : ctl.isQuiet) : ctl.machine? = none := by
  simpa [isQuiet] using quiet

theorem machine?_of_isCallOn (call : ctl.isCallOn m) : ctl.machine? = some m := by
  cases ctl <;> simp_all [isCallOn]

end

end Control

/-- Whether running a teardown changes no registry and no clock. -/
def Teardown.isLoose : Teardown H → Bool
  | .run _ | .stop _ => true
  | .unlisten .. | .unobserve .. | .disarm .. => false

/-- How the frames on top may change without any consequence. -/
inductive Sheds : List (Frame H) → List (Frame H) → Prop where
  | inert {pops pushes : List (Frame H)} (hpops : ∀ f ∈ pops, f.isInert)
      (hpushes : ∀ f ∈ pushes, f.isPlain) : Sheds pops pushes
  | teardown {s : ScopeId} {t : Teardown H} {rest : List (Teardown H)} (loose : t.isLoose) :
      Sheds [.releasing s (t :: rest)] [.releasing s rest]

/-! ## Worlds -/

namespace World

/-- Two worlds with the same scopes, sources, machines and streams. -/
structure Alike (w w' : World H) : Prop where
  scopes : w'.scopes = w.scopes
  sources : w'.sources = w.sources
  machines : w'.machines = w.machines
  streams : w'.streams = w.streams

theorem Alike.refl (w : World H) : w.Alike w := ⟨rfl, rfl, rfl, rfl⟩

end World

namespace Observer

/-- The streams after an observer was registered: one that feeds a stream comes with a new one. -/
def enroll : Observer H → Array (List Change) → Array (List Change)
  | .script _, streams => streams
  | .stream _, streams => streams.push []

/-- The streams after an observer was told of a change. -/
def pour (change : Change) : Observer H → Array (List Change) → Array (List Change)
  | .script _, streams => streams
  | .stream s, streams => streams.modify s.index (· ++ [change])

end Observer

/-- What a turn of a machine does to the rest of the world. -/
inductive Effect (H : Type) where
  | none
  /-- A scope for an activation is added. -/
  | acquire (manager : Option ManagerId)
  /-- A teardown is hung off a scope. -/
  | hang (token : ScopeId) (t : Teardown H)
  /-- An observer is registered. -/
  | observe (token : ScopeId) (number : Nat) (o : Observer H)
  /-- An observer is told of a change. -/
  | tell (o : Observer H) (change : Change)
  /-- A route is registered on its source. -/
  | subscribe (token : ScopeId) (r : Route)

/-- The world after an effect, but for its streams. -/
def Effect.apply (m : MachineId) (w : World H) : Effect H → World H
  | .none | .tell .. => w
  | .acquire manager => (w.addScope (some m) manager).2
  | .hang token t => w.addTeardown token t
  | .observe token number _ => w.addTeardown token (.unobserve m number)
  | .subscribe token r => w.register r.source.slot r.type token (.route m r.source.id)

/-- The streams after an effect. -/
def Effect.streams (w : World H) : Effect H → Array (List Change)
  | .observe _ _ o => o.enroll w.streams
  | .tell o change => o.pour change w.streams
  | _ => w.streams

/-- A machine has a new cell, and an effect took place. -/
structure World.Turned (m : MachineId) (cell : MachineCell H) (e : Effect H) (w w' : World H) :
    Prop where
  machine (n : MachineId) : w'.machine? n = if n = m then some cell else w.machine? n
  scopes : w'.scopes = (e.apply m w).scopes
  sources : w'.sources = (e.apply m w).sources
  streams : w'.streams = e.streams w

/-- What a turn looks at: the cell of a machine, the control, and frames. -/
structure Pose (H : Type) where
  cell : MachineCell H
  control : Control H
  frames : List (Frame H)

/-- Release the scope of an activation, or go on if there is none. -/
def Control.ofRelease : Option (Activation H) → Control H
  | some a => .release a.scope
  | none => .give .unit

@[simp] theorem Control.machine?_ofRelease {a : Option (Activation H)} :
    (Control.ofRelease a).machine? = none := by
  cases a <;> rfl

/-! ## Turns -/

/-- The frame that is left when a state is entered with a new scope. -/
inductive Enters (m : MachineId) :
    Control H → Frame H → Collected (Entry H) → Stage H → Prop where
  | initial {x} :
      Enters m (.gather (.done (.ok x))) (.collecting (.initial m)) x .initial
  | next {previous x event} :
      Enters m (.give .unit) (.leaving m previous x event) x (.commit event previous)
  | again {state error event previous} :
      Enters m (.give .unit) (.abandoning m state error (.commit event previous)) previous
        (.restore state error)

/-- The frame of a call that held a handle on a machine. -/
inductive Pins (m : MachineId) : Frame H → Prop where
  | holding : Pins m (.holding m)
  | starting {signal} : Pins m (.starting m signal)
  | signalled : Pins m (.signalled m)

theorem Pins.machine? {m : MachineId} {f : Frame H} (pin : Pins m f) : f.machine? = some m := by
  cases pin <;> rfl

/-- The frames of a machine that a panic unwinds without any consequence. -/
inductive Unwinds (m : MachineId) : Frame H → Prop where
  | initial : Unwinds m (.collecting (.initial m))
  | transition {kind} : Unwinds m (.collecting (.transition m kind))
  | abandoning {state error stage} : Unwinds m (.abandoning m state error stage)
  | leaving {previous next event} : Unwinds m (.leaving m previous next event)
  | publishing {change rest} : Unwinds m (.publishing m change rest)
  | stopping : Unwinds m (.stopping m)

theorem Unwinds.machine? {m : MachineId} {f : Frame H} (unwinds : Unwinds m f) :
    f.machine? = some m := by
  cases unwinds <;> rfl

/-- What a step can do to one machine. The frames of a pose are the ones on top of the stack. -/
inductive Turn (p : Program H) (w : World H) (m : MachineId) :
    Option Deed → Effect H → Pose H → Pose H → Prop where
  -- Handles
  | pin {cell ctl ctl' pops pushes} (alive : cell.isAlive) (quiet : ctl.isQuiet)
      (call : ctl'.isCallOn m) (sheds : Sheds pops pushes)
      (asked : ctl' = .stop m →
        0 < cell.handles ∨ ∃ s ts, pops = [.releasing s (.stop m :: ts)]) :
      Turn p w m none .none ⟨cell, ctl, pops⟩ ⟨cell.pin, ctl', .holding m :: pushes⟩
  | hold {cell ctl ctl' frames} (held : 0 < cell.handles) (quiet : ctl.isQuiet)
      (plain : ctl'.isPlain) (inert : ∀ f ∈ frames, f.isPlain) :
      Turn p w m none .none ⟨cell, ctl, []⟩ ⟨cell.hold, ctl', frames⟩
  | drop {cell ctl ctl' frames} (held : 0 < cell.handles) (alive : cell.dropHandle.isAlive)
      (quiet : ctl.isQuiet) (plain : ctl'.isPlain) (inert : ∀ f ∈ frames, f.isPlain) :
      Turn p w m none .none ⟨cell, ctl, []⟩ ⟨cell.dropHandle, ctl', frames⟩
  | dropLast {cell ctl o frames} (held : 0 < cell.handles)
      (dead : cell.dropHandle.isAlive = false) (quiet : ctl.isQuiet)
      (inert : ∀ f ∈ frames, f.isPlain) :
      Turn p w m none .none ⟨cell, ctl, []⟩
        ⟨cell.dropHandle.clearCurrent, .ofRelease cell.current,
          .dismantling m :: .settling o :: frames⟩
  | unpin {cell ctl ctl' f} (pin : Pins m f) (alive : cell.unpin.isAlive) (quiet : ctl.isQuiet)
      (plain : ctl'.isPlain) :
      Turn p w m none .none ⟨cell, ctl, [f]⟩ ⟨cell.unpin, ctl', []⟩
  | unpinLast {cell ctl f o} (pin : Pins m f) (dead : cell.unpin.isAlive = false)
      (quiet : ctl.isQuiet) :
      Turn p w m none .none ⟨cell, ctl, [f]⟩
        ⟨cell.unpin.clearCurrent, .ofRelease cell.current, [.dismantling m, .settling o]⟩
  | dismantled {cell ctl ctl'} (quiet : ctl.isQuiet) (plain : ctl'.isPlain) :
      Turn p w m none .none ⟨cell, ctl, [.dismantling m]⟩ ⟨cell.clearObservers, ctl', []⟩
  -- The inbox
  | enqueue {cell source e ctl'} (busy : cell.inbox.draining) (plain : ctl'.isPlain) :
      Turn p w m (some (.sent source e)) .none ⟨cell, .send m source e, []⟩
        ⟨cell.enqueue source e, ctl', []⟩
  | claim {cell source e} (idle : cell.inbox.draining = false) :
      Turn p w m (some (.sent source e)) .none ⟨cell, .send m source e, []⟩
        ⟨cell.beginDraining, .route m source e, [.draining m e.kind none]⟩
  | next {cell a kind first r source e} (head : cell.inbox.pending.head? = some (source, e)) :
      Turn p w m none .none ⟨cell, .give a, [.draining m kind first]⟩
        ⟨cell.dequeue, .route m source e, [.draining m e.kind (some r)]⟩
  | finish {cell a kind first ctl'} (empty : cell.inbox.pending.head? = none)
      (plain : ctl'.isPlain) :
      Turn p w m none .none ⟨cell, .give a, [.draining m kind first]⟩
        ⟨cell.endDraining, ctl', []⟩
  -- Transitions
  | ignore {cell source e ctl'} (plain : ctl'.isPlain) :
      Turn p w m (some (.routed source e)) .none ⟨cell, .route m source e, []⟩ ⟨cell, ctl', []⟩
  | look {cell source e a target} (running : cell.status = .running)
      (current : cell.current = some a) (terminal : cell.terminal = false)
      (resolves : a.routes.resolve source e.kind = .matched target ∨
        ∃ candidates, a.routes.resolve source e.kind = .ambiguous target candidates) :
      Turn p w m (some (.routed source e)) .none ⟨cell, .route m source e, []⟩
        ⟨cell, .gather (p.collect cell.settings.delegationLimit target),
          [.collecting (.transition m e.kind)]⟩
  | giveUp {cell g kind ctl'} (plain : ctl'.isPlain) :
      Turn p w m none .none ⟨cell, .gather g, [.collecting (.transition m kind)]⟩
        ⟨cell, ctl', []⟩
  | leave {cell a x kind} (running : cell.status = .running) (current : cell.current = some a) :
      Turn p w m none .none ⟨cell, .gather (.done (.ok x)), [.collecting (.transition m kind)]⟩
        ⟨cell.clearCurrent, .release a.scope, [.leaving m a.collected x kind]⟩
  | enter {cell ctl f x stage} (enters : Enters m ctl f x stage) :
      Turn p w m none (.acquire (some cell.manager)) ⟨cell, ctl, [f]⟩
        ⟨cell, .give (.result (.ok ())),
          [.acting x.name ⟨w.scopes.size⟩ x.actions, .activating m x ⟨w.scopes.size⟩ stage]⟩
  | entered {cell x scope stage} :
      Turn p w m none .none ⟨cell, .give (.entered (.ok ())), [.activating m x scope stage]⟩
        ⟨cell, .give (.result (.ok ())),
          [.subscribing m ⟨x, .build x.directives, scope⟩ (RouteTable.build x.directives).routes
            stage]⟩
  | fail {cell x scope stage error} :
      Turn p w m none .none
        ⟨cell, .give (.entered (.error error)), [.activating m x scope stage]⟩
        ⟨cell, .release scope, [.abandoning m x.name error stage]⟩
  | subscribe {cell r a route rest stage}
      (plain : ∀ f, (w.source? route.source.slot).map SourceCell.kind ≠ some (.hosted f)) :
      Turn p w m none (.subscribe a.scope route)
        ⟨cell, .give (.result r), [.subscribing m a (route :: rest) stage]⟩
        ⟨cell, .give (.result (.ok ())), [.subscribing m a rest stage]⟩
  | subscribeHosted {cell r a route rest stage f s}
      (hosted : (w.source? route.source.slot).map SourceCell.kind = some (.hosted f)) :
      Turn p w m none .none ⟨cell, .give (.result r), [.subscribing m a (route :: rest) stage]⟩
        ⟨cell, .run s, [.subscribing m a rest stage]⟩
  | begin {cell r a} (idle : cell.status ≠ .stopped) :
      Turn p w m (some (.began a.collected.name)) .none
        ⟨cell, .give (.result r), [.subscribing m a [] .initial]⟩
        ⟨cell.begin a, .give (.entered (.ok ())), []⟩
  | beginStopped {cell r a o} (stopped : cell.status = .stopped) :
      Turn p w m (some (.began a.collected.name)) .none
        ⟨cell, .give (.result r), [.subscribing m a [] .initial]⟩
        ⟨(cell.install a).clearCurrent, .release a.scope, [.settling o]⟩
  | commit {cell r a event previous} (running : cell.status = .running) :
      Turn p w m
        (some (.committed
          ((cell.commit a event (w.wallClock w.readings)).change cell.state event))) .none
        ⟨cell, .give (.result r), [.subscribing m a [] (.commit event previous)]⟩
        ⟨cell.commit a event (w.wallClock w.readings), .give (.result (.ok ())),
          [.publishing m ((cell.commit a event (w.wallClock w.readings)).change cell.state event)
            (cell.observers.matching Change.topic)]⟩
  | restore {cell r a state cause} (running : cell.status = .running) :
      Turn p w m none .none ⟨cell, .give (.result r), [.subscribing m a [] (.restore state cause)]⟩
        ⟨{ cell with current := some a }, .give (.delivered (.error (.definition cause))), []⟩
  | orphan {cell r a stage o} (stopped : cell.status ≠ .running) (later : stage ≠ .initial) :
      Turn p w m none .none ⟨cell, .give (.result r), [.subscribing m a [] stage]⟩
        ⟨cell, .release a.scope, [.settling o]⟩
  | startFailed {cell ctl ctl' f}
      (first : f = .collecting (.initial m) ∨ ∃ state error, f = .abandoning m state error .initial)
      (quiet : ctl.isQuiet) (plain : ctl'.isPlain) :
      Turn p w m none .none ⟨cell, ctl, [f]⟩ ⟨cell, ctl', []⟩
  | restoreFailed {cell state previous error cause o} :
      Turn p w m none .none ⟨cell, .give .unit, [.abandoning m previous error (.restore state cause)]⟩
        ⟨cell, .stop m, [.settling o]⟩
  -- Observers
  | tell {cell a change r rest ctl'} (live : w.isCancelled r.token = false)
      (plain : ctl'.isPlain) :
      Turn p w m (some (.told r.number change)) (.tell r.listener change)
        ⟨cell, .give (.result a), [.publishing m change (r :: rest)]⟩
        ⟨cell, ctl', [.publishing m change rest]⟩
  | passOver {cell a change r rest} (cancelled : w.isCancelled r.token) :
      Turn p w m none .none ⟨cell, .give (.result a), [.publishing m change (r :: rest)]⟩
        ⟨cell, .give (.result (.ok ())), [.publishing m change rest]⟩
  | published {cell a change} :
      Turn p w m none .none ⟨cell, .give (.result a), [.publishing m change []]⟩
        ⟨cell, .give (.delivered (.ok (.transitioned change.previous change.state))), []⟩
  | observe {cell ctl ctl' token observer frames} (live : w.isCancelled token = false)
      (held : 0 < cell.handles) (quiet : ctl.isQuiet) (plain : ctl'.isPlain)
      (inert : ∀ f ∈ frames, f.isPlain)
      (fresh : ∀ s, observer = .stream s → s = ⟨w.streams.size⟩) :
      Turn p w m none (.observe token cell.observers.nextNumber observer) ⟨cell, ctl, []⟩
        ⟨{ cell with observers := cell.observers.add Change.topic token observer }, ctl', frames⟩
  | unobserve {cell a ctl' s number rest} (plain : ctl'.isPlain) :
      Turn p w m none .none ⟨cell, .give a, [.releasing s (.unobserve m number :: rest)]⟩
        ⟨{ cell with observers := cell.observers.remove number }, ctl', [.releasing s rest]⟩
  -- The end of a machine
  | stop {cell} (running : cell.status ≠ .stopped) :
      Turn p w m none .none ⟨cell, .stop m, []⟩ ⟨cell.stop, .ofRelease cell.current, [.stopping m]⟩
  | stopIgnored {cell ctl'} (stopped : cell.status = .stopped) (plain : ctl'.isPlain) :
      Turn p w m none .none ⟨cell, .stop m, []⟩ ⟨cell, ctl', []⟩
  | stopped {cell ctl'} (plain : ctl'.isPlain) :
      Turn p w m (some .discarded) .none ⟨cell, .give .unit, [.stopping m]⟩
        ⟨cell.clearPending, ctl', []⟩
  -- The start of a machine
  | signal {cell a signal ctl'} (live : w.isCancelled signal = false) (plain : ctl'.isPlain) :
      Turn p w m none (.hang signal (.stop m)) ⟨cell, .give a, [.starting m (some signal)]⟩
        ⟨cell, ctl', [.signalled m]⟩
  | signalAtOnce {cell a signal} (cancelled : w.isCancelled signal) (alive : cell.isAlive) :
      Turn p w m none .none ⟨cell, .give a, [.starting m (some signal)]⟩
        ⟨cell.pin, .stop m, [.holding m, .signalled m]⟩
  | signalGone {cell a signal ctl'} (cancelled : w.isCancelled signal)
      (dead : cell.isAlive = false) (plain : ctl'.isPlain) :
      Turn p w m none .none ⟨cell, .give a, [.starting m (some signal)]⟩
        ⟨cell, ctl', [.signalled m]⟩
  | handOver {cell a ctl' f} (pin : f = .starting m none ∨ f = .signalled m)
      (plain : ctl'.isPlain) :
      Turn p w m none .none ⟨cell, .give a, [f]⟩ ⟨cell.unpin.hold, ctl', []⟩
  -- Panics
  | unwind {cell message f} (unwinds : Unwinds m f) :
      Turn p w m none .none ⟨cell, .panic message, [f]⟩ ⟨cell, .panic message, []⟩
  | unwindDraining {cell message kind first} :
      Turn p w m none .none ⟨cell, .panic message, [.draining m kind first]⟩
        ⟨cell.resetInbox, .panic message, []⟩
  | unwindScope {cell message f scope o}
      (half : (∃ x stage, f = .activating m x scope stage) ∨
        ∃ a rest stage, f = .subscribing m a rest stage ∧ a.scope = scope) :
      Turn p w m none .none ⟨cell, .panic message, [f]⟩ ⟨cell, .release scope, [.settling o]⟩

/-! ## Moves -/

/-- What a step can do. -/
inductive Move (p : Program H) : Config H → Config H → Prop where
  | idle {w w' h h' ctl ctl'} (pops pushes rest : List (Frame H)) (alike : w.Alike w')
      (sheds : Sheds pops pushes) (quiet : ctl.isQuiet) (plain : ctl'.isPlain)
      (idle : ∀ m, Config.deed? m ⟨w, h, ctl, pops ++ rest⟩ = none) :
      Move p ⟨w, h, ctl, pops ++ rest⟩ ⟨w', h', ctl', pushes ++ rest⟩
  -- Collections
  | collect {w h h' s limit d rest} (frames : List (Frame H)) (inert : ∀ f ∈ frames, f.isPlain) :
      Move p ⟨w, h, .run s, rest⟩ ⟨w, h', .gather (p.collect limit d), frames ++ rest⟩
  | look {w h k rest} :
      Move p ⟨w, h, .gather (.look k), rest⟩ ⟨w, h, .gather (k h w.view), rest⟩
  | ask {w h s k rest} :
      Move p ⟨w, h, .gather (.perform s k), rest⟩ ⟨w, h, .run s, .gathering k :: rest⟩
  | hear {w h r k rest} :
      Move p ⟨w, h, .give (.result r), .gathering k :: rest⟩ ⟨w, h, .gather (k r), rest⟩
  -- Scopes
  | newScope {w h s manager ctl' rest} (frames : List (Frame H)) (plain : ctl'.isPlain)
      (inert : ∀ f ∈ frames, f.isPlain) :
      Move p ⟨w, h, .run s, rest⟩ ⟨(w.addScope none manager).2, h, ctl', frames ++ rest⟩
  | hang {w h s token s' ctl' rest} (frames : List (Frame H)) (live : w.isCancelled token = false)
      (plain : ctl'.isPlain) (inert : ∀ f ∈ frames, f.isPlain) :
      Move p ⟨w, h, .run s, rest⟩ ⟨w.addTeardown token (.run s'), h, ctl', frames ++ rest⟩
  | callRelease {w h s scope rest} (frames : List (Frame H)) (external : w.isExternal scope)
      (inert : ∀ f ∈ frames, f.isPlain) :
      Move p ⟨w, h, .run s, rest⟩ ⟨w, h, .release scope, frames ++ rest⟩
  | release {w h scope rest} (live : w.isCancelled scope = false) :
      Move p ⟨w, h, .release scope, rest⟩
        ⟨w.cancel scope, h, .give .unit, .releasing scope (w.teardowns scope) :: rest⟩
  | lose {w h message scope ts rest} :
      Move p ⟨w, h, .panic message, .releasing scope ts :: rest⟩ ⟨w, h, .panic message, rest⟩
  -- Sources
  | listen {w h s slot topic token f ctl' rest} (frames : List (Frame H)) (plain : ctl'.isPlain)
      (inert : ∀ f ∈ frames, f.isPlain) :
      Move p ⟨w, h, .run s, rest⟩
        ⟨w.register slot topic token (.handler f), h, ctl', frames ++ rest⟩
  | unlisten {w h a slot number scope ts ctl' rest} (plain : ctl'.isPlain) :
      Move p ⟨w, h, .give a, .releasing scope (.unlisten slot number :: ts) :: rest⟩
        ⟨w.modifySource slot fun s => { s with registry := s.registry.remove number }, h, ctl',
          .releasing scope ts :: rest⟩
  | unobserveGone {w w' h a m number scope ts ctl' rest} (alike : w.Alike w')
      (gone : w.machine? m = none) (plain : ctl'.isPlain) :
      Move p ⟨w, h, .give a, .releasing scope (.unobserve m number :: ts) :: rest⟩
        ⟨w', h, ctl', .releasing scope ts :: rest⟩
  | arm {w h slot kind after token k ctl' rest} (frames : List (Frame H)) (plain : ctl'.isPlain)
      (inert : ∀ f ∈ frames, f.isPlain) :
      Move p ⟨w, h, .run (.call (.arm slot kind after token) k), rest⟩
        ⟨w.arm slot kind after token, h, ctl', frames ++ rest⟩
  | disarm {w h a slot number scope ts ctl' rest} (plain : ctl'.isPlain) :
      Move p ⟨w, h, .give a, .releasing scope (.disarm slot number :: ts) :: rest⟩
        ⟨w.modifySource slot (SourceCell.modifyClock (Clock.disarm number)), h, ctl',
          .releasing scope ts :: rest⟩
  | tick {w h h' a slot f target report report' ctl' rest} (frames : List (Frame H))
      (plain : ctl'.isPlain) (inert : ∀ f ∈ frames, f.isPlain) :
      Move p ⟨w, h, .give a, .advancing slot target report :: rest⟩
        ⟨w.modifySource slot (SourceCell.modifyClock f), h', ctl',
          frames ++ .advancing slot target report' :: rest⟩
  | reached {w h a slot f target report ctl' rest} (plain : ctl'.isPlain) :
      Move p ⟨w, h, .give a, .advancing slot target report :: rest⟩
        ⟨w.modifySource slot (SourceCell.modifyClock f), h, ctl', rest⟩
  -- Streams
  | openStream {w h s ctl' rest} (frames : List (Frame H)) (plain : ctl'.isPlain)
      (inert : ∀ f ∈ frames, f.isPlain) :
      Move p ⟨w, h, .run s, rest⟩
        ⟨{ w with streams := w.streams.push [] }, h, ctl', frames ++ rest⟩
  | read {w h s k a rest} :
      Move p ⟨w, h, .run (.call (.read s) k), rest⟩
        ⟨{ w with streams := w.streams.modify s.index fun _ => [] }, h, .give a, .await k :: rest⟩
  -- Machines
  | start {w w' h h' s m cell signal d rest} (frames : List (Frame H)) (new : w.machine? m = none)
      (machine : ∀ n, w'.machine? n = if n = m then some cell else w.machine? n)
      (scopes : w'.scopes = w.scopes) (sources : w'.sources = w.sources)
      (streams : w'.streams = w.streams)
      (blank : ∃ settings manager,
        cell = { uuid := Uuid.ofNat m.index, settings, manager, pins := 1 })
      (inert : ∀ f ∈ frames, f.isPlain)
      (counts : cell.manager = ⟨w.managers.size⟩ ∧ w'.managers = w.managers.push {}) :
      Move p ⟨w, h, .run s, rest⟩
        ⟨w', h', .gather (p.collect cell.settings.delegationLimit d),
          .collecting (.initial m) :: .starting m signal :: (frames ++ rest)⟩
  | turn {w w' h h' m cell cell' ctl ctl' e} (pops pushes rest : List (Frame H))
      (found : w.machine? m = some cell)
      (turn : Turn p w m (Config.deed? m ⟨w, h, ctl, pops ++ rest⟩) e ⟨cell, ctl, pops⟩
        ⟨cell', ctl', pushes⟩)
      (turned : w.Turned m cell' e w')
      (others : ∀ n, n ≠ m → Config.deed? n ⟨w, h, ctl, pops ++ rest⟩ = none) :
      Move p ⟨w, h, ctl, pops ++ rest⟩ ⟨w', h', ctl', pushes ++ rest⟩

end ScopedMachine

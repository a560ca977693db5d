import ScopedMachine.World

/-!
# Configurations

What is under way in a world is a stack of frames. The innermost activity is the control: host code
that runs, a collection in progress, an operation that is about to be carried out, an answer on its
way to the frame below, or a panic that unwinds the stack. Every claim about "any instant" is a claim
about configurations.
-/

namespace ScopedMachine

variable {H : Type}

/-- What a definition is collected for. -/
inductive Purpose where
  /-- To be looked at by the host. -/
  | view
  /-- To be entered by the host with a token. -/
  | enter (token : ScopeId)
  /-- To be the first state of a machine. -/
  | initial (machine : MachineId)
  /-- To be the next state of a machine, because of an event of this kind. -/
  | transition (machine : MachineId) (kind : String)

/-- What becomes of an activation once it is entered. -/
inductive Stage (H : Type) where
  /-- It is the first one of the machine. -/
  | initial
  /-- It replaces `previous` because of an event. -/
  | commit (event : String) (previous : Collected (Entry H))
  /-- It is the previous one again, because `state` could not be entered. -/
  | restore (state : String) (cause : DefinitionError)

/-- How an activity ends. -/
inductive Outcome where
  | gave (a : Answer)
  | panicked (message : String)

/-- An activity that waits for the one above it. An activity that works off a list holds what is
left of it; each answer from above lets it take the next item. -/
inductive Frame (H : Type) where
  /-- Host code waits for the answer to a call. -/
  | await (k : Answer → Script H)
  /-- A collection waits for host code. -/
  | gathering (k : Except Fault Unit → Gather H (Except DefinitionError (Collected (Entry H))))
  /-- Somebody waits for a collection. -/
  | collecting (purpose : Purpose)
  /-- The entry actions of `state` run. -/
  | acting (state : String) (token : ScopeId) (rest : List (Entry H))
  /-- The entry actions of a new activation run. -/
  | activating (machine : MachineId) (collected : Collected (Entry H)) (scope : ScopeId)
      (stage : Stage H)
  /-- The routes of a new activation are being subscribed. -/
  | subscribing (machine : MachineId) (activation : Activation H) (rest : List Route)
      (stage : Stage H)
  /-- The scope of `state`, whose entry failed, is being released. -/
  | abandoning (machine : MachineId) (state : String) (error : DefinitionError) (stage : Stage H)
  /-- The scope of the activation that is being left is released. -/
  | leaving (machine : MachineId) (previous next : Collected (Entry H)) (event : String)
  /-- The observers of a machine are told of a change. -/
  | publishing (machine : MachineId) (change : Change) (rest : List (Registration (Observer H)))
  /-- The teardowns of a scope run. -/
  | releasing (scope : ScopeId) (rest : List (Teardown H))
  /-- The listeners of an event are called. -/
  | dispatching (event : Event) (rest : List (Registration (Listener H))) (report : Report)
  /-- A listener waits for the machine it sent an event to. -/
  | forwarding
  /-- A machine handles an event of this kind; `first` is how the first one went, if it is over. -/
  | draining (machine : MachineId) (kind : String) (first : Option (Except MachineError Delivery))
  /-- The scope of a machine that is being stopped is released. -/
  | stopping (machine : MachineId)
  /-- A call holds a handle on a machine. -/
  | holding (machine : MachineId)
  /-- A machine enters its first state. -/
  | starting (machine : MachineId) (signal : Option ScopeId)
  /-- A machine that was started is stopped by a signal that was cancelled before. -/
  | signalled (machine : MachineId)
  /-- A machine that nobody holds any more is taken down. -/
  | dismantling (machine : MachineId)
  /-- The timers of a clock that are due by `target` fire. -/
  | advancing (slot : Nat) (target : Span) (report : Report)
  /-- An activity is over but for what happens above. -/
  | settling (outcome : Outcome)

/-- The innermost activity. -/
inductive Control (H : Type) where
  | run (s : Script H)
  | gather (g : Gather H (Except DefinitionError (Collected (Entry H))))
  /-- Release a scope, unless that has happened. -/
  | release (scope : ScopeId)
  /-- Stop a machine, unless it was stopped. -/
  | stop (machine : MachineId)
  /-- Send an event to a machine. -/
  | send (machine : MachineId) (source : SourceId) (event : Event)
  /-- Route an event against the current state of a machine. -/
  | route (machine : MachineId) (source : SourceId) (event : Event)
  | give (a : Answer)
  | panic (message : String)

/-- A world with what is under way in it. -/
structure Config (H : Type) where
  world : World H
  host : H
  control : Control H
  stack : List (Frame H) := []

namespace Config

/-- The first thing to happen next is an answer to the frame on top. -/
def give (a : Answer) (c : Config H) : Config H := { c with control := .give a }

/-- Host code runs next. -/
def run (s : Script H) (c : Config H) : Config H := { c with control := .run s }

/-- A collection goes on next. -/
def gather (g : Gather H (Except DefinitionError (Collected (Entry H)))) (c : Config H) :
    Config H :=
  { c with control := .gather g }

/-- A scope is released next. -/
def release (scope : ScopeId) (c : Config H) : Config H := { c with control := .release scope }

/-- A machine is stopped next. -/
def stop (m : MachineId) (c : Config H) : Config H := { c with control := .stop m }

/-- An event is sent to a machine next. -/
def send (m : MachineId) (source : SourceId) (e : Event) (c : Config H) : Config H :=
  { c with control := .send m source e }

/-- An event is routed next. -/
def route (m : MachineId) (source : SourceId) (e : Event) (c : Config H) : Config H :=
  { c with control := .route m source e }

/-- A panic unwinds the frame on top next. -/
def panic (message : String) (c : Config H) : Config H := { c with control := .panic message }

/-- An activity ends. -/
def settle (o : Outcome) (c : Config H) : Config H :=
  match o with
  | .gave a => c.give a
  | .panicked message => c.panic message

/-- Put a frame on top. -/
def push (f : Frame H) (c : Config H) : Config H := { c with stack := f :: c.stack }

/-- Change the world. -/
def mapWorld (f : World H → World H) (c : Config H) : Config H := { c with world := f c.world }

/-- Tell the host what happens. -/
def record (p : Program H) (r : Record) (c : Config H) : Config H :=
  { c with host := p.subscriber r c.host }

end Config

end ScopedMachine

import ScopedMachine.Record

/-!
# Scenarios

A scenario is a host written as data: event sources, definitions, and a list of steps. Everything
that outlives a step has a name: scopes, machines, streams, counters. Callbacks are lists of
instructions of the same kind as the steps.
-/

namespace ScopedMachine.Scenario

/-- How a definition is referred to. -/
inductive Ref where
  /-- The definition declared under a key, the same one every time. -/
  | shared (key : String)
  /-- A new copy of the definition declared under a key. -/
  | fresh (key : String)
  /-- A new alias of a definition. -/
  | renamed (name : String) (of : Ref)
  /-- So many aliases around a definition, numbered from the innermost, which is 1. -/
  | chain (length : Nat) (name : String) (of : Ref)

/-- When an instruction is carried out; otherwise it is passed over. -/
structure Guard where
  /-- The value of a counter must lie between a lower bound and below an upper one. -/
  counter : Option (String × Int × Int) := none
  /-- The change being notified must lead to this state. -/
  state : Option String := none

/-- How a machine is started. -/
structure Launch where
  machine : String
  initial : Option Ref
  /-- Whether single settings are put on top of the configuration. -/
  piecewise : Bool
  /-- The written form of the settings. -/
  config : Option Value
  label : Option String
  depth : Option Nat
  record : Option Bool
  /-- The scope that stops the machine when it is released. -/
  signal : Option String

mutual

/-- Something to do. -/
inductive Op where
  | log (value : Value)
  /-- Add one to a counter. -/
  | count (key : String)
  /-- The event being delivered. -/
  | event
  /-- The change being notified. -/
  | change
  | panic (message : String)
  /-- End the callback with a fault. -/
  | fail (fault : Fault)
  | emit (source kind : String) (detail : Value)
  | listen (source kind : String) (callback : List Instruction)
  | listeners (source : String) (kinds : List String)
  | arm (source kind : String) (after : Span)
  | advance (source : String) (span : Span)
  | newScope (name : String) (manager : Option String)
  | release (name : String)
  | dropScope (name : String)
  | cancelled
  | sameScope (other : String)
  | onCancel (callback : List Instruction)
  | collect (definition : Ref) (depth : Option Nat) (inspect : Bool)
  | enter (definition : Ref) (depth : Option Nat)
  | routes (definition : Ref) (depth : Option Nat) (queries : List (String × String))
  /-- Check a definition, or the directives that were collected from it. -/
  | check (definition : Ref) (depth : Option Nat) (collected : Bool)
  | start (launch : Launch)
  | send (machine source kind : String) (detail : Value)
  | stop (machine : String)
  | drop (machine : String)
  | clone (machine copy : String)
  | info (machine : String)
  | history (machine : String)
  | debug (machine : String)
  | observe (machine : String) (callback : List Instruction)
  | stream (machine name : String)
  | read (stream : String)
  | dropStream (stream : String)

/-- An operation with its guard. `strict` ends the callback when the operation fails, and `scope`
names the scope whose token is used instead of the callback's own. -/
inductive Instruction where
  | mk (guard : Guard) (strict : Bool) (scope : Option String) (op : Op)

end

/-- The name of an operation in the log. -/
def Op.name : Op → String
  | .log _ => "log"
  | .count _ => "count"
  | .event => "event"
  | .change => "change"
  | .panic _ => "panic"
  | .fail _ => "fail"
  | .emit .. => "emit"
  | .listen .. => "listen"
  | .listeners .. => "listeners"
  | .arm .. => "arm"
  | .advance .. => "advance"
  | .newScope .. => "scope"
  | .release _ => "release"
  | .dropScope _ => "drop_scope"
  | .cancelled => "cancelled"
  | .sameScope _ => "same_scope"
  | .onCancel _ => "on_cancel"
  | .collect .. => "collect"
  | .enter .. => "enter"
  | .routes .. => "routes"
  | .check .. => "check"
  | .start _ => "start"
  | .send .. => "send"
  | .stop _ => "stop"
  | .drop _ => "drop"
  | .clone .. => "clone"
  | .info _ => "info"
  | .history _ => "history"
  | .debug _ => "debug"
  | .observe .. => "observe"
  | .stream .. => "stream"
  | .read _ => "read"
  | .dropStream _ => "drop_stream"

/-- One line of a body. -/
inductive Line where
  | entry (callback : List Instruction)
  | listenTo (source : String) (types : List String)
  | moveTo (type : String) (target : Ref)
  | accumulate (value : Value)
  /-- Carry the present value of a counter. -/
  | accumulateCounter (key : String)
  | exit
  | continueAs (target : Ref)
  /-- Continue as a definition and go on whether or not that worked. -/
  | tryContinue (target : Ref)
  | fail (fault : Fault)
  | perform (callback : List Instruction)

/-- A definition: its name and the guarded lines of its body. -/
structure Declaration where
  name : String
  lines : List (Guard × Line)

/-- What an event source is. -/
inductive SourcePlan where
  | emitter (label : String)
  | timer (label : String)
  /-- Another handle on an earlier source. -/
  | clone (of : String)
  /-- A source of the host's own around an emitter: subscribing to one of the replayed event types
  delivers it at once. A sticky one ignores the tokens of its subscriptions. -/
  | custom (label : String) (replay : List String) (sticky : Bool) (sameId : Option String)

end ScopedMachine.Scenario

namespace ScopedMachine

/-- A host written as data. -/
structure Scenario where
  sources : List (String × Scenario.SourcePlan)
  declarations : List (String × Scenario.Declaration)
  steps : List Scenario.Instruction
  /-- The least important level of the records to log, if any are. -/
  tracing : Option Level

end ScopedMachine

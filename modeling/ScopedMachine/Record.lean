import ScopedMachine.Issue
import ScopedMachine.Report
import ScopedMachine.Text.Quoted

/-!
# Records

The machinery tells a subscriber what it does as it does it. Each kind of record has a level, a
message and named fields.
-/

namespace ScopedMachine

/-- How important a record is. -/
inductive Level where
  | trace
  | debug
  | info
  | warn
  | error
deriving DecidableEq

namespace Level

/-- The rank of a level; a higher rank is more important. -/
def rank : Level → Nat
  | .trace => 0
  | .debug => 1
  | .info => 2
  | .warn => 3
  | .error => 4

/-- The word for a level. -/
def name : Level → String
  | .trace => "TRACE"
  | .debug => "DEBUG"
  | .info => "INFO"
  | .warn => "WARN"
  | .error => "ERROR"

end Level

/-- Something that the machinery did. -/
inductive Record where
  | collected (state : String) (directives : Nat)
  | dispatching (source kind : String)
  | timerFired (timer kind : String)
  | queued (kind : String)
  | terminalIgnored (state kind : String)
  | unmatched (state kind : String)
  | scopeReleased (state : String)
  | entered (state : String) (routes : Nat)
  | started (label state : String)
  | stopped (label : String)
  | transitioned (source target event : String)
  | ambiguous (issue : Issue)
  | collectFailed (error : DefinitionError)
  | restoring (state previous : String) (error : DefinitionError)
  | queuedFailed (kind : String) (error : MachineError)
  | listenerFailed (topic : String) (error : Fault)
  | restoreFailed (previous : String) (error : DefinitionError)

namespace Record

/-- The level of a record. -/
def level : Record → Level
  | .collected .. | .dispatching .. => .trace
  | .timerFired .. | .queued _ | .terminalIgnored .. | .unmatched .. | .scopeReleased _
  | .entered .. => .debug
  | .started .. | .stopped _ | .transitioned .. => .info
  | .ambiguous _ | .collectFailed _ | .restoring .. | .queuedFailed .. | .listenerFailed .. => .warn
  | .restoreFailed .. => .error

/-- The message of a record. -/
def message : Record → String
  | .collected .. => "collected directives"
  | .dispatching .. => "dispatching event"
  | .timerFired .. => "timer fired"
  | .queued _ => "event queued behind transition"
  | .terminalIgnored .. => "terminal state; event ignored"
  | .unmatched .. => "no transition for event"
  | .scopeReleased _ => "scope released"
  | .entered .. => "state entered"
  | .started .. => "machine started"
  | .stopped _ => "machine stopped"
  | .transitioned .. => "transitioned"
  | .ambiguous _ => "ambiguous transition"
  | .collectFailed _ => "target state failed to yield directives"
  | .restoring .. => "entering state failed; restoring previous state"
  | .queuedFailed .. => "queued event failed to transition"
  | .listenerFailed .. => "listener failed; continuing with remaining listeners"
  | .restoreFailed .. => "restoring previous state failed; stopping machine"

/-- The named fields of a record, all as text. -/
def fields : Record → List (String × String)
  | .collected state directives => [("state", state), ("directives", toString directives)]
  | .dispatching source kind => [("source", source), ("kind", kind)]
  | .timerFired timer kind => [("timer", timer), ("kind", kind)]
  | .queued kind => [("kind", kind)]
  | .terminalIgnored state kind | .unmatched state kind => [("state", state), ("kind", kind)]
  | .scopeReleased state => [("state", state)]
  | .entered state routes => [("state", state), ("routes", toString routes)]
  | .started label state => [("label", label), ("state", state)]
  | .stopped label => [("label", label)]
  | .transitioned source target event =>
    [("from", source), ("to", target), ("event", Text.enclose "Some(" [Text.quote event] ")")]
  | .ambiguous issue => [("issue", issue.message)]
  | .collectFailed error => [("error", error.message)]
  | .restoring state previous error =>
    [("state", state), ("previous", previous), ("error", error.message)]
  | .queuedFailed kind error => [("kind", kind), ("error", error.message)]
  | .listenerFailed topic error => [("topic", topic), ("error", error.message)]
  | .restoreFailed previous error => [("previous", previous), ("error", error.message)]

end Record

end ScopedMachine

import ScopedMachine.Event
import ScopedMachine.Fault
import ScopedMachine.History

/-!
# What a machine reports

Settings go into a machine; deliveries, changes and snapshots come out of it. A report sums up one
dispatch: how many listeners were called, and how they failed.
-/

namespace ScopedMachine

/-- The life cycle of a machine, apart from the states it is in. -/
inductive Status where
  | idle
  | running
  | stopped
deriving DecidableEq

/-- The word for a status. -/
def Status.name : Status → String
  | .idle => "Idle"
  | .running => "Running"
  | .stopped => "Stopped"

/-- What a machine is started with. -/
structure Settings where
  /-- The name used in records. -/
  label : String := "machine"
  /-- How deep delegation may nest while a state is collected. -/
  delegationLimit : Nat := 32
  /-- Whether completed transitions are recorded. -/
  recordHistory : Bool := true
deriving DecidableEq

/-- A machine must be allowed to delegate at least once. -/
def Settings.validate (s : Settings) : Except BuildError Unit :=
  if s.delegationLimit = 0 then .error .invalidDelegationDepth else .ok ()

/-- What became of one event. -/
inductive Delivery where
  /-- No transition applies, or the machine is not running. -/
  | ignored
  /-- Another event is being handled; this one is routed after it. -/
  | queued
  | transitioned (source target : String)
deriving DecidableEq

/-- Told to observers once per completed transition. -/
structure Change where
  machine : Uuid
  /-- 1 for the first transition after the start, then one more each time. -/
  sequence : Nat
  previous : String
  state : String
  aliases : List String
  event : Option String
  accumulator : Option Value
deriving DecidableEq

/-- The topic of changes. -/
def Change.topic : String := "StateChanged"

/-- A view of a machine at one point in time. -/
structure Snapshot where
  machine : Uuid
  state : String
  aliases : List String
  status : Status
  terminal : Bool
  accumulator : Option Value
  transitions : Nat
deriving DecidableEq

/-- The outcome of delivering one value to every matching listener. -/
structure Report where
  delivered : Nat := 0
  failures : List Fault := []

namespace Report

/-- Whether no listener failed. -/
def isClean (r : Report) : Bool := r.failures.isEmpty

/-- Both reports together, the failures of `r` first. -/
def absorb (r s : Report) : Report := ⟨r.delivered + s.delivered, r.failures ++ s.failures⟩

end Report

/-- How many scopes were acquired and released. -/
structure Tally where
  acquired : Nat := 0
  released : Nat := 0
deriving DecidableEq

namespace Tally

/-- The scopes acquired and not yet released. -/
def live (t : Tally) : Nat := t.acquired - t.released

end Tally

end ScopedMachine

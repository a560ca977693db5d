import ScopedMachine.Inspect
import ScopedMachine.RouteTable
import ScopedMachine.Scenario.Plan
import ScopedMachine.Script
import ScopedMachine.Record
import ScopedMachine.Wire.Codec

/-!
# The state of a scenario

A desk holds what a scenario has names for, its counters, and the log of the step under way.
-/

namespace ScopedMachine.Scenario

/-- The result of an operation. -/
inductive Result where
  | nothing
  | value (v : Value)
  | number (n : Nat)
  | truth (b : Bool)
  /-- Whether a scope was released before and after. -/
  | released (before after : Bool)
  /-- A fixed answer, or a text. -/
  | text (s : String)
  | fault (f : Fault)
  | undecodable (e : Wire.DecodeError)
  | event (e : Option Event)
  | change (c : Option Change)
  | report (r : Report)
  | listeners (total : Nat) (each : List Nat)
  | collected (c : Collected Unit) (inspected : Option String)
  | routes (table : RouteTable) (resolved : List Resolution)
  | issues (issues : List Issue)
  | started (state : String)
  | delivery (d : Delivery)
  | info (m : MachineView)
  | history (h : History)
  | changes (changes : List Change) (isOpen : Bool)

/-- The fault of an operation that failed; that of a dispatch is the first one in its report. -/
def Result.fault? : Result → Option Fault
  | .fault f => some f
  | .report r => r.failures.head?
  | _ => none

/-- An entry of the log. -/
inductive LogEntry where
  /-- An operation of a callback is over. -/
  | did (name : String) (result : Result)
  | teardownFailed (fault : Fault)
  /-- An event was replayed to a new subscription. -/
  | replayed (kind : String) (r : Except Fault Unit)
  | record (r : Record)

/-- A list of named things. -/
abbrev Named (α : Type) := List (String × α)

namespace Named

variable {α : Type}

/-- Give a name to a thing; what had the name before loses it. -/
def put (name : String) (a : α) : Named α → Named α
  | [] => [(name, a)]
  | (k, b) :: rest => if k = name then (name, a) :: rest else (k, b) :: put name a rest

/-- Forget a name. -/
def forget (name : String) (xs : Named α) : Named α := xs.filter (·.1 != name)

end Named

/-- What a name of a scope stands for: a token, and the scope itself while it is at hand. -/
structure NamedScope where
  token : ScopeId
  held : Option ScopeId := none

/-- The state of a scenario. -/
structure Desk where
  counters : Named Nat := []
  scopes : Named NamedScope := []
  managers : Named ManagerId := []
  machines : Named MachineId := []
  streams : Named StreamId := []
  /-- The log of the step, newest entry first. -/
  log : List LogEntry := []
  /-- The result of the step, once it is over. -/
  result : Option Result := none

namespace Desk

/-- The value of a counter. -/
def counter (key : String) (d : Desk) : Nat := (d.counters.lookup key).getD 0

/-- Add an entry to the log. -/
def write (e : LogEntry) (d : Desk) : Desk := { d with log := e :: d.log }

/-- Add one to a counter. -/
def count (key : String) (d : Desk) : Desk :=
  { d with counters := d.counters.put key (d.counter key + 1) }

/-- Give a name to a new scope and its token. -/
def nameScope (name : String) (scope : ScopeId) (d : Desk) : Desk :=
  { d with scopes := d.scopes.put name { token := scope, held := some scope } }

/-- The scope at a name, if it is at hand. -/
def heldScope? (name : String) (d : Desk) : Option ScopeId :=
  (d.scopes.lookup name).bind NamedScope.held

/-- Put a scope at hand under a name, or take it away; the token of the name stays. -/
def holdScope (name : String) (held : Option ScopeId) (d : Desk) : Desk :=
  match d.scopes.lookup name with
  | some s => { d with scopes := d.scopes.put name { s with held } }
  | none => d

end Desk

/-- Whether an instruction is to be carried out. -/
def Guard.holds (g : Guard) (d : Desk) (change : Option Change) : Bool :=
  let counter := match g.counter with
    | none => true
    | some (key, lo, hi) =>
      let n : Int := d.counter key
      decide (lo ≤ n) && decide (n < hi)
  let state := match g.state with
    | none => true
    | some s => (change.map Change.state) == some s
  counter && state

/-- Whether a guard lets everything pass. -/
def Guard.isTrivial (g : Guard) : Bool := g.counter.isNone && g.state.isNone

end ScopedMachine.Scenario

/-!
# Faults

A fault is what a callback answers when it fails: a plain message, or an error of the machinery
itself. `DefinitionError` says why a definition did not yield or enter, `MachineError` why a machine
did not start or did not take a transition. `message` is the text of each and `source?` the fault
behind it.
-/

namespace ScopedMachine

/-- What is wrong with the settings a machine is started with. -/
inductive BuildError where
  | missingInitialState
  | invalidDelegationDepth
deriving DecidableEq

mutual

/-- A failure that a callback can answer. -/
inductive Fault where
  | plain (text : String)
  | build (error : BuildError)
  | definition (error : DefinitionError)
  | machine (error : MachineError)

/-- Why a definition could not be collected or entered. -/
inductive DefinitionError where
  /-- The body of `state` failed. -/
  | failure (state : String) (source : Fault)
  /-- An entry action of `state` failed. -/
  | entry (state : String) (source : Fault)
  /-- A body was continued into while it was still running. -/
  | cycle (chain : List String)
  /-- Delegating into `state` would nest deeper than `limit`. -/
  | tooDeep (state : String) (limit : Nat)

/-- Why a machine could not start or change state. -/
inductive MachineError where
  | build (error : BuildError)
  | definition (error : DefinitionError)
  /-- Entering `state` failed with `cause`, then entering `previous` again failed with `source`. -/
  | restoreFailed (state previous : String) (cause source : DefinitionError)

end

namespace BuildError

/-- The text of a build error. -/
def message : BuildError → String
  | .missingInitialState =>
    "Initial state not specified. Call .initial(state) before .start()"
  | .invalidDelegationDepth => "Delegation depth must be at least 1"

end BuildError

mutual

/-- The text of a fault. -/
def Fault.message : Fault → String
  | .plain text => text
  | .build error => error.message
  | .definition error => error.message
  | .machine error => error.message

/-- The text of a definition error. -/
def DefinitionError.message : DefinitionError → String
  | .failure state source =>
    s!"state '{state}' failed while yielding directives: {source.message}"
  | .entry state source => s!"entry action of state '{state}' failed: {source.message}"
  | .cycle chain => "delegation cycle: " ++ " -> ".intercalate chain
  | .tooDeep state limit => s!"delegating into '{state}' exceeds the depth limit of {limit}"

/-- The text of a machine error. -/
def MachineError.message : MachineError → String
  | .build error => error.message
  | .definition error => error.message
  | .restoreFailed state previous cause source =>
    s!"entering '{state}' failed ({cause.message}) and restoring '{previous}' failed: " ++
      source.message

end

namespace DefinitionError

/-- The fault behind a definition error. -/
def source? : DefinitionError → Option Fault
  | .failure _ source | .entry _ source => some source
  | .cycle _ | .tooDeep .. => none

/-- The state that a definition error is attributed to. -/
def state? : DefinitionError → Option String
  | .failure state _ | .entry state _ | .tooDeep state _ => some state
  | .cycle _ => none

/-- A fault of the body of `state`; a definition error keeps the state it was raised for. -/
def ofBody (state : String) : Fault → DefinitionError
  | .definition error => error
  | fault => .failure state fault

end DefinitionError

namespace MachineError

/-- The definition error behind a machine error. -/
def definition? : MachineError → Option DefinitionError
  | .definition error => some error
  | .restoreFailed _ _ cause _ => some cause
  | .build _ => none

/-- The fault behind a machine error; a wrapped error passes its own source on. -/
def source? : MachineError → Option Fault
  | .build _ => none
  | .definition error => error.source?
  | .restoreFailed _ _ _ source => some (.definition source)

end MachineError

namespace Fault

/-- The fault behind a fault. -/
def source? : Fault → Option Fault
  | .plain _ | .build _ => none
  | .definition error => error.source?
  | .machine error => error.source?

end Fault

end ScopedMachine

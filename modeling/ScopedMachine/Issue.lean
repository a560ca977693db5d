import ScopedMachine.Directive
import ScopedMachine.Fault

/-!
# Checks of a definition

Questionable directives do not stop a machine: the first declared target wins, and a terminal state
never moves. `Collected.issues` lists everything that is probably not what was meant.
-/

namespace ScopedMachine

/-- A recoverable problem in the directives of a state. -/
inductive Issue where
  /-- Several transitions name the same event. -/
  | ambiguousTransition (state type : String) (candidates : List String)
  /-- A transition names an event that is never listened for. -/
  | unlistenedTransition (state type : String)
  /-- A terminal state also declares transitions. -/
  | terminalWithTransitions (state : String) (types : List String)
  /-- The directives could not be collected. -/
  | uncollectable (state reason : String)
deriving DecidableEq

/-- The text of an issue. -/
def Issue.message : Issue → String
  | .ambiguousTransition state type candidates =>
    s!"state '{state}' declares {candidates.length} transitions on '{type}' (" ++
      ", ".intercalate candidates ++ "); the first declared wins"
  | .unlistenedTransition state type =>
    s!"state '{state}' transitions on '{type}' but never listens for it"
  | .terminalWithTransitions state types =>
    s!"terminal state '{state}' declares transitions on " ++ ", ".intercalate types
  | .uncollectable state reason => s!"state '{state}' could not be collected: {reason}"

namespace Collected

variable {E : Type}

/-- The event types that transitions name, each once, in the order of their first declaration. -/
def movedTypes (c : Collected E) : List String :=
  c.moves.foldl (fun types m => if types.contains m.1 then types else types ++ [m.1]) []

/-- The names of the targets of an event type in declaration order. -/
def targetNames (c : Collected E) (type : String) : List String :=
  (c.moves.filter (·.1 == type)).map (·.2.name)

/-- The issues of one event type. -/
def typeIssues (c : Collected E) (type : String) : List Issue :=
  let names := c.targetNames type
  (if 1 < names.length then [.ambiguousTransition c.name type names] else []) ++
    (if c.listenedTypes.contains type then [] else [.unlistenedTransition c.name type])

/-- All issues: those of each event type, then that of a terminal state that declares any. -/
def issues (c : Collected E) : List Issue :=
  c.movedTypes.flatMap c.typeIssues ++
    (if c.isTerminal && !c.movedTypes.isEmpty then
      [.terminalWithTransitions c.name c.movedTypes] else [])

end Collected

/-- All issues of a definition: those of its directives, or that there are none to be had. -/
def Definition.issues {E : Type} (d : Definition) :
    Except DefinitionError (Collected E) → List Issue
  | .ok c => c.issues
  | .error e => [.uncollectable d.name e.message]

end ScopedMachine

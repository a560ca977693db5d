import ScopedMachine.Event
import ScopedMachine.TypeSet

/-!
# Definitions and directives

A definition names a body; running the body yields directives. A definition that is declared once
and shared has an identity of its own, by which re-entering its body is noticed. One that is built
afresh, or stands for another under a new name, is a new body each time it is written down.

`Collected` is the list of directives that one activation yielded. `E` is the type of the entry
actions in it: code when a machine enters it, nothing when it is only looked at.
-/

namespace ScopedMachine

/-- A state definition. -/
inductive Definition where
  /-- The declared body of `key`, one body however often it is referred to. -/
  | shared (key name : String)
  /-- A new copy of the declared body of `key`. -/
  | fresh (key name : String)
  /-- A new body that continues as `target`. -/
  | renamed (name : String) (target : Definition)
deriving DecidableEq

namespace Definition

/-- The declared name. -/
def name : Definition → String
  | .shared _ name | .fresh _ name | .renamed name _ => name

/-- The key of the body, when it can be met again. -/
def identity? : Definition → Option String
  | .shared key _ => some key
  | .fresh .. | .renamed .. => none

end Definition

/-- One instruction yielded by a body. -/
inductive Directive (E : Type) where
  /-- Run an action when the state is entered. -/
  | entry (action : E)
  /-- Listen to these event types on a source while the state is current. -/
  | listenTo (source : Source) (types : TypeSet)
  /-- Move to `target` when an event of this type arrives. -/
  | moveTo (type : String) (target : Definition)
  /-- Carry a value. -/
  | accumulate (value : Value)
  /-- The state is terminal. -/
  | exit

namespace Directive

variable {E F : Type}

/-- Replace the entry action. -/
def map (f : E → F) : Directive E → Directive F
  | .entry action => .entry (f action)
  | .listenTo source types => .listenTo source types
  | .moveTo type target => .moveTo type target
  | .accumulate value => .accumulate value
  | .exit => .exit

/-- The entry action of a directive. -/
def action? : Directive E → Option E
  | .entry action => some action
  | _ => none

/-- The source and the types that a directive listens to. -/
def listened? : Directive E → Option (Source × TypeSet)
  | .listenTo source types => some (source, types)
  | _ => none

/-- The event type and target of a transition. -/
def move? : Directive E → Option (String × Definition)
  | .moveTo type target => some (type, target)
  | _ => none

/-- The value that a directive carries. -/
def value? : Directive E → Option Value
  | .accumulate value => some value
  | _ => none

/-- Whether a directive marks the state as terminal. -/
def isExit : Directive E → Bool
  | .exit => true
  | _ => false

end Directive

/-- All directives of one activation, with the name of the state after resolving aliases. -/
structure Collected (E : Type) where
  name : String
  /-- The definitions passed through on the way to `name`, outermost first. -/
  aliases : List String
  directives : List (Directive E)

namespace Collected

variable {E F : Type}

/-- Replace the entry actions. -/
def map (f : E → F) (c : Collected E) : Collected F where
  name := c.name
  aliases := c.aliases
  directives := c.directives.map (Directive.map f)

/-- The entry actions in declaration order. -/
def actions (c : Collected E) : List E := c.directives.filterMap Directive.action?

/-- Whether the state has exited. -/
def isTerminal (c : Collected E) : Bool := c.directives.any Directive.isExit

/-- The value carried last, if any. -/
def accumulator (c : Collected E) : Option Value :=
  (c.directives.filterMap Directive.value?).getLast?

/-- The event types and targets of the transitions in declaration order. -/
def moves (c : Collected E) : List (String × Definition) := c.directives.filterMap Directive.move?

/-- Every event type that is listened to. -/
def listenedTypes (c : Collected E) : TypeSet :=
  (c.directives.filterMap Directive.listened?).foldl (fun s l => s.union l.2) TypeSet.empty

end Collected

end ScopedMachine

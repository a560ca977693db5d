import ScopedMachine.Record
import ScopedMachine.Script

/-!
# Bodies and their collection

A `Body` is the code of a definition. It yields directives one after the other, may continue as
another definition in place, and may run host code in between. `Program.collect` runs a body to its
end.

Delegation is watched by the frames of the definitions that are running. Continuing into a body that
has a frame already is a cycle; otherwise the nesting is bounded by a limit. A frame that yielded
nothing of its own and continued as exactly one definition is an alias of it.
-/

namespace ScopedMachine

variable {H : Type}

/-- The code of a definition. -/
inductive Body (H : Type) where
  | finish (r : Except Fault Unit)
  | yield (directive : Directive (Entry H)) (next : Body H)
  /-- Yield every directive of `target` here, then go on with whether that worked. -/
  | continueAs (target : Definition) (k : Except DefinitionError Unit → Body H)
  | perform (script : Script H) (k : Except Fault Unit → Body H)
  | look (k : H → View → Body H)

/-- A computation that may wait for host code. -/
inductive Gather (H : Type) (α : Type) where
  | done (a : α)
  | perform (script : Script H) (k : Except Fault Unit → Gather H α)
  | look (k : H → View → Gather H α)

namespace Gather

variable {α β : Type}

/-- Go on with the result of a computation. -/
def bind (g : Gather H α) (f : α → Gather H β) : Gather H β :=
  match g with
  | .done a => f a
  | .perform s k => .perform s fun r => (k r).bind f
  | .look k => .look fun h v => (k h v).bind f

/-- Change the result of a computation. -/
def map (f : α → β) (g : Gather H α) : Gather H β := g.bind fun a => .done (f a)

end Gather

/-- A definition that is known by its final name. -/
structure Resolved where
  name : String
  aliases : List String
deriving DecidableEq

/-- A running definition: what it yielded itself, and what it continued as. -/
structure BodyFrame where
  name : String
  identity? : Option String
  own : Nat := 0
  delegates : List Resolved := []
deriving DecidableEq

namespace BodyFrame

/-- The frame of a definition that starts to run. -/
def ofDefinition (d : Definition) : BodyFrame where
  name := d.name
  identity? := d.identity?

/-- A frame with nothing of its own and one delegate is an alias of that delegate. -/
def resolve (f : BodyFrame) : Resolved :=
  match f.own, f.delegates with
  | 0, [delegate] => ⟨delegate.name, f.name :: delegate.aliases⟩
  | _, _ => ⟨f.name, []⟩

end BodyFrame

/-- The directives yielded so far, and the frames of the running definitions, innermost first. -/
structure Collector (H : Type) where
  directives : List (Directive (Entry H)) := []
  frame : BodyFrame
  outer : List BodyFrame := []

namespace Collector

/-- The collector of a definition that nothing continued into. -/
def root (d : Definition) : Collector H where
  frame := .ofDefinition d

/-- All frames, innermost first. -/
def frames (c : Collector H) : List BodyFrame := c.frame :: c.outer

/-- Record a directive of the running definition. -/
def push (d : Directive (Entry H)) (c : Collector H) : Collector H :=
  { c with directives := c.directives ++ [d], frame := { c.frame with own := c.frame.own + 1 } }

/-- Start to run a definition inside the running one. -/
def enter (d : Definition) (c : Collector H) : Collector H :=
  { c with frame := .ofDefinition d, outer := c.frames }

/-- Whether the body of a definition is running. -/
def isRunning (d : Definition) (c : Collector H) : Bool :=
  match d.identity? with
  | none => false
  | some key => c.frames.any fun f => f.identity? == some key

/-- The names of the running definitions, outermost first. -/
def names (c : Collector H) : List String := (c.frames.map BodyFrame.name).reverse

/-- End the running definition; one that succeeded counts as a delegate of the one around it. -/
def leave (succeeded : Bool) (c : Collector H) : Collector H :=
  match c.outer with
  | [] => c
  | parent :: outer =>
    let delegates :=
      if succeeded then parent.delegates ++ [c.frame.resolve] else parent.delegates
    { c with frame := { parent with delegates }, outer }

/-- The directives of the outermost definition, under its final name. -/
def finish (c : Collector H) : Collected (Entry H) :=
  let resolved := c.frame.resolve
  ⟨resolved.name, resolved.aliases, c.directives⟩

end Collector

/-- Run a body; `delegate` runs the definitions that it continues as. -/
def Body.follow
    (delegate : Definition → Collector H → Gather H (Collector H × Except DefinitionError Unit)) :
    Body H → Collector H → Gather H (Collector H × Except Fault Unit)
  | .finish r, c => .done (c, r)
  | .yield d next, c => next.follow delegate (c.push d)
  | .continueAs target k, c =>
    (delegate target c).bind fun x => (k x.2).follow delegate x.1
  | .perform s k, c => .perform s fun r => (k r).follow delegate c
  | .look k, c => .look fun h v => (k h v).follow delegate c

/-- The code of a world: the declared bodies, and what the host does with a record. -/
structure Program (H : Type) where
  declared : String → Body H
  subscriber : Record → H → H

namespace Program

variable (p : Program H)

/-- The body of a definition. -/
def body : Definition → Body H
  | .shared key _ | .fresh key _ => p.declared key
  | .renamed _ target =>
    .continueAs target fun r => .finish (r.mapError Fault.definition)

/-- Continue as a definition while `room` more frames may be opened. -/
def delegate (limit : Nat) :
    Nat → Definition → Collector H → Gather H (Collector H × Except DefinitionError Unit)
  | room, target, c =>
    if c.isRunning target then .done (c, .error (.cycle (c.names ++ [target.name])))
    else match room with
      | 0 => .done (c, .error (.tooDeep target.name limit))
      | room + 1 =>
        ((p.body target).follow (delegate limit room) (c.enter target)).map fun x =>
          match x.2 with
          | .ok () => (x.1.leave true, .ok ())
          | .error fault => (x.1.leave false, .error (.ofBody target.name fault))

/-- Run a definition to the end of its body, following delegation up to `limit` levels deep. -/
def collect (limit : Nat) (d : Definition) :
    Gather H (Except DefinitionError (Collected (Entry H))) :=
  ((p.body d).follow (p.delegate limit limit) (.root d)).map fun x =>
    match x.2 with
    | .ok () => .ok x.1.finish
    | .error fault => .error (.ofBody d.name fault)

end Program

end ScopedMachine

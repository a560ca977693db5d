import ScopedMachine.Directive

/-!
# Routing tables

The table of an activation pairs every event type it listens to with the targets declared for that
type. An event is resolved against it by source and type; of several targets the first declared one
is taken.
-/

namespace ScopedMachine

/-- An event type on a source, with the targets that apply to it in declaration order. -/
structure Route where
  source : Source
  type : String
  targets : List Definition
deriving DecidableEq

/-- How an event resolves. -/
inductive Resolution where
  /-- Nothing listens for the event, or nothing moves on it. -/
  | unmatched
  | matched (target : Definition)
  /-- Several targets apply and the first declared one is chosen. -/
  | ambiguous (chosen : Definition) (candidates : List String)
deriving DecidableEq

namespace Route

/-- Whether the route is that of an event type on a source. -/
def isFor (source : SourceId) (type : String) (r : Route) : Bool :=
  r.source.id == source && r.type == type

end Route

/-- The routes of one activation, in the order in which they are subscribed. -/
structure RouteTable where
  routes : List Route
deriving DecidableEq

namespace RouteTable

variable {E : Type}

/-- Add the route of a type on a source, unless the table has it already. -/
def add (moves : List (String × Definition)) (source : Source) (routes : List Route)
    (type : String) : List Route :=
  if routes.any (Route.isFor source.id type) then routes
  else routes ++ [⟨source, type, (moves.filter (·.1 == type)).map (·.2)⟩]

/-- The table of a list of directives; a type listened to twice on a source is routed once. -/
def build (directives : List (Directive E)) : RouteTable where
  routes :=
    let moves := directives.filterMap Directive.move?
    (directives.filterMap Directive.listened?).foldl
      (fun routes l => l.2.toList.foldl (add moves l.1) routes) []

/-- The outcome of an event of a type from a source. -/
def resolve (t : RouteTable) (source : SourceId) (type : String) : Resolution :=
  match t.routes.find? (Route.isFor source type) with
  | none => .unmatched
  | some r =>
    match r.targets with
    | [] => .unmatched
    | [only] => .matched only
    | first :: _ => .ambiguous first (r.targets.map Definition.name)

/-- The number of routes. -/
def size (t : RouteTable) : Nat := t.routes.length

end RouteTable

end ScopedMachine

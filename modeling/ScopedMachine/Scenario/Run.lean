import ScopedMachine.Engine.Step
import ScopedMachine.Scenario.Compile

/-!
# Running scenarios

The sources are made first, then the steps are taken one after the other. Each step answers its
result, what was logged during it, and what can be seen of the world after it.
-/

namespace ScopedMachine.Scenario

/-- How a step ended. -/
inductive Ending where
  | result (r : Result)
  | panicked (message : String)
  /-- The step came to no end. -/
  | unfinished

/-- What can be seen of a world by name. -/
structure Survey where
  machines : Named MachineView
  /-- Each source with whether it is a timer. -/
  sources : Named (SourceView × Bool)
  /-- Whether the token of each scope is cancelled. -/
  scopes : Named Bool
  managers : Named Tally

/-- What a step shows. -/
structure Observation where
  ending : Ending
  log : List LogEntry
  survey : Survey

/-- What subscribing to a custom source around an emitter does. -/
def subscribeCustom (emitter : Nat) (replay : List String) (keeper : Option ScopeId)
    (handler : Handler Desk) (kind : String) (token : ScopeId) : Script Desk :=
  let register : Script Desk :=
    .call (.listen emitter kind handler (keeper.getD token)) fun _ => .ok
  if replay.contains kind then
    (handler { kind }).andThen fun r => .update (Desk.write (.replayed kind r)) register
  else register

/-- Make a source. -/
def SourcePlan.build (made : Named Outlet) (w : World Desk) :
    SourcePlan → Outlet × World Desk
  | .emitter label =>
    let (source, w) := w.addSource label .emitter none
    (⟨source, source.slot, false⟩, w)
  | .timer label =>
    let (source, w) := w.addSource label (.timer {}) none
    (⟨source, source.slot, true⟩, w)
  | .clone of => (({ sources := made, declarations := [] } : Env).source of, w)
  | .custom label replay sticky sameId =>
    let (inner, w) := w.addSource label .emitter none
    let (keeper, w) :=
      if sticky then
        let (token, w) := w.addScope none none
        (some token, w)
      else (none, w)
    let id := sameId.bind fun name => (made.lookup name).map (·.source.id)
    let (source, w) := w.addSource "source" (.hosted (subscribeCustom inner.slot replay keeper)) id
    (⟨source, inner.slot, false⟩, w)

/-- Make all sources, in order. -/
def buildSources (plans : Named SourcePlan) (w : World Desk) : Named Outlet × World Desk :=
  plans.foldl (fun (made, w) (name, plan) =>
    let (outlet, w) := plan.build made w
    (made ++ [(name, outlet)], w)) ([], w)

/-- Look at everything that has a name. -/
def survey (env : Env) (d : Desk) (v : View) : Survey where
  machines := d.machines.filterMap fun (name, m) => (v.machine? m).map fun m => (name, m)
  sources := env.sources.map fun (name, o) => (name, v.source o.emitter, o.isTimer)
  scopes := d.scopes.map fun (name, s) => (name, v.cancelled s.token)
  managers := d.managers.map fun (name, i) => (name, v.manager i)

/-- The steps of the machinery that one step of a scenario may take. -/
def fuel : Nat := Nat.pow 2 60

/-- Take one step of a scenario. -/
def takeStep (p : Program Desk) (env : Env) (w : World Desk) (d : Desk) (i : Instruction) :
    Observation × World Desk × Desk :=
  let start : Config Desk :=
    { world := w, host := { d with log := [], result := none }, control := .run (i.main env) }
  let c := p.run fuel start
  let ending : Ending := match c.control, c.stack, c.host.result with
    | .give _, [], some r => .result r
    | .panic message, [], _ => .panicked message
    | _, _, _ => .unfinished
  (⟨ending, c.host.log.reverse, survey env c.host c.world.view⟩, c.world, c.host)

/-- Take steps one after the other. -/
def takeSteps (p : Program Desk) (env : Env) :
    World Desk → Desk → List Instruction → List Observation
  | _, _, [] => []
  | w, d, i :: rest =>
    let (o, w, d) := takeStep p env w d i
    o :: takeSteps p env w d rest

/-- The midnight that began the year 1970. -/
def epoch : Moment where
  date := ⟨1970, 1, 1, by decide, by decide, by decide⟩
  second := 0
  nano := 0
  second_lt := by decide
  nano_lt := by decide

/-- Log the records of a level or a more important one. -/
def logRecord (tracing : Option Level) (r : Record) (d : Desk) : Desk :=
  match tracing with
  | some least => if least.rank ≤ r.level.rank then d.write (.record r) else d
  | none => d

/-- What each step of a scenario shows. -/
def run (s : Scenario) : List Observation :=
  let (sources, world) := buildSources s.sources { wallClock := fun _ => epoch }
  let env : Env := { sources, declarations := s.declarations }
  let p : Program Desk :=
    { declared := fun key =>
        match s.declarations.lookup key with
        | some d => bodyOf env d.lines
        | none => .finish (.ok ())
      subscriber := logRecord s.tracing }
  takeSteps p env world {} s.steps

end ScopedMachine.Scenario

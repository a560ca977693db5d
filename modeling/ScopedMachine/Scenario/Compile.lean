import ScopedMachine.Body
import ScopedMachine.Scenario.Desk

/-!
# From operations to host code

Operations become scripts over the desk and bodies become bodies. An operation hands its result to
what comes next; in a callback it is written to the log first.
-/

namespace ScopedMachine.Scenario

/-- An event source as a scenario knows it. -/
structure Outlet where
  source : Source
  /-- The place of the emitter behind the source. -/
  emitter : Nat
  isTimer : Bool

/-- What names of a scenario mean throughout. -/
structure Env where
  sources : Named Outlet
  declarations : Named Declaration

namespace Env

/-- The declared name of a definition. -/
def nameOf (env : Env) (key : String) : String :=
  ((env.declarations.lookup key).map Declaration.name).getD key

/-- The definition that a reference stands for. -/
def definition (env : Env) : Ref → Definition
  | .shared key => .shared key (env.nameOf key)
  | .fresh key => .fresh key (env.nameOf key)
  | .renamed name target => .renamed name (env.definition target)
  | .chain length name target =>
    (List.range length).foldl (fun d i => .renamed (name ++ toString (i + 1)) d)
      (env.definition target)

/-- The outlet at a name. -/
def source (env : Env) (name : String) : Outlet :=
  (env.sources.lookup name).getD ⟨⟨0, ⟨Uuid.ofNat 0⟩, name⟩, 0, false⟩

end Env

/-- What a callback knows of its call. -/
structure Context where
  /-- The token that the callback was registered with. -/
  token : Option ScopeId := none
  event : Option Event := none
  change : Option Change := none

/-- The result of an operation on a definition that could not be collected. -/
def Result.definitionFault (e : DefinitionError) : Result := .fault (.definition e)

/-- A piece of host code that has a result to go on with. -/
abbrev Step := (Result → Script Desk) → Script Desk

/-- The limit of delegation unless one is given. -/
def standardDepth : Nat := ({} : Settings).delegationLimit

namespace Step

/-- Go on at once. -/
def pure (r : Result) : Step := fun k => k r

/-- Go on with what can be read off the desk and the world. -/
def read (f : Desk → View → Result) : Step := fun k => .look fun d v => k (f d v)

/-- Make a call and go on with its answer. -/
def call (c : Call (Script Desk)) (f : Answer → Result) : Step := fun k => .call c fun a => k (f a)

/-- A machine on which no handle is held. -/
def noMachine : Result := .text "no machine"

/-- The token of a named scope, or else the callback's own. -/
def withToken (ctx : Context) (scope : Option String) (f : ScopeId → Step) : Step := fun k =>
  .look fun d _ =>
    match (scope.elim ctx.token fun name => (d.scopes.lookup name).map NamedScope.token) with
    | some token => f token k
    | none => k (.text "no scope")

/-- The machine at a name. -/
def withMachine (name : String) (f : MachineId → Step) : Step := fun k =>
  .look fun d _ =>
    match d.machines.lookup name with
    | some m => f m k
    | none => k noMachine

/-- What can be seen of the machine at a name. -/
def viewMachine (name : String) (f : MachineView → Result) : Step :=
  read fun d v =>
    match (d.machines.lookup name).bind v.machine? with
    | some m => f m
    | none => noMachine

/-- Give up the handle that a name stood for before. -/
def dropOldHandle (old : Option MachineId) (r : Result) : Step := fun k =>
  match old with
  | some m => .call (.drop m) fun _ => k r
  | none => k r

/-- The counter of scopes at a name, made when it is first used. -/
def withManager (manager : Option String) (f : Option ManagerId → Step) : Step := fun k =>
  match manager with
  | none => f none k
  | some name => .look fun d _ =>
    match d.managers.lookup name with
    | some i => f (some i) k
    | none => .call .newManager fun
      | .manager i => .update (fun d => { d with managers := d.managers.put name i }) (f (some i) k)
      | _ => f none k

/-- Drop the scope that was at hand before, which releases it. -/
def dropOldScope (old : Option ScopeId) (r : Result) : Step := fun k =>
  match old with
  | some scope => .call (.release scope) fun _ => k r
  | none => k r

/-- Make a scope; the one that had the name before is released. -/
def newScope (name : String) (manager : Option String) : Step :=
  withManager manager fun i k => .call (.newScope i) fun
    | .scope scope => .look fun d _ =>
      .update (Desk.nameScope name scope) (dropOldScope (d.heldScope? name) .nothing k)
    | _ => k .nothing

/-- Release a scope, which is not at hand meanwhile; one that was made under its name meanwhile
gives way to it. -/
def release (name : String) : Step := fun k =>
  .look fun d v =>
    match d.heldScope? name with
    | none => k (.text "gone")
    | some scope => .update (Desk.holdScope name none) <| .call (.release scope) fun _ =>
      .look fun d w => .update (Desk.holdScope name (some scope)) <|
        dropOldScope (d.heldScope? name) (.released (v.cancelled scope) (w.cancelled scope)) k

/-- Drop a scope, which releases it. -/
def dropScope (name : String) : Step := fun k =>
  .look fun d _ =>
    match d.heldScope? name with
    | none => k (.text "gone")
    | some scope => .update (Desk.holdScope name none) <| .call (.release scope) fun _ =>
      k (.text "dropped")

/-- Go on with the directives of a definition. -/
def collected (d : Definition) (depth : Option Nat) (failed : DefinitionError → Result)
    (f : Collected Unit → Result) : Step :=
  call (.collect d (depth.getD standardDepth)) fun
    | .collected (.ok c) => f c
    | .collected (.error e) => failed e
    | _ => .nothing

/-- Read a setup off its written form; without one it has its defaults. -/
def setup? (l : Launch) : Except Wire.DecodeError Setup :=
  match l.config with
  | none => .ok {}
  | some v => Setup.decode v

/-- The settings with single ones put on top. -/
def pieced (l : Launch) (s : Settings) : Settings where
  label := l.label.getD s.label
  delegationLimit := l.depth.getD s.delegationLimit
  recordHistory := l.record.getD s.recordHistory

/-- Start a machine and keep the handle under its name. -/
def start (env : Env) (l : Launch) : Step := fun k =>
  .look fun d _ =>
    match setup? l with
    | .error e => k (.undecodable e)
    | .ok s =>
      match l.initial with
      | none => k (.fault (.machine (.build .missingInitialState)))
      | some initial =>
        let signal := l.signal.bind fun name => (d.scopes.lookup name).map NamedScope.token
        let settings := if l.piecewise then pieced l s.settings else s.settings
        .call (.start (env.definition initial) settings (signal <|> s.signal)) fun
          | .started (.ok m) => .look fun d v =>
            let state := ((v.machine? m).map (·.snapshot.state)).getD ""
            .update (fun d => { d with machines := d.machines.put l.machine m })
              (dropOldHandle (d.machines.lookup l.machine) (.started state) k)
          | .started (.error e) => k (.fault (.machine e))
          | _ => k .nothing

/-- Send an event to a machine. -/
def send (env : Env) (machine source kind : String) (detail : Value) : Step :=
  withMachine machine fun m => call (.send m (env.source source).source.id { kind, detail }) fun
    | .delivered (.ok d) => .delivery d
    | .delivered (.error e) => .fault (.machine e)
    | _ => noMachine

/-- The result of a call that answers nothing, unless the machine is not there. -/
def orNoMachine : Answer → Result
  | .absent => noMachine
  | _ => .nothing

/-- Forget a handle. -/
def drop (machine : String) : Step :=
  withMachine machine fun m k =>
    .update (fun d => { d with machines := d.machines.forget machine }) <|
      .call (.drop m) fun _ => k .nothing

/-- Keep another handle under a second name. -/
def clone (machine copy : String) : Step :=
  withMachine machine fun m k => .call (.hold m) fun _ => .look fun d _ =>
    .update (fun d => { d with machines := d.machines.put copy m })
      (dropOldHandle (d.machines.lookup copy) .nothing k)

/-- Keep a stream of the changes of a machine under a name. -/
def stream (m : MachineId) (name : String) (token : ScopeId) : Step := fun k =>
  .call (.stream m token) fun
    | .stream id => .update (fun d => { d with streams := d.streams.put name id }) (k .nothing)
    | _ => k noMachine

/-- Read a stream. -/
def readStream (name : String) : Step := fun k =>
  .look fun d _ =>
    match d.streams.lookup name with
    | none => k (.text "no stream")
    | some id => .call (.read id) fun
      | .changes items isOpen => k (.changes items isOpen)
      | _ => k .nothing

end Step

mutual

/-- The code of an operation. -/
def Op.step (env : Env) (ctx : Context) (scope : Option String) : Op → Step
  | .log v => .pure (.value v)
  | .count key => fun k => .update (Desk.count key) (.look fun d _ => k (.number (d.counter key)))
  | .event => .pure (.event ctx.event)
  | .change => .pure (.change ctx.change)
  | .panic message => fun _ => .panic message
  | .fail fault => fun _ => .done (.error fault)
  | .emit source kind detail => .call (.emit (env.source source).emitter { kind, detail }) fun
    | .report r => .report r
    | _ => .nothing
  | .listen source kind callback => .withToken ctx scope fun token =>
    .call (.listen (env.source source).source.slot kind
      (fun e => callbackScript env { token := some token, event := some e } callback) token)
      fun _ => .nothing
  | .listeners source kinds => .read fun _ v =>
    let topics := (v.source (env.source source).emitter).topics
    .listeners topics.length (kinds.map fun kind => topics.countP (· == kind))
  | .arm source kind after => .withToken ctx scope fun token =>
    .call (.arm (env.source source).emitter kind after token) fun _ => .nothing
  | .advance source span => .call (.advance (env.source source).emitter span) fun
    | .report r => .report r
    | _ => .nothing
  | .newScope name manager => .newScope name manager
  | .release name => .release name
  | .dropScope name => .dropScope name
  | .cancelled => .withToken ctx scope fun token => .read fun _ v => .truth (v.cancelled token)
  | .sameScope other => .withToken ctx scope fun token => .withToken ctx (some other) fun token' =>
    .pure (.truth (token == token'))
  | .onCancel callback => .withToken ctx scope fun token =>
    .call (.onCancel token
      ((callbackScript env { token := some token } callback).andThen fun
        | .ok () => .ok
        | .error f => .update (Desk.write (.teardownFailed f)) .ok))
      fun _ => .nothing
  | .collect d depth inspect => .collected (env.definition d) depth .definitionFault fun c =>
    .collected c (if inspect then some c.inspect else none)
  | .enter d depth => .withToken ctx scope fun token =>
    .call (.enter (env.definition d) (depth.getD standardDepth) token) fun
      | .entered (.ok ()) => .text "ok"
      | .entered (.error e) => .fault (.definition e)
      | _ => .nothing
  | .routes d depth queries => .collected (env.definition d) depth .definitionFault fun c =>
    let table := RouteTable.build c.directives
    .routes table (queries.map fun q => table.resolve (env.source q.1).source.id q.2)
  | .check d depth collected =>
    let d := env.definition d
    .collected d depth
      (fun e => if collected then .fault (.definition e)
        else .issues (d.issues (E := Unit) (.error e)))
      fun c => .issues (d.issues (.ok c))
  | .start launch => .start env launch
  | .send machine source kind detail => .send env machine source kind detail
  | .stop machine => .withMachine machine fun m => .call (.stop m) Step.orNoMachine
  | .drop machine => .drop machine
  | .clone machine copy => .clone machine copy
  | .info machine => .viewMachine machine .info
  | .history machine => .viewMachine machine fun m => .history m.history
  | .debug machine => .viewMachine machine fun m => .text (m.inspect "ID")
  | .observe machine callback => .withMachine machine fun m => .withToken ctx scope fun token =>
    .call (.observe m
      (fun c => callbackScript env { token := some token, change := some c } callback) token)
      Step.orNoMachine
  | .stream machine name => .withMachine machine fun m => .withToken ctx scope fun token =>
    .stream m name token
  | .read name => .readStream name
  | .dropStream name => fun k => .look fun d _ =>
    .update (fun d => { d with streams := d.streams.forget name })
      (k (.truth (d.streams.lookup name).isSome))

/-- The code of a callback: its instructions in order, until one ends it. -/
def callbackScript (env : Env) (ctx : Context) : List Instruction → Script Desk
  | [] => .ok
  | .mk guard strict scope op :: rest => .look fun d _ =>
    if guard.holds d ctx.change then
      op.step env ctx scope fun r => .update (Desk.write (.did op.name r)) <|
        match strict, r.fault? with
        | true, some f => .done (.error f)
        | _, _ => callbackScript env ctx rest
    else callbackScript env ctx rest

end

/-- The code of a step of the scenario itself: the result is left on the desk. -/
def Instruction.main (env : Env) : Instruction → Script Desk
  | .mk _ _ scope op =>
    op.step env {} scope fun r => .update (fun d => { d with result := some r }) .ok

/-- The code of a line, in front of the rest of the body. -/
def Line.body (env : Env) (next : Body Desk) : Line → Body Desk
  | .entry callback =>
    .yield (.entry fun token => callbackScript env { token := some token } callback) next
  | .listenTo source types =>
    .yield (.listenTo (env.source source).source (TypeSet.ofList types)) next
  | .moveTo type target => .yield (.moveTo type (env.definition target)) next
  | .accumulate value => .yield (.accumulate value) next
  | .accumulateCounter key =>
    .look fun d _ => .yield (.accumulate (.int (d.counter key))) next
  | .exit => .yield .exit next
  | .continueAs target => .continueAs (env.definition target) fun
    | .ok () => next
    | .error e => .finish (.error (.definition e))
  | .tryContinue target => .continueAs (env.definition target) fun r =>
    let result : Result := match r with
      | .ok () => .text "ok"
      | .error e => .fault (.definition e)
    .perform (.update (Desk.write (.did "try_continue" result)) .ok) fun _ => next
  | .fail fault => .finish (.error fault)
  | .perform callback => .perform (callbackScript env {} callback) fun
    | .ok () => next
    | .error f => .finish (.error f)

/-- The code of the lines of a body. -/
def bodyOf (env : Env) : List (Guard × Line) → Body Desk
  | [] => .finish (.ok ())
  | (guard, line) :: rest =>
    let next := bodyOf env rest
    if guard.isTrivial then line.body env next
    else .look fun d _ => if guard.holds d none then line.body env next else next

end ScopedMachine.Scenario

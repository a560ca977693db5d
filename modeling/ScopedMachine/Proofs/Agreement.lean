import ScopedMachine.Proofs.Beneath
import ScopedMachine.Proofs.Inbox
import ScopedMachine.Proofs.Rest

/-!
# Emitting and sending agree

An event reaches a machine by way of a source, whose listeners are told apart by topic and token, or
by a send, which looks at the status of the machine and at its table. When nothing is under way and
only the machine listens for the event, both ways lead to one and the same activity: the listener
makes the send that the host could have made. Above the frames of the dispatch it passes what it
passes by itself, and when it is over the dispatch has nothing left to do but to sum up.
-/

namespace ScopedMachine

variable {H : Type} {p : Program H} {m : MachineId}

/-! ## Calls by themselves -/

/-- The host is told of what happened. -/
def Program.told (p : Program H) (rs : List Record) (h : H) : H :=
  rs.foldl (fun h r => p.subscriber r h) h

/-- What an emit call has come to when a send call in its place has come to its end. -/
def Config.emitted (p : Program H) (kind : String) (c : Config H) : Config H :=
  match c.control with
  | .give (.delivered (.error err)) =>
    (c.record p (.listenerFailed kind (.machine err))).give (.report ⟨1, [.machine err]⟩)
  | .give _ => c.give (.report { delivered := 1 })
  | _ => c

/-! ## The phases of a send -/

/-- Whether a send can end in this way. -/
def Outcome.OfSend : Outcome → Prop
  | .gave (.delivered _) | .panicked _ => True
  | .gave _ => False

/-- How far a send to a machine got that a call holds the machine for. -/
inductive Config.Sends (m : MachineId) : Config H → Prop where
  | asked {w : World H} {h : H} {source : SourceId} {e : Event} :
      Sends m ⟨w, h, .send m source e, [.holding m]⟩
  | handled {c : Config H} {kind : String} {first : Option (Except MachineError Delivery)} :
      Sends m (c.above [.draining m kind first, .holding m])
  | returns {c : Config H} {o : Outcome} (fits : o.OfSend) (stack : c.stack = [.holding m]) :
      Sends m (c.settle o)
  /-- The machine is taken down, because the handle of the call was the last one. -/
  | settling {c : Config H} {o : Outcome} (fits : o.OfSend) : Sends m (c.above [.settling o])
  | finished {c : Config H} {o : Outcome} (fits : o.OfSend) (stack : c.stack = []) :
      Sends m (c.settle o)

namespace Config

variable {c c' : Config H}

theorem sends_drain {first : Except MachineError Delivery} (stack : c.stack = [.holding m]) :
    (c.drain m first).Sends m := by
  obtain ⟨w, h, ctl, _⟩ := c
  cases stack
  unfold drain
  split
  · exact .returns (c := ⟨_, h, ctl, [.holding m]⟩) (o := .gave (.delivered first)) trivial rfl
  · next source e head => exact .handled (c := ⟨_, h, .route m source e, []⟩)

theorem sends_unpin {o : Outcome} (fits : o.OfSend) (stack : c.stack = []) :
    (c.unpin m o).Sends m := by
  obtain ⟨w, h, ctl, _⟩ := c
  cases stack
  unfold unpin settleHandle
  split
  · exact .finished fits rfl
  · unfold dismantle releaseActivation
    split
    · next a current => exact .settling (c := ⟨_, h, .release a.scope, [.dismantling m]⟩) fits
    · exact .settling (c := ⟨_, h, .give .unit, [.dismantling m]⟩) fits

/-- A step takes a send to its next phase. -/
theorem Sends.step (sends : c.Sends m) (h : p.step c = some c') : c'.Sends m := by
  cases sends with
  | @asked w host source e =>
    cases h
    unfold performSend
    split
    · exact .returns (c := ⟨w, host, .send m source e, _⟩) (o := .gave (.delivered _)) trivial rfl
    · split
      · exact .returns (c := ⟨_, _, .send m source e, _⟩) (o := .gave (.delivered _)) trivial rfl
      · exact .handled (c := ⟨_, host, .route m source e, []⟩)
  | @handled c kind first =>
    by_cases goes : c.Goes
    · rw [p.step_above (by simp [Silent]) goes] at h
      obtain ⟨d, _, rfl⟩ := Option.map_eq_some_iff.1 h
      exact .handled
    · obtain ⟨empty, ended⟩ := not_or.1 goes
      obtain ⟨w, host, ctl, stack⟩ := c
      cases Classical.not_not.1 empty
      cases ctl with
      | give a =>
        cases a with
        | delivered r =>
          cases first with
          | none => cases h; exact sends_drain rfl
          | some first => cases h; cases r <;> exact sends_drain rfl
        | _ => cases first <;> cases h
      | panic message =>
        cases h
        exact .returns (c := ⟨_, host, .panic message, _⟩) (o := .panicked message) trivial rfl
      | gather g =>
        cases g with
        | done r => cases h
        | _ => exact absurd rfl ended
      | _ => exact absurd rfl ended
  | @returns c o fits stack =>
    obtain ⟨w, host, ctl, _⟩ := c
    cases stack
    cases o with
    | gave a =>
      cases a with
      | delivered r => cases h; exact sends_unpin trivial rfl
      | _ => cases fits
    | panicked message => cases h; exact sends_unpin trivial rfl
  | @settling c o fits =>
    by_cases goes : c.Goes
    · rw [p.step_above (by simp [Silent]) goes] at h
      obtain ⟨d, _, rfl⟩ := Option.map_eq_some_iff.1 h
      exact .settling fits
    · obtain ⟨empty, ended⟩ := not_or.1 goes
      obtain ⟨w, host, ctl, stack⟩ := c
      cases Classical.not_not.1 empty
      cases ctl with
      | give a => cases h; exact .finished fits rfl
      | panic message =>
        cases o with
        | gave a =>
          cases h
          exact .finished (c := ⟨w, host, .panic message, []⟩) (o := .panicked message) trivial rfl
        | panicked text => cases h
      | gather g =>
        cases g with
        | done r => cases h
        | _ => exact absurd rfl ended
      | _ => exact absurd rfl ended
  | @finished c o fits stack =>
    obtain ⟨w, host, ctl, _⟩ := c
    cases stack
    cases o <;> cases h

theorem Sends.passes {ss : List (World H × H × Script H)} (sends : c.Sends m)
    (passes : p.Passes c ss c') : c'.Sends m := by
  induction passes with
  | refl => exact sends
  | step h _ ih => exact ih (sends.step h)

/-- A send ends with how the delivery went, or in a panic. -/
theorem Sends.outcome (sends : c.Sends m) (ended : ¬c.Goes) :
    c.stack = [] ∧
      ((∃ r, c.control = .give (.delivered r)) ∨ ∃ message, c.control = .panic message) := by
  obtain ⟨empty, _⟩ := not_or.1 ended
  have empty := Classical.not_not.1 empty
  cases sends with
  | asked => cases empty
  | handled | settling => cases (List.append_eq_nil_iff.1 empty).2
  | @returns c o fits stack =>
    have same : (c.settle o).stack = c.stack := by cases o <;> rfl
    rw [same, stack] at empty
    cases empty
  | @finished c o fits stack =>
    refine ⟨empty, ?_⟩
    cases o with
    | gave a =>
      cases a with
      | delivered r => exact .inl ⟨r, rfl⟩
      | _ => cases fits
    | panicked message => exact .inr ⟨message, rfl⟩

end Config

/-! ## Passing listeners over -/

section Dispatch

variable {w : World H} {h : H} {e : Event} {report : Report} {base : List (Frame H)}
  {dead rest : List (Registration (Listener H))}

/-- A dispatch passes over the listeners whose tokens are cancelled. -/
theorem Program.Passes.skip (cancelled : ∀ r ∈ dead, w.isCancelled r.token) :
    p.Passes ⟨w, h, .give (.result (.ok ())), .dispatching e (dead ++ rest) report :: base⟩ []
      ⟨w, h, .give (.result (.ok ())), .dispatching e rest report :: base⟩ := by
  induction dead with
  | nil => exact .refl _
  | cons r dead ih =>
    obtain ⟨now, later⟩ := List.forall_mem_cons.1 cancelled
    refine .quiet ?_ rfl (ih later)
    simp [Program.step, Program.resume, Config.dispatchNext, now, Config.push, Config.give]

/-- A dispatch is over when the listeners that are left have cancelled tokens. -/
theorem Program.Passes.finish {ctl : Control H} (cancelled : ∀ r ∈ dead, w.isCancelled r.token) :
    p.Passes (Config.dispatchNext e dead report ⟨w, h, ctl, base⟩) []
      ⟨w, h, .give (.report report), base⟩ := by
  induction dead generalizing ctl with
  | nil => exact .refl _
  | cons r dead ih =>
    obtain ⟨now, later⟩ := List.forall_mem_cons.1 cancelled
    have passes : Config.dispatchNext e (r :: dead) report ⟨w, h, ctl, base⟩ =
        ⟨w, h, .give (.result (.ok ())), .dispatching e dead report :: base⟩ := by
      simp [Config.dispatchNext, now, Config.push, Config.give]
    rw [passes]
    exact .quiet rfl rfl (ih later)

/-- When the machine has answered the send of its listener, the dispatch sums up. -/
theorem Program.Passes.emitted {x : Config H} (sends : x.Sends m) (ended : ¬x.Goes)
    (cancelled : ∀ r ∈ dead, x.world.isCancelled r.token) :
    p.Passes (x.above [.forwarding, .dispatching e dead { delivered := 1 }]) []
      (x.emitted p e.kind) := by
  obtain ⟨empty, ⟨r, control⟩ | ⟨message, control⟩⟩ := sends.outcome ended
  · obtain ⟨w, h, ctl, stack⟩ := x
    cases empty
    cases control
    cases r with
    | ok d => exact .quiet rfl rfl (.quiet rfl rfl (finish cancelled))
    | error err => exact .quiet rfl rfl (.quiet rfl rfl (finish cancelled))
  · obtain ⟨w, h, ctl, stack⟩ := x
    cases empty
    cases control
    exact .quiet rfl rfl (.quiet rfl rfl (.refl _))

end Dispatch

/-! ## Who listens for an event -/

/-- A machine runs, and its table has a route for an event type from a source. -/
def World.Routes (m : MachineId) (source : SourceId) (kind : String) (w : World H) : Prop :=
  ∃ cell a r, w.machine? m = some cell ∧ cell.status = .running ∧ cell.current = some a ∧
    r ∈ a.routes.routes ∧ r.isFor source kind

/-- No two routes are for one event type on one source. -/
theorem Tabulates.filter_isFor {xs : List (Source × String)} {routes : List Route} {r : Route}
    {source : SourceId} {kind : String} (table : Tabulates xs routes) (mem : r ∈ routes)
    (isFor : r.isFor source kind) : routes.filter (Route.isFor source kind) = [r] := by
  have key : Route.isFor source kind = (· == (source, kind)) ∘ Route.key :=
    funext fun r => Bool.eq_iff_iff.2 (by simpa using Route.isFor_iff)
  have one : (routes.filter (Route.isFor source kind)).length = 1 := by
    rw [← List.countP_eq_length_filter, key, ← List.countP_map]
    refine List.count_eq_one_of_mem table.nodup (List.mem_map.2 ⟨r, mem, Route.isFor_iff.1 isFor⟩)
  obtain ⟨r', only⟩ := List.length_eq_one_iff.1 one
  have here : r ∈ routes.filter (Route.isFor source kind) := List.mem_filter.2 ⟨mem, isFor⟩
  rw [only, List.mem_singleton] at here
  rw [only, here]

section Listening

variable {w : World H} {past : List (Config H)} {c : Config H} {slot : Nat} {source : SourceCell H}
  {kind : String}

/-- What the machine listens to on a source with a token, for one event type. -/
theorem SourceCell.filterMap_matching {token : ScopeId} :
    (source.registry.matching kind).filterMap (Registration.route? m token) =
      (source.registry.entries.filterMap (Registration.route? m token)).filter (·.1 == kind) := by
  rw [Registry.matching, List.filterMap_filter, List.filter_filterMap]
  refine List.filterMap_congr fun r _ => ?_
  cases line : r.route? m token with
  | none => simp
  | some l => simp [Option.filter, (Registration.route?_eq_some_iff.1 line).2.2]

variable (run : p.Run w past c) (rest : c.AtRest)
  (program : p.Keeps (fun _ => True) (Directive.Refers w))
  (found : c.world.source? slot = some source) (plain : source.isHosted = false)
  (distinct : ∀ i x, c.world.source? i = some x → x.id = source.id → i = slot)

include run in
/-- Of the machine's own listeners those with a live token belong to its current activation. -/
theorem Program.Run.cancelled_of_entry (rest : c.AtRest) {r : Registration (Listener H)}
    (mem : r ∈ c.world.entries slot) {id : SourceId} (route : r.listener = .route m id)
    (other : ∀ a, c.world.current? m = some a → r.token ≠ a.scope) :
    c.world.header? r.token = some (true, some m) := by
  obtain ⟨b, header⟩ := (run.holding m).mine mem route
  cases b with
  | true => exact header
  | false =>
    obtain ⟨a, current, scope⟩ := run.current_of_live (.inl rest) header
    exact absurd scope.symm (other a current)

variable (kind) in
include run program found plain distinct in
/-- The listeners of the current activation for an event type are its routes for that type. -/
theorem Program.Run.filterMap_matching {a : Activation H} (current : c.world.current? m = some a) :
    (source.registry.matching kind).filterMap (Registration.route? m a.scope) =
      (a.routes.routes.filter (Route.isFor source.id kind)).map Route.line := by
  obtain ⟨cell, machine, installed⟩ := Option.bind_eq_some_iff.1 current
  obtain ⟨refers, table⟩ := (run.keeps program).machine machine a installed
  have emitter (id : SourceId) : w.sourceHeader? slot ≠ some (id, true) := by
    rw [← run.sourceHeader?, World.sourceHeader?, found, Option.map_some, plain]
    intro hosted
    cases hosted
  have placed : c.world.source? slot ≠ none := found ▸ Option.some_ne_none source
  have subscribed : c.world.subscribed m slot a.scope = lines slot a.routes.routes :=
    (List.append_nil _).symm.trans
      (run.subscribedOn emitter m _ (mem_grips_of_current current) placed)
  have entries : c.world.entries slot = source.registry.entries := by rw [World.entries, found]; rfl
  rw [World.subscribed, entries] at subscribed
  rw [SourceCell.filterMap_matching, subscribed, lines, List.filter_map, List.filter_filter]
  congr 1
  refine List.filter_congr fun r mem => ?_
  -- a route names its source by its place as well as by its identity
  have built : Tabulates (listened a.collected.directives) a.routes.routes := by
    rw [table]
    exact RouteTable.tabulates_build _
  obtain ⟨types, listens, _⟩ := mem_listened.1 (built.only mem)
  obtain ⟨x, place, id⟩ := Option.map_eq_some_iff.1 ((run.source?_id _).trans (refers _ listens))
  have same : r.source.slot = slot ↔ r.source.id = source.id := by
    constructor
    · intro here
      rw [here, found] at place
      cases place
      exact id.symm
    · exact fun same => distinct _ x place (id.trans same)
  rw [Bool.eq_iff_iff]
  simp [Route.isFor, Route.line, same, and_comm]

variable (own : ∀ r ∈ source.registry.matching kind, ∃ id, r.listener = .route m id)

include found own in
theorem mem_entries_of_matching {r : Registration (Listener H)}
    (mem : r ∈ source.registry.matching kind) :
    r ∈ c.world.entries slot ∧ ∃ id, r.listener = .route m id := by
  refine ⟨?_, own r mem⟩
  rw [World.entries, found]
  exact (List.mem_filter.1 mem).1

include run rest program found plain distinct own in
/-- If the machine has no route for an event type, all its listeners for it are about to go. -/
theorem Program.Run.matching_of_not_routes (none : ¬c.world.Routes m source.id kind) :
    ∀ r ∈ source.registry.matching kind, c.world.header? r.token = some (true, some m) := by
  intro r mem
  obtain ⟨entry, id, listener⟩ := mem_entries_of_matching found own mem
  refine run.cancelled_of_entry rest entry listener fun a current scope => none ?_
  have here := run.filterMap_matching kind program found plain distinct current
  have line : r.route? m a.scope = some (r.topic, id) :=
    Registration.route?_eq_some_iff.2 ⟨listener, scope, rfl⟩
  obtain ⟨route, mem, _⟩ := List.mem_map.1 (here ▸ List.mem_filterMap.2 ⟨r, mem, line⟩)
  obtain ⟨mem, isFor⟩ := List.mem_filter.1 mem
  obtain ⟨cell, machine, installed⟩ := Option.bind_eq_some_iff.1 current
  have running := (((run.poised m).posture machine).current (by rw [installed]; rfl)).1
  exact ⟨cell, a, route, machine, running, installed, mem, isFor⟩

include run rest program found plain distinct own in
/-- If the machine has a route for an event type, one of its listeners is for it, and the others are
about to go. -/
theorem Program.Run.matching_of_routes (routes : c.world.Routes m source.id kind) :
    ∃ before r after, source.registry.matching kind = before ++ r :: after ∧
      r.listener = .route m source.id ∧ c.world.isCancelled r.token = false ∧
      ∀ x ∈ before ++ after, c.world.header? x.token = some (true, some m) := by
  obtain ⟨cell, a, route, machine, running, installed, mem, isFor⟩ := routes
  have current : c.world.current? m = some a := by rw [World.current?, machine]; exact installed
  obtain ⟨_, table⟩ := (run.keeps program).machine machine a installed
  have built : Tabulates (listened a.collected.directives) a.routes.routes := by
    rw [table]
    exact RouteTable.tabulates_build _
  have one := run.filterMap_matching kind program found plain distinct current
  rw [built.filter_isFor mem isFor, List.map_singleton] at one
  obtain ⟨before, r, after, split, dead, line, gone⟩ := List.filterMap_eq_cons_iff.1 one
  obtain ⟨listener, scope, _⟩ := Registration.route?_eq_some_iff.1 line
  refine ⟨before, r, after, split, ?_, ?_, fun x mem => ?_⟩
  · rw [listener]
    exact congrArg (Listener.route m) (Prod.mk.inj (Route.isFor_iff.1 isFor)).1
  · rw [scope]
    exact World.isCancelled_eq_false_iff.2
      ⟨_, (run.holding m).live (mem_grips_of_current current)⟩
  · have unlike : x.route? m a.scope = none := by
      rcases List.mem_append.1 mem with mem | mem
      · exact dead x mem
      · exact List.filterMap_eq_nil_iff.1 gone x mem
    have inside : x ∈ source.registry.matching kind := by
      rw [split]
      rcases List.mem_append.1 mem with mem | mem
      · exact List.mem_append_left _ mem
      · exact List.mem_append_right _ (List.mem_cons_of_mem _ mem)
    obtain ⟨entry, id, listener⟩ := mem_entries_of_matching found own inside
    refine run.cancelled_of_entry rest entry listener fun b current' token => ?_
    rw [current] at current'
    cases current'
    have line : x.route? m a.scope = some (x.topic, id) :=
      Registration.route?_eq_some_iff.2 ⟨listener, token, rfl⟩
    rw [unlike] at line
    cases line

end Listening

/-! ## Both calls -/

section Calls

variable {w : World H} {past : List (Config H)} {c c' : Config H} {slot : Nat}
  {source : SourceCell H} {e : Event} {h : H}

/-- When nothing is under way the host may do anything. -/
theorem Config.Poised.turnTo (poised : c.Poised m) (host : H) (s : Script H) :
    ({ c with host, control := .run s } : Config H).Poised m := by
  unfold Config.Poised at poised ⊢
  dsimp only
  split
  · next cell found =>
    simp only [found] at poised
    exact poised.go trivial
  · next missing =>
    simp only [missing] at poised
    exact ⟨poised.1, nofun⟩

/-- A scope that is released stays so, wherever an activity leads. -/
theorem Program.Passes.header? {ss : List (World H × H × Script H)} (passes : p.Passes c ss c')
    (poised : ∀ n, c.Poised n) {s : ScopeId} {owner : Option MachineId}
    (released : c.world.header? s = some (true, owner)) :
    c'.world.header? s = some (true, owner) := by
  induction passes with
  | refl => exact released
  | step step _ ih =>
    have move := move_of_step (Config.grounded_of_poised poised) step
    exact ih (fun n => move.poised (poised n)) (move.scopes.header released)

/-- Two edits of a machine are one. -/
theorem World.modifyMachine_modifyMachine {f g : MachineCell H → MachineCell H} :
    (w.modifyMachine m f).modifyMachine m g = w.modifyMachine m (g ∘ f) := by
  have machines : (w.machines.modify m.index f).modify m.index g =
      w.machines.modify m.index (g ∘ f) := by
    refine Array.ext_getElem? fun i => ?_
    simp only [Array.getElem?_modify]
    split <;> simp
  rw [World.modifyMachine, World.modifyMachine, World.modifyMachine, machines]

/-- An edit that leaves a machine as it is leaves the world as it is. -/
theorem World.modifyMachine_eq_self {f : MachineCell H → MachineCell H} {cell : MachineCell H}
    (found : w.machine? m = some cell) (same : f cell = cell) : w.modifyMachine m f = w := by
  have machines : w.machines.modify m.index f = w.machines := by
    refine Array.ext_getElem? fun i => ?_
    rw [Array.getElem?_modify]
    split
    · next here =>
      subst here
      rw [show w.machines[m.index]? = some cell from found, Option.map_some, same]
    · rfl
  rw [World.modifyMachine, machines]

/-- A send call begins with the machine held. -/
theorem Program.calling_send (held : w.isHeld m) :
    p.calling (.send m source.id e) w h =
      ⟨w.modifyMachine m MachineCell.pin, h, .send m source.id e, [.holding m]⟩ := by
  simp [Program.calling, Program.call, held, Config.pin, Config.mapWorld, Config.push, Config.send]

/-- An emit call begins with all listeners for the event ahead. -/
theorem Program.calling_emit (found : w.source? slot = some source) :
    p.calling (.emit slot e) w h =
      ⟨w, p.told [.dispatching source.label e.kind] h, .give (.result (.ok ())),
        [.dispatching e (source.registry.matching e.kind) {}]⟩ := by
  simp [Program.calling, Program.call, Config.emit, found, Program.told, Config.record, Config.push,
    Config.give]

/-- A listener of the machine makes the send that the host could have made. -/
theorem Program.Passes.listener {before after : List (Registration (Listener H))}
    {r : Registration (Listener H)} (held : w.isHeld m)
    (found : w.source? slot = some source)
    (split : source.registry.matching e.kind = before ++ r :: after)
    (route : r.listener = .route m source.id) (live : w.isCancelled r.token = false)
    (cancelled : ∀ x ∈ before, w.isCancelled x.token) :
    p.Passes (p.calling (.emit slot e) w h) []
      ((p.calling (.send m source.id e) w (p.told [.dispatching source.label e.kind] h)).above
        [.forwarding, .dispatching e after { delivered := 1 }]) := by
  have alive : w.isAlive m := by
    obtain ⟨cell, machine, handles⟩ := Config.exists_of_isHeld held
    rw [World.isAlive, machine]
    exact MachineCell.isAlive_iff.2 (Nat.add_pos_left handles _)
  rw [Program.calling_emit found, Program.calling_send held, split]
  refine (Program.Passes.skip cancelled).trans (.quiet ?_ rfl (.refl _))
  simp [Program.step, Program.resume, Config.dispatchNext, live, Config.invoke, route, Config.forward,
    alive, Config.pin, Config.send, Config.push, Config.mapWorld, Config.above]

/-- What is routed to a machine that has no route for it is ignored, and the host is told why. -/
theorem Program.step_route_of_not_routes {id : SourceId} (stack : List (Frame H))
    (astray : ¬w.Routes m id e.kind) :
    ∃ rs, p.step ⟨w, h, .route m id e, stack⟩ =
      some ⟨w, p.told rs h, .give (.delivered (.ok .ignored)), stack⟩ := by
  simp only [Program.step, Config.performRoute]
  cases machine : w.machine? m with
  | none => exact ⟨[], rfl⟩
  | some cell =>
    by_cases running : cell.status = .running
    · cases current : cell.current with
      | none => exact ⟨[], by simp [running, current]; rfl⟩
      | some a =>
        cases terminal : cell.terminal with
        | true =>
          exact ⟨[.terminalIgnored cell.state e.kind], by simp [running, current, terminal]; rfl⟩
        | false =>
          have absent : a.routes.routes.find? (Route.isFor id e.kind) = none :=
            List.find?_eq_none.2 fun r mem isFor =>
              astray ⟨cell, a, r, machine, running, current, mem, isFor⟩
          have unmatched : a.routes.resolve id e.kind = .unmatched := by
            rw [RouteTable.resolve, absent]
          exact ⟨[.unmatched cell.state e.kind],
            by simp [running, current, terminal, unmatched]; rfl⟩
    · exact ⟨[], by simp [running]; rfl⟩

/-- A send of what the machine has no route for changes nothing. -/
theorem Program.Passes.ignored {cell : MachineCell H} {id : SourceId}
    (machine : w.machine? m = some cell) (held : 0 < cell.handles) (idle : cell.inbox = {})
    (astray : ¬w.Routes m id e.kind) :
    ∃ rs, p.Passes ⟨w.modifyMachine m MachineCell.pin, h, .send m id e, [.holding m]⟩ []
      ⟨w, p.told rs h, .give (.delivered (.ok .ignored)), []⟩ := by
  let w₁ := w.modifyMachine m MachineCell.pin
  let w₂ := w₁.modifyMachine m MachineCell.beginDraining
  let w₃ := w₂.modifyMachine m MachineCell.endDraining
  have pinned : w₁.machine? m = some cell.pin := by simp [w₁, machine]
  have claimed : w₂.machine? m = some cell.pin.beginDraining := by simp [w₂, pinned]
  have claims : p.step ⟨w₁, h, .send m id e, [.holding m]⟩ =
      some ⟨w₂, h, .route m id e, [.draining m e.kind none, .holding m]⟩ := by
    have free : cell.pin.inbox.draining = false := by rw [MachineCell.pin, idle]
    simp only [Program.step, Config.performSend, pinned, free]
    rfl
  have alike : ¬w₂.Routes m id e.kind := by
    rintro ⟨cell', a, r, found, running, current, mem, isFor⟩
    rw [claimed] at found
    cases found
    exact astray ⟨cell, a, r, machine, running, current, mem, isFor⟩
  obtain ⟨rs, routed⟩ := p.step_route_of_not_routes (h := h)
    [.draining m e.kind none, .holding m] alike
  have ends (host : H) : p.step ⟨w₂, host, .give (.delivered (.ok .ignored)),
      [.draining m e.kind none, .holding m]⟩ =
      some ⟨w₃, host, .give (.delivered (.ok .ignored)), [.holding m]⟩ := by
    have empty : cell.pin.beginDraining.inbox.pending.head? = none := by
      rw [MachineCell.beginDraining, MachineCell.pin, idle]
      rfl
    simp only [Program.step, Program.resume, Config.drain, claimed, Option.bind_some, empty]
    rfl
  have restored : w₃.modifyMachine m MachineCell.unpin = w := by
    have inbox : ({ cell.inbox with draining := false } : Inbox) = cell.inbox := by rw [idle]
    simp only [w₃, w₂, w₁, World.modifyMachine_modifyMachine]
    exact World.modifyMachine_eq_self machine (congrArg (fun i => { cell with inbox := i }) inbox)
  have returns (host : H) : p.step ⟨w₃, host, .give (.delivered (.ok .ignored)), [.holding m]⟩ =
      some ⟨w, host, .give (.delivered (.ok .ignored)), []⟩ := by
    have alive : w.isAlive m := by
      rw [World.isAlive, machine]
      exact MachineCell.isAlive_iff.2 (Nat.add_pos_left held _)
    simp [Program.step, Program.resume, Config.unpin, Config.mapWorld, restored, Config.settleHandle,
      alive, Config.settle, Config.give]
  exact ⟨rs, .quiet claims rfl (.quiet routed rfl (.quiet (ends _) rfl (.quiet (returns _) rfl
    (.refl _))))⟩

end Calls

/-! ## The agreement -/

/-- An emit call does what a send call does, and sums up how that went. -/
structure Program.SumsUp (p : Program H) (kind : String) (emit send : Config H) : Prop where
  /-- The host code that the send runs is run by the emit, in the same worlds. -/
  follows {ss : List (World H × H × Script H)} {x : Config H} (passes : p.Passes send ss x) :
    ∃ y, p.Passes emit ss y ∧ y.world = x.world ∧ y.host = x.host
  /-- The emit runs no other host code. -/
  precedes {ss : List (World H × H × Script H)} {y : Config H} (passes : p.Passes emit ss y) :
    ∃ x, p.Passes send ss x
  /-- When the send is over, so is the emit, in the same world. -/
  ends {ss : List (World H × H × Script H)} {x : Config H} (passes : p.Passes send ss x)
    (finished : x.IsOver) : p.Passes emit ss (x.emitted p kind)
  /-- There is no other way for the emit to be over. -/
  ended {ss : List (World H × H × Script H)} {y : Config H} (passes : p.Passes emit ss y)
    (finished : y.IsOver) : ∃ x, p.Passes send ss x ∧ x.IsOver ∧ y = x.emitted p kind
  /-- The send is over with how the delivery went, or in a panic. -/
  outcome {ss : List (World H × H × Script H)} {x : Config H} (passes : p.Passes send ss x)
    (finished : x.IsOver) :
    (∃ r, x.control = .give (.delivered r)) ∨ ∃ message, x.control = .panic message

/-- To emit an event on a source and to send it to a machine is the same, but for what the host is
told. -/
structure Program.Agrees (p : Program H) (m : MachineId) (slot : Nat) (source : SourceCell H)
    (e : Event) (w : World H) : Prop where
  /-- The machine has a route for the event: its listener makes the send. -/
  routed (routes : w.Routes m source.id e.kind) (h : H) :
    p.SumsUp e.kind (p.calling (.emit slot e) w h)
      (p.calling (.send m source.id e) w (p.told [.dispatching source.label e.kind] h))
  /-- The machine has none: nobody is called, and nothing is changed. -/
  emits (astray : ¬w.Routes m source.id e.kind) (h : H) :
    p.Passes (p.calling (.emit slot e) w h) []
      ⟨w, p.told [.dispatching source.label e.kind] h, .give (.report {}), []⟩
  /-- The send is ignored then. -/
  sends (astray : ¬w.Routes m source.id e.kind) (h : H) :
    ∃ rs, p.Passes (p.calling (.send m source.id e) w h) []
      ⟨w, p.told rs h, .give (.delivered (.ok .ignored)), []⟩

section Agreement

variable {w : World H} {past : List (Config H)} {c : Config H} {slot : Nat} {source : SourceCell H}
  {e : Event}

theorem Config.not_goes_of_isOver {x : Config H} (finished : x.IsOver) : ¬x.Goes := by
  obtain ⟨stack, ⟨a, control⟩ | ⟨message, control⟩⟩ := finished <;>
    exact not_or.2 ⟨fun busy => busy stack, by rw [control]; nofun⟩

theorem Program.step_of_isOver {x : Config H} (finished : x.IsOver) : p.step x = none := by
  by_contra goes
  obtain ⟨y, step⟩ := Option.ne_none_iff_exists'.1 goes
  exact Config.not_goes_of_isOver finished (goes_of_step step)

theorem Config.Sends.isOver {x : Config H} (sends : x.Sends m) (ended : ¬x.Goes) : x.IsOver := by
  obtain ⟨stack, ⟨r, control⟩ | ⟨message, control⟩⟩ := sends.outcome ended
  · exact ⟨stack, .inl ⟨_, control⟩⟩
  · exact ⟨stack, .inr ⟨_, control⟩⟩

theorem Config.IsOver.emitted {x : Config H} {kind : String} (finished : x.IsOver) :
    (x.emitted p kind).IsOver := by
  obtain ⟨w, h, ctl, stack⟩ := x
  obtain ⟨empty, ⟨a, control⟩ | ⟨message, control⟩⟩ := finished
  · cases empty
    cases control
    unfold Config.emitted
    split
    · exact ⟨rfl, .inl ⟨_, rfl⟩⟩
    · exact ⟨rfl, .inl ⟨_, rfl⟩⟩
    · next none => exact absurd rfl (none _)
  · cases empty
    cases control
    exact ⟨rfl, .inr ⟨_, rfl⟩⟩

/-- If the emit comes to the send above the frames of its dispatch, it sums the send up. -/
theorem Program.SumsUp.of_above {emit send : Config H} {after : List (Registration (Listener H))}
    (begins : p.Passes emit [] (send.above [.forwarding, .dispatching e after { delivered := 1 }]))
    (sends : send.Sends m)
    (cancelled : ∀ {ss x}, p.Passes send ss x → ∀ r ∈ after, x.world.isCancelled r.token) :
    p.SumsUp e.kind emit send := by
  have silent : Silent [.forwarding, Frame.dispatching e after { delivered := 1 }] := by
    simp [Silent]
  have follows {ss : List (World H × H × Script H)} {x : Config H} (passes : p.Passes send ss x) :
      p.Passes emit ss (x.above [.forwarding, .dispatching e after { delivered := 1 }]) :=
    begins.trans (passes.above silent)
  have sums {ss : List (World H × H × Script H)} {x : Config H} (passes : p.Passes send ss x)
      (ended : ¬x.Goes) :
      p.Passes (x.above [.forwarding, .dispatching e after { delivered := 1 }]) []
        (x.emitted p e.kind) :=
    .emitted (sends.passes passes) ended (cancelled passes)
  -- whatever the emit comes to stands before the send, within it, or after its end
  have places {ss : List (World H × H × Script H)} {y : Config H} (passes : p.Passes emit ss y) :
      (∃ x, p.Passes send ss x) ∧
        (y.IsOver → ∃ x, p.Passes send ss x ∧ x.IsOver ∧ y = x.emitted p e.kind) := by
    rcases begins.total passes with ⟨us, later, rfl⟩ | ⟨us, earlier, none⟩
    · rcases later.of_above silent with ⟨x, within, rfl⟩ | ⟨x, ts, us, within, ended, rest, rfl⟩
      · refine ⟨⟨x, within⟩, fun finished => ?_⟩
        cases (List.append_eq_nil_iff.1 finished.1).2
      · have finished := (sends.passes within).isOver ended
        rcases rest.total (sums within ended) with ⟨vs, passes, nil⟩ | ⟨vs, passes, nil⟩
        · obtain ⟨rfl, rfl⟩ := List.append_eq_nil_iff.1 nil.symm
          rw [List.append_nil]
          refine ⟨⟨x, within⟩, fun done => ⟨x, within, finished, ?_⟩⟩
          exact (passes.eq_of_stuck (p.step_of_isOver done)).1.symm
        · obtain ⟨rfl, rfl⟩ := passes.eq_of_stuck (p.step_of_isOver finished.emitted)
          rw [nil, List.append_nil]
          rw [List.append_nil]
          exact ⟨⟨x, within⟩, fun _ => ⟨x, within, finished, rfl⟩⟩
    · obtain ⟨rfl, rfl⟩ := List.append_eq_nil_iff.1 none.symm
      refine ⟨⟨send, .refl send⟩, fun finished => ?_⟩
      obtain ⟨rfl, _⟩ := earlier.eq_of_stuck (p.step_of_isOver finished)
      cases (List.append_eq_nil_iff.1 finished.1).2
  constructor
  case follows => exact fun passes => ⟨_, follows passes, rfl, rfl⟩
  case precedes => exact fun passes => (places passes).1
  case ends =>
    intro ss x passes finished
    have all := (follows passes).trans (sums passes (Config.not_goes_of_isOver finished))
    rwa [List.append_nil] at all
  case ended => exact fun passes finished => (places passes).2 finished
  case outcome =>
    exact fun passes finished =>
      ((sends.passes passes).outcome (Config.not_goes_of_isOver finished)).2

/-- A scope that is released when nothing is under way stays so during a call. -/
theorem Program.Run.header?_of_calling (run : p.Run w past c) (rest : c.stack = [])
    {s : Call (Script H)} {h : H} {ss : List (World H × H × Script H)} {x : Config H}
    (passes : p.Passes (p.calling s c.world h) ss x) {t : ScopeId} {owner : Option MachineId}
    (released : c.world.header? t = some (true, owner)) :
    x.world.header? t = some (true, owner) := by
  have silent : Silent [Frame.await fun _ => (.ok : Script H)] := by simp [Silent]
  have call : p.step ⟨c.world, h, .run (.call s fun _ => .ok), []⟩ =
      some ((p.calling s c.world h).above [.await fun _ => .ok]) := p.step_call (by simp [Silent])
  have all := Passes.step call (passes.above silent)
  refine all.header? (fun n => ?_) released
  have poised := (run.poised n).turnTo h (.call s fun _ => .ok)
  rwa [rest] at poised

/-- When nothing is under way and nobody but the machine listens for an event on an emitter or a
timer, to emit the event there and to send it to the machine is the same. -/
theorem Program.Run.agrees (run : p.Run w past c) (rest : c.AtRest)
    (program : p.Keeps (fun _ => True) (Directive.Refers w))
    (found : c.world.source? slot = some source) (plain : source.isHosted = false)
    (distinct : ∀ i x, c.world.source? i = some x → x.id = source.id → i = slot)
    (held : c.world.isHeld m)
    (own : ∀ r ∈ source.registry.matching e.kind, ∃ id, r.listener = .route m id) :
    p.Agrees m slot source e c.world := by
  constructor
  case routed =>
    intro routes h
    obtain ⟨before, r, after, split, route, live, dead⟩ :=
      run.matching_of_routes rest program found plain distinct own routes
    have gone {x : Registration (Listener H)} (mem : x ∈ before ++ after) :
        ∀ owner, c.world.header? x.token ≠ some (false, owner) := by
      rw [dead x mem]
      nofun
    have begins := Program.Passes.listener (p := p) (h := h) held found split route live fun x mem =>
      World.isCancelled_iff.2 (gone (List.mem_append_left _ mem))
    have sends : (p.calling (.send m source.id e) c.world
        (p.told [.dispatching source.label e.kind] h)).Sends m := by
      rw [Program.calling_send held]
      exact .asked
    refine .of_above begins sends fun passes x mem => World.isCancelled_iff.2 fun owner => ?_
    rw [run.header?_of_calling rest.1 passes (dead x (List.mem_append_right _ mem))]
    nofun
  case emits =>
    intro astray h
    rw [Program.calling_emit found]
    have dead := run.matching_of_not_routes rest program found plain distinct own astray
    refine .quiet rfl rfl (.finish fun r mem => World.isCancelled_iff.2 fun owner => ?_)
    rw [dead r mem]
    nofun
  case sends =>
    intro astray h
    obtain ⟨cell, machine, handles⟩ := Config.exists_of_isHeld held
    have idle : cell.inbox = {} := by
      refine run.inbox_eq machine ?_
      rintro ⟨kind, first, mem⟩
      rw [rest.1] at mem
      cases mem
    rw [Program.calling_send held]
    exact Program.Passes.ignored machine handles idle astray

/-- Operating the switch of the lamp is the same as sending it the event. -/
theorem Program.Run.agrees_lamp :
    ∃ source, Lamp.program.Run Lamp.world (Lamp.program.trail 60 Lamp.start)
        (Lamp.program.run 60 Lamp.start) ∧
      (Lamp.program.run 60 Lamp.start).AtRest ∧
      Lamp.program.Keeps (fun _ => True) (Directive.Refers Lamp.world) ∧
      (Lamp.program.run 60 Lamp.start).world.source? 0 = some source ∧
      source.registry.matching "toggle" ≠ [] ∧
      (Lamp.program.run 60 Lamp.start).world.Routes ⟨0⟩ Lamp.switch.id "toggle" ∧
      Lamp.program.Agrees ⟨0⟩ 0 source { kind := "toggle" }
        (Lamp.program.run 60 Lamp.start).world := by
  have rest : (Lamp.program.run 60 Lamp.start).AtRest := ⟨rfl, .inr ⟨_, rfl⟩⟩
  have refers : Lamp.program.Keeps (fun _ => True) (Directive.Refers Lamp.world) :=
    fun _ => ⟨rfl, trivial, trivial⟩
  refine ⟨_, Lamp.run 60, rest, refers, rfl, nofun, ⟨_, _, _, rfl, rfl, rfl, List.mem_singleton_self _,
    rfl⟩, (Lamp.run 60).agrees rest refers rfl rfl ?_ rfl ?_⟩
  · intro i x found _
    cases i with
    | zero => rfl
    | succ => cases found
  · intro r mem
    cases mem with
    | head => exact ⟨_, rfl⟩
    | tail _ mem => cases mem

end Agreement

end ScopedMachine

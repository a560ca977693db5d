import ScopedMachine.Proofs.Inbox
import ScopedMachine.Proofs.Phases

/-!
# A machine does what its definitions say

Apart from scopes, subscriptions and the inbox, a machine is a state machine whose states are lists
of directives. `Ideal` is that state machine and `Ideal.react` its one step, which looks at nothing
but the directives. When bodies only yield directives and entry actions make no calls, a machine
that is sent any events answers them and ends up as `Ideal` says.
-/

namespace ScopedMachine

variable {H : Type} {p : Program H} {m : MachineId}

/-! ## The state machine of some definitions -/

namespace Collected

variable {E : Type}

/-- Whether the state listens to an event type on a source with this identity. -/
def listensTo (source : SourceId) (type : String) (x : Collected E) : Bool :=
  x.directives.any fun
    | .listenTo s types => s.id == source && types.contains type
    | _ => false

/-- Where an event of this type would lead to: the target that was declared first. -/
def target? (type : String) (x : Collected E) : Option Definition :=
  (x.moves.find? (·.1 == type)).map (·.2)

/-- Where an event leads to, which is nowhere if the state has exited or does not listen to it. -/
def next? (source : SourceId) (type : String) (x : Collected E) : Option Definition :=
  if x.isTerminal then none else if x.listensTo source type then x.target? type else none

end Collected

/-- A state machine whose states are lists of directives, with the number of its transitions. -/
structure Ideal (H : Type) where
  current : Collected (Entry H)
  transitions : Nat := 0

namespace Ideal

/-- What an event does to the state machine, and what the sender is answered. -/
def react (p : Program H) (limit : Nat) (i : Ideal H) (source : SourceId) (e : Event) :
    Ideal H × Except MachineError Delivery :=
  match i.current.next? source e.kind with
  | none => (i, .ok .ignored)
  | some target =>
    match p.collect limit target with
    | .done (.ok x) => (⟨x, i.transitions + 1⟩, .ok (.transitioned i.current.name x.name))
    | .done (.error e) => (i, .error (.definition e))
    | _ => (i, .ok .ignored)

/-- What some events do to the state machine one after the other, and what is answered. -/
def run (p : Program H) (limit : Nat) :
    Ideal H → List (SourceId × Event) → Ideal H × List (Except MachineError Delivery)
  | i, [] => (i, [])
  | i, (source, e) :: es =>
    let next := i.react p limit source e
    let last := next.1.run p limit es
    (last.1, next.2 :: last.2)

/-- What can be seen of the state machine when it runs as a machine. -/
def snapshot (uuid : Uuid) (i : Ideal H) : Snapshot where
  machine := uuid
  state := i.current.name
  aliases := i.current.aliases
  status := .running
  terminal := i.current.isTerminal
  accumulator := i.current.accumulator
  transitions := i.transitions

end Ideal

/-! ## Events and their targets -/

section Targets

variable {E : Type} {x : Collected E} {source : SourceId} {type : String}

theorem Collected.listensTo_iff :
    x.listensTo source type ↔ ∃ s, s.id = source ∧ (s, type) ∈ listened x.directives := by
  rw [Collected.listensTo, List.any_eq_true]
  constructor
  · rintro ⟨d, mem, listens⟩
    cases d with
    | listenTo s types =>
      obtain ⟨same, contains⟩ := (Bool.and_eq_true _ _).mp listens
      exact ⟨s, eq_of_beq same, mem_listened.2 ⟨types, mem, List.contains_iff_mem.1 contains⟩⟩
    | _ => cases listens
  · rintro ⟨s, rfl, mem⟩
    obtain ⟨types, inside, contains⟩ := mem_listened.1 mem
    refine ⟨_, inside, ?_⟩
    simpa [TypeSet.contains] using contains

/-- The table of a state resolves an event to its target, if the state listens to it. -/
theorem RouteTable.target?_resolve_build :
    ((build x.directives).resolve source type).target? =
      if x.listensTo source type then x.target? type else none := by
  by_cases listens : x.listensTo source type
  · obtain ⟨s, rfl, mem⟩ := Collected.listensTo_iff.1 listens
    have first : x.target? type = (targets x.moves type).head? := by
      rw [targets, List.head?_map, List.head?_filter]
      rfl
    rw [if_pos listens, first, resolve_of_mem mem]
    rcases targets x.moves type with _ | ⟨_, _ | _⟩ <;> rfl
  · have silent (s : Source) (same : s.id = source) : (s, type) ∉ listened x.directives :=
      fun mem => listens (Collected.listensTo_iff.2 ⟨s, same, mem⟩)
    rw [if_neg listens, resolve_of_silent silent]
    rfl

end Targets

/-! ## One event -/

/-- A machine is in the state that the state machine is in, and nobody observes it. -/
structure World.Mirrors (m : MachineId) (limit : Nat) (i : Ideal H) (cell : MachineCell H)
    (w : World H) : Prop where
  found : w.machine? m = some cell
  shows : cell.snapshot = i.snapshot cell.uuid
  limit : cell.settings.delegationLimit = limit
  unobserved : cell.observers.matching Change.topic = []
  /-- The activation in place has the directives of the state; only listeners hang off its scope. -/
  current : ∃ s, cell.current = some ⟨i.current, .build i.current.directives, s⟩ ∧
    w.header? s = some (false, some m) ∧
    ∀ t ∈ w.teardowns s, ∃ slot number, t = .unlisten slot number
  quiet : w.Minds

namespace World.Mirrors

variable {w w' : World H} {limit : Nat} {i : Ideal H} {cell : MachineCell H}

/-- A teardown that hangs off another scope does not matter. -/
theorem addTeardown (mirrors : w.Mirrors m limit i cell) {s : ScopeId} (t : Teardown H)
    (live : w.isCancelled s = false) (other : ∀ a, cell.current = some a → a.scope ≠ s) :
    (w.addTeardown s t).Mirrors m limit i cell where
  found := mirrors.found
  shows := mirrors.shows
  limit := mirrors.limit
  unobserved := mirrors.unobserved
  current := by
    obtain ⟨own, current, open_, loose⟩ := mirrors.current
    refine ⟨own, current, World.header?_addTeardown.trans open_, fun u mem => loose u ?_⟩
    rwa [World.teardowns_addTeardown live, if_neg (other _ current), List.append_nil] at mem
  quiet := mirrors.quiet

/-- Handles and the inbox do not matter. -/
theorem edit (mirrors : w.Mirrors m limit i cell) {f : MachineCell H → MachineCell H}
    (shows : (f cell).snapshot = cell.snapshot) (settings : (f cell).settings = cell.settings)
    (observers : (f cell).observers = cell.observers) (current : (f cell).current = cell.current) :
    (w.modifyMachine m f).Mirrors m limit i (f cell) where
  found := machine?_modifyMachine_self mirrors.found
  shows := by
    have same : (f cell).uuid = cell.uuid := congrArg Snapshot.machine shows
    rw [shows, same, mirrors.shows]
  limit := by rw [settings, mirrors.limit]
  unobserved := by rw [observers, mirrors.unobserved]
  current := by
    rw [current]
    exact mirrors.current
  quiet := mirrors.quiet

/-- The target of an event is the one that the state declares for it. -/
theorem target? (mirrors : w.Mirrors m limit i cell) (source : SourceId) (type : String) :
    cell.target? source type = i.current.next? source type := by
  obtain ⟨s, current, _⟩ := mirrors.current
  have running : cell.status = .running := congrArg Snapshot.status mirrors.shows
  have terminal : cell.terminal = i.current.isTerminal := congrArg Snapshot.terminal mirrors.shows
  unfold MachineCell.target? Collected.next?
  rw [running, terminal, current]
  cases i.current.isTerminal with
  | true => rfl
  | false => exact RouteTable.target?_resolve_build

end World.Mirrors

section Reaching

variable {w : World H} {h : H} {limit : Nat} {i : Ideal H} {cell : MachineCell H}
  {e : Event}

/-- Another state is entered after the current one was left. -/
theorem World.Mirrors.reaches_next {x : Collected (Entry H)} (mirrors : w.Mirrors m limit i cell)
    (minds : ∀ d ∈ x.directives, d.Minds) (rest : List (Frame H)) :
    ∃ w' h' cell', w'.Mirrors m limit ⟨x, i.transitions + 1⟩ cell' ∧ cell'.inbox = cell.inbox ∧
      cell'.handles = cell.handles ∧
      p.Reaches ⟨w, h, .gather (.done (.ok x)), .collecting (.transition m e.kind) :: rest⟩
        ⟨w', h', .give (.delivered (.ok (.transitioned i.current.name x.name))), rest⟩ := by
  obtain ⟨s, current, live, loose⟩ := mirrors.current
  have running : cell.status = .running := congrArg Snapshot.status mirrors.shows
  -- the current state is left
  let w₁ := w.modifyMachine m MachineCell.clearCurrent
  let h₁ := p.subscriber (.collected x.name x.directives.length) h
  have leaves : p.step ⟨w, h, .gather (.done (.ok x)), .collecting (.transition m e.kind) :: rest⟩ =
      some ⟨w₁, h₁, .release s, .leaving m i.current x e.kind :: rest⟩ := by
    simp only [Program.step, Config.useCollected, Config.record, mirrors.found, running, current]
    rfl
  obtain ⟨w₂, released, releases⟩ := Program.Reaches.release (p := p) (w := w₁) (h := h₁) live loose
  have found₂ : w₂.machine? m = some cell.clearCurrent := by
    refine (released.machine? m).trans ?_
    exact World.machine?_modifyMachine_self mirrors.found
  have quiet₂ : w₂.Minds := released.minds mirrors.quiet
  -- the next one is entered
  let h₂ := p.subscriber (.scopeReleased i.current.name) h₁
  obtain ⟨w₃, h₃, r, entered, enters⟩ :=
    Program.Reaches.activate (p := p) (h := h₂) found₂ quiet₂ minds
  have found₃ : w₃.machine? m = some cell.clearCurrent :=
    (entered.machine? m).trans (World.machine?_addScope.trans found₂)
  obtain ⟨live₃, loose₃⟩ := entered.acquired
  -- it is installed, and nobody is told
  let a : Activation H := ⟨x, .build x.directives, ⟨w₂.scopes.size⟩⟩
  let time := w₃.wallClock w₃.readings
  let cell' := cell.clearCurrent.commit a e.kind time
  let w₄ : World H := { w₃.modifyMachine m (MachineCell.commit a e.kind time) with
    readings := w₃.readings + if cell.settings.recordHistory then 1 else 0 }
  let h₄ := p.subscriber (.transitioned cell.state x.name e.kind)
    (p.subscriber (.entered x.name a.routes.size) h₃)
  have installs : p.step ⟨w₃, h₃, .give (.result r),
        .subscribing m a [] (.commit e.kind i.current) :: rest⟩ =
      some ⟨w₄, h₄, .give (.result (.ok ())),
        .publishing m (cell'.change cell.state e.kind) [] :: rest⟩ := by
    have running : cell.clearCurrent.status = .running := running
    have unobserved : cell.clearCurrent.observers.matching Change.topic = [] := mirrors.unobserved
    simp only [Program.step, Program.resume, Config.subscribeNext, Config.record, Config.install,
      found₃, running, unobserved, if_true]
    rfl
  have found₄ : w₄.machine? m = some cell' := by
    exact World.machine?_modifyMachine_self found₃
  have sequence : cell.sequence = i.transitions := congrArg Snapshot.transitions mirrors.shows
  have state : cell.state = i.current.name := congrArg Snapshot.state mirrors.shows
  refine ⟨w₄, h₄, cell', ⟨found₄, ?_, mirrors.limit, mirrors.unobserved, ?_, ?_⟩, rfl, rfl, ?_⟩
  · show (⟨cell.uuid, x.name, x.aliases, cell.status, x.isTerminal, x.accumulator,
      cell.sequence + 1⟩ : Snapshot) = _
    rw [running, sequence]
    rfl
  · exact ⟨_, rfl, live₃, loose₃⟩
  · exact entered.minds (w := (w₂.addScope (some m) (some cell.clearCurrent.manager)).2) quiet₂
  · have told : p.step ⟨w₄, h₄, .give (.result (.ok ())),
        .publishing m (cell'.change cell.state e.kind) [] :: rest⟩ =
          some ⟨w₄, h₄, .give (.delivered (.ok (.transitioned i.current.name x.name))), rest⟩ := by
      rw [← state]
      rfl
    exact .head leaves ((releases _).trans (.head rfl ((enters _ _ rest).trans
      (.head installs (.single told)))))

/-- An event that is routed does what it does to the state machine. -/
theorem World.Mirrors.reaches_route (mirrors : w.Mirrors m limit i cell)
    (yields : p.Yields Directive.Minds) (source : SourceId) (e : Event) (rest : List (Frame H)) :
    ∃ w' h' cell', w'.Mirrors m limit (i.react p limit source e).1 cell' ∧
      cell'.inbox = cell.inbox ∧ cell'.handles = cell.handles ∧
      p.Reaches ⟨w, h, .route m source e, rest⟩
        ⟨w', h', .give (.delivered (i.react p limit source e).2), rest⟩ := by
  obtain ⟨h₁, routes⟩ := @Program.step_route _ p m ⟨w, h, .route m source e, rest⟩ cell source e
    mirrors.found rfl
  rw [mirrors.target?, mirrors.limit] at routes
  unfold Ideal.react
  cases leads : i.current.next? source e.kind with
  | none =>
    rw [leads] at routes
    exact ⟨w, h₁, cell, mirrors, rfl, rfl, .single routes⟩
  | some target =>
    rw [leads] at routes
    obtain ⟨r, done, declared⟩ := yields.collect limit target
    simp only [done] at routes ⊢
    cases r with
    | error error =>
      have refused : p.step ⟨w, h₁, .gather (.done (.error error)),
          .collecting (.transition m e.kind) :: rest⟩ =
            some ⟨w, p.subscriber (.collectFailed error) h₁,
              .give (.delivered (.error (.definition error))), rest⟩ := rfl
      exact ⟨w, _, cell, mirrors, rfl, rfl, .head routes (.single refused)⟩
    | ok x =>
      obtain ⟨w', h', cell', mirrors', inbox, handles, reaches⟩ :=
        mirrors.reaches_next (p := p) (h := h₁) (e := e) (declared x rfl) rest
      exact ⟨w', h', cell', mirrors', inbox, handles, .head routes reaches⟩

/-- A send to a machine that is at rest is answered as the state machine says. -/
theorem World.Mirrors.reaches_send (mirrors : w.Mirrors m limit i cell)
    (yields : p.Yields Directive.Minds) (idle : cell.inbox = {}) (held : 0 < cell.handles)
    (source : SourceId) (e : Event) (k : Answer → Script H) (rest : List (Frame H)) :
    ∃ w' h' cell', w'.Mirrors m limit (i.react p limit source e).1 cell' ∧ cell'.inbox = {} ∧
      0 < cell'.handles ∧
      p.Reaches ⟨w, h, .run (.call (.send m source e) k), rest⟩
        ⟨w', h', .run (k (.delivered (i.react p limit source e).2)), rest⟩ := by
  let frames : List (Frame H) := .draining m e.kind none :: .holding m :: .await k :: rest
  -- the call holds the machine and claims its inbox
  have mirrors₁ : (w.modifyMachine m MachineCell.pin).Mirrors m limit i cell.pin :=
    mirrors.edit rfl rfl rfl rfl
  have mirrors₂ := mirrors₁.edit (f := MachineCell.beginDraining) rfl rfl rfl rfl
  have isHeld : w.isHeld m = true := by
    simp only [World.isHeld, mirrors.found, Option.map_some, Option.getD_some, decide_eq_true held]
  have called : p.step ⟨w, h, .run (.call (.send m source e) k), rest⟩ =
      some ⟨w.modifyMachine m MachineCell.pin, h, .send m source e,
        .holding m :: .await k :: rest⟩ := by
    simp only [Program.step, Program.call, Config.push, isHeld, if_true]
    rfl
  have claimed : p.step ⟨w.modifyMachine m MachineCell.pin, h, .send m source e,
        .holding m :: .await k :: rest⟩ =
      some ⟨(w.modifyMachine m MachineCell.pin).modifyMachine m MachineCell.beginDraining, h,
        .route m source e, frames⟩ := by
    have free : cell.pin.inbox.draining = false := congrArg Inbox.draining idle
    simp only [Program.step, Config.performSend, mirrors₁.found, free]
    rfl
  obtain ⟨w₃, h₃, cell₃, mirrors₃, inbox, handles, routes⟩ :=
    mirrors₂.reaches_route (h := h) yields source e frames
  -- nothing was sent meanwhile, and the handle of the call is not the last one
  have mirrors₄ := mirrors₃.edit (f := MachineCell.endDraining) rfl rfl rfl rfl
  have mirrors₅ := mirrors₄.edit (f := MachineCell.unpin) rfl rfl rfl rfl
  have handles₅ : cell₃.endDraining.unpin.handles = cell.handles := handles
  have empty : cell₃.inbox.pending = [] := by
    rw [inbox]
    exact congrArg Inbox.pending idle
  have drained : p.step ⟨w₃, h₃, .give (.delivered (i.react p limit source e).2), frames⟩ =
      some ⟨w₃.modifyMachine m MachineCell.endDraining, h₃,
        .give (.delivered (i.react p limit source e).2), .holding m :: .await k :: rest⟩ := by
    simp only [Program.step, frames, Program.resume, Config.drain, mirrors₃.found, Option.bind_some,
      empty]
    rfl
  have released : p.step ⟨w₃.modifyMachine m MachineCell.endDraining, h₃,
        .give (.delivered (i.react p limit source e).2), .holding m :: .await k :: rest⟩ =
      some ⟨(w₃.modifyMachine m MachineCell.endDraining).modifyMachine m MachineCell.unpin, h₃,
        .give (.delivered (i.react p limit source e).2), .await k :: rest⟩ := by
    have alive : ((w₃.modifyMachine m MachineCell.endDraining).modifyMachine m
        MachineCell.unpin).isAlive m = true := by
      simp only [World.isAlive, mirrors₅.found, Option.map_some, Option.getD_some]
      rw [MachineCell.isAlive, handles₅, decide_eq_true_iff]
      exact Nat.add_pos_left held _
    show some (Config.settleHandle m _ ⟨_, _, _, _⟩) = _
    rw [Config.settleHandle, if_pos alive]
    rfl
  refine ⟨_, h₃, _, mirrors₅, ?_, handles₅ ▸ held, ?_⟩
  · show (⟨cell₃.inbox.pending, false⟩ : Inbox) = {}
    rw [empty]
  · exact .head called (.head claimed (routes.trans (.head drained (.head released (.single rfl)))))

end Reaching

/-! ## Any number of events -/

/-- Send events to a machine one after the other, and go on with what is answered. -/
def Script.sendAll (m : MachineId) :
    List (SourceId × Event) → (List (Except MachineError Delivery) → Script H) → Script H
  | [], k => k []
  | (source, e) :: es, k =>
    .call (.send m source e) fun
      | .delivered r => sendAll m es fun rs => k (r :: rs)
      | _ => .ok

/-- Start a machine, send it events one after the other, and go on with what is answered. -/
def Script.startAndSend (initial : Definition) (settings : Settings) (signal : Option ScopeId)
    (es : List (SourceId × Event))
    (k : MachineId → List (Except MachineError Delivery) → Script H) : Script H :=
  .call (.start initial settings signal) fun
    | .started (.ok m) => sendAll m es (k m)
    | _ => .ok

section Running

variable {w : World H} {h : H} {limit : Nat} {i : Ideal H} {cell : MachineCell H}

/-- Events that are sent one after the other do what they do to the state machine. -/
theorem World.Mirrors.reaches_sendAll (mirrors : w.Mirrors m limit i cell)
    (yields : p.Yields Directive.Minds) (idle : cell.inbox = {}) (held : 0 < cell.handles)
    (es : List (SourceId × Event)) (k : List (Except MachineError Delivery) → Script H)
    (rest : List (Frame H)) :
    ∃ w' h' cell', w'.Mirrors m limit (i.run p limit es).1 cell' ∧ 0 < cell'.handles ∧
      p.Reaches ⟨w, h, .run (.sendAll m es k), rest⟩
        ⟨w', h', .run (k (i.run p limit es).2), rest⟩ := by
  induction es generalizing w h i cell k with
  | nil => exact ⟨w, h, cell, mirrors, held, .refl _⟩
  | cons event es ih =>
    obtain ⟨source, e⟩ := event
    obtain ⟨w₁, h₁, cell₁, mirrors₁, idle₁, held₁, sends⟩ :=
      mirrors.reaches_send (h := h) yields idle held source e (fun
        | .delivered r => .sendAll m es fun rs => k (r :: rs)
        | _ => .ok) rest
    obtain ⟨w', h', cell', mirrors', held', reaches⟩ :=
      ih (h := h₁) mirrors₁ idle₁ held₁ fun rs => k ((i.react p limit source e).2 :: rs)
    exact ⟨w', h', cell', mirrors', held', sends.trans reaches⟩

/-- A machine that is started is in its first state, and nothing was sent to it. -/
theorem Program.Reaches.start {initial : Definition} {settings : Settings}
    {signal : Option ScopeId} {x : Collected (Entry H)} (yields : p.Yields Directive.Minds)
    (quiet : w.Minds) (valid : settings.validate = .ok ())
    (collects : p.collect settings.delegationLimit initial = .done (.ok x))
    (live : ∀ s ∈ signal, w.isCancelled s = false) (k : Answer → Script H)
    (rest : List (Frame H)) :
    ∃ w' h' cell, w'.Mirrors ⟨w.machines.size⟩ settings.delegationLimit ⟨x, 0⟩ cell ∧
      cell.inbox = {} ∧ 0 < cell.handles ∧
      p.Reaches ⟨w, h, .run (.call (.start initial settings signal) k), rest⟩
        ⟨w', h', .run (k (.started (.ok ⟨w.machines.size⟩))), rest⟩ := by
  let m := w.nextMachine
  let blank := w.newborn settings
  let w₀ := w.bear settings
  let frames : List (Frame H) := .starting m signal :: .await k :: rest
  have called : p.step ⟨w, h, .run (.call (.start initial settings signal) k), rest⟩ =
      some ⟨w₀, h, .gather (.done (.ok x)), .collecting (.initial m) :: frames⟩ := by
    rw [Program.step_start rfl valid, collects]
  -- the first state is entered
  have found₀ : w₀.machine? m = some blank := World.machine?_bear.trans (if_pos rfl)
  have quiet₀ : w₀.Minds := quiet
  have minds : ∀ d ∈ x.directives, d.Minds := by
    obtain ⟨r, done, declared⟩ := yields.collect settings.delegationLimit initial
    cases collects.symm.trans done
    exact declared x rfl
  let h₀ := p.subscriber (.collected x.name x.directives.length) h
  obtain ⟨w₁, h₁, r, entered, enters⟩ :=
    Program.Reaches.activate (p := p) (h := h₀) found₀ quiet₀ minds
  have found₁ : w₁.machine? m = some blank :=
    (entered.machine? m).trans (World.machine?_addScope.trans found₀)
  obtain ⟨live₁, loose₁⟩ := entered.acquired
  -- it is installed
  let a : Activation H := ⟨x, .build x.directives, ⟨w₀.scopes.size⟩⟩
  let w₂ := w₁.modifyMachine m (MachineCell.begin a)
  let h₂ := p.subscriber (.started settings.label x.name)
    (p.subscriber (.entered x.name a.routes.size) h₁)
  have installs : p.step ⟨w₁, h₁, .give (.result r), .subscribing m a [] .initial :: frames⟩ =
      some ⟨w₂, h₂, .give (.entered (.ok ())), frames⟩ := by
    simp only [Program.step, Program.resume, Config.subscribeNext, Config.record, Config.install,
      found₁]
    rfl
  have mirrors₂ : w₂.Mirrors m settings.delegationLimit ⟨x, 0⟩ (blank.begin a) := by
    refine ⟨?_, rfl, rfl, rfl, ⟨_, rfl, live₁, loose₁⟩, ?_⟩
    · exact World.machine?_modifyMachine_self found₁
    · exact entered.minds (w := (w₀.addScope (some m) (some blank.manager)).2) quiet₀
  have begun : p.Reaches ⟨w, h, .run (.call (.start initial settings signal) k), rest⟩
      ⟨w₂, h₂, .give (.entered (.ok ())), frames⟩ :=
    .head called (.head rfl ((enters _ _ frames).trans (.single installs)))
  -- the host gets a handle
  have handOver {w₃ : World H}
      (mirrors₃ : w₃.Mirrors m settings.delegationLimit ⟨x, 0⟩ (blank.begin a)) :
      (w₃.modifyMachine m fun cell => cell.unpin.hold).Mirrors m settings.delegationLimit ⟨x, 0⟩
        (blank.begin a).unpin.hold :=
    mirrors₃.edit (f := fun cell => cell.unpin.hold) rfl rfl rfl rfl
  cases signal with
  | none =>
    exact ⟨_, h₂, _, handOver mirrors₂, rfl, Nat.one_pos, begun.trans (.head rfl (.single rfl))⟩
  | some s =>
    -- the signal is another scope than that of the first state
    obtain ⟨owner, open_⟩ := World.isCancelled_eq_false_iff.1 (live s rfl)
    have other : ⟨w₀.scopes.size⟩ ≠ s := by
      rintro rfl
      rw [show w.header? ⟨w₀.scopes.size⟩ = none from World.header?_size] at open_
      cases open_
    have open₂ : w₂.header? s = some (false, owner) := by
      refine (entered.header? s).trans ?_
      rw [World.header?_addScope, if_neg other.symm]
      exact open_
    have live₂ : w₂.isCancelled s = false := World.isCancelled_eq_false_iff.2 ⟨owner, open₂⟩
    have mirrors₃ := mirrors₂.addTeardown (.stop m) live₂ fun b current => by
      cases current
      exact other
    have signals : p.step ⟨w₂, h₂, .give (.entered (.ok ())), frames⟩ =
        some ⟨w₂.addTeardown s (.stop m), h₂, .give .unit, .signalled m :: .await k :: rest⟩ := by
      show some (Config.onCancel s (.stop m) ⟨_, _, _, _⟩) = _
      rw [Config.onCancel, show World.isCancelled _ s = false from live₂]
      rfl
    exact ⟨_, h₂, _, handOver mirrors₃, rfl, Nat.one_pos,
      begun.trans (.head signals (.head rfl (.single rfl)))⟩

/-- A machine that is started and sent any events does what its definitions say. -/
theorem Program.Reaches.startAndSend {initial : Definition} {settings : Settings}
    {signal : Option ScopeId} {x : Collected (Entry H)} (yields : p.Yields Directive.Minds)
    (quiet : w.Minds) (valid : settings.validate = .ok ())
    (collects : p.collect settings.delegationLimit initial = .done (.ok x))
    (live : ∀ s ∈ signal, w.isCancelled s = false) (es : List (SourceId × Event))
    (k : MachineId → List (Except MachineError Delivery) → Script H) (rest : List (Frame H)) :
    ∃ w' h' m view, w'.machineView? m = some view ∧
      view.snapshot =
        ((Ideal.mk x 0).run p settings.delegationLimit es).1.snapshot view.snapshot.machine ∧
      p.Reaches ⟨w, h, .run (.startAndSend initial settings signal es k), rest⟩
        ⟨w', h', .run (k m ((Ideal.mk x 0).run p settings.delegationLimit es).2), rest⟩ := by
  obtain ⟨w₁, h₁, cell₁, mirrors₁, idle, held, starts⟩ :=
    Program.Reaches.start (p := p) (h := h) yields quiet valid collects live (fun
      | .started (.ok m) => .sendAll m es (k m)
      | _ => .ok) rest
  obtain ⟨w', h', cell, mirrors, held, sends⟩ :=
    mirrors₁.reaches_sendAll (h := h₁) yields idle held es (k _) rest
  let view : MachineView :=
    ⟨cell.settings.label, cell.snapshot, cell.history, w'.subscriptions cell, w'.tally cell.manager⟩
  refine ⟨w', h', ⟨w.machines.size⟩, view, ?_, mirrors.shows, starts.trans sends⟩
  simp only [World.machineView?, mirrors.found, Option.bind_eq_bind, Option.bind_some,
    Nat.ne_of_gt held, if_false]
  rfl

end Running

/-! ## The lamp -/

namespace Lamp

theorem yields : program.Yields Directive.Minds := by
  intro key
  refine ⟨?_, ?_, trivial⟩
  · intro a token same
    cases same
  · intro a token same
    cases same

theorem world_minds : world.Minds := by
  intro slot f hosted
  cases slot with
  | zero => cases hosted
  | succ slot => cases hosted

/-- The switch is operated, something else happens to it, and it is operated again. -/
def events : List (SourceId × Event) :=
  [(switch.id, { kind := "toggle" }), (switch.id, { kind := "dim" }),
    (switch.id, { kind := "toggle" })]

/-- The state of the lamp when it is off. -/
def offState : Collected (Entry Unit) :=
  ⟨"Off", [], [.listenTo switch (.ofList ["toggle"]), .moveTo "toggle" on]⟩

end Lamp

/-- The lamp is off again after two of three events did something. -/
theorem Program.Reaches.startAndSend_lamp :
    Lamp.program.Yields Directive.Minds ∧ Lamp.world.Minds ∧
      Lamp.program.collect 32 Lamp.off = .done (.ok Lamp.offState) ∧
      ∃ w' h' m view, w'.machineView? m = some view ∧ view.snapshot.state = "Off" ∧
        view.snapshot.transitions = 2 ∧
        Lamp.program.Reaches
          ⟨Lamp.world, (), .run (.startAndSend Lamp.off {} none Lamp.events fun _ answers =>
            match answers with
            | [.ok (.transitioned ..), .ok .ignored, .ok (.transitioned ..)] => .ok
            | _ => .panic "other answers were expected"), []⟩
          ⟨w', h', .run .ok, []⟩ := by
  have valid : ({} : Settings).validate = .ok () := rfl
  have collects : Lamp.program.collect 32 Lamp.off = .done (.ok Lamp.offState) := rfl
  obtain ⟨w', h', m, view, found, shows, reaches⟩ :=
    Program.Reaches.startAndSend (h := ()) Lamp.yields Lamp.world_minds valid collects
      (fun s signal => absurd signal (Option.not_mem_none s)) Lamp.events (fun _ answers =>
        match answers with
        | [.ok (.transitioned ..), .ok .ignored, .ok (.transitioned ..)] => .ok
        | _ => .panic "other answers were expected") []
  refine ⟨Lamp.yields, Lamp.world_minds, collects, w', h', m, view, found, ?_, ?_, reaches⟩
  · rw [shows]
    rfl
  · rw [shows]
    rfl

end ScopedMachine

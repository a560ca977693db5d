import ScopedMachine.Proofs.Custody

/-!
# Worlds that have settled

When nothing is under way, who listens to what depends on the current activations alone. A machine
that runs has one live scope, and on each source one listener for each of its routes there; a machine
that does not run has neither a live scope nor a listener. No listener and no observer is left over
from a scope that was released. Only a panic leaves anything behind: it can end the change from one
activation to another, after which the machine runs without any, and it can end a release, after which
the registrations stay that the release would have undone.
-/

namespace ScopedMachine

variable {H : Type} {p : Program H} {m : MachineId}

/-- What a listener of a machine listens to, and with which token. -/
def Registration.subscription? (m : MachineId) (r : Registration (Listener H)) :
    Option (String × SourceId × ScopeId) :=
  match r.listener with
  | .route n source => if n = m then some (r.topic, source, r.token) else none
  | .handler _ => none

theorem Registration.subscription?_eq_some_iff {r : Registration (Listener H)} {topic : String}
    {source : SourceId} {token : ScopeId} :
    r.subscription? m = some (topic, source, token) ↔
      r.listener = .route m source ∧ r.topic = topic ∧ r.token = token := by
  unfold subscription?
  split
  · next n id listener =>
    rw [listener]
    by_cases mine : n = m
    · subst mine
      simp [and_left_comm]
    · simp [mine]
  · next listener => simp [listener]

namespace World

/-- What a machine listens to on a source, and with which tokens. -/
def subscriptionsOn (slot : Nat) (m : MachineId) (w : World H) :
    List (String × SourceId × ScopeId) :=
  (w.entries slot).filterMap (Registration.subscription? m)

/-- The scopes and the listeners of a machine are those of one activation. -/
structure Serves (m : MachineId) (a : Activation H) (w : World H) : Prop where
  /-- The one live scope of the machine is that of the activation. -/
  scope {s : ScopeId} : w.header? s = some (false, some m) ↔ s = a.scope
  /-- A source has one listener for each route on it, in the order of the table. -/
  listeners {slot : Nat} (source : w.source? slot ≠ none) :
    w.subscriptionsOn slot m =
      (a.routes.routes.filter (·.source.slot == slot)).map fun r =>
        (r.type, r.source.id, a.scope)
  /-- No two routes are for one event type on one source. -/
  nodup : (a.routes.routes.map Route.key).Nodup
  /-- There are routes for just the event types that the directives listen to. -/
  routes {source : Source} {type : String} :
    (∃ types, .listenTo source types ∈ a.collected.directives ∧ type ∈ types.toList) →
      ∃ r ∈ a.routes.routes, r.type = type ∧ r.source.id = source.id ∧
        r.source.slot = source.slot
  listened {r : Route} (mem : r ∈ a.routes.routes) :
    ∃ types, .listenTo r.source types ∈ a.collected.directives ∧ r.type ∈ types.toList
  /-- Each route is on the source that it names. -/
  placed {r : Route} (mem : r ∈ a.routes.routes) :
    ∃ source, w.source? r.source.slot = some source ∧ source.id = r.source.id

/-- The machine has no activation, no live scope and no listener, but for the listeners whose tokens
belong to scopes of which a panic ended the release. -/
structure Spares (past : List (Config H)) (m : MachineId) (w : World H) : Prop where
  current : w.current? m = none
  scope (s : ScopeId) : w.header? s ≠ some (false, some m)
  listeners {slot : Nat} {topic : String} {source : SourceId} {token : ScopeId}
    (mem : (topic, source, token) ∈ w.subscriptionsOn slot m) : Lost token past

/-- The listeners and the live scopes of all machines are those of their current activations. Only
panics among the configurations passed are an excuse. -/
structure Settled (past : List (Config H)) (w : World H) : Prop where
  /-- A machine that runs has an activation and serves it, unless a panic ended the change from one
  activation to another. -/
  running {m : MachineId} (runs : w.Runs m) :
    (∃ a, w.current? m = some a ∧ w.Serves m a) ∨ (∃ y ∈ past, y.Vacates m) ∧ w.Spares past m
  idle {m : MachineId} (runs : ¬w.Runs m) : w.Spares past m
  /-- Nobody listens to a source with a token that is cancelled, unless a panic ended the release. -/
  listeners {slot : Nat} {r : Registration (Listener H)} (mem : r ∈ w.entries slot) :
    w.isCancelled r.token = false ∨ Lost r.token past
  /-- Nobody observes a machine with such a token either. -/
  observers {m : MachineId} {cell : MachineCell H} (found : w.machine? m = some cell)
    {r : Registration (Observer H)} (mem : r ∈ cell.observers.entries) :
    w.isCancelled r.token = false ∨ Lost r.token past

/-- If all listeners of a machine have one token, they are those with that token. -/
theorem subscriptionsOn_eq {w : World H} {slot : Nat} {token : ScopeId}
    (one : ∀ r ∈ w.entries slot, ∀ source, r.listener = .route m source → r.token = token) :
    w.subscriptionsOn slot m =
      (w.subscribed m slot token).map fun l => (l.1, l.2, token) := by
  rw [subscriptionsOn, subscribed, List.map_filterMap]
  refine List.filterMap_congr fun r mem => ?_
  have one := one r mem
  unfold Registration.subscription? Registration.route?
  cases listener : r.listener with
  | handler f => rfl
  | route n source =>
    by_cases mine : n = m
    · subst mine
      simp [one source listener]
    · simp [mine]

end World

namespace Program.Run

variable {w : World H} {past : List (Config H)} {c : Config H}

/-- While a machine has an activation, all its listeners have the token of that one. -/
theorem token_of_current (run : p.Run w past c) (rest : c.AtRest ∨ c.IsOver) {a : Activation H}
    (current : c.world.current? m = some a) {slot : Nat} {r : Registration (Listener H)}
    (mem : r ∈ c.world.entries slot) {source : SourceId} (route : r.listener = .route m source) :
    r.token = a.scope := by
  obtain ⟨cell, found, _⟩ := Option.bind_eq_some_iff.1 current
  obtain ⟨b, mine⟩ := (run.holding m).mine mem route
  -- a machine that lost a scope to a panic has no activation any more
  have kept : ¬Lost r.token past := run.not_lost_of_held found (mem_grips_of_current current) mine
  obtain ⟨b, current', scope⟩ := (run.current_or_lost_of_entry rest mem route).resolve_right kept
  rw [current] at current'
  cases current'
  exact scope.symm

theorem serves (run : p.Run w past c) (rest : c.AtRest ∨ c.IsOver) (ordinary : w.IsOrdinary)
    (program : p.Keeps (fun _ => True) (Directive.Refers w)) {a : Activation H}
    (current : c.world.current? m = some a) : c.world.Serves m a := by
  have held := mem_grips_of_current current
  obtain ⟨cell, found, installed⟩ := Option.bind_eq_some_iff.1 current
  obtain ⟨refers, table⟩ := (run.keeps program).machine found a installed
  have built : Tabulates (listened a.collected.directives) a.routes.routes := by
    rw [table]
    exact RouteTable.tabulates_build _
  have placed {source : Source} {types : TypeSet}
      (mem : .listenTo source types ∈ a.collected.directives) :
      ∃ x, w.source? source.slot = some x ∧ x.id = source.id :=
    Option.map_eq_some_iff.1 (refers (.listenTo source types) mem)
  constructor
  case scope =>
    intro s
    constructor
    · intro live
      obtain ⟨b, current', scope⟩ := run.current_of_live rest live
      rw [current] at current'
      cases current'
      exact scope.symm
    · rintro rfl
      exact (run.holding m).live held
  case listeners =>
    intro slot source
    have subscribed : c.world.subscribed m slot a.scope = lines slot a.routes.routes :=
      (List.append_nil _).symm.trans (run.subscribed (emitters ordinary) m _ held slot source)
    rw [World.subscriptionsOn_eq fun r mem source => run.token_of_current rest current mem,
      subscribed, lines, List.map_map]
    rfl
  case nodup => exact built.nodup
  case routes =>
    intro source type ⟨types, mem, listens⟩
    obtain ⟨r, hr, key⟩ := List.mem_map.1 (built.covers (mem_listened.2 ⟨types, mem, listens⟩))
    obtain ⟨id, type⟩ := Prod.mk.inj key
    obtain ⟨types', mem', _⟩ := mem_listened.1 (built.only hr)
    obtain ⟨x, hx, idx⟩ := placed mem
    obtain ⟨y, hy, idy⟩ := placed mem'
    exact ⟨r, hr, type, id, ordinary.distinct hy hx (idy.trans (id.trans idx.symm))⟩
  case listened => exact fun mem => mem_listened.1 (built.only mem)
  case placed =>
    intro r hr
    obtain ⟨types, mem, _⟩ := mem_listened.1 (built.only hr)
    have same := run.source?_id r.source.slot
    exact Option.map_eq_some_iff.1 (same.trans (refers _ mem))

theorem spares (run : p.Run w past c) (rest : c.AtRest ∨ c.IsOver)
    (none : c.world.current? m = none) : c.world.Spares past m where
  current := none
  scope s := run.header?_of_rest rest none s
  listeners mem := by
    obtain ⟨r, entry, subscribes⟩ := List.mem_filterMap.1 mem
    obtain ⟨route, _, rfl⟩ := Registration.subscription?_eq_some_iff.1 subscribes
    refine (run.current_or_lost_of_entry rest entry route).resolve_left ?_
    rintro ⟨a, current, _⟩
    rw [none] at current
    cases current

/-- Whenever nothing is under way, the listeners are those of the current activations, but for what a
panic left over. -/
theorem settled (run : p.Run w past c) (rest : c.AtRest ∨ c.IsOver) (ordinary : w.IsOrdinary)
    (program : p.Keeps (fun _ => True) (Directive.Refers w)) : c.world.Settled past := by
  have empty : c.stack = [] := (Config.ended rest).1
  have runs {m : MachineId} {a : Activation H} (current : c.world.current? m = some a) :
      c.world.Runs m := by
    obtain ⟨cell, found, installed⟩ := Option.bind_eq_some_iff.1 current
    have posture := (run.poised m).posture found
    exact ⟨cell, found, posture.current (by rw [installed]; rfl)⟩
  constructor
  case running =>
    intro m runs
    cases current : c.world.current? m with
    | some a => exact .inl ⟨a, rfl, run.serves rest ordinary program current⟩
    | none =>
      refine .inr ⟨(run.current_of_runs rest runs).resolve_left ?_, run.spares rest current⟩
      rintro ⟨a, current'⟩
      rw [current] at current'
      cases current'
  case idle =>
    intro m stands
    exact run.spares rest
      (Option.eq_none_iff_forall_ne_some.2 fun a current => stands (runs current))
  case listeners => exact fun mem => run.live_or_lost_of_entry empty mem
  case observers =>
    intro m cell found r mem
    have book : c.world.book? (.machine m) = some cell.observers.book := by
      rw [World.book?, found]
      rfl
    exact run.live_or_lost empty book (List.mem_map_of_mem mem)

end Program.Run

/-! ## A lamp with a loose wire -/

namespace Lamp

theorem world_isOrdinary : world.IsOrdinary where
  plain {slot source} found := by
    cases slot with
    | zero => cases found; rfl
    | succ => cases found
  distinct {i j x y} hi hj _ := by
    cases i with
    | zero =>
      cases j with
      | zero => rfl
      | succ => cases hj
    | succ => cases hi

/-- While the lamp is off, a teardown that panics hangs off its scope. -/
def loose : Program Unit where
  declared key :=
    if key = "off" then
      .yield (.entry fun s => .call (.onCancel s (.panic "the wire came off")) fun _ => .ok)
        (program.declared key)
    else program.declared key
  subscriber _ h := h

/-- Operate the switch once, and see to the rest later. -/
def tug : Script Unit :=
  .call (.start off {} none) fun _ => .call (.emit 0 { kind := "toggle" }) fun _ => .ok

/-- Where the run begins in which the wire comes off. -/
def tugged : Config Unit := { world, host := (), control := .run tug }

theorem tugged_run (n : Nat) : loose.Run world (loose.trail n tugged) (loose.run n tugged) :=
  (Program.Run.begin world_isFresh () tug).trail n

theorem program_refers : program.Keeps (fun _ => True) (Directive.Refers world) :=
  fun _ => ⟨rfl, trivial, trivial⟩

theorem loose_refers : loose.Keeps (fun _ => True) (Directive.Refers world) := by
  intro key
  unfold loose
  dsimp only
  split
  · exact ⟨trivial, rfl, trivial, trivial⟩
  · exact ⟨rfl, trivial, trivial⟩

end Lamp

namespace Program.Run

/-- The lamp listens to its switch when all is done. -/
theorem settled_lamp :
    (Lamp.program.run 60 Lamp.start).AtRest ∧ Lamp.world.IsOrdinary ∧
      Lamp.program.Keeps (fun _ => True) (Directive.Refers Lamp.world) ∧
      (Lamp.program.run 60 Lamp.start).world.Runs ⟨0⟩ ∧
      (Lamp.program.run 60 Lamp.start).world.Settled (Lamp.program.trail 60 Lamp.start) := by
  have rest : (Lamp.program.run 60 Lamp.start).AtRest := ⟨rfl, .inr ⟨_, rfl⟩⟩
  have runs : (Lamp.program.run 60 Lamp.start).world.Runs ⟨0⟩ := ⟨_, rfl, rfl, rfl⟩
  exact ⟨rest, Lamp.world_isOrdinary, Lamp.program_refers, runs,
    (Lamp.run 60).settled (.inl rest) Lamp.world_isOrdinary Lamp.program_refers⟩

/-- When the wire has come off and all is over the lamp runs without an activation, and a listener with
a cancelled token stays on its switch; so the world has not settled, if panics are no excuse. -/
theorem unsettled_loose :
    ∃ past c, Lamp.loose.Run Lamp.world past c ∧ c.AtRest ∧ Lamp.world.IsOrdinary ∧
      Lamp.loose.Keeps (fun _ => True) (Directive.Refers Lamp.world) ∧
      (c.world.Runs ⟨0⟩ ∧ c.world.current? ⟨0⟩ = none) ∧
      (∃ r ∈ c.world.entries 0, c.world.isCancelled r.token) ∧ ¬c.world.Settled [] := by
  have ended : (Lamp.loose.run 40 Lamp.tugged).IsOver := ⟨rfl, .inr ⟨_, rfl⟩⟩
  have left : ∃ r ∈ (Lamp.loose.run 40 Lamp.tugged).world.entries 0,
      (Lamp.loose.run 40 Lamp.tugged).world.isCancelled r.token :=
    ⟨_, List.mem_singleton_self _, by decide⟩
  refine ⟨_, _, (Lamp.tugged_run 40).resume ended () .ok, ⟨rfl, .inl ⟨_, rfl⟩⟩,
    Lamp.world_isOrdinary, Lamp.loose_refers, ⟨⟨_, rfl, rfl, rfl⟩, rfl⟩, left, fun settled => ?_⟩
  obtain ⟨r, mem, cancelled⟩ := left
  rcases settled.listeners mem with live | ⟨y, none, _⟩
  · rw [live] at cancelled
    cases cancelled
  · cases none

end Program.Run

end ScopedMachine

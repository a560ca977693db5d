import ScopedMachine.Proofs.Delegation

/-!
# Worlds of two programs

Two programs do the same, except that some references to a definition go through new names in one
of them. A `Pairing` says which references those are. For each kind of thing that a world holds or
that host code is told, `Like` says when one of each program correspond: references may go through
new names, the aliases of a state may begin with those names, the chains in cycle errors may be
others, and all else is the same. Host code corresponds if it does the same with what corresponds.

The second half says that what is read off two worlds that correspond does too, and that each edit
keeps them so.
-/

namespace ScopedMachine

variable {H : Type}

/-! ## References -/

/-- A definition under a chain of new names, outermost first. -/
def Definition.under (hops : List String) (d : Definition) : Definition := hops.foldr .renamed d

/-- Two programs, and what is taken to correspond in them. -/
structure Pairing (H : Type) where
  left : Program H
  right : Program H
  /-- On the right a reference to a definition may go through these names. -/
  via : Definition → List String → Prop
  /-- The states of the host that correspond. -/
  host : H → H → Prop

namespace Pairing

variable (P : Pairing H)

/-- A reference is left as it is, or goes through the given names. -/
def Through (d : Definition) (hops : List String) : Prop := hops = [] ∨ P.via d hops

/-- A reference of one program corresponds to one of the other. -/
def Refers (d d' : Definition) : Prop := ∃ hops, P.Through d hops ∧ d' = d.under hops

/-- The aliases of a state begin with the names that a reference goes through. -/
def Aliases (as as' : List String) : Prop := ∃ d hops, P.Through d hops ∧ as' = hops ++ as

variable {P}

theorem Aliases.refl (as : List String) : P.Aliases as as :=
  ⟨.shared "" "", [], .inl rfl, rfl⟩

end Pairing

/-! ## Errors -/

mutual

/-- Two faults say the same, but for the chains of cycles. -/
inductive Fault.Like : Fault → Fault → Prop where
  | plain (text : String) : Fault.Like (.plain text) (.plain text)
  | build (error : BuildError) : Fault.Like (.build error) (.build error)
  | definition {e e' : DefinitionError} (errors : DefinitionError.Like e e') :
      Fault.Like (.definition e) (.definition e')
  | machine {e e' : MachineError} (errors : MachineError.Like e e') :
      Fault.Like (.machine e) (.machine e')

/-- Two definition errors say the same, but for the chains of cycles. -/
inductive DefinitionError.Like : DefinitionError → DefinitionError → Prop where
  | failure (state : String) {f f' : Fault} (sources : Fault.Like f f') :
      DefinitionError.Like (.failure state f) (.failure state f')
  | entry (state : String) {f f' : Fault} (sources : Fault.Like f f') :
      DefinitionError.Like (.entry state f) (.entry state f')
  | cycle (chain chain' : List String) : DefinitionError.Like (.cycle chain) (.cycle chain')
  | tooDeep (state : String) (limit : Nat) :
      DefinitionError.Like (.tooDeep state limit) (.tooDeep state limit)

/-- Two machine errors say the same, but for the chains of cycles. -/
inductive MachineError.Like : MachineError → MachineError → Prop where
  | build (error : BuildError) : MachineError.Like (.build error) (.build error)
  | definition {e e' : DefinitionError} (errors : DefinitionError.Like e e') :
      MachineError.Like (.definition e) (.definition e')
  | restoreFailed (state previous : String) {cause cause' source source' : DefinitionError}
      (causes : DefinitionError.Like cause cause') (sources : DefinitionError.Like source source') :
      MachineError.Like (.restoreFailed state previous cause source)
        (.restoreFailed state previous cause' source')

end

theorem Fault.Like.ofBody {f f' : Fault} (name : String) (faults : f.Like f') :
    (DefinitionError.ofBody name f).Like (DefinitionError.ofBody name f') := by
  cases faults with
  | plain text => exact .failure name (.plain text)
  | build e => exact .failure name (.build e)
  | definition errors => exact errors
  | machine errors => exact .failure name (.machine errors)

/-! ## What host code is told -/

section Told

variable (P : Pairing H)

/-- Two directives correspond if their references and entry actions do. -/
inductive Directive.Like {E F : Type} (R : E → F → Prop) : Directive E → Directive F → Prop where
  | entry {a : E} {b : F} (actions : R a b) : Like R (.entry a) (.entry b)
  | listenTo (source : Source) (types : TypeSet) :
      Like R (.listenTo source types) (.listenTo source types)
  | moveTo (type : String) {d d' : Definition} (targets : P.Refers d d') :
      Like R (.moveTo type d) (.moveTo type d')
  | accumulate (value : Value) : Like R (.accumulate value) (.accumulate value)
  | exit : Like R .exit .exit

structure Collected.Like {E F : Type} (R : E → F → Prop) (x : Collected E) (x' : Collected F) :
    Prop where
  name : x.name = x'.name
  aliases : P.Aliases x.aliases x'.aliases
  directives : List.Forall₂ (Directive.Like P R) x.directives x'.directives

structure Change.Like (s s' : Change) : Prop where
  machine : s.machine = s'.machine
  sequence : s.sequence = s'.sequence
  previous : s.previous = s'.previous
  state : s.state = s'.state
  aliases : P.Aliases s.aliases s'.aliases
  event : s.event = s'.event
  accumulator : s.accumulator = s'.accumulator

structure Report.Like (r r' : Report) : Prop where
  delivered : r.delivered = r'.delivered
  failures : List.Forall₂ Fault.Like r.failures r'.failures

inductive Answer.Like : Answer → Answer → Prop where
  | unit : Like .unit .unit
  | scope (id : ScopeId) : Like (.scope id) (.scope id)
  | manager (id : ManagerId) : Like (.manager id) (.manager id)
  | stream (id : StreamId) : Like (.stream id) (.stream id)
  | result {r r' : Except Fault Unit} (ends : Concurs Fault.Like r r') :
      Like (.result r) (.result r')
  | report {r r' : Report} (reports : r.Like r') : Like (.report r) (.report r')
  | collected {r r' : Except DefinitionError (Collected Unit)}
      (ends : Concur (Collected.Like P fun _ _ => True) DefinitionError.Like r r') :
      Like (.collected r) (.collected r')
  | entered {r r' : Except DefinitionError Unit} (ends : Concurs DefinitionError.Like r r') :
      Like (.entered r) (.entered r')
  | started {r r' : Except MachineError MachineId} (ends : Concur Eq MachineError.Like r r') :
      Like (.started r) (.started r')
  | delivered {r r' : Except MachineError Delivery} (ends : Concur Eq MachineError.Like r r') :
      Like (.delivered r) (.delivered r')
  | changes {items items' : List Change} (same : List.Forall₂ (Change.Like P) items items')
      (isOpen : Bool) : Like (.changes items isOpen) (.changes items' isOpen)
  | absent : Like .absent .absent

structure Snapshot.Like (s s' : Snapshot) : Prop where
  machine : s.machine = s'.machine
  state : s.state = s'.state
  aliases : P.Aliases s.aliases s'.aliases
  status : s.status = s'.status
  terminal : s.terminal = s'.terminal
  accumulator : s.accumulator = s'.accumulator
  transitions : s.transitions = s'.transitions

structure MachineView.Like (v v' : MachineView) : Prop where
  label : v.label = v'.label
  snapshot : v.snapshot.Like P v'.snapshot
  history : v.history = v'.history
  subscriptions : v.subscriptions = v'.subscriptions
  scopes : v.scopes = v'.scopes

structure View.Like (v v' : View) : Prop where
  cancelled : v.cancelled = v'.cancelled
  machine? (m : MachineId) : Option.Rel (MachineView.Like P) (v.machine? m) (v'.machine? m)
  source : v.source = v'.source
  manager : v.manager = v'.manager

end Told

/-- Two records correspond. A warning names the targets of an event as they are referred to, so that
the names in it may be others. -/
inductive Record.Like : Record → Record → Prop where
  | collectFailed {e e' : DefinitionError} (errors : e.Like e') :
      Like (.collectFailed e) (.collectFailed e')
  | restoring (state previous : String) {e e' : DefinitionError} (errors : e.Like e') :
      Like (.restoring state previous e) (.restoring state previous e')
  | queuedFailed (kind : String) {e e' : MachineError} (errors : e.Like e') :
      Like (.queuedFailed kind e) (.queuedFailed kind e')
  | listenerFailed (topic : String) {f f' : Fault} (faults : f.Like f') :
      Like (.listenerFailed topic f) (.listenerFailed topic f')
  | restoreFailed (previous : String) {e e' : DefinitionError} (errors : e.Like e') :
      Like (.restoreFailed previous e) (.restoreFailed previous e')
  | ambiguous (state type : String) {names names' : List String}
      (many : names.length = names'.length) :
      Like (.ambiguous (.ambiguousTransition state type names))
        (.ambiguous (.ambiguousTransition state type names'))
  | same (r : Record) : Like r r

/-! ## Host code -/

section Code

/-- A call hands over no code and refers to no definition. -/
def Call.IsPlain {S : Type} : Call S → Prop
  | .onCancel .. | .listen .. | .observe .. | .collect .. | .enter .. | .start .. => False
  | _ => True

variable (P : Pairing H)

/-- Two calls ask for the same; `R` says when callbacks correspond. -/
inductive Call.Like {S : Type} (R : S → S → Prop) : Call S → Call S → Prop where
  | plain {c : Call S} (plain : c.IsPlain) : Like R c c
  | onCancel (token : ScopeId) {s s' : S} (teardowns : R s s') :
      Like R (.onCancel token s) (.onCancel token s')
  | listen (slot : Nat) (kind : String) {f f' : Event → S} (handlers : ∀ e, R (f e) (f' e))
      (token : ScopeId) : Like R (.listen slot kind f token) (.listen slot kind f' token)
  | observe (m : MachineId) {f f' : Change → S}
      (observers : ∀ s s', s.Like P s' → R (f s) (f' s')) (token : ScopeId) :
      Like R (.observe m f token) (.observe m f' token)
  | collect {d d' : Definition} (definitions : P.Refers d d') (limit : Nat) :
      Like R (.collect d limit) (.collect d' limit)
  | enter {d d' : Definition} (definitions : P.Refers d d') (limit : Nat) (token : ScopeId) :
      Like R (.enter d limit token) (.enter d' limit token)
  | start {d d' : Definition} (definitions : P.Refers d d') (settings : Settings)
      (signal : Option ScopeId) : Like R (.start d settings signal) (.start d' settings signal)

/-- Two pieces of host code do the same with what corresponds: the aliases of states and the chains
of cycles make no difference. -/
inductive Script.Like : Script H → Script H → Prop where
  | done {r r' : Except Fault Unit} (ends : Concurs Fault.Like r r') : Like (.done r) (.done r')
  | panic (message : String) : Like (.panic message) (.panic message)
  | update {f f' : H → H} {next next' : Script H}
      (hosts : ∀ h h', P.host h h' → P.host (f h) (f' h')) (rest : Script.Like next next') :
      Like (.update f next) (.update f' next')
  | look {k k' : H → View → Script H}
      (rest : ∀ h h' v v', P.host h h' → v.Like P v' → Script.Like (k h v) (k' h' v')) :
      Like (.look k) (.look k')
  | call {s s' : Call (Script H)} {k k' : Answer → Script H}
      (calls : s.Like P (fun t t' => Script.Like t t') s')
      (rest : ∀ a a', a.Like P a' → Script.Like (k a) (k' a')) : Like (.call s k) (.call s' k')

/-- Two entry actions correspond. -/
def Entry.Like (a a' : Entry H) : Prop := ∀ token, (a token).Like P (a' token)

/-- Two handlers correspond. -/
def Handler.Like (f f' : Handler H) : Prop := ∀ e, (f e).Like P (f' e)

end Code

/-! ## What a world holds -/

section Held

variable (P : Pairing H)

structure Route.Like (r r' : Route) : Prop where
  source : r.source = r'.source
  type : r.type = r'.type
  targets : List.Forall₂ P.Refers r.targets r'.targets

/-- Two tables have the same routes, with targets that correspond. -/
def RouteTable.Like (t t' : RouteTable) : Prop := List.Forall₂ (Route.Like P) t.routes t'.routes

structure Activation.Like (a a' : Activation H) : Prop where
  collected : a.collected.Like P (Entry.Like P) a'.collected
  routes : a.routes.Like P a'.routes
  scope : a.scope = a'.scope

inductive Teardown.Like : Teardown H → Teardown H → Prop where
  | unlisten (slot number : Nat) : Like (.unlisten slot number) (.unlisten slot number)
  | disarm (slot number : Nat) : Like (.disarm slot number) (.disarm slot number)
  | unobserve (m : MachineId) (number : Nat) : Like (.unobserve m number) (.unobserve m number)
  | stop (m : MachineId) : Like (.stop m) (.stop m)
  | run {s s' : Script H} (scripts : s.Like P s') : Like (.run s) (.run s')

structure ScopeCell.Like (x x' : ScopeCell H) : Prop where
  released : x.released = x'.released
  teardowns : List.Forall₂ (Teardown.Like P) x.teardowns x'.teardowns
  owner : x.owner = x'.owner
  manager : x.manager = x'.manager

inductive Listener.Like : Listener H → Listener H → Prop where
  | route (m : MachineId) (source : SourceId) : Like (.route m source) (.route m source)
  | handler {f f' : Handler H} (handlers : Handler.Like P f f') : Like (.handler f) (.handler f')

inductive Observer.Like : Observer H → Observer H → Prop where
  | script {f f' : Change → Script H}
      (scripts : ∀ s s', s.Like P s' → (f s).Like P (f' s')) : Like (.script f) (.script f')
  | stream (id : StreamId) : Like (.stream id) (.stream id)

structure Registration.Like {L : Type} (R : L → L → Prop) (r r' : Registration L) : Prop where
  number : r.number = r'.number
  topic : r.topic = r'.topic
  token : r.token = r'.token
  listener : R r.listener r'.listener

structure Registry.Like {L : Type} (R : L → L → Prop) (r r' : Registry L) : Prop where
  nextNumber : r.nextNumber = r'.nextNumber
  entries : List.Forall₂ (Registration.Like R) r.entries r'.entries

inductive SourceKind.Like : SourceKind H → SourceKind H → Prop where
  | emitter : Like .emitter .emitter
  | timer (clock : Clock) : Like (.timer clock) (.timer clock)
  | hosted {f f' : Handler H → String → ScopeId → Script H}
      (subscribe : ∀ g g', Handler.Like P g g' → ∀ kind token,
        (f g kind token).Like P (f' g' kind token)) : Like (.hosted f) (.hosted f')

structure SourceCell.Like (s s' : SourceCell H) : Prop where
  id : s.id = s'.id
  label : s.label = s'.label
  kind : s.kind.Like P s'.kind
  registry : s.registry.Like (Listener.Like P) s'.registry

structure MachineCell.Like (m m' : MachineCell H) : Prop where
  uuid : m.uuid = m'.uuid
  settings : m.settings = m'.settings
  manager : m.manager = m'.manager
  status : m.status = m'.status
  state : m.state = m'.state
  aliases : P.Aliases m.aliases m'.aliases
  terminal : m.terminal = m'.terminal
  accumulator : m.accumulator = m'.accumulator
  current : Option.Rel (Activation.Like P) m.current m'.current
  history : m.history = m'.history
  sequence : m.sequence = m'.sequence
  inbox : m.inbox = m'.inbox
  observers : m.observers.Like (Observer.Like P) m'.observers
  handles : m.handles = m'.handles
  pins : m.pins = m'.pins

structure World.Like (w w' : World H) : Prop where
  scopes : List.Forall₂ (ScopeCell.Like P) w.scopes.toList w'.scopes.toList
  managers : w.managers = w'.managers
  sources : List.Forall₂ (SourceCell.Like P) w.sources.toList w'.sources.toList
  machines : List.Forall₂ (MachineCell.Like P) w.machines.toList w'.machines.toList
  streams : List.Forall₂ (List.Forall₂ (Change.Like P)) w.streams.toList w'.streams.toList
  wallClock : w.wallClock = w'.wallClock
  readings : w.readings = w'.readings

end Held

/-! ## Lists and arrays that correspond item by item -/

section Lists

variable {α β γ δ : Type} {R : α → β → Prop}

theorem exists_of_rel {o : Option α} {o' : Option β} (same : Option.Rel R o o') :
    (o = none ∧ o' = none) ∨ ∃ a b, o = some a ∧ o' = some b ∧ R a b := by
  cases same with
  | none => exact .inl ⟨rfl, rfl⟩
  | some h => exact .inr ⟨_, _, rfl, rfl, h⟩

theorem rel_getElem? {xs : Array α} {ys : Array β}
    (same : List.Forall₂ R xs.toList ys.toList) (i : Nat) : Option.Rel R xs[i]? ys[i]? := by
  rw [← Array.getElem?_toList, ← Array.getElem?_toList]
  generalize xs.toList = l, ys.toList = l' at same
  induction same generalizing i with
  | nil => exact .none
  | cons head tail ih =>
    cases i with
    | zero => exact .some head
    | succ i => simpa only [List.getElem?_cons_succ] using ih i

theorem forall₂_modify {xs : Array α} {ys : Array β} (same : List.Forall₂ R xs.toList ys.toList)
    {f : α → α} {g : β → β} (keeps : ∀ a b, R a b → R (f a) (g b)) (i : Nat) :
    List.Forall₂ R (xs.modify i f).toList (ys.modify i g).toList := by
  rw [Array.toList_modify, Array.toList_modify]
  generalize xs.toList = l, ys.toList = l' at same
  induction same generalizing i with
  | nil => simp
  | cons head tail ih =>
    cases i with
    | zero => exact .cons (keeps _ _ head) tail
    | succ i => exact .cons head (ih i)

theorem forall₂_push {xs : Array α} {ys : Array β} (same : List.Forall₂ R xs.toList ys.toList)
    {a : α} {b : β} (last : R a b) : List.Forall₂ R (xs.push a).toList (ys.push b).toList := by
  rw [Array.toList_push, Array.toList_push]
  exact List.rel_append same (.cons last .nil)

theorem size_eq_of_forall₂ {xs : Array α} {ys : Array β}
    (same : List.Forall₂ R xs.toList ys.toList) : xs.size = ys.size := by
  rw [← Array.length_toList, ← Array.length_toList, same.length_eq]

theorem any_eq_of_forall₂ {l : List α} {l' : List β} (same : List.Forall₂ R l l') {f : α → Bool}
    {g : β → Bool} (agree : ∀ a b, R a b → f a = g b) : l.any f = l'.any g := by
  induction same with
  | nil => rfl
  | cons head tail ih => rw [List.any_cons, List.any_cons, agree _ _ head, ih]

theorem map_eq_of_forall₂ {l : List α} {l' : List β} (same : List.Forall₂ R l l') {f : α → γ}
    {g : β → γ} (agree : ∀ a b, R a b → f a = g b) : l.map f = l'.map g := by
  induction same with
  | nil => rfl
  | cons head tail ih => rw [List.map_cons, List.map_cons, agree _ _ head, ih]

/-- What a filter picks from lists that correspond is the same if it is the same of each item. -/
theorem filterMap_eq_of_forall₂ {l : List α} {l' : List β} (same : List.Forall₂ R l l')
    {f : α → Option γ} {g : β → Option γ} (agree : ∀ a b, R a b → f a = g b) :
    l.filterMap f = l'.filterMap g := by
  induction same with
  | nil => rfl
  | cons head tail ih => rw [List.filterMap_cons, List.filterMap_cons, agree _ _ head, ih]

end Lists

variable {P : Pairing H}

/-! ## Registries -/

namespace Registry.Like

variable {L : Type} {R : L → L → Prop} {r r' : Registry L}

theorem add (same : r.Like R r') (topic : String) (token : ScopeId) {l l' : L}
    (listeners : R l l') : (r.add topic token l).Like R (r'.add topic token l') where
  nextNumber := congrArg (· + 1) same.nextNumber
  entries := List.rel_append same.entries
    (.cons ⟨same.nextNumber, rfl, rfl, listeners⟩ .nil)

theorem remove (same : r.Like R r') (number : Nat) :
    (r.remove number).Like R (r'.remove number) where
  nextNumber := same.nextNumber
  entries := List.rel_filter (fun a b h => by simp only [h.number]) same.entries

theorem clear (same : r.Like R r') : r.clear.Like R r'.clear where
  nextNumber := same.nextNumber
  entries := .nil

theorem matching (same : r.Like R r') (topic : String) :
    List.Forall₂ (Registration.Like R) (r.matching topic) (r'.matching topic) :=
  List.rel_filter (fun a b h => by simp only [h.topic]) same.entries

theorem topics (same : r.Like R r') : r.topics = r'.topics :=
  map_eq_of_forall₂ same.entries fun _ _ h => h.topic

end Registry.Like

/-! ## Sources -/

namespace SourceCell.Like

variable {s s' : SourceCell H}

theorem clock (same : s.Like P s') : s.clock = s'.clock := by
  have kinds := same.kind
  unfold SourceCell.clock
  generalize s.kind = k, s'.kind = k' at kinds
  cases kinds <;> rfl

theorem modifyClock (same : s.Like P s') (f : Clock → Clock) :
    (s.modifyClock f).Like P (s'.modifyClock f) := by
  obtain ⟨id, label, kinds, registry⟩ := same
  obtain ⟨_, _, k, _⟩ := s
  obtain ⟨_, _, k', _⟩ := s'
  cases kinds with
  | emitter => exact ⟨id, label, .emitter, registry⟩
  | timer clock => exact ⟨id, label, .timer (f clock), registry⟩
  | hosted subscribe => exact ⟨id, label, .hosted subscribe, registry⟩

theorem view (same : s.Like P s') : s.view = s'.view := by
  unfold SourceCell.view
  rw [same.clock, same.registry.topics]

end SourceCell.Like

/-! ## Machines -/

namespace MachineCell.Like

variable {m m' : MachineCell H} {a a' : Activation H}

theorem isAlive (same : m.Like P m') : m.isAlive = m'.isAlive := by
  unfold MachineCell.isAlive
  rw [same.handles, same.pins]

theorem snapshot (same : m.Like P m') : m.snapshot.Like P m'.snapshot where
  machine := same.uuid
  state := same.state
  aliases := same.aliases
  status := same.status
  terminal := same.terminal
  accumulator := same.accumulator
  transitions := same.sequence

end MachineCell.Like

/-! ## Directives and routes -/

namespace Collected.Like

variable {E F : Type} {R : E → F → Prop} {x : Collected E} {x' : Collected F}

theorem actions (same : x.Like P R x') : List.Forall₂ R x.actions x'.actions := by
  refine List.rel_filterMap ?_ same.directives
  intro d d' h
  cases h with
  | entry actions => exact .some actions
  | _ => exact .none

theorem isTerminal (same : x.Like P R x') : x.isTerminal = x'.isTerminal :=
  any_eq_of_forall₂ same.directives fun _ _ h => by cases h <;> rfl

theorem accumulator (same : x.Like P R x') : x.accumulator = x'.accumulator :=
  congrArg List.getLast? (filterMap_eq_of_forall₂ same.directives fun _ _ h => by cases h <;> rfl)

theorem map (same : x.Like P R x') :
    (x.map fun _ => ()).Like P (fun _ _ => True) (x'.map fun _ => ()) where
  name := same.name
  aliases := same.aliases
  directives := by
    refine List.rel_map ?_ same.directives
    intro d d' h
    cases h with
    | entry => exact .entry trivial
    | listenTo source types => exact .listenTo source types
    | moveTo type targets => exact .moveTo type targets
    | accumulate value => exact .accumulate value
    | exit => exact .exit

end Collected.Like

namespace RouteTable

variable {E F : Type} {R : E → F → Prop}

theorem any_isFor {rs rs' : List Route} (same : List.Forall₂ (Route.Like P) rs rs')
    (source : SourceId) (type : String) :
    rs.any (Route.isFor source type) = rs'.any (Route.isFor source type) :=
  any_eq_of_forall₂ same fun r r' h => by rw [Route.isFor, Route.isFor, h.source, h.type]

/-- A type on a source leads to targets that correspond. -/
theorem add_like {moves moves' : List (String × Definition)}
    (same : List.Forall₂ (fun m m' => m.1 = m'.1 ∧ P.Refers m.2 m'.2) moves moves')
    (source : Source) {rs rs' : List Route} (routes : List.Forall₂ (Route.Like P) rs rs')
    (type : String) :
    List.Forall₂ (Route.Like P) (add moves source rs type) (add moves' source rs' type) := by
  unfold add
  rw [any_isFor routes]
  split
  · exact routes
  · refine List.rel_append routes (.cons ⟨rfl, rfl, ?_⟩ .nil)
    refine List.rel_map (fun m m' h => h.2) (List.rel_filter (fun m m' h => ?_) same)
    simp only [h.1]

theorem build_like {ds : List (Directive E)} {ds' : List (Directive F)}
    (same : List.Forall₂ (Directive.Like P R) ds ds') : (build ds).Like P (build ds') := by
  have moves : List.Forall₂ (fun m m' => m.1 = m'.1 ∧ P.Refers m.2 m'.2)
      (ds.filterMap Directive.move?) (ds'.filterMap Directive.move?) := by
    refine List.rel_filterMap ?_ same
    intro d d' h
    cases h with
    | moveTo type targets => exact .some ⟨rfl, targets⟩
    | _ => exact .none
  have listened : ds.filterMap Directive.listened? = ds'.filterMap Directive.listened? :=
    filterMap_eq_of_forall₂ same fun _ _ h => by cases h <;> rfl
  unfold build RouteTable.Like
  dsimp only
  rw [listened]
  refine List.rel_foldl (R := Eq) (P := List.Forall₂ (Route.Like P)) ?_ .nil
    (List.forall₂_eq_eq_eq ▸ rfl)
  rintro rs rs' routes l _ rfl
  refine List.rel_foldl (R := Eq) (P := List.Forall₂ (Route.Like P)) ?_ routes
    (List.forall₂_eq_eq_eq ▸ rfl)
  rintro rs rs' routes type _ rfl
  exact add_like moves l.1 routes type

end RouteTable

/-- Two resolutions of an event correspond: it leads nowhere, or to targets that do. -/
inductive Resolution.Like (P : Pairing H) : Resolution → Resolution → Prop where
  | unmatched : Like P .unmatched .unmatched
  | matched {d d' : Definition} (targets : P.Refers d d') : Like P (.matched d) (.matched d')
  | ambiguous {d d' : Definition} (targets : P.Refers d d') {names names' : List String}
      (many : names.length = names'.length) : Like P (.ambiguous d names) (.ambiguous d' names')

theorem RouteTable.Like.resolve {t t' : RouteTable} (same : t.Like P t') (source : SourceId)
    (type : String) : (t.resolve source type).Like P (t'.resolve source type) := by
  have found : Option.Rel (Route.Like P) (t.routes.find? (Route.isFor source type))
      (t'.routes.find? (Route.isFor source type)) := by
    obtain ⟨rs⟩ := t
    obtain ⟨rs'⟩ := t'
    have same : List.Forall₂ (Route.Like P) rs rs' := same
    dsimp only
    induction same with
    | nil => exact .none
    | @cons r r' rs rs' head tail ih =>
      have agree : r.isFor source type = r'.isFor source type := by
        rw [Route.isFor, Route.isFor, head.source, head.type]
      rw [List.find?_cons, List.find?_cons, agree]
      split
      · exact .some head
      · exact ih tail
  unfold RouteTable.resolve
  obtain ⟨h, h'⟩ | ⟨r, r', h, h', routes⟩ := exists_of_rel found
  · rw [h, h']
    exact .unmatched
  · rw [h, h']
    have targets := routes.targets
    dsimp only
    generalize r.targets = ds, r'.targets = ds' at targets
    cases targets with
    | nil => exact .unmatched
    | cons head tail =>
      cases tail with
      | nil => exact .matched head
      | cons second rest =>
        refine .ambiguous head ?_
        simp [rest.length_eq]

/-! ## Reading worlds -/

namespace World.Like

variable {w w' : World H} {m : MachineId} {s : ScopeId}

theorem machine? (same : w.Like P w') (m : MachineId) :
    Option.Rel (MachineCell.Like P) (w.machine? m) (w'.machine? m) :=
  rel_getElem? same.machines m.index

theorem source? (same : w.Like P w') (slot : Nat) :
    Option.Rel (SourceCell.Like P) (w.source? slot) (w'.source? slot) :=
  rel_getElem? same.sources slot

theorem scope? (same : w.Like P w') (s : ScopeId) :
    Option.Rel (ScopeCell.Like P) w.scopes[s.index]? w'.scopes[s.index]? :=
  rel_getElem? same.scopes s.index

theorem isCancelled (same : w.Like P w') (s : ScopeId) : w.isCancelled s = w'.isCancelled s := by
  unfold World.isCancelled
  obtain ⟨h, h'⟩ | ⟨x, x', h, h', cells⟩ := exists_of_rel (same.scope? s)
  · rw [h, h']
  · rw [h, h']
    exact cells.released

theorem isExternal (same : w.Like P w') (s : ScopeId) : w.isExternal s = w'.isExternal s := by
  unfold World.isExternal
  obtain ⟨h, h'⟩ | ⟨x, x', h, h', cells⟩ := exists_of_rel (same.scope? s)
  · rw [h, h']
  · rw [h, h']
    exact congrArg Option.isNone cells.owner

theorem teardowns (same : w.Like P w') (s : ScopeId) :
    List.Forall₂ (Teardown.Like P) (w.teardowns s) (w'.teardowns s) := by
  unfold World.teardowns
  obtain ⟨h, h'⟩ | ⟨x, x', h, h', cells⟩ := exists_of_rel (same.scope? s)
  · rw [h, h']
    exact .nil
  · rw [h, h']
    exact cells.teardowns

theorem isAlive (same : w.Like P w') (m : MachineId) : w.isAlive m = w'.isAlive m := by
  unfold World.isAlive
  obtain ⟨h, h'⟩ | ⟨x, x', h, h', cells⟩ := exists_of_rel (same.machine? m)
  · rw [h, h']
  · rw [h, h']
    exact cells.isAlive

theorem isHeld (same : w.Like P w') (m : MachineId) : w.isHeld m = w'.isHeld m := by
  unfold World.isHeld
  obtain ⟨h, h'⟩ | ⟨x, x', h, h', cells⟩ := exists_of_rel (same.machine? m)
  · rw [h, h']
  · rw [h, h', Option.map_some, Option.map_some, cells.handles]

theorem current? (same : w.Like P w') (m : MachineId) :
    Option.Rel (Activation.Like P) (w.current? m) (w'.current? m) := by
  unfold World.current?
  obtain ⟨h, h'⟩ | ⟨x, x', h, h', cells⟩ := exists_of_rel (same.machine? m)
  · rw [h, h']
    exact .none
  · rw [h, h']
    exact cells.current

theorem tally (same : w.Like P w') (i : ManagerId) : w.tally i = w'.tally i := by
  rw [World.tally, World.tally, same.managers]

theorem subscriptions (same : w.Like P w') {x x' : MachineCell H} (cells : x.Like P x') :
    w.subscriptions x = w'.subscriptions x' := by
  unfold World.subscriptions
  obtain ⟨h, h'⟩ | ⟨a, a', h, h', activations⟩ := exists_of_rel cells.current
  · rw [h, h']
  · rw [h, h']
    dsimp only
    rw [same.isCancelled a.scope, activations.scope, RouteTable.size, RouteTable.size,
      List.Forall₂.length_eq activations.routes]

theorem view (same : w.Like P w') : w.view.Like P w'.view where
  cancelled := funext same.isCancelled
  machine? m := by
    dsimp only [World.view, World.machineView?]
    obtain ⟨h, h'⟩ | ⟨x, x', h, h', cells⟩ := exists_of_rel (same.machine? m)
    · rw [h, h']
      exact .none
    · rw [h, h']
      dsimp only [Option.bind_eq_bind, Option.bind_some]
      rw [cells.handles]
      split
      · exact .none
      · refine .some ⟨?_, cells.snapshot, cells.history, same.subscriptions cells, ?_⟩
        · exact congrArg Settings.label cells.settings
        · dsimp only
          rw [cells.manager, same.tally]
  source := by
    funext slot
    dsimp only [World.view]
    obtain ⟨h, h'⟩ | ⟨x, x', h, h', cells⟩ := exists_of_rel (same.source? slot)
    · rw [h, h']
    · rw [h, h', Option.map_some, Option.map_some, cells.view]
  manager := funext same.tally

/-! ## Editing worlds -/

theorem modifyMachine (same : w.Like P w') {f f' : MachineCell H → MachineCell H}
    (keeps : ∀ x x', x.Like P x' → (f x).Like P (f' x')) :
    (w.modifyMachine m f).Like P (w'.modifyMachine m f') :=
  { same with machines := forall₂_modify same.machines keeps m.index }

theorem modifySource (same : w.Like P w') {slot : Nat} {f f' : SourceCell H → SourceCell H}
    (keeps : ∀ x x', x.Like P x' → (f x).Like P (f' x')) :
    (w.modifySource slot f).Like P (w'.modifySource slot f') :=
  { same with sources := forall₂_modify same.sources keeps slot }

theorem modifyScope (same : w.Like P w') {f f' : ScopeCell H → ScopeCell H}
    (keeps : ∀ x x', x.Like P x' → (f x).Like P (f' x')) :
    (w.modifyScope s f).Like P (w'.modifyScope s f') :=
  { same with scopes := forall₂_modify same.scopes keeps s.index }

theorem modifyManager (same : w.Like P w') {i : ManagerId} {f : Tally → Tally} :
    (w.modifyManager i f).Like P (w'.modifyManager i f) :=
  { same with managers := by rw [World.modifyManager, World.modifyManager, same.managers] }

theorem addManager (same : w.Like P w') :
    w.addManager.1 = w'.addManager.1 ∧ w.addManager.2.Like P w'.addManager.2 := by
  refine ⟨?_, { same with managers := ?_ }⟩
  · rw [World.addManager, World.addManager, same.managers]
  · rw [World.addManager, World.addManager, same.managers]

theorem addScope (same : w.Like P w') (owner : Option MachineId) (manager : Option ManagerId) :
    (w.addScope owner manager).1 = (w'.addScope owner manager).1 ∧
      (w.addScope owner manager).2.Like P (w'.addScope owner manager).2 := by
  have push {w w' : World H} (same : w.Like P w') :
      ScopeId.mk w.scopes.size = ⟨w'.scopes.size⟩ ∧
        World.Like P { w with scopes := w.scopes.push { owner, manager } }
          { w' with scopes := w'.scopes.push { owner, manager } } := by
    refine ⟨?_, { same with scopes := forall₂_push same.scopes ⟨rfl, .nil, rfl, rfl⟩ }⟩
    rw [size_eq_of_forall₂ same.scopes]
  cases manager with
  | none => exact push same
  | some i => exact push same.modifyManager

theorem addTeardown (same : w.Like P w') {t t' : Teardown H} (teardowns : t.Like P t') :
    (w.addTeardown s t).Like P (w'.addTeardown s t') :=
  same.modifyScope fun _ _ cells =>
    { cells with teardowns := List.rel_append cells.teardowns (.cons teardowns .nil) }

theorem cancel (same : w.Like P w') : (w.cancel s).Like P (w'.cancel s) :=
  same.modifyScope fun _ _ cells => { cells with released := rfl, teardowns := .nil }

theorem countRelease (same : w.Like P w') : (w.countRelease s).Like P (w'.countRelease s) := by
  unfold World.countRelease
  obtain ⟨h, h'⟩ | ⟨x, x', h, h', cells⟩ := exists_of_rel (same.scope? s)
  · rw [h, h']
    exact same
  · rw [h, h', Option.bind_some, Option.bind_some, cells.manager]
    split
    · exact same.modifyManager
    · exact same

theorem register (same : w.Like P w') {slot : Nat} {topic : String} {token : ScopeId}
    {l l' : Listener H} (listeners : l.Like P l') :
    (w.register slot topic token l).Like P (w'.register slot topic token l') := by
  unfold World.register
  obtain ⟨h, h'⟩ | ⟨x, x', h, h', cells⟩ := exists_of_rel (same.source? slot)
  · rw [h, h']
    exact same
  · rw [h, h']
    dsimp only
    rw [same.isCancelled, cells.registry.nextNumber]
    split
    · exact same
    · refine addTeardown (same.modifySource ?_) (.unlisten slot _)
      exact fun _ _ cells =>
        { cells with registry := cells.registry.add topic token listeners }

theorem arm (same : w.Like P w') {slot : Nat} {kind : String} {after : Span} {token : ScopeId} :
    (w.arm slot kind after token).Like P (w'.arm slot kind after token) := by
  unfold World.arm
  obtain ⟨h, h'⟩ | ⟨x, x', h, h', cells⟩ := exists_of_rel (same.source? slot)
  · rw [h, h']
    exact same
  · rw [h, h']
    dsimp only
    rw [same.isCancelled, cells.clock]
    split
    · exact same
    · exact (same.modifySource fun _ _ cells => cells.modifyClock _).addTeardown (.disarm slot _)

theorem addObserver (same : w.Like P w') {token : ScopeId} {o o' : Observer H}
    (observers : o.Like P o') : (w.addObserver m token o).Like P (w'.addObserver m token o') := by
  unfold World.addObserver
  obtain ⟨h, h'⟩ | ⟨x, x', h, h', cells⟩ := exists_of_rel (same.machine? m)
  · rw [h, h']
    exact same
  · rw [h, h']
    dsimp only
    rw [same.isCancelled, cells.observers.nextNumber]
    split
    · exact same
    · refine addTeardown (same.modifyMachine ?_) (.unobserve m _)
      exact fun _ _ cells =>
        { cells with observers := cells.observers.add Change.topic token observers }

end World.Like

end ScopedMachine

import ScopedMachine.Proofs.Aliases
import ScopedMachine.Proofs.Origins

/-!
# Two programs in lockstep

Configurations of two programs correspond if their worlds, hosts, controls and stacks do.
`Pairing.IsLawful.step` says that either both go on by a step or neither does, and that they then
correspond again, as long as the collections of the right program have room. One lemma for each
operation, in the order of the engine.
-/

namespace ScopedMachine

variable {H : Type}

/-! ## Configurations that correspond -/

section Relations

variable (P : Pairing H)

inductive Stage.Like : Stage H → Stage H → Prop where
  | initial : Like .initial .initial
  | commit (event : String) {x x' : Collected (Entry H)}
      (previous : x.Like P (Entry.Like P) x') : Like (.commit event x) (.commit event x')
  | restore (state : String) {e e' : DefinitionError} (causes : e.Like e') :
      Like (.restore state e) (.restore state e')

inductive Outcome.Like : Outcome → Outcome → Prop where
  | gave {a a' : Answer} (answers : a.Like P a') : Like (.gave a) (.gave a')
  | panicked (message : String) : Like (.panicked message) (.panicked message)

/-- Two frames correspond. No collection waits for host code, because bodies run none. -/
inductive Frame.Like : Frame H → Frame H → Prop where
  | await {k k' : Answer → Script H} (rest : ∀ a a', a.Like P a' → (k a).Like P (k' a')) :
      Like (.await k) (.await k')
  | collecting (purpose : Purpose) : Like (.collecting purpose) (.collecting purpose)
  | acting (state : String) (token : ScopeId) {rest rest' : List (Entry H)}
      (actions : List.Forall₂ (Entry.Like P) rest rest') :
      Like (.acting state token rest) (.acting state token rest')
  | activating (m : MachineId) {x x' : Collected (Entry H)} (states : x.Like P (Entry.Like P) x')
      (scope : ScopeId) {stage stage' : Stage H} (stages : stage.Like P stage') :
      Like (.activating m x scope stage) (.activating m x' scope stage')
  | subscribing (m : MachineId) {a a' : Activation H} (activations : a.Like P a')
      {rest rest' : List Route} (routes : List.Forall₂ (Route.Like P) rest rest')
      {stage stage' : Stage H} (stages : stage.Like P stage') :
      Like (.subscribing m a rest stage) (.subscribing m a' rest' stage')
  | abandoning (m : MachineId) (state : String) {e e' : DefinitionError} (errors : e.Like e')
      {stage stage' : Stage H} (stages : stage.Like P stage') :
      Like (.abandoning m state e stage) (.abandoning m state e' stage')
  | leaving (m : MachineId) {x x' y y' : Collected (Entry H)}
      (previous : x.Like P (Entry.Like P) x') (next : y.Like P (Entry.Like P) y')
      (event : String) : Like (.leaving m x y event) (.leaving m x' y' event)
  | publishing (m : MachineId) {s s' : Change} (changes : s.Like P s')
      {rest rest' : List (Registration (Observer H))}
      (observers : List.Forall₂ (Registration.Like (Observer.Like P)) rest rest') :
      Like (.publishing m s rest) (.publishing m s' rest')
  | releasing (scope : ScopeId) {rest rest' : List (Teardown H)}
      (teardowns : List.Forall₂ (Teardown.Like P) rest rest') :
      Like (.releasing scope rest) (.releasing scope rest')
  | dispatching (event : Event) {rest rest' : List (Registration (Listener H))}
      (listeners : List.Forall₂ (Registration.Like (Listener.Like P)) rest rest')
      {r r' : Report} (reports : r.Like r') :
      Like (.dispatching event rest r) (.dispatching event rest' r')
  | forwarding : Like .forwarding .forwarding
  | draining (m : MachineId) (kind : String) {first first' : Option (Except MachineError Delivery)}
      (firsts : Option.Rel (Concur Eq MachineError.Like) first first') :
      Like (.draining m kind first) (.draining m kind first')
  | stopping (m : MachineId) : Like (.stopping m) (.stopping m)
  | holding (m : MachineId) : Like (.holding m) (.holding m)
  | starting (m : MachineId) (signal : Option ScopeId) :
      Like (.starting m signal) (.starting m signal)
  | signalled (m : MachineId) : Like (.signalled m) (.signalled m)
  | dismantling (m : MachineId) : Like (.dismantling m) (.dismantling m)
  | advancing (slot : Nat) (target : Span) {r r' : Report} (reports : r.Like r') :
      Like (.advancing slot target r) (.advancing slot target r')
  | settling {o o' : Outcome} (outcomes : o.Like P o') : Like (.settling o) (.settling o')

inductive Control.Like : Control H → Control H → Prop where
  | run {s s' : Script H} (scripts : s.Like P s') : Like (.run s) (.run s')
  | gather {r r' : Except DefinitionError (Collected (Entry H))}
      (ends : Concur (Collected.Like P (Entry.Like P)) DefinitionError.Like r r') :
      Like (.gather (.done r)) (.gather (.done r'))
  | release (scope : ScopeId) : Like (.release scope) (.release scope)
  | stop (m : MachineId) : Like (.stop m) (.stop m)
  | send (m : MachineId) (source : SourceId) (e : Event) :
      Like (.send m source e) (.send m source e)
  | route (m : MachineId) (source : SourceId) (e : Event) :
      Like (.route m source e) (.route m source e)
  | give {a a' : Answer} (answers : a.Like P a') : Like (.give a) (.give a')
  | panic (message : String) : Like (.panic message) (.panic message)

structure Config.Like (c c' : Config H) : Prop where
  world : c.world.Like P c'.world
  host : P.host c.host c'.host
  control : c.control.Like P c'.control
  stack : List.Forall₂ (Frame.Like P) c.stack c'.stack

end Relations

/-- What is collected next does not hit the limit. -/
def Config.HasRoom (p : Program H) (c : Config H) : Prop :=
  ∀ i, c.collects? = some i → p.HasRoom i.limit i.definition

variable {P : Pairing H} {c c' : Config H}

namespace Config.Like

/-! ## Controls and frames -/

theorem give (like : c.Like P c') {a a' : Answer} (answers : a.Like P a') :
    (c.give a).Like P (c'.give a') := { like with control := .give answers }

theorem run (like : c.Like P c') {s s' : Script H} (scripts : s.Like P s') :
    (c.run s).Like P (c'.run s') := { like with control := .run scripts }

theorem gather (like : c.Like P c') {r r' : Except DefinitionError (Collected (Entry H))}
    (ends : Concur (Collected.Like P (Entry.Like P)) DefinitionError.Like r r') :
    (c.gather (.done r)).Like P (c'.gather (.done r')) := { like with control := .gather ends }

theorem release (like : c.Like P c') (scope : ScopeId) :
    (c.release scope).Like P (c'.release scope) := { like with control := .release scope }

theorem stop (like : c.Like P c') (m : MachineId) : (c.stop m).Like P (c'.stop m) :=
  { like with control := .stop m }

theorem send (like : c.Like P c') (m : MachineId) (source : SourceId) (e : Event) :
    (c.send m source e).Like P (c'.send m source e) := { like with control := .send m source e }

theorem route (like : c.Like P c') (m : MachineId) (source : SourceId) (e : Event) :
    (c.route m source e).Like P (c'.route m source e) := { like with control := .route m source e }

theorem panic (like : c.Like P c') (message : String) :
    (c.panic message).Like P (c'.panic message) := { like with control := .panic message }

theorem push (like : c.Like P c') {f f' : Frame H} (frames : f.Like P f') :
    (c.push f).Like P (c'.push f') := { like with stack := .cons frames like.stack }

theorem mapWorld (like : c.Like P c') {f f' : World H → World H}
    (worlds : (f c.world).Like P (f' c'.world)) : (c.mapWorld f).Like P (c'.mapWorld f') :=
  { like with world := worlds }

theorem withWorld (like : c.Like P c') {w w' : World H} (worlds : w.Like P w') :
    Config.Like P { c with world := w } { c' with world := w' } := { like with world := worlds }

theorem modifyMachine (like : c.Like P c') {m : MachineId} {f f' : MachineCell H → MachineCell H}
    (keeps : ∀ x x', x.Like P x' → (f x).Like P (f' x')) :
    (c.mapWorld (World.modifyMachine m f)).Like P (c'.mapWorld (World.modifyMachine m f')) :=
  like.mapWorld (like.world.modifyMachine keeps)

theorem record (like : c.Like P c') (lawful : P.IsLawful) {r r' : Record} (records : r.Like r') :
    (c.record P.left r).Like P (c'.record P.right r') :=
  { like with host := lawful.subscriber records like.host }

theorem settle (like : c.Like P c') {o o' : Outcome} (outcomes : o.Like P o') :
    (c.settle o).Like P (c'.settle o') := by
  cases outcomes with
  | gave answers => exact like.give answers
  | panicked message => exact like.panic message

theorem giveOk (like : c.Like P c') :
    (c.give (.result (.ok ()))).Like P (c'.give (.result (.ok ()))) :=
  like.give (.result (.ok trivial))

theorem ignore (like : c.Like P c') :
    (c.deliver (.ok .ignored)).Like P (c'.deliver (.ok .ignored)) :=
  like.give (.delivered (.ok rfl))

/-! ## Releasing, stopping, giving handles up -/

variable {m : MachineId}

theorem performRelease (like : c.Like P c') {scope : ScopeId} :
    (c.performRelease scope).Like P (c'.performRelease scope) := by
  unfold Config.performRelease
  rw [like.world.isCancelled]
  split
  · exact like.give .unit
  · exact ((like.mapWorld like.world.cancel).push
      (.releasing scope (like.world.teardowns scope))).give .unit

theorem releaseActivation (like : c.Like P c') {a a' : Option (Activation H)}
    (activations : Option.Rel (Activation.Like P) a a') :
    (c.releaseActivation a).Like P (c'.releaseActivation a') := by
  cases activations with
  | none => exact like.give .unit
  | @some a a' same =>
    unfold Config.releaseActivation
    dsimp only
    rw [same.scope]
    exact like.release a'.scope

theorem performStop (like : c.Like P c') : (c.performStop m).Like P (c'.performStop m) := by
  unfold Config.performStop
  obtain ⟨h, h'⟩ | ⟨x, x', h, h', cells⟩ := exists_of_rel (like.world.machine? m)
  · rw [h, h']
    exact like.give .unit
  · rw [h, h']
    dsimp only
    rw [cells.status]
    split
    · exact like.give .unit
    · refine releaseActivation (push (like.modifyMachine ?_) (.stopping m)) cells.current
      exact fun _ _ cells => { cells with status := rfl, current := .none }

theorem dismantle (like : c.Like P c') {o o' : Outcome} (outcomes : o.Like P o') :
    (c.dismantle m o).Like P (c'.dismantle m o') := by
  refine releaseActivation (push (push (like.modifyMachine ?_) (.settling outcomes))
    (.dismantling m)) (like.world.current? m)
  exact fun _ _ cells => { cells with current := .none }

theorem settleHandle (like : c.Like P c') {o o' : Outcome} (outcomes : o.Like P o') :
    (c.settleHandle m o).Like P (c'.settleHandle m o') := by
  unfold Config.settleHandle
  rw [like.world.isAlive]
  split
  · exact like.settle outcomes
  · exact like.dismantle outcomes

theorem unpin (like : c.Like P c') {o o' : Outcome} (outcomes : o.Like P o') :
    (c.unpin m o).Like P (c'.unpin m o') := by
  refine settleHandle (like.modifyMachine ?_) outcomes
  exact fun _ _ cells => { cells with pins := congrArg (· - 1) cells.pins }

theorem pin (like : c.Like P c') : (c.pin m).Like P (c'.pin m) := by
  refine push (like.modifyMachine ?_) (.holding m)
  exact fun _ _ cells => { cells with pins := congrArg (· + 1) cells.pins }

theorem performTeardown (like : c.Like P c') {t t' : Teardown H} (teardowns : t.Like P t') :
    (c.performTeardown t).Like P (c'.performTeardown t') := by
  cases teardowns with
  | unlisten slot number =>
    refine give (like.mapWorld (like.world.modifySource ?_)) .unit
    exact fun _ _ cells => { cells with registry := cells.registry.remove number }
  | disarm slot number =>
    exact give (like.mapWorld (like.world.modifySource fun _ _ cells => cells.modifyClock _)) .unit
  | unobserve n number =>
    refine give (like.modifyMachine ?_) .unit
    exact fun _ _ cells => { cells with observers := cells.observers.remove number }
  | stop n =>
    unfold Config.performTeardown
    dsimp only
    rw [like.world.isAlive]
    split
    · exact like.pin.stop n
    · exact like.give .unit
  | run scripts => exact like.run scripts

theorem runTeardowns (like : c.Like P c') {scope : ScopeId} {ts ts' : List (Teardown H)}
    (teardowns : List.Forall₂ (Teardown.Like P) ts ts') :
    (c.runTeardowns scope ts).Like P (c'.runTeardowns scope ts') := by
  cases teardowns with
  | nil => exact (like.mapWorld like.world.countRelease).give .unit
  | cons head tail => exact (like.push (.releasing scope tail)).performTeardown head

theorem onCancel (like : c.Like P c') {scope : ScopeId} {t t' : Teardown H}
    (teardowns : t.Like P t') : (c.onCancel scope t).Like P (c'.onCancel scope t') := by
  unfold Config.onCancel
  rw [like.world.isCancelled]
  split
  · exact like.performTeardown teardowns
  · exact (like.mapWorld (like.world.addTeardown teardowns)).give .unit

/-! ## Dispatching -/

/-- Somebody waits for a collection that begins. -/
theorem collecting (like : c.Like P c') (lawful : P.IsLawful) (purpose : Purpose) {limit : Nat}
    {d d' : Definition} (refers : P.Refers d d') (room : P.right.HasRoom limit d') :
    ((c.push (.collecting purpose)).gather (P.left.collect limit d)).Like P
      ((c'.push (.collecting purpose)).gather (P.right.collect limit d')) := by
  obtain ⟨hops, through, rfl⟩ := refers
  obtain ⟨r, r', left, right, ends⟩ := lawful.collect through room
  rw [left, right]
  refine (like.push (.collecting purpose)).gather ?_
  cases ends with
  | ok states => exact .ok states.1
  | error errors => exact .error errors

theorem performRoute (like : c.Like P c') (lawful : P.IsLawful) {source : SourceId} {e : Event}
    (room : ∀ cell d, c'.world.machine? m = some cell → cell.target? source e.kind = some d →
      P.right.HasRoom cell.settings.delegationLimit d) :
    (c.performRoute P.left m source e).Like P (c'.performRoute P.right m source e) := by
  unfold Config.performRoute
  obtain ⟨h, h'⟩ | ⟨x, x', h, h', cells⟩ := exists_of_rel (like.world.machine? m)
  · rw [h, h']
    exact like.ignore
  rw [h, h']
  dsimp only
  rw [cells.status, cells.terminal, cells.state, cells.settings]
  split
  · exact like.ignore
  · next running =>
    obtain ⟨none, none'⟩ | ⟨a, a', some, some', activations⟩ := exists_of_rel cells.current
    · rw [none, none']
      exact like.ignore
    rw [some, some']
    dsimp only
    split
    · exact (like.record lawful (.same _)).ignore
    · next going =>
      have room (d : Definition) (leads : (a'.routes.resolve source e.kind).target? = .some d) :
          P.right.HasRoom x'.settings.delegationLimit d := by
        refine room x' d h' ?_
        unfold MachineCell.target?
        rw [if_pos ⟨not_not.1 running, Bool.eq_false_iff.2 going⟩, some', Option.bind_some, leads]
      have resolves := activations.routes.resolve source e.kind
      generalize a.routes.resolve source e.kind = r, a'.routes.resolve source e.kind = r'
        at resolves room
      cases resolves with
      | unmatched => exact (like.record lawful (.same _)).ignore
      | matched targets => exact like.collecting lawful _ targets (room _ rfl)
      | ambiguous targets many =>
        exact (like.record lawful (.ambiguous _ _ many)).collecting lawful _ targets (room _ rfl)

theorem performSend (like : c.Like P c') (lawful : P.IsLawful) {source : SourceId} {e : Event} :
    (c.performSend P.left m source e).Like P (c'.performSend P.right m source e) := by
  unfold Config.performSend
  obtain ⟨h, h'⟩ | ⟨x, x', h, h', cells⟩ := exists_of_rel (like.world.machine? m)
  · rw [h, h']
    exact like.ignore
  · rw [h, h']
    dsimp only
    rw [cells.inbox]
    split
    · refine give (record (like.modifyMachine ?_) lawful (.same _)) (.delivered (.ok rfl))
      exact fun _ _ cells => { cells with
        inbox := congrArg (fun i => { i with pending := i.pending ++ [(source, e)] }) cells.inbox }
    · refine route (push (like.modifyMachine ?_) (.draining m e.kind .none)) m source e
      exact fun _ _ cells => { cells with
        inbox := congrArg (fun i => { i with draining := true }) cells.inbox }

theorem forward (like : c.Like P c') {source : SourceId} {e : Event} :
    (c.forward m source e).Like P (c'.forward m source e) := by
  unfold Config.forward
  rw [like.world.isAlive]
  split
  · exact (like.push .forwarding).pin.send m source e
  · exact like.giveOk

theorem drain (like : c.Like P c') {first first' : Except MachineError Delivery}
    (firsts : Concur Eq MachineError.Like first first') :
    (c.drain m first).Like P (c'.drain m first') := by
  have waits : (c.world.machine? m).bind (·.inbox.pending.head?) =
      (c'.world.machine? m).bind (·.inbox.pending.head?) := by
    obtain ⟨h, h'⟩ | ⟨x, x', h, h', cells⟩ := exists_of_rel (like.world.machine? m)
    · rw [h, h']
    · rw [h, h', Option.bind_some, Option.bind_some, cells.inbox]
  unfold Config.drain
  rw [waits]
  split
  · refine give (like.modifyMachine ?_) (.delivered firsts)
    exact fun _ _ cells => { cells with
      inbox := congrArg (fun i => { i with draining := false }) cells.inbox }
  · refine route (push (like.modifyMachine ?_) (.draining m _ (.some firsts))) m _ _
    exact fun _ _ cells => { cells with
      inbox := congrArg (fun i => { i with pending := i.pending.tail }) cells.inbox }

theorem invoke (like : c.Like P c') {l l' : Listener H} (listeners : l.Like P l') {e : Event} :
    (c.invoke l e).Like P (c'.invoke l' e) := by
  cases listeners with
  | route n source => exact like.forward
  | handler handlers => exact like.run (handlers e)

theorem dispatchNext (like : c.Like P c') {e : Event} {ls ls' : List (Registration (Listener H))}
    (listeners : List.Forall₂ (Registration.Like (Listener.Like P)) ls ls') {r r' : Report}
    (reports : r.Like r') : (c.dispatchNext e ls r).Like P (c'.dispatchNext e ls' r') := by
  cases listeners with
  | nil => exact like.give (.report reports)
  | cons head tail =>
    unfold Config.dispatchNext
    dsimp only
    rw [like.world.isCancelled, head.token]
    split
    · exact (like.push (.dispatching e tail reports)).giveOk
    · refine (like.push (.dispatching e tail ?_)).invoke head.listener
      exact { reports with delivered := congrArg (· + 1) reports.delivered }

theorem emit (like : c.Like P c') (lawful : P.IsLawful) {slot : Nat} {e : Event} :
    (c.emit P.left slot e).Like P (c'.emit P.right slot e) := by
  unfold Config.emit
  obtain ⟨h, h'⟩ | ⟨x, x', h, h', cells⟩ := exists_of_rel (like.world.source? slot)
  · rw [h, h']
    exact like.give (.report ⟨rfl, .nil⟩)
  · rw [h, h']
    dsimp only
    rw [cells.label]
    refine ((like.record lawful (.same _)).push (.dispatching e ?_ ⟨rfl, .nil⟩)).giveOk
    exact cells.registry.matching e.kind

theorem notify (like : c.Like P c') {o o' : Observer H} (observers : o.Like P o')
    {s s' : Change} (changes : s.Like P s') : (c.notify o s).Like P (c'.notify o' s') := by
  cases observers with
  | script scripts => exact like.run (scripts s s' changes)
  | stream id =>
    refine giveOk (like.mapWorld { like.world with streams := ?_ })
    exact forall₂_modify like.world.streams
      (fun _ _ waits => List.rel_append waits (.cons changes .nil)) id.index

theorem publish (like : c.Like P c') {s s' : Change} (changes : s.Like P s')
    {os os' : List (Registration (Observer H))}
    (observers : List.Forall₂ (Registration.Like (Observer.Like P)) os os') :
    (c.publish m s os).Like P (c'.publish m s' os') :=
  (like.push (.publishing m changes observers)).giveOk

theorem publishNext (like : c.Like P c') {s s' : Change} (changes : s.Like P s')
    {os os' : List (Registration (Observer H))}
    (observers : List.Forall₂ (Registration.Like (Observer.Like P)) os os') :
    (c.publishNext m s os).Like P (c'.publishNext m s' os') := by
  cases observers with
  | nil =>
    unfold Config.publishNext
    dsimp only
    rw [changes.previous, changes.state]
    exact like.give (.delivered (.ok rfl))
  | cons head tail =>
    unfold Config.publishNext
    dsimp only
    rw [like.world.isCancelled, head.token]
    split
    · exact like.publish changes tail
    · exact (like.push (.publishing m changes tail)).notify head.listener changes

theorem advanceNext (like : c.Like P c') (lawful : P.IsLawful) {slot : Nat} {target : Span}
    {r r' : Report} (reports : r.Like r') :
    (c.advanceNext P.left slot target r).Like P (c'.advanceNext P.right slot target r') := by
  unfold Config.advanceNext
  obtain ⟨h, h'⟩ | ⟨x, x', h, h', cells⟩ := exists_of_rel (like.world.source? slot)
  · rw [h, h']
    exact like.give (.report reports)
  · rw [h, h']
    dsimp only
    rw [cells.clock]
    have tick (f : Clock → Clock) :
        (c.mapWorld (World.modifySource slot (SourceCell.modifyClock f))).Like P
          (c'.mapWorld (World.modifySource slot (SourceCell.modifyClock f))) :=
      like.mapWorld (like.world.modifySource fun _ _ cells => cells.modifyClock f)
    split
    · exact (tick _).give (.report reports)
    · next d clock _ =>
      have due := (tick fun _ => clock).push (.advancing slot target reports)
      rw [due.world.isCancelled, cells.label]
      split
      · exact due.give (.report ⟨rfl, .nil⟩)
      · exact (due.record lawful (.same _)).emit lawful

theorem advance (like : c.Like P c') {slot : Nat} {span : Span} :
    (c.advance slot span).Like P (c'.advance slot span) := by
  unfold Config.advance
  obtain ⟨h, h'⟩ | ⟨x, x', h, h', cells⟩ := exists_of_rel (like.world.source? slot)
  · rw [h, h']
    exact like.give (.report ⟨rfl, .nil⟩)
  · rw [h, h']
    dsimp only
    rw [cells.clock]
    exact (like.push (.advancing slot _ ⟨rfl, .nil⟩)).give (.report ⟨rfl, .nil⟩)

/-! ## Transitions -/

theorem act (like : c.Like P c') {state : String} {token : ScopeId} {as as' : List (Entry H)}
    (actions : List.Forall₂ (Entry.Like P) as as') :
    (c.act state token as).Like P (c'.act state token as') :=
  (like.push (.acting state token actions)).giveOk

theorem actNext (like : c.Like P c') {state : String} {token : ScopeId} {as as' : List (Entry H)}
    (actions : List.Forall₂ (Entry.Like P) as as') :
    (c.actNext state token as).Like P (c'.actNext state token as') := by
  cases actions with
  | nil => exact like.give (.entered (.ok trivial))
  | cons head tail => exact (like.push (.acting state token tail)).run (head token)

theorem activate (like : c.Like P c') {x x' : Collected (Entry H)}
    (states : x.Like P (Entry.Like P) x') {stage stage' : Stage H} (stages : stage.Like P stage') :
    (c.activate m x stage).Like P (c'.activate m x' stage') := by
  have managers : (c.world.machine? m).map MachineCell.manager =
      (c'.world.machine? m).map MachineCell.manager := by
    obtain ⟨h, h'⟩ | ⟨x, x', h, h', cells⟩ := exists_of_rel (like.world.machine? m)
    · rw [h, h']
    · rw [h, h', Option.map_some, Option.map_some, cells.manager]
  unfold Config.activate
  rw [managers]
  obtain ⟨scope, worlds⟩ := like.world.addScope m ((c'.world.machine? m).map MachineCell.manager)
  dsimp only
  rw [scope, states.name]
  exact ((like.withWorld worlds).push (.activating m states _ stages)).act states.actions

end Config.Like

/-- An activation is installed in machines that correspond. -/
theorem MachineCell.Like.install {x x' : MachineCell H} (cells : x.Like P x') {a a' : Activation H}
    (activations : a.Like P a') : (x.install a).Like P (x'.install a') :=
  { cells with
    state := activations.collected.name
    aliases := activations.collected.aliases
    terminal := activations.collected.isTerminal
    accumulator := activations.collected.accumulator
    current := .some activations }

theorem MachineCell.Like.commit {x x' : MachineCell H} (cells : x.Like P x') {a a' : Activation H}
    (activations : a.Like P a') (event : String) (time : Moment) :
    (x.commit a event time).Like P (x'.commit a' event time) :=
  { cells.install activations with
    sequence := congrArg (· + 1) cells.sequence
    history := by
      unfold MachineCell.commit
      dsimp only
      rw [cells.settings, cells.history, cells.state, (cells.install activations).state] }

theorem MachineCell.Like.change {x x' : MachineCell H} (cells : x.Like P x')
    (previous event : String) : (x.change previous event).Like P (x'.change previous event) where
  machine := cells.uuid
  sequence := cells.sequence
  previous := rfl
  state := cells.state
  aliases := cells.aliases
  event := rfl
  accumulator := cells.accumulator

namespace Config.Like

variable {m : MachineId}

theorem install (like : c.Like P c') (lawful : P.IsLawful) {a a' : Activation H}
    (activations : a.Like P a') {stage stage' : Stage H} (stages : stage.Like P stage') :
    (c.install P.left m a stage).Like P (c'.install P.right m a' stage') := by
  unfold Config.install
  obtain ⟨h, h'⟩ | ⟨x, x', h, h', cells⟩ := exists_of_rel (like.world.machine? m)
  · rw [h, h']
    exact like.give .absent
  rw [h, h']
  cases stages with
  | initial =>
    dsimp only
    rw [cells.status, cells.settings, activations.collected.name, activations.scope]
    split
    · refine release (push (record (like.modifyMachine ?_) lawful (.same _))
        (.settling (.gave (.entered (.ok trivial))))) _
      exact fun _ _ cells => { cells.install activations with current := .none }
    · refine give (record (like.modifyMachine ?_) lawful (.same _)) (.entered (.ok trivial))
      exact fun _ _ cells => { cells.install activations with status := rfl }
  | commit event previous =>
    dsimp only
    rw [cells.status, activations.scope, like.world.wallClock, like.world.readings, cells.settings,
      cells.state]
    split
    · have next := cells.commit activations event (c'.world.wallClock c'.world.readings)
      have committed := like.world.modifyMachine (m := m)
        fun _ _ cells => MachineCell.Like.commit cells activations event
          (c'.world.wallClock c'.world.readings)
      rw [next.state]
      refine publish (record (like.mapWorld ?_) lawful (.same _)) (next.change x'.state event)
        (cells.observers.matching Change.topic)
      exact { committed with readings := congrArg (· + _) like.world.readings }
    · exact (like.push (.settling (.gave (.delivered (.ok rfl))))).release _
  | restore state causes =>
    dsimp only
    rw [cells.status, activations.scope]
    have answers : Answer.Like P (.delivered (.error (.definition _)))
        (.delivered (.error (.definition _))) := .delivered (.error (.definition causes))
    split
    · refine give (like.modifyMachine ?_) answers
      exact fun _ _ cells => { cells with current := .some activations }
    · exact (like.push (.settling (.gave answers))).release _

theorem subscribe (like : c.Like P c') {a a' : Activation H} (activations : a.Like P a')
    {stage stage' : Stage H} (stages : stage.Like P stage') :
    (c.subscribe m a stage).Like P (c'.subscribe m a' stage') :=
  (like.push (.subscribing m activations activations.routes stages)).giveOk

theorem subscribeNext (like : c.Like P c') (lawful : P.IsLawful) {a a' : Activation H}
    (activations : a.Like P a') {rs rs' : List Route} (routes : List.Forall₂ (Route.Like P) rs rs')
    {stage stage' : Stage H} (stages : stage.Like P stage') :
    (c.subscribeNext P.left m a rs stage).Like P (c'.subscribeNext P.right m a' rs' stage') := by
  cases routes with
  | nil =>
    unfold Config.subscribeNext
    dsimp only
    rw [activations.collected.name, RouteTable.size, RouteTable.size,
      List.Forall₂.length_eq activations.routes]
    exact (like.record lawful (.same _)).install lawful activations stages
  | @cons r r' rs rs' head tail =>
    have pushed := like.push (.subscribing m activations tail stages)
    unfold Config.subscribeNext
    dsimp only
    rw [activations.scope, head.source, head.type]
    obtain ⟨h, h'⟩ | ⟨x, x', h, h', cells⟩ := exists_of_rel (pushed.world.source? r'.source.slot)
    · rw [h, h']
      exact giveOk (pushed.mapWorld (pushed.world.register (.route m r'.source.id)))
    · have kinds := cells.kind
      rw [h, h', Option.map_some, Option.map_some]
      generalize x.kind = k, x'.kind = k' at kinds
      cases kinds with
      | emitter | timer clock =>
        exact giveOk (pushed.mapWorld (pushed.world.register (.route m r'.source.id)))
      | hosted subscribe =>
        refine pushed.run (subscribe _ _ (fun e => ?_) _ _)
        refine .call (.plain (c := .forward m r'.source.id e) trivial) fun a a' answers => ?_
        cases answers with
        | result ends => exact .done ends
        | _ => exact .done (.ok trivial)

theorem fallBack (like : c.Like P c') (lawful : P.IsLawful) {state : String}
    {e e' : DefinitionError} (errors : e.Like e') {stage stage' : Stage H}
    (stages : stage.Like P stage') :
    (c.fallBack P.left m state e stage).Like P (c'.fallBack P.right m state e' stage') := by
  cases stages with
  | initial => exact like.give (.entered (.error errors))
  | commit event previous =>
    unfold Config.fallBack
    dsimp only
    rw [previous.name]
    exact (like.record lawful (.restoring _ _ errors)).activate previous (.restore state errors)
  | restore target causes =>
    refine stop (push (like.record lawful (.restoreFailed _ errors)) (.settling (.gave ?_))) m
    exact .delivered (.error (.restoreFailed _ _ causes errors))

theorem useCollected (like : c.Like P c') (lawful : P.IsLawful) (purpose : Purpose)
    {r r' : Except DefinitionError (Collected (Entry H))}
    (ends : Concur (Collected.Like P (Entry.Like P)) DefinitionError.Like r r') :
    (c.useCollected P.left purpose r).Like P (c'.useCollected P.right purpose r') := by
  cases ends with
  | error errors =>
    cases purpose with
    | view => exact like.give (.collected (.error errors))
    | enter token => exact like.give (.entered (.error errors))
    | initial n => exact like.give (.entered (.error errors))
    | transition n kind =>
      exact (like.record lawful (.collectFailed errors)).give
        (.delivered (.error (.definition errors)))
  | @ok x x' states =>
    have told : (c.record P.left (.collected x.name x.directives.length)).Like P
        (c'.record P.right (.collected x'.name x'.directives.length)) := by
      rw [states.name, states.directives.length_eq]
      exact like.record lawful (.same _)
    unfold Config.useCollected
    dsimp only
    cases purpose with
    | view => exact told.give (.collected (.ok states.map))
    | enter token =>
      dsimp only
      rw [states.name] at told ⊢
      exact told.act states.actions
    | initial n => exact told.activate states .initial
    | transition n kind =>
      dsimp only
      obtain ⟨h, h'⟩ | ⟨y, y', h, h', cells⟩ := exists_of_rel (told.world.machine? n)
      · rw [h, h']
        exact told.ignore
      rw [h, h']
      dsimp only
      rw [cells.status]
      obtain ⟨none, none'⟩ | ⟨a, a', some, some', activations⟩ := exists_of_rel cells.current
      · rw [none, none']
        cases y'.status <;> exact told.ignore
      · rw [some, some']
        cases y'.status with
        | running =>
          dsimp only
          rw [activations.scope]
          refine release (push (told.modifyMachine ?_)
            (.leaving n activations.collected states kind)) _
          exact fun _ _ cells => { cells with current := .none }
        | idle | stopped => exact told.ignore

theorem start (like : c.Like P c') (lawful : P.IsLawful) {d d' : Definition}
    (definitions : P.Refers d d') {settings : Settings} {signal : Option ScopeId}
    (room : settings.validate = .ok () → P.right.HasRoom settings.delegationLimit d') :
    (c.start P.left d settings signal).Like P (c'.start P.right d' settings signal) := by
  unfold Config.start
  split
  · exact like.give (.started (.error (.build _)))
  · next valid =>
    obtain ⟨managers, worlds⟩ := like.world.addManager
    dsimp only
    rw [managers, size_eq_of_forall₂ worlds.machines]
    refine collecting (push (like.withWorld ?_) (.starting _ signal)) lawful _ definitions
      (room valid)
    refine { worlds with machines := forall₂_push worlds.machines ?_ }
    exact ⟨rfl, rfl, rfl, rfl, rfl, .refl _, rfl, rfl, .none, rfl, rfl, rfl, ⟨rfl, .nil⟩, rfl, rfl⟩

theorem handOver (like : c.Like P c') : (c.handOver m).Like P (c'.handOver m) := by
  refine give (like.modifyMachine ?_) (.started (.ok rfl))
  exact fun _ _ cells => { cells with
    handles := congrArg (· + 1) cells.handles
    pins := congrArg (· - 1) cells.pins }

/-! ## Steps -/

theorem isOpen (like : c.Like P c') (s : StreamId) : c.isOpen s = c'.isOpen s := by
  unfold Config.isOpen
  dsimp only
  rw [← Array.any_toList, ← Array.any_toList]
  refine congrArg₂ Bool.or (any_eq_of_forall₂ like.world.machines fun x x' cells => ?_)
    (any_eq_of_forall₂ like.stack fun f f' same => ?_)
  · refine any_eq_of_forall₂ cells.observers.entries fun r r' registrations => ?_
    have observers := registrations.listener
    generalize r.listener = o, r'.listener = o' at observers
    cases observers <;> rfl
  · cases same with
    | publishing m changes rest =>
      refine any_eq_of_forall₂ rest fun r r' registrations => ?_
      have observers := registrations.listener
      generalize r.listener = o, r'.listener = o' at observers
      cases observers <;> rfl
    | _ => rfl

theorem unwind (like : c.Like P c') {f f' : Frame H} (frames : f.Like P f') (message : String) :
    Option.Rel (Config.Like P) (c.unwind f message) (c'.unwind f' message) := by
  cases frames with
  | activating m states scope stages =>
    exact .some ((like.push (.settling (.panicked message))).release scope)
  | @subscribing m a a' activations =>
    unfold Config.unwind
    dsimp only
    rw [activations.scope]
    exact .some ((like.push (.settling (.panicked message))).release a'.scope)
  | draining m kind firsts =>
    refine .some (panic (like.modifyMachine ?_) message)
    exact fun _ _ cells => { cells with inbox := rfl }
  | holding m | starting m signal | signalled m => exact .some (like.unpin (.panicked message))
  | dismantling m =>
    refine .some (panic (like.modifyMachine ?_) message)
    exact fun _ _ cells => { cells with observers := cells.observers.clear }
  | settling outcomes =>
    cases outcomes with
    | gave => exact .some (like.panic message)
    | panicked => exact .none
  | _ => exact .some (like.panic message)

theorem call (like : c.Like P c') (lawful : P.IsLawful) {s s' : Call (Script H)}
    (calls : s.Like P (Script.Like P) s') {k k' : Answer → Script H}
    (control' : c'.control = .run (.call s' k'))
    (rest : ∀ a a', a.Like P a' → (k a).Like P (k' a')) (room : c'.HasRoom P.right) :
    (P.left.call s (c.push (.await k))).Like P (P.right.call s' (c'.push (.await k'))) := by
  have like' := like.push (.await rest)
  cases calls with
  | onCancel token teardowns =>
    exact (like'.push (.settling (.gave .unit))).onCancel (.run teardowns)
  | listen slot kind handlers token =>
    unfold Program.call
    dsimp only
    obtain ⟨h, h'⟩ | ⟨x, x', h, h', cells⟩ := exists_of_rel (like'.world.source? slot)
    · rw [h, h']
      exact (like'.mapWorld (like'.world.register (.handler handlers))).give .unit
    · have kinds := cells.kind
      rw [h, h', Option.map_some, Option.map_some]
      generalize x.kind = k, x'.kind = k' at kinds
      cases kinds with
      | emitter | timer clock =>
        exact (like'.mapWorld (like'.world.register (.handler handlers))).give .unit
      | hosted subscribe =>
        exact (like'.push (.settling (.gave .unit))).run (subscribe _ _ handlers _ _)
  | observe m observers token =>
    unfold Program.call
    dsimp only
    rw [like'.world.isHeld]
    split
    · exact (like'.mapWorld (like'.world.addObserver (.script observers))).give .unit
    · exact like'.give .absent
  | collect definitions limit =>
    refine like'.collecting lawful .view definitions (room ⟨.view, _, _⟩ ?_)
    rw [Config.collects?, control']
  | enter definitions limit token =>
    refine like'.collecting lawful (.enter token) definitions (room ⟨.enter token, _, _⟩ ?_)
    rw [Config.collects?, control']
  | start definitions settings signal =>
    refine like'.start lawful definitions fun valid =>
      room ⟨.initial ⟨c'.world.machines.size⟩, _, _⟩ ?_
    rw [Config.collects?, control']
    dsimp only
    rw [valid]
  | plain plain =>
    cases s with
    | onCancel | listen | observe | collect | enter | start => cases plain
    | newManager =>
      obtain ⟨managers, worlds⟩ := like'.world.addManager
      unfold Program.call
      dsimp only
      rw [managers]
      exact (like'.withWorld worlds).give (.manager _)
    | newScope manager =>
      obtain ⟨scopes, worlds⟩ := like'.world.addScope none manager
      unfold Program.call
      dsimp only
      rw [scopes]
      exact (like'.withWorld worlds).give (.scope _)
    | release scope =>
      unfold Program.call
      dsimp only
      rw [like'.world.isExternal]
      split
      · exact like'.release scope
      · exact like'.give .absent
    | emit slot e => exact like'.emit lawful
    | arm slot kind after token => exact (like'.mapWorld like'.world.arm).give .unit
    | advance slot span => exact like'.advance
    | hold m =>
      unfold Program.call
      dsimp only
      rw [like'.world.isHeld]
      split
      · refine give (like'.modifyMachine ?_) .unit
        exact fun _ _ cells => { cells with handles := congrArg (· + 1) cells.handles }
      · exact like'.give .absent
    | drop m =>
      unfold Program.call
      dsimp only
      rw [like'.world.isHeld]
      split
      · refine settleHandle (like'.modifyMachine ?_) (.gave .unit)
        exact fun _ _ cells => { cells with handles := congrArg (· - 1) cells.handles }
      · exact like'.give .absent
    | send m source e =>
      unfold Program.call
      dsimp only
      rw [like'.world.isHeld]
      split
      · exact like'.pin.send m source e
      · exact like'.give .absent
    | forward m source e => exact like'.forward
    | stop m =>
      unfold Program.call
      dsimp only
      rw [like'.world.isHeld]
      split
      · exact like'.pin.stop m
      · exact like'.give .absent
    | stream m token =>
      unfold Program.call
      dsimp only
      rw [like'.world.isHeld]
      split
      · rw [size_eq_of_forall₂ like'.world.streams]
        refine give (like'.mapWorld ?_) (.stream _)
        refine World.Like.addObserver ?_ (.stream _)
        exact { like'.world with streams := forall₂_push like'.world.streams .nil }
      · exact like'.give .absent
    | read s =>
      unfold Program.call
      dsimp only
      rw [like'.isOpen]
      have taken := forall₂_modify like'.world.streams (fun _ _ _ => .nil) s.index
      refine give (like'.mapWorld { like'.world with streams := taken }) (.changes ?_ _)
      obtain ⟨h, h'⟩ | ⟨xs, xs', h, h', items⟩ :=
        exists_of_rel (rel_getElem? like'.world.streams s.index)
      · rw [h, h']
        exact .nil
      · rw [h, h']
        exact items

theorem resume (like : c.Like P c') (lawful : P.IsLawful) {f f' : Frame H}
    (frames : f.Like P f') {a a' : Answer} (answers : a.Like P a') :
    Option.Rel (Config.Like P) (P.left.resume f a c) (P.right.resume f' a' c') := by
  cases frames with
  | await rest => exact .some (like.run (rest a a' answers))
  | collecting => exact .none
  | acting state token actions =>
    cases answers with
    | result ends =>
      cases ends with
      | ok => exact .some (like.actNext actions)
      | error faults => exact .some (like.give (.entered (.error (.entry state faults))))
    | _ => exact .none
  | @activating m x x' states scope stage stage' stages =>
    cases answers with
    | entered ends =>
      cases ends with
      | ok =>
        have activations : Activation.Like P ⟨x, .build x.directives, scope⟩
            ⟨x', .build x'.directives, scope⟩ :=
          ⟨states, RouteTable.build_like states.directives, rfl⟩
        exact .some (like.subscribe activations stages)
      | error errors =>
        unfold Program.resume
        dsimp only
        rw [states.name]
        exact .some ((like.push (.abandoning m _ errors stages)).release scope)
    | _ => exact .none
  | subscribing m activations routes stages =>
    cases answers with
    | result ends => exact .some (like.subscribeNext lawful activations routes stages)
    | _ => exact .none
  | abandoning m state errors stages =>
    cases answers with
    | unit => exact .some (like.fallBack lawful errors stages)
    | _ => exact .none
  | leaving m previous next event =>
    cases answers with
    | unit =>
      unfold Program.resume
      dsimp only
      rw [previous.name]
      exact .some ((like.record lawful (.same _)).activate next (.commit event previous))
    | _ => exact .none
  | publishing m changes observers =>
    cases answers with
    | result ends =>
      cases ends with
      | ok => exact .some (like.publishNext changes observers)
      | error faults =>
        exact .some ((like.record lawful (.listenerFailed _ faults)).publishNext changes observers)
    | _ => exact .none
  | releasing scope teardowns => exact .some (like.runTeardowns teardowns)
  | dispatching event listeners reports =>
    cases answers with
    | result ends =>
      cases ends with
      | ok => exact .some (like.dispatchNext listeners reports)
      | error faults =>
        refine .some ((like.record lawful (.listenerFailed _ faults)).dispatchNext listeners ?_)
        exact { reports with failures := List.rel_append reports.failures (.cons faults .nil) }
    | _ => exact .none
  | forwarding =>
    cases answers with
    | delivered ends =>
      cases ends with
      | ok => exact .some like.giveOk
      | error errors => exact .some (like.give (.result (.error (.machine errors))))
    | _ => exact .none
  | draining m kind firsts =>
    cases answers with
    | delivered ends =>
      cases firsts with
      | none => exact .some (like.drain ends)
      | some firsts =>
        cases ends with
        | ok => exact .some (like.drain firsts)
        | error errors =>
          exact .some ((like.record lawful (.queuedFailed kind errors)).drain firsts)
    | _ => cases firsts <;> exact .none
  | stopping m =>
    cases answers with
    | unit =>
      have labels : ((c.world.machine? m).map (·.settings.label)).getD "" =
          ((c'.world.machine? m).map (·.settings.label)).getD "" := by
        obtain ⟨h, h'⟩ | ⟨x, x', h, h', cells⟩ := exists_of_rel (like.world.machine? m)
        · rw [h, h']
        · rw [h, h', Option.map_some, Option.map_some, cells.settings]
      unfold Program.resume
      dsimp only
      rw [labels]
      refine .some (give (record (like.modifyMachine ?_) lawful (.same _)) .unit)
      exact fun _ _ cells => { cells with
        inbox := congrArg (fun i => { i with pending := [] }) cells.inbox }
    | _ => exact .none
  | holding m => exact .some (like.unpin (.gave answers))
  | starting m signal =>
    cases answers with
    | entered ends =>
      cases ends with
      | ok =>
        cases signal with
        | none => exact .some like.handOver
        | some signal => exact .some ((like.push (.signalled m)).onCancel (.stop m))
      | error errors => exact .some (like.unpin (.gave (.started (.error (.definition errors)))))
    | _ => cases signal <;> exact .none
  | signalled m =>
    cases answers with
    | unit => exact .some like.handOver
    | _ => exact .none
  | dismantling m =>
    cases answers with
    | unit =>
      refine .some (give (like.modifyMachine ?_) .unit)
      exact fun _ _ cells => { cells with observers := cells.observers.clear }
    | _ => exact .none
  | advancing slot target reports =>
    cases answers with
    | report reports' =>
      refine .some (like.advanceNext lawful ⟨?_, ?_⟩)
      · exact congrArg₂ (· + ·) reports.delivered reports'.delivered
      · exact List.rel_append reports.failures reports'.failures
    | _ => exact .none
  | settling outcomes => exact .some (like.settle outcomes)

end Config.Like

/-- Configurations that correspond go on to ones that do, and neither program goes on alone. -/
theorem Pairing.IsLawful.step (lawful : P.IsLawful) (like : c.Like P c')
    (room : c'.HasRoom P.right) : Option.Rel (Config.Like P) (P.left.step c) (P.right.step c') := by
  obtain ⟨w, h, ctl, fs⟩ := c
  obtain ⟨w', h', ctl', fs'⟩ := c'
  obtain ⟨worlds, hosts, controls, stack⟩ := like
  have like : Config.Like P ⟨w, h, ctl, fs⟩ ⟨w', h', ctl', fs'⟩ := ⟨worlds, hosts, controls, stack⟩
  cases controls with
  | run scripts =>
    cases scripts with
    | done ends => exact .some (like.give (.result ends))
    | panic message => exact .some (like.panic message)
    | update hosts' rest => exact .some ⟨worlds, hosts' _ _ hosts, .run rest, stack⟩
    | look rest => exact .some (like.run (rest _ _ _ _ hosts worlds.view))
    | call calls rest => exact .some (like.call lawful calls rfl rest room)
  | gather ends =>
    cases stack with
    | nil => exact .none
    | @cons f f' rest rest' top below =>
      cases top with
      | collecting purpose =>
        have under : Config.Like P ⟨w, h, .gather (.done _), rest⟩
            ⟨w', h', .gather (.done _), rest'⟩ :=
          { like with stack := below }
        exact .some (under.useCollected lawful purpose ends)
      | _ => exact .none
  | release scope => exact .some like.performRelease
  | stop m => exact .some like.performStop
  | send m source e => exact .some (like.performSend lawful)
  | route m source e =>
    exact .some (like.performRoute lawful fun cell d found leads =>
      room _ (Config.collects?_of_route rfl found leads))
  | @give a a' answers =>
    cases stack with
    | nil => exact .none
    | @cons f f' rest rest' top below =>
      have under : Config.Like P ⟨w, h, .give a, rest⟩ ⟨w', h', .give a', rest'⟩ :=
        { like with stack := below }
      exact under.resume lawful top answers
  | panic message =>
    cases stack with
    | nil => exact .none
    | @cons f f' rest rest' top below =>
      have under : Config.Like P ⟨w, h, .panic message, rest⟩ ⟨w', h', .panic message, rest'⟩ :=
        { like with stack := below }
      exact under.unwind top message

end ScopedMachine

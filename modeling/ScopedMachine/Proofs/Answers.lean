import ScopedMachine.Proofs.Chronicle
import ScopedMachine.Proofs.Failures
import ScopedMachine.Proofs.Order

/-!
# What the answer to a send tells

A send is answered after the events that were queued behind its own were routed as well, but what
it is answered with is what the routing of its own event came to. That can end in many ways, and
host code may send more events at every point of it. `Config.Handles` follows one event through its
phases and keeps account of what was committed for it; `Config.Drains` follows a send from one event
to the next.
-/

namespace ScopedMachine

variable {H : Type} {p : Program H} {m : MachineId}

/-! ## Events and their transitions -/

/-- Whether an event is routed or a transition is committed. -/
def Deed.handles : Deed → Bool
  | .routed .. | .committed _ => true
  | _ => false

/-- The events that a machine routed and the transitions that it committed in the steps from the
given configurations. -/
def handled (m : MachineId) (past : List (Config H)) : List Deed :=
  (deeds m past).filter Deed.handles

/-- An event that was routed, and the transition that was committed for it, if there was one. -/
structure Handling where
  source : SourceId
  event : Event
  change : Option Change

/-- What a machine does to handle an event. -/
def Handling.trace (h : Handling) : List Deed :=
  .routed h.source h.event :: (h.change.map Deed.committed).toList

/-- The state that a machine shows. -/
def World.shown? (m : MachineId) (w : World H) : Option String :=
  (w.machine? m).map (·.snapshot.state)

section Handled

variable {past later : List (Config H)} {c : Config H} {hs : List Handling}

theorem handled_append : handled m (past ++ later) = handled m past ++ handled m later := by
  simp [handled, deeds]

theorem handled_singleton : handled m [c] = (c.deed? m).toList.filter Deed.handles := by
  cases deed : c.deed? m <;> simp [handled, deeds, deed]

theorem commits_handled : commits (handled m past) = commits (deeds m past) := by
  rw [commits, handled, List.filterMap_filter, commits]
  congr 1
  funext d
  cases d <;> rfl

/-- Just those transitions are committed that events led to. -/
theorem length_commits_flatMap :
    (commits (hs.flatMap Handling.trace)).length = hs.countP (·.change.isSome) := by
  induction hs with
  | nil => rfl
  | cons h hs ih =>
    rw [List.flatMap_cons, commits, List.filterMap_append, List.length_append, List.countP_cons,
      ← ih, Nat.add_comm]
    congr 1
    obtain ⟨source, e, change⟩ := h
    cases change <;> rfl

/-- An activation is about to be installed. -/
def Config.Installs (m : MachineId) (c : Config H) : Prop :=
  c.control.isEnd ∧ ∃ a stage rest, c.stack = .subscribing m a [] stage :: rest

theorem Config.routes_of_deed {source : SourceId} {e : Event}
    (routed : c.deed? m = some (.routed source e)) : c.control = .route m source e := by
  unfold deed? at routed
  split at routed
  · cases routed
  · split at routed
    · split at routed <;> cases routed
    · next control =>
      split at routed
      · next same => cases same; cases routed; exact control
      · cases routed
    · split at routed <;> cases routed
    · next a stage _ _ _ =>
      split at routed
      · unfold MachineCell.installing? at routed
        split at routed
        · cases routed
        · split at routed <;> cases routed
        · cases routed
      · cases routed
    · split at routed <;> cases routed
    · cases routed

theorem Config.not_routes_of_control (other : c.control.machine? = none) : ¬c.Routes m := by
  rintro ⟨source, e, routes⟩
  rw [routes] at other
  cases other

theorem Config.not_installs_of_top {f : Frame H} {rest : List (Frame H)}
    (stack : c.stack = f :: rest) (other : ∀ n stage, f ≠ .subscribing m n [] stage) :
    ¬c.Installs m := by
  rintro ⟨_, n, stage, rest', top⟩
  exact other n stage (List.cons.inj (stack.symm.trans top)).1

theorem Config.not_commits_of_not_installs (installs : ¬c.Installs m) (change : Change) :
    c.deed? m ≠ some (.committed change) := by
  intro commits
  obtain ⟨_, _, a, _, _, rest, _, _, control, stack, _⟩ := Config.of_committed commits
  exact installs ⟨by rw [control]; rfl, a, _, rest, stack⟩

/-- Where no event is routed and no transition committed, nothing is handled. -/
theorem handled_concat_of_quiet (past : List (Config H)) (routes : ¬c.Routes m)
    (commits : ∀ change, c.deed? m ≠ some (.committed change)) :
    handled m (past ++ [c]) = handled m past := by
  rw [handled_append, handled_singleton]
  cases deed : c.deed? m with
  | none => exact List.append_nil _
  | some d =>
    cases d with
    | routed source e => exact absurd ⟨source, e, Config.routes_of_deed deed⟩ routes
    | committed change => exact absurd deed (commits change)
    | _ => exact List.append_nil _

end Handled

/-! ## Above an event that is handled -/

section Quiet

variable {w : World H} {past : List (Config H)} {c c' : Config H} {above base : List (Frame H)}

theorem Role.isEngaged_of_isTransit {r : Role} (transit : r.isTransit) : r.isEngaged := by
  cases r <;> first | rfl | cases transit

/-- Above frames that handle an event nothing is handled. -/
theorem Program.Run.quiet_above {r : Role} (run : p.Run w past c) (stack : c.stack = above ++ base)
    (busy : above ≠ [] ∨ c.control.isEnd = false) (within : r ∈ roles m base)
    (transit : r.isTransit) : ¬c.Routes m ∧ ¬c.Installs m := by
  have inside : r ∈ roles m c.stack := by
    rw [stack, roles_append]
    exact List.mem_append_right _ within
  refine ⟨run.not_routes inside transit, ?_⟩
  rintro ⟨ended, a, stage, rest, top⟩
  obtain ⟨above', rfl, _⟩ := Config.top_of_ended stack busy ended top
  obtain ⟨cell, found⟩ := run.grounded.frame (top ▸ List.mem_cons_self ..) rfl
  have posture := (run.poised m).posture found
  rw [stack] at posture
  exact Posture.not_enters [_] posture within (Role.isEngaged_of_isTransit transit)
    roles_subscribing

/-- A machine that is not routing any event is not about to, and it commits no transition. -/
theorem Config.quiet_of_rests (rests : c.routings m = 0) :
    ¬c.Routes m ∧ ∀ change, c.deed? m ≠ some (.committed change) := by
  obtain ⟨none, still⟩ := Nat.add_eq_zero_iff.1 rests
  constructor
  · rintro ⟨source, e, routes⟩
    rw [routes, Control.onItsWay_route] at still
    cases still
  · intro change commits
    obtain ⟨_, _, a, _, _, rest, _, _, _, stack, _⟩ := Config.of_committed commits
    have quiet := List.countP_eq_zero.1 none .shift
    rw [stack, roles_subscribing] at quiet
    exact quiet (List.mem_cons_self ..) rfl

/-- A turn of a machine that routes no event does not begin to, unless the inbox is claimed or the
next event is taken out of it. -/
theorem Turn.rests {w : World H} {d : Option Deed} {e : Effect H} {cell cell' : MachineCell H}
    {ctl ctl' : Control H} {pops pushes : List (Frame H)}
    (turn : Turn p w m d e ⟨cell, ctl, pops⟩ ⟨cell', ctl', pushes⟩)
    (quiet : ∀ r ∈ roles m pops, r.isTransit = false) (still : ctl.onItsWay m = []) :
    (∀ r ∈ roles m pushes, r.isTransit = false) ∧ ctl'.onItsWay m = [] ∨
      cell.inbox.draining = false ∨ ctl.isEnd ∧ ∃ kind first, pops = [.draining m kind first] := by
  cases turn with
  | claim idle => exact .inr (.inl idle)
  | next => exact .inr (.inr ⟨rfl, _, _, rfl⟩)
  | look | ignore => rw [Control.onItsWay_route] at still; cases still
  | leave | published => simp [Role.isTransit] at quiet
  | commit | restore => simp [Role.isTransit, Stage.role] at quiet
  | @pin _ _ _ _ pushes alive quiet call sheds =>
    obtain ⟨_, hpushes⟩ := sheds.filter (m := m)
    refine .inl ⟨?_, Control.onItsWay_of_isCallOn call⟩
    rw [roles_holding, roles, hpushes]
    simp [Role.isTransit]
  | hold held quiet plain inert | drop held alive quiet plain inert
  | observe live held quiet plain inert =>
    exact .inl ⟨by simp [roles_of_isPlain inert], Control.onItsWay_of_isPlain plain⟩
  | dropLast held dead quiet inert =>
    exact .inl ⟨by simp [roles_of_isPlain inert, Role.isTransit], Control.onItsWay_ofRelease⟩
  | enter enters =>
    refine .inl ⟨?_, rfl⟩
    cases enters <;> simpa [Stage.role] using quiet
  | entered | subscribe | subscribeHosted | fail | passOver =>
    exact .inl ⟨by simpa using quiet, rfl⟩
  | tell live plain => exact .inl ⟨by simpa using quiet, Control.onItsWay_of_isPlain plain⟩
  | signalAtOnce => exact .inl ⟨by simp [Role.isTransit], rfl⟩
  | _ =>
    refine .inl ⟨by simp [Role.isTransit], ?_⟩
    first
      | rfl
      | exact Control.onItsWay_ofRelease
      | exact Control.onItsWay_of_isPlain ‹_›

/-- While the inbox is drained below, a machine that routes no event does not begin to. -/
theorem Program.Run.rests_step (run : p.Run w past c) (h : p.step c = some c')
    (stack : c.stack = above ++ base) (busy : above ≠ [] ∨ c.control.isEnd = false)
    (drain : .drain ∈ roles m base) (rests : c.routings m = 0) : c'.routings m = 0 := by
  obtain ⟨none, still⟩ := Nat.add_eq_zero_iff.1 rests
  have inside : .drain ∈ roles m c.stack := by
    rw [stack, roles_append]
    exact List.mem_append_right _ drain
  cases (run.move h).outlook m with
  | spared machine frames deed control control' =>
    have same : roles m c'.stack = roles m c.stack := congrArg (List.filterMap Frame.role?) frames
    rw [Config.routings, same, none, Control.onItsWay_of_ne control']
    rfl
  | start signal new =>
    have poised := run.poised m
    simp only [Config.Poised, new] at poised
    rw [roles, show c.stack.filter _ = _ from poised.1] at inside
    cases inside
  | @turn cell cell' _ pops pushes rest found found' turn before after =>
    have posture := (run.poised m).posture found
    rw [before, roles_append, List.countP_append, Nat.add_eq_zero_iff] at none
    rw [List.length_eq_zero_iff] at still
    have quiet : ∀ r ∈ roles m pops, r.isTransit = false := by
      simpa using List.countP_eq_zero.1 none.1
    rcases turn.rests quiet still with ⟨quiet', still'⟩ | idle | ⟨ended, kind, first, rfl⟩
    · have none' : (roles m pushes).countP Role.isTransit = 0 := by
        rw [List.countP_eq_zero]
        simpa using quiet'
      rw [Config.routings, after, roles_append, List.countP_append, none', none.2, still']
      rfl
    · have drains := posture.drains
      rw [idle] at drains
      exact absurd inside (List.count_eq_zero.1 drains)
    · -- the drain that goes on would be a second one
      obtain ⟨above', rfl, rfl⟩ := Config.top_of_ended stack busy ended before
      have once := posture.count_drain_le
      rw [stack, List.cons_append, roles_draining, List.count_cons_self, roles_append,
        List.count_append] at once
      have below := List.count_pos_iff.2 drain
      omega

/-- Where no activation is installed, a machine goes on showing its state. -/
theorem Program.Run.shown?_step (run : p.Run w past c) (h : p.step c = some c')
    (there : c.world.machine? m ≠ none) (installs : ¬c.Installs m) :
    c'.world.shown? m = c.world.shown? m := by
  cases (run.move h).outlook m with
  | spared machine => rw [World.shown?, machine]; rfl
  | start signal new => exact absurd new there
  | @turn cell cell' _ pops pushes rest found found' turn before after =>
    rw [World.shown?, World.shown?, found, found']
    rcases turn.face_or_installs with ⟨face, _⟩ | ⟨ended, a, stage, rfl⟩
    · exact congrArg some (congrArg Face.state face)
    · exact absurd ⟨ended, a, stage, rest, before⟩ installs

end Quiet

/-! ## One event -/

/-- The event that is routed in the world `w` above the frames `base` has led to `x`: that is what
the target of the event was collected as, while `passed` was passed. -/
structure ResolvesTo (p : Program H) (m : MachineId) (source : SourceId) (e : Event) (w : World H)
    (base : List (Frame H)) (passed : List (Config H)) (x : Collected (Entry H)) : Prop where
  target : ∃ cell target, w.machine? m = some cell ∧ cell.target? source e.kind = some target ∧
    (p.collect cell.settings.delegationLimit target).ComesTo (.ok x)
  collected : ∃ y ∈ passed, y.control = .gather (.done (.ok x)) ∧
    y.stack = .collecting (.transition m e.kind) :: base

/-- How an event that is routed in the world `w` above the frames `base` is answered, and the
transition that is committed for it. -/
inductive Accounts (p : Program H) (m : MachineId) (source : SourceId) (e : Event) (w : World H)
    (base : List (Frame H)) (passed : List (Config H)) :
    Except MachineError Delivery → Option Change → Prop where
  /-- The transition leads from the state that was shown to the one that the target resolves to. -/
  | transitioned {x : Collected (Entry H)} {change : Change}
      (resolved : ResolvesTo p m source e w base passed x)
      (leaves : w.shown? m = some change.previous) (reaches : change.state = x.name) :
      Accounts p m source e w base passed (.ok (.transitioned change.previous change.state))
        (some change)
  | ignored : Accounts p m source e w base passed (.ok .ignored) none
  | failed (error : MachineError) : Accounts p m source e w base passed (.error error) none

/-- A frame of the machine leads to the commit of a transition to one of the given states, or it
goes back to the state that was left. -/
inductive Frame.IsBound (m : MachineId) (leads : Collected (Entry H) → Prop) : Frame H → Prop where
  | leaving {previous x : Collected (Entry H)} {event : String} (bound : leads x) :
      IsBound m leads (.leaving m previous x event)
  | activating {x : Collected (Entry H)} {scope : ScopeId} {event : String}
      {previous : Collected (Entry H)} (bound : leads x) :
      IsBound m leads (.activating m x scope (.commit event previous))
  | subscribing {a : Activation H} {rest : List Route} {event : String}
      {previous : Collected (Entry H)} (bound : leads a.collected) :
      IsBound m leads (.subscribing m a rest (.commit event previous))
  | abandoning {state event : String} {error : DefinitionError} {previous : Collected (Entry H)} :
      IsBound m leads (.abandoning m state error (.commit event previous))
  | activatingAgain {x : Collected (Entry H)} {scope : ScopeId} {state : String}
      {cause : DefinitionError} : IsBound m leads (.activating m x scope (.restore state cause))
  | subscribingAgain {a : Activation H} {rest : List Route} {state : String}
      {cause : DefinitionError} : IsBound m leads (.subscribing m a rest (.restore state cause))
  | abandoningAgain {state target : String} {error cause : DefinitionError} :
      IsBound m leads (.abandoning m state error (.restore target cause))

/-- The event that is routed at `z` is being handled; `passed` was passed since. -/
inductive Config.Handles (p : Program H) (m : MachineId) (source : SourceId) (e : Event)
    (z : Config H) (passed : List (Config H)) (c : Config H) : Prop where
  | begins (none : passed = []) (here : c = z) : Handles p m source e z passed c
  /-- Its target is collected. -/
  | collects {cell : MachineCell H} {target : Definition} (found : z.world.machine? m = some cell)
      (leads : cell.target? source e.kind = some target)
      (gathering : c.Gathering p ⟨.transition m e.kind, cell.settings.delegationLimit, target⟩
        (.collecting (.transition m e.kind) :: z.stack))
      (sofar : handled m passed = [.routed source e])
      (shows : c.world.shown? m = z.world.shown? m) : Handles p m source e z passed c
  /-- The activation in place is left for the target, or the target was given up. -/
  | crosses {above : List (Frame H)} {f : Frame H} (stack : c.stack = above ++ f :: z.stack)
      (bound : f.IsBound m (ResolvesTo p m source e z.world z.stack passed))
      (sofar : handled m passed = [.routed source e])
      (shows : c.world.shown? m = z.world.shown? m) : Handles p m source e z passed c
  /-- The transition was committed, and the observers are told. -/
  | publishes {above : List (Frame H)} {change : Change} {rest : List (Registration (Observer H))}
      (stack : c.stack = above ++ .publishing m change rest :: z.stack)
      (accounts : Accounts p m source e z.world z.stack passed
        (.ok (.transitioned change.previous change.state)) (some change))
      (sofar : handled m passed = Handling.trace ⟨source, e, some change⟩) :
      Handles p m source e z passed c
  /-- The answer waits for a release or a stop. -/
  | settles {above : List (Frame H)} {r : Except MachineError Delivery} {change : Option Change}
      (stack : c.stack = above ++ .settling (.gave (.delivered r)) :: z.stack)
      (rests : c.routings m = 0)
      (accounts : Accounts p m source e z.world z.stack passed r change)
      (sofar : handled m passed = Handling.trace ⟨source, e, change⟩) :
      Handles p m source e z passed c

/-- The event that was routed at `z` has been handled, and this is the answer. -/
structure Config.HandlesTo (p : Program H) (m : MachineId) (source : SourceId) (e : Event)
    (z : Config H) (passed : List (Config H)) (c : Config H) (r : Except MachineError Delivery)
    (change : Option Change) : Prop where
  control : c.control = .give (.delivered r)
  stack : c.stack = z.stack
  accounts : Accounts p m source e z.world z.stack passed r change
  sofar : handled m passed = Handling.trace ⟨source, e, change⟩

/-- The event that is routed at `z` is being handled, or it has been. -/
def Config.SeesTo (p : Program H) (m : MachineId) (source : SourceId) (e : Event) (z : Config H)
    (passed : List (Config H)) (c : Config H) : Prop :=
  z.Handles p m source e passed c ∨ ∃ r change, z.HandlesTo p m source e passed c r change

section OneEvent

variable {source : SourceId} {e : Event} {w : World H} {past passed more : List (Config H)}
  {z c c' : Config H} {base : List (Frame H)} {x : Collected (Entry H)} {f : Frame H}
  {leads leads' : Collected (Entry H) → Prop} {r : Except MachineError Delivery}
  {change : Option Change}

theorem Config.Gathering.suffix {i : Inquiry} (gathering : c.Gathering p i base) :
    ∃ above, c.stack = above ++ base := by
  cases gathering with
  | here control stack | unwinds control stack => exact ⟨[], stack⟩
  | waits stack => exact ⟨_, stack.trans (List.append_cons ..)⟩

theorem ResolvesTo.mono (resolved : ResolvesTo p m source e w base passed x) :
    ResolvesTo p m source e w base (passed ++ more) x where
  target := resolved.target
  collected := by
    obtain ⟨y, mem, here⟩ := resolved.collected
    exact ⟨y, List.mem_append_left _ mem, here⟩

theorem Accounts.mono (accounts : Accounts p m source e w base passed r change) :
    Accounts p m source e w base (passed ++ more) r change := by
  cases accounts with
  | transitioned resolved leaves reaches => exact .transitioned resolved.mono leaves reaches
  | ignored => exact .ignored
  | failed error => exact .failed error

namespace Frame.IsBound

theorem imp (bound : f.IsBound m leads) (imp : ∀ x, leads x → leads' x) : f.IsBound m leads' := by
  cases bound with
  | leaving leads => exact .leaving (imp _ leads)
  | activating leads => exact .activating (imp _ leads)
  | subscribing leads => exact .subscribing (imp _ leads)
  | abandoning => exact .abandoning
  | activatingAgain => exact .activatingAgain
  | subscribingAgain => exact .subscribingAgain
  | abandoningAgain => exact .abandoningAgain

theorem machine? (bound : f.IsBound m leads) : f.machine? = some m := by
  cases bound <;> rfl

theorem role? (bound : f.IsBound m leads) : f.role? = some .shift := by
  cases bound <;> rfl

end Frame.IsBound

theorem Config.Handles.suffix (handles : z.Handles p m source e passed c) :
    ∃ above, c.stack = above ++ z.stack := by
  cases handles with
  | begins none here => exact ⟨[], congrArg Config.stack here⟩
  | collects found leads gathering =>
    obtain ⟨above, stack⟩ := gathering.suffix
    exact ⟨_, stack.trans (List.append_cons ..)⟩
  | crosses stack | publishes stack | settles stack => exact ⟨_, stack.trans (List.append_cons ..)⟩

/-- Where no event is routed and no activation installed, nothing is handled, and a machine goes on
showing its state. -/
theorem Program.Run.quiet_step (run : p.Run w past c) (h : p.step c = some c')
    (there : c.world.machine? m ≠ none) (routes : ¬c.Routes m) (installs : ¬c.Installs m)
    (sofar : handled m passed = [.routed source e]) (shows : c.world.shown? m = z.world.shown? m) :
    handled m (passed ++ [c]) = [.routed source e] ∧ c'.world.shown? m = z.world.shown? m :=
  ⟨(handled_concat_of_quiet _ routes (Config.not_commits_of_not_installs installs)).trans sofar,
    (run.shown?_step h there installs).trans shows⟩

/-- A collection that is over makes the machine leave its activation, or the event leads nowhere. -/
theorem Config.SeesTo.of_collected {r : Except DefinitionError (Collected (Entry H))}
    (run : p.Run w past c) (h : p.step c = some c') (control : c.control = .gather (.done r))
    (stack : c.stack = .collecting (.transition m e.kind) :: z.stack)
    (resolves : ∀ x, r = .ok x → ResolvesTo p m source e z.world z.stack (passed ++ [c]) x)
    (sofar : handled m passed = [.routed source e])
    (shows : c.world.shown? m = z.world.shown? m) :
    z.SeesTo p m source e (passed ++ [c]) c' := by
  obtain ⟨cell, found⟩ := run.grounded.frame (stack ▸ List.mem_cons_self ..) rfl
  have routes : ¬c.Routes m := Config.not_routes_of_control (by rw [control]; rfl)
  have installs : ¬c.Installs m := Config.not_installs_of_top stack (by simp)
  obtain ⟨sofar', shows'⟩ := run.quiet_step h (by simp [found]) routes installs sofar shows
  obtain ⟨w, host, ctl, fs⟩ := c
  cases control
  cases stack
  cases r with
  | error error =>
    cases h
    exact .inr ⟨_, _, rfl, rfl, .failed _, sofar'⟩
  | ok x =>
    have found : w.machine? m = some cell := found
    simp only [Program.step, Config.useCollected, Config.record, found] at h
    split at h
    · cases h
      exact .inl (.crosses (List.nil_append _).symm (.leaving (resolves x rfl)) sofar' shows')
    · cases h
      exact .inr ⟨_, _, rfl, rfl, .ignored, sofar'⟩

theorem Config.SeesTo.of_collects {cell : MachineCell H} {target : Definition}
    (run : p.Run w past c) (calm : c.IsCalm) (h : p.step c = some c')
    (found : z.world.machine? m = some cell) (leads : cell.target? source e.kind = some target)
    (gathering : c.Gathering p ⟨.transition m e.kind, cell.settings.delegationLimit, target⟩
      (.collecting (.transition m e.kind) :: z.stack))
    (sofar : handled m passed = [.routed source e])
    (shows : c.world.shown? m = z.world.shown? m) :
    z.SeesTo p m source e (passed ++ [c]) c' := by
  obtain ⟨above, stack⟩ := gathering.suffix
  by_cases ended : ∃ r, c.control = .gather (.done r) ∧
      c.stack = .collecting (.transition m e.kind) :: z.stack
  · obtain ⟨r, control, top⟩ := ended
    refine .of_collected run h control top ?_ sofar shows
    rintro x rfl
    exact ⟨⟨cell, target, found, leads, gathering.comesTo control top⟩,
      c, List.mem_append_right _ (List.mem_singleton_self c), control, top⟩
  · -- host code that the collection asked for goes on, or the collection itself
    have under : c.IsCollecting (.collecting (.transition m e.kind) :: z.stack) := by
      refine ⟨⟨above, stack⟩, fun top => ?_⟩
      cases gathering with
      | @here g control => exact ⟨g, control, fun r done => ended ⟨r, done ▸ control, top⟩⟩
      | waits stack =>
        have longer := congrArg List.length (top.symm.trans stack)
        simp at longer
        omega
      | unwinds control => exact absurd control (calm _)
    have busy : above ≠ [] ∨ c.control.isEnd = false := by
      refine or_iff_not_imp_left.2 fun none => ?_
      obtain ⟨g, control, unfinished⟩ := under.unfinished (by rw [stack, not_ne_iff.1 none]; rfl)
      rw [control]
      cases g with
      | done r => exact absurd rfl (unfinished r)
      | _ => rfl
    obtain ⟨here, there⟩ := run.grounded.frame
      (stack ▸ List.mem_append_right _ (List.mem_cons_self ..) :
        .collecting (.transition m e.kind) ∈ c.stack) rfl
    obtain ⟨routes, installs⟩ := run.quiet_above stack busy
      (by rw [roles_transition]; exact List.mem_cons_self ..) rfl
    obtain ⟨sofar', shows'⟩ := run.quiet_step h (by simp [there]) routes installs sofar shows
    exact .inl (.collects found leads (gathering.step run under h) sofar' shows')

/-- A frame that is bound for a commit or back goes on so, until an activation is installed, or the
machine is stopped because it could not go back. -/
theorem Frame.IsBound.resume {a : Answer} (bound : f.IsBound m leads)
    (more : ∀ n stage, f ≠ .subscribing m n [] stage)
    (h : p.resume f a { c with stack := base } = some c') :
    (∃ above g, c'.stack = above ++ g :: base ∧ g.IsBound m leads) ∨
      ∃ error, c'.stack = .settling (.gave (.delivered (.error error))) :: base ∧
        c'.control = .stop m := by
  cases bound with
  | leaving leads =>
    cases a with
    | unit => cases h; exact .inl ⟨[_], _, rfl, .activating leads⟩
    | _ => cases h
  | activating leads =>
    cases a with
    | entered r =>
      cases r with
      | ok => cases h; exact .inl ⟨[], _, rfl, .subscribing leads⟩
      | error error => cases h; exact .inl ⟨[], _, rfl, .abandoning⟩
    | _ => cases h
  | @subscribing n rest _ _ leads =>
    cases rest with
    | nil => exact absurd rfl (more n _)
    | cons route rest =>
      cases a with
      | result r =>
        simp only [Program.resume, Config.subscribeNext] at h
        split at h <;>
          · cases h
            exact .inl ⟨[], _, rfl, .subscribing leads⟩
      | _ => cases h
  | abandoning =>
    cases a with
    | unit => cases h; exact .inl ⟨[_], _, rfl, .activatingAgain⟩
    | _ => cases h
  | activatingAgain =>
    cases a with
    | entered r =>
      cases r with
      | ok => cases h; exact .inl ⟨[], _, rfl, .subscribingAgain⟩
      | error error => cases h; exact .inl ⟨[], _, rfl, .abandoningAgain⟩
    | _ => cases h
  | @subscribingAgain n rest =>
    cases rest with
    | nil => exact absurd rfl (more n _)
    | cons route rest =>
      cases a with
      | result r =>
        simp only [Program.resume, Config.subscribeNext] at h
        split at h <;>
          · cases h
            exact .inl ⟨[], _, rfl, .subscribingAgain⟩
      | _ => cases h
  | abandoningAgain =>
    cases a with
    | unit => cases h; exact .inr ⟨_, rfl, rfl⟩
    | _ => cases h

/-- When the handling of an event is over but for what happens above, the machine routes none. -/
theorem Program.Run.rests_of_settles {o : Outcome} {r : Role} (run : p.Run w past c)
    (works : f.machine? = some m) (role : f.role? = some r) (transit : r.isTransit)
    (stack : c.stack = f :: base) (stack' : c'.stack = .settling o :: base)
    (still : c'.control.onItsWay m = []) : c'.routings m = 0 := by
  obtain ⟨cell, found⟩ := run.grounded.frame (stack ▸ List.mem_cons_self ..) works
  have posture := (run.poised m).posture found
  rw [stack, roles_of_role works role] at posture
  have none : (roles m base).countP Role.isTransit = 0 := by
    rw [List.countP_eq_zero]
    intro q mem
    simp [posture.isTransit_eq_false transit mem]
  rw [Config.routings, stack', roles_settling, none, still]
  rfl

/-- An activation is installed: the transition is committed, or the previous state is back; or the
machine was stopped meanwhile, and neither is done. -/
theorem Config.SeesTo.of_installs {a : Answer} {n : Activation H} {stage : Stage H}
    (run : p.Run w past c) (h : p.step c = some c') (control : c.control = .give a)
    (stack : c.stack = .subscribing m n [] stage :: z.stack)
    (bound : (Frame.subscribing m n [] stage).IsBound m
      (ResolvesTo p m source e z.world z.stack passed))
    (sofar : handled m passed = [.routed source e]) (shows : c.world.shown? m = z.world.shown? m) :
    z.SeesTo p m source e (passed ++ [c]) c' := by
  obtain ⟨cell, found⟩ := run.grounded.frame (stack ▸ List.mem_cons_self ..) rfl
  obtain ⟨r, rfl⟩ : ∃ r, a = .result r := by
    obtain ⟨world, host, ctl, fs⟩ := c
    cases control
    cases stack
    cases a with
    | result r => exact ⟨r, rfl⟩
    | _ => cases h
  have routes : ¬c.Routes m := Config.not_routes_of_control (by rw [control]; rfl)
  have unchanged (commits : ∀ change, c.deed? m ≠ some (.committed change)) :
      handled m (passed ++ [c]) = [.routed source e] :=
    (handled_concat_of_quiet _ routes commits).trans sofar
  -- the answer waits until the scope that was made is released
  have settles {r : Except MachineError Delivery}
      (accounts : Accounts p m source e z.world z.stack (passed ++ [c]) r none)
      (commits : ∀ change, c.deed? m ≠ some (.committed change))
      (stack' : c'.stack = .settling (.gave (.delivered r)) :: z.stack)
      (control' : c'.control = .release n.scope) : z.SeesTo p m source e (passed ++ [c]) c' := by
    have rests := run.rests_of_settles bound.machine? bound.role? rfl stack stack'
      (by rw [control']; rfl)
    exact .inl (.settles (stack'.trans (List.nil_append _).symm) rests accounts (unchanged commits))
  cases bound with
  | @subscribing _ _ event previous leads =>
    by_cases running : cell.status = .running
    · obtain ⟨_, stack'⟩ := Program.step_of_commit found running control stack h
      let next := cell.commit n event (c.world.wallClock c.world.readings)
      let change := next.change cell.state event
      have deed : c.deed? m = some (.committed change) := by
        simp [Config.deed?, found, control, stack, MachineCell.installing?, running, change, next]
      have sofar' : handled m (passed ++ [c]) = Handling.trace ⟨source, e, some change⟩ := by
        rw [handled_append, sofar, handled_singleton, deed]
        rfl
      have leaves : z.world.shown? m = some cell.state := by
        rw [← shows, World.shown?, found]
        rfl
      exact .inl (.publishes (stack'.trans (List.nil_append _).symm)
        (.transitioned leads.mono leaves rfl) sofar')
    · have commits (change : Change) : c.deed? m ≠ some (.committed change) := by
        intro commits
        obtain ⟨_, _, _, _, _, _, found', running', _⟩ := Config.of_committed commits
        cases found.symm.trans found'
        exact running running'
      obtain ⟨world, host, ctl, fs⟩ := c
      cases control
      cases stack
      have found : world.machine? m = some cell := found
      simp only [Program.step, Program.resume, Config.subscribeNext, Config.record, Config.install,
        found, running, if_false] at h
      cases h
      exact settles .ignored commits rfl rfl
  | @subscribingAgain _ _ state cause =>
    have commits (change : Change) : c.deed? m ≠ some (.committed change) := by
      intro commits
      obtain ⟨_, _, _, _, _, _, _, _, _, stack', _⟩ := Config.of_committed commits
      cases stack.symm.trans stack'
    obtain ⟨world, host, ctl, fs⟩ := c
    cases control
    cases stack
    have found : world.machine? m = some cell := found
    simp only [Program.step, Program.resume, Config.subscribeNext, Config.record, Config.install,
      found] at h
    split at h
    · cases h
      exact .inr ⟨_, _, rfl, rfl, .failed _, unchanged commits⟩
    · cases h
      exact settles (.failed _) commits rfl rfl

theorem Config.SeesTo.of_crosses {above : List (Frame H)} (run : p.Run w past c) (calm : c.IsCalm)
    (h : p.step c = some c') (stack : c.stack = above ++ f :: z.stack)
    (bound : f.IsBound m (ResolvesTo p m source e z.world z.stack passed))
    (sofar : handled m passed = [.routed source e]) (shows : c.world.shown? m = z.world.shown? m) :
    z.SeesTo p m source e (passed ++ [c]) c' := by
  obtain ⟨cell, found⟩ := run.grounded.frame
    (stack ▸ List.mem_append_right _ (List.mem_cons_self ..)) bound.machine?
  have later : f.IsBound m (ResolvesTo p m source e z.world z.stack (passed ++ [c])) :=
    bound.imp fun _ => ResolvesTo.mono
  by_cases busy : above ≠ [] ∨ c.control.isEnd = false
  · obtain ⟨routes, installs⟩ := run.quiet_above stack busy
      (by rw [roles_of_role bound.machine? bound.role?]; exact List.mem_cons_self ..) rfl
    obtain ⟨sofar', shows'⟩ := run.quiet_step h (by simp [found]) routes installs sofar shows
    obtain ⟨above', stack'⟩ := (run.course h).stays stack busy
    exact .inl (.crosses stack' later sofar' shows')
  · obtain ⟨rfl, a, control, resumes⟩ := Config.resume_of_idle h busy calm stack
      (by rintro purpose rfl; cases bound)
    by_cases last : ∃ n stage, f = .subscribing m n [] stage
    · obtain ⟨n, stage, rfl⟩ := last
      exact .of_installs run h control stack bound sofar shows
    · have more (n : Activation H) (stage : Stage H) : f ≠ .subscribing m n [] stage :=
        fun same => last ⟨n, stage, same⟩
      have routes : ¬c.Routes m := Config.not_routes_of_control (by rw [control]; rfl)
      have installs : ¬c.Installs m := Config.not_installs_of_top stack more
      obtain ⟨sofar', shows'⟩ := run.quiet_step h (by simp [found]) routes installs sofar shows
      rcases later.resume more resumes with ⟨above', g, stack', bound'⟩ | ⟨error, stack', control'⟩
      · exact .inl (.crosses stack' bound' sofar' shows')
      · have rests := run.rests_of_settles bound.machine? bound.role? rfl stack stack'
          (by rw [control']; rfl)
        exact .inl (.settles (stack'.trans (List.nil_append _).symm) rests (.failed error) sofar')

/-- While the observers are told of the transition, no other one is committed. -/
theorem Config.SeesTo.of_publishes {above : List (Frame H)} {change : Change}
    {rest : List (Registration (Observer H))} (run : p.Run w past c) (calm : c.IsCalm)
    (h : p.step c = some c') (stack : c.stack = above ++ .publishing m change rest :: z.stack)
    (accounts : Accounts p m source e z.world z.stack passed
      (.ok (.transitioned change.previous change.state)) (some change))
    (sofar : handled m passed = Handling.trace ⟨source, e, some change⟩) :
    z.SeesTo p m source e (passed ++ [c]) c' := by
  by_cases busy : above ≠ [] ∨ c.control.isEnd = false
  · obtain ⟨routes, installs⟩ := run.quiet_above stack busy
      (by rw [roles_publishing]; exact List.mem_cons_self ..) rfl
    have sofar' := (handled_concat_of_quiet passed routes
      (Config.not_commits_of_not_installs installs)).trans sofar
    obtain ⟨above', stack'⟩ := (run.course h).stays stack busy
    exact .inl (.publishes stack' accounts.mono sofar')
  · obtain ⟨rfl, a, control, resumes⟩ := Config.resume_of_idle h busy calm stack (by simp)
    have routes : ¬c.Routes m := Config.not_routes_of_control (by rw [control]; rfl)
    have installs : ¬c.Installs m := Config.not_installs_of_top stack (by simp)
    have sofar' := (handled_concat_of_quiet passed routes
      (Config.not_commits_of_not_installs installs)).trans sofar
    have next {host : H}
        (goes : Config.publishNext m change rest ⟨c.world, host, c.control, z.stack⟩ = c') :
        z.SeesTo p m source e (passed ++ [c]) c' := by
      cases rest with
      | nil =>
        cases goes
        exact .inr ⟨_, _, rfl, rfl, accounts.mono, sofar'⟩
      | cons r rest =>
        have stack' : c'.stack = .publishing m change rest :: z.stack := by
          rw [← goes, Config.publishNext]
          split
          · rfl
          · unfold Config.notify
            split <;> rfl
        exact .inl (.publishes (stack'.trans (List.nil_append _).symm) accounts.mono sofar')
    cases a with
    | result r =>
      cases r with
      | ok => exact next (Option.some.inj resumes)
      | error fault => exact next (Option.some.inj resumes)
    | _ => cases resumes

/-- While an answer waits for a release or a stop, no event is handled. -/
theorem Config.SeesTo.of_settles {above : List (Frame H)} {r : Except MachineError Delivery}
    {change : Option Change} (run : p.Run w past c) (calm : c.IsCalm) (h : p.step c = some c')
    (drain : .drain ∈ roles m z.stack)
    (stack : c.stack = above ++ .settling (.gave (.delivered r)) :: z.stack)
    (rests : c.routings m = 0) (accounts : Accounts p m source e z.world z.stack passed r change)
    (sofar : handled m passed = Handling.trace ⟨source, e, change⟩) :
    z.SeesTo p m source e (passed ++ [c]) c' := by
  obtain ⟨routes, commits⟩ := Config.quiet_of_rests rests
  have sofar' := (handled_concat_of_quiet passed routes commits).trans sofar
  by_cases busy : above ≠ [] ∨ c.control.isEnd = false
  · obtain ⟨above', stack'⟩ := (run.course h).stays stack busy
    have rests' := run.rests_step h stack busy (by rw [roles_settling]; exact drain) rests
    exact .inl (.settles stack' rests' accounts.mono sofar')
  · obtain ⟨rfl, a, control, resumes⟩ := Config.resume_of_idle h busy calm stack (by simp)
    cases resumes
    exact .inr ⟨_, _, rfl, rfl, accounts.mono, sofar'⟩

/-- To route an event is to collect its target, or to ignore it. -/
theorem Config.SeesTo.of_begins (run : p.Run w past z) (h : p.step z = some c')
    (control : z.control = .route m source e) : z.SeesTo p m source e [z] c' := by
  obtain ⟨cell, found⟩ := run.grounded.control (m := m) (by rw [control]; rfl)
  have deed : z.deed? m = some (.routed source e) := by simp [Config.deed?, found, control]
  have sofar : handled m [z] = [.routed source e] := by
    rw [handled_singleton, deed]
    rfl
  obtain ⟨host, step⟩ := p.step_route found control
  rw [h] at step
  cases leads : cell.target? source e.kind with
  | none =>
    rw [leads] at step
    cases step
    exact .inr ⟨_, _, rfl, rfl, .ignored, sofar⟩
  | some target =>
    rw [leads] at step
    cases step
    exact .inl (.collects found leads (.here rfl rfl .refl) sofar rfl)

/-- An event that is being handled goes on being handled until it is answered. -/
theorem Config.Handles.step (handles : z.Handles p m source e passed c) (run : p.Run w past c)
    (calm : c.IsCalm) (h : p.step c = some c') (control : z.control = .route m source e)
    (drain : .drain ∈ roles m z.stack) : z.SeesTo p m source e (passed ++ [c]) c' := by
  cases handles with
  | begins none here =>
    subst none
    subst here
    exact .of_begins run h control
  | collects found leads gathering sofar shows =>
    exact .of_collects run calm h found leads gathering sofar shows
  | crosses stack bound sofar shows => exact .of_crosses run calm h stack bound sofar shows
  | publishes stack accounts sofar => exact .of_publishes run calm h stack accounts sofar
  | settles stack rests accounts sofar =>
    exact .of_settles run calm h drain stack rests accounts sofar

end OneEvent

/-! ## One send -/

/-- The own event of the send at `x` was handled as `own`, and its answer `r` was there before any
other event was routed; `seen` was passed since `x`. -/
structure Decided (p : Program H) (m : MachineId) (source : SourceId) (e : Event) (x : Config H)
    (seen : List (Config H)) (r : Except MachineError Delivery) (own : Handling) : Prop where
  event : own.source = source ∧ own.event = e
  accounts : Accounts p m source e x.world (.draining m e.kind none :: x.stack) seen r own.change
  first : ∃ early y rest, seen = early ++ y :: rest ∧ y.control = .give (.delivered r) ∧
    y.stack = .draining m e.kind none :: x.stack ∧ handled m early = own.trace

/-- How far the send at `x`, which claimed the inbox, has come; `seen` was passed since. -/
inductive Config.Drains (p : Program H) (m : MachineId) (source : SourceId) (e : Event)
    (x : Config H) (seen : List (Config H)) (c : Config H) : Prop where
  /-- Its own event is handled. -/
  | own {z : Config H} (control : z.control = .route m source e)
      (stack : z.stack = .draining m e.kind none :: x.stack)
      (world : z.world = x.world.modifyMachine m MachineCell.beginDraining)
      (sees : z.SeesTo p m source e seen c) : Drains p m source e x seen c
  /-- An event is handled that waited. -/
  | later {first passed : List (Config H)} {own : Handling} {done : List Handling}
      {r : Except MachineError Delivery} {z : Config H} {s : SourceId} {f : Event}
      (split : seen = first ++ passed) (decided : Decided p m source e x first r own)
      (sofar : handled m first = (own :: done).flatMap Handling.trace)
      (control : z.control = .route m s f)
      (stack : z.stack = .draining m f.kind (some r) :: x.stack)
      (sees : z.SeesTo p m s f passed c) : Drains p m source e x seen c
  | ended {own : Handling} {done : List Handling} {r : Except MachineError Delivery}
      (decided : Decided p m source e x seen r own)
      (sofar : handled m seen = (own :: done).flatMap Handling.trace)
      (control : c.control = .give (.delivered r)) (stack : c.stack = x.stack) :
      Drains p m source e x seen c

section OneSend

variable {source : SourceId} {e : Event} {w : World H} {past seen more : List (Config H)}
  {x z c c' : Config H} {base : List (Frame H)} {r : Except MachineError Delivery} {own : Handling}
  {done : List Handling} {change : Option Change}

theorem Decided.mono (decided : Decided p m source e x seen r own) :
    Decided p m source e x (seen ++ more) r own where
  event := decided.event
  accounts := decided.accounts.mono
  first := by
    obtain ⟨early, y, rest, split, here⟩ := decided.first
    exact ⟨early, y, rest ++ more, by rw [split, List.append_assoc]; rfl, here⟩

/-- To claim the inbox changes nothing that an event is routed against. -/
theorem Accounts.of_claim
    (accounts : Accounts p m source e (w.modifyMachine m MachineCell.beginDraining) base seen r
      change) : Accounts p m source e w base seen r change := by
  have shown : (w.modifyMachine m MachineCell.beginDraining).shown? m = w.shown? m := by
    rw [World.shown?, World.machine?_modifyMachine, if_pos rfl, Option.map_map]
    rfl
  cases accounts with
  | transitioned resolved leaves reaches =>
    obtain ⟨⟨cell, target, found, leads⟩, collected⟩ := resolved
    rw [World.machine?_modifyMachine, if_pos rfl, Option.map_eq_some_iff] at found
    obtain ⟨cell, found, rfl⟩ := found
    exact .transitioned ⟨⟨cell, target, found, leads⟩, collected⟩ (shown ▸ leaves) reaches
  | ignored => exact .ignored
  | failed error => exact .failed error

theorem Config.SeesTo.suffix (sees : z.SeesTo p m source e seen c) :
    ∃ above, c.stack = above ++ z.stack := by
  rcases sees with handles | ⟨r, change, ended⟩
  · exact handles.suffix
  · exact ⟨[], ended.stack⟩

theorem Config.Drains.suffix (drains : x.Drains p m source e seen c) :
    ∃ above, c.stack = above ++ x.stack := by
  cases drains with
  | own control stack world sees | later split decided sofar control stack sees =>
    obtain ⟨above, top⟩ := sees.suffix
    exact ⟨above ++ [_], by rw [top, stack, List.append_assoc]; rfl⟩
  | ended decided sofar control stack => exact ⟨[], stack⟩

/-- The next event that waits is handled, or the send is answered. -/
theorem Config.drains_drain (decided : Decided p m source e x seen r own)
    (sofar : handled m seen = (own :: done).flatMap Handling.trace) (stack : c.stack = x.stack) :
    x.Drains p m source e seen (c.drain m r) := by
  unfold drain
  split
  · exact .ended decided sofar rfl stack
  · exact .later (List.append_nil _).symm decided sofar rfl
      (congrArg (List.cons _) stack) (.inl (.begins rfl rfl))

/-- When the answer to an event is there, nothing is handled. -/
theorem Config.HandlesTo.handled_concat {kind : String}
    {first : Option (Except MachineError Delivery)}
    (ended : z.HandlesTo p m source e seen c r change)
    (stack : z.stack = .draining m kind first :: base) :
    handled m (seen ++ [c]) = Handling.trace ⟨source, e, change⟩ := by
  have routes : ¬c.Routes m := Config.not_routes_of_control (by rw [ended.control]; rfl)
  have installs : ¬c.Installs m :=
    Config.not_installs_of_top (ended.stack.trans stack) (by simp)
  exact (handled_concat_of_quiet seen routes (Config.not_commits_of_not_installs installs)).trans
    ended.sofar

theorem Config.Drains.step (drains : x.Drains p m source e seen c) (run : p.Run w past c)
    (calm : c.IsCalm) (h : p.step c = some c') (covered : c.stack ≠ x.stack) :
    x.Drains p m source e (seen ++ [c]) c' := by
  cases drains with
  | ended decided sofar control stack => exact absurd stack covered
  | @own z control stack world sees =>
    rcases sees with handles | ⟨r, change, ended⟩
    · refine .own control stack world (handles.step run calm h control ?_)
      rw [stack, roles_draining]
      exact List.mem_cons_self ..
    · have sofar : handled m (seen ++ [c]) = List.flatMap Handling.trace [⟨source, e, change⟩] := by
        rw [ended.handled_concat stack, List.flatMap_singleton]
      have decided : Decided p m source e x (seen ++ [c]) r ⟨source, e, change⟩ := by
        refine ⟨⟨rfl, rfl⟩, ?_, seen, c, [], rfl, ended.control, ended.stack.trans stack, ended.sofar⟩
        have accounts := ended.accounts
        rw [world, stack] at accounts
        exact accounts.of_claim.mono
      have top := ended.stack.trans stack
      have gives := ended.control
      obtain ⟨w, host, ctl, fs⟩ := c
      cases top
      cases gives
      cases h
      exact Config.drains_drain decided sofar rfl
  | @later first passed own done r z s f split decided sofar control stack sees =>
    rcases sees with handles | ⟨r', change, ended⟩
    · refine .later (by rw [split, List.append_assoc]) decided sofar control stack
        (handles.step run calm h control ?_)
      rw [stack, roles_draining]
      exact List.mem_cons_self ..
    · have sofar' : handled m (seen ++ [c]) =
          (own :: (done ++ [⟨s, f, change⟩])).flatMap Handling.trace := by
        rw [split, List.append_assoc, handled_append, sofar, ended.handled_concat stack,
          ← List.cons_append, List.flatMap_append]
        simp
      have decided' : Decided p m source e x (seen ++ [c]) r own := by
        rw [split, List.append_assoc]
        exact decided.mono
      have top := ended.stack.trans stack
      have gives := ended.control
      obtain ⟨w, host, ctl, fs⟩ := c
      cases top
      cases gives
      cases h
      exact Config.drains_drain decided' sofar' (by cases r' <;> rfl)

end OneSend

/-! ## The answer -/

/-- What the answer `r` to the send at `x` tells, which claimed the inbox and is answered at `c`:
its own event was handled as `own`, and `later` are the events that were handled behind it. -/
structure Told (p : Program H) (m : MachineId) (source : SourceId) (e : Event) (x : Config H)
    (span : List (Config H)) (c : Config H) (r : Except MachineError Delivery) (own : Handling)
    (later : List Handling) : Prop where
  event : own.source = source ∧ own.event = e
  /-- Until then each event was routed in its turn, and for each one at most one transition was
  committed. -/
  all : handled m (x :: span) = (own :: later).flatMap Handling.trace
  /-- The answer was there before any other event was routed, so that it is no other one's. -/
  early : ∃ early y rest, span = early ++ y :: rest ∧ y.control = .give (.delivered r) ∧
    y.stack = .draining m e.kind none :: x.stack ∧ handled m (x :: early) = own.trace
  notQueued : r ≠ .ok .queued
  transitioned : (∃ s t, r = .ok (.transitioned s t)) ↔ own.change.isSome
  unmoved : r = .ok .ignored ∨ (∃ error, r = .error error) ↔ own.change = none
  /-- The transition leads from the state shown at the send to the one that the target resolved
  to. -/
  ends {s t : String} (moved : r = .ok (.transitioned s t)) :
    x.world.shown? m = some s ∧ ∃ y : Collected (Entry H), t = y.name ∧
      ResolvesTo p m source e x.world (.draining m e.kind none :: x.stack) span y
  /-- Each event counts that a transition was committed for. -/
  grows : ∃ cell cell', x.world.machine? m = some cell ∧ c.world.machine? m = some cell' ∧
    cell'.snapshot.transitions =
      cell.snapshot.transitions + (own :: later).countP (·.change.isSome)

/-- What the answers to the send at `x` tell. -/
structure TellsOwn (p : Program H) (m : MachineId) (source : SourceId) (e : Event) (w : World H)
    (before : List (Config H)) (x : Config H) : Prop where
  /-- While another send is under way the event is put in the queue, and nothing else is done. -/
  queued (nested : x.IsSending m) :
    p.step x = some ⟨x.world.modifyMachine m (MachineCell.enqueue source e),
      p.subscriber (.queued e.kind) x.host, .give (.delivered (.ok .queued)), x.stack⟩
  /-- Otherwise the answer tells what the own event did. -/
  answered (outermost : ¬x.IsSending m) {span : List (Config H)} {c : Config H} {a : Answer}
    (run : p.Run w (before ++ x :: span) c) (stays : ∀ y ∈ span, y.stack ≠ x.stack)
    (stack : c.stack = x.stack) (gives : c.control = .give a) :
    ∃ r own later, a = .delivered r ∧ Told p m source e x span c r own later

section Tells

variable {source : SourceId} {e : Event} {w : World H} {before span : List (Config H)}
  {x c : Config H} {r : Except MachineError Delivery} {own : Handling} {later : List Handling}

/-- The transitions that a machine shows grow by those that it commits. -/
theorem Program.Run.transitions_grow {cell cell' : MachineCell H}
    (run : p.Run w (before ++ x :: span) c) (found : x.world.machine? m = some cell)
    (found' : c.world.machine? m = some cell') :
    cell'.snapshot.transitions =
      cell.snapshot.transitions + (commits (deeds m (x :: span))).length := by
  have begun : p.Run w before x := run.earlier ⟨span ++ [c], by simp⟩
  have first := begun.recorded (m := m)
  have last := run.recorded (m := m)
  simp only [Config.Recorded, found] at first
  simp only [Config.Recorded, found'] at last
  have sequence : cell.sequence = _ := first.1.sequence
  have sequence' : cell'.sequence = _ := last.1.sequence
  rw [MachineCell.snapshot, MachineCell.snapshot, sequence, sequence', deeds, List.filterMap_append,
    commits, List.filterMap_append, List.length_append]
  rfl

/-- A send handles no event itself. -/
theorem handled_cons_send (sends : x.control = .send m source e) (span : List (Config H)) :
    handled m (x :: span) = handled m span := by
  rw [← List.singleton_append, handled_append]
  have quiet := handled_concat_of_quiet (m := m) (c := x) []
    (by rintro ⟨_, _, routes⟩; cases sends.symm.trans routes)
    (Config.not_commits_of_not_installs (by rintro ⟨ended, _⟩; rw [sends] at ended; cases ended))
  rw [show handled m [x] = [] from quiet, List.nil_append]

/-- A send that claims the inbox routes its own event first. -/
theorem Program.Run.drains_of_send (run : p.Run w before x) (sends : x.control = .send m source e)
    (outermost : ¬x.IsSending m) (h : p.step x = some c) : x.Drains p m source e [] c := by
  obtain ⟨cell, found⟩ := run.grounded.control (m := m) (by rw [sends]; rfl)
  have free : cell.inbox.draining = false :=
    Bool.eq_false_iff.2 fun claimed => outermost ((run.draining_iff found).1 claimed)
  obtain ⟨world, host, ctl, fs⟩ := x
  cases sends
  have found : world.machine? m = some cell := found
  simp only [Program.step, Config.performSend, found, free, Bool.false_eq_true, if_false] at h
  cases h
  exact .own rfl rfl rfl (.inl (.begins rfl rfl))

/-- An answer that was decided by the own event tells what that event did. -/
theorem Decided.told {cell cell' : MachineCell H} (decided : Decided p m source e x span r own)
    (run : p.Run w (before ++ x :: span) c) (sends : x.control = .send m source e)
    (found : x.world.machine? m = some cell) (found' : c.world.machine? m = some cell')
    (sofar : handled m span = (own :: later).flatMap Handling.trace) :
    Told p m source e x span c r own later := by
  have all := (handled_cons_send sends span).trans sofar
  obtain ⟨event, accounts, early, y, rest, split, gives, stack, first⟩ := decided
  have grown := run.transitions_grow found found'
  rw [← commits_handled, all, length_commits_flatMap] at grown
  obtain ⟨s, f, change⟩ := own
  have first := (handled_cons_send sends early).trans first
  refine ⟨event, all, ⟨early, y, rest, split, gives, stack, first⟩, ?_, ?_, ?_, ?_, cell, cell',
    found, found', grown⟩
  · cases accounts <;> nofun
  · cases accounts <;> simp
  · cases accounts <;> simp
  · intro s t moved
    cases accounts with
    | transitioned resolved leaves reaches =>
      cases moved
      exact ⟨leaves, _, reaches, resolved⟩
    | ignored | failed => cases moved

/-- The answer to a send tells what its own event did: it was queued, if another send of the machine
is under way; otherwise it is what the routing of that event came to, whatever else is routed
meanwhile. -/
theorem Program.Run.tells_own (run : p.Run w before x) (sends : x.control = .send m source e) :
    TellsOwn p m source e w before x where
  queued nested := by
    obtain ⟨cell, found⟩ := run.grounded.control (m := m) (by rw [sends]; rfl)
    have claimed := (run.draining_iff found).2 nested
    obtain ⟨world, host, ctl, fs⟩ := x
    cases sends
    have found : world.machine? m = some cell := found
    simp only [Program.step, Config.performSend, found, claimed, if_true]
    rfl
  answered outermost {span c a} later stays stack gives := by
    have going : ¬x.IsOver := by
      rintro ⟨_, ⟨_, control⟩ | ⟨_, control⟩⟩ <;> rw [sends] at control <;> cases control
    have calm := later.calm_of_returns rfl (by rw [sends]; rfl) stays stack gives
    let P (seen : List (Config H)) (c : Config H) : Prop := x.Drains p m source e seen c
    have drains : P span c := by
      refine later.above_induction (P := P) rfl going stays Config.Drains.suffix
        (run.drains_of_send sends outermost) ?_
      intro seen c c' run inside h drains
      exact drains.step run (calm c inside) h (stays c inside)
    -- the call that makes the send holds the machine
    obtain ⟨cell, found⟩ := run.grounded.control (m := m) (by rw [sends]; rfl)
    have fits := ((run.poised m).posture found).fits
    rw [sends] at fits
    have held : .hold ∈ roles m c.stack := stack ▸ List.mem_of_head? (fits rfl)
    obtain ⟨f, mem, _⟩ := List.mem_filterMap.1 held
    obtain ⟨mem, works⟩ := List.mem_filter.1 mem
    obtain ⟨cell', found'⟩ := later.grounded.frame mem (Frame.concerns_iff.1 works)
    have longer {z : Config H} {kind : String} {first : Option (Except MachineError Delivery)}
        (below : ∃ above, c.stack = above ++ z.stack)
        (top : z.stack = .draining m kind first :: x.stack) : False := by
      obtain ⟨above, below⟩ := below
      have longer := congrArg List.length (stack.symm.trans below)
      rw [top] at longer
      simp at longer
      omega
    cases drains with
    | own _ top _ sees => exact (longer sees.suffix top).elim
    | later _ _ _ _ top sees => exact (longer sees.suffix top).elim
    | @ended own done r decided sofar control =>
      cases gives.symm.trans control
      exact ⟨r, own, done, rfl, decided.told later sends found found' sofar⟩

end Tells

namespace Lamp

/-- A lamp that goes on, and whose fuse is gone when it is switched again. -/
def worn : Program Unit where
  declared key :=
    if key = "fuse" then .finish (.error (.plain "no fuse"))
    else
      .yield (.listenTo switch (.ofList ["toggle"])) <|
        .yield (.moveTo "toggle" (if key = "off" then on else .shared "fuse" "Fuse")) <|
          .finish (.ok ())
  subscriber _ h := h

/-- Start the lamp, and operate the switch again whenever the lamp has changed. -/
def flicker : Script Unit :=
  .call (.start off {} none) fun _ =>
    .call (.newScope none) fun
      | .scope s =>
        .call (.observe ⟨0⟩ (fun _ => .call (.emit 0 { kind := "toggle" }) fun _ => .ok) s) fun _ =>
          .call (.emit 0 { kind := "toggle" }) fun _ => .ok
      | _ => .ok

/-- Where the run of the worn lamp begins. -/
def flickering : Config Unit := { world, host := (), control := .run flicker }

theorem flickering_run (n : Nat) :
    worn.Run world (worn.trail n flickering) (worn.run n flickering) :=
  (Program.Run.begin world_isFresh () flicker).trail n

end Lamp

/-- The first send tells that the lamp went on, although the event that was queued meanwhile
fails. -/
theorem Program.Run.tells_own_flicker :
    let toggle : Event := { kind := "toggle" }
    let x := Lamp.worn.run 14 Lamp.flickering
    let y := Lamp.worn.run 28 Lamp.flickering
    x.control = .send ⟨0⟩ Lamp.switch.id toggle ∧ y.control = .send ⟨0⟩ Lamp.switch.id toggle ∧
      (∃ host, Lamp.worn.step y = some ⟨y.world.modifyMachine ⟨0⟩ (.enqueue Lamp.switch.id toggle),
        host, .give (.delivered (.ok .queued)), y.stack⟩) ∧
      ∃ own later, Told Lamp.worn ⟨0⟩ Lamp.switch.id toggle x
        (Lamp.worn.trail 24 (Lamp.worn.run 15 Lamp.flickering)) (Lamp.worn.run 39 Lamp.flickering)
        (.ok (.transitioned "Off" "On")) own later := by
  intro toggle x y
  have first : TellsOwn Lamp.worn ⟨0⟩ Lamp.switch.id toggle Lamp.world
      (Lamp.worn.trail 14 Lamp.flickering) x := (Lamp.flickering_run 14).tells_own rfl
  have second : TellsOwn Lamp.worn ⟨0⟩ Lamp.switch.id toggle Lamp.world
      (Lamp.worn.trail 28 Lamp.flickering) y := (Lamp.flickering_run 28).tells_own rfl
  have nested : y.IsSending ⟨0⟩ := ((Lamp.flickering_run 28).draining_iff rfl).1 rfl
  have outermost : ¬x.IsSending ⟨0⟩ := by
    intro sending
    cases ((Lamp.flickering_run 14).draining_iff rfl).2 sending
  let span := Lamp.worn.trail 24 (Lamp.worn.run 15 Lamp.flickering)
  have higher : ∀ y ∈ span, 4 < y.stack.length := by decide
  have stays : ∀ y ∈ span, y.stack ≠ x.stack := by
    intro y mem same
    have high := higher y mem
    rw [same] at high
    exact absurd high (by decide)
  obtain ⟨r, own, later, gives, told⟩ :=
    first.answered outermost (Lamp.flickering_run 39) stays rfl rfl
  cases gives
  exact ⟨rfl, rfl, ⟨_, second.queued nested⟩, own, later, told⟩

end ScopedMachine

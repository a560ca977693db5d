import ScopedMachine.Proofs.Grips

/-!
# How a step goes on with the stack

The frames below the top of the stack do not matter to a step: it puts frames on top, or takes the
top frame off when the activity above it has ended. `Course` says which, and what becomes of the
releases under way and of the counts of scopes, which `Move` leaves out.
-/

namespace ScopedMachine

variable {H : Type} {p : Program H}

/-! ## Growing stacks -/

/-- The scope that a frame releases, and the teardowns that are left. -/
def Frame.release? : Frame H → Option (ScopeId × List (Teardown H))
  | .releasing s ts => some (s, ts)
  | _ => none

/-- Who owns a scope and who counts its release. -/
def World.holder? (w : World H) (s : ScopeId) : Option (Option MachineId × Option ManagerId) :=
  (w.scope? s).map fun cell => (cell.owner, cell.manager)

/-- Whether an activity has ended: there is an answer, a panic, or a collection that is over. -/
def Control.isEnd : Control H → Bool
  | .give _ | .panic _ | .gather (.done _) => true
  | _ => false

/-- Frames that release nothing are put on top, and no scope is made or counted. -/
structure Config.Grows (c c' : Config H) : Prop where
  stack : ∃ fs, (∀ f ∈ fs, f.release? = none) ∧ c'.stack = fs ++ c.stack
  managers : c'.world.managers = c.world.managers
  holder (s : ScopeId) : c'.world.holder? s = c.world.holder? s

namespace World

variable {w : World H} {s token : ScopeId}

theorem holder?_modifyScope {f : ScopeCell H → ScopeCell H}
    (keeps : ∀ cell, (f cell).owner = cell.owner ∧ (f cell).manager = cell.manager) :
    (w.modifyScope token f).holder? s = w.holder? s := by
  rw [holder?, holder?, scope?_modifyScope]
  split
  · rw [Option.map_map]
    congr 1
    funext cell
    exact Prod.ext (keeps cell).1 (keeps cell).2
  · rfl

theorem holder?_addTeardown {t : Teardown H} : (w.addTeardown token t).holder? s = w.holder? s :=
  holder?_modifyScope fun _ => ⟨rfl, rfl⟩

theorem holder?_register {slot : Nat} {topic : String} {l : Listener H} :
    (w.register slot topic token l).holder? s = w.holder? s := by
  unfold register
  split
  · rfl
  · split
    · rfl
    · exact holder?_addTeardown

theorem holder?_arm {slot : Nat} {kind : String} {after : Span} :
    (w.arm slot kind after token).holder? s = w.holder? s := by
  unfold arm
  split
  · rfl
  · split
    · rfl
    · exact holder?_addTeardown

theorem holder?_addObserver {m : MachineId} {o : Observer H} :
    (w.addObserver m token o).holder? s = w.holder? s := by
  unfold addObserver
  split
  · rfl
  · split
    · rfl
    · exact holder?_addTeardown

theorem holder?_addScope {owner : Option MachineId} {manager : Option ManagerId} :
    (w.addScope owner manager).2.holder? s =
      if s = ⟨w.scopes.size⟩ then some (owner, manager) else w.holder? s := by
  have scopes : (w.addScope owner manager).2.scopes = w.scopes.push { owner, manager } := by
    cases manager <;> rfl
  rw [holder?, holder?, scope?, scope?, scopes, Array.getElem?_push]
  have place : s = ⟨w.scopes.size⟩ ↔ s.index = w.scopes.size := ScopeId.index_inj.symm
  by_cases hs : s.index = w.scopes.size
  · rw [if_pos hs, if_pos (place.2 hs)]
    rfl
  · rw [if_neg hs, if_neg (mt place.1 hs)]

theorem managers_register {slot : Nat} {topic : String} {l : Listener H} :
    (w.register slot topic token l).managers = w.managers := by
  unfold register
  split
  · rfl
  · split <;> rfl

theorem managers_arm {slot : Nat} {kind : String} {after : Span} :
    (w.arm slot kind after token).managers = w.managers := by
  unfold arm
  split
  · rfl
  · split <;> rfl

theorem managers_addObserver {m : MachineId} {o : Observer H} :
    (w.addObserver m token o).managers = w.managers := by
  unfold addObserver
  split
  · rfl
  · split <;> rfl

end World

namespace Config.Grows

variable {c c' : Config H} {f g : Frame H}

/-- Nothing is put on top. -/
theorem same (stack : c'.stack = c.stack) (managers : c'.world.managers = c.world.managers)
    (holder : ∀ s, c'.world.holder? s = c.world.holder? s) : c.Grows c' :=
  ⟨⟨[], List.forall_mem_nil _, stack⟩, managers, holder⟩

/-- One frame is put on top. -/
theorem one (free : f.release? = none) (stack : c'.stack = f :: c.stack)
    (managers : c'.world.managers = c.world.managers)
    (holder : ∀ s, c'.world.holder? s = c.world.holder? s) : c.Grows c' :=
  ⟨⟨[f], by simpa using free, stack⟩, managers, holder⟩

/-- Two frames are put on top. -/
theorem two (free : f.release? = none) (free' : g.release? = none)
    (stack : c'.stack = f :: g :: c.stack) (managers : c'.world.managers = c.world.managers)
    (holder : ∀ s, c'.world.holder? s = c.world.holder? s) : c.Grows c' :=
  ⟨⟨[f, g], by simpa using ⟨free, free'⟩, stack⟩, managers, holder⟩

theorem trans {c'' : Config H} (grows : c.Grows c') (grows' : c'.Grows c'') : c.Grows c'' where
  stack := by
    obtain ⟨fs, free, stack⟩ := grows.stack
    obtain ⟨gs, free', stack'⟩ := grows'.stack
    refine ⟨gs ++ fs, fun h hh => ?_, by rw [stack', stack, List.append_assoc]⟩
    rcases List.mem_append.1 hh with hh | hh
    · exact free' h hh
    · exact free h hh
  managers := grows'.managers.trans grows.managers
  holder s := (grows'.holder s).trans (grows.holder s)

end Config.Grows

/-! ## Operations -/

namespace Config

variable {c : Config H} {m : MachineId}

theorem grows_releaseActivation {a : Option (Activation H)} : c.Grows (c.releaseActivation a) := by
  cases a <;> exact .same rfl rfl fun _ => rfl

theorem grows_settle {o : Outcome} : c.Grows (c.settle o) := by
  cases o <;> exact .same rfl rfl fun _ => rfl

theorem grows_performStop : c.Grows (c.performStop m) := by
  unfold performStop
  split
  · exact .same rfl rfl fun _ => rfl
  · split
    · exact .same rfl rfl fun _ => rfl
    · have stops : c.Grows ((c.mapWorld (World.modifyMachine m MachineCell.stop)).push (.stopping m)) :=
        .one rfl rfl rfl fun _ => rfl
      exact stops.trans grows_releaseActivation

theorem grows_dismantle {o : Outcome} : c.Grows (c.dismantle m o) := by
  have begins : c.Grows (((c.mapWorld (World.modifyMachine m MachineCell.clearCurrent)).push
      (.settling o)).push (.dismantling m)) := .two rfl rfl rfl rfl fun _ => rfl
  exact begins.trans grows_releaseActivation

theorem grows_settleHandle {o : Outcome} : c.Grows (c.settleHandle m o) := by
  unfold settleHandle
  split
  · exact grows_settle
  · exact grows_dismantle

theorem grows_unpin {o : Outcome} : c.Grows (c.unpin m o) := by
  have gives : c.Grows (c.mapWorld (World.modifyMachine m MachineCell.unpin)) :=
    .same rfl rfl fun _ => rfl
  exact gives.trans grows_settleHandle

theorem grows_performTeardown {t : Teardown H} : c.Grows (c.performTeardown t) := by
  cases t with
  | stop m =>
    simp only [performTeardown]
    split
    · exact .one rfl rfl rfl fun _ => rfl
    · exact .same rfl rfl fun _ => rfl
  | _ => exact .same rfl rfl fun _ => rfl

theorem grows_onCancel {scope : ScopeId} {t : Teardown H} : c.Grows (c.onCancel scope t) := by
  unfold onCancel
  split
  · exact grows_performTeardown
  · exact .same rfl rfl fun _ => World.holder?_addTeardown

theorem grows_performRoute {source : SourceId} {e : Event} :
    c.Grows (c.performRoute p m source e) := by
  unfold performRoute
  repeat' split
  all_goals first | exact .same rfl rfl fun _ => rfl | exact .one rfl rfl rfl fun _ => rfl

theorem grows_performSend {source : SourceId} {e : Event} :
    c.Grows (c.performSend p m source e) := by
  unfold performSend
  repeat' split
  all_goals first | exact .same rfl rfl fun _ => rfl | exact .one rfl rfl rfl fun _ => rfl

theorem grows_forward {source : SourceId} {e : Event} : c.Grows (c.forward m source e) := by
  unfold forward
  split
  · exact .two rfl rfl rfl rfl fun _ => rfl
  · exact .same rfl rfl fun _ => rfl

theorem grows_drain {first : Except MachineError Delivery} : c.Grows (c.drain m first) := by
  unfold drain
  split
  · exact .same rfl rfl fun _ => rfl
  · exact .one rfl rfl rfl fun _ => rfl

theorem grows_dispatchNext {e : Event} {ls : List (Registration (Listener H))} {report : Report} :
    c.Grows (c.dispatchNext e ls report) := by
  cases ls with
  | nil => exact .same rfl rfl fun _ => rfl
  | cons r rest =>
    simp only [dispatchNext]
    split
    · exact .one rfl rfl rfl fun _ => rfl
    · have calls : c.Grows (c.push (.dispatching e rest
          { report with delivered := report.delivered + 1 })) := .one rfl rfl rfl fun _ => rfl
      refine calls.trans ?_
      unfold invoke
      split
      · exact grows_forward
      · exact .same rfl rfl fun _ => rfl

theorem grows_emit {slot : Nat} {e : Event} : c.Grows (c.emit p slot e) := by
  unfold emit
  split
  · exact .same rfl rfl fun _ => rfl
  · exact .one rfl rfl rfl fun _ => rfl

theorem grows_publishNext {change : Change} {os : List (Registration (Observer H))} :
    c.Grows (c.publishNext m change os) := by
  cases os with
  | nil => exact .same rfl rfl fun _ => rfl
  | cons r rest =>
    simp only [publishNext]
    split
    · exact .one rfl rfl rfl fun _ => rfl
    · unfold notify
      split <;> exact .one rfl rfl rfl fun _ => rfl

theorem grows_advanceNext {slot : Nat} {target : Span} {report : Report} :
    c.Grows (c.advanceNext p slot target report) := by
  unfold advanceNext
  split
  · exact .same rfl rfl fun _ => rfl
  · split
    · exact .same rfl rfl fun _ => rfl
    · next s _ d clock _ =>
      have ticks : c.Grows ((c.mapWorld (World.modifySource slot
          (SourceCell.modifyClock fun _ => clock))).push (.advancing slot target report)) :=
        .one rfl rfl rfl fun _ => rfl
      dsimp only
      split
      · exact ticks.trans (.same rfl rfl fun _ => rfl)
      · refine ticks.trans (.trans ?_ grows_emit)
        exact .same rfl rfl fun _ => rfl

theorem grows_actNext {state : String} {token : ScopeId} {actions : List (Entry H)} :
    c.Grows (c.actNext state token actions) := by
  cases actions with
  | nil => exact .same rfl rfl fun _ => rfl
  | cons a rest => exact .one rfl rfl rfl fun _ => rfl

theorem grows_install {a : Activation H} {stage : Stage H} : c.Grows (c.install p m a stage) := by
  unfold install
  repeat' split
  all_goals first | exact .same rfl rfl fun _ => rfl | exact .one rfl rfl rfl fun _ => rfl

theorem grows_subscribeNext {a : Activation H} {routes : List Route} {stage : Stage H} :
    c.Grows (c.subscribeNext p m a routes stage) := by
  cases routes with
  | nil =>
    have enters : c.Grows (c.record p (.entered a.collected.name a.routes.size)) :=
      .same rfl rfl fun _ => rfl
    exact enters.trans grows_install
  | cons r rest =>
    simp only [subscribeNext]
    split
    · exact .one rfl rfl rfl fun _ => rfl
    · exact .one rfl rfl World.managers_register fun _ => World.holder?_register

end Config

/-! ## What a step does -/

/-- How a step goes on. -/
inductive Course (c c' : Config H) : Prop where
  /-- Other activities begin above the one that goes on. -/
  | call (grows : c.Grows c')
  /-- The activity above the top frame has ended. -/
  | turn (f : Frame H) (rest : List (Frame H)) (stack : c.stack = f :: rest)
      (ended : c.control.isEnd) (free : f.release? = none)
      (grows : Config.Grows { c with stack := rest } c')
  /-- A counter of scopes is made. -/
  | manage (running : ∃ s, c.control = .run s)
      (stack : ∃ fs, (∀ f ∈ fs, f.release? = none) ∧ c'.stack = fs ++ c.stack)
      (managers : c'.world.managers = c.world.managers.push {})
      (holder : ∀ s, c'.world.holder? s = c.world.holder? s)
  /-- The host makes a scope. -/
  | make (manager : Option ManagerId) (k : Answer → Script H)
      (control : c.control = .run (.call (.newScope manager) k))
      (stack : c'.stack = .await k :: c.stack)
      (world : c'.world = (c.world.addScope none manager).2)
  /-- A machine makes a scope for an activation. -/
  | enter (m : MachineId) (cell : MachineCell H) (f : Frame H) (x : Collected (Entry H))
      (stage : Stage H) (rest : List (Frame H)) (found : c.world.machine? m = some cell)
      (enters : Enters m c.control f x stage) (stack : c.stack = f :: rest)
      (stack' : c'.stack = .acting x.name ⟨c.world.scopes.size⟩ x.actions ::
        .activating m x ⟨c.world.scopes.size⟩ stage :: rest)
      (world : c'.world = (c.world.addScope (some m) (some cell.manager)).2)
  /-- The release of a scope begins. -/
  | begin (s : ScopeId) (control : c.control = .release s) (live : c.world.isCancelled s = false)
      (stack : c'.stack = .releasing s (c.world.teardowns s) :: c.stack)
      (world : c'.world = c.world.cancel s)
  /-- The next teardown of a scope is performed. -/
  | perform (s : ScopeId) (t : Teardown H) (ts : List (Teardown H)) (rest : List (Frame H))
      (a : Answer) (control : c.control = .give a) (stack : c.stack = .releasing s (t :: ts) :: rest)
      (grows : Config.Grows { c with stack := .releasing s ts :: rest } c')
  /-- All teardowns of a scope are over, and the release counts. -/
  | finish (s : ScopeId) (rest : List (Frame H)) (a : Answer) (control : c.control = .give a)
      (stack : c.stack = .releasing s [] :: rest) (stack' : c'.stack = rest)
      (world : c'.world = c.world.countRelease s)
  /-- A panic ends the release of a scope before its time. -/
  | lose (s : ScopeId) (ts : List (Teardown H)) (rest : List (Frame H)) (message : String)
      (control : c.control = .panic message) (stack : c.stack = .releasing s ts :: rest)
      (next : c' = { c with stack := rest })

namespace Config

variable {m : MachineId} {w : World H} {h : H} {rest : List (Frame H)}

theorem course_activate {cell : MachineCell H} {ctl : Control H} {h' : H} {f : Frame H}
    {x : Collected (Entry H)} {stage : Stage H} (found : w.machine? m = some cell)
    (enters : Enters m ctl f x stage) :
    Course ⟨w, h, ctl, f :: rest⟩ (activate m x stage ⟨w, h', ctl, rest⟩) := by
  rw [activate_eq found]
  exact .enter m cell f x stage rest found enters rfl rfl rfl

theorem course_useCollected {purpose : Purpose}
    {r : Except DefinitionError (Collected (Entry H))}
    (grounded : ∀ m, (Frame.collecting purpose : Frame H).machine? = some m →
      ∃ cell, w.machine? m = some cell) :
    Course ⟨w, h, .gather (.done r), .collecting purpose :: rest⟩
      (useCollected p purpose r ⟨w, h, .gather (.done r), rest⟩) := by
  have ended {c' : Config H} (grows : Grows ⟨w, h, .gather (.done r), rest⟩ c') :
      Course ⟨w, h, .gather (.done r), .collecting purpose :: rest⟩ c' :=
    .turn _ rest rfl rfl rfl grows
  cases purpose with
  | view => cases r <;> exact ended (.same rfl rfl fun _ => rfl)
  | enter token =>
    cases r with
    | error e => exact ended (.same rfl rfl fun _ => rfl)
    | ok x => exact ended (.one rfl rfl rfl fun _ => rfl)
  | initial m =>
    cases r with
    | error e => exact ended (.same rfl rfl fun _ => rfl)
    | ok x =>
      obtain ⟨cell, found⟩ := grounded m rfl
      exact course_activate found .initial
  | transition m kind =>
    cases r with
    | error e => exact ended (.same rfl rfl fun _ => rfl)
    | ok x =>
      simp only [useCollected]
      refine ended ?_
      split
      · exact .same rfl rfl fun _ => rfl
      · split
        · exact .one rfl rfl rfl fun _ => rfl
        · exact .same rfl rfl fun _ => rfl

theorem course_fallBack {cell : MachineCell H} {state : String} {error : DefinitionError}
    {stage : Stage H} (found : w.machine? m = some cell) :
    Course ⟨w, h, .give .unit, .abandoning m state error stage :: rest⟩
      (fallBack p m state error stage ⟨w, h, .give .unit, rest⟩) := by
  cases stage with
  | initial => exact .turn _ rest rfl rfl rfl (.same rfl rfl fun _ => rfl)
  | commit event previous => exact course_activate found .again
  | restore target cause => exact .turn _ rest rfl rfl rfl (.one rfl rfl rfl fun _ => rfl)

theorem course_start {s : Script H} {d : Definition} {settings : Settings}
    {signal : Option ScopeId} {k : Answer → Script H} :
    Course ⟨w, h, .run s, rest⟩ (start p d settings signal ⟨w, h, .run s, .await k :: rest⟩) := by
  unfold start
  split
  · exact .call (.one rfl rfl rfl fun _ => rfl)
  · refine .manage ⟨s, rfl⟩ ⟨[.collecting (.initial _), .starting _ signal, .await k], ?_, rfl⟩ rfl
      fun _ => rfl
    simp [Frame.release?]

theorem course_call {s : Call (Script H)} {k : Answer → Script H} :
    Course ⟨w, h, .run (.call s k), rest⟩
      (p.call s (⟨w, h, .run (.call s k), .await k :: rest⟩)) := by
  -- the caller waits for the answer
  have waits {c' : Config H} (grows : Grows ⟨w, h, .run (.call s k), .await k :: rest⟩ c') :
      Course ⟨w, h, .run (.call s k), rest⟩ c' := by
    refine .call (.trans ?_ grows)
    exact .one rfl rfl rfl fun _ => rfl
  cases s with
  | newManager =>
    exact .manage ⟨_, rfl⟩ ⟨[.await k], by simp [Frame.release?], rfl⟩ rfl fun _ => rfl
  | newScope manager => exact .make manager k rfl rfl rfl
  | onCancel token t =>
    refine waits (.trans ?_ grows_onCancel)
    exact .one rfl rfl rfl fun _ => rfl
  | listen slot kind handler token =>
    simp only [Program.call]
    split
    · exact waits (.one rfl rfl rfl fun _ => rfl)
    · exact waits (.same rfl World.managers_register fun _ => World.holder?_register)
  | emit slot e => exact waits grows_emit
  | arm slot kind after token =>
    exact waits (.same rfl World.managers_arm fun _ => World.holder?_arm)
  | advance slot span =>
    simp only [Program.call, advance]
    split
    · exact waits (.same rfl rfl fun _ => rfl)
    · exact waits (.one rfl rfl rfl fun _ => rfl)
  | collect d limit | enter d limit token => exact waits (.one rfl rfl rfl fun _ => rfl)
  | start d settings signal => exact course_start
  | drop m =>
    simp only [Program.call]
    split
    · refine waits (.trans ?_ grows_settleHandle)
      exact .same rfl rfl fun _ => rfl
    · exact waits (.same rfl rfl fun _ => rfl)
  | forward m source e => exact waits grows_forward
  | observe m f token =>
    simp only [Program.call]
    split
    · exact waits (.same rfl World.managers_addObserver fun _ => World.holder?_addObserver)
    · exact waits (.same rfl rfl fun _ => rfl)
  | stream m token =>
    simp only [Program.call]
    split
    · refine waits (.same rfl ?_ fun _ => ?_)
      · exact World.managers_addObserver
      · exact World.holder?_addObserver
    · exact waits (.same rfl rfl fun _ => rfl)
  | read s => exact waits (.same rfl rfl fun _ => rfl)
  | release scope | hold m =>
    simp only [Program.call]
    split <;> exact waits (.same rfl rfl fun _ => rfl)
  | send m source e | stop m =>
    simp only [Program.call]
    split
    · exact waits (.one rfl rfl rfl fun _ => rfl)
    · exact waits (.same rfl rfl fun _ => rfl)

theorem course_runTeardowns {s : ScopeId} {ts : List (Teardown H)} {a : Answer} :
    Course ⟨w, h, .give a, .releasing s ts :: rest⟩
      (runTeardowns s ts ⟨w, h, .give a, rest⟩) := by
  cases ts with
  | nil => exact .finish s rest a rfl rfl rfl rfl
  | cons t ts => exact .perform s t ts rest a rfl rfl grows_performTeardown

theorem course_resume {f : Frame H} {a : Answer} {c' : Config H}
    (grounded : ∀ m, f.machine? = some m → ∃ cell, w.machine? m = some cell)
    (step : p.resume f a ⟨w, h, .give a, rest⟩ = some c') :
    Course ⟨w, h, .give a, f :: rest⟩ c' := by
  have ended {f : Frame H} {a : Answer} {h' : H} {c' : Config H} (free : f.release? = none)
      (grows : Grows ⟨w, h', .give a, rest⟩ c') : Course ⟨w, h, .give a, f :: rest⟩ c' := by
    refine .turn f rest rfl rfl free (.trans ?_ grows)
    exact .same rfl rfl fun _ => rfl
  have gives {f : Frame H} {a : Answer} {h' : H} {ctl : Control H} {w' : World H}
      (free : f.release? = none) (managers : w'.managers = w.managers)
      (holder : ∀ s, w'.holder? s = w.holder? s) :
      Course ⟨w, h, .give a, f :: rest⟩ ⟨w', h', ctl, rest⟩ :=
    .turn f rest rfl rfl free (.same rfl managers holder)
  unfold Program.resume at step
  split at step
  -- The frames stand in the order in which they are resumed.
  · cases step; exact gives rfl rfl fun _ => rfl
  · cases step; exact gives rfl rfl fun _ => rfl
  · cases step; exact ended rfl grows_actNext
  · cases step; exact gives rfl rfl fun _ => rfl
  · cases step; exact ended rfl (.one rfl rfl rfl fun _ => rfl)
  · cases step; exact ended rfl (.one rfl rfl rfl fun _ => rfl)
  · cases step; exact ended rfl grows_subscribeNext
  · obtain ⟨cell, found⟩ := grounded _ rfl
    cases step; exact course_fallBack found
  · obtain ⟨cell, found⟩ := grounded _ rfl
    cases step; exact course_activate found .next
  · cases step; exact ended rfl grows_publishNext
  · cases step; exact ended rfl grows_publishNext
  · cases step; exact course_runTeardowns
  · cases step; exact ended rfl grows_dispatchNext
  · cases step; exact ended rfl grows_dispatchNext
  · cases step; exact gives rfl rfl fun _ => rfl
  · cases step; exact ended rfl grows_drain
  · next r =>
    cases step
    cases r <;> exact ended rfl grows_drain
  · cases step; exact gives rfl rfl fun _ => rfl
  · cases step; exact ended rfl grows_unpin
  · cases step; exact ended rfl grows_unpin
  · cases step; exact gives rfl rfl fun _ => rfl
  · cases step
    refine .turn _ rest rfl rfl rfl (.trans ?_ grows_onCancel)
    exact .one rfl rfl rfl fun _ => rfl
  · cases step; exact gives rfl rfl fun _ => rfl
  · cases step; exact gives rfl rfl fun _ => rfl
  · cases step; exact ended rfl grows_advanceNext
  · cases step; exact ended rfl grows_settle
  · cases step

theorem course_unwind {f : Frame H} {message : String} {c' : Config H}
    (step : unwind f message ⟨w, h, .panic message, rest⟩ = some c') :
    Course ⟨w, h, .panic message, f :: rest⟩ c' := by
  have ended {f : Frame H} {c' : Config H} (free : f.release? = none)
      (grows : Grows ⟨w, h, .panic message, rest⟩ c') :
      Course ⟨w, h, .panic message, f :: rest⟩ c' :=
    .turn f rest rfl rfl free grows
  cases f with
  | activating m x scope stage | subscribing m a routes stage =>
    cases step
    exact ended rfl (.one rfl rfl rfl fun _ => rfl)
  | holding m | starting m signal | signalled m =>
    cases step
    exact ended rfl grows_unpin
  | releasing s ts =>
    cases step
    exact .lose s ts rest message rfl rfl rfl
  | settling o =>
    cases o with
    | gave a => cases step; exact ended rfl (.same rfl rfl fun _ => rfl)
    | panicked message => cases step
  | _ => cases step; exact ended rfl (.same rfl rfl fun _ => rfl)

theorem course_performRelease {s : ScopeId} :
    Course ⟨w, h, .release s, rest⟩ (performRelease s ⟨w, h, .release s, rest⟩) := by
  unfold performRelease
  split
  · exact .call (.same rfl rfl fun _ => rfl)
  · next live => exact .begin s rfl (Bool.eq_false_iff.2 live) rfl rfl

end Config

/-- Every step goes on in one of these ways. -/
theorem Program.course_of_step {c c' : Config H} (grounded : c.Grounded)
    (step : p.step c = some c') : Course c c' := by
  obtain ⟨w, h, ctl, stack⟩ := c
  cases ctl with
  | run s =>
    cases s with
    | call s k => cases step; exact Config.course_call
    | _ => cases step; exact .call (.same rfl rfl fun _ => rfl)
  | gather g =>
    cases g with
    | done r =>
      cases stack with
      | nil => cases step
      | cons f rest =>
        cases f with
        | collecting purpose =>
          cases step
          exact Config.course_useCollected fun m => grounded.frame (List.mem_cons_self ..)
        | _ => cases step
    | perform s k => cases step; exact .call (.one rfl rfl rfl fun _ => rfl)
    | look k => cases step; exact .call (.same rfl rfl fun _ => rfl)
  | release s => cases step; exact Config.course_performRelease
  | stop m => cases step; exact .call Config.grows_performStop
  | send m source e => cases step; exact .call Config.grows_performSend
  | route m source e => cases step; exact .call Config.grows_performRoute
  | give a =>
    cases stack with
    | nil => cases step
    | cons f rest =>
      exact Config.course_resume (fun m => grounded.frame (List.mem_cons_self ..)) step
  | panic message =>
    cases stack with
    | nil => cases step
    | cons f rest => exact Config.course_unwind step

theorem Program.Run.course {w : World H} {past : List (Config H)} {c c' : Config H}
    (run : p.Run w past c) (step : p.step c = some c') : Course c c' :=
  Program.course_of_step run.grounded step

/-! ## Releases among the frames -/

/-- A release that is on the stack stands below the frames that release nothing. -/
theorem split_of_free {s : ScopeId} {ts : List (Teardown H)} {fs rest above base : List (Frame H)}
    (free : ∀ f ∈ fs, f.release? = none)
    (split : fs ++ rest = above ++ .releasing s ts :: base) :
    ∃ above', above = fs ++ above' ∧ rest = above' ++ .releasing s ts :: base := by
  induction fs generalizing above with
  | nil => exact ⟨above, rfl, split⟩
  | cons f fs ih =>
    cases above with
    | nil =>
      cases split
      cases free _ (List.mem_cons_self ..)
    | cons g above =>
      obtain ⟨rfl, inner⟩ := List.cons.inj split
      obtain ⟨above', rfl, rest⟩ := ih (fun f mem => free f (List.mem_cons_of_mem _ mem)) inner
      exact ⟨above', rfl, rest⟩

/-- A release that is under way after a step was under way before, at the same place of the stack and
with no fewer teardowns left, or it began with the step. -/
theorem Course.split_release {c c' : Config H} {s : ScopeId} {us : List (Teardown H)}
    {above base : List (Frame H)} (course : Course c c')
    (split : c'.stack = above ++ .releasing s us :: base) :
    (∃ above' ts, c.stack = above' ++ .releasing s ts :: base ∧ us <:+ ts) ∨
      c.control = .release s ∧ c.world.isCancelled s = false ∧ above = [] ∧ base = c.stack ∧
        us = c.world.teardowns s := by
  -- the release stands below the frames that were put on top
  have below {fs rest : List (Frame H)} (free : ∀ f ∈ fs, f.release? = none)
      (stack' : c'.stack = fs ++ rest) :
      ∃ above', rest = above' ++ .releasing s us :: base := by
    obtain ⟨above', _, rest⟩ := split_of_free free (stack'.symm.trans split)
    exact ⟨above', rest⟩
  have push (fs : List (Frame H)) (free : ∀ f ∈ fs, f.release? = none)
      (stack' : c'.stack = fs ++ c.stack) :
      ∃ above' ts, c.stack = above' ++ .releasing s ts :: base ∧ us <:+ ts := by
    obtain ⟨above', rest⟩ := below free stack'
    exact ⟨above', us, rest, List.suffix_rfl⟩
  have pop {f : Frame H} (fs : List (Frame H)) {rest : List (Frame H)}
      (stack : c.stack = f :: rest) (free : ∀ f ∈ fs, f.release? = none) (stack' : c'.stack = fs ++ rest) :
      ∃ above' ts, c.stack = above' ++ .releasing s ts :: base ∧ us <:+ ts := by
    obtain ⟨above', rfl⟩ := below free stack'
    exact ⟨f :: above', us, stack, List.suffix_rfl⟩
  cases course with
  | call grows =>
    obtain ⟨fs, free, stack'⟩ := grows.stack
    exact .inl (push fs free stack')
  | turn f rest stack ended free grows =>
    obtain ⟨fs, free, stack'⟩ := grows.stack
    exact .inl (pop fs stack free stack')
  | manage running stack =>
    obtain ⟨fs, free, stack'⟩ := stack
    exact .inl (push fs free stack')
  | make manager k control stack' =>
    exact .inl (push [.await k] (by simp [Frame.release?]) stack')
  | enter n cell f x stage rest found enters stack stack' =>
    exact .inl (pop [_, _] stack (by simp [Frame.release?]) stack')
  | begin u control live stack' =>
    rw [stack'] at split
    cases above with
    | nil =>
      cases split
      exact .inr ⟨control, live, rfl, rfl, rfl⟩
    | cons g above => exact .inl ⟨above, us, (List.cons.inj split).2, List.suffix_rfl⟩
  | perform u t vs rest a control stack grows =>
    obtain ⟨fs, free, stack'⟩ := grows.stack
    obtain ⟨above', here⟩ := below free stack'
    refine .inl ?_
    cases above' with
    | nil =>
      cases here
      exact ⟨[], t :: us, stack, List.suffix_cons t us⟩
    | cons g above' =>
      obtain ⟨rfl, rfl⟩ := List.cons.inj here
      exact ⟨.releasing u (t :: vs) :: above', us, stack, List.suffix_rfl⟩
  | finish u rest a control stack stack' =>
    exact .inl (pop [] stack (List.forall_mem_nil _) stack')
  | lose u vs rest message control stack next =>
    subst next
    exact .inl (pop [] stack (List.forall_mem_nil _) rfl)

end ScopedMachine

import ScopedMachine.Proofs.Above
import ScopedMachine.Proofs.Ticks

/-!
# Advances under way

An advance of a clock is under way while its frame is on the stack. One begins with a call and with
nothing else, and one ends only when its frame is on top; everything else leaves the advances under way
as they are. One lemma for each operation, in the order of the engine.
-/

namespace ScopedMachine

variable {H : Type} {p : Program H}

/-- The clock that a frame advances, and its target. -/
def Frame.advance? : Frame H → Option (Nat × Span)
  | .advancing slot target _ => some (slot, target)
  | _ => none

namespace Config

/-- The advances under way, the innermost one first. -/
def advances (c : Config H) : List (Nat × Span) := c.stack.filterMap Frame.advance?

variable {c : Config H} {m : MachineId}

/-! ## Operations -/

@[simp] theorem advances_mapWorld {f : World H → World H} :
    (c.mapWorld f).advances = c.advances := rfl

@[simp] theorem advances_record {r : Record} : (c.record p r).advances = c.advances := rfl

@[simp] theorem advances_give {a : Answer} : (c.give a).advances = c.advances := rfl

@[simp] theorem advances_deliver {r : Except MachineError Delivery} :
    (c.deliver r).advances = c.advances := rfl

@[simp] theorem advances_release {s : ScopeId} : (c.release s).advances = c.advances := rfl

@[simp] theorem advances_stop : (c.stop m).advances = c.advances := rfl

@[simp] theorem advances_run {s : Script H} : (c.run s).advances = c.advances := rfl

@[simp] theorem advances_gather {g : Gather H (Except DefinitionError (Collected (Entry H)))} :
    (c.gather g).advances = c.advances := rfl

@[simp] theorem advances_panic {message : String} : (c.panic message).advances = c.advances := rfl

/-- A frame that is put on top advances a clock, or it changes nothing. -/
theorem advances_push {f : Frame H} : (c.push f).advances = f.advance?.toList ++ c.advances := by
  cases h : f.advance? <;> simp [advances, push, h]

theorem advances_push_of_none {f : Frame H} (none : f.advance? = none) :
    (c.push f).advances = c.advances := by
  rw [advances_push, none, Option.toList_none, List.nil_append]

@[simp] theorem advances_settle {o : Outcome} : (c.settle o).advances = c.advances := by
  cases o <;> rfl

@[simp] theorem advances_performRelease {s : ScopeId} :
    (c.performRelease s).advances = c.advances := by
  unfold performRelease
  split <;> rfl

@[simp] theorem advances_releaseActivation {a : Option (Activation H)} :
    (c.releaseActivation a).advances = c.advances := by
  cases a <;> rfl

@[simp] theorem advances_performStop : (c.performStop m).advances = c.advances := by
  unfold performStop
  split
  · rfl
  · split
    · rfl
    · exact advances_releaseActivation.trans (advances_push_of_none rfl)

@[simp] theorem advances_settleHandle {o : Outcome} :
    (c.settleHandle m o).advances = c.advances := by
  unfold settleHandle
  split
  · exact advances_settle
  · exact advances_releaseActivation.trans
      ((advances_push_of_none rfl).trans (advances_push_of_none rfl))

@[simp] theorem advances_unpin {o : Outcome} : (c.unpin m o).advances = c.advances :=
  advances_settleHandle

@[simp] theorem advances_performTeardown {t : Teardown H} :
    (c.performTeardown t).advances = c.advances := by
  cases t with
  | stop n =>
    unfold performTeardown
    dsimp only
    split <;> rfl
  | _ => rfl

@[simp] theorem advances_runTeardowns {s : ScopeId} {ts : List (Teardown H)} :
    (c.runTeardowns s ts).advances = c.advances := by
  cases ts with
  | nil => rfl
  | cons t ts => exact advances_performTeardown.trans (advances_push_of_none rfl)

@[simp] theorem advances_onCancel {s : ScopeId} {t : Teardown H} :
    (c.onCancel s t).advances = c.advances := by
  unfold onCancel
  split
  · exact advances_performTeardown
  · rfl

@[simp] theorem advances_performRoute {source : SourceId} {e : Event} :
    (c.performRoute p m source e).advances = c.advances := by
  unfold performRoute
  repeat' split
  all_goals rfl

@[simp] theorem advances_performSend {source : SourceId} {e : Event} :
    (c.performSend p m source e).advances = c.advances := by
  unfold performSend
  repeat' split
  all_goals rfl

@[simp] theorem advances_forward {source : SourceId} {e : Event} :
    (c.forward m source e).advances = c.advances := by
  unfold forward
  split <;> rfl

@[simp] theorem advances_drain {first : Except MachineError Delivery} :
    (c.drain m first).advances = c.advances := by
  unfold drain
  split <;> rfl

@[simp] theorem advances_invoke {l : Listener H} {e : Event} :
    (c.invoke l e).advances = c.advances := by
  cases l with
  | route n source => exact advances_forward
  | handler f => rfl

@[simp] theorem advances_dispatchNext {e : Event} {ls : List (Registration (Listener H))}
    {report : Report} : (c.dispatchNext e ls report).advances = c.advances := by
  cases ls with
  | nil => rfl
  | cons r rest =>
    unfold dispatchNext
    dsimp only
    split
    · rfl
    · exact advances_invoke.trans (advances_push_of_none rfl)

@[simp] theorem advances_emit {slot : Nat} {e : Event} :
    (c.emit p slot e).advances = c.advances := by
  unfold emit
  split <;> rfl

@[simp] theorem advances_publishNext {change : Change} {os : List (Registration (Observer H))} :
    (c.publishNext m change os).advances = c.advances := by
  cases os with
  | nil => rfl
  | cons r rest =>
    unfold publishNext
    dsimp only
    split
    · rfl
    · cases r.listener <;> rfl

@[simp] theorem advances_actNext {state : String} {token : ScopeId} {actions : List (Entry H)} :
    (c.actNext state token actions).advances = c.advances := by
  cases actions <;> rfl

@[simp] theorem advances_activate {x : Collected (Entry H)} {stage : Stage H} :
    (c.activate m x stage).advances = c.advances := rfl

@[simp] theorem advances_install {a : Activation H} {stage : Stage H} :
    (c.install p m a stage).advances = c.advances := by
  unfold install
  repeat' split
  all_goals rfl

@[simp] theorem advances_subscribeNext {a : Activation H} {routes : List Route} {stage : Stage H} :
    (c.subscribeNext p m a routes stage).advances = c.advances := by
  cases routes with
  | nil => exact advances_install
  | cons r rest =>
    unfold subscribeNext
    dsimp only
    split <;> rfl

@[simp] theorem advances_fallBack {state : String} {error : DefinitionError} {stage : Stage H} :
    (c.fallBack p m state error stage).advances = c.advances := by
  cases stage <;> rfl

@[simp] theorem advances_useCollected {purpose : Purpose}
    {r : Except DefinitionError (Collected (Entry H))} :
    (c.useCollected p purpose r).advances = c.advances := by
  cases r with
  | error e => cases purpose <;> rfl
  | ok x =>
    cases purpose with
    | transition n kind =>
      unfold useCollected
      dsimp only
      split
      · rfl
      · split <;> rfl
    | _ => rfl

@[simp] theorem advances_start {d : Definition} {settings : Settings} {signal : Option ScopeId} :
    (c.start p d settings signal).advances = c.advances := by
  unfold start
  split <;> rfl

/-! ## Steps -/

/-- How a step changes the advances under way. -/
inductive Paces (c c' : Config H) : Prop where
  | same (advances : c'.advances = c.advances)
  /-- An advance begins. -/
  | begin {slot : Nat} {span : Span} {k : Answer → Script H} {source : SourceCell H}
      (control : c.control = .run (.call (.advance slot span) k))
      (found : c.world.source? slot = some source)
      (stack : c'.stack = .advancing slot (source.clock.now.addSaturating span) {} :: .await k ::
        c.stack)
  /-- An advance ends, or a panic unwinds it. -/
  | finish {slot : Nat} {target : Span} {report : Report} {rest : List (Frame H)}
      (stack : c.stack = .advancing slot target report :: rest) (stack' : c'.stack = rest)

theorem paces_call {s : Call (Script H)} {k : Answer → Script H}
    (control : c.control = .run (.call s k)) : c.Paces (p.call s (c.push (.await k))) := by
  cases s with
  | advance slot span =>
    unfold Program.call advance
    dsimp only
    split
    · exact .same rfl
    · next source found => exact .begin control found rfl
  | drop n =>
    unfold Program.call
    dsimp only
    split
    · exact .same advances_settleHandle
    · exact .same rfl
  | onCancel token s => exact .same advances_onCancel
  | emit slot e => exact .same advances_emit
  | start d settings signal => exact .same advances_start
  | forward n source e => exact .same advances_forward
  | release s | listen slot kind handler token | hold n | send n source e | stop n
  | observe n f token | stream n token =>
    unfold Program.call
    dsimp only
    split <;> exact .same rfl
  | _ => exact .same rfl

section Top

variable {w : World H} {h : H} {ctl : Control H} {rest : List (Frame H)} {f : Frame H} {c' : Config H}

/-- The advances under way stay when a frame that advances no clock is taken off. -/
theorem advances_pop (none : f.advance? = none) :
    advances ⟨w, h, ctl, f :: rest⟩ = advances ⟨w, h, ctl, rest⟩ :=
  List.filterMap_cons_none none

theorem paces_advanceNext {slot : Nat} {target : Span} {report report' : Report} :
    Paces ⟨w, h, ctl, .advancing slot target report :: rest⟩
      (advanceNext p slot target report' ⟨w, h, ctl, rest⟩) := by
  unfold advanceNext
  split
  · exact .finish rfl rfl
  · split
    · exact .finish rfl rfl
    · dsimp only
      split
      · exact .same rfl
      · exact .same advances_emit

theorem paces_resume {a : Answer} (step : p.resume f a ⟨w, h, .give a, rest⟩ = some c') :
    Paces ⟨w, h, .give a, f :: rest⟩ c' := by
  have keeps {f : Frame H} {a : Answer} {h' : H} {c' : Config H} (none : f.advance? = none)
      (same : c'.advances = advances ⟨w, h', .give a, rest⟩) :
      Paces ⟨w, h, .give a, f :: rest⟩ c' := .same (same.trans (advances_pop none).symm)
  unfold Program.resume at step
  split at step <;> cases step
  -- The frames stand in the order in which they are resumed.
  · exact .same rfl
  · exact .same rfl
  · exact keeps rfl advances_actNext
  · exact .same rfl
  · exact .same rfl
  · exact .same rfl
  · exact keeps rfl advances_subscribeNext
  · exact keeps rfl advances_fallBack
  · exact .same rfl
  · exact keeps rfl advances_publishNext
  · exact keeps rfl advances_publishNext
  · exact keeps rfl advances_runTeardowns
  · exact keeps rfl advances_dispatchNext
  · exact keeps rfl advances_dispatchNext
  · exact .same rfl
  · exact keeps rfl advances_drain
  · next r => cases r <;> exact keeps rfl advances_drain
  · exact .same rfl
  · exact keeps rfl advances_unpin
  · exact keeps rfl advances_unpin
  · exact .same rfl
  · exact keeps rfl advances_onCancel
  · exact .same rfl
  · exact .same rfl
  · exact paces_advanceNext
  · exact keeps rfl advances_settle

theorem paces_unwind {message : String}
    (step : unwind f message ⟨w, h, .panic message, rest⟩ = some c') :
    Paces ⟨w, h, .panic message, f :: rest⟩ c' := by
  cases f with
  | advancing slot target report =>
    cases step
    exact .finish rfl rfl
  | holding m | starting m signal | signalled m =>
    cases step
    exact .same advances_unpin
  | settling o =>
    cases o with
    | gave a => cases step; exact .same rfl
    | panicked message => cases step
  | _ => cases step; exact .same rfl

end Top

end Config

/-- Every step leaves the advances under way as they are, or one begins, or the innermost one ends. -/
theorem Program.paces_of_step {c c' : Config H} (step : p.step c = some c') : c.Paces c' := by
  obtain ⟨w, h, ctl, stack⟩ := c
  cases ctl with
  | run s =>
    cases s with
    | call s k => cases step; exact Config.paces_call rfl
    | _ => cases step; exact .same rfl
  | gather g =>
    cases g with
    | done r =>
      cases stack with
      | nil => cases step
      | cons f rest =>
        cases f with
        | collecting purpose => cases step; exact .same Config.advances_useCollected
        | _ => cases step
    | _ => cases step; exact .same rfl
  | release s => cases step; exact .same Config.advances_performRelease
  | stop m => cases step; exact .same Config.advances_performStop
  | send m source e => cases step; exact .same Config.advances_performSend
  | route m source e => cases step; exact .same Config.advances_performRoute
  | give a =>
    cases stack with
    | nil => cases step
    | cons f rest => exact Config.paces_resume step
  | panic message =>
    cases stack with
    | nil => cases step
    | cons f rest => exact Config.paces_unwind step

/-! ## The targets of a clock -/

/-- The target to which a frame advances a clock. -/
def Frame.target? (slot : Nat) : Frame H → Option Span
  | .advancing i target _ => if i = slot then some target else none
  | _ => none

namespace Config

/-- The targets of the advances of a clock that are under way, the innermost one first. -/
def targets (slot : Nat) (c : Config H) : List Span := c.stack.filterMap (Frame.target? slot)

theorem targets_eq {slot : Nat} {c : Config H} :
    c.targets slot = c.advances.filterMap fun a => if a.1 = slot then some a.2 else none := by
  rw [targets, advances, List.filterMap_filterMap]
  congr 1
  funext f
  cases f <;> rfl

/-- The target of the advance of a clock that is called next. -/
def calls? (slot : Nat) (c : Config H) : Option Span :=
  match c.control with
  | .run (.call (.advance i span) _) =>
    if i = slot then (c.world.clock? slot).map (·.now.addSaturating span) else none
  | _ => none

variable {slot : Nat} {c c' : Config H} {clock : Clock}

theorem calls?_eq_some {span : Span} {k : Answer → Script H}
    (timer : c.world.clock? slot = some clock)
    (control : c.control = .run (.call (.advance slot span) k)) :
    c.calls? slot = some (clock.now.addSaturating span) := by
  rw [calls?, control]
  dsimp only
  rw [if_pos rfl, timer, Option.map_some]

theorem exists_of_calls? {target : Span} (timer : c.world.clock? slot = some clock)
    (calls : c.calls? slot = some target) :
    ∃ span k, c.control = .run (.call (.advance slot span) k) ∧
      target = clock.now.addSaturating span := by
  unfold calls? at calls
  split at calls
  · next i span k control =>
    split at calls
    · next here =>
      subst here
      rw [timer, Option.map_some] at calls
      cases calls
      exact ⟨span, k, control, rfl⟩
    · cases calls
  · cases calls

theorem targets_of_stack {fs base : List (Frame H)} {target : Span} {report : Report}
    (stack : c.stack = fs ++ .advancing slot target report :: base) :
    c.targets slot =
      fs.filterMap (Frame.target? slot) ++ target :: base.filterMap (Frame.target? slot) := by
  rw [targets, stack, List.filterMap_append]
  simp [Frame.target?]

theorem targets_of_top {base : List (Frame H)} {target : Span} {report : Report}
    (stack : c.stack = .advancing slot target report :: base) :
    c.targets slot = target :: base.filterMap (Frame.target? slot) :=
  targets_of_stack (stack.trans (List.nil_append _).symm)

/-- How a step changes the targets of a clock. -/
inductive Aims (slot : Nat) (c c' : Config H) : Prop where
  | same (targets : c'.targets slot = c.targets slot)
  | begin {target : Span} (calls : c.calls? slot = some target)
      (targets : c'.targets slot = target :: c.targets slot)
  | finish {target : Span} (targets : c.targets slot = target :: c'.targets slot)

theorem Paces.aims (paces : c.Paces c') (timer : c.world.clock? slot = some clock) :
    c.Aims slot c' := by
  cases paces with
  | same advances => exact .same (by rw [targets_eq, targets_eq, advances])
  | @begin i span k source control found stack =>
    have advances : c'.advances = (i, source.clock.now.addSaturating span) :: c.advances := by
      rw [Config.advances, stack]
      rfl
    by_cases here : i = slot
    · subst here
      refine .begin (calls?_eq_some timer control) ?_
      rw [targets_eq, targets_eq, advances, World.clock_of_clock? found timer]
      simp
    · refine .same ?_
      rw [targets_eq, targets_eq, advances]
      simp [here]
  | @finish i target report rest stack stack' =>
    have advances : c.advances = (i, target) :: c'.advances := by
      rw [Config.advances, stack, Config.advances, stack']
      rfl
    by_cases here : i = slot
    · subst here
      have first : c.targets i = target :: c'.targets i := by
        rw [targets_eq, targets_eq, advances]
        simp
      exact .finish first
    · refine .same ?_
      rw [targets_eq, targets_eq, advances]
      simp [here]

end Config

/-- Every target is that of an advance that was called. -/
theorem Program.Run.called {w : World H} {past : List (Config H)} {c : Config H} {slot : Nat}
    {clock : Clock} {target : Span} (run : p.Run w past c) (timer : c.world.clock? slot = some clock)
    (underWay : target ∈ c.targets slot) : ∃ x ∈ past, x.calls? slot = some target := by
  induction run generalizing clock with
  | begin => cases underWay
  | @step past c c' run step ih =>
    cases there : c.world.clock? slot with
    | none =>
      rw [(run.move step).clock?_eq_none there] at timer
      cases timer
    | some old =>
      have earlier (underWay : target ∈ c.targets slot) :
          ∃ x ∈ past ++ [c], x.calls? slot = some target := by
        obtain ⟨x, passed, calls⟩ := ih there underWay
        exact ⟨x, List.mem_append_left _ passed, calls⟩
      cases (p.paces_of_step step).aims there with
      | same targets => exact earlier (targets ▸ underWay)
      | begin calls targets =>
        rw [targets] at underWay
        rcases List.mem_cons.1 underWay with rfl | before
        · exact ⟨c, List.mem_append_right _ (List.mem_singleton_self c), calls⟩
        · exact earlier before
      | finish targets => exact earlier (targets ▸ List.mem_cons_of_mem _ underWay)
  | resume run ended host s ih =>
    obtain ⟨x, passed, calls⟩ := ih timer underWay
    exact ⟨x, List.mem_append_left _ passed, calls⟩

/-! ## Reports -/

namespace Report

@[simp] theorem absorb_empty {r : Report} : r.absorb {} = r := by simp [absorb]

@[simp] theorem empty_absorb {r : Report} : ({} : Report).absorb r = r := by simp [absorb]

theorem absorb_assoc {r s t : Report} : (r.absorb s).absorb t = r.absorb (s.absorb t) := by
  simp [absorb, Nat.add_assoc]

/-- Several reports together, in this order. -/
def total : List Report → Report
  | [] => {}
  | r :: rs => r.absorb (total rs)

theorem total_concat {rs : List Report} {r : Report} : total (rs ++ [r]) = (total rs).absorb r := by
  induction rs with
  | nil => exact absorb_empty.trans empty_absorb.symm
  | cons s rs ih => exact (congrArg s.absorb ih).trans absorb_assoc.symm

end Report

/-! ## One advance -/

section Advance

variable {slot : Nat} {target : Span} {report : Report} {fs base : List (Frame H)} {c c' : Config H}
  {clock : Clock}

/-- The first step of an advance fixes the target. -/
theorem Program.step_advance {x : Config H} {span : Span} {k : Answer → Script H}
    (timer : x.world.clock? slot = some clock)
    (control : x.control = .run (.call (.advance slot span) k)) :
    p.step x = some ⟨x.world, x.host, .give (.report {}),
      .advancing slot (clock.now.addSaturating span) {} :: .await k :: x.stack⟩ := by
  obtain ⟨world, host, ctl, stack⟩ := x
  cases control
  obtain ⟨source, found⟩ := World.exists_source timer
  have shows := World.clock_of_clock? found timer
  simp only [step, call, Config.advance, Config.push, found, shows]
  rfl

/-- An answer comes down to an advance that goes on, or a panic does. -/
inductive Config.Pursues (p : Program H) (slot : Nat) (target : Span) (report : Report)
    (base : List (Frame H)) (c c' : Config H) : Prop where
  /-- Something happens above the advance. -/
  | above (fs fs' : List (Frame H)) (stack : c.stack = fs ++ .advancing slot target report :: base)
      (busy : fs ≠ [] ∨ c.control.isEnd = false)
      (stack' : c'.stack = fs' ++ .advancing slot target report :: base)
  | fires {r : Report} {d : DueTimer} (stack : c.stack = .advancing slot target report :: base)
      (control : c.control = .give (.report r)) (beat : c.beat? slot = some (.fires target d))
      (listeners : List (Registration (Listener H)))
      (stack' : c'.stack = .dispatching (Config.firing d) listeners {} ::
        .advancing slot target (report.absorb r) :: base)
      (control' : c'.control = .give (.result (.ok ())))
  | skips {r : Report} {d : DueTimer} (stack : c.stack = .advancing slot target report :: base)
      (control : c.control = .give (.report r)) (beat : c.beat? slot = some (.skips target d))
      (stack' : c'.stack = .advancing slot target (report.absorb r) :: base)
      (control' : c'.control = .give (.report {}))
  | reaches {r : Report} (stack : c.stack = .advancing slot target report :: base)
      (control : c.control = .give (.report r)) (beat : c.beat? slot = some (.reaches target))
      (stack' : c'.stack = base) (control' : c'.control = .give (.report (report.absorb r)))
  | falls {message : String} (stack' : c'.stack = base) (control' : c'.control = .panic message)

/-- How a step goes on with an advance that is under way. -/
theorem Course.pursues (course : Course c c') (step : p.step c = some c')
    (timer : c.world.clock? slot = some clock)
    (stack : c.stack = fs ++ .advancing slot target report :: base) :
    c.Pursues p slot target report base c' := by
  by_cases busy : fs ≠ [] ∨ c.control.isEnd = false
  · obtain ⟨fs', stack'⟩ := course.stays stack busy
    exact .above fs fs' stack busy stack'
  · obtain ⟨none, ended⟩ := not_or.1 busy
    obtain ⟨w, h, ctl, _⟩ := c
    cases Classical.not_not.1 none
    cases stack
    cases ctl with
    | give a =>
      cases a with
      | report r =>
        cases next : clock.next? target with
        | none =>
          cases (p.step_reaches timer next).symm.trans step
          exact .reaches rfl rfl (Config.beat?_reaches timer next) rfl rfl
        | some d =>
          cases live : w.isCancelled d.timer.token with
          | true =>
            cases (p.step_skips timer next live).symm.trans step
            exact .skips rfl rfl (Config.beat?_skips timer next live) rfl rfl
          | false =>
            obtain ⟨source, found⟩ := World.exists_source timer
            cases (p.step_fires found timer next live).symm.trans step
            exact .fires rfl rfl (Config.beat?_fires timer next live) _ rfl rfl
      | _ => cases step
    | panic message =>
      cases step
      exact .falls rfl rfl
    | gather g =>
      cases g with
      | done r => cases step
      | _ => exact absurd rfl ended
    | _ => exact absurd rfl ended

/-- How an advance is going that waits for its end above some frames; `seen` was passed since. -/
inductive Journey (slot : Nat) (target : Span) (base : List (Frame H)) (seen : List (Config H))
    (c : Config H) : Prop where
  | underWay (fs : List (Frame H)) (report : Report)
      (stack : c.stack = fs ++ .advancing slot target report :: base)
  | arrived {report r : Report} {before : List (Config H)} {y : Config H} (split : seen = before ++ [y])
      (last : y.stack = .advancing slot target report :: base) (answer : y.control = .give (.report r))
      (beat : y.beat? slot = some (.reaches target)) (stack : c.stack = base)
      (control : c.control = .give (.report (report.absorb r)))
  | fell {message : String} (stack : c.stack = base) (control : c.control = .panic message)

/-- Frames with something above them are not the whole stack. -/
theorem above_ne_base {f : Frame H} : fs ++ f :: base ≠ base := by
  intro same
  have longer := congrArg List.length same
  simp only [List.length_append, List.length_cons] at longer
  omega

/-- When an answer comes down below the advance, the last step was the end of the advance. -/
theorem Journey.last_of_returns {seen : List (Config H)} {a : Answer}
    (journey : Journey slot target base seen c) (stack : c.stack = base)
    (returns : c.control = .give a) :
    ∃ before y report r, seen = before ++ [y] ∧ y.stack = .advancing slot target report :: base ∧
      y.control = .give (.report r) ∧ y.beat? slot = some (.reaches target) ∧
        a = .report (report.absorb r) := by
  cases journey with
  | underWay fs report under => exact absurd (under.symm.trans stack) above_ne_base
  | fell _ control =>
    rw [returns] at control
    cases control
  | @arrived report r before y split last answer beat _ control =>
    rw [returns] at control
    cases control
    exact ⟨before, y, report, r, split, last, answer, beat, rfl⟩

/-- A call is under way, it arrived at its target, or a panic ended it. -/
theorem Program.Run.journey {w : World H} {before past span : List (Config H)} {x c : Config H}
    {delay : Span} {k : Answer → Script H} (run : p.Run w past c) (split : past = before ++ x :: span)
    (timer : x.world.clock? slot = some clock)
    (call : x.control = .run (.call (.advance slot delay) k))
    (stays : ∀ y ∈ span, y.stack ≠ .await k :: x.stack) :
    Journey slot (clock.now.addSaturating delay) (.await k :: x.stack) span c := by
  have going : ¬x.IsOver := by
    rintro ⟨_, ⟨a, control⟩ | ⟨message, control⟩⟩ <;> rw [call] at control <;> cases control
  refine run.above_induction split going stays ?_ ?_ ?_
  · intro seen c journey
    cases journey with
    | underWay fs report stack => exact ⟨fs ++ [_], by rw [stack, List.append_assoc]; rfl⟩
    | arrived _ _ _ _ stack => exact ⟨[], stack⟩
    | fell stack => exact ⟨[], stack⟩
  · intro c first
    cases (p.step_advance timer call).symm.trans first
    exact .underWay [] {} rfl
  · intro seen c c' run inside step journey
    have apart := stays c inside
    cases journey with
    | underWay fs report stack =>
      obtain ⟨clock', timer', _⟩ := run.clock_leads_between rfl timer
      cases (run.course step).pursues step timer' stack with
      | above fs fs' stack busy stack' => exact .underWay fs' report stack'
      | fires stack control beat listeners stack' => exact .underWay [_] _ stack'
      | skips stack control beat stack' => exact .underWay [] _ stack'
      | reaches stack control beat stack' control' => exact .arrived rfl stack control beat stack' control'
      | falls stack' control' => exact .fell stack' control'
    | arrived _ _ _ _ stack | fell stack => exact absurd stack apart

/-- When an advance returns, the clock shows its target, and nothing that is due by then is left. -/
theorem Program.Run.arrives {w : World H} {before past span : List (Config H)} {x c : Config H}
    {delay : Span} {k : Answer → Script H} {a : Answer} (run : p.Run w past c)
    (split : past = before ++ x :: span) (timer : x.world.clock? slot = some clock)
    (call : x.control = .run (.call (.advance slot delay) k))
    (stays : ∀ y ∈ span, y.stack ≠ .await k :: x.stack) (stack : c.stack = .await k :: x.stack)
    (returns : c.control = .give a) :
    ∃ clock', c.world.clock? slot = some clock' ∧ clock'.now = clock.now.addSaturating delay ∧
      clock'.next? clock'.now = none ∧
      .reaches (clock.now.addSaturating delay) ∈ beats slot span := by
  obtain ⟨clock', timer', leads⟩ := run.clock_leads_between split timer
  refine ⟨clock', timer', ?_⟩
  obtain ⟨seen, y, report, r, rfl, _, _, beat, _⟩ :=
    (run.journey split timer call stays).last_of_returns stack returns
  rw [← List.cons_append, beats_concat, beat] at leads
  obtain ⟨m, _, allows, rfl⟩ := leads.last
  cases allows with
  | reaches late =>
    rw [beats_concat, beat]
    exact ⟨rfl, late, List.mem_append_right _ (List.mem_singleton_self _)⟩

end Advance

end ScopedMachine

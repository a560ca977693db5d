import ScopedMachine.Proofs.Course

/-!
# What lies beneath

An activity does the same whatever waits for its end. `Config.above` puts frames beneath all others;
`Program.step_above` says that a step commutes with that, as long as the activity is not over and the
frames beneath tell nobody of a change. One lemma for each operation, in the order of the engine.
-/

namespace ScopedMachine

variable {H : Type} {p : Program H}

/-! ## Frames beneath -/

/-- The same activity, with some frames beneath. -/
def Config.above (base : List (Frame H)) (c : Config H) : Config H :=
  { c with stack := c.stack ++ base }

/-- The activity does not end here. -/
def Config.Goes (c : Config H) : Prop := c.stack ≠ [] ∨ c.control.isEnd = false

/-- No frame tells observers of a change. -/
def Silent (base : List (Frame H)) : Prop :=
  ∀ f ∈ base, ∀ m change rest, f ≠ .publishing m change rest

namespace Config

variable {base : List (Frame H)} {c : Config H} {m : MachineId}

@[simp] theorem above_world : (c.above base).world = c.world := rfl

@[simp] theorem above_host : (c.above base).host = c.host := rfl

theorem above_isOpen (silent : Silent base) (s : StreamId) :
    (c.above base).isOpen s = c.isOpen s := by
  have none (feeds : Frame H → Bool) (quiet : ∀ f ∈ base, feeds f = false) :
      (c.stack ++ base).any feeds = c.stack.any feeds := by
    rw [List.any_append, List.any_eq_false.2 fun f mem => Bool.eq_false_iff.1 (quiet f mem),
      Bool.or_false]
  refine congrArg (Bool.or _) (none _ fun f mem => ?_)
  cases f with
  | publishing m change rest => exact absurd rfl (silent _ mem m change rest)
  | _ => rfl

/-! ## Releasing, stopping, giving handles up -/

theorem performRelease_above {scope : ScopeId} :
    (c.above base).performRelease scope = (c.performRelease scope).above base := by
  unfold performRelease
  rw [above_world]
  split <;> rfl

theorem releaseActivation_above {a : Option (Activation H)} :
    (c.above base).releaseActivation a = (c.releaseActivation a).above base := by
  cases a <;> rfl

theorem performStop_above : (c.above base).performStop m = (c.performStop m).above base := by
  unfold performStop
  rw [above_world]
  split
  · rfl
  · split
    · rfl
    · exact releaseActivation_above
        (c := (c.mapWorld (World.modifyMachine m MachineCell.stop)).push (.stopping m))

theorem settle_above {o : Outcome} : (c.above base).settle o = (c.settle o).above base := by
  cases o <;> rfl

theorem settleHandle_above {o : Outcome} :
    (c.above base).settleHandle m o = (c.settleHandle m o).above base := by
  unfold settleHandle
  rw [above_world]
  split
  · exact settle_above
  · exact releaseActivation_above
      (c := ((c.mapWorld (World.modifyMachine m MachineCell.clearCurrent)).push (.settling o)).push
        (.dismantling m))

theorem unpin_above {o : Outcome} : (c.above base).unpin m o = (c.unpin m o).above base :=
  settleHandle_above (c := c.mapWorld _)

theorem performTeardown_above {t : Teardown H} :
    (c.above base).performTeardown t = (c.performTeardown t).above base := by
  cases t with
  | stop n =>
    unfold performTeardown
    rw [above_world]
    dsimp only
    split <;> rfl
  | _ => rfl

theorem runTeardowns_above {s : ScopeId} {ts : List (Teardown H)} :
    (c.above base).runTeardowns s ts = (c.runTeardowns s ts).above base := by
  cases ts with
  | nil => rfl
  | cons t ts => exact performTeardown_above (c := c.push _)

theorem onCancel_above {s : ScopeId} {t : Teardown H} :
    (c.above base).onCancel s t = (c.onCancel s t).above base := by
  unfold onCancel
  rw [above_world]
  split
  · exact performTeardown_above
  · rfl

/-! ## Dispatching -/

theorem performRoute_above {source : SourceId} {e : Event} :
    (c.above base).performRoute p m source e = (c.performRoute p m source e).above base := by
  unfold performRoute
  rw [above_world]
  split
  · rfl
  · split
    · rfl
    · split
      · rfl
      · split
        · rfl
        · dsimp only
          split <;> rfl

theorem performSend_above {source : SourceId} {e : Event} :
    (c.above base).performSend p m source e = (c.performSend p m source e).above base := by
  unfold performSend
  rw [above_world]
  split
  · rfl
  · split <;> rfl

theorem forward_above {source : SourceId} {e : Event} :
    (c.above base).forward m source e = (c.forward m source e).above base := by
  unfold forward
  rw [above_world]
  split <;> rfl

theorem drain_above {first : Except MachineError Delivery} :
    (c.above base).drain m first = (c.drain m first).above base := by
  unfold drain
  rw [above_world]
  split <;> rfl

theorem invoke_above {l : Listener H} {e : Event} :
    (c.above base).invoke l e = (c.invoke l e).above base := by
  cases l with
  | route n source => exact forward_above
  | handler f => rfl

theorem dispatchNext_above {e : Event} {ls : List (Registration (Listener H))} {report : Report} :
    (c.above base).dispatchNext e ls report = (c.dispatchNext e ls report).above base := by
  cases ls with
  | nil => rfl
  | cons r rest =>
    unfold dispatchNext
    rw [above_world]
    dsimp only
    split
    · rfl
    · exact invoke_above (c := c.push _)

theorem emit_above {slot : Nat} {e : Event} :
    (c.above base).emit p slot e = (c.emit p slot e).above base := by
  unfold emit
  rw [above_world]
  split <;> rfl

theorem publishNext_above {change : Change} {os : List (Registration (Observer H))} :
    (c.above base).publishNext m change os = (c.publishNext m change os).above base := by
  cases os with
  | nil => rfl
  | cons r rest =>
    unfold publishNext
    rw [above_world]
    dsimp only
    split
    · rfl
    · cases r.listener <;> rfl

theorem advanceNext_above {slot : Nat} {target : Span} {report : Report} :
    (c.above base).advanceNext p slot target report =
      (c.advanceNext p slot target report).above base := by
  unfold advanceNext
  rw [above_world]
  split
  · rfl
  · split
    · rfl
    · dsimp only
      rw [apply_ite (above base)]
      exact ite_congr rfl (fun _ => rfl) fun _ =>
        emit_above (c := ((c.mapWorld _).push _).record p _)

theorem advance_above {slot : Nat} {span : Span} :
    (c.above base).advance slot span = (c.advance slot span).above base := by
  unfold advance
  rw [above_world]
  split <;> rfl

/-! ## Transitions -/

theorem actNext_above {state : String} {token : ScopeId} {actions : List (Entry H)} :
    (c.above base).actNext state token actions = (c.actNext state token actions).above base := by
  cases actions <;> rfl

theorem install_above {a : Activation H} {stage : Stage H} :
    (c.above base).install p m a stage = (c.install p m a stage).above base := by
  unfold install
  rw [above_world]
  split
  · rfl
  · cases stage <;> dsimp only <;> split <;> rfl

theorem subscribeNext_above {a : Activation H} {routes : List Route} {stage : Stage H} :
    (c.above base).subscribeNext p m a routes stage =
      (c.subscribeNext p m a routes stage).above base := by
  cases routes with
  | nil => exact install_above (c := c.record p _)
  | cons r rest =>
    unfold subscribeNext
    dsimp only [Config.push, above_world]
    split <;> rfl

theorem fallBack_above {state : String} {error : DefinitionError} {stage : Stage H} :
    (c.above base).fallBack p m state error stage = (c.fallBack p m state error stage).above base := by
  cases stage <;> rfl

theorem useCollected_above {purpose : Purpose}
    {r : Except DefinitionError (Collected (Entry H))} :
    (c.above base).useCollected p purpose r = (c.useCollected p purpose r).above base := by
  cases r with
  | error e => cases purpose <;> rfl
  | ok x =>
    cases purpose with
    | transition n kind =>
      unfold useCollected
      dsimp only [record, above_world]
      split
      · rfl
      · split <;> rfl
    | _ => rfl

theorem start_above {d : Definition} {settings : Settings} {signal : Option ScopeId} :
    (c.above base).start p d settings signal = (c.start p d settings signal).above base := by
  unfold start
  split <;> rfl

/-! ## Steps -/

theorem unwind_above {f : Frame H} {message : String} :
    (c.above base).unwind f message = (c.unwind f message).map (above base) := by
  cases f with
  | holding n | starting n signal | signalled n => exact congrArg some unpin_above
  | settling o => cases o <;> rfl
  | _ => rfl

end Config

namespace Program

variable {base : List (Frame H)} {c : Config H}

theorem call_above_of_isOpen {s : Call (Script H)}
    (same : ∀ i, s = .read i → (c.above base).isOpen i = c.isOpen i) :
    p.call s (c.above base) = (p.call s c).above base := by
  cases s with
  | onCancel token s => exact Config.onCancel_above (c := c.push _)
  | emit slot e => exact Config.emit_above
  | advance slot span => exact Config.advance_above
  | start d settings signal => exact Config.start_above
  | forward m source e => exact Config.forward_above
  | drop m =>
    unfold call
    dsimp only
    rw [Config.above_world]
    split
    · exact Config.settleHandle_above (c := c.mapWorld _)
    · rfl
  | read s =>
    unfold call
    dsimp only
    rw [same s rfl]
    rfl
  | release s | listen slot kind handler token | hold m | send m source e | stop m
  | observe m f token | stream m token =>
    unfold call
    dsimp only
    rw [Config.above_world]
    split <;> rfl
  | _ => rfl

theorem call_above (silent : Silent base) {s : Call (Script H)} :
    p.call s (c.above base) = (p.call s c).above base :=
  call_above_of_isOpen fun i _ => Config.above_isOpen silent i

theorem resume_above {f : Frame H} {a : Answer} :
    p.resume f a (c.above base) = (p.resume f a c).map (Config.above base) := by
  unfold resume
  split
  -- The frames stand in the order in which they are resumed.
  · rfl
  · rfl
  · exact congrArg some Config.actNext_above
  · rfl
  · rfl
  · rfl
  · exact congrArg some Config.subscribeNext_above
  · exact congrArg some Config.fallBack_above
  · rfl
  · exact congrArg some Config.publishNext_above
  · exact congrArg some (Config.publishNext_above (c := c.record p _))
  · exact congrArg some Config.runTeardowns_above
  · exact congrArg some Config.dispatchNext_above
  · exact congrArg some (Config.dispatchNext_above (c := c.record p _))
  · rfl
  · exact congrArg some Config.drain_above
  · next r =>
    cases r with
    | error e => exact congrArg some (Config.drain_above (c := c.record p _))
    | ok => exact congrArg some Config.drain_above
  · rfl
  · exact congrArg some Config.unpin_above
  · exact congrArg some Config.unpin_above
  · rfl
  · exact congrArg some (Config.onCancel_above (c := c.push _))
  · rfl
  · rfl
  · exact congrArg some Config.advanceNext_above
  · exact congrArg some Config.settle_above
  · rfl

/-- A step does the same above any frames, unless the activity is over or asks whether a stream is
open. -/
theorem step_above_of_isOpen
    (same : ∀ i k, c.control = .run (.call (.read i) k) → (c.above base).isOpen i = c.isOpen i)
    (goes : c.Goes) : p.step (c.above base) = (p.step c).map (Config.above base) := by
  obtain ⟨w, h, ctl, stack⟩ := c
  have above : Config.above base ⟨w, h, ctl, stack⟩ = ⟨w, h, ctl, stack ++ base⟩ := rfl
  rw [above]
  have waits (ended : ctl.isEnd) : ∃ f rest, stack = f :: rest := by
    refine List.exists_cons_of_ne_nil (goes.resolve_right ?_)
    rw [ended]
    nofun
  cases ctl with
  | run s =>
    cases s with
    | call s k =>
      refine congrArg some (call_above_of_isOpen (c := ⟨w, h, _, .await k :: stack⟩) ?_)
      rintro i rfl
      exact same i k rfl
    | _ => rfl
  | gather g =>
    cases g with
    | done r =>
      obtain ⟨f, rest, rfl⟩ := waits rfl
      cases f with
      | collecting purpose =>
        exact congrArg some (Config.useCollected_above (c := ⟨w, h, _, rest⟩))
      | _ => rfl
    | _ => rfl
  | release s => exact congrArg some (Config.performRelease_above (c := ⟨w, h, _, stack⟩))
  | stop m => exact congrArg some (Config.performStop_above (c := ⟨w, h, _, stack⟩))
  | send m source e => exact congrArg some (Config.performSend_above (c := ⟨w, h, _, stack⟩))
  | route m source e => exact congrArg some (Config.performRoute_above (c := ⟨w, h, _, stack⟩))
  | give a =>
    obtain ⟨f, rest, rfl⟩ := waits rfl
    exact resume_above (c := ⟨w, h, _, rest⟩)
  | panic message =>
    obtain ⟨f, rest, rfl⟩ := waits rfl
    exact Config.unwind_above (c := ⟨w, h, _, rest⟩)

/-- A step does the same above any frames, unless the activity is over. -/
theorem step_above (silent : Silent base) (goes : c.Goes) :
    p.step (c.above base) = (p.step c).map (Config.above base) :=
  step_above_of_isOpen (fun i _ _ => Config.above_isOpen silent i) goes

/-- A call looks at the world and at the host alone. -/
theorem call_control {s : Call (Script H)} {w : World H} {h : H} {ctl ctl' : Control H}
    {stack : List (Frame H)} : p.call s ⟨w, h, ctl, stack⟩ = p.call s ⟨w, h, ctl', stack⟩ := by
  cases s with
  | start d settings signal =>
    simp only [call, Config.start]
    split <;> rfl
  | _ => rfl

/-- A call that is made while nothing is under way. -/
def calling (p : Program H) (s : Call (Script H)) (w : World H) (h : H) : Config H :=
  p.call s ⟨w, h, .give .unit, []⟩

/-- Host code that makes a call waits for what the call does by itself. -/
theorem step_call (silent : Silent base) {s : Call (Script H)} {k : Answer → Script H} {w : World H}
    {h : H} : p.step ⟨w, h, .run (.call s k), base⟩ =
      some ((p.calling s w h).above (.await k :: base)) := by
  have waits : Silent (.await k :: base) := fun f mem m change rest => by
    rcases List.mem_cons.1 mem with rfl | mem
    · nofun
    · exact silent f mem m change rest
  exact congrArg some (call_control.trans (call_above (c := ⟨w, h, .give .unit, []⟩) waits))

end Program

/-! ## What host code runs -/

/-- The host code that is about to go on, with the world and the host that it finds. -/
def Config.running? (c : Config H) : Option (World H × H × Script H) :=
  match c.control with
  | .run s => some (c.world, c.host, s)
  | _ => none

/-- One configuration leads to another one, and this is the host code that runs on the way. -/
inductive Program.Passes (p : Program H) :
    Config H → List (World H × H × Script H) → Config H → Prop where
  | refl (c : Config H) : p.Passes c [] c
  | step {c c' c'' : Config H} {ss : List (World H × H × Script H)} (h : p.step c = some c')
      (next : p.Passes c' ss c'') : p.Passes c (c.running?.toList ++ ss) c''

/-- An activity that leads somewhere goes on. -/
theorem Program.goes_of_step {c c' : Config H} (h : p.step c = some c') : c.Goes := by
  by_cases goes : c.Goes
  · exact goes
  · obtain ⟨empty, ended⟩ := not_or.1 goes
    obtain ⟨w, host, ctl, stack⟩ := c
    cases Classical.not_not.1 empty
    cases ctl with
    | give | panic => cases h
    | gather g =>
      cases g with
      | done => cases h
      | _ => exact absurd rfl ended
    | _ => exact absurd rfl ended

namespace Program.Passes

variable {c c' c'' : Config H} {ss ts : List (World H × H × Script H)} {base : List (Frame H)}

/-- A step in which no host code runs. -/
theorem quiet (h : p.step c = some c') (silent : c.running? = none) (next : p.Passes c' ss c'') :
    p.Passes c ss c'' := by
  have passes := Passes.step h next
  rwa [silent] at passes

theorem trans (first : p.Passes c ss c') (next : p.Passes c' ts c'') : p.Passes c (ss ++ ts) c'' := by
  induction first with
  | refl => exact next
  | step h _ ih =>
    rw [List.append_assoc]
    exact .step h (ih next)

/-- An activity passes the same above any frames. -/
theorem above (silent : Silent base) (passes : p.Passes c ss c') :
    p.Passes (c.above base) ss (c'.above base) := by
  induction passes with
  | refl => exact .refl _
  | step h next ih =>
    refine .step (c := Config.above base _) ?_ ih
    rw [p.step_above silent (goes_of_step h), h]
    rfl

/-- Of two places that an activity leads to, one leads to the other. -/
theorem total (first : p.Passes c ss c') (second : p.Passes c ts c'') :
    (∃ us, p.Passes c' us c'' ∧ ts = ss ++ us) ∨ ∃ us, p.Passes c'' us c' ∧ ss = ts ++ us := by
  induction first generalizing ts with
  | refl c => exact .inl ⟨ts, second, rfl⟩
  | step h next ih =>
    cases second with
    | refl => exact .inr ⟨_, .step h next, rfl⟩
    | step h' next' =>
      cases Option.some.inj (h.symm.trans h')
      rcases ih next' with ⟨us, passes, rfl⟩ | ⟨us, passes, rfl⟩
      · exact .inl ⟨us, passes, (List.append_assoc ..).symm⟩
      · exact .inr ⟨us, passes, (List.append_assoc ..).symm⟩

/-- Where an activity ends nothing follows. -/
theorem eq_of_stuck (passes : p.Passes c ss c') (stuck : p.step c = none) : c' = c ∧ ss = [] := by
  cases passes with
  | refl => exact ⟨rfl, rfl⟩
  | step h =>
    rw [stuck] at h
    cases h

/-- Above some frames an activity passes what it passes by itself, up to its end. -/
theorem of_above (silent : Silent base) (passes : p.Passes (c.above base) ss c'') :
    (∃ x, p.Passes c ss x ∧ c'' = x.above base) ∨
      ∃ x ts us, p.Passes c ts x ∧ ¬x.Goes ∧ p.Passes (x.above base) us c'' ∧ ss = ts ++ us := by
  generalize start : c.above base = y at passes
  induction passes generalizing c with
  | refl => exact .inl ⟨c, .refl c, start.symm⟩
  | @step y y' y'' ss h next ih =>
    subst start
    by_cases goes : c.Goes
    · rw [p.step_above silent goes] at h
      obtain ⟨d, step, rfl⟩ := Option.map_eq_some_iff.1 h
      rcases ih rfl with ⟨x, passes, same⟩ | ⟨x, ts, us, passes, ended, rest, rfl⟩
      · exact .inl ⟨x, .step step passes, same⟩
      · exact .inr ⟨x, _, us, .step step passes, ended, rest, (List.append_assoc ..).symm⟩
    · exact .inr ⟨c, [], _, .refl c, goes, .step h next, rfl⟩

end Program.Passes

end ScopedMachine

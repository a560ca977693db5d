import ScopedMachine.Proofs.Move

/-!
# Every step is a move

One lemma per operation of the engine says which move it makes, and `Program.move_of_step` collects
them. The operations are only ever asked of machines that exist, which is what `Config.Grounded`
says.
-/

namespace ScopedMachine

variable {H : Type}

/-! ## Groundedness -/

/-- The machines that something is under way for exist. -/
structure Config.Grounded (c : Config H) : Prop where
  frame {f : Frame H} {m : MachineId} (hf : f ∈ c.stack) (hm : f.machine? = some m) :
    ∃ cell, c.world.machine? m = some cell
  control {m : MachineId} (hm : c.control.machine? = some m) :
    ∃ cell, c.world.machine? m = some cell

section Turned

variable {w : World H} {m : MachineId} {cell : MachineCell H}

theorem World.Turned.same (found : w.machine? m = some cell) : w.Turned m cell .none w where
  machine n := by
    split
    · next hn => rw [hn, found]
    · rfl
  scopes := rfl
  sources := rfl
  streams := rfl

theorem World.Turned.edit (found : w.machine? m = some cell) (f : MachineCell H → MachineCell H) :
    w.Turned m (f cell) .none (w.modifyMachine m f) where
  machine n := by
    rw [World.machine?_modifyMachine]
    split
    · next hn => rw [hn, found, Option.map_some]
    · rfl
  scopes := rfl
  sources := rfl
  streams := rfl

end Turned

/-! ## Moves by their control -/

namespace Move

variable {p : Program H} {w w' : World H} {h h' : H} {rest : List (Frame H)}

/-- Host code goes on, and nothing happens. -/
theorem host {s : Script H} {ctl' : Control H} (frames : List (Frame H)) (alike : w.Alike w')
    (plain : ctl'.isPlain) (inert : ∀ f ∈ frames, f.isPlain) :
    Move p ⟨w, h, .run s, rest⟩ ⟨w', h', ctl', frames ++ rest⟩ :=
  idle [] frames rest alike (.inert (by simp) inert) rfl plain fun _ => Config.deed?_run

/-- An answer goes to a frame that works for no machine, and nothing happens. -/
theorem pass {a : Answer} {f : Frame H} {ctl' : Control H} (frames : List (Frame H))
    (alike : w.Alike w') (hf : f.isInert) (plain : ctl'.isPlain) (inert : ∀ f ∈ frames, f.isPlain) :
    Move p ⟨w, h, .give a, f :: rest⟩ ⟨w', h', ctl', frames ++ rest⟩ := by
  refine idle [f] frames rest alike (.inert (by simpa using hf) inert) rfl plain fun m => ?_
  apply Config.deed?_give
  cases f <;> simp_all [Frame.isInert, Frame.machine?]

variable {m : MachineId} {cell cell' : MachineCell H} {e : Effect H}

/-- A call of host code that is a turn of a machine. -/
theorem ofCall {s : Script H} {ctl' : Control H} (frames : List (Frame H))
    (found : w.machine? m = some cell)
    (turn : Turn p w m none e ⟨cell, .run s, []⟩ ⟨cell', ctl', frames⟩)
    (turned : w.Turned m cell' e w') :
    Move p ⟨w, h, .run s, rest⟩ ⟨w', h', ctl', frames ++ rest⟩ := by
  refine Move.turn [] frames rest found ?_ turned fun _ _ => Config.deed?_run
  rw [Config.deed?_run]
  exact turn

/-- An answer to a frame of a machine. -/
theorem ofAnswer {a : Answer} {f : Frame H} {ctl' : Control H} {d : Option Deed}
    (frames : List (Frame H)) (hf : f.machine? = some m) (found : w.machine? m = some cell)
    (hd : Config.deed? m ⟨w, h, .give a, f :: rest⟩ = d)
    (turn : Turn p w m d e ⟨cell, .give a, [f]⟩ ⟨cell', ctl', frames⟩)
    (turned : w.Turned m cell' e w') :
    Move p ⟨w, h, .give a, f :: rest⟩ ⟨w', h', ctl', frames ++ rest⟩ := by
  refine Move.turn [f] frames rest found ?_ turned fun n hn => ?_
  · show Turn p w m (Config.deed? m ⟨w, h, .give a, f :: rest⟩) e _ _
    rw [hd]
    exact turn
  · apply Config.deed?_give
    rw [hf]
    simpa using Ne.symm hn

/-- A turn of a machine that begins with an answer to a frame that works for no machine. -/
theorem ofInert {a : Answer} {f : Frame H} {ctl' : Control H} (frames : List (Frame H))
    (hf : f.machine? = none) (found : w.machine? m = some cell)
    (turn : Turn p w m none e ⟨cell, .give a, [f]⟩ ⟨cell', ctl', frames⟩)
    (turned : w.Turned m cell' e w') :
    Move p ⟨w, h, .give a, f :: rest⟩ ⟨w', h', ctl', frames ++ rest⟩ := by
  refine Move.turn [f] frames rest found ?_ turned fun n _ => Config.deed?_free hf
  show Turn p w m (Config.deed? m ⟨w, h, .give a, f :: rest⟩) e _ _
  rw [Config.deed?_free hf]
  exact turn

/-- A panic that meets a frame of a machine. -/
theorem ofPanic {message : String} {f : Frame H} {ctl' : Control H} (frames : List (Frame H))
    (found : w.machine? m = some cell)
    (turn : Turn p w m none e ⟨cell, .panic message, [f]⟩ ⟨cell', ctl', frames⟩)
    (turned : w.Turned m cell' e w') :
    Move p ⟨w, h, .panic message, f :: rest⟩ ⟨w', h', ctl', frames ++ rest⟩ := by
  refine Move.turn [f] frames rest found ?_ turned fun _ _ => Config.deed?_panic
  rw [Config.deed?_panic]
  exact turn

end Move

/-! ## Operations -/

namespace Config

variable {p : Program H} {w : World H} {h : H} {rest : List (Frame H)} {m : MachineId}
  {cell : MachineCell H}

theorem move_performRelease {s : ScopeId} :
    Move p ⟨w, h, .release s, rest⟩ (performRelease s ⟨w, h, .release s, rest⟩) := by
  unfold performRelease
  split
  · exact .idle [] [] rest (.refl w) (.inert (by simp) (by simp)) rfl rfl fun _ => deed?_release
  · next live => exact .release (by simpa using live)

theorem releaseActivation_eq {c : Config H} {a : Option (Activation H)} :
    c.releaseActivation a = { c with control := .ofRelease a } := by
  cases a <;> rfl

theorem move_performStop (found : w.machine? m = some cell) :
    Move p ⟨w, h, .stop m, rest⟩ (performStop m ⟨w, h, .stop m, rest⟩) := by
  simp only [performStop, found]
  split
  · next stopped =>
    refine Move.turn [] [] rest found ?_ (.same found) fun _ _ => deed?_stop
    rw [deed?_stop]
    exact .stopIgnored stopped rfl
  · next running =>
    rw [releaseActivation_eq]
    refine Move.turn [] [.stopping m] rest found ?_ (.edit found MachineCell.stop)
      fun _ _ => deed?_stop
    rw [deed?_stop]
    exact .stop running

theorem deed?_send_self {source : SourceId} {e : Event} (found : w.machine? m = some cell) :
    deed? m ⟨w, h, .send m source e, rest⟩ = some (.sent source e) := by
  simp [deed?, found]

theorem deed?_send_ne {n : MachineId} {source : SourceId} {e : Event} (hn : n ≠ m) :
    deed? n ⟨w, h, .send m source e, rest⟩ = none := by
  unfold deed?
  split
  · rfl
  · simp [Ne.symm hn]

theorem deed?_route_self {source : SourceId} {e : Event} (found : w.machine? m = some cell) :
    deed? m ⟨w, h, .route m source e, rest⟩ = some (.routed source e) := by
  simp [deed?, found]

theorem deed?_route_ne {n : MachineId} {source : SourceId} {e : Event} (hn : n ≠ m) :
    deed? n ⟨w, h, .route m source e, rest⟩ = none := by
  unfold deed?
  split
  · rfl
  · simp [Ne.symm hn]

theorem move_performSend {source : SourceId} {e : Event} (found : w.machine? m = some cell) :
    Move p ⟨w, h, .send m source e, rest⟩
      (performSend p m source e ⟨w, h, .send m source e, rest⟩) := by
  simp only [performSend, found]
  split
  · next busy =>
    refine Move.turn [] [] rest found ?_ (.edit found (MachineCell.enqueue source e))
      fun _ hn => deed?_send_ne hn
    rw [List.nil_append, deed?_send_self found]
    exact .enqueue busy rfl
  · next idle =>
    refine Move.turn [] [.draining m e.kind none] rest found ?_
      (.edit found MachineCell.beginDraining) fun _ hn => deed?_send_ne hn
    rw [List.nil_append, deed?_send_self found]
    exact .claim (by simpa using idle)

theorem move_performRoute {source : SourceId} {e : Event} (found : w.machine? m = some cell) :
    Move p ⟨w, h, .route m source e, rest⟩
      (performRoute p m source e ⟨w, h, .route m source e, rest⟩) := by
  have ignored (h' : H) : Move p ⟨w, h, .route m source e, rest⟩
      ⟨w, h', .give (.delivered (.ok .ignored)), rest⟩ := by
    refine Move.turn [] [] rest found ?_ (.same found) fun _ hn => deed?_route_ne hn
    rw [List.nil_append, deed?_route_self found]
    exact .ignore rfl
  simp only [performRoute, found]
  split
  · exact ignored h
  next running =>
  split
  · exact ignored h
  next a current =>
  split
  · exact ignored _
  next terminal =>
  have collecting {target : Definition} (h' : H)
      (resolves : a.routes.resolve source e.kind = .matched target ∨
        ∃ candidates, a.routes.resolve source e.kind = .ambiguous target candidates) :
      Move p ⟨w, h, .route m source e, rest⟩
        ⟨w, h', .gather (p.collect cell.settings.delegationLimit target),
          .collecting (.transition m e.kind) :: rest⟩ := by
    refine Move.turn [] [.collecting (.transition m e.kind)] rest found ?_ (.same found)
      fun _ hn => deed?_route_ne hn
    rw [List.nil_append, deed?_route_self found]
    exact .look (by simpa using running) current (by simpa using terminal) resolves
  split
  · exact ignored _
  · next resolves => exact collecting h (.inl resolves)
  · next candidates resolves => exact collecting _ (.inr ⟨candidates, resolves⟩)

/-! ## Collections -/

theorem turned_activate (found : w.machine? m = some cell) :
    w.Turned m cell (.acquire (some cell.manager)) (w.addScope (some m) (some cell.manager)).2 where
  machine n := by
    rw [World.machine?_addScope]
    split
    · next hn => rw [hn, found]
    · rfl
  scopes := rfl
  sources := rfl
  streams := rfl

/-- Entering a state begins with a new scope and all of its entry actions to come. -/
theorem activate_eq {x : Collected (Entry H)} {stage : Stage H} {ctl : Control H}
    (found : w.machine? m = some cell) :
    activate m x stage ⟨w, h, ctl, rest⟩ =
      ⟨(w.addScope (some m) (some cell.manager)).2, h, .give (.result (.ok ())),
        .acting x.name ⟨w.scopes.size⟩ x.actions ::
          .activating m x ⟨w.scopes.size⟩ stage :: rest⟩ := by
  simp only [activate, found]
  rfl

theorem move_useCollected {purpose : Purpose} {r : Except DefinitionError (Collected (Entry H))}
    (grounded : ∀ m, (Frame.collecting purpose : Frame H).machine? = some m →
      ∃ cell, w.machine? m = some cell) :
    Move p ⟨w, h, .gather (.done r), .collecting purpose :: rest⟩
      (useCollected p purpose r ⟨w, h, .gather (.done r), rest⟩) := by
  have ended {ctl' : Control H} (h' : H) (frames : List (Frame H))
      (none : (Frame.collecting purpose : Frame H).machine? = none) (plain : ctl'.isPlain)
      (inert : ∀ f ∈ frames, f.isPlain) :
      Move p ⟨w, h, .gather (.done r), .collecting purpose :: rest⟩
        ⟨w, h', ctl', frames ++ rest⟩ := by
    refine Move.idle [.collecting purpose] frames rest (.refl w) (.inert ?_ inert) rfl plain
      fun _ => deed?_gather
    simp [Frame.isInert, none]
  have turned {m : MachineId} {cell cell' : MachineCell H} {w' : World H} {ctl' : Control H}
      {e : Effect H} (h' : H) (frames : List (Frame H)) (found : w.machine? m = some cell)
      (turn : Turn p w m none e ⟨cell, .gather (.done r), [.collecting purpose]⟩
        ⟨cell', ctl', frames⟩) (turned : w.Turned m cell' e w') :
      Move p ⟨w, h, .gather (.done r), .collecting purpose :: rest⟩
        ⟨w', h', ctl', frames ++ rest⟩ := by
    refine Move.turn [.collecting purpose] frames rest found ?_ turned fun _ _ => deed?_gather
    rw [deed?_gather]
    exact turn
  cases purpose with
  | view => cases r <;> exact ended _ [] rfl rfl (by simp)
  | enter token =>
    cases r with
    | ok x => exact ended _ [.acting x.name token x.actions] rfl rfl (by simp [Frame.isPlain]; rfl)
    | error e => exact ended _ [] rfl rfl (by simp)
  | initial m =>
    obtain ⟨cell, found⟩ := grounded m rfl
    cases r with
    | ok x =>
      simp only [useCollected, record, activate_eq found]
      exact turned _ [.acting x.name ⟨w.scopes.size⟩ x.actions,
        .activating m x ⟨w.scopes.size⟩ .initial] found (.enter .initial) (turned_activate found)
    | error e => exact turned _ [] found (.startFailed (.inl rfl) rfl rfl) (.same found)
  | transition m kind =>
    obtain ⟨cell, found⟩ := grounded m rfl
    cases r with
    | ok x =>
      simp only [useCollected, record, found]
      split
      · next previous running current =>
        exact turned _ [.leaving m previous.collected x kind] found (.leave running current)
          (.edit found MachineCell.clearCurrent)
      · exact turned _ [] found (.giveUp rfl) (.same found)
    | error e => exact turned _ [] found (.giveUp rfl) (.same found)

/-! ## Calls of host code -/

theorem exists_of_isHeld (held : w.isHeld m) :
    ∃ cell, w.machine? m = some cell ∧ 0 < cell.handles := by
  unfold World.isHeld at held
  cases found : w.machine? m with
  | none => simp [found] at held
  | some cell => exact ⟨cell, rfl, by simpa [found] using held⟩

theorem exists_of_isAlive (alive : w.isAlive m) :
    ∃ cell, w.machine? m = some cell ∧ cell.isAlive := by
  unfold World.isAlive at alive
  cases found : w.machine? m with
  | none => simp [found] at alive
  | some cell => exact ⟨cell, rfl, by simpa [found] using alive⟩

theorem isAlive_modifyMachine (found : w.machine? m = some cell)
    (f : MachineCell H → MachineCell H) : (w.modifyMachine m f).isAlive m = (f cell).isAlive := by
  simp [World.isAlive, found]

theorem dismantle_eq (found : w.machine? m = some cell) (f : MachineCell H → MachineCell H)
    {o : Outcome} {ctl : Control H} :
    dismantle m o ⟨w.modifyMachine m f, h, ctl, rest⟩ =
      ⟨(w.modifyMachine m f).modifyMachine m MachineCell.clearCurrent, h,
        .ofRelease (f cell).current, .dismantling m :: .settling o :: rest⟩ := by
  simp only [dismantle, releaseActivation_eq, World.current?, World.machine?_modifyMachine, found]
  rfl

theorem turned_twice (found : w.machine? m = some cell) (f g : MachineCell H → MachineCell H) :
    w.Turned m (g (f cell)) .none ((w.modifyMachine m f).modifyMachine m g) where
  machine n := by
    rw [World.machine?_modifyMachine, World.machine?_modifyMachine]
    split
    · next hn => rw [hn, found]; rfl
    · rfl
  scopes := rfl
  sources := rfl
  streams := rfl

/-- An operation on a machine begins, and holds a handle on it. -/
theorem move_pin {s : Script H} {ctl : Control H} (frames : List (Frame H)) (alive : w.isAlive m)
    (call : ctl.isCallOn m) (inert : ∀ f ∈ frames, f.isPlain)
    (asked : ctl = .stop m → w.isHeld m) :
    Move p ⟨w, h, .run s, rest⟩
      ⟨w.modifyMachine m MachineCell.pin, h, ctl, .holding m :: (frames ++ rest)⟩ := by
  obtain ⟨cell, found, alive⟩ := exists_of_isAlive alive
  refine .ofCall (.holding m :: frames) found
    (.pin alive rfl call (.inert (by simp) inert) fun stops => ?_) (.edit found MachineCell.pin)
  obtain ⟨cell', found', held⟩ := exists_of_isHeld (asked stops)
  rw [found] at found'
  cases found'
  exact .inl held

theorem isAlive_of_isHeld (held : w.isHeld m) : w.isAlive m := by
  obtain ⟨cell, found, held⟩ := exists_of_isHeld held
  simp only [World.isAlive, found, Option.map_some, Option.getD_some, MachineCell.isAlive,
    decide_eq_true_eq]
  omega

theorem turned_addObserver {token : ScopeId} {o : Observer H} (found : w.machine? m = some cell)
    (live : w.isCancelled token = false) :
    w.Turned m { cell with observers := cell.observers.add Change.topic token o }
      (.observe token cell.observers.nextNumber o)
      ({ w with streams := o.enroll w.streams }.addObserver m token o) := by
  let w' : World H := { w with streams := o.enroll w.streams }
  have found' : w'.machine? m = some cell := found
  have live' : w'.isCancelled token = false := live
  show w.Turned m _ _ (w'.addObserver m token o)
  simp only [World.addObserver, found', live', Bool.false_eq_true, if_false]
  refine ⟨fun n => ?_, rfl, rfl, rfl⟩
  rw [World.addTeardown, World.machine?_modifyScope, World.machine?_modifyMachine]
  split
  · next hn => rw [hn, found']; rfl
  · rfl

/-- An observer is registered on a machine, unless its token is cancelled. -/
theorem move_addObserver {s : Script H} {ctl : Control H} {token : ScopeId} {o : Observer H}
    (frames : List (Frame H)) (held : w.isHeld m)
    (fresh : ∀ s, o = .stream s → s = ⟨w.streams.size⟩) (plain : ctl.isPlain)
    (inert : ∀ f ∈ frames, f.isPlain) :
    Move p ⟨w, h, .run s, rest⟩
      ⟨{ w with streams := o.enroll w.streams }.addObserver m token o, h, ctl, frames ++ rest⟩ := by
  obtain ⟨cell, found, held⟩ := exists_of_isHeld held
  cases live : w.isCancelled token with
  | true =>
    let w' : World H := { w with streams := o.enroll w.streams }
    have found' : w'.machine? m = some cell := found
    have cancelled : w'.isCancelled token = true := live
    have same : w'.addObserver m token o = w' := by
      simp only [World.addObserver, found', cancelled, if_true]
    show Move p _ ⟨w'.addObserver m token o, h, ctl, frames ++ rest⟩
    rw [same]
    cases o with
    | script f => exact .host frames (.refl w) plain inert
    | stream s => exact .openStream frames plain inert
  | false =>
    exact .ofCall frames found (.observe live held rfl plain inert fresh)
      (turned_addObserver found live)

theorem move_drop {s : Script H} {a : Answer} (frames : List (Frame H)) (held : w.isHeld m)
    (inert : ∀ f ∈ frames, f.isPlain) :
    Move p ⟨w, h, .run s, rest⟩
      (settleHandle m (.gave a)
        ⟨w.modifyMachine m MachineCell.dropHandle, h, .run s, frames ++ rest⟩) := by
  obtain ⟨cell, found, held⟩ := exists_of_isHeld held
  rw [settleHandle, isAlive_modifyMachine found]
  split
  · next alive =>
    exact .ofCall frames found (.drop held alive rfl rfl inert)
      (.edit found MachineCell.dropHandle)
  · next dead =>
    rw [dismantle_eq found]
    exact .ofCall (.dismantling m :: .settling (.gave a) :: frames) found
      (.dropLast held (by simpa using dead) rfl inert)
      (turned_twice found MachineCell.dropHandle MachineCell.clearCurrent)

theorem isCallOn_send {source : SourceId} {e : Event} :
    (Control.send m source e : Control H).isCallOn m := beq_self_eq_true m

theorem isCallOn_stop : (Control.stop m : Control H).isCallOn m := beq_self_eq_true m

theorem move_start {s : Script H} {d : Definition} {settings : Settings} {signal : Option ScopeId}
    (frames : List (Frame H)) (inert : ∀ f ∈ frames, f.isPlain) :
    Move p ⟨w, h, .run s, rest⟩ (start p d settings signal ⟨w, h, .run s, frames ++ rest⟩) := by
  unfold start
  split
  · exact .host frames (.refl w) rfl inert
  · let m : MachineId := ⟨w.machines.size⟩
    let cell : MachineCell H :=
      { uuid := Uuid.ofNat m.index, settings, manager := w.addManager.1, pins := 1 }
    show Move p _ ⟨{ w.addManager.2 with machines := w.machines.push cell }, h,
      .gather (p.collect cell.settings.delegationLimit d),
      .collecting (.initial m) :: .starting m signal :: (frames ++ rest)⟩
    refine .start frames ?_ (fun n => ?_) rfl rfl rfl ⟨settings, _, rfl⟩ inert ⟨rfl, rfl⟩
    · simp [World.machine?, m]
    · simp only [World.machine?, Array.getElem?_push, ← MachineId.index_inj, m]

theorem move_call {call : Call (Script H)} {k : Answer → Script H} :
    Move p ⟨w, h, .run (.call call k), rest⟩
      (p.call call ⟨w, h, .run (.call call k), .await k :: rest⟩) := by
  have awaits : ∀ f ∈ [(.await k : Frame H)], f.isPlain := by simp [Frame.isPlain, Frame.isInert,
    Frame.machine?]
  have settles : ∀ f ∈ [.settling (.gave .unit), (.await k : Frame H)], f.isPlain := by
    simp [Frame.isPlain, Frame.isInert, Frame.machine?]
  have same (a : Answer) :
      Move p ⟨w, h, .run (.call call k), rest⟩ ⟨w, h, .give a, .await k :: rest⟩ :=
    .host [.await k] (.refl w) rfl awaits
  cases call with
  | newManager => exact .host [.await k] ⟨rfl, rfl, rfl, rfl⟩ rfl awaits
  | newScope manager => exact .newScope [.await k] rfl awaits
  | release scope =>
    simp only [Program.call]
    split
    · next external => exact .callRelease [.await k] external awaits
    · exact same _
  | onCancel token t =>
    simp only [Program.call, onCancel]
    split
    · exact .host [.settling (.gave .unit), .await k] (.refl w) rfl settles
    · next live =>
      exact .hang [.settling (.gave .unit), .await k] (Bool.eq_false_iff.2 live) rfl settles
  | listen slot kind handler token =>
    simp only [Program.call]
    split
    · exact .host [.settling (.gave .unit), .await k] (.refl w) rfl settles
    · exact .listen [.await k] rfl awaits
  | emit slot e =>
    simp only [Program.call, emit]
    split
    · exact same _
    · exact .host [.dispatching e _ {}, .await k] (.refl w) rfl (by
        simp [Frame.isPlain, Frame.isInert, Frame.machine?])
  | arm slot kind after token => exact .arm [.await k] rfl awaits
  | advance slot span =>
    simp only [Program.call, advance]
    split
    · exact same _
    · exact .host [.advancing slot _ {}, .await k] (.refl w) rfl (by
        simp [Frame.isPlain, Frame.isInert, Frame.machine?])
  | collect d limit =>
    exact .collect [.collecting .view, .await k] (by
      simp [Frame.isPlain, Frame.isInert, Frame.machine?])
  | enter d limit token =>
    exact .collect [.collecting (.enter token), .await k] (by
      simp [Frame.isPlain, Frame.isInert, Frame.machine?])
  | start d settings signal => exact move_start [.await k] awaits
  | hold m =>
    simp only [Program.call]
    split
    · next held =>
      obtain ⟨cell, found, held⟩ := exists_of_isHeld held
      exact .ofCall [.await k] found (.hold held rfl rfl awaits) (.edit found MachineCell.hold)
    · exact same _
  | drop m =>
    simp only [Program.call]
    split
    · next held => exact move_drop [.await k] held awaits
    · exact same _
  | send m source e =>
    simp only [Program.call]
    split
    · next held => exact move_pin [.await k] (isAlive_of_isHeld held) isCallOn_send awaits (by simp)
    · exact same _
  | forward m source e =>
    simp only [Program.call, forward]
    split
    · next alive =>
      exact move_pin [.forwarding, .await k] alive isCallOn_send (by
        simp [Frame.isPlain, Frame.isInert, Frame.machine?]) (by simp)
    · exact same _
  | stop m =>
    simp only [Program.call]
    split
    · next held =>
      exact move_pin [.await k] (isAlive_of_isHeld held) isCallOn_stop awaits fun _ => held
    · exact same _
  | observe m f token =>
    simp only [Program.call]
    split
    · next held => exact move_addObserver (o := .script f) [.await k] held (by simp) rfl awaits
    · exact same _
  | stream m token =>
    simp only [Program.call]
    split
    · next held =>
      exact move_addObserver (o := .stream ⟨w.streams.size⟩) [.await k] held
        (fun s h => by cases h; rfl) rfl awaits
    · exact same _
  | read stream => exact .read

/-! ## Answers -/

theorem alike_modifyMachine (none : w.machine? m = none) (f : MachineCell H → MachineCell H) :
    w.Alike (w.modifyMachine m f) where
  scopes := rfl
  sources := rfl
  streams := rfl
  machines := by
    apply Array.ext_getElem?
    intro i
    rw [World.modifyMachine, Array.getElem?_modify]
    split
    · next hi => rw [← hi, show w.machines[m.index]? = Option.none from none, Option.map_none]
    · rfl

theorem move_runTeardowns {s : ScopeId} {ts : List (Teardown H)} {a : Answer} :
    Move p ⟨w, h, .give a, .releasing s ts :: rest⟩
      (runTeardowns s ts ⟨w, h, .give a, rest⟩) := by
  have loosely {t : Teardown H} {ts : List (Teardown H)} {ctl : Control H} {w' : World H}
      (alike : w.Alike w') (loose : t.isLoose) (plain : ctl.isPlain) :
      Move p ⟨w, h, .give a, .releasing s (t :: ts) :: rest⟩
        ⟨w', h, ctl, .releasing s ts :: rest⟩ :=
    .idle [.releasing s (t :: ts)] [.releasing s ts] rest alike (.teardown loose) rfl plain
      fun _ => deed?_free rfl
  cases ts with
  | nil =>
    refine .pass [] ?_ rfl rfl (by simp)
    simp only [mapWorld, World.countRelease]
    split <;> exact ⟨rfl, rfl, rfl, rfl⟩
  | cons t ts =>
    cases t with
    | unlisten slot number => exact .unlisten rfl
    | disarm slot number => exact .disarm rfl
    | unobserve m number =>
      cases found : w.machine? m with
      | none =>
        exact .unobserveGone (alike_modifyMachine found _) found rfl
      | some cell =>
        exact .ofInert [.releasing s ts] rfl found (.unobserve rfl)
          (.edit found fun cell => { cell with observers := cell.observers.remove number })
    | stop m =>
      simp only [runTeardowns, performTeardown]
      split
      · next alive =>
        obtain ⟨cell, found, alive⟩ := exists_of_isAlive alive
        exact .ofInert [.holding m, .releasing s ts] rfl found
          (.pin alive rfl isCallOn_stop (.teardown rfl) fun _ => .inr ⟨s, ts, rfl⟩)
          (.edit found MachineCell.pin)
      · exact loosely (.refl w) rfl rfl
    | run t => exact loosely (.refl w) rfl rfl

theorem move_dispatchNext {e : Event} {before ls : List (Registration (Listener H))}
    {report report' : Report} {a : Answer} {h' : H} :
    Move p ⟨w, h, .give a, .dispatching e before report :: rest⟩
      (dispatchNext e ls report' ⟨w, h', .give a, rest⟩) := by
  have dispatches {ls : List (Registration (Listener H))} {report : Report} :
      ∀ f ∈ [(.dispatching e ls report : Frame H)], f.isPlain := by
    simp [Frame.isPlain, Frame.isInert, Frame.machine?]
  cases ls with
  | nil => exact .pass [] (.refl w) rfl rfl (by simp)
  | cons r ls =>
    simp only [dispatchNext]
    split
    · exact .pass [.dispatching e ls report'] (.refl w) rfl rfl dispatches
    · cases hl : r.listener with
      | route m source =>
        simp only [invoke, forward]
        split
        · next alive =>
          obtain ⟨cell, found, alive⟩ := exists_of_isAlive alive
          refine .ofInert [.holding m, .forwarding, .dispatching e ls _] rfl found
            (.pin alive rfl isCallOn_send (.inert ?_ ?_) (by simp)) (.edit found MachineCell.pin)
          · simp [Frame.isInert, Frame.machine?]
          · simp [Frame.isPlain, Frame.isInert, Frame.machine?]
        · exact .pass [.dispatching e ls _] (.refl w) rfl rfl dispatches
      | handler f => exact .pass [.dispatching e ls _] (.refl w) rfl rfl dispatches

theorem move_advanceNext {slot : Nat} {target : Span} {report report' : Report} {a : Answer} :
    Move p ⟨w, h, .give a, .advancing slot target report :: rest⟩
      (advanceNext p slot target report' ⟨w, h, .give a, rest⟩) := by
  unfold advanceNext
  split
  · exact .pass [] (.refl w) rfl rfl (by simp)
  · split
    · exact .reached rfl
    · next source _ d clock _ =>
      have ticks {ctl : Control H} {h' : H} (frames : List (Frame H)) (plain : ctl.isPlain)
          (inert : ∀ f ∈ frames, f.isPlain) :
          Move p ⟨w, h, .give a, .advancing slot target report :: rest⟩
            ⟨w.modifySource slot (SourceCell.modifyClock fun _ => clock), h', ctl,
              frames ++ .advancing slot target report' :: rest⟩ :=
        .tick frames plain inert
      dsimp only
      split
      · exact ticks [] rfl (by simp)
      · simp only [emit]
        split
        · exact ticks [] rfl (by simp)
        · exact ticks [.dispatching (firing d) _ {}] rfl (by
            simp [Frame.isPlain, Frame.isInert, Frame.machine?])

/-! ## Answers to a machine -/

variable {a : Answer}

theorem move_drain {kind : String} {first : Option (Except MachineError Delivery)}
    {r : Except MachineError Delivery} {h' : H} (found : w.machine? m = some cell) :
    Move p ⟨w, h, .give a, .draining m kind first :: rest⟩ (drain m r ⟨w, h', .give a, rest⟩) := by
  have quiet : deed? m ⟨w, h, .give a, .draining m kind first :: rest⟩ = none := by
    simp [deed?, found]
  simp only [drain, found, Option.bind_some]
  split
  · next empty =>
    exact .ofAnswer [] rfl found quiet (.finish empty rfl) (.edit found MachineCell.endDraining)
  · next source e head =>
    exact .ofAnswer [.draining m e.kind (some r)] rfl found quiet (.next head)
      (.edit found MachineCell.dequeue)

theorem deed?_install {x : Activation H} {stage : Stage H} {r : Except Fault Unit}
    (found : w.machine? m = some cell) :
    deed? m ⟨w, h, .give (.result r), .subscribing m x [] stage :: rest⟩ =
      cell.installing? x (w.wallClock w.readings) stage := by
  simp [deed?, found]

theorem move_install {x : Activation H} {stage : Stage H} {r : Except Fault Unit} {h' : H}
    (found : w.machine? m = some cell) :
    Move p ⟨w, h, .give (.result r), .subscribing m x [] stage :: rest⟩
      (install p m x stage ⟨w, h', .give (.result r), rest⟩) := by
  have deed (stage : Stage H) :
      deed? m ⟨w, h, .give (.result r), .subscribing m x [] stage :: rest⟩ =
        cell.installing? x (w.wallClock w.readings) stage :=
    deed?_install found
  cases stage with
  | initial =>
    specialize deed .initial
    simp only [MachineCell.installing?] at deed
    simp only [install, mapWorld, found]
    split
    · next stopped =>
      exact .ofAnswer [.settling _] rfl found deed (.beginStopped stopped)
        (.edit found fun n => (n.install x).clearCurrent)
    · next idle =>
      exact .ofAnswer [] rfl found deed (.begin idle) (.edit found (MachineCell.begin x))
  | commit event previous =>
    specialize deed (.commit event previous)
    simp only [MachineCell.installing?] at deed
    simp only [install, mapWorld, found]
    split
    · next running =>
      rw [if_pos running] at deed
      exact .ofAnswer [.publishing m _ _] rfl found deed (.commit running)
        ⟨(World.Turned.edit found _).machine, rfl, rfl, rfl⟩
    · next stopped =>
      rw [if_neg stopped] at deed
      exact .ofAnswer [.settling _] rfl found deed (.orphan stopped (by simp)) (.same found)
  | restore state cause =>
    specialize deed (.restore state cause)
    simp only [MachineCell.installing?] at deed
    simp only [install, mapWorld, found]
    split
    · next running =>
      exact .ofAnswer [] rfl found deed (.restore running)
        (.edit found fun n => { n with current := some x })
    · next stopped =>
      exact .ofAnswer [.settling _] rfl found deed (.orphan stopped (by simp)) (.same found)

theorem move_subscribeNext {x : Activation H} {routes : List Route} {stage : Stage H}
    {r : Except Fault Unit} (found : w.machine? m = some cell) :
    Move p ⟨w, h, .give (.result r), .subscribing m x routes stage :: rest⟩
      (subscribeNext p m x routes stage ⟨w, h, .give (.result r), rest⟩) := by
  cases routes with
  | nil => exact move_install found
  | cons route routes =>
    have quiet :
        deed? m ⟨w, h, .give (.result r), .subscribing m x (route :: routes) stage :: rest⟩ =
          none := by
      simp [deed?, found]
    simp only [subscribeNext]
    split
    · next subscribe hosted =>
      exact .ofAnswer [.subscribing m x routes stage] rfl found quiet (.subscribeHosted hosted)
        (.same found)
    · next plain =>
      refine .ofAnswer [.subscribing m x routes stage] rfl found quiet (.subscribe plain)
        ⟨fun n => ?_, rfl, rfl, World.streams_register⟩
      show (w.register _ _ _ _).machine? n = _
      rw [World.machine?_register]
      exact (World.Turned.same found).machine n

theorem move_fallBack {state : String} {error : DefinitionError} {stage : Stage H}
    (found : w.machine? m = some cell) :
    Move p ⟨w, h, .give .unit, .abandoning m state error stage :: rest⟩
      (fallBack p m state error stage ⟨w, h, .give .unit, rest⟩) := by
  have quiet : deed? m ⟨w, h, .give .unit, .abandoning m state error stage :: rest⟩ = none := by
    simp [deed?, found]
  cases stage with
  | initial =>
    exact .ofAnswer [] rfl found quiet (.startFailed (.inr ⟨state, error, rfl⟩) rfl rfl)
      (.same found)
  | commit event previous =>
    simp only [fallBack, record, activate_eq found]
    exact .ofAnswer [.acting previous.name ⟨w.scopes.size⟩ previous.actions,
        .activating m previous ⟨w.scopes.size⟩ (.restore state error)] rfl found quiet
      (.enter .again) (turned_activate found)
  | restore target cause =>
    exact .ofAnswer [.settling _] rfl found quiet .restoreFailed (.same found)

theorem move_leaving {previous next : Collected (Entry H)} {event : String} {h' : H}
    (found : w.machine? m = some cell) :
    Move p ⟨w, h, .give .unit, .leaving m previous next event :: rest⟩
      (activate m next (.commit event previous) ⟨w, h', .give .unit, rest⟩) := by
  have quiet : deed? m ⟨w, h, .give .unit, .leaving m previous next event :: rest⟩ = none := by
    simp [deed?, found]
  rw [activate_eq found]
  exact .ofAnswer [.acting next.name ⟨w.scopes.size⟩ next.actions,
      .activating m next ⟨w.scopes.size⟩ (.commit event previous)] rfl found quiet
    (.enter .next) (turned_activate found)

theorem move_publishNext {change : Change} {os : List (Registration (Observer H))}
    {r : Except Fault Unit} {h' : H} (found : w.machine? m = some cell) :
    Move p ⟨w, h, .give (.result r), .publishing m change os :: rest⟩
      (publishNext m change os ⟨w, h', .give (.result r), rest⟩) := by
  cases os with
  | nil => exact .ofAnswer [] rfl found (by simp [deed?, found]) .published (.same found)
  | cons o os =>
    simp only [publishNext]
    split
    · next cancelled =>
      have quiet :
          deed? m ⟨w, h, .give (.result r), .publishing m change (o :: os) :: rest⟩ = none := by
        simp [deed?, found, cancelled]
      exact .ofAnswer [.publishing m change os] rfl found quiet (.passOver cancelled)
        (.same found)
    · next live =>
      have live : w.isCancelled o.token = false := Bool.eq_false_iff.2 live
      have told : deed? m ⟨w, h, .give (.result r), .publishing m change (o :: os) :: rest⟩ =
          some (.told o.number change) := by
        simp [deed?, found, live]
      simp only [notify]
      split
      · next f listener =>
        refine .ofAnswer [.publishing m change os] rfl found told (.tell live rfl)
          ⟨(World.Turned.same found).machine, rfl, rfl, ?_⟩
        rw [Effect.streams, listener]
        rfl
      · next s listener =>
        refine .ofAnswer [.publishing m change os] rfl found told (.tell live rfl)
          ⟨(World.Turned.same found).machine, rfl, rfl, ?_⟩
        rw [Effect.streams, listener]
        rfl

theorem move_unpin {f : Frame H} {o : Outcome} (pin : Pins m f) (found : w.machine? m = some cell) :
    Move p ⟨w, h, .give a, f :: rest⟩ (unpin m o ⟨w, h, .give a, rest⟩) := by
  have works : f.machine? = some m := by cases pin <;> rfl
  have quiet : deed? m ⟨w, h, .give a, f :: rest⟩ = none := by
    cases pin <;> simp [deed?, found]
  simp only [unpin, mapWorld, settleHandle, isAlive_modifyMachine found]
  split
  · next alive =>
    cases o with
    | gave b => exact .ofAnswer [] works found quiet (.unpin pin alive rfl rfl) (.edit found _)
    | panicked message =>
      exact .ofAnswer [] works found quiet (.unpin pin alive rfl rfl) (.edit found _)
  · next dead =>
    rw [dismantle_eq found]
    exact .ofAnswer [.dismantling m, .settling o] works found quiet
      (.unpinLast pin (by simpa using dead) rfl)
      (turned_twice found MachineCell.unpin MachineCell.clearCurrent)

theorem move_handOver {f : Frame H} (pin : f = .starting m none ∨ f = .signalled m)
    (found : w.machine? m = some cell) :
    Move p ⟨w, h, .give a, f :: rest⟩ (handOver m ⟨w, h, .give a, rest⟩) := by
  have works : f.machine? = some m := by rcases pin with rfl | rfl <;> rfl
  have quiet : deed? m ⟨w, h, .give a, f :: rest⟩ = none := by
    rcases pin with rfl | rfl <;> simp [deed?, found]
  exact .ofAnswer [] works found quiet (.handOver pin rfl)
    (.edit found fun cell => cell.unpin.hold)

theorem turned_hang {s : ScopeId} {t : Teardown H} (found : w.machine? m = some cell) :
    w.Turned m cell (.hang s t) (w.addTeardown s t) where
  machine n := (World.Turned.same found).machine n
  scopes := rfl
  sources := rfl
  streams := rfl

theorem move_signal {signal : ScopeId} (found : w.machine? m = some cell) :
    Move p ⟨w, h, .give a, .starting m (some signal) :: rest⟩
      (onCancel signal (.stop m) ⟨w, h, .give a, .signalled m :: rest⟩) := by
  have quiet : deed? m ⟨w, h, .give a, .starting m (some signal) :: rest⟩ = none := by
    simp [deed?, found]
  have life : w.isAlive m = cell.isAlive := by simp [World.isAlive, found]
  simp only [onCancel, performTeardown, life]
  split
  · next cancelled =>
    split
    · next alive =>
      exact .ofAnswer [.holding m, .signalled m] rfl found quiet (.signalAtOnce cancelled alive)
        (.edit found MachineCell.pin)
    · next dead =>
      exact .ofAnswer [.signalled m] rfl found quiet
        (.signalGone cancelled (Bool.eq_false_iff.2 dead) rfl) (.same found)
  · next live =>
    exact .ofAnswer [.signalled m] rfl found quiet (.signal (Bool.eq_false_iff.2 live) rfl)
      (turned_hang found)

theorem move_stopping {h' : H} (found : w.machine? m = some cell) :
    Move p ⟨w, h, .give .unit, .stopping m :: rest⟩
      ⟨w.modifyMachine m MachineCell.clearPending, h', .give .unit, rest⟩ :=
  .ofAnswer [] rfl found (by simp [deed?, found]) (.stopped rfl)
    (.edit found MachineCell.clearPending)

theorem move_dismantling (found : w.machine? m = some cell) :
    Move p ⟨w, h, .give .unit, .dismantling m :: rest⟩
      ⟨w.modifyMachine m MachineCell.clearObservers, h, .give .unit, rest⟩ :=
  .ofAnswer [] rfl found (by simp [deed?, found]) (.dismantled rfl rfl)
    (.edit found MachineCell.clearObservers)

theorem move_entered {x : Collected (Entry H)} {scope : ScopeId} {stage : Stage H}
    (found : w.machine? m = some cell) :
    Move p ⟨w, h, .give (.entered (.ok ())), .activating m x scope stage :: rest⟩
      (subscribe m ⟨x, .build x.directives, scope⟩ stage
        ⟨w, h, .give (.entered (.ok ())), rest⟩) :=
  .ofAnswer [.subscribing m ⟨x, .build x.directives, scope⟩ _ stage] rfl found
    (by simp [deed?, found]) .entered (.same found)

theorem move_failed {x : Collected (Entry H)} {scope : ScopeId} {stage : Stage H}
    {error : DefinitionError} (found : w.machine? m = some cell) :
    Move p ⟨w, h, .give (.entered (.error error)), .activating m x scope stage :: rest⟩
      ⟨w, h, .release scope, .abandoning m x.name error stage :: rest⟩ :=
  .ofAnswer [.abandoning m x.name error stage] rfl found (by simp [deed?, found]) .fail
    (.same found)

theorem move_settle {o : Outcome} :
    Move p ⟨w, h, .give a, .settling o :: rest⟩ (settle o ⟨w, h, .give a, rest⟩) := by
  cases o with
  | gave b => exact .pass [] (.refl w) rfl rfl (by simp)
  | panicked message => exact .pass [] (.refl w) rfl rfl (by simp)

theorem move_actNext {state : String} {token : ScopeId} {before actions : List (Entry H)} :
    Move p ⟨w, h, .give a, .acting state token before :: rest⟩
      (actNext state token actions ⟨w, h, .give a, rest⟩) := by
  cases actions with
  | nil => exact .pass [] (.refl w) rfl rfl (by simp)
  | cons action actions =>
    exact .pass [.acting state token actions] (.refl w) rfl rfl (by
      simp [Frame.isPlain, Frame.isInert, Frame.machine?])

theorem move_resume {f : Frame H} {c' : Config H}
    (grounded : ∀ m, f.machine? = some m → ∃ cell, w.machine? m = some cell)
    (step : p.resume f a ⟨w, h, .give a, rest⟩ = some c') :
    Move p ⟨w, h, .give a, f :: rest⟩ c' := by
  unfold Program.resume at step
  split at step
  -- The frames stand in the order in which they are resumed.
  · cases step; exact .pass [] (.refl w) rfl rfl (by simp)
  · cases step; exact .hear
  · cases step; exact move_actNext
  · cases step; exact .pass [] (.refl w) rfl rfl (by simp)
  · obtain ⟨cell, found⟩ := grounded _ rfl
    cases step; exact move_entered found
  · obtain ⟨cell, found⟩ := grounded _ rfl
    cases step; exact move_failed found
  · obtain ⟨cell, found⟩ := grounded _ rfl
    cases step; exact move_subscribeNext found
  · obtain ⟨cell, found⟩ := grounded _ rfl
    cases step; exact move_fallBack found
  · obtain ⟨cell, found⟩ := grounded _ rfl
    cases step; exact move_leaving found
  · obtain ⟨cell, found⟩ := grounded _ rfl
    cases step; exact move_publishNext found
  · obtain ⟨cell, found⟩ := grounded _ rfl
    cases step; exact move_publishNext found
  · cases step; exact move_runTeardowns
  · cases step; exact move_dispatchNext
  · cases step; exact move_dispatchNext
  · cases step; exact .pass [] (.refl w) rfl rfl (by simp)
  · obtain ⟨cell, found⟩ := grounded _ rfl
    cases step; exact move_drain found
  · next r =>
    obtain ⟨cell, found⟩ := grounded _ rfl
    cases step
    cases r <;> exact move_drain found
  · obtain ⟨cell, found⟩ := grounded _ rfl
    cases step; exact move_stopping found
  · obtain ⟨cell, found⟩ := grounded _ rfl
    cases step; exact move_unpin .holding found
  · obtain ⟨cell, found⟩ := grounded _ rfl
    cases step; exact move_unpin .starting found
  · obtain ⟨cell, found⟩ := grounded _ rfl
    cases step; exact move_handOver (.inl rfl) found
  · obtain ⟨cell, found⟩ := grounded _ rfl
    cases step; exact move_signal found
  · obtain ⟨cell, found⟩ := grounded _ rfl
    cases step; exact move_handOver (.inr rfl) found
  · obtain ⟨cell, found⟩ := grounded _ rfl
    cases step; exact move_dismantling found
  · cases step; exact move_advanceNext
  · cases step; exact move_settle
  · cases step

/-! ## Panics -/

theorem move_unwind {f : Frame H} {message : String} {c' : Config H}
    (grounded : ∀ m, f.machine? = some m → ∃ cell, w.machine? m = some cell)
    (step : unwind f message ⟨w, h, .panic message, rest⟩ = some c') :
    Move p ⟨w, h, .panic message, f :: rest⟩ c' := by
  have inert (hf : f.isInert) :
      Move p ⟨w, h, .panic message, f :: rest⟩ ⟨w, h, .panic message, rest⟩ :=
    .idle [f] [] rest (.refl w) (.inert (by simpa using hf) (by simp)) rfl rfl
      fun _ => deed?_panic
  have unwinds {m : MachineId} (hf : f.machine? = some m) (unwinds : Unwinds m f) :
      Move p ⟨w, h, .panic message, f :: rest⟩ ⟨w, h, .panic message, rest⟩ := by
    obtain ⟨cell, found⟩ := grounded m hf
    exact .ofPanic [] found (.unwind unwinds) (.same found)
  have unpins {m : MachineId} (hf : f.machine? = some m) (pin : Pins m f) :
      Move p ⟨w, h, .panic message, f :: rest⟩
        (unpin m (.panicked message) ⟨w, h, .panic message, rest⟩) := by
    obtain ⟨cell, found⟩ := grounded m hf
    simp only [unpin, mapWorld, settleHandle, isAlive_modifyMachine found]
    split
    · next alive => exact .ofPanic [] found (.unpin pin alive rfl rfl) (.edit found _)
    · next dead =>
      rw [dismantle_eq found]
      exact .ofPanic [.dismantling m, .settling (.panicked message)] found
        (.unpinLast pin (by simpa using dead) rfl)
        (turned_twice found MachineCell.unpin MachineCell.clearCurrent)
  cases f with
  | await k => cases step; exact inert rfl
  | gathering k => cases step; exact inert rfl
  | collecting purpose =>
    cases step
    cases purpose with
    | view => exact inert rfl
    | enter token => exact inert rfl
    | initial m => exact unwinds rfl .initial
    | transition m kind => exact unwinds rfl .transition
  | acting state token rest => cases step; exact inert rfl
  | activating m x scope stage =>
    obtain ⟨cell, found⟩ := grounded m rfl
    cases step
    exact .ofPanic [.settling _] found (.unwindScope (.inl ⟨x, stage, rfl⟩)) (.same found)
  | subscribing m x routes stage =>
    obtain ⟨cell, found⟩ := grounded m rfl
    cases step
    exact .ofPanic [.settling _] found (.unwindScope (.inr ⟨x, routes, stage, rfl, rfl⟩))
      (.same found)
  | abandoning m state error stage => cases step; exact unwinds rfl .abandoning
  | leaving m previous next event => cases step; exact unwinds rfl .leaving
  | publishing m change os => cases step; exact unwinds rfl .publishing
  | releasing s ts => cases step; exact .lose
  | dispatching e ls report => cases step; exact inert rfl
  | forwarding => cases step; exact inert rfl
  | draining m kind first =>
    obtain ⟨cell, found⟩ := grounded m rfl
    cases step
    exact .ofPanic [] found .unwindDraining (.edit found MachineCell.resetInbox)
  | stopping m => cases step; exact unwinds rfl .stopping
  | holding m => cases step; exact unpins rfl .holding
  | starting m signal => cases step; exact unpins rfl .starting
  | signalled m => cases step; exact unpins rfl .signalled
  | dismantling m =>
    obtain ⟨cell, found⟩ := grounded m rfl
    cases step
    exact .ofPanic [] found (.dismantled rfl rfl) (.edit found MachineCell.clearObservers)
  | advancing slot target report => cases step; exact inert rfl
  | settling o =>
    cases o with
    | gave a => cases step; exact inert rfl
    | panicked message => cases step

end Config

namespace Program

variable {p : Program H}

/-- Every step is a move. -/
theorem move_of_step {c c' : Config H} (grounded : c.Grounded) (step : p.step c = some c') :
    Move p c c' := by
  obtain ⟨w, h, ctl, stack⟩ := c
  cases ctl with
  | run s =>
    cases s with
    | done r => cases step; exact .host [] (.refl w) rfl (by simp)
    | panic message => cases step; exact .host [] (.refl w) rfl (by simp)
    | update f next => cases step; exact .host [] (.refl w) rfl (by simp)
    | look k => cases step; exact .host [] (.refl w) rfl (by simp)
    | call s k => cases step; exact Config.move_call
  | gather g =>
    cases g with
    | done r =>
      simp only [Program.step] at step
      split at step
      · next purpose rest =>
        cases step
        exact Config.move_useCollected fun m hm => grounded.frame (List.mem_cons_self ..) hm
      · cases step
    | perform s k => cases step; exact .ask
    | look k => cases step; exact .look
  | release s => cases step; exact Config.move_performRelease
  | stop m =>
    obtain ⟨cell, found⟩ := grounded.control rfl
    cases step; exact Config.move_performStop found
  | send m source e =>
    obtain ⟨cell, found⟩ := grounded.control rfl
    cases step; exact Config.move_performSend found
  | route m source e =>
    obtain ⟨cell, found⟩ := grounded.control rfl
    cases step; exact Config.move_performRoute found
  | give a =>
    cases stack with
    | nil => cases step
    | cons f rest =>
      exact Config.move_resume (fun m hm => grounded.frame (List.mem_cons_self ..) hm) step
  | panic message =>
    cases stack with
    | nil => cases step
    | cons f rest =>
      exact Config.move_unwind (fun m hm => grounded.frame (List.mem_cons_self ..) hm) step

end Program

end ScopedMachine

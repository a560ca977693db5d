import ScopedMachine.Proofs.Limits
import ScopedMachine.Proofs.Managers
import ScopedMachine.Proofs.Nascence
import ScopedMachine.Proofs.Origins

/-!
# A machine that may delegate deeper

A machine reads its limit of delegation where it begins to collect a state, and nowhere else.
`Program.step_allow` says that a configuration in which a machine has another limit goes the same
way, as long as what the machine collects comes to the same with that limit. Together with
`Program.PassesOnBelow.collect_of_le` this gives `Program.decided`: a higher limit changes nothing
that the lower one decides.
-/

namespace ScopedMachine

variable {H : Type}

/-! ## Another limit -/

/-- Let a machine delegate up to another limit. -/
def MachineCell.allow (limit : Nat) (cell : MachineCell H) : MachineCell H :=
  { cell with settings := { cell.settings with delegationLimit := limit } }

theorem MachineCell.inbox_allow {cell : MachineCell H} {limit : Nat} :
    (cell.allow limit).inbox = cell.inbox := rfl

/-- The same world, but that a machine delegates up to another limit. -/
def World.allow (m : MachineId) (limit : Nat) (w : World H) : World H :=
  w.modifyMachine m (MachineCell.allow limit)

/-- The same configuration, but that a machine delegates up to another limit. -/
def Config.allow (m : MachineId) (limit : Nat) (c : Config H) : Config H :=
  { c with world := c.world.allow m limit }

namespace World

variable {w : World H} {m n : MachineId} {limit : Nat}

/-- A machine differs from what it was in its limit at most. -/
theorem machine?_allow : (w.allow m limit).machine? n = (w.machine? n).map fun cell =>
    cell.allow (if n = m then limit else cell.settings.delegationLimit) := by
  rw [allow, machine?_modifyMachine]
  by_cases same : n = m
  · simp only [if_pos same]
  · simp only [if_neg same]
    exact (Option.map_id_apply).symm

theorem modifyMachine_allow {f : MachineCell H → MachineCell H}
    (apart : ∀ cell, f (cell.allow limit) = (f cell).allow limit) :
    (w.allow m limit).modifyMachine n f = (w.modifyMachine n f).allow m limit := by
  unfold allow modifyMachine
  dsimp only
  congr 1
  refine Array.ext_getElem? fun i => ?_
  simp only [Array.getElem?_modify]
  by_cases one : n.index = i <;> by_cases other : m.index = i <;>
    simp [one, other, Function.comp_def, apart]

theorem isAlive_allow : (w.allow m limit).isAlive n = w.isAlive n := by
  unfold isAlive
  rw [machine?_allow]
  cases w.machine? n <;> rfl

theorem isHeld_allow : (w.allow m limit).isHeld n = w.isHeld n := by
  unfold isHeld
  rw [machine?_allow]
  cases w.machine? n <;> rfl

theorem current?_allow : (w.allow m limit).current? n = w.current? n := by
  unfold current?
  rw [machine?_allow]
  cases w.machine? n <;> rfl

theorem source?_allow {slot : Nat} : (w.allow m limit).source? slot = w.source? slot := rfl

theorem isCancelled_allow {s : ScopeId} : (w.allow m limit).isCancelled s = w.isCancelled s := rfl

theorem register_allow {slot : Nat} {topic : String} {token : ScopeId} {l : Listener H} :
    (w.allow m limit).register slot topic token l =
      (w.register slot topic token l).allow m limit := by
  unfold register
  rw [source?_allow, isCancelled_allow]
  cases w.source? slot with
  | none => rfl
  | some source => dsimp only; split <;> rfl

theorem arm_allow {slot : Nat} {kind : String} {after : Span} {token : ScopeId} :
    (w.allow m limit).arm slot kind after token = (w.arm slot kind after token).allow m limit := by
  unfold arm
  rw [source?_allow, isCancelled_allow]
  cases w.source? slot with
  | none => rfl
  | some source => dsimp only; split <;> rfl

theorem addObserver_allow {token : ScopeId} {o : Observer H} :
    (w.allow m limit).addObserver n token o = (w.addObserver n token o).allow m limit := by
  unfold addObserver
  rw [machine?_allow]
  cases w.machine? n with
  | none => rfl
  | some cell =>
    change (if w.isCancelled token then _ else _) = _
    dsimp only [Option.map_some]
    split
    · rfl
    · exact congrArg (addTeardown token _) (modifyMachine_allow (by intro; rfl))

theorem countRelease_allow {s : ScopeId} :
    (w.allow m limit).countRelease s = (w.countRelease s).allow m limit := by
  unfold countRelease
  rw [show (w.allow m limit).scopes = w.scopes from rfl]
  cases (w.scopes[s.index]?).bind ScopeCell.manager <;> rfl

theorem addScope_allow {owner : Option MachineId} {manager : Option ManagerId} :
    (w.allow m limit).addScope owner manager =
      ((w.addScope owner manager).1, (w.addScope owner manager).2.allow m limit) := by
  cases manager <;> rfl

theorem nextMachine_allow : (w.allow m limit).nextMachine = w.nextMachine :=
  congrArg MachineId.mk Array.size_modify

theorem bear_allow {settings : Settings} (known : m.index < w.machines.size) :
    (w.allow m limit).bear settings = (w.bear settings).allow m limit := by
  have newborn : (w.allow m limit).newborn settings = w.newborn settings := by
    unfold newborn
    rw [nextMachine_allow]
    rfl
  have pushed : (w.machines.modify m.index (MachineCell.allow limit)).push (w.newborn settings) =
      (w.machines.push (w.newborn settings)).modify m.index (MachineCell.allow limit) := by
    refine Array.ext_getElem? fun i => ?_
    rw [Array.getElem?_push, Array.getElem?_modify, Array.getElem?_modify, Array.getElem?_push,
      Array.size_modify]
    split
    · next last => rw [if_neg (by omega)]
    · rfl
  unfold bear
  rw [newborn]
  exact congrArg (fun machines => { w.addManager.2 with machines }) pushed

theorem view_allow : (w.allow m limit).view = w.view := by
  have seen : (w.allow m limit).machineView? = w.machineView? := by
    funext n
    unfold machineView?
    rw [machine?_allow]
    cases w.machine? n <;> rfl
  unfold view
  rw [seen]
  rfl

end World

/-! ## Operations

None of these looks at the limit, but for `Config.performRoute`, which collects the target of an
event. -/

namespace Config

variable {c : Config H} {m n : MachineId} {limit : Nat} {p : Program H}

theorem world_allow : (c.allow m limit).world = c.world.allow m limit := rfl

theorem modifySource_allow {slot : Nat} {f : SourceCell H → SourceCell H} :
    (c.allow m limit).mapWorld (World.modifySource slot f) =
      (c.mapWorld (World.modifySource slot f)).allow m limit := rfl

theorem isExternal_allow {s : ScopeId} :
    (c.allow m limit).world.isExternal s = c.world.isExternal s := rfl

theorem push_allow {f : Frame H} : (c.allow m limit).push f = (c.push f).allow m limit := rfl

theorem record_allow {r : Record} :
    (c.allow m limit).record p r = (c.record p r).allow m limit := rfl

theorem modifyMachine_allow {f : MachineCell H → MachineCell H}
    (apart : ∀ cell, f (cell.allow limit) = (f cell).allow limit) :
    (c.allow m limit).mapWorld (World.modifyMachine n f) =
      (c.mapWorld (World.modifyMachine n f)).allow m limit := by
  unfold mapWorld
  rw [world_allow, World.modifyMachine_allow apart]
  rfl

theorem settleHandle_allow {o : Outcome} :
    (c.allow m limit).settleHandle n o = (c.settleHandle n o).allow m limit := by
  unfold settleHandle dismantle
  rw [world_allow, World.isAlive_allow, World.current?_allow, modifyMachine_allow (by intro; rfl)]
  split
  · cases o <;> rfl
  · cases c.world.current? n <;> rfl

theorem unpin_allow {o : Outcome} : (c.allow m limit).unpin n o = (c.unpin n o).allow m limit := by
  unfold unpin
  rw [modifyMachine_allow (by intro; rfl), settleHandle_allow]

theorem pin_allow : (c.allow m limit).pin n = (c.pin n).allow m limit := by
  unfold pin
  rw [modifyMachine_allow (by intro; rfl)]
  rfl

theorem performStop_allow : (c.allow m limit).performStop n = (c.performStop n).allow m limit := by
  unfold performStop
  rw [modifyMachine_allow (by intro; rfl), world_allow, World.machine?_allow]
  cases c.world.machine? n with
  | none => rfl
  | some cell =>
    change (if cell.status = .stopped then _ else _) = _
    dsimp only
    split
    · rfl
    · change releaseActivation cell.current _ = _
      cases cell.current <;> rfl

theorem performTeardown_allow {t : Teardown H} :
    (c.allow m limit).performTeardown t = (c.performTeardown t).allow m limit := by
  cases t with
  | unobserve n number =>
    unfold performTeardown
    dsimp only
    rw [modifyMachine_allow (by intro; rfl)]
    rfl
  | stop n =>
    unfold performTeardown
    dsimp only
    rw [world_allow, World.isAlive_allow, pin_allow]
    split <;> rfl
  | unlisten | disarm | run => rfl

theorem performRelease_allow {s : ScopeId} :
    (c.allow m limit).performRelease s = (c.performRelease s).allow m limit := by
  unfold performRelease
  change (if c.world.isCancelled s then _ else _) = _
  split <;> rfl

theorem runTeardowns_allow {s : ScopeId} {ts : List (Teardown H)} :
    (c.allow m limit).runTeardowns s ts = (c.runTeardowns s ts).allow m limit := by
  cases ts with
  | nil =>
    unfold runTeardowns mapWorld
    rw [world_allow, World.countRelease_allow]
    rfl
  | cons t rest => exact performTeardown_allow (c := c.push (.releasing s rest))

theorem onCancel_allow {s : ScopeId} {t : Teardown H} :
    (c.allow m limit).onCancel s t = (c.onCancel s t).allow m limit := by
  unfold onCancel
  rw [performTeardown_allow]
  change (if c.world.isCancelled s then _ else _) = _
  split <;> rfl

theorem performSend_allow {source : SourceId} {e : Event} :
    (c.allow m limit).performSend p n source e = (c.performSend p n source e).allow m limit := by
  unfold performSend
  rw [modifyMachine_allow (by intro; rfl), modifyMachine_allow (by intro; rfl), world_allow,
    World.machine?_allow]
  cases c.world.machine? n with
  | none => rfl
  | some cell =>
    change (if cell.inbox.draining then _ else _) = _
    dsimp only
    split <;> rfl

theorem forward_allow {source : SourceId} {e : Event} :
    (c.allow m limit).forward n source e = (c.forward n source e).allow m limit := by
  unfold forward
  rw [world_allow, World.isAlive_allow]
  split
  · exact congrArg (Config.send n source e) (pin_allow (c := c.push .forwarding))
  · rfl

theorem drain_allow {first : Except MachineError Delivery} :
    (c.allow m limit).drain n first = (c.drain n first).allow m limit := by
  unfold drain
  rw [modifyMachine_allow (by intro; rfl), modifyMachine_allow (by intro; rfl), world_allow,
    World.machine?_allow]
  cases c.world.machine? n with
  | none => rfl
  | some cell =>
    dsimp only [Option.map_some, Option.bind_some, MachineCell.inbox_allow]
    cases cell.inbox.pending.head? <;> rfl

theorem dispatchNext_allow {e : Event} {ls : List (Registration (Listener H))} {report : Report} :
    (c.allow m limit).dispatchNext e ls report = (c.dispatchNext e ls report).allow m limit := by
  cases ls with
  | nil => rfl
  | cons r rest =>
    unfold dispatchNext invoke
    change (if c.world.isCancelled r.token then _ else _) = _
    dsimp only
    split
    · rfl
    · cases r.listener with
      | route n source =>
        exact forward_allow (c := c.push (.dispatching e rest _))
      | handler f => rfl

theorem emit_allow {slot : Nat} {e : Event} :
    (c.allow m limit).emit p slot e = (c.emit p slot e).allow m limit := by
  unfold emit
  rw [world_allow, World.source?_allow]
  cases c.world.source? slot <;> rfl

theorem notify_allow {o : Observer H} {change : Change} :
    (c.allow m limit).notify o change = (c.notify o change).allow m limit := by
  cases o <;> rfl

theorem publishNext_allow {change : Change} {os : List (Registration (Observer H))} :
    (c.allow m limit).publishNext n change os = (c.publishNext n change os).allow m limit := by
  cases os with
  | nil => rfl
  | cons r rest =>
    unfold publishNext
    change (if c.world.isCancelled r.token then _ else _) = _
    dsimp only
    split
    · rfl
    · exact notify_allow (c := c.push (.publishing n change rest))

theorem advanceNext_allow {slot : Nat} {target : Span} {report : Report} :
    (c.allow m limit).advanceNext p slot target report =
      (c.advanceNext p slot target report).allow m limit := by
  unfold advanceNext
  rw [world_allow, World.source?_allow]
  cases c.world.source? slot with
  | none => rfl
  | some s =>
    dsimp only
    cases s.clock.take? target with
    | none => rfl
    | some x =>
      obtain ⟨d, clock⟩ := x
      dsimp only
      rw [modifySource_allow, push_allow, world_allow, World.isCancelled_allow]
      split
      · rfl
      · exact emit_allow (c := ((c.mapWorld _).push _).record p _)

theorem advance_allow {slot : Nat} {span : Span} :
    (c.allow m limit).advance slot span = (c.advance slot span).allow m limit := by
  unfold advance
  rw [world_allow, World.source?_allow]
  cases c.world.source? slot <;> rfl

theorem actNext_allow {state : String} {token : ScopeId} {actions : List (Entry H)} :
    (c.allow m limit).actNext state token actions =
      (c.actNext state token actions).allow m limit := by
  cases actions <;> rfl

theorem activate_allow {x : Collected (Entry H)} {stage : Stage H} :
    (c.allow m limit).activate n x stage = (c.activate n x stage).allow m limit := by
  unfold activate
  rw [world_allow, World.machine?_allow, World.addScope_allow]
  cases c.world.machine? n <;> rfl

theorem install_allow {a : Activation H} {stage : Stage H} :
    (c.allow m limit).install p n a stage = (c.install p n a stage).allow m limit := by
  unfold install
  rw [world_allow, World.machine?_allow]
  cases c.world.machine? n with
  | none => rfl
  | some cell =>
    cases stage with
    | initial =>
      dsimp only [Option.map_some]
      rw [modifyMachine_allow (by intro; rfl), modifyMachine_allow (by intro; rfl)]
      change (if cell.status = .stopped then _ else _) = _
      split <;> rfl
    | commit event previous =>
      dsimp only [Option.map_some]
      change (if cell.status = .running then _ else _) = _
      split
      · dsimp only [mapWorld]
        rw [world_allow, World.modifyMachine_allow (by intro; rfl)]
        rfl
      · rfl
    | restore state cause =>
      dsimp only [Option.map_some]
      rw [modifyMachine_allow (by intro; rfl)]
      change (if cell.status = .running then _ else _) = _
      split <;> rfl

theorem subscribeNext_allow {a : Activation H} {routes : List Route} {stage : Stage H} :
    (c.allow m limit).subscribeNext p n a routes stage =
      (c.subscribeNext p n a routes stage).allow m limit := by
  cases routes with
  | nil => exact install_allow (c := c.record p _)
  | cons r rest =>
    have edit : ((c.push (.subscribing n a rest stage)).allow m limit).mapWorld
        (World.register r.source.slot r.type a.scope (.route n r.source.id)) = _ :=
      congrArg (Config.mk · c.host c.control _) World.register_allow
    unfold subscribeNext
    simp only [push_allow, world_allow, World.source?_allow]
    split
    · rfl
    · rw [edit]
      rfl

theorem fallBack_allow {state : String} {error : DefinitionError} {stage : Stage H} :
    (c.allow m limit).fallBack p n state error stage =
      (c.fallBack p n state error stage).allow m limit := by
  cases stage with
  | commit event previous => exact activate_allow (c := c.record p _)
  | initial | restore => rfl

theorem useCollected_allow {purpose : Purpose}
    {r : Except DefinitionError (Collected (Entry H))} :
    (c.allow m limit).useCollected p purpose r = (c.useCollected p purpose r).allow m limit := by
  unfold useCollected
  cases purpose with
  | view | enter token => cases r <;> rfl
  | initial n =>
    cases r with
    | error e => rfl
    | ok x => exact activate_allow (c := c.record p _)
  | transition n kind =>
    cases r with
    | error e => rfl
    | ok x =>
      dsimp only
      rw [record_allow, world_allow, World.machine?_allow]
      cases (c.record p _).world.machine? n with
      | none => rfl
      | some cell =>
        rw [modifyMachine_allow (by intro; rfl)]
        dsimp only [Option.map_some, MachineCell.allow]
        split <;> rfl

theorem handOver_allow : (c.allow m limit).handOver n = (c.handOver n).allow m limit := by
  unfold handOver
  rw [modifyMachine_allow (by intro; rfl)]
  rfl

theorem isOpen_allow {s : StreamId} : (c.allow m limit).isOpen s = c.isOpen s := by
  unfold isOpen
  dsimp only
  congr 1
  rw [Bool.eq_iff_iff, Array.any_eq_true, Array.any_eq_true]
  simp only [allow, World.allow, World.modifyMachine, Array.size_modify, Array.getElem_modify]
  refine exists_congr fun i => exists_congr fun inside => ?_
  split <;> rfl

theorem performRoute_allow {source : SourceId} {e : Event}
    (agrees : ∀ cell target, n = m → c.world.machine? m = some cell →
      cell.target? source e.kind = some target →
      p.collect limit target = p.collect cell.settings.delegationLimit target) :
    (c.allow m limit).performRoute p n source e = (c.performRoute p n source e).allow m limit := by
  unfold performRoute
  rw [world_allow, World.machine?_allow]
  cases found : c.world.machine? n with
  | none => rfl
  | some cell =>
    dsimp only [Option.map_some, MachineCell.allow]
    by_cases running : cell.status ≠ .running
    · rw [if_pos running, if_pos running]
      rfl
    · rw [if_neg running, if_neg running]
      cases current : cell.current with
      | none => rfl
      | some a =>
        dsimp only
        by_cases terminal : cell.terminal = true
        · rw [if_pos terminal, if_pos terminal]
          rfl
        · rw [if_neg terminal, if_neg terminal]
          have same (target : Definition)
              (chosen : (a.routes.resolve source e.kind).target? = some target) :
              p.collect (if n = m then limit else cell.settings.delegationLimit) target =
                p.collect cell.settings.delegationLimit target := by
            split
            · next here =>
              refine agrees cell target here (here ▸ found) ?_
              unfold MachineCell.target?
              rw [if_pos ⟨not_not.1 running, Bool.not_eq_true _ ▸ terminal⟩, current]
              exact chosen
            · rfl
          cases resolved : a.routes.resolve source e.kind with
          | unmatched => rfl
          | matched target =>
            dsimp only
            rw [same target (by rw [resolved]; rfl)]
            rfl
          | ambiguous target names =>
            dsimp only
            rw [same target (by rw [resolved]; rfl)]
            rfl

theorem start_allow {d : Definition} {settings : Settings} {signal : Option ScopeId}
    (known : m.index < c.world.machines.size) :
    (c.allow m limit).start p d settings signal = (c.start p d settings signal).allow m limit := by
  unfold start
  cases settings.validate with
  | error e => rfl
  | ok =>
    have born : (c.world.allow m limit).bear settings = _ := World.bear_allow known
    have next : (c.world.allow m limit).nextMachine = c.world.nextMachine := World.nextMachine_allow
    dsimp only
    change Config.mk ((c.world.allow m limit).bear settings) _ _
      (.collecting (.initial (c.world.allow m limit).nextMachine) ::
        .starting (c.world.allow m limit).nextMachine signal :: c.stack) = _
    rw [born, next]
    rfl

theorem unwind_allow {f : Frame H} {message : String} :
    (c.allow m limit).unwind f message = (c.unwind f message).map (allow m limit) := by
  unfold unwind
  cases f with
  | draining n | dismantling n =>
    dsimp only
    rw [modifyMachine_allow (by intro; rfl)]
    rfl
  | holding n | starting n | signalled n =>
    dsimp only
    rw [unpin_allow]
    rfl
  | settling o => cases o <;> rfl
  | _ => rfl

theorem resume_allow {f : Frame H} {a : Answer} :
    p.resume f a (c.allow m limit) = (p.resume f a c).map (allow m limit) := by
  cases f with
  | await | collecting => rfl
  | settling o => cases o <;> rfl
  | gathering | activating | forwarding => cases a <;> first | rfl | (rename_i r; cases r <;> rfl)
  | releasing => exact congrArg some runTeardowns_allow
  | holding => exact congrArg some unpin_allow
  | acting =>
    cases a with
    | result r =>
      cases r with
      | ok => exact congrArg some actNext_allow
      | error => rfl
    | _ => rfl
  | subscribing =>
    cases a with
    | result => exact congrArg some subscribeNext_allow
    | _ => rfl
  | abandoning =>
    cases a with
    | unit => exact congrArg some fallBack_allow
    | _ => rfl
  | leaving =>
    cases a with
    | unit => exact congrArg some (activate_allow (c := c.record p _))
    | _ => rfl
  | publishing =>
    cases a with
    | result r =>
      cases r with
      | ok => exact congrArg some publishNext_allow
      | error => exact congrArg some (publishNext_allow (c := c.record p _))
    | _ => rfl
  | dispatching =>
    cases a with
    | result r =>
      cases r with
      | ok => exact congrArg some dispatchNext_allow
      | error => exact congrArg some (dispatchNext_allow (c := c.record p _))
    | _ => rfl
  | draining n kind first =>
    cases a with
    | delivered r =>
      cases first with
      | none => exact congrArg some drain_allow
      | some first =>
        cases r with
        | ok => exact congrArg some drain_allow
        | error => exact congrArg some (drain_allow (c := c.record p _))
    | _ => cases first <;> rfl
  | stopping n =>
    cases a with
    | unit =>
      unfold Program.resume
      dsimp only
      rw [modifyMachine_allow (by intro; rfl), world_allow, World.machine?_allow]
      cases c.world.machine? n <;> rfl
    | _ => rfl
  | starting n signal =>
    cases a with
    | entered r =>
      cases r with
      | error => cases signal <;> exact congrArg some unpin_allow
      | ok =>
        cases signal with
        | none => exact congrArg some handOver_allow
        | some => exact congrArg some (onCancel_allow (c := c.push _))
    | _ => cases signal <;> rfl
  | signalled =>
    cases a with
    | unit => exact congrArg some handOver_allow
    | _ => rfl
  | dismantling n =>
    cases a with
    | unit =>
      unfold Program.resume
      dsimp only
      rw [modifyMachine_allow (by intro; rfl)]
      rfl
    | _ => rfl
  | advancing =>
    cases a with
    | report => exact congrArg some advanceNext_allow
    | _ => rfl

theorem call_allow {s : Call (Script H)} (known : m.index < c.world.machines.size) :
    p.call s (c.allow m limit) = (p.call s c).allow m limit := by
  cases s with
  | newManager | collect | enter => rfl
  | newScope manager => cases manager <;> rfl
  | onCancel => exact onCancel_allow (c := c.push _)
  | emit => exact emit_allow
  | advance => exact advance_allow
  | forward => exact forward_allow
  | start => exact start_allow known
  | release scope =>
    unfold Program.call
    dsimp only
    rw [isExternal_allow]
    split <;> rfl
  | arm =>
    unfold Program.call mapWorld
    dsimp only
    rw [world_allow, World.arm_allow]
    rfl
  | listen =>
    unfold Program.call mapWorld
    dsimp only
    rw [world_allow, World.source?_allow, World.register_allow]
    split <;> rfl
  | hold n =>
    unfold Program.call
    dsimp only
    rw [modifyMachine_allow (by intro; rfl), world_allow, World.isHeld_allow]
    split <;> rfl
  | drop n =>
    unfold Program.call
    dsimp only
    rw [modifyMachine_allow (by intro; rfl), world_allow, World.isHeld_allow, settleHandle_allow]
    split <;> rfl
  | send n | stop n =>
    unfold Program.call
    dsimp only
    rw [pin_allow, world_allow, World.isHeld_allow]
    split <;> rfl
  | observe n =>
    unfold Program.call mapWorld
    dsimp only
    rw [world_allow, World.isHeld_allow, World.addObserver_allow]
    split <;> rfl
  | stream n token =>
    have edit (w : World H) (o : Observer H) : (w.allow m limit).addObserver n token o = _ :=
      World.addObserver_allow
    unfold Program.call mapWorld
    dsimp only
    rw [world_allow, World.isHeld_allow]
    split
    · exact congrArg (fun w : World H => Config.give (.stream _) { c with world := w })
        (edit { c.world with streams := c.world.streams.push [] } _)
    · rfl
  | read s =>
    unfold Program.call
    dsimp only
    rw [isOpen_allow]
    rfl

end Config

/-! ## Steps and runs -/

/-- What a machine collects next comes to the same with another limit. -/
def Config.Agrees (p : Program H) (m : MachineId) (limit : Nat) (c : Config H) : Prop :=
  ∀ i, c.seeks? m = some i → p.collect limit i.definition = p.collect i.limit i.definition

/-- The two configurations go on in the same way. -/
theorem Program.step_allow {p : Program H} {c : Config H} {m : MachineId} {limit : Nat}
    (known : m.index < c.world.machines.size) (agrees : c.Agrees p m limit) :
    p.step (c.allow m limit) = (p.step c).map (Config.allow m limit) := by
  obtain ⟨w, h, ctl, fs⟩ := c
  cases ctl with
  | run s =>
    cases s with
    | look k =>
      exact congrArg (fun v => some (Config.run (k h v) ⟨w.allow m limit, h, .run (.look k), fs⟩))
        World.view_allow
    | call s k =>
      exact congrArg some (Config.call_allow (c := Config.push (.await k) ⟨w, h, _, fs⟩) known)
    | _ => rfl
  | gather g =>
    cases g with
    | done r =>
      cases fs with
      | nil => rfl
      | cons f fs =>
        cases f with
        | collecting purpose => exact congrArg some (Config.useCollected_allow (c := ⟨w, h, _, fs⟩))
        | _ => rfl
    | perform => rfl
    | look k =>
      exact congrArg
        (fun v => some (Config.gather (k h v) ⟨w.allow m limit, h, .gather (.look k), fs⟩))
        World.view_allow
  | release s => exact congrArg some Config.performRelease_allow
  | stop n => exact congrArg some Config.performStop_allow
  | send n source e => exact congrArg some Config.performSend_allow
  | route n source e =>
    refine congrArg some (Config.performRoute_allow fun cell target same found leads => ?_)
    subst same
    refine agrees ⟨.transition n e.kind, cell.settings.delegationLimit, target⟩ ?_
    unfold Config.seeks?
    rw [Config.collects?_of_route rfl found leads]
    exact if_pos rfl
  | give a =>
    cases fs with
    | nil => rfl
    | cons f fs => exact Config.resume_allow (c := ⟨w, h, _, fs⟩)
  | panic message =>
    cases fs with
    | nil => rfl
    | cons f fs => exact Config.unwind_allow (c := ⟨w, h, _, fs⟩)

section Runs

variable {p : Program H} {c : Config H} {m : MachineId} {limit limit' : Nat}

/-- A machine is started with another limit. -/
theorem Program.step_start_allow {d : Definition} {settings : Settings} {signal : Option ScopeId}
    {k : Answer → Script H} (positive : 0 < settings.delegationLimit) (positive' : 0 < limit)
    (agrees : p.collect limit d = p.collect settings.delegationLimit d)
    (call : c.control = .run (.call (.start d settings signal) k)) :
    p.step (c.run (.call (.start d { settings with delegationLimit := limit } signal) k)) =
      (p.step c).map (Config.allow c.world.nextMachine limit) := by
  have born : c.world.bear { settings with delegationLimit := limit } =
      (c.world.bear settings).allow c.world.nextMachine limit := by
    unfold World.bear World.allow World.modifyMachine
    dsimp only
    congr 1
    refine Array.ext_getElem? fun i => ?_
    simp only [Array.getElem?_modify, Array.getElem?_push, World.nextMachine]
    by_cases last : i = c.world.machines.size
    · rw [if_pos last, if_pos last, if_pos last.symm]
      rfl
    · rw [if_neg last, if_neg last, if_neg (Ne.symm last)]
  have higher := p.step_start (x := c.run (.call
    (.start d { settings with delegationLimit := limit } signal) k)) rfl
    (if_neg (Nat.ne_of_gt positive'))
  rw [higher, p.step_start call (if_neg (Nat.ne_of_gt positive)), ← agrees]
  exact congrArg (fun w => some (Config.mk w _ _ _)) born

/-- As long as what a machine collects comes to the same with another limit, so does everything. -/
theorem Program.Run.run_allow {w : World H} {past : List (Config H)} {cell : MachineCell H}
    (run : p.Run w past c) (found : c.world.machine? m = some cell) (n : Nat)
    (agrees : ∀ k < n, (p.run k c).Agrees p m limit) :
    p.run n (c.allow m limit) = (p.run n c).allow m limit := by
  induction n generalizing past c cell with
  | zero => rfl
  | succ n ih =>
    have known : m.index < c.world.machines.size := (Array.getElem?_eq_some_iff.1 found).1
    have first := p.step_allow known (agrees 0 n.succ_pos)
    cases step : p.step c with
    | none =>
      rw [step] at first
      unfold Program.run
      rw [first, step]
      rfl
    | some c' =>
      rw [step] at first
      obtain ⟨cell', found'⟩ := (run.move step).stays found
      rw [run_succ first, run_succ step]
      refine ih (run.step step) found' fun k less => ?_
      rw [← run_succ step]
      exact agrees (k + 1) (Nat.succ_lt_succ less)

end Runs

/-! ## What the lower limit decides -/

/-- What a machine collects next does not come to its limit, and another limit is not lower. -/
def Config.Decides (p : Program H) (m : MachineId) (limit : Nat) (c : Config H) : Prop :=
  ∀ i, c.seeks? m = some i → i.limit ≤ limit ∧ p.IsSilentBelow i.definition ∧
    p.PassesOnBelow i.definition ∧
      ∀ e, p.collect i.limit i.definition = .done (.error e) → ¬e.IsTooDeep

theorem Config.Decides.agreement {p : Program H} {c : Config H} {m : MachineId} {limit : Nat}
    (decides : c.Decides p m limit) : c.Agrees p m limit := by
  intro i seeks
  obtain ⟨le, silent, passes, decided⟩ := decides i seeks
  obtain ⟨r, runs⟩ : ∃ r, p.collect i.limit i.definition = .done r := silent.exists_collect
  rw [runs]
  refine Program.PassesOnBelow.collect_of_le passes silent le runs fun e same => decided e ?_
  rw [runs, same]

/-- With a higher limit a definition comes to the same result. -/
structure Program.Indifferent (p : Program H) (limit limit' : Nat) (d : Definition)
    (r : Except DefinitionError (Collected (Entry H))) : Prop where
  /-- The name, the aliases and the directives are the same, or the error is. -/
  collects : p.collect limit' d = .done r
  /-- The host that asks for the definition is told the same. -/
  asks (c : Config H) : p.call (.collect d limit') c = p.call (.collect d limit) c
  /-- A check reports the same issues. -/
  checks : (p.collect limit' d).map d.issues = .done (d.issues r)
  /-- A machine that is started with the higher limit differs from one with the lower limit in that
  limit only. -/
  starts {c : Config H} {settings : Settings} {signal : Option ScopeId} {k : Answer → Script H}
    (lower : settings.delegationLimit = limit) (positive : 0 < limit)
    (call : c.control = .run (.call (.start d settings signal) k)) :
    p.step (c.run (.call (.start d { settings with delegationLimit := limit' } signal) k)) =
      (p.step c).map (Config.allow c.world.nextMachine limit')
  /-- So does one that has the higher limit when it collects the definition. -/
  moves {c : Config H} {m : MachineId} {i : Inquiry} (known : m.index < c.world.machines.size)
    (seeks : c.seeks? m = some i) (lower : i.limit = limit) (here : i.definition = d) :
    p.step (c.allow m limit') = (p.step c).map (Config.allow m limit')

/-- A higher limit changes nothing that the lower one decides: no collection that does not come to
the lower limit, and no run of a machine that collects nothing else. -/
theorem Program.decided (p : Program H) :
    (∀ {d limit limit'}, p.IsSilentBelow d → p.PassesOnBelow d → limit ≤ limit' →
      ∃ r, p.collect limit d = .done r ∧
        ((∃ e, r = .error e ∧ e.IsTooDeep) ∨ p.Indifferent limit limit' d r)) ∧
    ∀ {w past c m cell limit'}, p.Run w past c → c.world.machine? m = some cell →
      ∀ n, (∀ k < n, (p.run k c).Decides p m limit') →
        p.run n (c.allow m limit') = (p.run n c).allow m limit' := by
  constructor
  · intro d limit limit' silent passes le
    obtain ⟨r, runs⟩ := silent.exists_collect
    refine ⟨r, runs, ?_⟩
    by_cases deep : ∃ e, r = .error e ∧ e.IsTooDeep
    · exact .inl deep
    · have collects : p.collect limit' d = .done r :=
        passes.collect_of_le silent le runs fun e same tooDeep => deep ⟨e, same, tooDeep⟩
      have same : p.collect limit' d = p.collect limit d := collects.trans runs.symm
      refine .inr ⟨collects, fun c => ?_, ?_, ?_, ?_⟩
      · simp only [Program.call, same]
      · rw [collects]
        rfl
      · intro c settings signal k lower positive call
        subst lower
        exact p.step_start_allow positive (Nat.lt_of_lt_of_le positive le) same call
      · rintro c m i known seeks rfl rfl
        refine p.step_allow known fun j seeks' => ?_
        cases seeks.symm.trans seeks'
        exact same
  · intro w past c m cell limit' run found n decides
    exact run.run_allow found n fun k less => (decides k less).agreement

namespace Lamp

/-- Start the lamp at dusk with room for one delegate, and operate the switch. -/
def sunset : Script Unit :=
  .call (.start dusk { delegationLimit := 1 } none) fun _ =>
    .call (.emit 0 { kind := "toggle" }) fun _ => .ok

/-- Where the run begins in which the lamp is started at dusk. -/
def atSunset : Config Unit := { world, host := (), control := .run sunset }

theorem atSunset_run (n : Nat) :
    evening.Run world (evening.trail n atSunset) (evening.run n atSunset) :=
  (Program.Run.begin world_isFresh () sunset).trail n

theorem evening_isSilent (key : String) : (evening.declared key).IsSilent := by
  unfold evening
  dsimp only
  split
  · exact fun _ => trivial
  · trivial

theorem evening_passesOn (key : String) : (evening.declared key).PassesOn := by
  unfold evening
  dsimp only
  split
  · exact ⟨trivial, fun _ => rfl⟩
  · trivial

end Lamp

/-- At dusk one delegate is enough for the lamp, so that it may as well have five. The switch then
leads to a state without any. -/
theorem Program.decided_evening :
    Lamp.evening.IsSilentBelow Lamp.dusk ∧ Lamp.evening.PassesOnBelow Lamp.dusk ∧
      Lamp.evening.collect 1 Lamp.dusk = .done (.ok Lamp.duskState) ∧
      Lamp.evening.Indifferent 1 5 Lamp.dusk (.ok Lamp.duskState) ∧
      Lamp.evening.collect 0 Lamp.dusk = .done (.error (.tooDeep "Off" 0)) ∧
      Lamp.evening.run 18 ((Lamp.evening.run 9 Lamp.atSunset).allow ⟨0⟩ 5) =
        (Lamp.evening.run 18 (Lamp.evening.run 9 Lamp.atSunset)).allow ⟨0⟩ 5 := by
  obtain ⟨definitions, runs⟩ := Program.decided Lamp.evening
  have silent := Lamp.evening.isSilentBelow Lamp.evening_isSilent
  have passes := Lamp.evening.passesOnBelow Lamp.evening_passesOn
  refine ⟨silent _, passes _, rfl, ?_, rfl, runs (Lamp.atSunset_run 9) rfl 18 ?_⟩
  · obtain ⟨r, collects, outcome⟩ := definitions (silent Lamp.dusk) (passes _) (by decide : 1 ≤ 5)
    cases collects
    refine outcome.resolve_left ?_
    rintro ⟨e, same, _⟩
    cases same
  · -- of these steps only one begins to collect a state
    have others : ∀ k < 18, k ≠ 2 →
        ((Lamp.evening.run k (Lamp.evening.run 9 Lamp.atSunset)).seeks? ⟨0⟩).isNone := by decide
    intro k less i seeks
    by_cases here : k = 2
    · subst here
      cases seeks
      refine ⟨by decide, silent _, passes _, fun e collects => ?_⟩
      cases collects
    · rw [Option.isNone_iff_eq_none.1 (others k less here)] at seeks
      cases seeks

end ScopedMachine

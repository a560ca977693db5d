import ScopedMachine.Proofs.Course
import ScopedMachine.Proofs.Chronicle

/-!
# A machine is not stopped before it has started

Until its first state is entered nobody holds a handle on a machine, and no signal is to stop it. So
the first state is always installed in a machine that is idle.
-/

namespace ScopedMachine

variable {H : Type} {p : Program H} {m : MachineId}

/-! ## New machines -/

/-- The machine that is made next. -/
def World.nextMachine (w : World H) : MachineId := ⟨w.machines.size⟩

theorem World.machine?_nextMachine {w : World H} : w.machine? w.nextMachine = none := by
  simp [machine?, nextMachine]

/-- A machine that was just made. -/
def World.newborn (settings : Settings) (w : World H) : MachineCell H where
  uuid := Uuid.ofNat w.nextMachine.index
  settings
  manager := w.addManager.1
  pins := 1

/-- The world in which a machine was just made. -/
def World.bear (settings : Settings) (w : World H) : World H :=
  { w.addManager.2 with machines := w.machines.push (w.newborn settings) }

theorem World.machine?_bear {world : World H} {settings : Settings} {n : MachineId} :
    (world.bear settings).machine? n =
      if n = world.nextMachine then some (world.newborn settings) else world.machine? n := by
  simp only [machine?, bear, Array.getElem?_push, nextMachine]
  obtain ⟨i⟩ := n
  simp only [MachineId.mk.injEq]

/-- The first step of a start makes a machine and begins to collect the first state. -/
theorem Program.step_start {x : Config H} {d : Definition} {settings : Settings}
    {signal : Option ScopeId} {k : Answer → Script H}
    (call : x.control = .run (.call (.start d settings signal) k))
    (valid : settings.validate = .ok ()) :
    p.step x = some ⟨x.world.bear settings, x.host,
      .gather (p.collect settings.delegationLimit d),
      .collecting (.initial x.world.nextMachine) :: .starting x.world.nextMachine signal ::
        .await k :: x.stack⟩ := by
  obtain ⟨world, host, ctl, fs⟩ := x
  cases call
  simp only [Program.step, Program.call, Config.start, Config.push, valid]
  rfl

/-- When the only handle on a machine is given back, the machine is taken down. -/
theorem Config.unpin_of_last {w : World H} {h : H} {ctl : Control H} {rest : List (Frame H)}
    {cell : MachineCell H} {o : Outcome} (found : w.machine? m = some cell) (last : cell.pins = 1)
    (unheld : cell.handles = 0) :
    Config.unpin m o ⟨w, h, ctl, rest⟩ =
      ⟨(w.modifyMachine m MachineCell.unpin).modifyMachine m MachineCell.clearCurrent, h,
        .ofRelease cell.current, .dismantling m :: .settling o :: rest⟩ := by
  have dead : cell.unpin.isAlive = false :=
    MachineCell.isAlive_eq_false_iff.2 ⟨unheld, by simp [MachineCell.unpin, last]⟩
  have gone : (w.modifyMachine m MachineCell.unpin).isAlive m = false :=
    (Config.isAlive_modifyMachine found _).trans dead
  simp only [Config.unpin, Config.mapWorld, Config.settleHandle, gone, Bool.false_eq_true, if_false,
    Config.dismantle_eq found]
  rfl

/-! ## Signals -/

namespace World

variable {w : World H} {s token : ScopeId} {t u : Teardown H}

theorem mem_teardowns_addTeardown (h : u ∈ (w.addTeardown token t).teardowns s) :
    u ∈ w.teardowns s ∨ u = t := by
  rw [teardowns_eq, addTeardown, scope?_modifyScope] at h
  rw [teardowns_eq]
  split at h
  · cases found : w.scope? s with
    | none => simp [found] at h
    | some cell => simpa [found] using h
  · exact .inl h

theorem mem_teardowns_register {slot : Nat} {topic : String} {l : Listener H}
    (h : u ∈ (w.register slot topic token l).teardowns s) :
    u ∈ w.teardowns s ∨ ∃ number, u = .unlisten slot number := by
  unfold register at h
  split at h
  · exact .inl h
  · split at h
    · exact .inl h
    · rcases mem_teardowns_addTeardown h with h | h
      · exact .inl h
      · exact .inr ⟨_, h⟩

theorem mem_teardowns_arm {slot : Nat} {kind : String} {after : Span}
    (h : u ∈ (w.arm slot kind after token).teardowns s) :
    u ∈ w.teardowns s ∨ ∃ number, u = .disarm slot number := by
  unfold arm at h
  split at h
  · exact .inl h
  · split at h
    · exact .inl h
    · rcases mem_teardowns_addTeardown h with h | h
      · exact .inl h
      · exact .inr ⟨_, h⟩

theorem mem_teardowns_cancel (h : u ∈ (w.cancel token).teardowns s) : u ∈ w.teardowns s := by
  rw [teardowns_eq, cancel, scope?_modifyScope] at h
  rw [teardowns_eq]
  split at h
  · cases found : w.scope? s with
    | none => simp [found] at h
    | some cell => simp [found] at h
  · exact h

theorem teardowns_congr {w' : World H} (scopes : w'.scopes = w.scopes) :
    w'.teardowns s = w.teardowns s := by
  rw [teardowns_eq, teardowns_eq, scope?, scope?, scopes]

end World

/-- That a scope stops a machine comes from the start of the machine alone. -/
theorem Turn.hung_stop {w w' : World H} {n : MachineId} {d : Option Deed} {e : Effect H}
    {cell cell' : MachineCell H} {ctl ctl' : Control H} {pops pushes : List (Frame H)}
    {s : ScopeId} (turn : Turn p w n d e ⟨cell, ctl, pops⟩ ⟨cell', ctl', pushes⟩)
    (turned : w.Turned n cell' e w') (h : .stop m ∈ w'.teardowns s) :
    .stop m ∈ w.teardowns s ∨ ∃ signal, pops = [.starting m (some signal)] := by
  rw [World.teardowns_congr turned.scopes] at h
  cases turn with
  | enter enters => exact .inl (World.teardowns_addScope (w := w) ▸ h)
  | observe live =>
    rcases World.mem_teardowns_addTeardown h with h | h
    · exact .inl h
    · cases h
  | @signal _ _ signal live plain =>
    rcases World.mem_teardowns_addTeardown h with h | h
    · exact .inl h
    · cases h
      exact .inr ⟨_, rfl⟩
  | subscribe plain =>
    rcases World.mem_teardowns_register h with h | ⟨number, h⟩
    · exact .inl h
    · cases h
  | _ => exact .inl h

theorem Move.hung_stop {c c' : Config H} {s : ScopeId} (move : Move p c c')
    (h : .stop m ∈ c'.world.teardowns s) :
    .stop m ∈ c.world.teardowns s ∨ ∃ signal, c.stack.head? = some (.starting m (some signal)) := by
  cases move with
  | idle pops pushes rest alike | unobserveGone alike =>
    exact .inl (World.teardowns_congr alike.scopes ▸ h)
  | newScope => exact .inl (World.teardowns_addScope (H := H) ▸ h)
  | hang =>
    rcases World.mem_teardowns_addTeardown h with h | h
    · exact .inl h
    · cases h
  | release live => exact .inl (World.mem_teardowns_cancel h)
  | listen =>
    rcases World.mem_teardowns_register h with h | ⟨number, h⟩
    · exact .inl h
    · cases h
  | arm =>
    rcases World.mem_teardowns_arm h with h | ⟨number, h⟩
    · exact .inl h
    · cases h
  | start frames new machine scopes => exact .inl (World.teardowns_congr scopes ▸ h)
  | turn pops pushes rest found turn turned =>
    rcases turn.hung_stop turned h with h | ⟨signal, rfl⟩
    · exact .inl h
    · exact .inr ⟨signal, rfl⟩
  | _ => exact .inl h

/-! ## Teardowns that are due -/

/-- A teardown that is due was so before, or hung off a scope that is released now. -/
theorem Course.due {c c' : Config H} {s : ScopeId} {ts : List (Teardown H)} {t : Teardown H}
    (course : Course c c') (mem : .releasing s ts ∈ c'.stack) (ht : t ∈ ts) :
    (∃ ts', .releasing s ts' ∈ c.stack ∧ t ∈ ts') ∨ t ∈ c.world.teardowns s := by
  obtain ⟨above, base, split⟩ := List.append_of_mem mem
  rcases course.split_release split with ⟨above', us, stack, left⟩ | ⟨_, _, _, _, hung⟩
  · exact .inl ⟨us, stack ▸ List.mem_append_right _ (List.mem_cons_self ..), left.subset ht⟩
  · exact .inr (hung ▸ ht)

/-! ## Machines that have not started -/

/-- A machine has not been made, or its first state has not been entered. -/
def Config.Nascent (m : MachineId) (c : Config H) : Prop :=
  c.world.machine? m = none ∨ .first ∈ roles m c.stack

/-- Nobody holds a machine, and nothing is about to stop it. -/
structure Config.Untouched (m : MachineId) (c : Config H) : Prop where
  hung (s : ScopeId) : .stop m ∉ c.world.teardowns s
  due {s : ScopeId} {ts : List (Teardown H)} (mem : .releasing s ts ∈ c.stack) : .stop m ∉ ts
  control : c.control ≠ .stop m
  cell {cell : MachineCell H} (found : c.world.machine? m = some cell) :
    cell.status = .idle ∧ cell.handles = 0

section Step

variable {c c' : Config H}

/-- While the first state of a machine is entered, something goes on above the start. -/
theorem Config.Nascent.not_start (nascent : c.Nascent m) (poised : c.Poised m)
    {signal : Option ScopeId} : c.stack.head? ≠ some (.starting m signal) := by
  intro top
  obtain ⟨rest, stack⟩ := List.head?_eq_some_iff.1 top
  unfold Config.Poised at poised
  split at poised
  · next cell found =>
    rcases nascent with missing | first
    · rw [found] at missing
      cases missing
    · have alone := poised.nested.eq_of_head?_start (by rw [stack, roles_starting]; rfl)
      rw [alone] at first
      simp at first
  · have none : roles m c.stack = [] := by
      rw [roles, show c.stack.filter (Frame.concerns m) = [] from poised.1]
      rfl
    rw [stack, roles_starting] at none
    cases none

/-- The first state of a machine is entered once. -/
theorem Outlook.nascent (outlook : Outlook p m c c') (nascent : c'.Nascent m) : c.Nascent m := by
  cases outlook with
  | spared machine frames =>
    have same : roles m c'.stack = roles m c.stack := congrArg (List.filterMap Frame.role?) frames
    rwa [Config.Nascent, machine, same] at nascent
  | start signal new => exact .inl new
  | turn pops pushes rest found found' turn before after =>
    rcases nascent with missing | first
    · rw [found'] at missing
      cases missing
    · rw [after, roles_append, List.mem_append] at first
      rw [Config.Nascent, before, roles_append]
      refine .inr (List.mem_append.2 ?_)
      cases turn.faces with
      | same face visited running init => exact first.imp init id
      | begin a deed face hpops hpushes => exact .inl (hpops ▸ List.mem_singleton_self _)
      | commit a event time running deed cell hpops hpushes =>
        rcases first with first | first
        · rw [hpushes] at first
          simp at first
        · exact .inr first

/-- While the first state of a machine is entered, nobody takes hold of the machine, and nothing
begins to stop it. -/
theorem Turn.untouched {w : World H} {d : Option Deed} {e : Effect H} {cell cell' : MachineCell H}
    {ctl ctl' : Control H} {pops pushes : List (Frame H)} {rs : List Role}
    (turn : Turn p w m d e ⟨cell, ctl, pops⟩ ⟨cell', ctl', pushes⟩)
    (posture : Posture m cell ctl (roles m pops ++ rs))
    (before : .first ∈ roles m pops ++ rs) (after : .first ∈ roles m pushes ++ rs)
    (fresh : cell.status = .idle ∧ cell.handles = 0) (control : ctl ≠ .stop m)
    (due : ∀ s ts, .releasing s ts ∈ pops → .stop m ∉ ts) :
    ctl' ≠ .stop m ∧ cell'.status = .idle ∧ cell'.handles = 0 := by
  have plainly {ctl : Control H} (plain : ctl.isPlain) : ctl ≠ .stop m := by
    rintro rfl
    cases plain
  have released {a : Option (Activation H)} : Control.ofRelease a ≠ .stop m := by
    cases a <;> simp [Control.ofRelease]
  -- a start that has not begun to enter a state stands alone
  have alone {r : Role} (top : roles m pops = [r]) (bottom : ∀ below, r.sits below → below = none)
      (other : r ≠ .first) : False := by
    rw [top] at posture before
    have none : rs = [] := List.head?_eq_none_iff.1 (bottom _ posture.nested.1)
    rw [none] at before
    exact other (List.mem_singleton.1 before).symm
  obtain ⟨idle, unheld⟩ := fresh
  cases turn with
  | pin alive quiet call sheds asked =>
    refine ⟨fun stops => ?_, idle, unheld⟩
    rcases asked stops with held | ⟨s, ts, rfl⟩
    · omega
    · exact due s _ (List.mem_singleton_self _) (List.mem_cons_self ..)
  | hold held | drop held | dropLast held => omega
  | begin =>
    rw [roles_subscribing] at posture
    have start : rs = [.start] := posture.nested.tail.eq_of_head?_start posture.nested.1
    rw [start] at after
    simp at after
  | beginStopped stopped =>
    rw [idle] at stopped
    cases stopped
  | commit running =>
    rw [idle] at running
    cases running
  | restoreFailed =>
    have quiet := (posture.first before).2 .shift (by simp [Stage.role])
    cases quiet
  | stop => exact absurd rfl control
  | signalAtOnce => exact (alone roles_starting (fun _ h => h) (by simp)).elim
  | handOver pin plain =>
    rcases pin with rfl | rfl
    · exact (alone roles_starting (fun _ h => h) (by simp)).elim
    · exact (alone roles_signalled (fun _ h => h) (by simp)).elim
  | unpinLast => exact ⟨released, idle, unheld⟩
  | unpin pin alive quiet plain | dismantled quiet plain | startFailed first quiet plain =>
    exact ⟨plainly plain, idle, unheld⟩
  | enqueue busy plain | finish empty plain | stopIgnored stopped plain =>
    exact ⟨plainly plain, idle, unheld⟩
  | ignore plain | giveUp plain | stopped plain | unobserve plain =>
    exact ⟨plainly plain, idle, unheld⟩
  | tell live plain | signal live plain | signalGone cancelled dead plain =>
    exact ⟨plainly plain, idle, unheld⟩
  | observe live held quiet plain => exact ⟨plainly plain, idle, unheld⟩
  | _ => exact ⟨by simp, idle, unheld⟩

end Step

namespace Program.Run

variable {w : World H} {past : List (Config H)} {c : Config H}

/-- Nobody holds a machine before its first state was entered, and nothing is about to stop it. -/
theorem untouched (run : p.Run w past c) (nascent : c.Nascent m) : c.Untouched m := by
  induction run with
  | begin fresh host s =>
    refine ⟨fun s => ?_, fun mem => absurd mem List.not_mem_nil, nofun, fun found => ?_⟩
    · rw [World.teardowns_eq]
      cases found : w.scope? s with
      | none => exact List.not_mem_nil
      | some cell =>
        rw [Option.map_some, Option.getD_some, (fresh.scope? found).2]
        exact List.not_mem_nil
    · rw [show _ = none from fresh.machine? m] at found
      cases found
  | @step past c c' run h ih =>
    have move := run.move h
    have outlook := move.outlook m
    have earlier : c.Nascent m := outlook.nascent nascent
    have untouched := ih earlier
    have hung (s : ScopeId) : .stop m ∉ c'.world.teardowns s := by
      intro mem
      rcases move.hung_stop mem with old | ⟨signal, top⟩
      · exact untouched.hung s old
      · exact earlier.not_start (run.poised m) top
    have due {s : ScopeId} {ts : List (Teardown H)} (mem : .releasing s ts ∈ c'.stack) :
        .stop m ∉ ts := by
      intro stops
      rcases (run.course h).due mem stops with ⟨ts', old, stops⟩ | now
      · exact untouched.due old stops
      · exact untouched.hung s now
    cases outlook with
    | spared machine frames deed control control' =>
      refine ⟨hung, due, fun stops => control' ?_, fun found => untouched.cell (machine ▸ found)⟩
      rw [stops]
      rfl
    | start signal new found deed blank control frames =>
      obtain ⟨settings, manager, rfl⟩ := blank
      refine ⟨hung, due, fun stops => ?_, fun found' => ?_⟩
      · rw [stops] at control
        cases control
      · rw [found] at found'
        cases found'
        exact ⟨rfl, rfl⟩
    | turn pops pushes rest found found' turn before after =>
      have entering {c : Config H} {cell : MachineCell H} (found : c.world.machine? m = some cell)
          (nascent : c.Nascent m) : .first ∈ roles m c.stack :=
        nascent.resolve_left (by rw [found]; nofun)
      have now := entering found earlier
      have next := entering found' nascent
      have posture := (run.poised m).posture found
      rw [before, roles_append] at now posture
      rw [after, roles_append] at next
      obtain ⟨control, cell⟩ := turn.untouched posture now next (untouched.cell found)
        untouched.control fun s ts mem => untouched.due (before ▸ List.mem_append_left _ mem)
      refine ⟨hung, due, control, fun found'' => ?_⟩
      rw [found'] at found''
      cases found''
      exact cell
  | resume run ended host s ih =>
    obtain ⟨hung, due, control, cell⟩ := ih nascent
    exact ⟨hung, due, nofun, cell⟩

/-- A machine is idle while its first state is entered. -/
theorem idle_of_first {cell : MachineCell H} (run : p.Run w past c)
    (found : c.world.machine? m = some cell) (first : .first ∈ roles m c.stack) :
    cell.status = .idle :=
  ((run.untouched (.inr first)).cell found).1

end Program.Run

end ScopedMachine

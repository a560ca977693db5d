import ScopedMachine.Proofs.Beginning
import ScopedMachine.Proofs.Notices

/-!
# A cancelled signal means stopped

A machine that is started with a signal is tied to it: the start is under way, or the stop of the
machine hangs off the signal, or the release of the signal has got it before it, or it was asked
for. `Config.Tied` goes on until the machine is stopped or gone, unless a panic ends the release of
the signal. When nothing is under way and the signal is cancelled, none of the former is left.
-/

namespace ScopedMachine

variable {H : Type} {p : Program H} {m : MachineId} {σ : ScopeId}

/-! ## Nobody holds a machine that is being started -/

/-- A start is put on the stack when its machine is made. -/
theorem Turn.not_start {w : World H} {d : Option Deed} {e : Effect H} {cell cell' : MachineCell H}
    {ctl ctl' : Control H} {pops pushes : List (Frame H)}
    (turn : Turn p w m d e ⟨cell, ctl, pops⟩ ⟨cell', ctl', pushes⟩) : .start ∉ roles m pushes := by
  cases turn with
  | @pin _ _ _ _ pushes alive quiet call sheds =>
    obtain ⟨_, hpushes⟩ := sheds.filter (m := m)
    rw [roles_holding, roles, hpushes]
    simp
  | hold held quiet plain inert | drop held alive quiet plain inert
  | dropLast held dead quiet inert | observe live held quiet plain inert =>
    simp [roles_of_isPlain inert]
  | @enter _ _ _ _ stage | @entered _ _ _ stage | @fail _ _ _ stage | @subscribe _ _ _ _ _ stage
  | @subscribeHosted _ _ _ _ _ stage =>
    cases stage <;> simp [Stage.role]
  | _ => simp

/-- A machine gets a handle when it is handed over, or from somebody who holds one. -/
theorem Turn.unheld {w : World H} {d : Option Deed} {e : Effect H} {cell cell' : MachineCell H}
    {ctl ctl' : Control H} {pops pushes : List (Frame H)} {rs : List Role}
    (turn : Turn p w m d e ⟨cell, ctl, pops⟩ ⟨cell', ctl', pushes⟩)
    (posture : Posture m cell ctl (roles m pops ++ rs)) (start : .start ∈ rs)
    (unheld : cell.handles = 0) : cell'.handles = 0 := by
  cases turn with
  | hold held | drop held | dropLast held => omega
  | handOver pin =>
    -- what hands a machine over has nothing of the machine below it
    rcases pin with rfl | rfl
    · rw [roles_starting] at posture
      rw [show rs = [] from List.head?_eq_none_iff.1 posture.nested.1] at start
      cases start
    · rw [roles_signalled] at posture
      rw [show rs = [] from List.head?_eq_none_iff.1 posture.nested.1] at start
      cases start
  | _ => exact unheld

/-- Nobody holds a machine that is being started. -/
theorem Program.Run.unheld {w : World H} {past : List (Config H)} {c : Config H}
    {cell : MachineCell H} (run : p.Run w past c) (start : .start ∈ roles m c.stack)
    (found : c.world.machine? m = some cell) : cell.handles = 0 := by
  induction run generalizing cell with
  | begin fresh host s =>
    rw [show _ = none from fresh.machine? m] at found
    cases found
  | @step past c c' run h ih =>
    cases (run.move h).outlook m with
    | spared machine frames =>
      have same : roles m c'.stack = roles m c.stack := congrArg (List.filterMap Frame.role?) frames
      exact ih (same ▸ start) (machine ▸ found)
    | start signal new found' deed blank =>
      obtain ⟨settings, manager, rfl⟩ := blank
      cases found'.symm.trans found
      rfl
    | turn pops pushes rest known found' turn before after =>
      cases found'.symm.trans found
      have posture := (run.poised m).posture known
      rw [before, roles_append] at posture
      rw [after, roles_append] at start
      have below := (List.mem_append.1 start).resolve_left turn.not_start
      refine turn.unheld posture below (ih ?_ known)
      rw [before, roles_append]
      exact List.mem_append_right _ below
  | resume run ended host s ih => exact ih start found

/-! ## Ties -/

/-- What ties a machine to a signal. -/
inductive Config.Tied (m : MachineId) (σ : ScopeId) (c : Config H) : Prop where
  | starting (waits : .starting m (some σ) ∈ c.stack)
  /-- The stop of the machine hangs off the signal. -/
  | hung (hung : .stop m ∈ c.world.teardowns σ)
  /-- The release of the signal is about to stop the machine. -/
  | due (ts : List (Teardown H)) (mem : .releasing σ ts ∈ c.stack) (left : .stop m ∈ ts)
  | asked (control : c.control = .stop m)
  | stopped (cell : MachineCell H) (found : c.world.machine? m = some cell)
      (stopped : cell.status = .stopped)
  | gone (gone : c.IsGone m)

section Step

variable {w : World H} {past : List (Config H)} {c c' : Config H} {cell : MachineCell H}

/-- A machine that is asked to stop is stopped. -/
theorem Config.Tied.of_stop (found : c.world.machine? m = some cell) :
    (c.performStop m).Tied m σ := by
  unfold Config.performStop
  rw [found]
  by_cases stopped : cell.status = .stopped
  · simp only [stopped, if_true]
    exact .stopped cell found stopped
  · simp only [stopped, if_false]
    refine .stopped cell.stop ?_ rfl
    rw [Config.releaseActivation_eq]
    simp [Config.mapWorld, Config.push, World.machine?_modifyMachine, found]

/-- A machine that exists is asked to stop, and one that is gone stays so. -/
theorem Config.Tied.of_teardown (found : c.world.machine? m = some cell) :
    (c.performTeardown (.stop m)).Tied m σ := by
  unfold Config.performTeardown
  by_cases alive : c.world.isAlive m = true
  · simp only [alive, if_true]
    exact .asked rfl
  · simp only [alive]
    refine .gone ⟨cell, found, ?_⟩
    rw [World.isAlive, found] at alive
    exact Bool.eq_false_iff.2 alive

/-- When the only handle on a machine is given back, the machine is gone. -/
theorem Config.isGone_unpin {o : Outcome} (found : c.world.machine? m = some cell)
    (last : cell.pins = 1) (unheld : cell.handles = 0) : (c.unpin m o).IsGone m := by
  have dead : cell.unpin.isAlive = false :=
    MachineCell.isAlive_eq_false_iff.2 ⟨unheld, by simp [MachineCell.unpin, last]⟩
  obtain ⟨world, host, ctl, fs⟩ := c
  refine ⟨cell.unpin.clearCurrent, ?_, dead⟩
  rw [Config.unpin_of_last found last unheld]
  exact World.machine?_modifyMachine_self (World.machine?_modifyMachine_self found)

variable (run : p.Run w past c) (h : p.step c = some c') (found : c.world.machine? m = some cell)
include run h found

/-- A start goes on, or it ties its machine to the signal, or it has failed. -/
theorem Config.Tied.starting_step (waits : .starting m (some σ) ∈ c.stack) : c'.Tied m σ := by
  obtain ⟨above, rest, stack⟩ := List.append_of_mem waits
  by_cases busy : above ≠ [] ∨ c.control.isEnd = false
  · obtain ⟨above', stack'⟩ := (run.course h).stays stack busy
    exact .starting (stack' ▸ List.mem_append_right _ (List.mem_cons_self ..))
  obtain ⟨rfl, ends⟩ := Config.ends_of_idle h busy stack (by simp)
  have posture := (run.poised m).posture found
  have unheld := run.unheld (by rw [stack]; simp) found
  rw [stack, List.nil_append, roles_starting] at posture
  obtain ⟨last, _⟩ := posture.pins_of_start
  rcases ends with ⟨a, control, resumes⟩ | ⟨message, control, unwinds⟩
  · cases a with
    | entered r =>
      cases r with
      | error error =>
        cases resumes
        exact .gone (Config.isGone_unpin found last unheld)
      | ok =>
        by_cases cancelled : c.world.isCancelled σ = true
        · simp only [Program.resume, Config.onCancel, Config.push, cancelled, if_true,
            Option.some.injEq] at resumes
          subst resumes
          exact .of_teardown found
        · have live : c.world.isCancelled σ = false := Bool.eq_false_iff.2 cancelled
          simp only [Program.resume, Config.onCancel, Config.push, live, Bool.false_eq_true, if_false,
            Option.some.injEq] at resumes
          subst resumes
          refine .hung ?_
          show .stop m ∈ (c.world.addTeardown σ (.stop m)).teardowns σ
          rw [World.teardowns_addTeardown live, if_pos rfl]
          exact List.mem_append_right _ (List.mem_singleton_self _)
    | _ => cases resumes
  · cases unwinds
    exact .gone (Config.isGone_unpin found last unheld)

omit found in
/-- What hangs off the signal stays there, or the release of the signal begins. -/
theorem Config.Tied.hung_step (hung : .stop m ∈ c.world.teardowns σ) : c'.Tied m σ := by
  by_cases unreleased : ∀ owner, c'.world.header? σ ≠ some (true, owner)
  · exact .hung (((run.move h).prefix_teardowns unreleased).subset hung)
  obtain ⟨owner, released⟩ := not_forall_not.1 unreleased
  have live : c.world.isCancelled σ = false := by
    refine Bool.eq_false_iff.2 fun cancelled => ?_
    rw [run.tidy σ cancelled] at hung
    cases hung
  obtain ⟨owner', header⟩ := World.isCancelled_eq_false_iff.1 live
  have control : c.control = .release σ := by
    cases (run.move h).scopes with
    | same same =>
      rw [same, header] at released
      cases released
    | acquire owner s new entering same =>
      rw [same, header] at released
      split at released <;> cases released
    | release s owner control before same =>
      rw [same] at released
      split at released
      · next here => rw [here, control]
      · rw [header] at released
        cases released
  simp only [Program.step, control, Config.performRelease, live, Bool.false_eq_true, if_false,
    Option.some.injEq] at h
  subst h
  exact .due _ (List.mem_cons_self ..) hung

/-- The release of the signal goes on, and when its turn comes the machine is asked to stop. -/
theorem Config.Tied.due_step {ts : List (Teardown H)} (mem : .releasing σ ts ∈ c.stack)
    (left : .stop m ∈ ts) (kept : ∀ base, ¬c.Loses σ base) : c'.Tied m σ := by
  obtain ⟨above, base, stack⟩ := List.append_of_mem mem
  cases (run.course h).releasing stack with
  | above above' stack' =>
    exact .due ts (stack' ▸ List.mem_append_right _ (List.mem_cons_self ..)) left
  | perform t us above' split resumes stack' =>
    subst split
    rcases List.mem_cons.1 left with rfl | later
    · obtain ⟨top, a, control⟩ := resumes
      simp only [Program.step, control, top, Program.resume, Config.runTeardowns,
        Option.some.injEq] at h
      subst h
      exact .of_teardown found
    · exact .due us (stack' ▸ List.mem_append_right _ (List.mem_cons_self ..)) later
  | finish none =>
    subst none
    cases left
  | lose loses => exact absurd loses (kept base)

/-- A machine stays tied to its signal, unless a panic ends the release of the signal. -/
theorem Config.Tied.step (tied : c.Tied m σ) (kept : ∀ base, ¬c.Loses σ base) : c'.Tied m σ := by
  cases tied with
  | starting waits => exact starting_step run h found waits
  | hung hung => exact hung_step run h hung
  | due ts mem left => exact due_step run h found mem left kept
  | asked control =>
    simp only [Program.step, control, Option.some.injEq] at h
    subst h
    exact .of_stop found
  | stopped cell found stopped =>
    obtain ⟨cell', found', stopped', _⟩ := ((run.step h).still ⟨[c'], rfl⟩ found stopped).machine
    exact .stopped cell' found' stopped'
  | gone gone => exact .gone ((run.move h).isGone (run.poised m) gone)

omit run h in
/-- A machine that was made stays known. -/
theorem Outlook.known (outlook : Outlook p m c c') : ∃ cell, c'.world.machine? m = some cell := by
  cases outlook with
  | spared machine => exact ⟨cell, machine.trans found⟩
  | start signal new found' => exact ⟨_, found'⟩
  | turn pops pushes rest known found' => exact ⟨_, found'⟩

end Step

/-! ## Every instant of a run -/

section Run

variable {w : World H} {before past span : List (Config H)} {x c : Config H} {d : Definition}
  {settings : Settings} {k : Answer → Script H} {cell : MachineCell H}

/-- From when a start began with a signal on, its machine is tied to the signal, unless a panic ends
the release of the signal. -/
theorem Program.Run.tied (run : p.Run w past c) (split : past = before ++ x :: span)
    (call : x.control = .run (.call (.start d settings (some σ)) k))
    (valid : settings.validate = .ok ()) :
    (∃ cell, c.world.machine? x.world.nextMachine = some cell) ∧
      ((∀ u ∈ span, ∀ base, ¬u.Loses σ base) → c.Tied x.world.nextMachine σ) := by
  let P (past : List (Config H)) (c : Config H) : Prop :=
    past = before ∧ c = x ∨ ∃ seen, past = before ++ x :: seen ∧
      (∃ cell, c.world.machine? x.world.nextMachine = some cell) ∧
      ((∀ u ∈ seen, ∀ base, ¬u.Loses σ base) → c.Tied x.world.nextMachine σ)
  have passed : before ++ [x] <+: past ++ [c] := ⟨span ++ [c], by simp [split]⟩
  have go : P past c := by
    refine run.since (P := P) passed (.inl ⟨rfl, rfl⟩) ?_ ?_
    · rintro past c c' run h (⟨rfl, rfl⟩ | ⟨seen, rfl, ⟨cell, found⟩, tied⟩)
      · cases (Program.step_start call valid).symm.trans h
        exact .inr ⟨[], rfl, ⟨_, World.machine?_bear.trans (if_pos rfl)⟩,
          fun _ => .starting (by simp)⟩
      · refine .inr ⟨seen ++ [c], by simp, ((run.move h).outlook _).known found, fun kept => ?_⟩
        have earlier := tied fun u mem => kept u (List.mem_append_left _ mem)
        exact earlier.step run h found (kept c (by simp))
    · rintro past c run ended host s (⟨rfl, rfl⟩ | ⟨seen, rfl, found, tied⟩)
      · obtain ⟨_, ⟨a, ends⟩ | ⟨message, ends⟩⟩ := ended <;> rw [call] at ends <;> cases ends
      · refine .inr ⟨seen ++ [c], by simp, found, fun kept => ?_⟩
        cases tied fun u mem => kept u (List.mem_append_left _ mem) with
        | starting waits => exact .starting waits
        | hung hung => exact .hung hung
        | due ts mem left => exact .due ts mem left
        | asked control =>
          obtain ⟨_, ⟨a, ends⟩ | ⟨message, ends⟩⟩ := ended <;> rw [control] at ends <;> cases ends
        | stopped cell found stopped => exact .stopped cell found stopped
        | gone gone => exact .gone gone
  rcases go with ⟨short, _⟩ | ⟨seen, split', go⟩
  · simp [split] at short
  · cases List.append_cancel_left (split.symm.trans split')
    exact go

/-- When nothing is under way and its signal is cancelled, a machine that is tied to it is stopped or
gone, and it has no live scope. -/
theorem Program.Run.stopped_of_tied (run : p.Run w past c) (tied : c.Tied m σ)
    (rest : c.AtRest ∨ c.IsOver) (cancelled : c.world.isCancelled σ)
    (found : c.world.machine? m = some cell) :
    (cell.isAlive → cell.status = .stopped) ∧
      ∀ s, c.world.header? s ≠ some (false, some m) := by
  have empty : c.stack = [] := rest.elim (fun h => h.1) fun h => h.1
  have posture := (run.poised m).posture found
  have ended : cell.status = .stopped ∨ cell.isAlive = false := by
    cases tied with
    | starting waits | due ts waits =>
      rw [empty] at waits
      cases waits
    | hung hung =>
      rw [run.tidy σ cancelled] at hung
      cases hung
    | asked control =>
      rcases rest with ⟨_, ⟨s, ends⟩ | ⟨a, ends⟩⟩ | ⟨_, ⟨a, ends⟩ | ⟨message, ends⟩⟩ <;>
        rw [control] at ends <;> cases ends
    | stopped cell' found' stopped =>
      cases found'.symm.trans found
      exact .inl stopped
    | gone gone =>
      obtain ⟨cell', found', dead⟩ := gone
      cases found'.symm.trans found
      exact .inr dead
  refine ⟨fun alive => ended.resolve_right (by rw [alive]; nofun), run.header?_of_rest rest ?_⟩
  rw [World.current?, found]
  refine Option.eq_none_iff_forall_ne_some.2 fun a current => ?_
  obtain ⟨running, alive⟩ := posture.current (by rw [show cell.current = some a from current]; rfl)
  rcases ended with stopped | dead
  · rw [running] at stopped
    cases stopped
  · rw [alive] at dead
    cases dead

end Run

end ScopedMachine

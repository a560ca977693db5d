import ScopedMachine.Proofs.Custody
import ScopedMachine.Proofs.Stopped

/-!
# What is left when a stop returns

A stop releases the activation that is in place. While one activation is left for another there is
none, and a stop that comes then, from a teardown, an entry action or a subscription, leaves the change
to go on: it installs nothing, but the scope it made is live until it notices. `TornDown` says how
far the machine is taken down when the stop returns, and what may still happen.
-/

namespace ScopedMachine

variable {H : Type} {p : Program H} {m : MachineId}

/-! ## Machines that are idle -/

/-- A machine that is idle was idle before, and it begins to handle no event. -/
theorem Turn.idle {w : World H} {d : Option Deed} {e : Effect H} {cell cell' : MachineCell H}
    {ctl ctl' : Control H} {pops pushes : List (Frame H)}
    (turn : Turn p w m d e ⟨cell, ctl, pops⟩ ⟨cell', ctl', pushes⟩) (idle : cell'.status = .idle) :
    cell.status = .idle ∧ ((∀ r ∈ roles m pops, r.isTransit = false) →
      ∀ r ∈ roles m pushes, r.isTransit = false) := by
  cases turn with
  | look running | leave running | commit running => cases running.symm.trans idle
  | begin | stop => cases idle
  | @pin _ _ _ _ pushes alive quiet call sheds =>
    obtain ⟨_, hpushes⟩ := sheds.filter (m := m)
    refine ⟨idle, fun _ => ?_⟩
    rw [roles_holding, roles, hpushes]
    simp [Role.isTransit]
  | hold held quiet plain inert | drop held alive quiet plain inert
  | dropLast held dead quiet inert | observe live held quiet plain inert =>
    exact ⟨idle, fun _ => by simp [roles_of_isPlain inert, Role.isTransit]⟩
  | enter enters => exact ⟨idle, fun quiet => by cases enters <;> simpa [Stage.role] using quiet⟩
  | entered | subscribe | subscribeHosted | fail | tell | passOver =>
    exact ⟨idle, fun quiet => by simpa using quiet⟩
  | _ => exact ⟨idle, fun _ => by simp [Role.isTransit]⟩

namespace Program.Run

variable {w : World H} {past : List (Config H)} {c : Config H} {cell : MachineCell H}

/-- A machine that is idle handles no event. -/
theorem not_isTransit_of_idle (run : p.Run w past c) (found : c.world.machine? m = some cell)
    (idle : cell.status = .idle) : ∀ r ∈ roles m c.stack, r.isTransit = false := by
  induction run generalizing cell with
  | begin fresh =>
    rw [fresh.machine? m] at found
    cases found
  | @step past c c' run h ih =>
    cases (run.move h).outlook m with
    | spared machine frames =>
      have same : roles m c'.stack = roles m c.stack := congrArg (List.filterMap Frame.role?) frames
      exact same ▸ ih (machine ▸ found) idle
    | start signal new found' deed blank control frames =>
      have none := run.poised m
      simp only [Config.Poised, new] at none
      have started : roles m c'.stack = [.first, .start] := by
        rw [roles, show c'.stack.filter _ = _ from frames, none.1]
        rfl
      rw [started]
      simp [Role.isTransit]
    | turn pops pushes rest found₀ found' turn above below =>
      rw [found] at found'
      cases found'
      obtain ⟨before, quiet⟩ := turn.idle idle
      have earlier := ih found₀ before
      rw [above, roles_append] at earlier
      rw [below, roles_append]
      intro r mem
      rcases List.mem_append.1 mem with new | old
      · exact quiet (fun r top => earlier r (List.mem_append_left _ top)) r new
      · exact earlier r (List.mem_append_right _ old)
  | resume run ended host s ih => exact ih found idle

end Program.Run

/-! ## Machines that are stopped -/

/-- A machine is stopped. -/
def Config.IsStopped (m : MachineId) (c : Config H) : Prop :=
  ∃ cell, c.world.machine? m = some cell ∧ cell.status = .stopped

section Step

variable {w : World H} {past : List (Config H)} {c c' : Config H}

/-- A machine that is stopped stays so, and no other stop of it begins. -/
theorem Program.Run.isStopped_step (run : p.Run w past c) (h : p.step c = some c')
    (stopped : c.IsStopped m) :
    c'.IsStopped m ∧ (roles m c'.stack).count .stop ≤ (roles m c.stack).count .stop := by
  obtain ⟨cell, found, stopped⟩ := stopped
  cases (run.move h).outlook m with
  | spared machine frames =>
    have same : roles m c'.stack = roles m c.stack := congrArg (List.filterMap Frame.role?) frames
    exact ⟨⟨cell, machine.trans found, stopped⟩, Nat.le_of_eq (by rw [same])⟩
  | start signal new =>
    rw [found] at new
    cases new
  | turn pops pushes rest found₀ found' turn above below =>
    rw [found] at found₀
    cases found₀
    have entered : .first ∉ roles m pops := by
      intro first
      have idle := run.idle_of_first found (by rw [above, roles_append]; exact List.mem_append_left _ first)
      rw [stopped] at idle
      cases idle
    refine ⟨⟨_, found', (turn.stays stopped entered).status⟩, ?_⟩
    have none : (roles m pushes).count .stop = 0 :=
      List.count_eq_zero.2 fun stop => (turn.begins_stop stop).1 stopped
    rw [above, below, roles_append, roles_append, List.count_append, List.count_append, none]
    omega

/-- While a stop goes on the machine is stopped. -/
theorem Program.Run.isStopped_of_stop (run : p.Run w past c) (stop : .stop ∈ roles m c.stack) :
    c.IsStopped m := by
  induction run with
  | begin => cases stop
  | @step past c c' run h ih =>
    by_cases before : .stop ∈ roles m c.stack
    · exact (run.isStopped_step h (ih before)).1
    · cases (run.move h).outlook m with
      | spared machine frames =>
        have same : roles m c'.stack = roles m c.stack :=
          congrArg (List.filterMap Frame.role?) frames
        exact absurd (same ▸ stop) before
      | start signal new found' deed blank control frames =>
        have none := run.poised m
        simp only [Config.Poised, new] at none
        rw [roles, show c'.stack.filter _ = _ from frames, none.1] at stop
        cases stop with
        | tail _ stop => cases stop with
          | tail _ stop => cases stop
      | turn pops pushes rest found found' turn above below =>
        rw [above, roles_append, List.mem_append, not_or] at before
        rw [below, roles_append] at stop
        rcases List.mem_append.1 stop with new | old
        · exact ⟨_, found', (turn.begins_stop new).2⟩
        · exact absurd old before.2
  | resume run ended host s ih => exact ih stop

/-! ## What a release is for -/

/-- Unless a panic unwinds the stack or the machine is stopped, a release begins to leave a state for
another one or to take the machine down. -/
theorem Turn.release_serves {w : World H} {d : Option Deed} {e : Effect H}
    {cell cell' : MachineCell H} {ctl : Control H} {s : ScopeId} {pops pushes : List (Frame H)}
    (turn : Turn p w m d e ⟨cell, ctl, pops⟩ ⟨cell', .release s, pushes⟩)
    (calm : ∀ message, ctl ≠ .panic message) (started : .shift ∈ roles m pops → cell.status ≠ .idle)
    (stands : cell'.status ≠ .stopped) : passages m pushes ≠ 0 ∨ .dismantle ∈ roles m pushes := by
  generalize release : Control.release s = ctl' at turn
  cases turn with
  | dropLast held dead quiet inert => exact .inr (by simp)
  | unpinLast => exact .inr (by simp)
  | leave => exact .inl (by simp [passages, Role.isPassage])
  | fail => exact .inl (by simp [passages, Stage.isPassage_role])
  | @orphan _ _ _ stage _ standing later =>
    have shifts := started (by rw [roles_subscribing, Stage.role_eq_shift later]; exact List.mem_cons_self ..)
    cases status : cell.status with
    | idle => exact absurd status shifts
    | running => exact absurd status standing
    | stopped => exact absurd status stands
  | beginStopped stopped => exact absurd stopped stands
  | stop => exact absurd rfl stands
  | unwindScope => exact absurd rfl (calm _)
  | pin alive quiet call => rw [← release] at call; cases call
  | hold held quiet plain | drop held alive quiet plain | dismantled quiet plain
  | enqueue busy plain | finish empty plain | ignore plain | giveUp plain
  | observe live held quiet plain | unobserve plain | stopIgnored stopped plain | stopped plain
  | handOver pin plain | startFailed first quiet plain | unpin pin alive quiet plain =>
    rw [← release] at plain
    cases plain
  | tell live plain | signal live plain | signalGone cancelled dead plain =>
    rw [← release] at plain
    cases plain
  | _ => cases release

/-- A release of a scope of the machine that was not called for by its stop serves to leave a state,
or to take the machine down. -/
structure Config.Warranted (m : MachineId) (c : Config H) : Prop where
  /-- A stop that goes on above the release did not call for it. -/
  releasing {above base : List (Frame H)} {s : ScopeId} {ts : List (Teardown H)}
    (stack : c.stack = above ++ .releasing s ts :: base)
    (mine : ∃ b, c.world.header? s = some (b, some m))
    (apart : c.IsStopped m → .stop ∈ roles m above) :
    passages m base ≠ 0 ∨ .dismantle ∈ roles m base
  goes (goes : c.LetsGo m) (stands : ¬c.IsStopped m) :
    passages m c.stack ≠ 0 ∨ .dismantle ∈ roles m c.stack

theorem Program.Run.warranted_step (run : p.Run w past c) (h : p.step c = some c') (calm : c.IsCalm)
    (warranted : c.Warranted m) : c'.Warranted m := by
  constructor
  case releasing =>
    intro above base s us stack mine apart
    obtain ⟨b, mine⟩ := mine
    have scopes := (run.move h).scopes
    rcases (run.course h).split_release stack with
      ⟨above', ts, before, _⟩ | ⟨control, live, rfl, rfl, _⟩
    · have inside : .releasing s ts ∈ c.stack :=
        before ▸ List.mem_append_right _ (List.mem_cons_self ..)
      obtain ⟨owner, released⟩ := run.releases s ts inside
      rw [scopes.header released] at mine
      cases mine
      refine warranted.releasing before ⟨true, released⟩ fun stopped => ?_
      -- the stops on the stack are those that were there before
      obtain ⟨stopped', le⟩ := run.isStopped_step h stopped
      have above_pos := List.count_pos_iff.2 (apart stopped')
      rw [stack, before, roles_append, roles_append, roles_releasing, roles_releasing,
        List.count_append, List.count_append] at le
      exact List.count_pos_iff.1 (by omega)
    · obtain ⟨owner, live⟩ := World.isCancelled_eq_false_iff.1 live
      obtain ⟨b', header⟩ := scopes.owner ⟨_, live⟩
      rw [header] at mine
      cases mine
      refine warranted.goes ⟨s, control, live⟩ fun stopped => ?_
      cases apart (run.isStopped_step h stopped).1
  case goes =>
    intro goes stands
    obtain ⟨_, _, s, cell, cell', e, pops, pushes, rest, found, found', turn, above, below⟩ :=
      run.turn_of_letsGo h goes
    have started (shift : .shift ∈ roles m pops) : cell.status ≠ .idle := by
      intro idle
      have quiet := run.not_isTransit_of_idle found idle
      rw [above, roles_append] at quiet
      cases quiet _ (List.mem_append_left _ shift)
    have serves := turn.release_serves calm started fun status => stands ⟨cell', found', status⟩
    rw [below, passages_append, roles_append]
    refine serves.imp (fun some => ?_) (List.mem_append_left _)
    omega

/-- Unless something panics, every release serves a purpose. -/
theorem Program.Run.warranted (run : p.Run w past c) (calm : ∀ y ∈ past, y.IsCalm) :
    c.Warranted m := by
  have rest {c : Config H} (stack : c.stack = []) (control : ∀ s, c.control ≠ .release s) :
      c.Warranted m := by
    constructor
    case releasing =>
      intro above base s ts split
      rw [stack] at split
      simp at split
    case goes =>
      rintro ⟨s, release, _⟩
      exact absurd release (control s)
  induction run with
  | begin => exact rest rfl (by simp)
  | step run h ih =>
    refine run.warranted_step h (calm _ ?_) (ih fun y mem => calm y (List.mem_append_left _ mem))
    exact List.mem_append_right _ (List.mem_singleton_self _)
  | resume run ended => exact rest ended.1 (by simp)

end Step

/-! ## Changes of activation -/

/-- One activation was let go and the next one is not in place yet. -/
def Config.Changes (m : MachineId) (c : Config H) : Prop := .shift ∈ roles m c.stack

/-- An entry action of the machine is about to start. -/
def Config.StartsEntry (m : MachineId) (c : Config H) : Prop :=
  c.control = .give (.result (.ok ())) ∧ ∃ state token a actions x scope stage base,
    c.stack = .acting state token (a :: actions) :: .activating m x scope stage :: base

/-- An activation that lives in the scope is being entered. -/
def Config.Enters (m : MachineId) (s : ScopeId) (c : Config H) : Prop :=
  ∃ g ∈ ScopedMachine.grips m c.stack, g.scope = s

/-- An instant between two others, both included. -/
def Between (before : List (Config H)) (x : Config H) (past : List (Config H)) (c y : Config H) :
    Prop :=
  ∃ mid, before ++ [x] <+: mid ++ [y] ∧ mid ++ [y] <+: past ++ [c]

/-- How far a machine is taken down when its stop returns, at the instant `x`, and what happens until
a later instant `c`. -/
structure TornDown (m : MachineId) (before : List (Config H)) (x : Config H)
    (past : List (Config H)) (c : Config H) : Prop where
  /-- The machine is stopped, and no activation is in place. -/
  machine : ∃ cell, c.world.machine? m = some cell ∧ cell.status = .stopped ∧ cell.current = none
  /-- If a scope of the machine is live, a change of activation was in flight when the stop returned.
  That change still goes on and the scope is that of the activation being entered, or the scope is
  released right then. -/
  scopes {s : ScopeId} (live : c.world.header? s = some (false, some m)) :
    x.Changes m ∧
      (c.Enters m s ∧ (∀ y, Between before x past c y → y.Changes m) ∨ c.control = .release s)
  /-- Entry actions start only as long as the change goes on that was in flight when the stop
  returned. -/
  entries (starts : c.StartsEntry m) {y : Config H} (between : Between before x past c y) :
    y.Changes m
  /-- Unless something panicked, all teardowns are over when the stop returns, if no change of
  activation is in flight. -/
  teardowns (calm : ∀ y ∈ before, y.IsCalm) (settled : ¬x.Changes m) : x.ReleasesNone m x.stack

/-- The events that wait are forgotten when the stop of the machine returns. -/
theorem Config.stopping_of_discarded {c : Config H} (returns : c.deed? m = some .discarded) :
    c.control = .give .unit ∧ ∃ rest, c.stack = .stopping m :: rest := by
  unfold deed? at returns
  split at returns
  · cases returns
  · split at returns
    · split at returns <;> cases returns
    · split at returns <;> cases returns
    · next n rest control stack =>
      split at returns
      · next same => exact ⟨control, rest, same ▸ stack⟩
      · cases returns
    · split at returns
      · unfold MachineCell.installing? at returns
        split at returns
        · cases returns
        · split at returns <;> cases returns
        · cases returns
      · cases returns
    · split at returns <;> cases returns
    · cases returns

/-- No activation is in place in a machine that is stopped. -/
theorem Posture.current_of_stopped {cell : MachineCell H} {ctl : Control H} {rs : List Role}
    (posture : Posture m cell ctl rs) (stopped : cell.status = .stopped) : cell.current = none := by
  cases current : cell.current with
  | none => rfl
  | some a =>
    have running := (posture.current (by rw [current]; rfl)).1
    rw [stopped] at running
    cases running

namespace Program.Run

variable {w : World H} {before past : List (Config H)} {x c y : Config H}

/-- A machine that is stopped and enters or leaves a state changes its activation. -/
theorem changes_of_passages (run : p.Run w past c) (stopped : c.IsStopped m)
    (some : passages m c.stack ≠ 0) : c.Changes m := by
  obtain ⟨cell, found, stopped⟩ := stopped
  obtain ⟨r, mem, passage⟩ := List.countP_pos_iff.1 (Nat.pos_of_ne_zero some)
  cases r with
  | shift => exact mem
  | first =>
    rw [run.idle_of_first found mem] at stopped
    cases stopped
  | _ => cases passage

/-- From when a machine is stopped it begins to enter or leave no state. -/
theorem passages_since (run : p.Run w past c) (passed : before ++ [x] <+: past ++ [c])
    (stopped : x.IsStopped m) : c.IsStopped m ∧ passages m c.stack ≤ passages m x.stack := by
  let P (_ : List (Config H)) (c : Config H) : Prop :=
    c.IsStopped m ∧ passages m c.stack ≤ passages m x.stack
  have step {past : List (Config H)} {c c' : Config H} (run : p.Run w past c)
      (h : p.step c = some c') (kept : P past c) : P (past ++ [c]) c' := by
    obtain ⟨⟨cell, found, status⟩, le⟩ := kept
    have none := ((run.poised m).posture found).current_of_stopped status
    exact ⟨(run.isStopped_step h ⟨cell, found, status⟩).1,
      Nat.le_trans (run.passages_step h found none) le⟩
  exact run.since (P := P) passed ⟨stopped, Nat.le_refl _⟩ step fun _ _ _ _ kept => kept

/-- A state that is entered or left when the machine is stopped is so since the stop. -/
theorem changes_between (run : p.Run w past c) (stopped : x.IsStopped m)
    (some : passages m c.stack ≠ 0) (between : Between before x past c y) : y.Changes m := by
  obtain ⟨mid, since, till⟩ := between
  have earlier := run.earlier till
  obtain ⟨stopped', _⟩ := earlier.passages_since since stopped
  have le := (run.passages_since till stopped').2
  exact earlier.changes_of_passages stopped' (by omega)

/-- What a stopped machine holds is the scope of an activation that is being entered since the
stop. -/
theorem enters_of_grips (run : p.Run w past c) (passed : before ++ [x] <+: past ++ [c])
    (stopped : x.IsStopped m) {g : Grip} (held : g ∈ c.grips m) :
    c.Enters m g.scope ∧ passages m c.stack ≠ 0 := by
  obtain ⟨cell, found, status⟩ := (run.passages_since passed stopped).1
  have none := ((run.poised m).posture found).current_of_stopped status
  have inside : g ∈ ScopedMachine.grips m c.stack := by
    rw [Config.grips, found, Option.map_some, Option.getD_some, MachineCell.grips, none] at held
    exact held
  refine ⟨⟨g, inside, rfl⟩, fun passes => ?_⟩
  have quiet (r : Role) (passage : r.isPassage) : r ∉ roles m c.stack := fun mem =>
    List.countP_eq_zero.1 passes r mem passage
  rw [grips_of_roles (quiet .first rfl) (quiet .shift rfl)] at inside
  cases inside

/-- A stopped machine releases a scope only if it entered a state when it was stopped. -/
theorem changes_of_letsGo (run : p.Run w past c) (passed : before ++ [x] <+: past ++ [c])
    (stopped : x.IsStopped m) (quiet : ∀ s, x.control ≠ .release s) (goes : c.LetsGo m) :
    x.Changes m := by
  cases run with
  | begin =>
    obtain ⟨s, control, _⟩ := goes
    cases control
  | step run h =>
    rcases List.prefix_concat_iff.1 passed with same | passed
    · obtain ⟨s, control, _⟩ := goes
      obtain ⟨_, here⟩ := List.append_inj' same rfl
      cases here
      exact absurd control (quiet s)
    · obtain ⟨⟨g, grips⟩, _⟩ := run.turn_of_letsGo h goes
      obtain ⟨_, passes⟩ := run.enters_of_grips passed stopped (grips ▸ List.mem_singleton_self g)
      exact run.changes_between stopped passes ⟨before, List.prefix_rfl, passed⟩
  | resume =>
    obtain ⟨s, control, _⟩ := goes
    cases control

/-- When the stop of a machine returns, the machine has no live scope and starts no entry action any
more, unless a change of activation is in flight; then that change alone goes on. -/
theorem torn_down (run : p.Run w past c) (passed : before ++ [x] <+: past ++ [c])
    (returns : x.deed? m = some .discarded) : TornDown m before x past c := by
  obtain ⟨control, rest, stack⟩ := Config.stopping_of_discarded returns
  have reached := run.earlier passed
  have stopped : x.IsStopped m :=
    reached.isStopped_of_stop (by rw [stack, roles_stopping]; exact List.mem_cons_self ..)
  have start : Between before x past c x := ⟨before, List.prefix_rfl, passed⟩
  constructor
  case machine =>
    obtain ⟨cell, found, status⟩ := (run.passages_since passed stopped).1
    exact ⟨cell, found, status, ((run.poised m).posture found).current_of_stopped status⟩
  case scopes =>
    intro s live
    rcases (run.holding m).accounted live with ⟨g, held, rfl⟩ | going
    · obtain ⟨enters, passes⟩ := run.enters_of_grips passed stopped held
      have changes {y : Config H} (between : Between before x past c y) : y.Changes m :=
        run.changes_between stopped passes between
      exact ⟨changes start, .inl ⟨enters, fun y => changes⟩⟩
    · refine ⟨run.changes_of_letsGo passed stopped ?_ ⟨s, going, live⟩, .inr going⟩
      simp [control]
  case entries =>
    rintro ⟨_, state, token, a, actions, collected, scope, stage, base, top⟩ y between
    refine run.changes_between stopped ?_ between
    rw [top, passages, roles_acting, roles_activating, List.countP_cons, if_pos Stage.isPassage_role]
    exact Nat.succ_ne_zero _
  case teardowns =>
    intro calm settled s ts mem b mine
    obtain ⟨above, base, split⟩ := List.append_of_mem mem
    have top : .stop ∈ roles m above := by
      rw [stack] at split
      cases above with
      | nil => cases split
      | cons f above =>
        cases split
        rw [roles_stopping]
        exact List.mem_cons_self ..
    rcases (reached.warranted calm).releasing split ⟨b, mine⟩ (fun _ => top) with some | gone
    · refine settled (reached.changes_of_passages stopped ?_)
      rw [split, passages_append, passages_releasing]
      omega
    · -- nothing else is under way for a machine that is taken down
      obtain ⟨cell, found, _⟩ := stopped
      have nested := ((reached.poised m).posture found).nested
      have alone := nested.eq_of_mem_dismantle (by
        rw [split, roles_append, roles_releasing]
        exact List.mem_append_right _ gone)
      rw [stack, roles_stopping] at alone
      cases alone

end Program.Run

namespace Lamp

/-- A lamp with a fuse: the first of its two entry actions stops it when it is switched on. -/
def fused : Program Unit where
  declared key :=
    if key = "on" then
      .yield (.entry fun _ => .call (.stop ⟨0⟩) fun _ => .ok) <|
        .yield (.entry fun _ => .ok) <|
          .finish (.ok ())
    else program.declared key
  subscriber _ h := h

/-- Operate the switch once. -/
def overload : Script Unit :=
  .call (.start off {} none) fun _ => .call (.emit 0 { kind := "toggle" }) fun _ => .ok

/-- Where the run begins in which the fuse blows. -/
def overloaded : Config Unit := { world, host := (), control := .run overload }

theorem overloaded_run (n : Nat) :
    fused.Run world (fused.trail n overloaded) (fused.run n overloaded) :=
  (Program.Run.begin world_isFresh () overload).trail n

end Lamp

/-- The stop returns while the lamp is being switched on; the other entry action starts after that,
and then the scope of the half-built activation is released. -/
theorem Program.Run.torn_down_fused :
    (Lamp.fused.run 20 Lamp.overloaded).deed? ⟨0⟩ = some .discarded ∧
      TornDown ⟨0⟩ (Lamp.fused.trail 20 Lamp.overloaded) (Lamp.fused.run 20 Lamp.overloaded)
        (Lamp.fused.trail 30 Lamp.overloaded) (Lamp.fused.run 30 Lamp.overloaded) := by
  have returns : (Lamp.fused.run 20 Lamp.overloaded).deed? ⟨0⟩ = some .discarded := by decide
  have passed := Lamp.fused.trail_prefix 20 10 Lamp.overloaded
  exact ⟨returns, (Lamp.overloaded_run 30).torn_down passed returns⟩

/-- Neither half holds of a stop that an entry action makes: it returns while the scope of that
activation is live, and another entry action starts later. -/
theorem Program.Run.half_built_fused :
    ¬∀ (before past : List (Config Unit)) (x c : Config Unit),
      Lamp.fused.Run Lamp.world past c → before ++ [x] <+: past ++ [c] →
        x.deed? ⟨0⟩ = some .discarded →
          (∀ s, x.world.header? s ≠ some (false, some ⟨0⟩)) ∨ ¬c.StartsEntry ⟨0⟩ := by
  intro claim
  have returns : (Lamp.fused.run 20 Lamp.overloaded).deed? ⟨0⟩ = some .discarded := by decide
  have passed := Lamp.fused.trail_prefix 20 4 Lamp.overloaded
  have live : (Lamp.fused.run 20 Lamp.overloaded).world.header? ⟨1⟩ = some (false, some ⟨0⟩) := by
    decide
  have starts : (Lamp.fused.run 24 Lamp.overloaded).StartsEntry ⟨0⟩ :=
    ⟨rfl, _, _, _, _, _, _, _, _, rfl⟩
  rcases claim _ _ _ _ (Lamp.overloaded_run 24) passed returns with released | quiet
  · exact released ⟨1⟩ live
  · exact quiet starts

end ScopedMachine

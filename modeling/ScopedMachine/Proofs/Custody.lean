import ScopedMachine.Proofs.Managers
import ScopedMachine.Proofs.Rest
import ScopedMachine.Proofs.Teardowns

/-!
# One activation at a time

A machine has at most one scope that is not released, or whose release goes on. `Custody` says where
that scope is: an activation holds it, it is about to be released, its teardowns run, or a panic has
ended its release. Nothing of the machine can enter a state meanwhile, because whatever enters or
leaves one waits below the release on the stack.
-/

namespace ScopedMachine

variable {H : Type} {p : Program H} {m : MachineId}

/-! ## What a step costs -/

section Toll

variable {c c' : Config H} {i : ManagerId}

theorem Program.step_of_resumes {s : ScopeId} {base : List (Frame H)}
    (resumes : c.Resumes s [] base) (h : p.step c = some c') :
    c'.stack = base ∧ c'.world = c.world.countRelease s := by
  obtain ⟨w, host, ctl, fs⟩ := c
  obtain ⟨stack, a, control⟩ := resumes
  cases stack
  cases control
  cases h
  exact ⟨rfl, rfl⟩

/-- No scope of the host counts for a manager. -/
def World.Reserves (i : ManagerId) (w : World H) : Prop := ∀ s, w.holder? s ≠ some (none, some i)

/-- A manager that is the host's stays so. -/
theorem Holds.reserves (holds : Holds c c') (reserves : c'.world.Reserves i) : c.world.Reserves i :=
  fun s holder => reserves s (holds.holder holder)

/-- How a step changes the count of the scopes of a machine. -/
inductive Toll (m : MachineId) (i : ManagerId) (c c' : Config H) : Prop where
  /-- The machine makes a scope. -/
  | acquire (f : Frame H) (x : Collected (Entry H)) (stage : Stage H) (rest : List (Frame H))
      (enters : Enters m c.control f x stage) (stack : c.stack = f :: rest)
      (stack' : c'.stack = .acting x.name ⟨c.world.scopes.size⟩ x.actions ::
        .activating m x ⟨c.world.scopes.size⟩ stage :: rest)
      (tally : c'.world.tally i =
        { c.world.tally i with acquired := (c.world.tally i).acquired + 1 })
  /-- The release of a scope of the machine is over. -/
  | release (s : ScopeId) (base : List (Frame H)) (resumes : c.Resumes s [] base)
      (mine : ∃ b, c.world.header? s = some (b, some m)) (stack : c'.stack = base)
      (tally : c'.world.tally i =
        { c.world.tally i with released := (c.world.tally i).released + 1 })
      (owned : ∀ s b, c'.world.header? s = some (b, some m) → ∃ b, c.world.header? s = some (b, some m))
  | same (tally : c'.world.Reserves i → c'.world.tally i = c.world.tally i)
      (owned : ∀ s b, c'.world.header? s = some (b, some m) → ∃ b, c.world.header? s = some (b, some m))
      (unfinished : ∀ s base b, c.Resumes s [] base → c.world.header? s ≠ some (b, some m))

/-- A manager that counts no scope of the host counts the scopes of its machine alone. -/
theorem Config.Assigned.owner_eq {s : ScopeId} {cell : MachineCell H} {o : Option MachineId}
    (assigned : c.Assigned) (found : c.world.machine? m = some cell)
    (host : c.world.Reserves cell.manager)
    (holder : c.world.holder? s = some (o, some cell.manager)) : o = some m := by
  cases o with
  | none => exact absurd holder (host s)
  | some n =>
    obtain ⟨other, found', same⟩ := assigned.owned holder
    rw [assigned.apart found' found (Option.some.inj same).symm]

theorem World.tally_addScope_self {w : World H} {owner : Option MachineId}
    (bound : i.index < w.managers.size) :
    (w.addScope owner (some i)).2.tally i =
      { w.tally i with acquired := (w.tally i).acquired + 1 } :=
  World.tally_modifyManager (f := fun t => { t with acquired := t.acquired + 1 }) bound

theorem World.tally_addScope_of_ne {w : World H} {owner : Option MachineId}
    {manager : Option ManagerId} (other : manager ≠ some i) :
    (w.addScope owner manager).2.tally i = w.tally i := by
  cases manager with
  | none => rfl
  | some j =>
    exact World.tally_modifyManager_of_ne (f := fun t => { t with acquired := t.acquired + 1 })
      fun same => other (by rw [same])

theorem World.tally_countRelease {w : World H} {s : ScopeId} {o : Option MachineId}
    {manager : Option ManagerId} (holder : w.holder? s = some (o, manager))
    (bound : i.index < w.managers.size) :
    (w.countRelease s).tally i = if manager = some i then
      { w.tally i with released := (w.tally i).released + 1 } else w.tally i := by
  obtain ⟨cell, found, eq⟩ := Option.map_eq_some_iff.1 holder
  have counted : (w.scopes[s.index]?).bind ScopeCell.manager = manager := by
    rw [show w.scopes[s.index]? = some cell from found]
    exact congrArg Prod.snd eq
  rw [countRelease, counted]
  cases manager with
  | none => rfl
  | some j =>
    by_cases same : j = i
    · subst same
      rw [if_pos rfl]
      exact World.tally_modifyManager bound
    · rw [if_neg fun eq => same (Option.some.inj eq)]
      exact World.tally_modifyManager_of_ne (Ne.symm same)

/-- Every step changes the count in one of these ways. -/
theorem Program.Run.toll {w : World H} {past : List (Config H)} {cell : MachineCell H}
    (run : p.Run w past c) (h : p.step c = some c') (found : c.world.machine? m = some cell) :
    Toll m cell.manager c c' := by
  have assigned := run.assigned
  have bound := assigned.bound found
  have course := run.course h
  have holds := course.holds
  by_cases finishing : ∃ s base b, c.Resumes s [] base ∧ c.world.header? s = some (b, some m)
  · obtain ⟨s, base, b, resumes, mine⟩ := finishing
    obtain ⟨stack, world⟩ := Program.step_of_resumes resumes h
    refine .release s base resumes ⟨b, mine⟩ stack ?_ fun t b mine => ⟨b, ?_⟩
    · obtain ⟨manager, holder⟩ := World.owner_eq.1 ⟨b, mine⟩
      obtain ⟨cell', found', counted⟩ := assigned.owned holder
      rw [found] at found'
      cases found'
      rw [world, World.tally_countRelease holder bound, if_pos counted]
    · rw [world, World.countRelease] at mine
      split at mine <;> exact mine
  · have unfinished (s : ScopeId) (base : List (Frame H)) (b : Bool) (resumes : c.Resumes s [] base) :
        c.world.header? s ≠ some (b, some m) := fun mine => finishing ⟨s, base, b, resumes, mine⟩
    -- no scope of the machine is made
    have stays (tally : c'.world.Reserves cell.manager →
          c'.world.tally cell.manager = c.world.tally cell.manager)
        (owned : ∀ s manager, c'.world.holder? s = some (some m, manager) →
          c.world.holder? s = some (some m, manager)) : Toll m cell.manager c c' := by
      refine .same tally (fun s b mine => ?_) unfinished
      obtain ⟨manager, holder⟩ := World.owner_eq.1 ⟨b, mine⟩
      exact World.owner_eq.2 ⟨manager, owned s manager holder⟩
    cases course with
    | call grows | perform s t ts rest a control stack grows =>
      exact stays (fun _ => World.tally_congr grows.managers) fun s _ holder =>
        grows.holder s ▸ holder
    | turn f rest stack ended free grows =>
      exact stays (fun _ => World.tally_congr grows.managers) fun s _ holder =>
        grows.holder s ▸ holder
    | manage running stack managers holder =>
      refine stays (fun _ => ?_) fun s _ mine => holder s ▸ mine
      rw [World.tally, managers]
      exact World.tally_push
    | make manager k control stack world =>
      refine stays (fun host => ?_) fun s _ mine => ?_
      · rw [world, World.tally_addScope_of_ne]
        rintro rfl
        refine host ⟨c.world.scopes.size⟩ ?_
        rw [world, World.holder?_addScope, if_pos rfl]
      · rw [world, World.holder?_addScope] at mine
        split at mine
        · cases mine
        · exact mine
    | enter n cell' f x stage rest found' enters stack stack' world =>
      by_cases same : n = m
      · subst same
        rw [found] at found'
        cases found'
        refine .acquire f x stage rest enters stack stack' ?_
        rw [world, World.tally_addScope_self bound]
      · refine stays (fun _ => ?_) fun s _ mine => ?_
        · rw [world, World.tally_addScope_of_ne]
          intro eq
          exact same (assigned.apart found' found (Option.some.inj eq))
        · rw [world, World.holder?_addScope] at mine
          split at mine
          · cases mine
            exact absurd rfl same
          · exact mine
    | begin s control live stack world =>
      refine stays (fun _ => ?_) fun s _ mine => ?_
      · rw [world]
        rfl
      · rwa [world, World.holder?_cancel] at mine
    | finish s rest a control stack stack' world =>
      refine stays (fun host => ?_) fun s _ mine => ?_
      · obtain ⟨owner, released⟩ := run.releases s [] (stack ▸ List.mem_cons_self ..)
        obtain ⟨manager, holder⟩ := World.owner_eq.1 ⟨true, released⟩
        rw [world, World.tally_countRelease holder bound, if_neg]
        rintro rfl
        rw [assigned.owner_eq found (holds.reserves host) holder] at released
        exact unfinished s rest true ⟨stack, a, control⟩ released
      · rw [world] at mine
        unfold World.countRelease at mine
        split at mine <;> exact mine
    | lose s ts rest message control stack next =>
      subst next
      exact stays (fun _ => rfl) fun s _ mine => mine

end Toll

/-! ## States that are entered or left -/

/-- Whether a state is entered or left in this role. -/
def Role.isPassage : Role → Bool
  | .first | .shift => true
  | _ => false

/-- How many states are entered or left by these frames. -/
def passages (m : MachineId) (fs : List (Frame H)) : Nat := (roles m fs).countP Role.isPassage

section Passages

variable {fs gs : List (Frame H)}

theorem passages_append : passages m (fs ++ gs) = passages m fs + passages m gs := by
  rw [passages, roles_append, List.countP_append]
  rfl

theorem passages_cons {f : Frame H} : passages m (f :: fs) = passages m [f] + passages m fs := by
  rw [← List.singleton_append, passages_append]

theorem passages_releasing {s : ScopeId} {ts : List (Teardown H)} :
    passages m (.releasing s ts :: fs) = passages m fs := by
  rw [passages, roles_releasing]
  rfl

theorem Stage.isPassage_role {stage : Stage H} : stage.role.isPassage := by
  cases stage <;> rfl

/-- A machine has at most one passage, and none while it has an activation. -/
theorem Posture.passages_of_top {cell : MachineCell H} {ctl : Control H} {stage : Stage H}
    (posture : Posture m cell ctl (roles m (fs ++ gs))) (top : roles m fs = [stage.role]) :
    passages m gs = 0 := by
  rw [roles_append, top] at posture
  refine List.countP_eq_zero.2 fun r mem passage => ?_
  cases stage with
  | initial =>
    have start : roles m gs = [.start] := posture.nested.tail.eq_of_head?_start posture.nested.1
    rw [start, List.mem_singleton] at mem
    subst mem
    cases passage
  | commit | restore =>
    have quiet := posture.isTransit_eq_false rfl mem
    cases r with
    | first =>
      have none := (posture.first (List.mem_cons_of_mem _ mem)).2 _ (List.mem_cons_self ..)
      cases none
    | shift => cases quiet
    | _ => cases passage

theorem Posture.passages_of_current {cell : MachineCell H} {ctl : Control H}
    (posture : Posture m cell ctl (roles m fs)) (current : cell.current.isSome) :
    passages m fs = 0 := by
  refine List.countP_eq_zero.2 fun r mem passage => ?_
  cases r with
  | first => exact (posture.first mem).1 (posture.current current).1
  | shift =>
    rw [posture.shift mem] at current
    cases current
  | _ => cases passage

theorem passages_of_roles_nil (none : roles m fs = []) : passages m fs = 0 := by
  rw [passages, none]
  rfl

/-- A machine without an activation begins to enter or leave no state. -/
theorem Turn.passages_le {w : World H} {d : Option Deed} {e : Effect H} {cell cell' : MachineCell H}
    {ctl ctl' : Control H} {pops pushes : List (Frame H)}
    (turn : Turn p w m d e ⟨cell, ctl, pops⟩ ⟨cell', ctl', pushes⟩) (none : cell.current = none) :
    passages m pushes ≤ passages m pops := by
  have zero {fs gs : List (Frame H)} (empty : roles m fs = []) : passages m fs ≤ passages m gs := by
    rw [passages_of_roles_nil empty]
    exact Nat.zero_le _
  have idle {r : Role} {fs gs : List (Frame H)} (one : roles m fs = [r])
      (other : r.isPassage = false) : passages m fs ≤ passages m gs := by
    rw [passages, one, List.countP_singleton, other]
    exact Nat.zero_le _
  have same {r : Role} {fs gs : List (Frame H)} (one : roles m fs = [r]) (other : roles m gs = [r]) :
      passages m fs ≤ passages m gs := by
    exact Nat.le_of_eq (by rw [passages, one, passages, other])
  cases turn with
  | @pin _ _ _ _ pushes alive quiet call sheds =>
    obtain ⟨_, hpushes⟩ := sheds.filter (m := m)
    refine idle (r := .hold) ?_ rfl
    rw [roles_holding, roles, hpushes]
    rfl
  | leave running current =>
    rw [none] at current
    cases current
  | enter enters =>
    refine same (r := Stage.role _) (by rw [roles_acting, roles_activating, roles_nil]) ?_
    cases enters <;> simp [Stage.role]
  | entered | subscribe | subscribeHosted =>
    exact same (r := Stage.role _) roles_subscribing (by simp)
  | fail => exact same (r := Stage.role _) roles_abandoning (by simp)
  | hold held quiet plain inert | drop held alive quiet plain inert
  | observe live held quiet plain inert => exact zero (roles_of_isPlain inert)
  | dropLast held dead quiet inert =>
    refine idle (r := .dismantle) ?_ rfl
    rw [roles_dismantling, roles_settling, roles_of_isPlain inert]
  | unpinLast => exact idle (r := .dismantle) (by simp) rfl
  | claim | next => exact idle (r := .drain) (by simp) rfl
  | look => exact idle (r := .collect) (by simp) rfl
  | commit | tell | passOver => exact idle (r := .publish) (by simp) rfl
  | stop => exact idle (r := .stop) (by simp) rfl
  | signal | signalGone => exact idle (r := .signal) (by simp) rfl
  | signalAtOnce => simp [passages, Role.isPassage]
  | _ => exact zero (by simp)

/-- A panic takes the top frame off, and puts no passage in its place. -/
theorem Config.unwind_stack {c c' : Config H} {f : Frame H} {message : String}
    (h : c.unwind f message = some c') : ∃ fs, c'.stack = fs ++ c.stack ∧ passages m fs = 0 := by
  have unpins (n : MachineId) (o : Outcome) :
      ∃ fs, (c.unpin n o).stack = fs ++ c.stack ∧ passages m fs = 0 := by
    unfold Config.unpin Config.settleHandle
    split
    · exact ⟨[], by cases o <;> rfl, rfl⟩
    · refine ⟨[.dismantling n, .settling o], ?_, ?_⟩
      · unfold Config.dismantle Config.releaseActivation
        split <;> rfl
      · by_cases same : n = m
        · subst same
          simp [passages, Role.isPassage]
        · exact passages_of_roles_nil (by simp [roles, Frame.concerns, same])
  cases f with
  | activating n x scope stage | subscribing n a rest stage =>
    cases h
    exact ⟨[.settling _], rfl, passages_of_roles_nil (by simp)⟩
  | holding n | starting n signal | signalled n =>
    cases h
    exact unpins _ _
  | settling o =>
    cases o with
    | gave a => cases h; exact ⟨[], rfl, rfl⟩
    | panicked message => cases h
  | _ => cases h; exact ⟨[], rfl, rfl⟩

end Passages

/-! ## Where the scope of a machine is -/

/-- A scope of the machine is about to be released. -/
def Config.LetsGo (m : MachineId) (c : Config H) : Prop :=
  ∃ s, c.control = .release s ∧ c.world.header? s = some (false, some m)

/-- None of the frames releases a scope of the machine. -/
def Config.ReleasesNone (m : MachineId) (c : Config H) (fs : List (Frame H)) : Prop :=
  ∀ s ts, .releasing s ts ∈ fs → ∀ b, c.world.header? s ≠ some (b, some m)

/-- Where the scopes of a machine are that were made and whose release is not over; there are as many
as the number says. -/
inductive Custody (m : MachineId) (c : Config H) : Nat → Prop where
  | idle (grips : c.grips m = []) (stays : ¬c.LetsGo m) (none : c.ReleasesNone m c.stack) :
      Custody m c 0
  /-- An activation lives in the scope. -/
  | held (g : Grip) (grips : c.grips m = [g]) (stays : ¬c.LetsGo m)
      (none : c.ReleasesNone m c.stack) : Custody m c 1
  /-- The scope is about to be released; what left the state may wait directly below. -/
  | going (s : ScopeId) (control : c.control = .release s)
      (live : c.world.header? s = some (false, some m)) (grips : c.grips m = [])
      (none : c.ReleasesNone m c.stack) (quiet : passages m c.stack.tail = 0) : Custody m c 1
  /-- The teardowns of the scope run. -/
  | releasing (s : ScopeId) (ts : List (Teardown H)) (above base : List (Frame H))
      (stack : c.stack = above ++ .releasing s ts :: base)
      (mine : c.world.header? s = some (true, some m)) (grips : c.grips m = [])
      (stays : ¬c.LetsGo m) (none : c.ReleasesNone m above) (none' : c.ReleasesNone m base)
      (quiet : passages m above = 0) (quiet' : passages m base.tail = 0) : Custody m c 1

/-- A panic is about to end the release of a scope of the machine. -/
def Config.LosesOne (m : MachineId) (c : Config H) : Prop :=
  ∃ s base b, c.Loses s base ∧ c.world.header? s = some (b, some m)

/-- A panic ended the release of a scope of the machine before its time. The machine makes no scope
any more. -/
structure Bereft (m : MachineId) (c : Config H) : Prop where
  grips : c.grips m = []
  stays : ¬c.LetsGo m
  none : c.ReleasesNone m c.stack
  /-- What left the state unwinds. -/
  quiet : passages m c.stack = 0 ∨
    (∃ message, c.control = .panic message) ∧ passages m c.stack.tail = 0

section Step

variable {w : World H} {past : List (Config H)} {c c' : Config H} {cell : MachineCell H}

theorem Config.current_of_grips (grips : c.grips m = []) (found : c.world.machine? m = some cell) :
    cell.current = none := by
  rw [Config.grips, found] at grips
  cases current : cell.current with
  | none => rfl
  | some a => simp [MachineCell.grips, current] at grips

theorem Busy.passages_eq_zero {ctl : Control H} {fs rest : List (Frame H)} (busy : Busy m cell fs)
    (posture : Posture m cell ctl (roles m (fs ++ rest))) : passages m rest = 0 := by
  rcases busy with current | ⟨stage, top⟩
  · have none := posture.passages_of_current current
    rw [passages_append] at none
    omega
  · exact posture.passages_of_top top

/-- Only the top frame may leave a state for whose scope the release begins. -/
theorem Turn.passages_tail {w : World H} {d : Option Deed} {e : Effect H} {cell' : MachineCell H}
    {ctl : Control H} {s : ScopeId} {pops pushes : List (Frame H)}
    (turn : Turn p w m d e ⟨cell, ctl, pops⟩ ⟨cell', .release s, pushes⟩) :
    pushes ≠ [] ∧ passages m pushes.tail = 0 := by
  generalize release : Control.release s = ctl' at turn
  cases turn with
  | @dropLast _ _ o frames held dead quiet inert =>
    refine ⟨nofun, passages_of_roles_nil ?_⟩
    rw [List.tail_cons, roles_settling, roles_of_isPlain inert]
  | unpinLast => exact ⟨nofun, passages_of_roles_nil (by simp)⟩
  | leave | fail | orphan | beginStopped | stop | unwindScope => exact ⟨nofun, rfl⟩
  | pin alive quiet call => rw [← release] at call; cases call
  | hold held quiet plain | drop held alive quiet plain | dismantled quiet plain
  | enqueue busy plain | finish empty plain | ignore plain | giveUp plain
  | observe live held quiet plain | unobserve plain | stopIgnored stopped plain | stopped plain
  | handOver pin plain | startFailed first quiet plain | unpin pin alive quiet plain =>
    rw [← release] at plain
    cases plain
  | tell live plain | signal live plain | signalGone cancelled dead plain =>
    rw [← release] at plain
    cases plain
  | _ => cases release

/-- To release a scope of its own a machine lets go of the activation that lives in it, and it is the
turn of the machine. -/
theorem Program.Run.turn_of_letsGo (run : p.Run w past c) (h : p.step c = some c')
    (goes : c'.LetsGo m) :
    (∃ g, c.grips m = [g]) ∧ c'.grips m = [] ∧
      ∃ s cell cell' e pops pushes rest, c.world.machine? m = some cell ∧
        c'.world.machine? m = some cell' ∧
        Turn p c.world m (c.deed? m) e ⟨cell, c.control, pops⟩ ⟨cell', .release s, pushes⟩ ∧
        c.stack = pops ++ rest ∧ c'.stack = pushes ++ rest := by
  obtain ⟨s, control, live⟩ := goes
  rcases run.lets_go h control with ⟨b, external⟩ | ⟨n, g, before, rfl, after⟩
  · rw [live] at external
    cases external
  · have held : c.world.header? g.scope = some (false, some n) :=
      (run.holding n).live (before ▸ List.mem_singleton_self g)
    obtain ⟨b, owner⟩ := (run.move h).scopes.owner ⟨_, held⟩
    rw [live] at owner
    cases owner
    refine ⟨⟨g, before⟩, after, g.scope, ?_⟩
    cases (run.move h).outlook m with
    | spared machine frames =>
      have kept : c'.grips m = c.grips m := by
        rw [Config.grips, Config.grips, machine]
        exact congrArg _ (congrArg (List.filterMap Frame.grip?) frames)
      rw [before, after] at kept
      cases kept
    | start signal new found deed blank quiet =>
      have none := (run.poised m)
      simp only [Config.Poised, new] at none
      rw [Config.grips, new, ScopedMachine.grips, show c.stack.filter _ = [] from none.1] at before
      cases before
    | turn pops pushes rest found found' turn above below =>
      rw [control] at turn
      exact ⟨_, _, _, pops, pushes, rest, found, found', turn, above, below⟩

/-- Only the activity that goes on may leave a state for whose scope the release begins. -/
theorem Program.Run.passages_of_letsGo (run : p.Run w past c) (h : p.step c = some c')
    (goes : c'.LetsGo m) : passages m c'.stack.tail = 0 := by
  obtain ⟨_, _, s, cell, cell', e, pops, pushes, rest, found, _, turn, above, below⟩ :=
    run.turn_of_letsGo h goes
  have posture := (run.poised m).posture found
  rw [above] at posture
  obtain ⟨some, quiet⟩ := turn.passages_tail
  have busy : Busy m cell pops := by
    cases turn.grasping (roles_append ▸ posture) with
    | release busy => exact busy
    | same kept none | enter busy manager effect before after none
    | entered busy t routes before after none
    | subscribe a r routes stage result asked top none => exact absurd rfl (none _)
  rw [below, List.tail_append_of_ne_nil some, passages_append, quiet,
    busy.passages_eq_zero posture]

/-- Releases of other scopes do not become releases of the machine's. -/
theorem Program.Run.releasesNone_step (run : p.Run w past c) (h : p.step c = some c')
    {before after : List (Frame H)} (none : c.ReleasesNone m before) (stays : ¬c.LetsGo m)
    (inside : ∀ f ∈ before, f ∈ c.stack) (continues : c.Continues before after) :
    c'.ReleasesNone m after := by
  intro s ts mem b mine
  have scopes := (run.move h).scopes
  rcases continues s ts mem with ⟨us, old⟩ | frees
  · obtain ⟨owner, released⟩ := run.releases s us (inside _ old)
    rw [scopes.header released] at mine
    cases mine
    exact none s us old true released
  · obtain ⟨control, live⟩ := Config.frees?_eq_some_iff.1 frees
    obtain ⟨owner, live⟩ := World.isCancelled_eq_false_iff.1 live
    obtain ⟨b', header⟩ := scopes.owner ⟨_, live⟩
    rw [header] at mine
    cases mine
    exact stays ⟨s, control, live⟩

/-- While a machine has no activation it begins to enter or leave no state. -/
theorem Program.Run.passages_step (run : p.Run w past c) (h : p.step c = some c')
    (found : c.world.machine? m = some cell) (none : cell.current = none) :
    passages m c'.stack ≤ passages m c.stack := by
  cases (run.move h).outlook m with
  | spared machine frames =>
    have same : roles m c'.stack = roles m c.stack := congrArg (List.filterMap Frame.role?) frames
    exact Nat.le_of_eq (by rw [passages, passages, same])
  | start signal new =>
    rw [found] at new
    cases new
  | turn pops pushes rest found₀ found' turn above below =>
    rw [found] at found₀
    cases found₀
    rw [above, below, passages_append, passages_append]
    exact Nat.add_le_add_right (turn.passages_le none) _

/-- A machine that makes a scope held none, and holds the new one. -/
theorem Program.Run.grips_of_enters (run : p.Run w past c) (h : p.step c = some c')
    {f : Frame H} {x : Collected (Entry H)} {stage : Stage H} {rest : List (Frame H)}
    (stack : c'.stack = f :: .activating m x ⟨c.world.scopes.size⟩ stage :: rest) :
    c.grips m = [] ∧ ∃ g, c'.grips m = [g] := by
  have mem : .activating m x ⟨c.world.scopes.size⟩ stage ∈ c'.stack :=
    stack ▸ List.mem_cons_of_mem _ (List.mem_cons_self ..)
  have held : (⟨⟨c.world.scopes.size⟩, [], []⟩ : Grip) ∈ c'.grips m := Config.mem_grips mem rfl rfl
  have unknown {g : Grip} (old : g ∈ c.grips m) : g.scope ≠ ⟨c.world.scopes.size⟩ := by
    intro same
    have live := (run.holding m).live old
    rw [same, World.header?_size] at live
    cases live
  cases run.grasp h with
  | enter quiet s new header before after => exact ⟨before, _, after⟩
  | same quiet kept => exact absurd rfl (unknown (kept ▸ held))
  | entered quiet s routes before after =>
    rw [after, List.mem_singleton, Grip.mk.injEq] at held
    exact absurd held.1.symm (unknown (before ▸ List.mem_singleton_self _))
  | subscribe s routes r rest before after =>
    rw [after, List.mem_singleton, Grip.mk.injEq] at held
    exact absurd held.1.symm (unknown (before ▸ List.mem_singleton_self _))
  | release quiet g control before after =>
    rw [after] at held
    cases held

/-- A machine that holds nothing and makes no scope holds nothing. -/
theorem Program.Run.grips_of_owned (run : p.Run w past c) (h : p.step c = some c')
    (owned : ∀ s b, c'.world.header? s = some (b, some m) →
      ∃ b, c.world.header? s = some (b, some m)) (grips : c.grips m = []) : c'.grips m = [] := by
  cases run.grasp h with
  | same quiet kept => rw [kept, grips]
  | enter quiet s new header before after =>
    obtain ⟨b, old⟩ := owned s _ header
    rw [new] at old
    cases old
  | entered quiet s routes before after => rw [grips] at before; cases before
  | subscribe s routes r rest before after => rw [grips] at before; cases before
  | release quiet g control before after => exact after

/-- Frames that enter a state are passages. -/
theorem Enters.passages {ctl : Control H} {f : Frame H} {x : Collected (Entry H)} {stage : Stage H}
    (enters : Enters m ctl f x stage) : passages m [f] = 1 := by
  cases enters <;> simp [ScopedMachine.passages, Stage.role, Role.isPassage]

theorem Enters.control {ctl : Control H} {f : Frame H} {x : Collected (Entry H)} {stage : Stage H}
    (enters : Enters m ctl f x stage) :
    (∀ s, ctl ≠ .release s) ∧ ∀ message, ctl ≠ .panic message := by
  cases enters <;> exact ⟨nofun, nofun⟩

/-- The count of a machine is in step with where its scope is, if it counts for nothing else. -/
def Balanced (i : ManagerId) (n : Nat) (c : Config H) : Prop :=
  c.world.Reserves i → (c.world.tally i).acquired = (c.world.tally i).released + n

theorem Balanced.of_eq {i : ManagerId} {n : Nat} (balanced : Balanced i n c) (holds : Holds c c')
    (tally : c'.world.Reserves i → c'.world.tally i = c.world.tally i) : Balanced i n c' := by
  intro host
  rw [tally host]
  exact balanced (holds.reserves host)

theorem Config.ReleasesNone.not_resumes {s : ScopeId} {ts : List (Teardown H)}
    {base : List (Frame H)} (none : c.ReleasesNone m c.stack) (resumes : c.Resumes s ts base) (b : Bool) :
    c.world.header? s ≠ some (b, some m) :=
  none s ts (resumes.1 ▸ List.mem_cons_self ..) b

/-- A step that neither makes nor ends a scope of the machine. -/
theorem Toll.elim_same {i : ManagerId} (toll : Toll m i c c')
    (acquire : ∀ f x stage rest, Enters m c.control f x stage → c.stack = f :: rest →
      c'.stack = .acting x.name ⟨c.world.scopes.size⟩ x.actions ::
        .activating m x ⟨c.world.scopes.size⟩ stage :: rest → False)
    (release : ∀ s base b, c.Resumes s [] base → c.world.header? s ≠ some (b, some m)) :
    (c'.world.Reserves i → c'.world.tally i = c.world.tally i) ∧
      ∀ s b, c'.world.header? s = some (b, some m) → ∃ b, c.world.header? s = some (b, some m) := by
  cases toll with
  | acquire f x stage rest enters stack stack' =>
    exact (acquire f x stage rest enters stack stack').elim
  | release s base resumes mine =>
    obtain ⟨b, mine⟩ := mine
    exact absurd mine (release s base b resumes)
  | same tally owned => exact ⟨tally, owned⟩

/-! Each place of the scope has a lemma that says where a step can bring it. -/

variable {i : ManagerId} (run : p.Run w past c) (h : p.step c = some c')
  (found : c.world.machine? m = some cell) (toll : Toll m i c c')

include run h toll

namespace Custody

/-- An activation holds the scope, and lets it go. -/
theorem step_goes {n : Nat} (custody : Custody m c n) (balanced : Balanced i n c)
    (goes : c'.LetsGo m) : ∃ n', Custody m c' n' ∧ Balanced i n' c' := by
  obtain ⟨⟨g, before⟩, after, _⟩ := run.turn_of_letsGo h goes
  have quiet := run.passages_of_letsGo h goes
  obtain ⟨s, control, live⟩ := goes
  cases custody with
  | held g' grips stays none =>
    have none' := run.releasesNone_step h none stays (fun _ h => h) (run.course h).continues
    refine ⟨1, .going s control live after none' quiet, ?_⟩
    obtain ⟨tally, _⟩ := toll.elim_same (fun f x stage rest enters stack stack' => by
      have empty := (run.grips_of_enters h stack').1
      rw [before] at empty
      cases empty) fun s base b resumes => none.not_resumes resumes b
    exact balanced.of_eq (run.course h).holds tally
  | idle grips | going t control live grips | releasing t ts above base stack mine grips =>
    rw [grips] at before
    cases before

theorem step_idle (grips : c.grips m = []) (stays : ¬c.LetsGo m)
    (none : c.ReleasesNone m c.stack) (balanced : Balanced i 0 c) (goes : ¬c'.LetsGo m) :
    ∃ n', Custody m c' n' ∧ Balanced i n' c' := by
  have none' := run.releasesNone_step h none stays (fun _ h => h) (run.course h).continues
  cases toll with
  | acquire f x stage rest enters stack stack' tally =>
    obtain ⟨_, g, after⟩ := run.grips_of_enters h stack'
    refine ⟨1, .held g after goes none', ?_⟩
    intro host
    have even : (c.world.tally i).acquired = (c.world.tally i).released :=
      balanced ((run.course h).holds.reserves host)
    rw [tally, even]
  | release s base resumes mine =>
    obtain ⟨b, mine⟩ := mine
    exact absurd mine (none.not_resumes resumes b)
  | same tally owned =>
    exact ⟨0, .idle (run.grips_of_owned h owned grips) goes none', balanced.of_eq (run.course h).holds tally⟩

theorem step_held {g : Grip} (grips : c.grips m = [g]) (stays : ¬c.LetsGo m)
    (none : c.ReleasesNone m c.stack) (balanced : Balanced i 1 c) (goes : ¬c'.LetsGo m) :
    ∃ n', Custody m c' n' ∧ Balanced i n' c' := by
  have none' := run.releasesNone_step h none stays (fun _ h => h) (run.course h).continues
  obtain ⟨tally, _⟩ := toll.elim_same (fun f x stage rest enters stack stack' => by
    have empty := (run.grips_of_enters h stack').1
    rw [grips] at empty
    cases empty) fun s base b resumes => none.not_resumes resumes b
  have held {g' : Grip} (after : c'.grips m = [g']) : ∃ n', Custody m c' n' ∧ Balanced i n' c' :=
    ⟨1, .held g' after goes none', balanced.of_eq (run.course h).holds tally⟩
  cases run.grasp h with
  | same quiet kept => exact held (kept.trans grips)
  | enter quiet s new header before after =>
    rw [grips] at before
    cases before
  | entered quiet s routes before after => exact held after
  | subscribe s routes r rest before after => exact held after
  | release quiet g' control before after =>
    have live := run.live_kept h (run.holding m) (before ▸ List.mem_singleton_self g')
    exact absurd ⟨g'.scope, control, live⟩ goes

theorem step_going {s : ScopeId} (control : c.control = .release s)
    (live : c.world.header? s = some (false, some m)) (grips : c.grips m = [])
    (none : c.ReleasesNone m c.stack) (quiet : passages m c.stack.tail = 0)
    (balanced : Balanced i 1 c) (goes : ¬c'.LetsGo m) :
    ∃ n', Custody m c' n' ∧ Balanced i n' c' := by
  obtain ⟨tally, owned⟩ := toll.elim_same
    (fun f x stage rest enters _ _ => enters.control.1 s control) fun t base b resumes => by
      obtain ⟨_, a, gives⟩ := resumes
      rw [control] at gives
      cases gives
  have unreleased : c.world.isCancelled s = false := World.isCancelled_eq_false_iff.2 ⟨_, live⟩
  have begins : c' = ⟨c.world.cancel s, c.host, .give .unit,
      .releasing s (c.world.teardowns s) :: c.stack⟩ := by
    rw [Program.step, control] at h
    simp only [Config.performRelease, unreleased] at h
    exact (Option.some.inj h).symm
  have known : ∀ t ts, .releasing t ts ∈ c.stack → ∀ b, c'.world.header? t ≠ some (b, some m) := by
    intro t ts mem b mine
    obtain ⟨owner, released⟩ := run.releases t ts mem
    rw [(run.move h).scopes.header released] at mine
    cases mine
    exact none t ts mem true released
  refine ⟨1, .releasing s (c.world.teardowns s) [] c.stack (by rw [begins]; rfl) ?_
    (run.grips_of_owned h owned grips) goes (fun _ _ mem => absurd mem List.not_mem_nil) known rfl
    quiet, balanced.of_eq (run.course h).holds tally⟩
  rw [begins]
  exact (World.header?_cancel live).trans (if_pos rfl)

include found in
theorem step_releasing {s : ScopeId} {ts : List (Teardown H)} {above base : List (Frame H)}
    (stack : c.stack = above ++ .releasing s ts :: base)
    (mine : c.world.header? s = some (true, some m)) (grips : c.grips m = [])
    (stays : ¬c.LetsGo m) (none : c.ReleasesNone m above) (none' : c.ReleasesNone m base)
    (quiet : passages m above = 0) (quiet' : passages m base.tail = 0)
    (balanced : Balanced i 1 c) (goes : ¬c'.LetsGo m) (keeps : ¬c.LosesOne m) :
    ∃ n', Custody m c' n' ∧ Balanced i n' c' := by
  have inside {f : Frame H} (mem : f ∈ above) : f ∈ c.stack := stack ▸ List.mem_append_left _ mem
  have below {f : Frame H} (mem : f ∈ base) : f ∈ c.stack :=
    stack ▸ List.mem_append_right _ (List.mem_cons_of_mem _ mem)
  have kept : c'.ReleasesNone m base :=
    run.releasesNone_step h none' stays (fun _ h => below h) .refl
  have still : c'.world.header? s = some (true, some m) := (run.move h).scopes.header mine
  have fewer := run.passages_step h found (Config.current_of_grips grips found)
  rw [stack, passages_append, quiet, passages_releasing] at fewer
  cases toll with
  | acquire f x stage rest enters top stack' =>
    -- what enters a state would have to be above the release
    rw [stack] at top
    cases above with
    | nil =>
      cases top
      cases enters.release?
    | cons g above =>
      cases top
      have passage := enters.passages
      rw [passages_cons] at quiet
      omega
  | release t base' resumes mine' stack' tally owned =>
    obtain ⟨b, mine'⟩ := mine'
    have top := resumes.1
    rw [stack] at top
    cases above with
    | nil =>
      cases top
      subst stack'
      refine ⟨0, .idle (run.grips_of_owned h owned grips) goes kept, ?_⟩
      intro host
      have count := balanced ((run.course h).holds.reserves host)
      rw [tally]
      dsimp only
      omega
    | cons g above =>
      cases top
      exact absurd mine' (none t [] (List.mem_cons_self ..) b)
  | same tally owned unfinished =>
    have empty := run.grips_of_owned h owned grips
    cases (run.course h).releasing stack with
    | above above' stack' continues =>
      rw [stack', passages_append, passages_releasing] at fewer
      refine ⟨1, .releasing s ts above' base stack' still empty goes ?_ kept (by omega) quiet',
        balanced.of_eq (run.course h).holds tally⟩
      exact run.releasesNone_step h none stays (fun _ h => inside h) continues
    | perform t us above' left resumes stack' free =>
      rw [stack', passages_append, passages_releasing] at fewer
      refine ⟨1, .releasing s us above' base stack' still empty goes ?_ kept (by omega) quiet',
        balanced.of_eq (run.course h).holds tally⟩
      intro u vs mem
      cases free _ mem
    | finish left resumes stack' =>
      subst left
      exact absurd mine (unfinished s base true resumes)
    | lose loses => exact absurd ⟨s, base, true, loses, mine⟩ keeps

include found in
/-- The scope of a machine stays in one place at a time, and the count goes with it. -/
theorem step {n : Nat} (custody : Custody m c n) (balanced : Balanced i n c)
    (keeps : ¬c.LosesOne m) : ∃ n', Custody m c' n' ∧ Balanced i n' c' := by
  by_cases goes : c'.LetsGo m
  · exact step_goes run h toll custody balanced goes
  · cases custody with
    | idle grips stays none => exact step_idle run h toll grips stays none balanced goes
    | held g grips stays none => exact step_held run h toll grips stays none balanced goes
    | going s control live grips none quiet =>
      exact step_going run h toll control live grips none quiet balanced goes
    | releasing s ts above base stack mine grips stays none none' quiet quiet' =>
      exact step_releasing run h found toll stack mine grips stays none none' quiet quiet' balanced
        goes keeps

end Custody

include found in
theorem Bereft.step (bereft : Bereft m c) (balanced : Balanced i 1 c) :
    Bereft m c' ∧ Balanced i 1 c' := by
  obtain ⟨grips, stays, none, quiet⟩ := bereft
  have goes : ¬c'.LetsGo m := by
    intro goes
    obtain ⟨⟨g, before⟩, _⟩ := run.turn_of_letsGo h goes
    rw [grips] at before
    cases before
  have none' := run.releasesNone_step h none stays (fun _ h => h) (run.course h).continues
  obtain ⟨tally, owned⟩ := toll.elim_same (fun f x stage rest enters top _ => by
    rcases quiet with quiet | ⟨⟨message, control⟩, _⟩
    · have passage := enters.passages
      rw [top, passages_cons] at quiet
      omega
    · exact enters.control.2 message control) fun s base b resumes => none.not_resumes resumes b
  refine ⟨⟨run.grips_of_owned h owned grips, goes, none', .inl ?_⟩, balanced.of_eq (run.course h).holds tally⟩
  rcases quiet with quiet | ⟨⟨message, control⟩, quiet⟩
  · have fewer := run.passages_step h found (Config.current_of_grips grips found)
    omega
  · obtain ⟨w', host, ctl, fs⟩ := c
    cases control
    cases fs with
    | nil => cases h
    | cons f fs =>
      obtain ⟨gs, stack, free⟩ := Config.unwind_stack (m := m) h
      rw [stack, passages_append, free]
      simpa using quiet

omit run toll in
/-- A panic takes the scope out of custody. -/
theorem Custody.bereft {n : Nat} (custody : Custody m c n) (balanced : Balanced i n c)
    (loses : c.LosesOne m) : Bereft m c' ∧ Balanced i 1 c' := by
  obtain ⟨s, base, b, ⟨⟨ts, stack⟩, message, control⟩, mine⟩ := loses
  cases custody with
  | idle grips stays none | held g grips stays none | going t control' live grips none =>
    exact absurd mine (none s ts (stack ▸ List.mem_cons_self ..) b)
  | releasing t us above base' stack' mine' grips stays none none' quiet quiet' =>
    obtain ⟨w', host, ctl, fs⟩ := c
    cases control
    cases stack
    cases above with
    | cons g above =>
      cases stack'
      exact absurd mine (none s ts (List.mem_cons_self ..) b)
    | nil =>
      cases stack'
      cases h
      refine ⟨⟨?_, ?_, none', .inr ⟨⟨message, rfl⟩, quiet'⟩⟩, balanced⟩
      · exact grips
      · rintro ⟨u, goes, _⟩
        cases goes

end Step

/-! ## Every instant of a run -/

namespace Program.Run

variable {w : World H} {past : List (Config H)} {c : Config H} {cell : MachineCell H}

/-- Nothing of a machine is in custody in a step that makes the machine. -/
theorem custody_of_new {c' : Config H} (run : p.Run w past c) (h : p.step c = some c')
    (new : c.world.machine? m = none) :
    Custody m c' 0 ∧ ¬∃ y ∈ past ++ [c], y.LosesOne m := by
  -- no scope has the machine for its owner before there is one
  have unowned (s : ScopeId) (b : Bool) : c.world.header? s ≠ some (b, some m) := by
    intro mine
    obtain ⟨manager, holder⟩ := World.owner_eq.1 ⟨b, mine⟩
    obtain ⟨cell, found, _⟩ := run.assigned.owned holder
    rw [new] at found
    cases found
  have unowned' (s : ScopeId) (b : Bool) : c'.world.header? s ≠ some (b, some m) := by
    intro mine
    obtain ⟨manager, holder⟩ := World.owner_eq.1 ⟨b, mine⟩
    have before : c.world.holder? s = some (some m, manager) := by
      cases (run.course h).holds with
      | same same => rw [← same, holder]
      | make manager' k control made =>
        rw [made] at holder
        split at holder
        · cases holder
        · exact holder
      | enter n cell found made =>
        rw [made] at holder
        split at holder
        · cases holder
          rw [new] at found
          cases found
        · exact holder
    obtain ⟨b, header⟩ := World.owner_eq.2 ⟨manager, before⟩
    exact unowned s b header
  constructor
  · refine .idle ?_ (fun ⟨s, _, live⟩ => unowned' s _ live) fun s ts _ b => unowned' s b
    have empty : c.grips m = [] := by
      have poised := run.poised m
      simp only [Config.Poised, new] at poised
      rw [Config.grips, new, ScopedMachine.grips, show c.stack.filter _ = [] from poised.1]
      rfl
    exact run.grips_of_owned h (fun s b mine => absurd mine (unowned' s b)) empty
  · rintro ⟨y, mem, s, base, b, _, mine⟩
    rcases List.mem_append.1 mem with earlier | now
    · obtain ⟨b, known⟩ := run.owner earlier ⟨b, mine⟩
      exact unowned s b known
    · rw [List.mem_singleton.1 now] at mine
      exact unowned s b mine

/-- At every instant the scope of a machine is in one place, and the count agrees, unless a panic
took the scope out of custody. -/
theorem custody (run : p.Run w past c) (found : c.world.machine? m = some cell) :
    (¬∃ y ∈ past, y.LosesOne m) ∧ (∃ n, Custody m c n ∧ Balanced cell.manager n c) ∨
      (∃ y ∈ past, y.LosesOne m) ∧ Bereft m c ∧ Balanced cell.manager 1 c := by
  induction run generalizing cell with
  | begin fresh host s =>
    rw [show _ = none from fresh.machine? m] at found
    cases found
  | @step past c c' run h ih =>
    rcases (run.move h).manager found with ⟨cell₀, found₀, same⟩ | ⟨new, count, managers, _⟩
    · rw [same]
      have toll := run.toll h found₀
      rcases ih found₀ with ⟨kept, n, custody, balanced⟩ | ⟨⟨y, mem, loses⟩, bereft, balanced⟩
      · by_cases loses : c.LosesOne m
        · exact .inr ⟨⟨c, List.mem_append_right _ (List.mem_singleton_self c), loses⟩,
            custody.bereft h balanced loses⟩
        · refine .inl ⟨?_, custody.step run h found₀ toll balanced loses⟩
          rintro ⟨y, mem, lost⟩
          rcases List.mem_append.1 mem with earlier | now
          · exact kept ⟨y, earlier, lost⟩
          · exact loses (List.mem_singleton.1 now ▸ lost)
      · exact .inr ⟨⟨y, List.mem_append_left _ mem, loses⟩, bereft.step run h found₀ toll balanced⟩
    · obtain ⟨custody, kept⟩ := run.custody_of_new h new
      refine .inl ⟨kept, 0, custody, ?_⟩
      -- the manager is new, and has counted nothing
      have fresh : c'.world.tally cell.manager = {} := by
        rw [World.tally, managers, count, Array.getElem?_push, if_pos rfl]
        rfl
      intro _
      rw [fresh]
  | @resume past c run ended host' s ih =>
    have idle : ¬c.LosesOne m := by
      rintro ⟨t, base, b, ⟨⟨ts, stack⟩, _⟩, _⟩
      rw [ended.1] at stack
      cases stack
    have stays : ¬Config.LetsGo m { c with host := host', control := .run s } := by
      rintro ⟨t, control, _⟩
      cases control
    rcases ih found with ⟨kept, n, custody, balanced⟩ | ⟨⟨y, mem, loses⟩, bereft, balanced⟩
    · refine .inl ⟨?_, n, ?_, balanced⟩
      · rintro ⟨y, mem, lost⟩
        rcases List.mem_append.1 mem with earlier | now
        · exact kept ⟨y, earlier, lost⟩
        · exact idle (List.mem_singleton.1 now ▸ lost)
      · cases custody with
        | idle grips _ none => exact .idle grips stays none
        | held g grips _ none => exact .held g grips stays none
        | going t control =>
          obtain ⟨_, ⟨a, ha⟩ | ⟨message, hm⟩⟩ := ended
          · rw [ha] at control
            cases control
          · rw [hm] at control
            cases control
        | releasing t ts above base stack =>
          rw [ended.1] at stack
          simp at stack
    · refine .inr ⟨⟨y, List.mem_append_left _ mem, loses⟩, ?_, balanced⟩
      refine ⟨bereft.grips, stays, bereft.none, .inl ?_⟩
      show passages m c.stack = 0
      rw [ended.1]
      rfl

end Program.Run

/-! ## One scope at a time -/

/-- The scopes of a machine at one instant of a run. -/
structure OneScope (p : Program H) (m : MachineId) (cell : MachineCell H) (past : List (Config H))
    (c : Config H) : Prop where
  /-- The manager of the machine counts its scopes, and no others. -/
  counted {s : ScopeId} : (∃ o, c.world.holder? s = some (o, some cell.manager)) ↔
    ∃ b, c.world.header? s = some (b, some m)
  released_le : (c.world.tally cell.manager).released ≤ (c.world.tally cell.manager).acquired
  acquired_le : (c.world.tally cell.manager).acquired ≤ (c.world.tally cell.manager).released + 1
  single {s t : ScopeId} (hs : c.world.header? s = some (false, some m))
    (ht : c.world.header? t = some (false, some m)) : s = t
  /-- No release has begun twice. -/
  once : (past.filterMap Config.frees?).Nodup
  /-- When nothing is under way and the machine does not run, all its scopes are released. -/
  ended (rest : c.AtRest ∨ c.IsOver) (stands : ¬c.world.Runs m) (s : ScopeId) :
    c.world.header? s ≠ some (false, some m)
  /-- Unless a panic ended the release of one of them, the count says so too. -/
  even (kept : ¬∃ y ∈ past, y.LosesOne m) (rest : c.AtRest ∨ c.IsOver)
    (stands : ¬c.world.Runs m) :
    (c.world.tally cell.manager).acquired = (c.world.tally cell.manager).released
  /-- A teardown that is registered before the release hangs off the scope, after those that were
  registered earlier; a later one is performed at once, above what is under way. -/
  registers {s : ScopeId} {t : Script H} {k : Answer → Script H}
    (h : c.control = .run (.call (.onCancel s t) k)) :
    ∃ c', p.step c = some c' ∧
      (c.world.isCancelled s = false → c'.world.teardowns s = c.world.teardowns s ++ [.run t]) ∧
      (c.world.isCancelled s → c'.control = .run t ∧
        c'.stack = .settling (.gave .unit) :: .await k :: c.stack)
  /-- While an activation lives in a scope, so from before its first entry action on, the release of
  each other scope of the machine was begun and carried through: the teardowns that had been
  registered were performed to their ends, and so was whatever else began meanwhile. -/
  order {g : Grip} (held : g ∈ c.grips m) {s : ScopeId} {b : Bool}
    (mine : c.world.header? s = some (b, some m)) (other : s ≠ g.scope) :
    ∃ before x mid rest, past = before ++ x :: (mid ++ rest) ∧ x.frees? = some s ∧
      (∀ y ∈ before, y.world.teardowns s <+: x.world.teardowns s) ∧ CarriedThrough s x mid

theorem Custody.le_one {c : Config H} {n : Nat} (custody : Custody m c n) : n ≤ 1 := by
  cases custody <;> omega

/-- A machine that holds a scope has no other one in custody. -/
theorem Custody.of_grips {c : Config H} {n : Nat} {g : Grip} (custody : Custody m c n)
    (held : g ∈ c.grips m) : ¬c.LetsGo m ∧ c.ReleasesNone m c.stack ∧ c.grips m = [g] := by
  cases custody with
  | held g' grips stays none =>
    rw [grips, List.mem_singleton] at held
    exact ⟨stays, none, held ▸ grips⟩
  | idle grips | going s control live grips | releasing s ts above base stack mine grips =>
    rw [grips] at held
    cases held

namespace Program.Run

variable {w : World H} {past : List (Config H)} {c : Config H} {cell : MachineCell H}

theorem registers (run : p.Run w past c) {s : ScopeId} {t : Script H} {k : Answer → Script H}
    (h : c.control = .run (.call (.onCancel s t) k)) :
    ∃ c', p.step c = some c' ∧
      (c.world.isCancelled s = false → c'.world.teardowns s = c.world.teardowns s ++ [.run t]) ∧
      (c.world.isCancelled s → c'.control = .run t ∧
        c'.stack = .settling (.gave .unit) :: .await k :: c.stack) := by
  obtain ⟨w', host, ctl, fs⟩ := c
  cases h
  refine ⟨_, rfl, fun live => ?_, fun cancelled => ?_⟩
  · have live : w'.isCancelled s = false := live
    simp [Program.call, Config.onCancel, Config.push, Config.mapWorld, Config.give, live,
      World.teardowns_addTeardown live]
  · have cancelled : w'.isCancelled s = true := cancelled
    simp [Program.call, Config.onCancel, Config.push, Config.performTeardown, Config.run, cancelled]

/-- A scope whose release a panic ended is a scope of its owner. -/
theorem losesOne_of_lost (run : p.Run w past c) {s : ScopeId} {b : Bool} (lost : Lost s past)
    (mine : c.world.header? s = some (b, some m)) : ∃ y ∈ past, y.LosesOne m := by
  obtain ⟨y, inside, base, loses⟩ := lost
  refine ⟨y, inside, s, base, true, loses, ?_⟩
  -- the release is under way at `y`, and the owner stays the same
  obtain ⟨⟨ts, stack⟩, _⟩ := loses
  obtain ⟨past₁, past₂, split⟩ := List.append_of_mem inside
  have reached : p.Run w past₁ y :=
    run.earlier ⟨past₂ ++ [c], by rw [split, List.append_assoc, List.append_assoc]; rfl⟩
  obtain ⟨owner, header⟩ := reached.releases s ts (stack ▸ List.mem_cons_self ..)
  obtain ⟨b', later⟩ := run.owner inside ⟨_, header⟩
  rw [mine] at later
  cases later
  exact header

/-- While a machine holds a scope, no release of a scope of the machine was ended by a panic. -/
theorem not_lost_of_held (run : p.Run w past c) (found : c.world.machine? m = some cell) {g : Grip}
    (held : g ∈ c.grips m) {s : ScopeId} {b : Bool}
    (mine : c.world.header? s = some (b, some m)) : ¬Lost s past := by
  intro lost
  rcases run.custody found with ⟨kept, _⟩ | ⟨_, bereft, _⟩
  · exact kept (run.losesOne_of_lost lost mine)
  · rw [bereft.grips] at held
    cases held

/-- While a machine holds one scope, the releases of its others are over. -/
theorem carriedThrough (run : p.Run w past c) (kept : ¬∃ y ∈ past, y.LosesOne m) {n : Nat}
    (custody : Custody m c n) {g : Grip} (held : g ∈ c.grips m) {s : ScopeId} {b : Bool}
    (mine : c.world.header? s = some (b, some m)) (other : s ≠ g.scope) :
    ∃ before x mid rest, past = before ++ x :: (mid ++ rest) ∧ x.frees? = some s ∧
      (∀ y ∈ before, y.world.teardowns s <+: x.world.teardowns s) ∧ CarriedThrough s x mid := by
  obtain ⟨stays, none, grips⟩ := custody.of_grips held
  have released : c.world.header? s = some (true, some m) := by
    cases b with
    | true => exact mine
    | false =>
      rcases (run.holding m).accounted mine with ⟨g', held', same⟩ | control
      · rw [grips, List.mem_singleton] at held'
        exact absurd (held' ▸ same).symm other
      · exact absurd ⟨s, control, mine⟩ stays
  obtain ⟨x, mem, frees⟩ := run.frees_of_released released
  obtain ⟨before, later, split⟩ := List.append_of_mem mem
  have passed : before ++ [x] <+: past := ⟨later, by rw [split, List.append_assoc]; rfl⟩
  obtain ⟨after, split, fate⟩ := run.fate passed frees
  have begun : p.Run w before x := run.earlier (passed.trans (List.prefix_append ..))
  have unreleased (owner : Option MachineId) : x.world.header? s ≠ some (true, owner) := by
    obtain ⟨_, live⟩ := Config.frees?_eq_some_iff.1 frees
    obtain ⟨owner', live⟩ := World.isCancelled_eq_false_iff.1 live
    rw [live]
    nofun
  cases fate with
  | underWay above ts stack =>
    exact absurd released (none s ts (stack ▸ List.mem_append_right _ (List.mem_cons_self ..)) true)
  | carriedThrough mid rest split' through =>
    exact ⟨before, x, mid, rest, by rw [split, split'], frees,
      fun y hy => begun.prefix_teardowns hy unreleased, through⟩
  | lost loses =>
    obtain ⟨y, mem, loses⟩ := loses
    have inside : y ∈ past := split ▸ List.mem_append_right _ (List.mem_cons_of_mem _ mem)
    exact absurd (run.losesOne_of_lost ⟨y, inside, _, loses⟩ released) kept

/-- When nothing is under way and no activation is in place, the manager of a machine has counted as many
releases as scopes, but for one whose release a panic ended. -/
theorem tally_of_rest (run : p.Run w past c) (found : c.world.machine? m = some cell)
    (reserves : c.world.Reserves cell.manager) (rest : c.AtRest ∨ c.IsOver)
    (vacant : c.world.current? m = none) :
    (¬∃ y ∈ past, y.LosesOne m) ∧
        (c.world.tally cell.manager).acquired = (c.world.tally cell.manager).released ∨
      (∃ y ∈ past, y.LosesOne m) ∧
        (c.world.tally cell.manager).acquired = (c.world.tally cell.manager).released + 1 := by
  obtain ⟨empty, plain⟩ := Config.ended rest
  rcases run.custody found with ⟨kept, n, custody, balanced⟩ | ⟨lost, _, balanced⟩
  · cases custody with
    | idle => exact .inl ⟨kept, balanced reserves⟩
    | held g grips =>
      obtain ⟨a, current, _⟩ := current_of_mem_grips empty (grips ▸ List.mem_singleton_self g)
      rw [vacant] at current
      cases current
    | going s control =>
      rw [control] at plain
      cases plain
    | releasing s ts above base stack =>
      rw [empty] at stack
      simp at stack
  · exact .inr ⟨lost, balanced reserves⟩

/-- A machine has one scope at a time, at every instant of every run, and its manager counts so; the
teardowns of one scope are over before the machine makes the next one. -/
theorem one_scope (run : p.Run w past c) (found : c.world.machine? m = some cell)
    (host : ∀ s, c.world.holder? s ≠ some (none, some cell.manager)) :
    OneScope p m cell past c := by
  have assigned := run.assigned
  have stands {a : Activation H} (stands : ¬c.world.Runs m) : c.world.current? m ≠ some a := by
    intro current
    obtain ⟨cell', found', installed⟩ := Option.bind_eq_some_iff.1 current
    have posture := (run.poised m).posture found'
    exact stands ⟨cell', found', posture.current (by rw [installed]; rfl)⟩
  have custody := run.custody found
  have count : ∃ n ≤ 1, (c.world.tally cell.manager).acquired =
      (c.world.tally cell.manager).released + n := by
    rcases custody with ⟨_, n, custody, balanced⟩ | ⟨_, _, balanced⟩
    · exact ⟨n, custody.le_one, balanced host⟩
    · exact ⟨1, Nat.le_refl _, balanced host⟩
  constructor
  case counted =>
    intro s
    constructor
    · rintro ⟨o, holder⟩
      have owner := assigned.owner_eq found host holder
      subst owner
      exact World.owner_eq.2 ⟨_, holder⟩
    · intro mine
      obtain ⟨manager, holder⟩ := World.owner_eq.1 mine
      obtain ⟨cell', found', rfl⟩ := assigned.owned holder
      rw [found] at found'
      cases found'
      exact ⟨_, holder⟩
  case released_le =>
    obtain ⟨n, _, balanced⟩ := count
    omega
  case acquired_le =>
    obtain ⟨n, le, balanced⟩ := count
    omega
  case single =>
    intro s t hs ht
    have one {g : Grip} (held : g ∈ c.grips m) : c.grips m = [g] ∧ ¬c.LetsGo m := by
      rcases custody with ⟨_, n, custody, _⟩ | ⟨_, bereft, _⟩
      · obtain ⟨stays, _, grips⟩ := custody.of_grips held
        exact ⟨grips, stays⟩
      · rw [bereft.grips] at held
        cases held
    rcases (run.holding m).accounted hs with ⟨g, held, rfl⟩ | control
    · obtain ⟨grips, stays⟩ := one held
      rcases (run.holding m).accounted ht with ⟨g', held', rfl⟩ | control
      · rw [grips, List.mem_singleton] at held'
        rw [held']
      · exact absurd ⟨t, control, ht⟩ stays
    · rcases (run.holding m).accounted ht with ⟨g, held, rfl⟩ | control'
      · exact absurd ⟨s, control, hs⟩ (one held).2
      · exact Control.release.inj (control.symm.trans control')
  case once => exact run.freed_nodup
  case ended =>
    intro rest stands'
    exact run.header?_of_rest rest (Option.eq_none_iff_forall_ne_some.2 fun a => stands stands')
  case even =>
    intro kept rest stands'
    have vacant := Option.eq_none_iff_forall_ne_some.2 fun a => stands stands'
    rcases run.tally_of_rest found host rest vacant with ⟨_, even⟩ | ⟨lost, _⟩
    · exact even
    · exact absurd lost kept
  case registers => exact run.registers
  case order =>
    intro g held s b mine other
    rcases custody with ⟨kept, n, custody, _⟩ | ⟨_, bereft, _⟩
    · exact run.carriedThrough kept custody held mine other
    · rw [bereft.grips] at held
      cases held

/-- The lamp has made three scopes and holds the last one. -/
theorem one_scope_lamp :
    ∃ cell, (Lamp.program.run 60 Lamp.start).world.machine? ⟨0⟩ = some cell ∧
      (∀ s, (Lamp.program.run 60 Lamp.start).world.holder? s ≠ some (none, some cell.manager)) ∧
      OneScope Lamp.program ⟨0⟩ cell (Lamp.program.trail 60 Lamp.start)
        (Lamp.program.run 60 Lamp.start) := by
  have host : ∀ s, (Lamp.program.run 60 Lamp.start).world.holder? s ≠ some (none, some ⟨0⟩) := by
    rintro ⟨s⟩
    match s with
    | 0 | 1 | 2 | 3 => decide
    | s + 4 => nofun
  exact ⟨_, rfl, host, (Lamp.run 60).one_scope rfl host⟩

end Program.Run

end ScopedMachine

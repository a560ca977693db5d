import ScopedMachine.Proofs.Listeners

/-!
# Subscribing routes

`Grasp` says how a step changes who holds the scopes of a machine, and when it subscribes a route. On
an emitter or a timer a subscription is the registration of a listener; what it is on another source
is up to the host.
-/

namespace ScopedMachine

variable {H : Type} {p : Program H} {m : MachineId}

/-! ## What a step does to the grips of a machine -/

/-- A machine is about to subscribe a route. -/
def Config.Subscribes (m : MachineId) (c : Config H) : Prop :=
  ∃ a r rest stage result, c.control = .give (.result result) ∧
    c.stack.head? = some (.subscribing m a (r :: rest) stage)

/-- How a step changes the grips of a machine. -/
inductive Grasp (m : MachineId) (c c' : Config H) : Prop where
  | same (quiet : ¬c.Subscribes m) (kept : c'.grips m = c.grips m)
  | enter (quiet : ¬c.Subscribes m) (s : ScopeId) (new : c.world.header? s = none)
      (header : c'.world.header? s = some (false, some m)) (before : c.grips m = [])
      (after : c'.grips m = [⟨s, [], []⟩])
  | entered (quiet : ¬c.Subscribes m) (s : ScopeId) (routes : List Route)
      (before : c.grips m = [⟨s, [], []⟩]) (after : c'.grips m = [⟨s, routes, routes⟩])
  | subscribe (s : ScopeId) (routes : List Route) (r : Route) (rest : List Route)
      (before : c.grips m = [⟨s, routes, r :: rest⟩]) (after : c'.grips m = [⟨s, routes, rest⟩])
      (world : (∀ f, (c.world.source? r.source.slot).map SourceCell.kind ≠ some (.hosted f)) →
        c'.world = c.world.register r.source.slot r.type s (.route m r.source.id))
  | release (quiet : ¬c.Subscribes m) (g : Grip) (control : c'.control = .release g.scope)
      (before : c.grips m = [g]) (after : c'.grips m = [])

theorem Config.grips_eq {c : Config H} {cell : MachineCell H} (fs rest : List (Frame H))
    (found : c.world.machine? m = some cell) (stack : c.stack = fs ++ rest) :
    c.grips m = cell.grips ++ ScopedMachine.grips m fs ++ ScopedMachine.grips m rest := by
  rw [Config.grips, found, stack, grips_append, List.append_assoc]
  rfl

/-- Below an activity that holds a scope no other one does. -/
theorem Busy.grips_eq_nil {cell : MachineCell H} {ctl : Control H} {fs rest : List (Frame H)}
    (busy : Busy m cell fs) (posture : Posture m cell ctl (roles m (fs ++ rest))) :
    grips m rest = [] := by
  rcases busy with current | ⟨stage, top⟩
  · have none := posture.grips_of_current current
    rw [grips_append, List.append_eq_nil_iff] at none
    exact none.2
  · exact posture.grips_of_top top

/-- Every step changes the grips of a machine in one of these ways. -/
theorem Program.Run.grasp {w : World H} {past : List (Config H)} {c c' : Config H}
    (run : p.Run w past c) (h : p.step c = some c') : Grasp m c c' := by
  by_cases subscribes : c.Subscribes m
  · obtain ⟨a, r, rest, stage, result, control, top⟩ := subscribes
    obtain ⟨below, stack⟩ := List.head?_eq_some_iff.1 top
    obtain ⟨w', host, ctl, fs⟩ := c
    cases control
    cases stack
    obtain ⟨cell, found⟩ := run.grounded.frame (List.mem_cons_self ..) Frame.machine?_subscribing
    have posture : Posture m cell (.give (.result result))
        (roles m ([.subscribing m a (r :: rest) stage] ++ below)) := (run.poised m).posture found
    have none : cell.grips = [] := by
      rw [roles_append, roles_subscribing] at posture
      rw [MachineCell.grips, posture.current_of_top]
      rfl
    have still : grips m below = [] := posture.grips_of_top roles_subscribing
    have one (rest : List Route) : grips m [.subscribing m a rest stage] =
        [⟨a.scope, a.routes.routes, rest⟩] := by
      simp [grips, Frame.concerns, Frame.grip?]
    have before : Config.grips m ⟨w', host, .give (.result result),
        .subscribing m a (r :: rest) stage :: below⟩ = [⟨a.scope, a.routes.routes, r :: rest⟩] := by
      rw [Config.grips_eq [.subscribing m a (r :: rest) stage] below found rfl, none, one, still]
      rfl
    have after {world : World H} {ctl : Control H} (same : world.machine? m = w'.machine? m) :
        Config.grips m ⟨world, host, ctl, .subscribing m a rest stage :: below⟩ =
          [⟨a.scope, a.routes.routes, rest⟩] := by
      rw [Config.grips_eq [.subscribing m a rest stage] below (same.trans found) rfl, none, one,
        still]
      rfl
    have step : some (Config.subscribeNext p m a (r :: rest) stage
        ⟨w', host, .give (.result result), below⟩) = some c' := h
    rw [Option.some.injEq, Config.subscribeNext] at step
    split at step
    · next f hosted =>
      subst step
      exact .subscribe a.scope a.routes.routes r rest before (after rfl) fun plain =>
        absurd hosted (plain f)
    · subst step
      exact .subscribe a.scope a.routes.routes r rest before (after World.machine?_register)
        fun _ => rfl
  · cases (run.move h).outlook m with
    | spared machine frames =>
      refine .same subscribes ?_
      have same : grips m c'.stack = grips m c.stack :=
        congrArg (List.filterMap Frame.grip?) frames
      rw [Config.grips, Config.grips, machine, same]
    | start signal new found deed blank control frames =>
      obtain ⟨settings, manager, rfl⟩ := blank
      refine .same subscribes ?_
      have same : grips m c'.stack = grips m c.stack :=
        (congrArg (List.filterMap Frame.grip?) frames).trans rfl
      rw [Config.grips, Config.grips, found, new, same]
      rfl
    | @turn cell cell' e pops pushes rest found found' turn before after turned =>
      have posture := (run.poised m).posture found
      rw [before] at posture
      have now := Config.grips_eq pops rest found before
      have next := Config.grips_eq pushes rest found' after
      rw [roles_append] at posture
      have grasping := turn.grasping posture
      cases grasping with
      | same kept => exact .same subscribes (by rw [now, next, kept])
      | enter busy manager effect hpops hpushes =>
        subst effect
        rw [← roles_append] at posture
        refine .enter subscribes ⟨c.world.scopes.size⟩ World.header?_size ?_ ?_ ?_
        · exact (World.header?_congr turned.scopes).trans
            (World.header?_addScope.trans (if_pos rfl))
        · rw [now, hpops, busy.grips_eq_nil posture]; rfl
        · rw [next, hpushes, busy.grips_eq_nil posture]; rfl
      | entered busy s routes hpops hpushes =>
        rw [← roles_append] at posture
        refine .entered subscribes s routes ?_ ?_
        · rw [now, hpops, busy.grips_eq_nil posture]; rfl
        · rw [next, hpushes, busy.grips_eq_nil posture]; rfl
      | subscribe a r routes stage result control hpops =>
        refine absurd ⟨a, r, routes, stage, result, control, ?_⟩ subscribes
        rw [before, hpops]
        rfl
      | release busy g control hpops hpushes =>
        rw [← roles_append] at posture
        refine .release subscribes g control ?_ ?_
        · rw [now, hpops, busy.grips_eq_nil posture]; rfl
        · rw [next, hpushes, busy.grips_eq_nil posture]; rfl

/-- A scope is about to be released because the host asks for one of its own, or because the machine
that held it lets it go. -/
theorem Program.Run.lets_go {w : World H} {past : List (Config H)} {c c' : Config H} {s : ScopeId}
    (run : p.Run w past c) (h : p.step c = some c') (control : c'.control = .release s) :
    (∃ b, c'.world.header? s = some (b, none)) ∨
      ∃ n g, c.grips n = [g] ∧ g.scope = s ∧ c'.grips n = [] := by
  cases run.move h with
  | callRelease frames external inert =>
    cases control
    exact .inl (World.isExternal_iff.1 external)
  | @turn w w' h h' n cell cell' ctl ctl' e pops pushes rest found turn turned others =>
    have posture := (run.poised n).posture found
    have grasping := turn.grasping (roles_append ▸ posture)
    cases grasping with
    | release busy g letsGo hpops hpushes =>
      have idle : grips n rest = [] := busy.grips_eq_nil posture
      refine .inr ⟨n, g, ?_, ?_, ?_⟩
      · rw [Config.grips_eq pops rest found rfl, hpops, idle]
        rfl
      · exact Control.release.inj (letsGo.symm.trans control)
      · rw [Config.grips_eq pushes rest ((turned.machine n).trans (if_pos rfl)) rfl, hpushes, idle]
        rfl
    | same kept none | enter busy manager effect before after none
    | entered busy t routes before after none
    | subscribe a r routes stage result asked top none => exact absurd control (none s)
  | idle pops pushes rest alike sheds quiet plain => exact absurd control (Control.ne_release plain s)
  | newScope frames plain | hang frames live plain | listen frames plain | arm frames plain
  | openStream frames plain | unlisten plain | unobserveGone alike gone plain | disarm plain
  | tick frames plain | reached plain => exact absurd control (Control.ne_release plain s)
  | _ => cases control

/-- A scope that is about to be released is so in the next step, unless it was before. -/
theorem Program.Run.header?_of_release {w : World H} {past : List (Config H)} {c c' : Config H}
    {s : ScopeId} (run : p.Run w past c) (h : p.step c = some c')
    (control : c.control = .release s) (owner : Option MachineId) :
    c'.world.header? s ≠ some (false, owner) := by
  obtain ⟨w', host, ctl, fs⟩ := c
  cases control
  have step : some (Config.performRelease s ⟨w', host, .release s, fs⟩) = some c' := h
  rw [Option.some.injEq, Config.performRelease] at step
  split at step
  · next cancelled =>
    subst step
    exact World.isCancelled_iff.1 cancelled owner
  · next live =>
    subst step
    obtain ⟨owner', live⟩ := World.isCancelled_eq_false_iff.1 (Bool.eq_false_iff.2 live)
    show (w'.cancel s).header? s ≠ _
    rw [World.header?_cancel live, if_pos rfl]
    nofun

end ScopedMachine

import ScopedMachine.Proofs.Books

/-!
# Who holds the scopes of a machine

Every live scope of a machine is held by one activation: the current one, or one that is being
entered. `Grasping` says how a turn takes hold of a scope, goes on with it, or lets it go to be
released. A machine holds at most one scope at a time.
-/

namespace ScopedMachine

variable {H : Type} {p : Program H} {m : MachineId}

/-! ## Grips -/

/-- The scope that an activation lives in, its routes, and those yet to be subscribed. -/
structure Grip where
  scope : ScopeId
  routes : List Route
  rest : List Route

/-- The grip of an activation that is in place. -/
def Activation.grip (a : Activation H) : Grip := ⟨a.scope, a.routes.routes, []⟩

/-- The grip of the current activation. -/
def MachineCell.grips (cell : MachineCell H) : List Grip := cell.current.toList.map Activation.grip

/-- The grip of an activation that is being entered. -/
def Frame.grip? : Frame H → Option Grip
  | .activating _ _ scope _ => some ⟨scope, [], []⟩
  | .subscribing _ a rest _ => some ⟨a.scope, a.routes.routes, rest⟩
  | _ => none

/-- The grips of the frames that work for a machine. -/
def grips (m : MachineId) (fs : List (Frame H)) : List Grip :=
  (fs.filter (Frame.concerns m)).filterMap Frame.grip?

/-- All grips of a machine. -/
def Config.grips (m : MachineId) (c : Config H) : List Grip :=
  ((c.world.machine? m).map MachineCell.grips).getD [] ++ ScopedMachine.grips m c.stack

section Grips

variable {fs gs : List (Frame H)}

theorem grips_append : grips m (fs ++ gs) = grips m fs ++ grips m gs := by
  simp [grips]

theorem grips_of_idle (idle : fs.filterMap Frame.grip? = []) : grips m fs = [] := by
  rw [List.filterMap_eq_nil_iff] at idle
  exact List.filterMap_eq_nil_iff.2 fun f hf => idle f (List.mem_filter.1 hf).1

theorem grips_of_isPlain (plain : ∀ f ∈ fs, f.isPlain) : grips m fs = [] := by
  rw [grips, filter_concerns_of_isPlain plain, List.filterMap_nil]

/-- Only entering a first or another state comes with a grip. -/
theorem grips_of_roles (first : .first ∉ roles m fs) (shift : .shift ∉ roles m fs) :
    grips m fs = [] := by
  refine List.filterMap_eq_nil_iff.2 fun f hf => ?_
  have entering {stage : Stage H} (role : f.role? = some stage.role) : False := by
    have mem : stage.role ∈ roles m fs := List.mem_filterMap.2 ⟨f, hf, role⟩
    cases stage with
    | initial => exact first mem
    | commit | restore => exact shift mem
  cases f with
  | activating | subscribing => exact (entering rfl).elim
  | _ => rfl

end Grips

/-- A machine with an activation in place enters no state. -/
theorem Posture.grips_of_current {cell : MachineCell H} {ctl : Control H} {fs : List (Frame H)}
    (posture : Posture m cell ctl (roles m fs)) (current : cell.current.isSome) :
    ScopedMachine.grips m fs = [] := by
  refine grips_of_roles (fun first => ?_) fun shift => ?_
  · exact (posture.first first).1 (posture.current current).1
  · rw [posture.shift shift] at current
    cases current

/-- A machine enters one state at a time. -/
theorem Posture.grips_of_top {cell : MachineCell H} {ctl : Control H} {fs gs : List (Frame H)}
    {stage : Stage H} (posture : Posture m cell ctl (roles m (fs ++ gs)))
    (top : roles m fs = [stage.role]) : ScopedMachine.grips m gs = [] := by
  rw [roles_append, top] at posture
  refine grips_of_roles (fun first => ?_) fun shift => ?_
  · have quiet := (posture.first (List.mem_cons_of_mem _ first)).2 _ (List.mem_cons_self ..)
    cases stage with
    | initial =>
      have start : roles m gs = [.start] :=
        posture.nested.tail.eq_of_head?_start posture.nested.1
      rw [start] at first
      simp at first
    | commit | restore => cases quiet
  · cases stage with
    | initial =>
      have quiet := (posture.first (List.mem_cons_self ..)).2
      cases quiet _ (List.mem_cons_of_mem _ shift)
    | commit | restore => cases posture.isTransit_eq_false rfl shift

/-- A machine has no current activation while it enters a state. -/
theorem Posture.current_of_top {cell : MachineCell H} {ctl : Control H} {rs : List Role}
    {stage : Stage H} (posture : Posture m cell ctl (stage.role :: rs)) : cell.current = none := by
  cases stage with
  | initial =>
    cases h : cell.current with
    | none => rfl
    | some a =>
      have running := (posture.current (by rw [h]; rfl)).1
      exact absurd running (posture.first (List.mem_cons_self ..)).1
  | commit | restore => exact posture.shift (List.mem_cons_self ..)

/-! ## Turns -/

/-- Nothing below the top of the stack holds a scope of the machine. -/
def Busy (m : MachineId) (cell : MachineCell H) (pops : List (Frame H)) : Prop :=
  cell.current.isSome ∨ ∃ stage : Stage H, roles m pops = [stage.role]

theorem Control.ne_release {ctl : Control H} (plain : ctl.isPlain) (s : ScopeId) :
    ctl ≠ .release s := by
  rintro rfl
  cases plain

/-- How a turn changes the grips of its machine. -/
inductive Grasping (m : MachineId) (w : World H) (e : Effect H) (cell cell' : MachineCell H)
    (ctl ctl' : Control H) (pops pushes : List (Frame H)) : Prop where
  | same (kept : cell'.grips ++ grips m pushes = cell.grips ++ grips m pops)
      (control : ∀ s, ctl' ≠ .release s)
  | enter (busy : Busy m cell pops) (manager : Option ManagerId) (effect : e = .acquire manager)
      (before : cell.grips ++ grips m pops = [])
      (after : cell'.grips ++ grips m pushes = [⟨⟨w.scopes.size⟩, [], []⟩])
      (control : ∀ s, ctl' ≠ .release s)
  | entered (busy : Busy m cell pops) (s : ScopeId) (routes : List Route)
      (before : cell.grips ++ grips m pops = [⟨s, [], []⟩])
      (after : cell'.grips ++ grips m pushes = [⟨s, routes, routes⟩])
      (control : ∀ s, ctl' ≠ .release s)
  /-- A route is subscribed. -/
  | subscribe (a : Activation H) (r : Route) (rest : List Route) (stage : Stage H)
      (result : Except Fault Unit) (control : ctl = .give (.result result))
      (before : pops = [.subscribing m a (r :: rest) stage]) (control' : ∀ s, ctl' ≠ .release s)
  | release (busy : Busy m cell pops) (g : Grip) (control : ctl' = .release g.scope)
      (before : cell.grips ++ grips m pops = [g]) (after : cell'.grips ++ grips m pushes = [])

theorem Turn.grasping {w : World H} {d : Option Deed} {e : Effect H} {cell cell' : MachineCell H}
    {ctl ctl' : Control H} {pops pushes : List (Frame H)} {rs : List Role}
    (turn : Turn p w m d e ⟨cell, ctl, pops⟩ ⟨cell', ctl', pushes⟩)
    (posture : Posture m cell ctl (roles m pops ++ rs)) :
    Grasping m w e cell cell' ctl ctl' pops pushes := by
  -- frames without a grip come and go
  have idly (current : cell'.current = cell.current) (control : ∀ s, ctl' ≠ .release s)
      (before : grips m pops = []) (after : grips m pushes = []) :
      Grasping m w e cell cell' ctl ctl' pops pushes :=
    .same (by rw [before, after, MachineCell.grips, MachineCell.grips, current]) control
  -- the current activation, if there is one, is let go
  have drops (cleared : cell'.current = none) (control : ctl' = .ofRelease cell.current)
      (before : grips m pops = []) (after : grips m pushes = []) :
      Grasping m w e cell cell' ctl ctl' pops pushes := by
    cases current : cell.current with
    | none =>
      rw [current] at control
      refine idly (cleared.trans current.symm) ?_ before after
      exact control ▸ Control.ne_release rfl
    | some a =>
      rw [current] at control
      refine .release (.inl (by rw [current]; rfl)) a.grip control ?_ ?_
      · rw [before, MachineCell.grips, current]; rfl
      · rw [after, MachineCell.grips, cleared]; rfl
  have free {stage : Stage H} (top : roles m pops = [stage.role]) : cell.grips = [] := by
    rw [top] at posture
    rw [MachineCell.grips, posture.current_of_top]
    rfl
  -- the activation on top is let go
  have abandons {stage : Stage H} (top : roles m pops = [stage.role]) (g : Grip)
      (current : cell'.current = cell.current ∨ cell'.current = none)
      (control : ctl' = .release g.scope) (before : grips m pops = [g])
      (after : grips m pushes = []) : Grasping m w e cell cell' ctl ctl' pops pushes := by
    refine .release (.inr ⟨stage, top⟩) g control (by rw [free top, before]; rfl) ?_
    have empty : cell'.current = none := by
      rw [top] at posture
      rcases current with same | none
      · rw [same, posture.current_of_top]
      · exact none
    rw [after, MachineCell.grips, empty]
    rfl
  have installs {stage : Stage H} {a : Activation H} (top : roles m pops = [stage.role])
      (current : cell'.current = some a) (control : ∀ s, ctl' ≠ .release s)
      (before : grips m pops = [a.grip]) (after : grips m pushes = []) :
      Grasping m w e cell cell' ctl ctl' pops pushes := by
    refine .same ?_ control
    rw [free top, before, after, MachineCell.grips, current]
    rfl
  have one {f : Frame H} {g : Grip} (works : f.machine? = some m) (grip : f.grip? = some g) :
      grips m [f] = [g] := by
    simp [grips, Frame.concerns, works, grip]
  cases turn with
  | @pin _ _ _ _ pushes alive quiet call sheds =>
    obtain ⟨hpops, hpushes⟩ := sheds.filter (m := m)
    refine idly rfl ?_ (by rw [grips, hpops]; rfl) ?_
    · rintro s rfl
      cases call
    · show grips m ([.holding m] ++ pushes) = []
      rw [grips_append, grips_of_idle rfl, grips, hpushes]
      rfl
  | hold held quiet plain inert | drop held alive quiet plain inert
  | observe live held quiet plain inert =>
    exact idly rfl (Control.ne_release plain) rfl (grips_of_isPlain inert)
  | @dropLast _ _ o frames held dead quiet inert =>
    refine drops rfl rfl rfl ?_
    show grips m ([.dismantling m, .settling o] ++ frames) = []
    rw [grips_append, grips_of_idle rfl, grips_of_isPlain inert]
    rfl
  | unpin pin alive quiet plain =>
    exact idly rfl (Control.ne_release plain) (grips_of_idle (by cases pin <;> rfl)) rfl
  | unpinLast pin =>
    exact drops rfl rfl (grips_of_idle (by cases pin <;> rfl)) (grips_of_idle rfl)
  | leave running current =>
    exact drops rfl (by rw [current]; rfl) (grips_of_idle rfl) (grips_of_idle rfl)
  | @enter _ ctl f x stage enters =>
    have top : ∃ stage : Stage H, roles m [f] = [stage.role] := by
      cases enters with
      | initial => exact ⟨.initial, roles_initial⟩
      | @next previous x event => exact ⟨.commit event previous, roles_leaving⟩
      | again => exact ⟨_, roles_abandoning⟩
    obtain ⟨below, top⟩ := top
    refine .enter (.inr ⟨below, top⟩) _ rfl ?_ ?_ (Control.ne_release rfl)
    · rw [free top, grips_of_idle (by cases enters <;> rfl)]
      rfl
    · show cell.grips ++ grips m ([.acting x.name _ x.actions] ++ [_]) = _
      rw [free top, grips_append, grips_of_idle rfl, one rfl rfl]
      rfl
  | @entered _ x scope stage =>
    have top : roles m [Frame.activating m x scope stage] = [stage.role] := roles_activating
    refine .entered (.inr ⟨stage, top⟩) scope (RouteTable.build x.directives).routes ?_ ?_
      (Control.ne_release rfl)
    · rw [free top, one rfl rfl]; rfl
    · rw [free top, one rfl rfl]; rfl
  | fail => exact abandons roles_activating ⟨_, [], []⟩ (.inl rfl) rfl (one rfl rfl) (grips_of_idle rfl)
  | subscribe | subscribeHosted => exact .subscribe _ _ _ _ _ rfl rfl (Control.ne_release rfl)
  | begin | restore =>
    exact installs roles_subscribing rfl (Control.ne_release rfl) (one rfl rfl) rfl
  | commit =>
    exact installs roles_subscribing rfl (Control.ne_release rfl) (one rfl rfl) (grips_of_idle rfl)
  | beginStopped =>
    exact abandons roles_subscribing ⟨_, _, []⟩ (.inr rfl) rfl (one rfl rfl) (grips_of_idle rfl)
  | orphan =>
    exact abandons roles_subscribing ⟨_, _, []⟩ (.inl rfl) rfl (one rfl rfl) (grips_of_idle rfl)
  | startFailed first quiet plain =>
    refine idly rfl (Control.ne_release plain) (grips_of_idle ?_) rfl
    rcases first with rfl | ⟨state, error, rfl⟩ <;> rfl
  | stop => exact drops rfl rfl rfl (grips_of_idle rfl)
  | dismantled quiet plain => exact idly rfl (Control.ne_release plain) (grips_of_idle rfl) rfl
  | enqueue busy plain | ignore plain | stopIgnored stopped plain =>
    exact idly rfl (Control.ne_release plain) rfl rfl
  | finish empty plain | giveUp plain | stopped plain =>
    exact idly rfl (Control.ne_release plain) (grips_of_idle rfl) rfl
  | tell live plain | unobserve plain | signal live plain | signalGone cancelled dead plain =>
    exact idly rfl (Control.ne_release plain) (grips_of_idle rfl) (grips_of_idle rfl)
  | handOver pin plain =>
    refine idly rfl (Control.ne_release plain) (grips_of_idle ?_) rfl
    rcases pin with rfl | rfl <;> rfl
  | unwind unwinds =>
    refine idly rfl (Control.ne_release rfl) (grips_of_idle ?_) rfl
    cases unwinds <;> rfl
  | unwindScope half =>
    rcases half with ⟨x, stage, rfl⟩ | ⟨a, rest, stage, rfl, rfl⟩
    · exact abandons roles_activating ⟨_, [], []⟩ (.inl rfl) rfl (one rfl rfl) (grips_of_idle rfl)
    · exact abandons roles_subscribing ⟨_, _, rest⟩ (.inl rfl) rfl (one rfl rfl)
        (grips_of_idle rfl)
  | _ =>
    refine idly rfl ?_ (grips_of_idle rfl) (grips_of_idle rfl)
    intro s h
    cases h

end ScopedMachine

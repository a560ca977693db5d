import ScopedMachine.Proofs.Rollback

/-!
# From one activation to the next

A transition that is committed leads from one activation to another one. In between, the teardowns
of the scope that is left are performed, the entry actions of the target are called, and its routes
are subscribed; meanwhile the machine goes on showing the state that it leaves. `Crossing` says what
is so in each phase, and which of these things were done so far.
-/

namespace ScopedMachine

variable {H : Type} {p : Program H} {m : MachineId}

/-! ## The state that is shown -/

/-- The state that a machine shows while this frame leaves it, or enters it again. -/
def Frame.home? : Frame H → Option String
  | .leaving _ previous _ _ | .activating _ _ _ (.commit _ previous)
  | .subscribing _ _ _ (.commit _ previous) | .abandoning _ _ _ (.commit _ previous) =>
    some previous.name
  | .activating _ x _ (.restore ..) => some x.name
  | .subscribing _ a _ (.restore ..) => some a.collected.name
  | _ => none

/-- A frame of the machine leaves the state of this name, or enters it again. -/
def Config.Departs (m : MachineId) (name : String) (c : Config H) : Prop :=
  ∃ f ∈ c.stack, f.machine? = some m ∧ f.home? = some name

/-- A machine shows the state of its activation, also while it leaves that state. -/
structure MachineCell.Named (m : MachineId) (cell : MachineCell H) (fs : List (Frame H)) :
    Prop where
  current {a : Activation H} (current : cell.current = some a) : cell.state = a.collected.name
  departs {f : Frame H} (mem : f ∈ fs) (works : f.machine? = some m) {name : String}
    (home : f.home? = some name) : cell.state = name

section Named

variable {f : Frame H} {fs gs : List (Frame H)} {name : String} {cell cell' : MachineCell H}

theorem Frame.role?_of_home? (home : f.home? = some name) : f.role? = some .shift := by
  cases f with
  | activating _ _ _ stage | subscribing _ _ _ stage | abandoning _ _ _ stage =>
    cases stage <;> first | rfl | cases home
  | leaving => rfl
  | _ => cases home

theorem Turn.named {w : World H} {d : Option Deed} {e : Effect H} {ctl ctl' : Control H}
    (turn : Turn p w m d e ⟨cell, ctl, fs⟩ ⟨cell', ctl', gs⟩) (named : cell.Named m fs) :
    cell'.Named m gs ∧
      (cell'.state = cell.state ∨ ∃ stage : Stage H, roles m fs = [stage.role]) := by
  -- no frame is left that leaves a state
  have homeless (current : cell'.current = cell.current ∨ cell'.current = none)
      (state : cell'.state = cell.state)
      (none : ∀ f ∈ gs, f.machine? = some m → f.home? = none) :
      cell'.Named m gs ∧
        (cell'.state = cell.state ∨ ∃ stage : Stage H, roles m fs = [stage.role]) := by
    refine ⟨⟨fun h => ?_, fun mem works name home => ?_⟩, .inl state⟩
    · rcases current with same | gone
      · exact state.trans (named.current (same ▸ h))
      · rw [gone] at h
        cases h
    · rw [none _ mem works] at home
      cases home
  have plain {fs : List (Frame H)} (inert : ∀ f ∈ fs, f.isPlain) :
      ∀ f ∈ fs, f.machine? = some m → f.home? = none := by
    intro f mem works
    rw [Frame.machine?_of_isPlain (inert f mem)] at works
    cases works
  cases turn with
  | begin => exact ⟨⟨fun h => by cases h; rfl, nofun⟩, .inr ⟨.initial, by simp⟩⟩
  | beginStopped =>
    refine ⟨⟨nofun, fun mem works name home => ?_⟩, .inr ⟨.initial, by simp⟩⟩
    rw [List.mem_singleton.1 mem] at home
    cases home
  | @commit _ r a event previous running =>
    refine ⟨⟨fun h => by cases h; rfl, fun mem works name home => ?_⟩,
      .inr ⟨.commit event previous, by simp⟩⟩
    rw [List.mem_singleton.1 mem] at home
    cases home
  | restore running =>
    refine ⟨⟨fun h => ?_, nofun⟩, .inl rfl⟩
    cases h
    exact named.departs (List.mem_singleton_self _) rfl rfl
  | @leave _ a x kind running current =>
    refine ⟨⟨nofun, fun mem works name home => ?_⟩, .inl rfl⟩
    rw [List.mem_singleton.1 mem] at home
    cases home
    exact named.current current
  | enter enters =>
    refine ⟨⟨named.current, fun mem works name home => ?_⟩, .inl rfl⟩
    rcases List.mem_pair.1 mem with rfl | rfl
    · cases home
    · cases enters with
      | initial => cases home
      | next | again =>
        cases home
        exact named.departs (List.mem_singleton_self _) rfl rfl
  | @fail _ x scope stage =>
    refine ⟨⟨named.current, fun mem works name home => ?_⟩, .inl rfl⟩
    rw [List.mem_singleton.1 mem] at home
    cases stage with
    | initial | restore => cases home
    | commit =>
      cases home
      exact named.departs (List.mem_singleton_self _) rfl rfl
  | @entered _ _ _ stage | @subscribe _ _ _ _ _ stage
  | @subscribeHosted _ _ _ _ _ stage =>
    refine ⟨⟨named.current, fun mem works name home => ?_⟩, .inl rfl⟩
    rw [List.mem_singleton.1 mem] at home
    cases stage with
    | initial => cases home
    | commit | restore =>
      cases home
      exact named.departs (List.mem_singleton_self _) rfl rfl
  | hold held quiet plain' inert | drop held alive quiet plain' inert
  | observe live held quiet plain' inert =>
    exact homeless (.inl rfl) rfl (plain inert)
  | dropLast held dead quiet inert =>
    refine homeless (.inr rfl) rfl fun f mem works => ?_
    rcases List.mem_cons.1 mem with rfl | mem
    · rfl
    · rcases List.mem_cons.1 mem with rfl | mem
      · rfl
      · exact plain inert f mem works
  | pin alive quiet call sheds =>
    refine homeless (.inl rfl) rfl fun f mem works => ?_
    rcases List.mem_cons.1 mem with rfl | mem
    · rfl
    · have none := List.filter_eq_nil_iff.1 (sheds.filter (m := m)).2 f mem
      exact absurd (Frame.concerns_iff.2 works) none
  | unpinLast | stop => exact homeless (.inr rfl) rfl (by simp [Frame.home?])
  | _ => exact homeless (.inl rfl) rfl (by simp [Frame.home?])

variable {w : World H} {past : List (Config H)} {c : Config H}

/-- At every instant a machine shows the state of its activation, also while it leaves that state. -/
theorem Program.Run.named (run : p.Run w past c) (found : c.world.machine? m = some cell) :
    cell.Named m c.stack := by
  induction run generalizing cell with
  | begin fresh host s =>
    rw [fresh.machine?] at found
    cases found
  | resume run ended host s ih => exact ih found
  | @step past c c' run h ih =>
    cases (run.move h).outlook m with
    | spared machine frames =>
      have named := ih (machine ▸ found)
      refine ⟨named.current, fun {f} mem works name home => ?_⟩
      have here : f ∈ c'.frames m := List.mem_filter.2 ⟨mem, Frame.concerns_iff.2 works⟩
      rw [frames] at here
      exact named.departs (List.mem_filter.1 here).1 works home
    | start signal new found' deed blank control frames =>
      rw [found] at found'
      cases found'
      obtain ⟨settings, manager, rfl⟩ := blank
      have poised := run.poised m
      simp only [Config.Poised, new] at poised
      rw [poised.1] at frames
      refine ⟨fun none => (by cases none), fun {f} mem works name home => ?_⟩
      have here : f ∈ c'.frames m := List.mem_filter.2 ⟨mem, Frame.concerns_iff.2 works⟩
      rw [frames] at here
      rcases List.mem_pair.1 here with rfl | rfl <;> cases home
    | turn pops pushes rest found₀ found' turn before after =>
      rw [found] at found'
      cases found'
      have named := ih found₀
      have top : MachineCell.Named m _ pops :=
        ⟨named.current, fun mem => named.departs (before ▸ List.mem_append_left _ mem)⟩
      obtain ⟨named', same⟩ := turn.named top
      refine ⟨named'.current, fun {f} mem works name home => ?_⟩
      rw [after] at mem
      rcases List.mem_append.1 mem with new | old
      · exact named'.departs new works home
      · rcases same with same | ⟨stage, entering⟩
        · exact same.trans (named.departs (before ▸ List.mem_append_right _ old) works home)
        · -- below the state that was entered no other one is left
          have posture := (run.poised m).posture found₀
          rw [before] at posture
          have shift : .shift ∈ roles m rest := List.mem_filterMap.2
            ⟨f, List.mem_filter.2 ⟨old, Frame.concerns_iff.2 works⟩, Frame.role?_of_home? home⟩
          have none := List.countP_eq_zero.1 (posture.passages_of_top entering) _ shift
          exact absurd rfl none

theorem Config.Departs.shift (departs : c.Departs m name) : .shift ∈ roles m c.stack := by
  obtain ⟨f, mem, works, home⟩ := departs
  exact List.mem_filterMap.2
    ⟨f, List.mem_filter.2 ⟨mem, Frame.concerns_iff.2 works⟩, Frame.role?_of_home? home⟩

/-- An event is about to be routed against the current state of a machine. -/
def Config.Routes (m : MachineId) (c : Config H) : Prop :=
  ∃ source e, c.control = .route m source e

/-- While an event is handled, no other one is routed. -/
theorem Program.Run.not_routes (run : p.Run w past c) {r : Role} (within : r ∈ roles m c.stack)
    (transit : r.isTransit) : ¬c.Routes m := by
  rintro ⟨source, e, routes⟩
  obtain ⟨cell, found⟩ := run.grounded.control (m := m) (by rw [routes]; rfl)
  have posture := (run.poised m).posture found
  have fits := posture.fits
  rw [routes] at fits
  obtain ⟨rs, split⟩ := List.head?_eq_some_iff.1 (fits rfl)
  rw [split] at posture within
  rcases List.mem_cons.1 within with rfl | below
  · cases transit
  · have none := posture.isTransit_eq_false_of_drain below
    rw [transit] at none
    cases none

/-- While a machine leaves a state it shows that state, and has no activation. -/
theorem Program.Run.shows_of_departs (run : p.Run w past c) (departs : c.Departs m name) :
    ∃ cell, c.world.machine? m = some cell ∧ cell.state = name ∧ cell.current = none := by
  obtain ⟨f, mem, works, home⟩ := id departs
  obtain ⟨cell, found⟩ := run.grounded.frame mem works
  have posture := (run.poised m).posture found
  exact ⟨cell, found, (run.named found).departs mem works home, posture.shift departs.shift⟩

end Named

/-! ## Frames that lead to a commit -/

/-- Whether a frame leads to the commit of a transition, if nothing fails. -/
def Frame.isCrossing : Frame H → Bool
  | .leaving .. | .activating _ _ _ (.commit ..) | .subscribing _ _ _ (.commit ..) => true
  | _ => false

/-- No frame of the machine leads to a commit. -/
def NoCrossing (m : MachineId) (fs : List (Frame H)) : Prop :=
  ∀ f ∈ fs, f.machine? = some m → f.isCrossing = false

/-- The activation `a` is left for `next`; the release of its scope is about to begin. -/
structure Config.Leaves (m : MachineId) (a : Activation H) (next : Collected (Entry H))
    (kind : String) (base : List (Frame H)) (c : Config H) : Prop where
  control : c.control = .release a.scope
  live : c.world.header? a.scope = some (false, some m)
  stack : c.stack = .leaving m a.collected next kind :: base

section Leaves

variable {f : Frame H} {fs gs : List (Frame H)} {cell cell' : MachineCell H}

theorem Frame.role?_of_isCrossing (crossing : f.isCrossing) : f.role? = some .shift := by
  cases f with
  | activating _ _ _ stage | subscribing _ _ _ stage =>
    cases stage <;> first | rfl | cases crossing
  | leaving => rfl
  | _ => cases crossing

theorem NoCrossing.of_roles (none : .shift ∉ roles m fs) : NoCrossing m fs := by
  intro f mem works
  rw [Bool.eq_false_iff]
  intro crossing
  exact none (List.mem_filterMap.2
    ⟨f, List.mem_filter.2 ⟨mem, Frame.concerns_iff.2 works⟩, Frame.role?_of_isCrossing crossing⟩)

theorem NoCrossing.cons (none : NoCrossing m fs) (here : f.isCrossing = false) :
    NoCrossing m (f :: fs) := by
  intro g mem works
  rcases List.mem_cons.1 mem with rfl | mem
  · exact here
  · exact none g mem works

/-- Only from an activation in place a frame comes that leads to a commit, unless there was one. -/
theorem Turn.begins_crossing {w : World H} {d : Option Deed} {e : Effect H} {ctl ctl' : Control H}
    (turn : Turn p w m d e ⟨cell, ctl, fs⟩ ⟨cell', ctl', gs⟩) (none : NoCrossing m fs)
    (mem : f ∈ gs) (works : f.machine? = some m) (crossing : f.isCrossing) :
    e = .none ∧ ∃ a x kind, cell.current = some a ∧ ctl' = .release a.scope ∧
      gs = [.leaving m a.collected x kind] := by
  have plain {fs : List (Frame H)} (inert : ∀ f ∈ fs, f.isPlain) (mem : f ∈ fs) : False := by
    rw [Frame.machine?_of_isPlain (inert f mem)] at works
    cases works
  cases turn with
  | leave running current => exact ⟨rfl, _, _, _, current, rfl, rfl⟩
  | enter enters =>
    rcases List.mem_pair.1 mem with rfl | rfl
    · cases crossing
    · cases enters with
      | initial | again => cases crossing
      | next => cases none _ (List.mem_singleton_self _) rfl
  | @entered _ _ _ stage | @subscribe _ _ _ _ _ stage
  | @subscribeHosted _ _ _ _ _ stage =>
    cases stage with
    | commit => cases none _ (List.mem_singleton_self _) rfl
    | initial | restore =>
      cases List.mem_singleton.1 mem
      cases crossing
  | hold held quiet plain' inert | drop held alive quiet plain' inert
  | observe live held quiet plain' inert => exact (plain inert mem).elim
  | dropLast held dead quiet inert =>
    rcases List.mem_cons.1 mem with rfl | mem
    · cases crossing
    · rcases List.mem_cons.1 mem with rfl | mem
      · cases crossing
      · exact (plain inert mem).elim
  | pin alive quiet call sheds =>
    rcases List.mem_cons.1 mem with rfl | mem
    · cases crossing
    · have none := List.filter_eq_nil_iff.1 (sheds.filter (m := m)).2 f mem
      exact absurd (Frame.concerns_iff.2 works) none
  | unpinLast pin dead quiet =>
    rcases List.mem_pair.1 mem with rfl | rfl <;> cases crossing
  | signalAtOnce cancelled alive =>
    rcases List.mem_pair.1 mem with rfl | rfl <;> cases crossing
  | unpin | dismantled | enqueue | finish | ignore | giveUp | begin | restore | startFailed
  | published | stopIgnored | stopped | handOver | unwind | unwindDraining => cases mem
  | _ =>
    cases List.mem_singleton.1 mem
    cases crossing

variable {w : World H} {past : List (Config H)} {c c' : Config H}

/-- The first frame that leads to a commit is that of the activation in place, which is left. -/
theorem Program.Run.leaves_of_step (run : p.Run w past c) (h : p.step c = some c')
    (clear : NoCrossing m c.stack) (crosses : ¬NoCrossing m c'.stack) :
    ∃ a next kind base, c.world.current? m = some a ∧ c'.Leaves m a next kind base := by
  obtain ⟨f, mem, works, crossing⟩ : ∃ f ∈ c'.stack, f.machine? = some m ∧ f.isCrossing := by
    simpa [NoCrossing] using crosses
  have old {rest : List (Frame H)} (mem : f ∈ rest) (below : ∀ g ∈ rest, g ∈ c.stack) : False := by
    rw [clear f (below f mem) works] at crossing
    cases crossing
  have here : f ∈ c'.frames m := List.mem_filter.2 ⟨mem, Frame.concerns_iff.2 works⟩
  cases (run.move h).outlook m with
  | spared machine frames =>
    rw [frames] at here
    exact (old here fun g mem => (List.mem_filter.1 mem).1).elim
  | start signal new found deed blank control frames =>
    rw [frames] at here
    rcases List.mem_cons.1 here with rfl | here
    · cases crossing
    · rcases List.mem_cons.1 here with rfl | here
      · cases crossing
      · exact (old here fun g mem => (List.mem_filter.1 mem).1).elim
  | turn pops pushes rest found found' turn before after turned =>
    rw [after] at mem
    rcases List.mem_append.1 mem with new | below
    · have top : NoCrossing m pops := fun g mem => clear g (before ▸ List.mem_append_left _ mem)
      obtain ⟨rfl, a, x, kind, current, control, rfl⟩ := turn.begins_crossing top new works crossing
      have place : c.world.current? m = some a := by
        rw [World.current?, found]
        exact current
      have live := (run.holding m).live (Program.Run.mem_grips_of_current place)
      have same : c'.world.header? a.scope = c.world.header? a.scope :=
        World.header?_congr turned.scopes
      exact ⟨a, x, kind, rest, place, control, same.trans live, after⟩
    · exact (old below fun g mem => before ▸ List.mem_append_right _ mem).elim

end Leaves

/-! ## What is done on the way -/

/-- Something that is done when one activation is left for another. -/
inductive Act (H : Type) where
  /-- The release of the scope that is left begins. -/
  | free
  | teardown (t : Teardown H)
  | mark (k : Mark H)
  | commit (change : Change)

/-- The teardown that is performed next, if it is one of the given scope. -/
def Config.teardown? (s : ScopeId) (c : Config H) : Option (Teardown H) :=
  match c.control, c.stack with
  | .give _, .releasing t (u :: _) :: _ => if t = s then some u else none
  | _, _ => none

/-- What is done in the next step by the machine, or by the release of the scope. -/
def Config.act? (m : MachineId) (s : ScopeId) (c : Config H) : Option (Act H) :=
  if c.frees? = some s then some .free
  else
    match c.teardown? s, c.mark? m, (c.deed? m).bind Deed.committed? with
    | some t, _, _ => some (.teardown t)
    | none, some k, _ => some (.mark k)
    | none, none, some change => some (.commit change)
    | none, none, none => none

/-- What is done in the steps from the given configurations. -/
def acts (m : MachineId) (s : ScopeId) (past : List (Config H)) : List (Act H) :=
  past.filterMap (Config.act? m s)

section Acts

variable {s : ScopeId} {w : World H} {past : List (Config H)} {c : Config H}

theorem acts_concat : acts m s (past ++ [c]) = acts m s past ++ (c.act? m s).toList := by
  cases h : c.act? m s <;> simp [acts, h]

theorem Config.act?_of_release (control : c.control = .release s)
    (live : c.world.isCancelled s = false) : c.act? m s = some .free :=
  if_pos (Config.frees?_eq_some_iff.2 ⟨control, live⟩)

/-- Where no release begins, what is done is a teardown, a mark or a commit. -/
theorem Config.act?_of_ne_release (goes : c.control ≠ .release s) :
    c.act? m s = (match c.teardown? s, c.mark? m, (c.deed? m).bind Deed.committed? with
      | some t, _, _ => some (.teardown t)
      | none, some k, _ => some (.mark k)
      | none, none, some change => some (.commit change)
      | none, none, none => none) :=
  if_neg fun frees => goes (Config.frees?_eq_some_iff.1 frees).1

/-- What a commit looks like. -/
theorem Config.of_committed {change : Change} (commits : c.deed? m = some (.committed change)) :
    ∃ cell r a event previous rest, c.world.machine? m = some cell ∧ cell.status = .running ∧
      c.control = .give (.result r) ∧
      c.stack = .subscribing m a [] (.commit event previous) :: rest ∧
      change = (cell.commit a event (c.world.wallClock c.world.readings)).change cell.state event := by
  unfold Config.deed? at commits
  split at commits
  · cases commits
  · next cell found =>
    split at commits
    · split at commits <;> cases commits
    · split at commits <;> cases commits
    · split at commits <;> cases commits
    · next r n a stage rest control stack =>
      split at commits
      · next same =>
        subst same
        cases stage with
        | commit event previous =>
          simp only [MachineCell.installing?] at commits
          split at commits
          · next running =>
            cases commits
            exact ⟨cell, r, a, event, previous, rest, found, running, control, stack, rfl⟩
          · cases commits
        | initial | restore => cases commits
      · cases commits
    · split at commits <;> cases commits
    · cases commits

theorem Config.committed?_of_top {f : Frame H} {rest : List (Frame H)} (stack : c.stack = f :: rest)
    (waits : ∀ a stage, f ≠ .subscribing m a [] stage) :
    (c.deed? m).bind Deed.committed? = none := by
  cases deed : c.deed? m with
  | none => rfl
  | some d =>
    cases d with
    | committed change =>
      obtain ⟨_, _, a, _, _, _, _, _, _, stack', _⟩ := Config.of_committed deed
      rw [stack] at stack'
      exact absurd (List.cons.inj stack').1 (waits a _)
    | _ => rfl

/-- Above a frame that neither releases a scope nor is about to install an activation, what is done
is what the machine sets off. -/
theorem Config.act?_of_top {f : Frame H} {rest : List (Frame H)} (stack : c.stack = f :: rest)
    (goes : c.control ≠ .release s) (free : f.release? = none)
    (waits : ∀ a stage, f ≠ .subscribing m a [] stage) :
    c.act? m s = (c.mark? m).map .mark := by
  have performs : c.teardown? s = none := by
    unfold Config.teardown?
    split
    · next control top =>
      rw [stack] at top
      cases top
      cases free
    · rfl
  rw [Config.act?_of_ne_release goes, performs, Config.committed?_of_top stack waits]
  cases c.mark? m <;> rfl

/-- What goes on above frames that are engaged does nothing of the kind, unless it performs a
teardown of the scope. -/
theorem Program.Run.act?_above {above base : List (Frame H)} {r : Role} (run : p.Run w past c)
    (stack : c.stack = above ++ base) (busy : above ≠ [] ∨ c.control.isEnd = false)
    (within : r ∈ roles m base) (engaged : r.isEngaged)
    (top : ∀ n x s stage rest, base ≠ .activating n x s stage :: rest)
    (cancelled : c.world.isCancelled s = true) (performs : c.teardown? s = none) :
    c.act? m s = none ∧ c.mark? m = none := by
  obtain ⟨f, mem, works⟩ : ∃ f ∈ c.stack, f.machine? = some m := by
    obtain ⟨f, mem, _⟩ := List.mem_filterMap.1 within
    obtain ⟨mem, works⟩ := List.mem_filter.1 mem
    exact ⟨f, stack ▸ List.mem_append_right _ mem, Frame.concerns_iff.1 works⟩
  obtain ⟨cell, found⟩ := run.grounded.frame mem works
  have posture := (run.poised m).posture found
  have quiet := run.mark?_above found stack busy within engaged top
  have commits : (c.deed? m).bind Deed.committed? = none := by
    cases deed : c.deed? m with
    | none => rfl
    | some d =>
      cases d with
      | committed change =>
        obtain ⟨_, _, a, event, previous, rest, _, _, control, first, _⟩ := Config.of_committed deed
        have ended : c.control.isEnd := by rw [control]; rfl
        obtain ⟨above', rfl, _⟩ := Config.top_of_ended stack busy ended first
        rw [stack] at posture
        exact absurd roles_subscribing (Posture.not_enters [_] posture within engaged)
      | _ => rfl
  refine ⟨?_, quiet⟩
  have frees : c.frees? ≠ some s := by
    intro frees
    rw [(Config.frees?_eq_some_iff.1 frees).2] at cancelled
    cases cancelled
  rw [Config.act?, if_neg frees, performs, quiet, commits]

end Acts

/-! ## After the release -/

/-- The release of a scope that began at `b` is over; what was done since is `more`. -/
structure Released (m : MachineId) (s : ScopeId) (b : Config H) (seen : List (Config H))
    (c : Config H) (more : List (Act H)) : Prop where
  notReleasing : ∀ ts, .releasing s ts ∉ c.stack
  through : ∃ mid rest, seen = mid ++ rest ∧ CarriedThrough s b mid ∧
    acts m s (b :: mid) = .free :: (b.world.teardowns s).map .teardown ∧ acts m s rest = more

section Released

variable {w : World H} {before seen : List (Config H)} {s : ScopeId} {b c c' : Config H}
  {more : List (Act H)}

/-- A scope whose release began is cancelled. -/
theorem Program.Run.isCancelled_of_frees (run : p.Run w (before ++ b :: seen) c)
    (frees : b.frees? = some s) : c.world.isCancelled s = true := by
  have mem : b ∈ before ++ b :: seen := List.mem_append_right _ (List.mem_cons_self ..)
  obtain ⟨owner, released⟩ := run.header?_of_freed (List.mem_filterMap.2 ⟨b, mem, frees⟩)
  rw [World.isCancelled_iff]
  intro owner' live
  rw [released] at live
  cases live

theorem Released.step (released : Released m s b seen c more)
    (run : p.Run w (before ++ b :: seen) c) (h : p.step c = some c') (frees : b.frees? = some s) :
    Released m s b (seen ++ [c]) c' (more ++ (c.act? m s).toList) where
  notReleasing ts mem := by
    rcases (run.course h).continues s ts mem with ⟨us, old⟩ | again
    · exact released.notReleasing us old
    · have live := (Config.frees?_eq_some_iff.1 again).2
      rw [run.isCancelled_of_frees frees] at live
      cases live
  through := by
    obtain ⟨mid, rest, rfl, through, performed, rfl⟩ := released.through
    exact ⟨mid, rest ++ [c], List.append_assoc .., through, performed, acts_concat⟩

/-- No teardown of the scope is left to be performed. -/
theorem Released.teardown? (released : Released m s b seen c more) : c.teardown? s = none := by
  unfold Config.teardown?
  split
  · next t u us rest control stack =>
    refine if_neg ?_
    rintro rfl
    exact released.notReleasing _ (stack ▸ List.mem_cons_self ..)
  · rfl

/-- Nothing of the kind is done above frames that are engaged. -/
theorem Released.above {above base : List (Frame H)} {r : Role}
    (released : Released m s b seen c more) (run : p.Run w (before ++ b :: seen) c)
    (h : p.step c = some c') (frees : b.frees? = some s) (stack : c.stack = above ++ base)
    (busy : above ≠ [] ∨ c.control.isEnd = false) (within : r ∈ roles m base)
    (engaged : r.isEngaged) (top : ∀ n x s stage rest, base ≠ .activating n x s stage :: rest) :
    Released m s b (seen ++ [c]) c' more ∧ c.mark? m = none ∧
      ∃ above', c'.stack = above' ++ base := by
  obtain ⟨idle, quiet⟩ := run.act?_above stack busy within engaged top
    (run.isCancelled_of_frees frees) released.teardown?
  have next := released.step run h frees
  rw [idle, Option.toList_none, List.append_nil] at next
  exact ⟨next, quiet, (run.course h).stays stack busy⟩

end Released

/-! ## Phases -/

/-- What is so while the activation `a` is left for `next`; the release of its scope began at `b`,
and `seen` was passed since. -/
inductive Crossing (m : MachineId) (a : Activation H) (next : Collected (Entry H)) (kind : String)
    (base : List (Frame H)) (b : Config H) (seen : List (Config H)) (c : Config H) : Prop where
  | releasing (done left : List (Teardown H)) (above : List (Frame H))
      (all : b.world.teardowns a.scope = done ++ left) (underWay : UnderWay a.scope b left seen)
      (alone : ∀ ts, .releasing a.scope ts ∉ above)
      (acts : acts m a.scope (b :: seen) = .free :: done.map .teardown)
      (stack : c.stack = above ++ .releasing a.scope left :: b.stack)
  | left (released : Released m a.scope b seen c []) (control : c.control = .give .unit)
      (stack : c.stack = b.stack)
  | acting (s : ScopeId) (called later : List (Entry H)) (above : List (Frame H))
      (actions : next.actions = called ++ later)
      (released : Released m a.scope b seen c (called.map fun e => .mark (.enter s e)))
      (stack : c.stack =
        above ++ .acting next.name s later :: .activating m next s (.commit kind a.collected) :: base)
  | entered (s : ScopeId)
      (released : Released m a.scope b seen c (next.actions.map fun e => .mark (.enter s e)))
      (control : c.control = .give (.entered (.ok ())))
      (stack : c.stack = .activating m next s (.commit kind a.collected) :: base)
  | subscribing (s : ScopeId) (done later : List Route) (above : List (Frame H))
      (routes : (RouteTable.build next.directives).routes = done ++ later)
      (released : Released m a.scope b seen c (next.actions.map (fun e => .mark (.enter s e)) ++
        done.map fun r => .mark (.subscribe s r)))
      (stack : c.stack = above ++
        .subscribing m ⟨next, .build next.directives, s⟩ later (.commit kind a.collected) :: base)
  /-- The transition fails, and will not be committed. -/
  | failing (f : Frame H) (fails : (∃ message, c.control = .panic message) ∨
        ∃ error, c.control = .give (.entered (.error error)))
      (leads : f = .leaving m a.collected next kind ∨
        ∃ s, f = .activating m next s (.commit kind a.collected))
      (stack : c.stack = f :: base)

/-- The scope of an activation. -/
def Mark.token? : Mark H → Option ScopeId
  | .enter token _ | .subscribe token _ => some token
  | .tell .. => none

/-- What the machine sets off for an activation is done with a token that is not cancelled. -/
def Config.MarksLive (m : MachineId) (c : Config H) : Prop :=
  ∀ k, c.mark? m = some k → ∀ token, k.token? = some token → c.world.isCancelled token = false

section Steps

variable {w : World H} {before seen : List (Config H)} {b c c' : Config H} {a : Activation H}
  {next : Collected (Entry H)} {kind : String} {base above : List (Frame H)}

theorem Config.MarksLive.of_quiet (quiet : c.mark? m = none) : c.MarksLive m := by
  intro k mark
  rw [quiet] at mark
  cases mark

theorem Config.MarksLive.of_mark {k : Mark H} {token : ScopeId} (mark : c.mark? m = some k)
    (works : k.token? = some token) (live : c.world.header? token = some (false, some m)) :
    c.MarksLive m := by
  intro k' same token' given
  cases mark.symm.trans same
  cases works.symm.trans given
  exact World.isCancelled_eq_false_iff.2 ⟨_, live⟩

theorem Config.Leaves.frees? (leaves : b.Leaves m a next kind base) : b.frees? = some a.scope :=
  Config.frees?_eq_some_iff.2 ⟨leaves.control, World.isCancelled_eq_false_iff.2 ⟨_, leaves.live⟩⟩

/-- The release begins. -/
theorem Crossing.begin (leaves : b.Leaves m a next kind base) (h : p.step b = some c') :
    Crossing m a next kind base b [] c' := by
  obtain ⟨control, live⟩ := Config.frees?_eq_some_iff.1 leaves.frees?
  have step : some (Config.performRelease a.scope b) = some c' := by
    rw [← h, Program.step, control]
  cases step
  refine .releasing [] (b.world.teardowns a.scope) [] rfl .begin (by simp) ?_ ?_
  · simp [acts, Config.act?_of_release control live]
  · rw [Config.performRelease, if_neg (by simp [live])]
    rfl

variable (run : p.Run w (before ++ b :: seen) c) (h : p.step c = some c')
  (leaves : b.Leaves m a next kind base) (clear : NoCrossing m base)

include run leaves in
/-- Before the release begins, no other one of the same scope is under way. -/
theorem Config.Leaves.notReleasing (ts : List (Teardown H)) :
    .releasing a.scope ts ∉ b.stack := by
  intro mem
  have begun : p.Run w before b := run.earlier ⟨seen ++ [c], by simp⟩
  obtain ⟨owner, released⟩ := begun.releases a.scope ts mem
  rw [leaves.live] at released
  cases released

include run h leaves in
/-- Something goes on above the release. -/
theorem Crossing.releasing_above {done left : List (Teardown H)}
    (all : b.world.teardowns a.scope = done ++ left) (underWay : UnderWay a.scope b left seen)
    (alone : ∀ ts, .releasing a.scope ts ∉ above)
    (acts : acts m a.scope (b :: seen) = .free :: done.map .teardown)
    (stack : c.stack = above ++ .releasing a.scope left :: b.stack)
    (busy : above ≠ [] ∨ c.control.isEnd = false) :
    c.mark? m = none ∧ Crossing m a next kind base b (seen ++ [c]) c' := by
  have cancelled := run.isCancelled_of_frees leaves.frees?
  have shift : .shift ∈ roles m (.releasing a.scope left :: b.stack) := by
    rw [roles_releasing, leaves.stack, roles_leaving]
    exact List.mem_cons_self ..
  have notTop {ts : List (Teardown H)} {rest : List (Frame H)} (ended : c.control.isEnd = true)
      (top : c.stack = .releasing a.scope ts :: rest) : False := by
    obtain ⟨above', rfl, _⟩ := Config.top_of_ended stack busy ended top
    exact alone _ (List.mem_cons_self ..)
  have performs : c.teardown? a.scope = none := by
    unfold Config.teardown?
    split
    · next t u us rest control top =>
      refine if_neg ?_
      rintro rfl
      exact notTop (by rw [control]; rfl) top
    · rfl
  obtain ⟨idle, quiet⟩ := run.act?_above stack busy shift rfl (by simp) cancelled performs
  refine ⟨quiet, ?_⟩
  cases (run.course h).releasing stack with
  | above above' stack' continues =>
    refine .releasing done left above' all (underWay.above stack) ?_ ?_ stack'
    · intro ts mem
      rcases continues a.scope ts mem with ⟨us, old⟩ | again
      · exact alone us old
      · rw [(Config.frees?_eq_some_iff.1 again).2] at cancelled
        cases cancelled
    · rw [← List.cons_append, acts_concat, idle, acts, Option.toList_none, List.append_nil]
  | perform t us above' left' resumes | finish left' resumes =>
    obtain ⟨top, ans, control⟩ := resumes
    exact (notTop (by rw [control]; rfl) top).elim
  | lose loses =>
    obtain ⟨⟨ts, top⟩, message, control⟩ := loses
    exact (notTop (by rw [control]; rfl) top).elim

include run h leaves in
theorem Crossing.releasing_step {done left : List (Teardown H)}
    (all : b.world.teardowns a.scope = done ++ left) (underWay : UnderWay a.scope b left seen)
    (alone : ∀ ts, .releasing a.scope ts ∉ above)
    (acts : acts m a.scope (b :: seen) = .free :: done.map .teardown)
    (stack : c.stack = above ++ .releasing a.scope left :: b.stack) :
    c.MarksLive m ∧ Crossing m a next kind base b (seen ++ [c]) c' := by
  by_cases busy : above ≠ [] ∨ c.control.isEnd = false
  · exact (Crossing.releasing_above run h leaves all underWay alone acts stack busy).imp .of_quiet id
  · obtain ⟨rfl, ⟨ans, control, resumes⟩ | ⟨message, control, unwinds⟩⟩ :=
      Config.ends_of_idle h busy stack (by simp)
    · have quiet : c.mark? m = none := by simp [Config.mark?, control, stack]
      have goes : c.control ≠ .release a.scope := by simp [control]
      have commits : (c.deed? m).bind Deed.committed? = none :=
        Config.committed?_of_top stack (by simp)
      refine ⟨.of_quiet quiet, ?_⟩
      cases left with
      | nil =>
        have idle : c.act? m a.scope = none := by
          simp [Config.act?_of_ne_release goes, Config.teardown?, control, stack, quiet, commits]
        have notReleasing := leaves.notReleasing run
        cases resumes
        rw [List.append_nil] at all
        refine .left ⟨notReleasing, seen ++ [c], [], (List.append_nil _).symm,
          underWay.finish ⟨stack, ans, control⟩, ?_, rfl⟩ rfl rfl
        rw [← List.cons_append, acts_concat, idle, acts, all, Option.toList_none, List.append_nil]
      | cons t left =>
        have performs : c.act? m a.scope = some (.teardown t) := by
          simp [Config.act?_of_ne_release goes, Config.teardown?, control, stack]
        cases resumes
        obtain ⟨fs, free, stack'⟩ := (Config.grows_performTeardown
          (c := Config.push (.releasing a.scope left) { c with stack := b.stack }) (t := t)).stack
        refine .releasing (done ++ [t]) left fs ?_ (underWay.perform ⟨stack, ans, control⟩) ?_ ?_
          stack'
        · rw [all, List.append_assoc]
          rfl
        · intro ts mem
          cases free _ mem
        · rw [← List.cons_append, acts_concat, performs, acts]
          simp
    · have quiet : c.mark? m = none := Config.mark?_eq_none (by simp [control])
      cases unwinds
      exact ⟨.of_quiet quiet, .failing _ (.inl ⟨message, rfl⟩) (.inl rfl) leaves.stack⟩

include run h leaves in
theorem Crossing.left_step (released : Released m a.scope b seen c [])
    (control : c.control = .give .unit) (stack : c.stack = b.stack) :
    c.MarksLive m ∧ Crossing m a next kind base b (seen ++ [c]) c' := by
  have quiet : c.mark? m = none := Config.mark?_eq_none (by simp [control])
  have top := stack.trans leaves.stack
  have released' := released.step run h leaves.frees?
  rw [Config.act?_of_top top (by simp [control]) rfl (by simp), quiet] at released'
  obtain ⟨cell, found⟩ := run.grounded.frame (m := m) (top ▸ List.mem_cons_self ..) rfl
  refine ⟨.of_quiet quiet, ?_⟩
  obtain ⟨world, host, ctl, fs⟩ := c
  cases control
  cases top
  cases h
  rw [Config.record, Config.activate_eq found] at released' ⊢
  exact .acting ⟨world.scopes.size⟩ [] next.actions [] rfl released' rfl

include run h leaves in
theorem Crossing.acting_step {s : ScopeId} {called later : List (Entry H)}
    (actions : next.actions = called ++ later)
    (released : Released m a.scope b seen c (called.map fun e => .mark (.enter s e)))
    (stack : c.stack = above ++
      .acting next.name s later :: .activating m next s (.commit kind a.collected) :: base) :
    c.MarksLive m ∧ Crossing m a next kind base b (seen ++ [c]) c' := by
  have shift : .shift ∈ roles m
      (.acting next.name s later :: .activating m next s (.commit kind a.collected) :: base) := by
    rw [roles_acting, roles_activating]
    exact List.mem_cons_self ..
  by_cases busy : above ≠ [] ∨ c.control.isEnd = false
  · obtain ⟨released', quiet, above', stack'⟩ :=
      released.above run h leaves.frees? stack busy shift rfl (by simp)
    exact ⟨.of_quiet quiet, .acting s called later above' actions released' stack'⟩
  · obtain ⟨rfl, ⟨ans, control, resumes⟩ | ⟨message, control, unwinds⟩⟩ :=
      Config.ends_of_idle h busy stack (by simp)
    · have released' := released.step run h leaves.frees?
      rw [Config.act?_of_top stack (by simp [control]) rfl (by simp)] at released'
      cases ans with
      | result r =>
        cases r with
        | error fault =>
          have quiet : c.mark? m = none := by simp [Config.mark?, control, stack]
          cases resumes
          exact ⟨.of_quiet quiet, .failing _ (.inr ⟨_, rfl⟩) (.inr ⟨s, rfl⟩) rfl⟩
        | ok =>
          cases later with
          | nil =>
            have quiet : c.mark? m = none := by simp [Config.mark?, control, stack]
            rw [quiet, Option.map_none, Option.toList_none, List.append_nil] at released'
            rw [List.append_nil] at actions
            cases resumes
            exact ⟨.of_quiet quiet, .entered s (actions ▸ released') rfl rfl⟩
          | cons action later =>
            have mark : c.mark? m = some (.enter s action) := by simp [Config.mark?, control, stack]
            have mem : .activating m next s (.commit kind a.collected) ∈ c.stack :=
              stack ▸ List.mem_cons_of_mem _ (List.mem_cons_self ..)
            have live := (run.holding m).live (Config.mem_grips mem rfl rfl)
            refine ⟨.of_mark mark rfl live, ?_⟩
            rw [mark] at released'
            cases resumes
            refine .acting s (called ++ [action]) later [] ?_ ?_ rfl
            · rw [actions, List.append_assoc]
              rfl
            · rw [List.map_append]
              exact released'
      | _ => cases resumes
    · have quiet : c.mark? m = none := Config.mark?_eq_none (by simp [control])
      cases unwinds
      exact ⟨.of_quiet quiet, .failing _ (.inl ⟨message, rfl⟩) (.inr ⟨s, rfl⟩) rfl⟩

include run h leaves in
theorem Crossing.entered_step {s : ScopeId}
    (released : Released m a.scope b seen c (next.actions.map fun e => .mark (.enter s e)))
    (control : c.control = .give (.entered (.ok ())))
    (stack : c.stack = .activating m next s (.commit kind a.collected) :: base) :
    c.MarksLive m ∧ Crossing m a next kind base b (seen ++ [c]) c' := by
  have quiet : c.mark? m = none := Config.mark?_eq_none (by simp [control])
  have released' := released.step run h leaves.frees?
  rw [Config.act?_of_top stack (by simp [control]) rfl (by simp), quiet] at released'
  refine ⟨.of_quiet quiet, ?_⟩
  obtain ⟨world, host, ctl, fs⟩ := c
  cases control
  cases stack
  cases h
  exact .subscribing s [] _ [] rfl released' rfl

include run h leaves clear in
theorem Crossing.subscribing_step {s : ScopeId} {done later : List Route}
    (routes : (RouteTable.build next.directives).routes = done ++ later)
    (released : Released m a.scope b seen c (next.actions.map (fun e => .mark (.enter s e)) ++
      done.map fun r => .mark (.subscribe s r)))
    (stack : c.stack = above ++
      .subscribing m ⟨next, .build next.directives, s⟩ later (.commit kind a.collected) :: base) :
    c.MarksLive m ∧
      (NoCrossing m c'.stack ∨ Crossing m a next kind base b (seen ++ [c]) c') := by
  have shift : .shift ∈ roles m (.subscribing m ⟨next, .build next.directives, s⟩ later
      (.commit kind a.collected) :: base) := by
    rw [roles_subscribing]
    exact List.mem_cons_self ..
  by_cases busy : above ≠ [] ∨ c.control.isEnd = false
  · obtain ⟨released', quiet, above', stack'⟩ :=
      released.above run h leaves.frees? stack busy shift rfl (by simp)
    exact ⟨.of_quiet quiet, .inr (.subscribing s done later above' routes released' stack')⟩
  · obtain ⟨rfl, ⟨ans, control, resumes⟩ | ⟨message, control, unwinds⟩⟩ :=
      Config.ends_of_idle h busy stack (by simp)
    · have mem : .subscribing m ⟨next, .build next.directives, s⟩ later
          (.commit kind a.collected) ∈ c.stack := stack ▸ List.mem_cons_self ..
      cases ans with
      | result r =>
        cases later with
        | nil =>
          have quiet : c.mark? m = none := by simp [Config.mark?, control, stack]
          refine ⟨.of_quiet quiet, .inl ?_⟩
          obtain ⟨cell, found⟩ := run.grounded.frame (m := m) mem rfl
          simp only [Program.resume, Option.some.injEq, Config.subscribeNext, Config.record,
            Config.install, found] at resumes
          -- the activation is installed, or it is not because the machine was stopped
          split at resumes <;> subst resumes <;> exact clear.cons rfl
        | cons route later =>
          have mark : c.mark? m = some (.subscribe s route) := by simp [Config.mark?, control, stack]
          have live := (run.holding m).live (Config.mem_grips mem rfl rfl)
          have released' := released.step run h leaves.frees?
          rw [Config.act?_of_top stack (by simp [control]) rfl (by simp), mark] at released'
          have routes' : (RouteTable.build next.directives).routes = (done ++ [route]) ++ later := by
            rw [routes, List.append_assoc]
            rfl
          have acts : (next.actions.map (fun e => .mark (.enter s e)) ++
              done.map fun r => .mark (.subscribe s r)) ++
                (Option.map Act.mark (some (.subscribe s route))).toList =
              next.actions.map (fun e => .mark (.enter s e)) ++
                (done ++ [route]).map fun r => Act.mark (.subscribe s r) := by
            rw [List.map_append, List.append_assoc]
            rfl
          rw [acts] at released'
          refine ⟨.of_mark mark rfl live, .inr ?_⟩
          simp only [Program.resume, Option.some.injEq, Config.subscribeNext, Config.push] at resumes
          split at resumes <;> subst resumes <;>
            exact .subscribing s _ later [] routes' released' rfl
      | _ => cases resumes
    · have quiet : c.mark? m = none := Config.mark?_eq_none (by simp [control])
      cases unwinds
      exact ⟨.of_quiet quiet, .inl (clear.cons rfl)⟩

omit run leaves in
include h clear in
theorem Crossing.failing_step {f : Frame H}
    (fails : (∃ message, c.control = .panic message) ∨
      ∃ error, c.control = .give (.entered (.error error)))
    (leads : f = .leaving m a.collected next kind ∨
      ∃ s, f = .activating m next s (.commit kind a.collected))
    (stack : c.stack = f :: base) : c.MarksLive m ∧ NoCrossing m c'.stack := by
  have quiet : c.mark? m = none := by
    refine Config.mark?_eq_none fun r => ?_
    rcases fails with ⟨message, control⟩ | ⟨error, control⟩ <;> simp [control]
  refine ⟨.of_quiet quiet, ?_⟩
  obtain ⟨world, host, ctl, fs⟩ := c
  cases stack
  rcases fails with ⟨message, control⟩ | ⟨error, control⟩ <;> cases control
  · rcases leads with rfl | ⟨s, rfl⟩
    · cases h
      exact clear
    · cases h
      exact clear.cons rfl
  · rcases leads with rfl | ⟨s, rfl⟩
    · cases h
    · cases h
      exact clear.cons rfl

include run h leaves clear in
/-- One step of a crossing. -/
theorem Crossing.step (crossing : Crossing m a next kind base b seen c) :
    c.MarksLive m ∧
      (NoCrossing m c'.stack ∨ Crossing m a next kind base b (seen ++ [c]) c') := by
  cases crossing with
  | releasing done left above all underWay alone acts stack =>
    exact (Crossing.releasing_step run h leaves all underWay alone acts stack).imp id .inr
  | left released control stack =>
    exact (Crossing.left_step run h leaves released control stack).imp id .inr
  | acting s called later above actions released stack =>
    exact (Crossing.acting_step run h leaves actions released stack).imp id .inr
  | entered s released control stack =>
    exact (Crossing.entered_step run h leaves released control stack).imp id .inr
  | subscribing s done later above routes released stack =>
    exact Crossing.subscribing_step run h leaves clear routes released stack
  | failing f fails leads stack =>
    exact (Crossing.failing_step h clear fails leads stack).imp id .inl

/-- The state that is left is shown in every phase. -/
theorem Crossing.departs (crossing : Crossing m a next kind base b seen c)
    (leaves : b.Leaves m a next kind base) : c.Departs m a.collected.name := by
  have among {f : Frame H} {fs gs : List (Frame H)} (stack : c.stack = fs ++ f :: gs)
      (works : f.machine? = some m) (home : f.home? = some a.collected.name) :
      c.Departs m a.collected.name :=
    ⟨f, stack ▸ List.mem_append_right _ (List.mem_cons_self ..), works, home⟩
  cases crossing with
  | releasing done left above all underWay alone acts stack =>
    rw [leaves.stack, List.append_cons] at stack
    exact among stack rfl rfl
  | left released control stack =>
    exact among (stack.trans (leaves.stack.trans (List.nil_append _).symm)) rfl rfl
  | acting s called later above actions released stack =>
    rw [List.append_cons] at stack
    exact among stack rfl rfl
  | entered s released control stack => exact among (stack.trans (List.nil_append _).symm) rfl rfl
  | subscribing s done later above routes released stack => exact among stack rfl rfl
  | failing f fails leads stack =>
    rcases leads with rfl | ⟨s, rfl⟩ <;> exact among (stack.trans (List.nil_append _).symm) rfl rfl

end Steps

/-! ## Every instant of a run -/

/-- One activation is left for another one: the release of its scope is about to begin, or it began
and the machine is on its way. -/
inductive OnTheWay (m : MachineId) (past : List (Config H)) (c : Config H) : Prop where
  | leaves {a : Activation H} {next : Collected (Entry H)} {kind : String} {base : List (Frame H)}
      {before : List (Config H)} {x : Config H} (split : past = before ++ [x])
      (place : x.world.current? m = some a) (leaves : c.Leaves m a next kind base)
  | crosses {a : Activation H} {next : Collected (Entry H)} {kind : String}
      {base : List (Frame H)} {before seen : List (Config H)} {x b : Config H}
      (split : past = before ++ x :: b :: seen) (place : x.world.current? m = some a)
      (leaves : b.Leaves m a next kind base) (crossing : Crossing m a next kind base b seen c)
      (live : ∀ y ∈ seen, y.MarksLive m)
      (departs : ∀ y ∈ b :: seen, y.Departs m a.collected.name)

section Run

variable {w : World H} {past : List (Config H)} {c : Config H}

/-- Below the activation that is left no other one is left. -/
theorem Config.Leaves.clear {a : Activation H} {next : Collected (Entry H)} {kind : String}
    {base : List (Frame H)} (leaves : c.Leaves m a next kind base) (run : p.Run w past c) :
    NoCrossing m base := by
  have mem : .leaving m a.collected next kind ∈ c.stack := leaves.stack ▸ List.mem_cons_self ..
  obtain ⟨cell, found⟩ := run.grounded.frame mem rfl
  have posture := (run.poised m).posture found
  rw [leaves.stack, roles_leaving] at posture
  refine .of_roles fun shift => ?_
  cases posture.isTransit_eq_false rfl shift

/-- At every instant no frame leads to a commit, or the machine is on its way to one. -/
theorem Program.Run.onTheWay (run : p.Run w past c) :
    NoCrossing m c.stack ∨ OnTheWay m past c := by
  induction run with
  | begin => exact .inl fun f mem => absurd mem List.not_mem_nil
  | resume run ended =>
    refine .inl fun f mem => ?_
    rw [ended.1] at mem
    exact absurd mem List.not_mem_nil
  | @step past c c' run h ih =>
    rcases ih with clear | @⟨a, next, kind, base, before, x, split, place, leaves⟩ |
      @⟨a, next, kind, base, before, seen, x, b, split, place, leaves, crossing, live, departs⟩
    · by_cases crosses : NoCrossing m c'.stack
      · exact .inl crosses
      · obtain ⟨a, next, kind, base, place, leaves⟩ := run.leaves_of_step h clear crosses
        exact .inr (.leaves rfl place leaves)
    · subst split
      refine .inr (.crosses (List.append_assoc ..) place leaves (.begin leaves h) nofun fun y mem => ?_)
      rw [List.mem_singleton.1 mem]
      exact ⟨_, leaves.stack ▸ List.mem_cons_self .., rfl, rfl⟩
    · subst split
      rw [List.append_cons] at run
      have begun : p.Run w (before ++ [x]) b := run.earlier ⟨seen ++ [c], by simp⟩
      obtain ⟨now, clear | crossing'⟩ := crossing.step run h leaves (leaves.clear begun)
      · exact .inl clear
      · have split : before ++ x :: b :: seen ++ [c] = before ++ x :: b :: (seen ++ [c]) :=
          List.append_assoc ..
        refine .inr (.crosses split place leaves crossing' (fun y mem => ?_) fun y mem => ?_)
        · rcases List.mem_append.1 mem with earlier | here
          · exact live y earlier
          · exact List.mem_singleton.1 here ▸ now
        · rw [← List.cons_append] at mem
          rcases List.mem_append.1 mem with earlier | here
          · exact departs y earlier
          · exact List.mem_singleton.1 here ▸ crossing.departs leaves

end Run

end ScopedMachine

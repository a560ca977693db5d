import ScopedMachine.Proofs.Custody

/-!
# A machine shows its activation

A machine repeats in its cell what follows from the directives of its activation: the name of the
state, its aliases, whether it has exited, and the value it carries. Between two activations there is
none to repeat, and the machine shows the one that it had last. `Portrait` says so for one instant;
whatever takes an activation out of the machine leaves the portrait as it is, and only an activation
that is installed in a vacant machine changes it.
-/

namespace ScopedMachine

variable {H : Type} {p : Program H} {m : MachineId}

/-! ## Portraits -/

/-- A machine shows a state with these directives. -/
structure MachineCell.Depicts (cell : MachineCell H) (x : Collected (Entry H)) : Prop where
  state : cell.state = x.name
  aliases : cell.aliases = x.aliases
  terminal : cell.terminal = true ↔ .exit ∈ x.directives
  /-- The value that was accumulated last counts, if any was. -/
  accumulator : cell.accumulator = (x.directives.filterMap Directive.value?).getLast?

/-- The directives of the activation that a frame leaves, or enters again. -/
def Frame.former? : Frame H → Option (Collected (Entry H))
  | .leaving _ previous _ _ | .activating _ _ _ (.commit _ previous)
  | .subscribing _ _ _ (.commit _ previous) | .abandoning _ _ _ (.commit _ previous) =>
    some previous
  | .activating _ x _ (.restore ..) => some x
  | .subscribing _ a _ (.restore ..) => some a.collected
  | _ => none

/-- The activation that was in place last, in the configurations passed. -/
def lastPlaced (m : MachineId) (past : List (Config H)) : Option (Activation H) :=
  (past.filterMap fun y => y.world.current? m).getLast?

theorem lastPlaced_concat {past : List (Config H)} {c : Config H} :
    lastPlaced m (past ++ [c]) = (c.world.current? m).or (lastPlaced m past) := by
  unfold lastPlaced
  rw [List.filterMap_append]
  cases current : c.world.current? m with
  | none => simp [current]
  | some a => simp [current]

/-- A frame handles an event. -/
def Frame.isTransit (f : Frame H) : Bool := f.role?.any Role.isTransit

/-- A machine shows the activation that was in place last, which is the current one if there is one.
There is one to show while an event is handled: the one that is left, until another one is in
place. -/
structure Portrait (m : MachineId) (cell : MachineCell H) (last : Option (Activation H))
    (fs : List (Frame H)) : Prop where
  current {a : Activation H} (current : cell.current = some a) : last = some a
  depicts {a : Activation H} (placed : last = some a) : cell.Depicts a.collected
  departs {f : Frame H} (mem : f ∈ fs) (works : f.machine? = some m)
    (transit : f.isTransit) :
    ∃ a, last = some a ∧ ∀ x, f.former? = some x → x = a.collected

section Turns

variable {cell cell' : MachineCell H} {last : Option (Activation H)} {fs gs : List (Frame H)}

theorem Collected.isTerminal_iff {E : Type} {x : Collected E} :
    x.isTerminal = true ↔ .exit ∈ x.directives := by
  rw [Collected.isTerminal, List.any_eq_true]
  constructor
  · rintro ⟨d, mem, exits⟩
    cases d with
    | exit => exact mem
    | _ => cases exits
  · exact fun mem => ⟨.exit, mem, rfl⟩

theorem MachineCell.Depicts.congr {x : Collected (Entry H)} (depicts : cell.Depicts x)
    (face : cell'.face = cell.face) : cell'.Depicts x where
  state := (congrArg Face.state face).trans depicts.state
  aliases := (congrArg Face.aliases face).trans depicts.aliases
  terminal := by
    have same : cell'.terminal = cell.terminal := congrArg Face.terminal face
    rw [same, depicts.terminal]
  accumulator := (congrArg Face.accumulator face).trans depicts.accumulator

/-- The activation in place is the one that was in place last. -/
theorem Portrait.or_eq (portrait : Portrait m cell last fs) : cell.current.or last = last := by
  cases current : cell.current with
  | none => rfl
  | some a => exact (portrait.current current).symm

/-- Frames below that leave the same activation do not matter. -/
theorem Portrait.append (portrait : Portrait m cell last fs)
    (below : ∀ f ∈ gs, f.machine? = some m → f.isTransit →
      ∃ a, last = some a ∧ ∀ x, f.former? = some x → x = a.collected) :
    Portrait m cell last (fs ++ gs) where
  current := portrait.current
  depicts := portrait.depicts
  departs mem works transit :=
    (List.mem_append.1 mem).elim (fun here => portrait.departs here works transit)
      fun old => below _ old works transit

/-- A turn leaves what the machine shows as it is, or it installs an activation. -/
theorem Turn.portrait {w : World H} {d : Option Deed} {e : Effect H} {ctl ctl' : Control H}
    (turn : Turn p w m d e ⟨cell, ctl, fs⟩ ⟨cell', ctl', gs⟩) (portrait : Portrait m cell last fs)
    (started : roles m fs = [.first] → cell.status ≠ .stopped) :
    Portrait m cell' last gs ∨
      ∃ (stage : Stage H) (a : Activation H), roles m fs = [stage.role] ∧
        cell'.current = some a ∧ Portrait m cell' (some a) gs := by
  -- the portrait stays, and so does what is left by the frames
  have kept (current : cell'.current = cell.current ∨ cell'.current = none)
      (face : cell'.face = cell.face)
      (frames : ∀ g ∈ gs, g.machine? = some m → g.isTransit →
        ∃ a, last = some a ∧ ∀ x, g.former? = some x → x = a.collected) :
      Portrait m cell' last gs := by
    refine ⟨fun h => ?_, fun placed => (portrait.depicts placed).congr face, frames _⟩
    rcases current with same | gone
    · exact portrait.current (same ▸ h)
    · rw [gone] at h
      cases h
  have plain {fs : List (Frame H)} (inert : ∀ f ∈ fs, f.isPlain) :
      ∀ f ∈ fs, f.machine? = some m → f.isTransit = false := by
    intro f mem works
    rw [Frame.machine?_of_isPlain (inert f mem)] at works
    cases works
  -- no event is handled by the new frames
  have bare (current : cell'.current = cell.current ∨ cell'.current = none)
      (face : cell'.face = cell.face)
      (none : ∀ g ∈ gs, g.machine? = some m → g.isTransit = false) :
      Portrait m cell' last gs :=
    kept current face fun g mem works transit => by
      rw [none g mem works] at transit
      cases transit
  -- the frame on top hands the event to another one
  have handed {f g : Frame H} (top : f ∈ fs) (works : f.machine? = some m)
      (role : g.isTransit → f.isTransit) (former : ∀ x, g.former? = some x → f.former? = some x)
      (transit : g.isTransit) : ∃ a, last = some a ∧ ∀ x, g.former? = some x → x = a.collected := by
    obtain ⟨a, placed, same⟩ := portrait.departs top works (role transit)
    exact ⟨a, placed, fun x home => same x (former x home)⟩
  cases turn with
  | begin idle =>
    refine .inr ⟨.initial, _, by simp, rfl, ⟨id, fun h => ?_, fun mem => by cases mem⟩⟩
    cases h
    exact ⟨rfl, rfl, Collected.isTerminal_iff, rfl⟩
  | beginStopped stopped => exact absurd stopped (started (by simp [Stage.role]))
  | @commit _ r a event previous running =>
    refine .inr ⟨.commit event previous, _, by simp, rfl, ⟨id, fun h => ?_, fun mem _ _ => ?_⟩⟩
    · cases h
      exact ⟨rfl, rfl, Collected.isTerminal_iff, rfl⟩
    · exact ⟨a, rfl, by rw [List.mem_singleton.1 mem]; exact fun x home => by cases home⟩
  | @restore _ r a state cause running =>
    refine .inr ⟨.restore state cause, _, by simp, rfl, ⟨id, fun h => ?_, fun mem => by cases mem⟩⟩
    cases h
    -- the activation that is put back has the directives of the one that was left
    obtain ⟨b, placed, same⟩ := portrait.departs (List.mem_singleton_self _) rfl rfl
    rw [same a.collected rfl]
    exact (portrait.depicts placed).congr rfl
  | @leave _ a x kind running current =>
    refine .inl (kept (.inr rfl) rfl fun g mem _ _ => ?_)
    rw [List.mem_singleton.1 mem]
    exact ⟨a, portrait.current current, fun x home => by cases home; rfl⟩
  | @look _ _ _ a target running current =>
    refine .inl (kept (.inl rfl) rfl fun g mem _ _ => ?_)
    rw [List.mem_singleton.1 mem]
    exact ⟨a, portrait.current current, fun x home => by cases home⟩
  | enter enters =>
    refine .inl (kept (.inl rfl) rfl fun g mem _ transit => ?_)
    rcases List.mem_pair.1 mem with rfl | rfl
    · cases transit
    · cases enters with
      | initial => cases transit
      | next | again =>
        exact handed (List.mem_singleton_self _) rfl (fun _ => rfl) (fun x home => home) transit
  | @fail _ x scope stage =>
    refine .inl (kept (.inl rfl) rfl fun g mem _ transit => ?_)
    have here := List.mem_singleton.1 mem
    subst here
    refine handed (List.mem_singleton_self _) rfl id (fun y home => ?_) transit
    cases stage with
    | initial | restore => cases home
    | commit => exact home
  | @entered _ _ _ stage | @subscribe _ _ _ _ _ stage | @subscribeHosted _ _ _ _ _ stage =>
    refine .inl (kept (.inl rfl) rfl fun g mem _ transit => ?_)
    have here := List.mem_singleton.1 mem
    subst here
    refine handed (List.mem_singleton_self _) rfl id (fun y home => ?_) transit
    cases stage with
    | initial => cases home
    | commit | restore => exact home
  | tell | passOver =>
    refine .inl (kept (.inl rfl) rfl fun g mem _ transit => ?_)
    have here := List.mem_singleton.1 mem
    subst here
    exact handed (List.mem_singleton_self _) rfl id (fun x home => by cases home) transit
  | hold held quiet plain' inert | drop held alive quiet plain' inert
  | observe live held quiet plain' inert =>
    exact .inl (bare (.inl rfl) rfl (plain inert))
  | dropLast held dead quiet inert =>
    refine .inl (bare (.inr rfl) rfl fun f mem works => ?_)
    rcases List.mem_cons.1 mem with rfl | mem
    · rfl
    · rcases List.mem_cons.1 mem with rfl | mem
      · rfl
      · exact plain inert f mem works
  | pin alive quiet call sheds =>
    refine .inl (bare (.inl rfl) rfl fun f mem works => ?_)
    rcases List.mem_cons.1 mem with rfl | mem
    · rfl
    · have none := List.filter_eq_nil_iff.1 (sheds.filter (m := m)).2 f mem
      exact absurd (Frame.concerns_iff.2 works) none
  | unpinLast | stop => exact .inl (bare (.inr rfl) rfl (by simp [Frame.isTransit, Frame.role?, Role.isTransit]))
  | _ => exact .inl (bare (.inl rfl) rfl (by simp [Frame.isTransit, Frame.role?, Role.isTransit]))

/-- While an activation is entered, no event is handled below. -/
theorem Posture.isTransit_eq_false_of_stage {ctl : Control H} {rs : List Role} {stage : Stage H}
    {r : Role} (posture : Posture m cell ctl (stage.role :: rs)) (mem : r ∈ rs) :
    r.isTransit = false := by
  cases stage with
  | initial => exact (posture.first (List.mem_cons_self ..)).2 r (List.mem_cons_of_mem _ mem)
  | commit | restore => exact posture.isTransit_eq_false rfl mem

end Turns

/-! ## Every instant of a run -/

section Run

variable {w : World H} {past : List (Config H)} {c c' : Config H} {cell cell' : MachineCell H}

theorem World.current?_of_machine? (found : c.world.machine? m = some cell) :
    c.world.current? m = cell.current := by
  rw [World.current?, found]
  rfl

/-- A machine that is not there yet has had no activation. -/
theorem Program.Run.lastPlaced_of_missing (run : p.Run w past c)
    (missing : c.world.machine? m = none) : lastPlaced m (past ++ [c]) = none := by
  have vacant {c : Config H} (missing : c.world.machine? m = none) :
      c.world.current? m = none := by
    rw [World.current?, missing]
    rfl
  induction run with
  | begin fresh host s =>
    rw [lastPlaced_concat, vacant missing]
    rfl
  | step run h ih =>
    rw [lastPlaced_concat, vacant missing]
    cases (run.move h).outlook m with
    | spared machine => exact ih (machine ▸ missing)
    | start signal new found =>
      rw [missing] at found
      cases found
    | turn pops pushes rest found found' =>
      rw [missing] at found'
      cases found'
  | resume run ended host s ih =>
    rw [lastPlaced_concat, vacant missing]
    exact ih missing

/-- At every instant a machine shows the activation that was in place last. -/
theorem Program.Run.portrait (run : p.Run w past c) (found : c.world.machine? m = some cell) :
    Portrait m cell (lastPlaced m (past ++ [c])) c.stack := by
  induction run generalizing cell with
  | begin fresh host s =>
    rw [fresh.machine?] at found
    cases found
  | resume run ended host s ih =>
    have portrait := ih found
    rw [lastPlaced_concat, World.current?_of_machine? found]
    have same : cell.current.or (lastPlaced m _) = lastPlaced m _ := portrait.or_eq
    rw [same]
    exact ⟨portrait.current, portrait.depicts, portrait.departs⟩
  | @step past c c' run h ih =>
    rw [lastPlaced_concat, World.current?_of_machine? found]
    -- a frame of the machine that is on the stack is among the frames of the machine
    have among {f : Frame H} (mem : f ∈ c'.stack) (works : f.machine? = some m) :
        f ∈ c'.frames m := List.mem_filter.2 ⟨mem, Frame.concerns_iff.2 works⟩
    cases (run.move h).outlook m with
    | spared machine frames =>
      have portrait := ih (machine ▸ found)
      have departs {f : Frame H} (mem : f ∈ c'.stack) (works : f.machine? = some m) := by
        have here := among mem works
        rw [frames] at here
        exact portrait.departs (List.mem_filter.1 here).1 works
      rw [portrait.or_eq]
      exact ⟨portrait.current, portrait.depicts, departs⟩
    | start signal new found' deed blank control frames =>
      rw [found] at found'
      cases found'
      obtain ⟨settings, manager, rfl⟩ := blank
      have poised := run.poised m
      simp only [Config.Poised, new] at poised
      rw [poised.1] at frames
      rw [run.lastPlaced_of_missing new]
      refine ⟨fun current => (by cases current), fun placed => (by cases placed),
        fun {f} mem works transit => ?_⟩
      have here := among mem works
      rw [frames] at here
      rcases List.mem_pair.1 here with rfl | rfl <;> cases transit
    | turn pops pushes rest found₀ found' turn before after =>
      rw [found] at found'
      cases found'
      have portrait := ih found₀
      have top : Portrait m _ _ pops :=
        ⟨portrait.current, portrait.depicts,
          fun mem => portrait.departs (before ▸ List.mem_append_left _ mem)⟩
      have posture := (run.poised m).posture found₀
      have idle (first : roles m pops = [.first]) :=
        run.idle_of_first found₀ (by
          rw [before, roles_append, first]
          exact List.mem_cons_self ..)
      rcases turn.portrait top fun first => by rw [idle first]; rintro ⟨⟩ with
        kept | ⟨stage, a, entering, current, installed⟩
      · rw [kept.or_eq, after]
        exact kept.append fun f old => portrait.departs (before ▸ List.mem_append_right _ old)
      · rw [current, Option.some_or, after]
        refine installed.append fun f old works transit => ?_
        -- an activation is installed by the handling of the only event that is handled
        obtain ⟨r, role, transits⟩ := (Option.any_eq_true ..).1 transit
        have left : r ∈ roles m rest := List.mem_filterMap.2
          ⟨f, List.mem_filter.2 ⟨old, Frame.concerns_iff.2 works⟩, role⟩
        rw [before, roles_append, entering] at posture
        have none := posture.isTransit_eq_false_of_stage left
        rw [none] at transits
        cases transits

/-! ## The view and the activation -/

/-- What a machine shows at one instant, and the activation that it shows. -/
structure Program.Views (p : Program H) (m : MachineId) (past : List (Config H)) (c : Config H)
    (cell : MachineCell H) : Prop where
  /-- The activation in place is the one that is shown, and its scope is live. -/
  placed {a : Activation H} (current : cell.current = some a) :
    cell.Depicts a.collected ∧ c.world.header? a.scope = some (false, some m)
  /-- Once there was an activation, the one in place last is shown until there is another one. -/
  vacant {a : Activation H} (current : cell.current = none) (last : lastPlaced m past = some a) :
    cell.Depicts a.collected
  /-- An event that is handled while there is none has an activation to leave, and every frame that
  knows of one means this one. -/
  between {r : Role} (handles : r ∈ roles m c.stack) (transit : r.isTransit)
    (current : cell.current = none) :
    ∃ a, lastPlaced m past = some a ∧ cell.Depicts a.collected ∧
      ∀ f ∈ c.stack, f.machine? = some m → f.isTransit → ∀ x, f.former? = some x → x = a.collected
  /-- While an activation is entered, or entered again, there is none. -/
  entering {a : Activation H} {routes : List Route} {stage : Stage H} {rest : List (Frame H)}
    (top : c.stack = .subscribing m a routes stage :: rest) : cell.current = none
  /-- An activation gets into place at the end of that, and by no other step. -/
  installed {c' : Config H} {a : Activation H} (step : p.step c = some c')
    (current : c'.world.current? m = some a) :
    cell.current = some a ∨ cell.current = none ∧ ∃ r stage rest,
      c.control = .give (.result r) ∧ c.stack = .subscribing m a [] stage :: rest
  /-- When nothing is under way a machine that runs has an activation, unless a panic ended the
  change from one to another. -/
  running (rest : c.AtRest ∨ c.IsOver) (alive : cell.isAlive) (running : cell.status = .running) :
    (∃ a, cell.current = some a) ∨ ∃ y ∈ past, y.Vacates m
  /-- A machine that was stopped has none, at rest or not. -/
  stopped (stopped : cell.status = .stopped) : cell.current = none

/-- A turn leaves the activation in place, takes it away, or puts one in place that was entered. -/
theorem Turn.installed {w : World H} {d : Option Deed} {e : Effect H} {ctl ctl' : Control H}
    {fs gs : List (Frame H)} {a : Activation H}
    (turn : Turn p w m d e ⟨cell, ctl, fs⟩ ⟨cell', ctl', gs⟩) (current : cell'.current = some a) :
    cell.current = some a ∨ ∃ r stage, ctl = .give (.result r) ∧ fs = [.subscribing m a [] stage] := by
  cases turn with
  | begin | commit | restore =>
    cases current
    exact .inr ⟨_, _, rfl, rfl⟩
  | beginStopped | leave | dropLast | unpinLast | stop => cases current
  | _ => exact .inl current

/-- At every instant a machine shows the activation that it has, or the one that it had last. -/
theorem Program.Run.views (run : p.Run w past c) (found : c.world.machine? m = some cell) :
    p.Views m past c cell := by
  have portrait := run.portrait found
  have posture := (run.poised m).posture found
  have here := World.current?_of_machine? found
  -- what was in place before is what was in place last, if nothing is now
  have before (current : cell.current = none) : lastPlaced m (past ++ [c]) = lastPlaced m past := by
    rw [lastPlaced_concat, here, current, Option.none_or]
  have empty {a : Activation H} {routes : List Route} {stage : Stage H} {rest : List (Frame H)}
      (top : c.stack = .subscribing m a routes stage :: rest) : cell.current = none := by
    rw [top, roles_subscribing] at posture
    exact posture.current_of_top
  constructor
  case placed =>
    intro a current
    refine ⟨portrait.depicts (portrait.current current), ?_⟩
    exact (run.holding m).live (mem_grips_of_current (here.trans current))
  case vacant => exact fun current last => portrait.depicts ((before current).trans last)
  case between =>
    intro r handles transit current
    obtain ⟨f, own, role⟩ := List.mem_filterMap.1 handles
    obtain ⟨mem, works⟩ := List.mem_filter.1 own
    have handling : f.isTransit := (Option.any_eq_true ..).2 ⟨r, role, transit⟩
    obtain ⟨a, last, _⟩ := portrait.departs mem (Frame.concerns_iff.1 works) handling
    refine ⟨a, (before current).symm.trans last, portrait.depicts last, ?_⟩
    intro g mem works handling
    obtain ⟨b, last', same⟩ := portrait.departs mem works handling
    rw [last] at last'
    cases last'
    exact same
  case entering => exact empty
  case installed =>
    intro c' a step current
    cases (run.move step).outlook m with
    | spared machine =>
      refine .inl ?_
      rw [← here, ← current, World.current?, World.current?, machine]
    | start signal new =>
      rw [found] at new
      cases new
    | turn pops pushes rest found₀ found' turn stack =>
      rw [found] at found₀
      cases found₀
      rw [World.current?_of_machine? found'] at current
      rcases turn.installed current with same | ⟨r, stage, control, rfl⟩
      · exact .inl same
      · exact .inr ⟨empty stack, r, stage, rest, control, stack⟩
  case running =>
    intro rest alive running
    rw [← here]
    exact run.current_of_runs rest ⟨cell, found, running, alive⟩
  case stopped =>
    intro stopped
    refine Option.eq_none_iff_forall_ne_some.2 fun a current => ?_
    have running := (posture.current (by rw [current]; rfl)).1
    rw [stopped] at running
    cases running

end Run

namespace Lamp

/-- A lamp with a bad bulb: its entry action panics when it is switched on. -/
def brittle : Program Unit where
  declared key :=
    if key = "on" then
      .yield (.entry fun _ => .panic "the bulb burst") (program.declared key)
    else program.declared key
  subscriber _ h := h

/-- Operate the switch once. -/
def flick : Script Unit :=
  .call (.start off {} none) fun _ => .call (.emit 0 { kind := "toggle" }) fun _ => .ok

/-- Where the run begins in which the bulb bursts. -/
def flicked : Config Unit := { world, host := (), control := .run flick }

theorem flicked_run (n : Nat) :
    brittle.Run world (brittle.trail n flicked) (brittle.run n flicked) :=
  (Program.Run.begin world_isFresh () flick).trail n

end Lamp

/-- The lamp that was switched on shows that it is on. -/
theorem views_lamp :
    ∃ cell a, (Lamp.program.run 60 Lamp.start).world.machine? ⟨0⟩ = some cell ∧
      (Lamp.program.run 60 Lamp.start).AtRest ∧ cell.status = .running ∧ cell.current = some a ∧
      Lamp.program.Views ⟨0⟩ (Lamp.program.trail 60 Lamp.start)
        (Lamp.program.run 60 Lamp.start) cell :=
  ⟨_, _, rfl, ⟨rfl, .inr ⟨_, rfl⟩⟩, rfl, rfl, (Lamp.run 60).views rfl⟩

/-- When the bulb has burst and all is over the lamp runs without an activation. -/
theorem Program.Run.vacant_brittle :
    ¬∀ (past : List (Config Unit)) (c : Config Unit) (cell : MachineCell Unit),
      Lamp.brittle.Run Lamp.world past c → c.AtRest → c.world.machine? ⟨0⟩ = some cell →
        cell.isAlive → cell.status = .running → ∃ a, cell.current = some a := by
  intro claim
  have ended : (Lamp.brittle.run 40 Lamp.flicked).IsOver := ⟨rfl, .inr ⟨_, rfl⟩⟩
  have run := (Lamp.flicked_run 40).resume ended () .ok
  obtain ⟨a, current⟩ := claim _ _ _ run ⟨rfl, .inl ⟨_, rfl⟩⟩ rfl rfl rfl
  cases current

end ScopedMachine

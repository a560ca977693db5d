import ScopedMachine.Proofs.Step

/-!
# A step seen from one machine

Seen from one machine a step is a turn of that machine, or its start, or it passes the machine by.
What holds of one machine at every instant is therefore shown for its turns only.
-/

namespace ScopedMachine

variable {H : Type} {p : Program H}

/-! ## Deeds one by one -/

theorem deeds_concat {m : MachineId} {past : List (Config H)} {c : Config H} :
    deeds m (past ++ [c]) = deeds m past ++ (c.deed? m).toList := by
  cases h : c.deed? m <;> simp [deeds, h]

theorem Config.deed?_of_isOver {m : MachineId} {c : Config H} (ended : c.IsOver) : c.deed? m = none := by
  obtain ⟨w, h, ctl, stack⟩ := c
  obtain ⟨rfl, ⟨a, rfl⟩ | ⟨message, rfl⟩⟩ := ended
  · unfold deed?
    split
    · rfl
    · cases a <;> rfl
  · exact deed?_panic

/-! ## The frames of one machine -/

/-- The frames that work for a machine, innermost first. -/
def Config.frames (m : MachineId) (c : Config H) : List (Frame H) := c.stack.filter (Frame.concerns m)

namespace Frame

variable {m n : MachineId} {f : Frame H}

theorem concerns_iff : f.concerns m ↔ f.machine? = some m := by
  simp [concerns]

theorem machine?_of_isInert (hf : f.isInert) : f.machine? = none := by
  cases f <;> simp_all [isInert, machine?]

theorem machine?_of_isPlain (hf : f.isPlain) : f.machine? = none := by
  cases f <;> simp_all [isPlain, isInert, machine?]

end Frame

section Filter

variable {m : MachineId} {fs : List (Frame H)}

theorem filter_concerns_of_free (free : ∀ f ∈ fs, f.machine? = none) :
    fs.filter (Frame.concerns m) = [] := by
  rw [List.filter_eq_nil_iff]
  intro f hf
  simp [Frame.concerns, free f hf]

theorem filter_concerns_of_isPlain (plain : ∀ f ∈ fs, f.isPlain) :
    fs.filter (Frame.concerns m) = [] :=
  filter_concerns_of_free fun f hf => Frame.machine?_of_isPlain (plain f hf)

theorem filter_concerns_of_isInert (inert : ∀ f ∈ fs, f.isInert) :
    fs.filter (Frame.concerns m) = [] :=
  filter_concerns_of_free fun f hf => Frame.machine?_of_isInert (inert f hf)

theorem Sheds.filter {pops pushes : List (Frame H)} (sheds : Sheds pops pushes) :
    pops.filter (Frame.concerns m) = [] ∧ pushes.filter (Frame.concerns m) = [] := by
  cases sheds with
  | inert hpops hpushes =>
    exact ⟨filter_concerns_of_isInert hpops, filter_concerns_of_isPlain hpushes⟩
  | teardown loose => exact ⟨rfl, rfl⟩

end Filter

/-! ## Turns of another machine -/

namespace Turn

variable {w : World H} {m n : MachineId} {d : Option Deed} {e : Effect H}
  {cell cell' : MachineCell H} {ctl ctl' : Control H} {pops pushes : List (Frame H)}

/-- A turn of one machine leaves no trace in what is under way for another one. -/
theorem spares (hn : n ≠ m) (turn : Turn p w m d e ⟨cell, ctl, pops⟩ ⟨cell', ctl', pushes⟩) :
    pops.filter (Frame.concerns n) = [] ∧ pushes.filter (Frame.concerns n) = [] ∧
      ctl.machine? ≠ some n ∧ ctl'.machine? ≠ some n := by
  have hm : m ≠ n := Ne.symm hn
  cases turn with
  | pin alive quiet call sheds =>
    obtain ⟨hpops, hpushes⟩ := sheds.filter (m := n)
    simp [Frame.concerns, hm, hpops, hpushes, Control.machine?_of_isQuiet quiet,
      Control.machine?_of_isCallOn call]
  | unpin pin alive quiet plain =>
    simp [Frame.concerns, hm, pin.machine?, Control.machine?_of_isQuiet quiet,
      Control.machine?_of_isPlain plain]
  | unpinLast pin dead quiet =>
    simp [Frame.concerns, hm, pin.machine?, Control.machine?_of_isQuiet quiet]
  | enter enters => cases enters <;> simp [Frame.concerns, hm]
  | startFailed first quiet plain =>
    rcases first with rfl | ⟨state, error, rfl⟩ <;>
      simp [Frame.concerns, hm, Control.machine?_of_isQuiet quiet,
        Control.machine?_of_isPlain plain]
  | handOver pin plain =>
    rcases pin with rfl | rfl <;>
      simp [Frame.concerns, hm, Control.machine?_of_isPlain plain]
  | unwind unwinds => simp [Frame.concerns, hm, unwinds.machine?]
  | unwindScope half =>
    rcases half with ⟨x, stage, rfl⟩ | ⟨a, rest, stage, rfl, _⟩ <;> simp [Frame.concerns, hm]
  | _ =>
    simp_all [Frame.concerns, filter_concerns_of_isPlain, Control.machine?_of_isQuiet,
      Control.machine?_of_isPlain]

end Turn

/-! ## The outlook of one machine -/

/-- What a step looks like from one machine. -/
inductive Outlook (p : Program H) (m : MachineId) (c c' : Config H) : Prop where
  /-- The step passes the machine by. -/
  | spared (machine : c'.world.machine? m = c.world.machine? m) (frames : c'.frames m = c.frames m)
      (deed : c.deed? m = none) (control : c.control.machine? ≠ some m)
      (control' : c'.control.machine? ≠ some m)
  /-- The machine is started. -/
  | start {cell : MachineCell H} (signal : Option ScopeId) (new : c.world.machine? m = none)
      (found : c'.world.machine? m = some cell) (deed : c.deed? m = none)
      (blank : ∃ settings manager,
        cell = { uuid := Uuid.ofNat m.index, settings, manager, pins := 1 })
      (control : c'.control.machine? = none)
      (frames : c'.frames m =
        .collecting (.initial m) :: .starting m signal :: c.frames m)
      (counts : cell.manager = ⟨c.world.managers.size⟩ ∧
        c'.world.managers = c.world.managers.push {})
      (others : ∀ n, n ≠ m → c'.world.machine? n = c.world.machine? n)
  /-- The machine has its turn. -/
  | turn {cell cell' : MachineCell H} {e : Effect H} (pops pushes rest : List (Frame H))
      (found : c.world.machine? m = some cell) (found' : c'.world.machine? m = some cell')
      (turn : Turn p c.world m (c.deed? m) e ⟨cell, c.control, pops⟩ ⟨cell', c'.control, pushes⟩)
      (before : c.stack = pops ++ rest) (after : c'.stack = pushes ++ rest)
      (turned : c.world.Turned m cell' e c'.world)

theorem Move.outlook {c c' : Config H} (move : Move p c c') (m : MachineId) :
    Outlook p m c c' := by
  have passes {w w' : World H} {h h' : H} {ctl ctl' : Control H} (pops pushes : List (Frame H))
      {rest : List (Frame H)} (machine : w'.machine? m = w.machine? m)
      (hpops : pops.filter (Frame.concerns m) = [])
      (hpushes : pushes.filter (Frame.concerns m) = [])
      (deed : Config.deed? m ⟨w, h, ctl, pops ++ rest⟩ = none) (control : ctl.machine? ≠ some m)
      (control' : ctl'.machine? ≠ some m) :
      Outlook p m ⟨w, h, ctl, pops ++ rest⟩ ⟨w', h', ctl', pushes ++ rest⟩ :=
    .spared machine (by simp [Config.frames, hpops, hpushes]) deed control control'
  have noMachine : (none : Option MachineId) ≠ some m := nofun
  cases move with
  | idle pops pushes rest alike sheds quiet plain idle =>
    obtain ⟨hpops, hpushes⟩ := sheds.filter (m := m)
    refine passes pops pushes ?_ hpops hpushes (idle m) ?_ ?_
    · rw [World.machine?, alike.machines, World.machine?]
    · rw [Control.machine?_of_isQuiet quiet]; exact noMachine
    · rw [Control.machine?_of_isPlain plain]; exact noMachine
  | collect frames inert =>
    exact passes [] frames rfl rfl (filter_concerns_of_isPlain inert) Config.deed?_run noMachine
      noMachine
  | look => exact passes [] [] rfl rfl rfl Config.deed?_gather noMachine noMachine
  | ask => exact passes [] [.gathering _] rfl rfl rfl Config.deed?_gather noMachine noMachine
  | hear => exact passes [.gathering _] [] rfl rfl rfl (Config.deed?_free rfl) noMachine noMachine
  | newScope frames plain inert =>
    refine passes [] frames World.machine?_addScope rfl (filter_concerns_of_isPlain inert)
      Config.deed?_run noMachine ?_
    rw [Control.machine?_of_isPlain plain]; exact noMachine
  | hang frames live plain inert =>
    refine passes [] frames rfl rfl (filter_concerns_of_isPlain inert) Config.deed?_run noMachine ?_
    rw [Control.machine?_of_isPlain plain]; exact noMachine
  | callRelease frames external inert =>
    exact passes [] frames rfl rfl (filter_concerns_of_isPlain inert) Config.deed?_run noMachine
      noMachine
  | release live =>
    exact passes [] [.releasing _ _] rfl rfl rfl Config.deed?_release noMachine noMachine
  | lose => exact passes [.releasing _ _] [] rfl rfl rfl Config.deed?_panic noMachine noMachine
  | listen frames plain inert =>
    refine passes [] frames World.machine?_register rfl (filter_concerns_of_isPlain inert)
      Config.deed?_run noMachine ?_
    rw [Control.machine?_of_isPlain plain]; exact noMachine
  | unlisten plain =>
    refine passes [.releasing _ _] [.releasing _ _] World.machine?_modifySource rfl rfl
      (Config.deed?_free rfl) noMachine ?_
    rw [Control.machine?_of_isPlain plain]; exact noMachine
  | unobserveGone alike gone plain =>
    refine passes [.releasing _ _] [.releasing _ _] ?_ rfl rfl (Config.deed?_free rfl) noMachine ?_
    · rw [World.machine?, alike.machines, World.machine?]
    · rw [Control.machine?_of_isPlain plain]; exact noMachine
  | arm frames plain inert =>
    refine passes [] frames World.machine?_arm rfl (filter_concerns_of_isPlain inert)
      Config.deed?_run noMachine ?_
    rw [Control.machine?_of_isPlain plain]; exact noMachine
  | disarm plain =>
    refine passes [.releasing _ _] [.releasing _ _] World.machine?_modifySource rfl rfl
      (Config.deed?_free rfl) noMachine ?_
    rw [Control.machine?_of_isPlain plain]; exact noMachine
  | @tick w h h' a slot f target report report' ctl' rest frames plain inert =>
    rw [List.append_cons]
    refine passes [.advancing _ _ _] (frames ++ [.advancing slot target report'])
      World.machine?_modifySource rfl ?_
      (Config.deed?_free rfl) noMachine ?_
    · rw [List.filter_append, filter_concerns_of_isPlain inert]; rfl
    · rw [Control.machine?_of_isPlain plain]; exact noMachine
  | reached plain =>
    refine passes [.advancing _ _ _] [] World.machine?_modifySource rfl rfl (Config.deed?_free rfl) noMachine ?_
    rw [Control.machine?_of_isPlain plain]; exact noMachine
  | openStream frames plain inert =>
    refine passes [] frames rfl rfl (filter_concerns_of_isPlain inert) Config.deed?_run noMachine ?_
    rw [Control.machine?_of_isPlain plain]; exact noMachine
  | read => exact passes [] [.await _] rfl rfl rfl Config.deed?_run noMachine noMachine
  | @start w w' h h' s n cell signal d rest frames new machine scopes sources streams blank inert counts =>
    by_cases hm : m = n
    · subst hm
      refine .start signal new ((machine m).trans (if_pos rfl)) Config.deed?_run blank rfl ?_ counts
        fun n hn => (machine n).trans (if_neg hn)
      simp [Config.frames, Frame.concerns, filter_concerns_of_isPlain inert]
    · have hm' : n ≠ m := Ne.symm hm
      refine passes [] (.collecting (.initial n) :: .starting n signal :: frames)
        ((machine m).trans (if_neg hm)) rfl ?_ Config.deed?_run noMachine noMachine
      simp [Frame.concerns, hm', filter_concerns_of_isPlain inert]
  | @turn w w' h h' n cell cell' ctl ctl' e pops pushes rest found turn turned others =>
    by_cases hm : m = n
    · subst hm
      exact .turn pops pushes rest found ((turned.machine m).trans (if_pos rfl)) turn rfl rfl turned
    · obtain ⟨hpops, hpushes, control, control'⟩ := turn.spares hm
      exact passes pops pushes ((turned.machine m).trans (if_neg hm)) hpops hpushes (others m hm)
        control control'

end ScopedMachine

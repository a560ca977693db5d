import ScopedMachine.Proofs.Posture
import ScopedMachine.Proofs.Routes

/-!
# What bodies yield

What holds of every directive that the declared bodies yield holds of every activation, at every
instant of a run: the directives of an activation come from a collection, and its routing table is
the one built from them. `Body.Keeps S P` says that a body runs only host code with `S` and yields
only directives with `P`.
-/

namespace ScopedMachine

variable {H : Type} {p : Program H}

/-! ## Collections -/

/-- A body runs only host code with `S` and yields only directives with `P`. -/
def Body.Keeps (S : Script H → Prop) (P : Directive (Entry H) → Prop) : Body H → Prop
  | .finish _ => True
  | .yield d next => P d ∧ next.Keeps S P
  | .continueAs _ k => ∀ r, (k r).Keeps S P
  | .perform s k => S s ∧ ∀ r, (k r).Keeps S P
  | .look k => ∀ h v, (k h v).Keeps S P

/-- All declared bodies run only host code with `S` and yield only directives with `P`. -/
def Program.Keeps (S : Script H → Prop) (P : Directive (Entry H) → Prop) (p : Program H) : Prop :=
  ∀ key, (p.declared key).Keeps S P

/-- A computation waits only for host code with `S`, and its result has `Q`. -/
def Gather.Keeps {α : Type} (S : Script H → Prop) (Q : α → Prop) : Gather H α → Prop
  | .done a => Q a
  | .perform s k => S s ∧ ∀ r, (k r).Keeps S Q
  | .look k => ∀ h v, (k h v).Keeps S Q

section Collections

variable {S : Script H → Prop} {P : Directive (Entry H) → Prop}

theorem Gather.Keeps.bind {α β : Type} {Q : α → Prop} {R : β → Prop} {g : Gather H α}
    {f : α → Gather H β} (keeps : g.Keeps S Q) (next : ∀ a, Q a → (f a).Keeps S R) :
    (g.bind f).Keeps S R := by
  induction g with
  | done a => exact next a keeps
  | perform s k ih => exact ⟨keeps.1, fun r => ih r (keeps.2 r)⟩
  | look k ih => exact fun h v => ih h v (keeps h v)

theorem Gather.Keeps.map {α β : Type} {Q : α → Prop} {R : β → Prop} {g : Gather H α} {f : α → β}
    (keeps : g.Keeps S Q) (next : ∀ a, Q a → R (f a)) : (g.map f).Keeps S R :=
  keeps.bind next

theorem Program.Keeps.body (keeps : p.Keeps S P) (d : Definition) : (p.body d).Keeps S P := by
  cases d with
  | shared key | fresh key => exact keeps key
  | renamed => exact fun _ => trivial

/-- The directives collected so far have `P`. -/
def Collector.Keeps (P : Directive (Entry H) → Prop) (c : Collector H) : Prop :=
  ∀ d ∈ c.directives, P d

theorem Body.Keeps.follow {b : Body H} {c : Collector H}
    {delegate : Definition → Collector H → Gather H (Collector H × Except DefinitionError Unit)}
    (delegates : ∀ d c, c.Keeps P → (delegate d c).Keeps S fun x => x.1.Keeps P)
    (keeps : b.Keeps S P) (so_far : c.Keeps P) :
    (b.follow delegate c).Keeps S fun x => x.1.Keeps P := by
  induction b generalizing c with
  | finish r => exact so_far
  | yield d next ih =>
    refine ih keeps.2 fun d' h => ?_
    rcases List.mem_append.1 h with old | new
    · exact so_far d' old
    · rw [List.mem_singleton.1 new]
      exact keeps.1
  | continueAs target k ih =>
    exact (delegates target c so_far).bind fun x hx => ih x.2 (keeps x.2) hx
  | perform s k ih => exact ⟨keeps.1, fun r => ih r (keeps.2 r) so_far⟩
  | look k ih => exact fun h v => ih h v (keeps h v) so_far

theorem Collector.Keeps.leave {c : Collector H} (keeps : c.Keeps P) (succeeded : Bool) :
    (c.leave succeeded).Keeps P := by
  unfold Collector.leave
  split
  · exact keeps
  · exact keeps

theorem Program.Keeps.delegate (keeps : p.Keeps S P) (limit room : Nat) (d : Definition)
    (c : Collector H) (so_far : c.Keeps P) :
    (p.delegate limit room d c).Keeps S fun x => x.1.Keeps P := by
  induction room generalizing d c with
  | zero =>
    unfold Program.delegate
    split
    · exact so_far
    · exact so_far
  | succ room ih =>
    unfold Program.delegate
    split
    · exact so_far
    · have inside : (c.enter d).Keeps P := so_far
      refine ((keeps.body d).follow ih inside).map fun x hx => ?_
      split
      · exact hx.leave true
      · exact hx.leave false

/-- A collection yields only directives with `P`. -/
theorem Program.Keeps.collect (keeps : p.Keeps S P) (limit : Nat) (d : Definition) :
    (p.collect limit d).Keeps S fun r => ∀ x, r = .ok x → ∀ d ∈ x.directives, P d := by
  have root : (Collector.root d : Collector H).Keeps P := fun _ h => absurd h List.not_mem_nil
  refine ((keeps.body d).follow (keeps.delegate limit limit) root).map fun x hx r same => ?_
  split at same
  · cases same
    exact hx
  · cases same

end Collections

/-! ## Bodies that only yield -/

/-- A body does nothing but yield directives with `P`, and continue as other definitions. -/
def Body.Yields (P : Directive (Entry H) → Prop) : Body H → Prop
  | .finish _ => True
  | .yield d next => P d ∧ next.Yields P
  | .continueAs _ k => ∀ r, (k r).Yields P
  | .perform .. | .look _ => False

/-- All declared bodies do nothing but yield directives with `P`. -/
def Program.Yields (P : Directive (Entry H) → Prop) (p : Program H) : Prop :=
  ∀ key, (p.declared key).Yields P

/-- A computation waits for nothing. -/
def Gather.IsDone {α : Type} : Gather H α → Prop
  | .done _ => True
  | .perform .. | .look _ => False

section Yields

variable {P : Directive (Entry H) → Prop}

theorem Gather.IsDone.exists {α : Type} {g : Gather H α} (done : g.IsDone) : ∃ a, g = .done a := by
  cases g with
  | done a => exact ⟨a, rfl⟩
  | perform | look => cases done

theorem Gather.IsDone.bind {α β : Type} {g : Gather H α} {f : α → Gather H β} (done : g.IsDone)
    (next : ∀ a, (f a).IsDone) : (g.bind f).IsDone := by
  obtain ⟨a, rfl⟩ := done.exists
  exact next a

theorem Body.Yields.keeps {b : Body H} (yields : b.Yields P) : b.Keeps (fun _ => False) P := by
  induction b with
  | finish r => trivial
  | yield d next ih => exact ⟨yields.1, ih yields.2⟩
  | continueAs target k ih => exact fun r => ih r (yields r)
  | perform | look => cases yields

theorem Body.Yields.follow {b : Body H} {c : Collector H}
    {delegate : Definition → Collector H → Gather H (Collector H × Except DefinitionError Unit)}
    (delegates : ∀ d c, (delegate d c).IsDone) (yields : b.Yields P) :
    (b.follow delegate c).IsDone := by
  induction b generalizing c with
  | finish r => trivial
  | yield d next ih => exact ih yields.2
  | continueAs target k ih => exact (delegates target c).bind fun x => ih x.2 (yields x.2)
  | perform | look => cases yields

namespace Program.Yields

variable (yields : p.Yields P)
include yields

theorem keeps : p.Keeps (fun _ => False) P := fun key => (yields key).keeps

theorem body (d : Definition) : (p.body d).Yields P := by
  cases d with
  | shared key | fresh key => exact yields key
  | renamed => exact fun _ => trivial

theorem delegate (limit room : Nat) (d : Definition) (c : Collector H) :
    (p.delegate limit room d c).IsDone := by
  induction room generalizing d c with
  | zero => unfold Program.delegate; split <;> trivial
  | succ room ih =>
    unfold Program.delegate
    split
    · trivial
    · exact ((yields.body d).follow ih).bind fun _ => trivial

/-- The collection of a definition goes through at once. -/
theorem collect (limit : Nat) (d : Definition) : ∃ r, p.collect limit d = .done r ∧
    ∀ x, r = .ok x → ∀ d ∈ x.directives, P d := by
  have done : (p.collect limit d).IsDone :=
    ((yields.body d).follow (yields.delegate limit limit)).bind fun _ => trivial
  obtain ⟨r, eq⟩ := done.exists
  have keeps := yields.keeps.collect limit d
  rw [eq] at keeps
  exact ⟨r, eq, keeps⟩

end Program.Yields

end Yields

/-! ## Activations -/

/-- The directives of a state have `P`. -/
def Collected.Keeps (P : Directive (Entry H) → Prop) (x : Collected (Entry H)) : Prop :=
  ∀ d ∈ x.directives, P d

/-- The directives of an activation have `P`, and its table is built from them. -/
def Activation.Keeps (P : Directive (Entry H) → Prop) (a : Activation H) : Prop :=
  a.collected.Keeps P ∧ a.routes = .build a.collected.directives

/-- The directives of the state that may be entered again have `P`. -/
def Stage.Keeps (P : Directive (Entry H) → Prop) : Stage H → Prop
  | .commit _ previous => previous.Keeps P
  | .initial | .restore .. => True

section Activations

variable (S : Script H → Prop) (P : Directive (Entry H) → Prop)

/-- Whatever a frame holds has `P`. -/
def Frame.Keeps : Frame H → Prop
  | .gathering k =>
    (∃ s, S s) ∧ ∀ r, (k r).Keeps S fun r => ∀ x, r = .ok x → x.Keeps P
  | .activating _ x _ stage => x.Keeps P ∧ stage.Keeps P
  | .subscribing _ a _ stage => a.Keeps P ∧ stage.Keeps P
  | .abandoning _ _ _ stage => stage.Keeps P
  | .leaving _ previous next _ => previous.Keeps P ∧ next.Keeps P
  | _ => True

/-- What is being collected has `P`. -/
def Control.Keeps : Control H → Prop
  | .gather g => g.Keeps S fun r => ∀ x, r = .ok x → x.Keeps P
  | _ => True

/-- The current activation has `P`. -/
def MachineCell.Keeps (cell : MachineCell H) : Prop := ∀ a ∈ cell.current, a.Keeps P

/-- What is known of the bodies is known of everything that came from them. -/
structure Config.Keeps (c : Config H) : Prop where
  control : c.control.Keeps S P
  stack : ∀ f ∈ c.stack, f.Keeps S P
  machine {m : MachineId} {cell : MachineCell H} (found : c.world.machine? m = some cell) :
    cell.Keeps P

end Activations

section Step

variable {S : Script H → Prop} {P : Directive (Entry H) → Prop}

theorem Control.keeps_of_isPlain {ctl : Control H} (plain : ctl.isPlain) : ctl.Keeps S P := by
  cases ctl with
  | gather => cases plain
  | _ => trivial

theorem Control.keeps_ofRelease {a : Option (Activation H)} : (ofRelease a).Keeps S P := by
  cases a <;> trivial

theorem Frame.keeps_of_isPlain {fs : List (Frame H)} (plain : ∀ f ∈ fs, f.isPlain) :
    ∀ f ∈ fs, f.Keeps S P := by
  intro f hf
  have plain := plain f hf
  cases f with
  | gathering | activating | subscribing | abandoning | leaving => cases plain
  | _ => trivial

theorem Sheds.keeps {pops pushes : List (Frame H)} (sheds : Sheds pops pushes) :
    ∀ f ∈ pushes, f.Keeps S P := by
  cases sheds with
  | inert hpops hpushes => exact Frame.keeps_of_isPlain hpushes
  | teardown => exact fun f hf => by rw [List.mem_singleton.1 hf]; trivial

theorem Turn.keeps {w : World H} {m : MachineId} {d : Option Deed} {e : Effect H}
    {cell cell' : MachineCell H} {ctl ctl' : Control H} {pops pushes : List (Frame H)}
    (turn : Turn p w m d e ⟨cell, ctl, pops⟩ ⟨cell', ctl', pushes⟩) (program : p.Keeps S P)
    (current : cell.Keeps P) (control : ctl.Keeps S P) (frames : ∀ f ∈ pops, f.Keeps S P) :
    cell'.Keeps P ∧ ctl'.Keeps S P ∧ ∀ f ∈ pushes, f.Keeps S P := by
  have none : ∀ f ∈ ([] : List (Frame H)), f.Keeps S P := fun _ h => absurd h List.not_mem_nil
  have top {f : Frame H} {fs : List (Frame H)} (h : f.Keeps S P) (hs : ∀ f ∈ fs, f.Keeps S P) :
      ∀ g ∈ f :: fs, g.Keeps S P := List.forall_mem_cons.2 ⟨h, hs⟩
  have installed {a : Activation H} (keeps : a.Keeps P) : ∀ b ∈ some a, b.Keeps P := by
    rintro b ⟨⟩
    exact keeps
  cases turn with
  | pin alive quiet call sheds =>
    refine ⟨current, ?_, top trivial sheds.keeps⟩
    cases ctl' with
    | gather => cases call
    | _ => trivial
  | hold held quiet plain inert | drop held alive quiet plain inert
  | observe live held quiet plain inert =>
    exact ⟨current, Control.keeps_of_isPlain plain, Frame.keeps_of_isPlain inert⟩
  | dropLast held dead quiet inert =>
    exact ⟨nofun, Control.keeps_ofRelease, top trivial (top trivial (Frame.keeps_of_isPlain inert))⟩
  | unpin pin alive quiet plain => exact ⟨current, Control.keeps_of_isPlain plain, none⟩
  | unpinLast => exact ⟨nofun, Control.keeps_ofRelease, top trivial (top trivial none)⟩
  | dismantled quiet plain | startFailed first quiet plain =>
    exact ⟨current, Control.keeps_of_isPlain plain, none⟩
  | enqueue busy plain | finish empty plain | handOver pin plain | stopIgnored stopped plain =>
    exact ⟨current, Control.keeps_of_isPlain plain, none⟩
  | ignore plain | giveUp plain | stopped plain =>
    exact ⟨current, Control.keeps_of_isPlain plain, none⟩
  | claim | next => exact ⟨current, trivial, top trivial none⟩
  | look => exact ⟨current, program.collect _ _, top trivial none⟩
  | leave running found =>
    refine ⟨nofun, trivial, top ⟨?_, control _ rfl⟩ none⟩
    exact (current _ (by rw [found]; rfl)).1
  | enter enters =>
    refine ⟨current, trivial, top trivial (top ?_ none)⟩
    cases enters with
    | initial => exact ⟨control _ rfl, trivial⟩
    | next =>
      have leaving := frames _ (List.mem_singleton_self _)
      exact ⟨leaving.2, leaving.1⟩
    | again => exact ⟨frames _ (List.mem_singleton_self _), trivial⟩
  | entered =>
    have entering := frames _ (List.mem_singleton_self _)
    exact ⟨current, trivial, top ⟨⟨entering.1, rfl⟩, entering.2⟩ none⟩
  | fail => exact ⟨current, trivial, top (frames _ (List.mem_singleton_self _)).2 none⟩
  | subscribe | subscribeHosted =>
    have subscribing := frames _ (List.mem_singleton_self _)
    exact ⟨current, trivial, top ⟨subscribing.1, subscribing.2⟩ none⟩
  | begin | restore =>
    exact ⟨installed (frames _ (List.mem_singleton_self _)).1, trivial, none⟩
  | commit => exact ⟨installed (frames _ (List.mem_singleton_self _)).1, trivial, top trivial none⟩
  | beginStopped => exact ⟨nofun, trivial, top trivial none⟩
  | orphan | restoreFailed | published | passOver | unwindScope =>
    first
    | exact ⟨current, trivial, top trivial none⟩
    | exact ⟨current, trivial, none⟩
  | tell live plain | unobserve plain | signal live plain | signalGone cancelled dead plain =>
    exact ⟨current, Control.keeps_of_isPlain plain, top trivial none⟩
  | signalAtOnce => exact ⟨current, trivial, top trivial (top trivial none)⟩
  | stop => exact ⟨nofun, Control.keeps_ofRelease, top trivial none⟩
  | unwind | unwindDraining => exact ⟨current, trivial, none⟩

theorem Move.keeps {c c' : Config H} (move : Move p c c') (program : p.Keeps S P)
    (keeps : c.Keeps S P) : c'.Keeps S P := by
  obtain ⟨control, stack, machine⟩ := keeps
  -- host code or an answer comes next, and the machines stay what they are
  have plainly {w w' : World H} {h' : H} {ctl' : Control H} (fs : List (Frame H))
      {rest : List (Frame H)} (machine : ∀ {m cell}, w.machine? m = some cell → cell.Keeps P)
      (same : ∀ m, w'.machine? m = w.machine? m) (plain : ctl'.isPlain)
      (inert : ∀ f ∈ fs, f.isPlain) (below : ∀ f ∈ rest, f.Keeps S P) :
      Config.Keeps S P ⟨w', h', ctl', fs ++ rest⟩ :=
    ⟨Control.keeps_of_isPlain plain,
      List.forall_mem_append.2 ⟨Frame.keeps_of_isPlain inert, below⟩,
      fun found => machine (same _ ▸ found)⟩
  have none : ∀ f ∈ ([] : List (Frame H)), f.isPlain := fun _ h => absurd h List.not_mem_nil
  have releasing {s : ScopeId} {ts ts' : List (Teardown H)} {rest : List (Frame H)}
      (h : ∀ f ∈ .releasing s ts :: rest, f.Keeps S P) :
      ∀ f ∈ .releasing s ts' :: rest, f.Keeps S P :=
    List.forall_mem_cons.2 ⟨trivial, (List.forall_mem_cons.1 h).2⟩
  cases move with
  | idle pops pushes rest alike sheds quiet plain =>
    refine ⟨Control.keeps_of_isPlain plain, ?_, fun {m cell} found => ?_⟩
    · exact List.forall_mem_append.2 ⟨sheds.keeps, (List.forall_mem_append.1 stack).2⟩
    · rw [World.machine?, alike.machines] at found
      exact machine found
  | collect frames inert =>
    exact ⟨program.collect _ _, List.forall_mem_append.2 ⟨Frame.keeps_of_isPlain inert, stack⟩,
      machine⟩
  | look => exact ⟨control _ _, stack, machine⟩
  | ask => exact ⟨trivial, List.forall_mem_cons.2 ⟨⟨⟨_, control.1⟩, control.2⟩, stack⟩, machine⟩
  | hear =>
    have gathering := List.forall_mem_cons.1 stack
    exact ⟨gathering.1.2 _, gathering.2, machine⟩
  | newScope frames plain inert =>
    exact plainly frames machine (fun _ => World.machine?_addScope) plain inert stack
  | hang frames live plain inert | openStream frames plain inert =>
    exact plainly frames machine (fun _ => rfl) plain inert stack
  | callRelease frames external inert =>
    exact ⟨trivial, List.forall_mem_append.2 ⟨Frame.keeps_of_isPlain inert, stack⟩, machine⟩
  | release => exact ⟨trivial, List.forall_mem_cons.2 ⟨trivial, stack⟩, machine⟩
  | lose => exact ⟨trivial, (List.forall_mem_cons.1 stack).2, machine⟩
  | listen frames plain inert =>
    exact plainly frames machine (fun _ => World.machine?_register) plain inert stack
  | unlisten plain | disarm plain =>
    exact plainly [] machine (fun _ => rfl) plain none (releasing stack)
  | unobserveGone alike gone plain =>
    refine plainly [] machine (fun _ => ?_) plain none (releasing stack)
    rw [World.machine?, alike.machines, World.machine?]
  | arm frames plain inert =>
    exact plainly frames machine (fun _ => World.machine?_arm) plain inert stack
  | tick frames plain inert =>
    refine plainly frames machine (fun _ => rfl) plain inert ?_
    exact List.forall_mem_cons.2 ⟨trivial, (List.forall_mem_cons.1 stack).2⟩
  | reached plain =>
    exact plainly [] machine (fun _ => rfl) plain none (List.forall_mem_cons.1 stack).2
  | read => exact ⟨trivial, List.forall_mem_cons.2 ⟨trivial, stack⟩, machine⟩
  | @start w w' h h' s m cell signal d rest frames new made scopes sources streams blank inert =>
    refine ⟨program.collect _ _, ?_, fun {n x} found => ?_⟩
    · refine List.forall_mem_cons.2 ⟨trivial, List.forall_mem_cons.2 ⟨trivial, ?_⟩⟩
      exact List.forall_mem_append.2 ⟨Frame.keeps_of_isPlain inert, stack⟩
    · obtain ⟨settings, manager, rfl⟩ := blank
      rw [made] at found
      split at found
      · cases found
        intro a current
        cases current
      · exact machine found
  | @turn w w' h h' m cell cell' ctl ctl' e pops pushes rest found turn turned others =>
    have frames := List.forall_mem_append.1 stack
    obtain ⟨cell', control, pushes⟩ := turn.keeps program (machine found) control frames.1
    refine ⟨control, List.forall_mem_append.2 ⟨pushes, frames.2⟩, fun {n x} found => ?_⟩
    rw [turned.machine] at found
    split at found
    · cases found
      exact cell'
    · exact machine found

end Step

/-- At every instant of a run all activations come from the declared bodies. -/
theorem Program.Run.keeps {S : Script H → Prop} {P : Directive (Entry H) → Prop} {w : World H}
    {past : List (Config H)} {c : Config H} (run : p.Run w past c) (program : p.Keeps S P) :
    c.Keeps S P := by
  induction run with
  | begin fresh host s =>
    refine ⟨trivial, fun f h => absurd h List.not_mem_nil, fun found => ?_⟩
    rw [show _ = none from fresh.machine? _] at found
    cases found
  | step run h ih => exact (run.move h).keeps program ih
  | resume run ended host s ih => exact ⟨trivial, ih.stack, ih.machine⟩

/-- Nothing at all is asked of a body. -/
theorem Body.keeps_all (b : Body H) : b.Keeps (fun _ => True) (fun _ => True) := by
  induction b with
  | finish => trivial
  | yield d next ih => exact ⟨trivial, ih⟩
  | continueAs target k ih => exact ih
  | perform s k ih => exact ⟨trivial, ih⟩
  | look k ih => exact ih

/-- At every instant of a run the table of an activation is the one built from its directives. -/
theorem Program.Run.routes_eq {w : World H} {past : List (Config H)} {c : Config H} {m : MachineId}
    {cell : MachineCell H} {a : Activation H} (run : p.Run w past c)
    (found : c.world.machine? m = some cell) (current : cell.current = some a) :
    a.routes = .build a.collected.directives :=
  ((run.keeps fun key => (p.declared key).keeps_all).machine found a current).2

end ScopedMachine

import Mathlib.Data.List.Perm.Basic
import Mathlib.Data.Nat.Find
import Mathlib.Order.WellFounded
import ScopedMachine.Proofs.Punctual

/-!
# Listeners that arm again

Each timer that fires may arm any number of others, so the number of pending timers says nothing about
how long an advance goes on. But if all are armed with a delay, none of the new ones is due at once: the
timers that are due at the time the clock shows become fewer with each round, until it is time to go
on to a later time, which is not past the target. `Clock.Nears` is that order, and
`Program.Rearms.advance_ends` says that an advance comes to an end when its listeners do. A timer that
would be due past the end of the clock is not due at all.
-/

namespace ScopedMachine

variable {H : Type} {p : Program H}

/-! ## How near a clock is to a target -/

namespace Clock

variable {c c' c'' : Clock} {target : Span} {d : DueTimer}

/-- How many of the pending timers are due at the very time that the clock shows. -/
def dueNow (c : Clock) : Nat := c.pending.countP fun t => t.due == some c.now

/-- A clock is nearer to a target than another one: it shows a later time that is not past it, or the
same time with fewer timers that are due then. -/
def Nears (target : Span) (c' c : Clock) : Prop :=
  c.now < c'.now ∧ c'.now ≤ target ∨ c'.now = c.now ∧ c'.dueNow < c.dueNow

/-- The clock stands still, and no timers come to be due now. -/
structure Rests (c c' : Clock) : Prop where
  now : c'.now = c.now
  dueNow : c'.dueNow ≤ c.dueNow

theorem Rests.refl : c.Rests c := ⟨rfl, Nat.le_refl _⟩

theorem Rests.trans (rests : c.Rests c') (next : c'.Rests c'') : c.Rests c'' :=
  ⟨next.now.trans rests.now, next.dueNow.trans rests.dueNow⟩

theorem Nears.rests (nears : Nears target c' c) (rests : c'.Rests c'') : Nears target c'' c := by
  rcases nears with ⟨later, early⟩ | ⟨same, fewer⟩
  · exact .inl (rests.now ▸ ⟨later, early⟩)
  · exact .inr ⟨rests.now.trans same, Nat.lt_of_le_of_lt rests.dueNow fewer⟩

/-- A clock does not come nearer to a target without end. -/
theorem wellFounded_nears (target : Span) : WellFounded (Nears target) := by
  let rank (c : Clock) : Nat × Nat := (target.nanos - c.now.nanos, c.dueNow)
  have lexicographic : WellFounded (Prod.Lex (· < · : Nat → Nat → Prop) (· < · : Nat → Nat → Prop)) :=
    WellFounded.prod_lex wellFounded_lt wellFounded_lt
  refine Subrelation.wf (fun {c' c} nears => ?_) (InvImage.wf rank lexicographic)
  rcases nears with ⟨later, early⟩ | ⟨same, fewer⟩
  · rw [Span.lt_iff] at later
    rw [Span.le_iff] at early
    exact Prod.Lex.left _ _ (by omega)
  · have rank : (rank c').1 = (rank c).1 := by simp only [rank, same]
    exact Prod.lex_def.2 (.inr ⟨rank, fewer⟩)

/-- When the next timer is taken off, the clock comes nearer to the target. -/
theorem Sound.nears_take (sound : c.Sound) (next : c.next? target = some d) :
    Nears target { c.disarm d.timer.number with now := d.due } c := by
  obtain ⟨pending, due, early, _⟩ := next?_spec next
  rcases Nat.lt_or_eq_of_le (sound.ahead pending due) with later | same
  · exact .inl ⟨later, early⟩
  · have same : d.due = c.now := Span.eq_iff.2 same.symm
    refine .inr ⟨same, ?_⟩
    have counted : c.dueNow = (d.timer :: (c.disarm d.timer.number).pending).countP
        fun t => t.due == some c.now := (sound.perm_disarm pending).countP_eq _
    rw [counted, List.countP_cons_of_pos (by simp [due, same]), dueNow]
    simp only [same]
    exact Nat.lt_succ_self _

/-- To arm a timer with a delay makes none that is due now. -/
theorem rests_arm {kind : String} {after : Span} {token : ScopeId} (delay : after ≠ Span.zero) :
    c.Rests (c.after (.arms (c.made kind after token))) := by
  refine ⟨rfl, Nat.le_of_eq ?_⟩
  have later : c.now.add? after ≠ some c.now := by
    intro due
    have none := Span.add?_eq_some_iff.1 due
    exact delay (Span.eq_iff.2 (Nat.left_eq_add.1 none))
  show (c.pending ++ [c.made kind after token]).countP _ = _
  rw [List.countP_append, List.countP_singleton]
  simp [made, later, dueNow, Clock.after]

theorem rests_disarm {number : Nat} : c.Rests (c.disarm number) :=
  ⟨rfl, List.filter_sublist.countP_le⟩

end Clock

/-! ## Counting steps -/

namespace Program

variable {c d y : Config H} {n : Nat}

theorem run_add (n m : Nat) (c : Config H) : p.run (n + m) c = p.run m (p.run n c) := by
  induction n generalizing c with
  | zero => rw [Nat.zero_add]; rfl
  | succ n ih =>
    rw [Nat.succ_add, run, run]
    cases step : p.step c with
    | none => exact (run_of_stuck step m).symm
    | some c' => exact ih c'

theorem run_of_step (step : p.step (p.run n c) = some d) : p.run (n + 1) c = d := by
  rw [run_add, run_succ step]
  rfl

/-- What is passed in some steps was reached in fewer. -/
theorem exists_of_mem_trail (passed : y ∈ p.trail n c) : ∃ j < n, y = p.run j c := by
  induction n generalizing c with
  | zero => cases passed
  | succ n ih =>
    rw [trail] at passed
    cases step : p.step c with
    | none => rw [step] at passed; cases passed
    | some c' =>
      rw [step] at passed
      rcases List.mem_cons.1 passed with rfl | later
      · exact ⟨0, n.succ_pos, rfl⟩
      · obtain ⟨j, less, rfl⟩ := ih later
        exact ⟨j + 1, Nat.succ_lt_succ less, (run_succ step j).symm⟩

end Program

/-! ## The listeners of an advance -/

/-- Some steps after `x` the call that is made there has begun and has not returned. -/
def Program.Calling (p : Program H) (k : Answer → Script H) (x : Config H) (n : Nat) : Prop :=
  0 < n ∧ ∀ j ≤ n, (p.run j x).stack ≠ .await k :: x.stack

/-- After finitely many steps the call that is made at `x` comes to its end, with a report or with a
panic. -/
def Program.Returns (p : Program H) (k : Answer → Script H) (x : Config H) : Prop :=
  ∃ n, p.Calling k x n ∧ (p.run (n + 1) x).stack = .await k :: x.stack ∧
    ((∃ r, (p.run (n + 1) x).control = .give (.report r)) ∨
      ∃ message, (p.run (n + 1) x).control = .panic message)

namespace Config

/-- The delay with which a timer is armed next. -/
def arms? (slot : Nat) (c : Config H) : Option Span :=
  match c.control with
  | .run (.call (.arm i _ after token) _) =>
    if i = slot ∧ c.world.isCancelled token = false then some after else none
  | _ => none

/-- What went on above an advance has come to its end, with a report or with a panic. -/
def Lands (slot : Nat) (target : Span) (base : List (Frame H)) (c : Config H) : Prop :=
  (∃ report, c.stack = .advancing slot target report :: base) ∧
    ((∃ r, c.control = .give (.report r)) ∨ ∃ message, c.control = .panic message)

variable {slot : Nat} {target : Span} {base : List (Frame H)} {report : Report} {c c' : Config H}

/-- What ends above an advance that goes on ends with a report or a panic. -/
theorem lands_of_step (step : p.step c = some c')
    (stack : c.stack = .advancing slot target report :: base) (ended : c.control.isEnd) :
    c.Lands slot target base := by
  refine ⟨⟨report, stack⟩, ?_⟩
  obtain ⟨w, h, ctl, _⟩ := c
  cases stack
  cases ctl with
  | give a =>
    cases a with
    | report r => exact .inl ⟨r, rfl⟩
    | _ => cases step
  | panic message => exact .inr ⟨message, rfl⟩
  | gather g =>
    cases g with
    | done r => cases step
    | _ => cases ended
  | _ => cases ended

/-- When what went on above an advance has ended, the advance goes on. -/
theorem Lands.exists_step {clock : Clock} (lands : c.Lands slot target base)
    (timer : c.world.clock? slot = some clock) : ∃ c', p.step c = some c' := by
  obtain ⟨w, h, ctl, _⟩ := c
  obtain ⟨⟨report, rfl⟩, ⟨r, rfl⟩ | ⟨message, rfl⟩⟩ := lands
  · cases next : clock.next? target with
    | none => exact ⟨_, p.step_reaches timer next⟩
    | some d =>
      cases live : w.isCancelled d.timer.token with
      | true => exact ⟨_, p.step_skips timer next live⟩
      | false =>
        obtain ⟨source, found⟩ := World.exists_source timer
        exact ⟨_, p.step_fires found timer next live⟩
  · exact ⟨_, rfl⟩

theorem Lands.isEnd (lands : c.Lands slot target base) : c.control.isEnd := by
  obtain ⟨_, ⟨r, control⟩ | ⟨message, control⟩⟩ := lands <;> rw [control] <;> rfl

end Config

/-- The listeners that are called during an advance do not advance the same timer. They arm as many
others as they like, each with a delay, and whenever a timer fires, they come to an end. -/
structure Program.Rearms (p : Program H) (slot : Nat) (target : Span) (k : Answer → Script H)
    (x : Config H) : Prop where
  alone {n : Nat} (calling : p.Calling k x n) : (p.run n x).calls? slot = none
  delays {n : Nat} (calling : p.Calling k x n) : (p.run n x).arms? slot ≠ some Span.zero
  ends {n : Nat} {t : Span} {d : DueTimer} (calling : p.Calling k x n)
    (fires : (p.run n x).beat? slot = some (.fires t d)) :
    ∃ j > 0, (p.run (n + j) x).Lands slot target (.await k :: x.stack)

/-! ## The rounds of an advance -/

section Rounds

variable {w : World H} {before : List (Config H)} {x z : Config H} {slot n : Nat} {clock m : Clock}
  {delay : Span} {k : Answer → Script H}

theorem Program.Calling.mono (calling : p.Calling k x n) {j : Nat} (some : 0 < j) (le : j ≤ n) :
    p.Calling k x j :=
  ⟨some, fun i less => calling.2 i (less.trans le)⟩

/-- The call has not returned either when there are frames above its own after one more step. -/
theorem Program.Calling.succ (calling : p.Calling k x n) {f : Frame H} (fs : List (Frame H))
    (stack : (p.run (n + 1) x).stack = fs ++ f :: .await k :: x.stack) : p.Calling k x (n + 1) := by
  refine ⟨n.succ_pos, fun j le => ?_⟩
  rcases Nat.lt_or_eq_of_le le with less | rfl
  · exact calling.2 j (Nat.le_of_lt_succ less)
  · exact fun same => above_ne_base (stack.symm.trans same)

section Call

variable (timer : x.world.clock? slot = some clock)
  (call : x.control = .run (.call (.advance slot delay) k))

include timer call

/-- The first step of the call is to begin the advance. -/
theorem Program.run_one : p.run 1 x = ⟨x.world, x.host, .give (.report {}),
    .advancing slot (clock.now.addSaturating delay) {} :: .await k :: x.stack⟩ :=
  Program.run_of_step (p.step_advance timer call)

theorem Program.calling_one : p.Calling k x 1 := by
  refine ⟨Nat.one_pos, fun j le => ?_⟩
  rcases Nat.le_one_iff_eq_zero_or_eq_one.1 le with rfl | rfl
  · exact (List.cons_ne_self _ _).symm
  · rw [run_one timer call]
    exact List.cons_ne_self _ _

variable (rearms : p.Rearms slot (clock.now.addSaturating delay) k x)

include rearms

/-- While the call is under way, it is the only one that advances the clock. -/
theorem Program.Rearms.advancesAlone (calling : ∀ j, 0 < j → j ≤ n → p.Calling k x j) :
    ∃ span, p.trail (n + 1) x = x :: span ∧ AdvancesAlone slot clock delay k x span := by
  have first := p.step_advance timer call
  have passed {y : Config H} (mem : y ∈ p.trail n (p.run 1 x)) :
      ∃ j, p.Calling k x j ∧ y = p.run j x := by
    obtain ⟨j, less, rfl⟩ := exists_of_mem_trail mem
    exact ⟨1 + j, calling (1 + j) (by omega) (by omega), (run_add 1 j x).symm⟩
  refine ⟨p.trail n (p.run 1 x), ?_, timer, call, fun y mem => ?_, fun y mem => ?_⟩
  · rw [trail, first, run_of_step first]
  · obtain ⟨j, calling, rfl⟩ := passed mem
    exact calling.2 j (Nat.le_refl j)
  · obtain ⟨j, calling, rfl⟩ := passed mem
    exact rearms.alone calling

variable (run : p.Run w before x)

include run

theorem Program.Rearms.underWay (calling : p.Calling k x n) : ∃ fs report, (p.run n x).stack =
    fs ++ .advancing slot (clock.now.addSaturating delay) report :: .await k :: x.stack ∧
      fs.filterMap (Frame.target? slot) = [] := by
  obtain ⟨n, rfl⟩ := Nat.exists_eq_succ_of_ne_zero (Nat.ne_of_gt calling.1)
  obtain ⟨span, split, advances⟩ := rearms.advancesAlone timer call
    fun j some le => calling.mono some (Nat.le_succ_of_le le)
  have past : before ++ p.trail (n + 1) x = before ++ x :: span := congrArg (before ++ ·) split
  exact (advances.sole (run.trail (n + 1)) past).resolve_left (calling.2 _ (Nat.le_refl _))

omit rearms in
/-- The clock is there as long as the call is under way, and is sound if it was before. -/
theorem Program.Run.exists_sound (sound : clock.Sound) (n : Nat) :
    ∃ m, (p.run n x).world.clock? slot = some m ∧ m.Sound := by
  cases n with
  | zero => exact ⟨clock, timer, sound⟩
  | succ n =>
    have first := p.step_advance timer call
    have split : before ++ p.trail (n + 1) x = before ++ x :: p.trail n (p.run 1 x) := by
      rw [Program.trail, first, run_of_step first]
    obtain ⟨m, timer', leads⟩ := (run.trail (n + 1)).clock_leads_between split timer
    exact ⟨m, timer', leads.sound sound⟩

/-- What goes on above the advance leaves its frame where it is. The clock stands still, and what is
armed is not due now. -/
theorem Program.Rearms.rests (calling : p.Calling k x n)
    (goes : ¬(p.run n x).Lands slot (clock.now.addSaturating delay) (.await k :: x.stack))
    (step : p.step (p.run n x) = some z) (shows : (p.run n x).world.clock? slot = some m) :
    p.Calling k x (n + 1) ∧
      ∃ m', (p.run (n + 1) x).world.clock? slot = some m' ∧ m.Rests m' := by
  have there : p.run (n + 1) x = z := run_of_step step
  obtain ⟨fs, report, stack, quiet⟩ := rearms.underWay timer call run calling
  have busy : fs ≠ [] ∨ (p.run n x).control.isEnd = false := by
    by_contra idle
    obtain ⟨none, ended⟩ := not_or.1 idle
    rw [Classical.not_not.1 none, List.nil_append] at stack
    exact goes (Config.lands_of_step step stack (Bool.not_eq_false _ ▸ ended))
  obtain ⟨fs', stack'⟩ := ((run.trail n).course step).stays stack busy
  refine ⟨calling.succ fs' (there ▸ stack'), ?_⟩
  have shows' := p.clock?_of_step (run.trail n).grounded step shows
  rw [there]
  -- a frame that advances this clock is on top only when what goes on above it has ended
  have apart {target : Span} {report' r : Report} {rest : List (Frame H)}
      (control : (p.run n x).control = .give (.report r))
      (top : (p.run n x).stack = .advancing slot target report' :: rest) : False := by
    cases fs with
    | nil => exact goes ⟨⟨report, stack⟩, .inl ⟨r, control⟩⟩
    | cons f fs =>
      obtain ⟨rfl, _⟩ := List.cons.inj (stack.symm.trans top)
      simp [Frame.target?] at quiet
  cases beat : (p.run n x).beat? slot with
  | none =>
    rw [beat] at shows'
    exact ⟨m, shows', .refl⟩
  | some b =>
    rw [beat] at shows'
    refine ⟨m.after b, shows', ?_⟩
    cases Config.strikes_of_beat? shows beat with
    | arms control live =>
      refine Clock.rests_arm fun none => rearms.delays calling ?_
      simp [Config.arms?, control, live, none]
    | disarms => exact Clock.rests_disarm
    | fires control top | skips control top | reaches control top => exact (apart control top).elim

/-- Until what goes on above the advance has ended, the clock stands still, and what is armed is not
due now. -/
theorem Program.Rearms.rests_until (calling : p.Calling k x n)
    (shows : (p.run n x).world.clock? slot = some m) (j : Nat)
    (ends : (p.run (n + j) x).Lands slot (clock.now.addSaturating delay) (.await k :: x.stack))
    (first : ∀ i < j,
      ¬(p.run (n + i) x).Lands slot (clock.now.addSaturating delay) (.await k :: x.stack)) :
    p.Calling k x (n + j) ∧
      ∃ m', (p.run (n + j) x).world.clock? slot = some m' ∧ m.Rests m' := by
  have go (i : Nat) (le : i ≤ j) : p.Calling k x (n + i) ∧
      ∃ m', (p.run (n + i) x).world.clock? slot = some m' ∧ m.Rests m' := by
    induction i with
    | zero => exact ⟨calling, m, shows, .refl⟩
    | succ i ih =>
      obtain ⟨calling, m', shows, rests⟩ := ih (Nat.le_of_succ_le le)
      cases step : p.step (p.run (n + i) x) with
      | none =>
        obtain ⟨left, rfl⟩ := Nat.exists_eq_add_of_le (Nat.le_of_succ_le le)
        rw [← Nat.add_assoc, run_add, run_of_stuck step] at ends
        exact absurd ends (first i le)
      | some z =>
        obtain ⟨calling', m'', shows', rests'⟩ :=
          rearms.rests timer call run calling (first i le) step shows
        exact ⟨calling', m'', shows', rests.trans rests'⟩
  exact go j (Nat.le_refl j)

/-- What is pending is looked through: that is the last thing the call does, or the first timer is
taken off, and when it is done with, the clock is nearer to the target. -/
theorem Program.Rearms.round (calling : p.Calling k x n)
    (lands : (p.run n x).Lands slot (clock.now.addSaturating delay) (.await k :: x.stack))
    (shows : (p.run n x).world.clock? slot = some m) (sound : m.Sound) :
    p.Returns k x ∨ ∃ n' m', p.Calling k x n' ∧
      (p.run n' x).Lands slot (clock.now.addSaturating delay) (.await k :: x.stack) ∧
        (p.run n' x).world.clock? slot = some m' ∧ m'.Nears (clock.now.addSaturating delay) m := by
  obtain ⟨z, step⟩ := lands.exists_step shows
  have ended := lands.isEnd
  obtain ⟨⟨report, stack⟩, _⟩ := lands
  have there : p.run (n + 1) x = z := run_of_step step
  have shows' := p.clock?_of_step (run.trail n).grounded step shows
  rw [← there] at shows'
  cases ((run.trail n).course step).pursues step shows (stack.trans (List.nil_append _).symm) with
  | above fs fs' under busy =>
    cases List.append_cancel_right (under.symm.trans stack : fs ++ _ = [] ++ _)
    rcases busy with none | goes
    · exact absurd rfl none
    · rw [ended] at goes
      cases goes
  | @skips r d _ _ beat stack' control' =>
    rw [beat] at shows'
    cases Config.strikes_of_beat? shows beat with
    | skips _ _ next =>
      rw [← there] at stack' control'
      exact .inr ⟨n + 1, _, calling.succ [] stack', ⟨⟨_, stack'⟩, .inl ⟨_, control'⟩⟩, shows',
        sound.nears_take next⟩
  | @fires r d _ _ beat listeners stack' =>
    rw [beat] at shows'
    cases Config.strikes_of_beat? shows beat with
    | fires _ _ next =>
      rw [← there] at stack'
      have called := calling.succ [_] stack'
      -- the dispatch comes to its end, and the first time that it does is the next round
      obtain ⟨j, some, ends⟩ := rearms.ends calling beat
      have lands : ∃ j, (p.run (n + 1 + j) x).Lands slot (clock.now.addSaturating delay)
          (.await k :: x.stack) := ⟨j - 1, by rwa [show n + 1 + (j - 1) = n + j by omega]⟩
      classical
      obtain ⟨called, m', shows'', rests⟩ := rearms.rests_until timer call run called shows'
        (Nat.find lands) (Nat.find_spec lands) fun i less => Nat.find_min lands less
      exact .inr ⟨_, m', called, Nat.find_spec lands, shows'', (sound.nears_take next).rests rests⟩
  | @reaches r _ _ beat stack' control' =>
    exact .inl ⟨n, calling, there ▸ stack', .inl ⟨_, there ▸ control'⟩⟩
  | falls stack' control' => exact .inl ⟨n, calling, there ▸ stack', .inr ⟨_, there ▸ control'⟩⟩

/-- The call returns, because the clock cannot come nearer to the target without end. -/
theorem Program.Rearms.returns_of_lands (sound : clock.Sound) (calling : p.Calling k x n)
    (lands : (p.run n x).Lands slot (clock.now.addSaturating delay) (.await k :: x.stack)) :
    p.Returns k x := by
  obtain ⟨m, shows, sound'⟩ := run.exists_sound timer call sound n
  induction m using (Clock.wellFounded_nears (clock.now.addSaturating delay)).induction
    generalizing n with
  | _ m nearer =>
  rcases rearms.round timer call run calling lands shows sound' with
    returns | ⟨n', m', calling', lands', shows', nears⟩
  · exact returns
  · obtain ⟨m'', shows'', sound''⟩ := run.exists_sound timer call sound n'
    cases shows'.symm.trans shows''
    exact nearer m' nears calling' lands' shows' sound''

/-- An advance comes to its end after finitely many steps, and so after finitely many timers fired,
whatever is pending and however far it goes, if the listeners of the timers come to an end, do not
advance the same timer, and arm others only with a delay. -/
theorem Program.Rearms.advance_ends (sound : clock.Sound) : ∃ n span, p.trail (n + 1) x = x :: span ∧
    AdvancesAlone slot clock delay k x span ∧ (p.run (n + 1) x).stack = .await k :: x.stack ∧
      ((∃ r, (p.run (n + 1) x).control = .give (.report r)) ∨
        ∃ message, (p.run (n + 1) x).control = .panic message) := by
  have first := run_one (p := p) timer call
  have calling := calling_one (p := p) timer call
  have lands : (p.run 1 x).Lands slot (clock.now.addSaturating delay) (.await k :: x.stack) := by
    rw [first]
    exact ⟨⟨_, rfl⟩, .inl ⟨_, rfl⟩⟩
  obtain ⟨n, calling, stack, ended⟩ :=
    rearms.returns_of_lands timer call run sound calling lands
  obtain ⟨span, split, advances⟩ :=
    rearms.advancesAlone timer call fun j some le => calling.mono some le
  exact ⟨n, span, split, advances, stack, ended⟩

end Call

end Rounds

namespace Alarm

/-- The clock is about to be advanced by twenty milliseconds. -/
def pressed : Config Unit := program.run 8 (start snoozed)

/-- The alarm is set twice. -/
def armed : Clock where
  nextNumber := 2
  pending := [⟨0, some (.ofMillis 10), "ring", ⟨0⟩⟩, ⟨1, some (.ofMillis 30), "ring", ⟨0⟩⟩]

/-- The listener sets the alarm again, five milliseconds later. -/
theorem pressed_rearms :
    program.Rearms 0 (armed.now.addSaturating (.ofMillis 20)) (fun _ => .ok) pressed := by
  have few {n : Nat} (calling : program.Calling (fun _ => .ok) pressed n) : 0 < n ∧ n < 10 :=
    ⟨calling.1, Nat.not_le.1 fun late => calling.2 10 late rfl⟩
  have alone : ∀ n < 10, 0 < n → (program.run n pressed).calls? 0 = none := by decide
  have delays : ∀ n < 10, 0 < n → (program.run n pressed).arms? 0 ≠ some Span.zero := by decide
  have rounds : ∀ n < 10, 0 < n → ((program.run n pressed).beat? 0).bind Beat.fires? ≠ none →
      n = 1 ∨ n = 7 := by decide
  refine ⟨fun calling => ?_, fun calling => ?_, fun {n t d} calling fires => ?_⟩
  · exact alone _ (few calling).2 (few calling).1
  · exact delays _ (few calling).2 (few calling).1
  · rcases rounds n (few calling).2 (few calling).1 (by rw [fires]; nofun) with rfl | rfl
    · exact ⟨6, by decide, ⟨_, rfl⟩, .inl ⟨_, rfl⟩⟩
    · exact ⟨2, by decide, ⟨_, rfl⟩, .inl ⟨_, rfl⟩⟩

/-- The advance comes to its end after ten steps, in which it rings twice. -/
theorem advance_ends_pressed : program.Run world (program.trail 8 (start snoozed)) pressed ∧
    pressed.world.clock? 0 = some armed ∧ armed.Sound ∧
    pressed.control = .run (.call (.advance 0 (.ofMillis 20)) fun _ => .ok) ∧
    program.Rearms 0 (armed.now.addSaturating (.ofMillis 20)) (fun _ => .ok) pressed ∧
    ∃ n span, program.trail (n + 1) pressed = pressed :: span ∧
      AdvancesAlone 0 armed (.ofMillis 20) (fun _ => .ok) pressed span ∧
        (program.run (n + 1) pressed).stack = .await (fun _ => .ok) :: pressed.stack ∧
          ((∃ r, (program.run (n + 1) pressed).control = .give (.report r)) ∨
            ∃ message, (program.run (n + 1) pressed).control = .panic message) := by
  have run := run snoozed 8
  have timer : pressed.world.clock? 0 = some armed := rfl
  have sound : armed.Sound := run.clock_sound world_unarmed timer
  exact ⟨run, timer, sound, rfl, pressed_rearms,
    Program.Rearms.advance_ends timer rfl pressed_rearms run sound⟩

end Alarm

end ScopedMachine

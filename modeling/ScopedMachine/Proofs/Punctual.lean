import ScopedMachine.Proofs.Forward
import ScopedMachine.Proofs.Order
import ScopedMachine.Proofs.Timers

/-!
# What an advance fires

An advance picks the next timer that is due by its target, again and again, while the listeners of
those that fire arm others and release scopes. If none of them advances the same clock, the timers fire
in their order, and those fire whose token is not cancelled when it is their turn.
-/

namespace ScopedMachine

variable {H : Type} {p : Program H}

/-! ## One advance of a clock -/

/-- What is not the last is among the others. -/
theorem split_of_concat {A : Type} {span pre rest : List A} {c y : A}
    (split : span ++ [c] = pre ++ y :: rest) (later : rest ≠ []) : ∃ post, span = pre ++ y :: post := by
  obtain ⟨post, last, rfl⟩ := (List.eq_nil_or_concat' rest).resolve_left later
  rw [← List.cons_append, ← List.append_assoc] at split
  exact ⟨post, (List.append_inj' split rfl).1⟩

/-- In an advance above some frames it is time for the next timer; `r` reports on the one before. -/
def Config.Picks (slot : Nat) (target : Span) (base : List (Frame H)) (r : Report) (c : Config H) :
    Prop :=
  c.control = .give (.report r) ∧ ∃ report, c.stack = .advancing slot target report :: base

/-- An advance of a clock is called, and while `span` is passed it does not return and no other one is
called. -/
structure AdvancesAlone (slot : Nat) (clock : Clock) (delay : Span) (k : Answer → Script H)
    (x : Config H) (span : List (Config H)) : Prop where
  timer : x.world.clock? slot = some clock
  call : x.control = .run (.call (.advance slot delay) k)
  stays : ∀ y ∈ span, y.stack ≠ .await k :: x.stack
  alone : ∀ y ∈ span, y.calls? slot = none

namespace AdvancesAlone

variable {w : World H} {before past span pre post : List (Config H)} {x y c : Config H} {slot : Nat}
  {clock : Clock} {delay : Span} {k : Answer → Script H} {b : Beat} {t : Span}
  (advances : AdvancesAlone slot clock delay k x span) (run : p.Run w past c)
  (split : past = before ++ x :: span)

include advances in
theorem going : ¬x.IsOver := by
  rintro ⟨_, ⟨a, control⟩ | ⟨message, control⟩⟩ <;> rw [advances.call] at control <;> cases control

include advances run split in
/-- As long as the call is under way, its frame is the only one that advances the clock. -/
theorem sole : c.stack = .await k :: x.stack ∨ ∃ fs report,
    c.stack = fs ++ .advancing slot (clock.now.addSaturating delay) report :: .await k :: x.stack ∧
      fs.filterMap (Frame.target? slot) = [] := by
  refine run.above_induction split advances.going advances.stays ?_ ?_ ?_
    (P := fun _ c => c.stack = .await k :: x.stack ∨ ∃ fs report,
      c.stack = fs ++ .advancing slot (clock.now.addSaturating delay) report :: .await k :: x.stack ∧
        fs.filterMap (Frame.target? slot) = [])
  · rintro seen c (stack | ⟨fs, report, stack, _⟩)
    · exact ⟨[], stack⟩
    · exact ⟨fs ++ [_], by rw [stack, List.append_assoc]; rfl⟩
  · intro c first
    cases (p.step_advance advances.timer advances.call).symm.trans first
    exact .inr ⟨[], {}, rfl, rfl⟩
  · intro seen c c' run inside step kept
    rcases kept with stack | ⟨fs, report, stack, quiet⟩
    · exact absurd stack (advances.stays c inside)
    · obtain ⟨clock', timer', _⟩ := run.clock_leads_between rfl advances.timer
      have targets := Config.targets_of_stack stack
      rw [quiet] at targets
      cases (run.course step).pursues step timer' stack with
      | above _ fs' _ _ stack' =>
        refine .inr ⟨fs', report, stack', ?_⟩
        have targets' := Config.targets_of_stack stack'
        cases (p.paces_of_step step).aims timer' with
        | same same =>
          rw [targets', targets] at same
          exact List.append_cancel_right same
        | begin calls => rw [advances.alone c inside] at calls; cases calls
        | finish targets'' =>
          have longer := congrArg List.length (targets''.symm.trans targets)
          rw [targets'] at longer
          simp at longer
          omega
      | fires _ _ _ _ stack' => exact .inr ⟨[_], _, stack', rfl⟩
      | skips _ _ _ stack' => exact .inr ⟨[], _, stack', rfl⟩
      | reaches _ _ _ stack' | falls stack' => exact .inl stack'

include advances in
theorem within (inside : ∀ y ∈ pre, y ∈ span) : AdvancesAlone slot clock delay k x pre where
  timer := advances.timer
  call := advances.call
  stays y mem := advances.stays y (inside y mem)
  alone y mem := advances.alone y (inside y mem)

section At

variable (here : span = pre ++ y :: post)

include run split here in
theorem reached : p.Run w (before ++ x :: pre) y :=
  run.earlier (split ▸ here ▸ ⟨post ++ [c], by simp⟩)

include advances run split here in
/-- As long as the call is under way, its frame is on the stack. -/
theorem underWay : ∃ fs report,
    y.stack = fs ++ .advancing slot (clock.now.addSaturating delay) report :: .await k :: x.stack ∧
      fs.filterMap (Frame.target? slot) = [] := by
  have inside : y ∈ span := here ▸ List.mem_append_right _ (List.mem_cons_self ..)
  have earlier : ∀ y ∈ pre, y ∈ span := fun y mem => here ▸ List.mem_append_left _ mem
  exact ((advances.within earlier).sole (reached run split here) rfl).resolve_left
    (advances.stays y inside)

include advances run split here in
/-- The clock is advanced by the frame of the call only. -/
theorem picks (beat : y.beat? slot = some b) (aims : b.target? = some t) :
    t = clock.now.addSaturating delay ∧
      ∃ r, y.Picks slot (clock.now.addSaturating delay) (.await k :: x.stack) r := by
  obtain ⟨fs, report, stack, quiet⟩ := advances.underWay run split here
  have top {target : Span} {report r : Report} {rest : List (Frame H)}
      (control : y.control = .give (.report r)) (first : y.stack = .advancing slot target report :: rest) :
      target = clock.now.addSaturating delay ∧
        ∃ r, y.Picks slot (clock.now.addSaturating delay) (.await k :: x.stack) r := by
    cases fs with
    | nil =>
      cases stack.symm.trans first
      exact ⟨rfl, r, control, report, stack⟩
    | cons f fs =>
      obtain ⟨rfl, _⟩ := List.cons.inj (stack.symm.trans first)
      simp [Frame.target?] at quiet
  obtain ⟨m, _, strikes⟩ := Config.exists_strikes beat
  cases strikes with
  | arms | disarms => cases aims
  | fires control first | skips control first | reaches control first =>
    cases aims
    exact top control first

include advances run split here in
theorem exists_step : ∃ z rest, post ++ [c] = z :: rest ∧ p.step y = some z := by
  obtain ⟨fs, report, stack, _⟩ := advances.underWay run split here
  have going : ¬y.IsOver := by
    rintro ⟨empty, _⟩
    rw [stack] at empty
    simp at empty
  have whole : past = before ++ x :: pre ++ y :: post := by rw [split, here]; simp
  obtain ⟨z, rest, next, step, _⟩ := run.step_of_split whole going
  exact ⟨z, rest, next, step⟩

include advances run split here in
/-- What happened to the clock since the call. -/
theorem clock_at : ∃ m, y.world.clock? slot = some m ∧ clock.Leads (beats slot pre) m := by
  obtain ⟨m, timer, leads⟩ := (reached run split here).clock_leads_between rfl advances.timer
  rw [beats_cons, Config.beat?_of_call advances.call] at leads
  exact ⟨m, timer, leads⟩

include advances run split here in
/-- No advance ends before the call returns. -/
theorem goes : ∀ b ∈ beats slot pre, b.isEnd = false := by
  intro b mem
  obtain ⟨first, u, rest, rfl, beat⟩ := exists_of_mem_beats mem
  have here' : span = first ++ u :: (rest ++ y :: post) := by rw [here]; simp
  cases b with
  | reaches t =>
    obtain ⟨_, r, control, report, stack⟩ := advances.picks run split here' beat rfl
    obtain ⟨z, later, next, step⟩ := advances.exists_step run split here'
    obtain ⟨m, timer, strikes⟩ := Config.exists_strikes beat
    -- the frame of the call would be off the stack at an instant that is still passed
    have inside : z ∈ span := by
      have last : later ≠ [] := by
        rintro rfl
        have longer := congrArg List.length next
        simp at longer
        omega
      obtain ⟨left, same⟩ : ∃ left, rest ++ y :: post = [] ++ z :: left :=
        split_of_concat next last
      rw [here', same]
      simp
    obtain ⟨world, host, ctl, _⟩ := u
    cases control
    cases stack
    cases strikes with
    | reaches _ first late =>
      cases first
      cases (p.step_reaches timer late).symm.trans step
      exact absurd rfl (advances.stays _ inside)
  | _ => rfl

end At

include advances run split in
/-- When the call returns, the last thing that was done was to find that nothing is due any more. -/
theorem exists_last {a : Answer} (stack : c.stack = .await k :: x.stack)
    (returns : c.control = .give a) :
    ∃ seen y m report r, span = seen ++ [y] ∧ y.control = .give (.report r) ∧
      y.stack = .advancing slot (clock.now.addSaturating delay) report :: .await k :: x.stack ∧
        y.beat? slot = some (.reaches (clock.now.addSaturating delay)) ∧
          y.world.clock? slot = some m ∧ m.next? (clock.now.addSaturating delay) = none ∧
            c.world.clock? slot = some { m with now := clock.now.addSaturating delay } ∧
              a = .report (report.absorb r) := by
  obtain ⟨seen, y, report, r, here, last, answer, beat, same⟩ :=
    (run.journey split advances.timer advances.call advances.stays).last_of_returns stack returns
  obtain ⟨m, timer, strikes⟩ := Config.exists_strikes beat
  obtain ⟨z, rest, next, step⟩ := advances.exists_step run split here
  cases next
  have timer' := p.clock?_of_step (reached run split here).grounded step timer
  rw [beat] at timer'
  cases strikes with
  | reaches _ _ late => exact ⟨seen, y, m, report, r, here, answer, last, beat, timer, late, timer', same⟩

end AdvancesAlone

/-! ## Turns -/

/-- It is the turn of a timer: the next one is picked, and none that is pending fires before it. -/
def Config.IsTurn (slot : Nat) (target : Span) (base : List (Frame H)) (d : DueTimer) (c : Config H) :
    Prop :=
  (∃ r, c.Picks slot target base r) ∧ ∃ m, c.world.clock? slot = some m ∧
    ∀ u ∈ m.pending, ∀ due, u.due = some due → ¬Clock.firesBefore ⟨u, due⟩ d

section Turns

variable {w : World H} {before past span pre post : List (Config H)} {x y c : Config H} {slot : Nat}
  {clock : Clock} {delay : Span} {k : Answer → Script H} {d : DueTimer}

/-- A timer that fires does so when it is its turn, and its token is not cancelled then. -/
theorem AdvancesAlone.turn_of_fires (advances : AdvancesAlone slot clock delay k x span)
    (run : p.Run w past c) (unarmed : w.Unarmed) (split : past = before ++ x :: span)
    (fired : d ∈ firings slot span) :
    d.timer.due = some d.due ∧ d.due ≤ clock.now.addSaturating delay ∧ ∃ pre y post,
      span = pre ++ y :: post ∧ (d.timer ∈ clock.pending ∨ d.timer ∈ armings slot pre) ∧
        y.IsTurn slot (clock.now.addSaturating delay) (.await k :: x.stack) d ∧
          y.world.isCancelled d.timer.token = false := by
  obtain ⟨b, mem, fires⟩ := List.mem_filterMap.1 fired
  obtain ⟨pre, y, post, here, beat⟩ := exists_of_mem_beats mem
  obtain ⟨m, timer, strikes⟩ := Config.exists_strikes beat
  cases strikes with
  | fires _ _ next live =>
    cases fires
    obtain ⟨rfl, picks⟩ := advances.picks run split here beat rfl
    obtain ⟨pending, due, early, first⟩ := Clock.next?_spec next
    obtain ⟨_, timer', leads⟩ := advances.clock_at run split here
    cases timer.symm.trans timer'
    have here' : p.Run w before x := run.earlier (split ▸ ⟨span ++ [c], by simp⟩)
    have known := leads.known (here'.clock_sound unarmed advances.timer) pending
    exact ⟨due, early, pre, y, post, here, List.mem_append.1 known, ⟨picks, m, timer, first⟩, live⟩
  | _ => cases fires

/-- A timer whose token is not cancelled when it is its turn fires. -/
theorem AdvancesAlone.fires_of_turn (advances : AdvancesAlone slot clock delay k x span)
    (run : p.Run w past c) (unarmed : w.Unarmed) (split : past = before ++ x :: span)
    (due : d.timer.due = some d.due) (early : d.due ≤ clock.now.addSaturating delay)
    (here : span = pre ++ y :: post)
    (known : d.timer ∈ clock.pending ∨ d.timer ∈ armings slot pre)
    (turn : y.IsTurn slot (clock.now.addSaturating delay) (.await k :: x.stack) d)
    (live : y.world.isCancelled d.timer.token = false) : d ∈ firings slot span := by
  have reached := AdvancesAlone.reached run split here
  obtain ⟨⟨r, control, report, stack⟩, m, timer, first⟩ := turn
  obtain ⟨_, timer', leads⟩ := advances.clock_at run split here
  cases timer.symm.trans timer'
  have begun : p.Run w before x := run.earlier (split ▸ ⟨span ++ [c], by simp⟩)
  have sound := begun.clock_sound unarmed advances.timer
  have once := leads.count sound (List.mem_append.2 known)
  -- it was not dropped, because its token is not cancelled
  have kept : d.timer ∉ (beats slot pre).filterMap Beat.drops? := by
    intro dropped
    have dropped : d.timer ∈ drops slot (before ++ x :: pre) := by
      rw [List.append_cons, drops_append]
      exact List.mem_append_right _ dropped
    rw [reached.isCancelled_of_dropped unarmed dropped] at live
    cases live
  rw [here, firings_append, firings_cons]
  by_cases pending : d.timer ∈ m.pending
  · -- so it is the one that is picked
    cases next : m.next? (clock.now.addSaturating delay) with
    | none => exact absurd early (Span.not_le.2 (Clock.next?_eq_none_iff.1 next _ pending _ due))
    | some e =>
      obtain ⟨pending', due', early', first'⟩ := Clock.next?_spec next
      obtain ⟨time, number⟩ := Clock.same_place (first _ pending' _ due') (first' _ pending _ due)
      have timers := (leads.sound sound).eq_of_number pending' pending number
      obtain ⟨t, time'⟩ := e
      cases timers
      cases time
      obtain ⟨world, host, ctl, _⟩ := y
      cases control
      cases stack
      refine List.mem_append_right _ (List.mem_append_left _ ?_)
      rw [Config.beat?_fires timer next live]
      exact List.mem_singleton_self _
  · rw [List.count_eq_zero_of_not_mem pending, List.count_eq_zero_of_not_mem kept] at once
    have fired : d.timer ∈ (firings slot pre).map DueTimer.timer :=
      List.count_pos_iff.1 (Nat.lt_of_lt_of_eq Nat.one_pos (by simpa [firings] using once.symm))
    obtain ⟨e, fired, same⟩ := List.mem_map.1 fired
    have time := due_of_firings fired
    obtain ⟨t, time'⟩ := e
    cases same
    rw [due] at time
    cases time
    exact List.mem_append_left _ fired

/-- A timer that is due by the target gets its turn. -/
theorem AdvancesAlone.exists_turn (advances : AdvancesAlone slot clock delay k x span)
    (run : p.Run w past c) (split : past = before ++ x :: span) {a : Answer}
    (stack : c.stack = .await k :: x.stack) (returns : c.control = .give a)
    (known : d.timer ∈ clock.pending ∨ d.timer ∈ armings slot span)
    (early : d.due ≤ clock.now.addSaturating delay) :
    ∃ pre y post, span = pre ++ y :: post ∧ (d.timer ∈ clock.pending ∨ d.timer ∈ armings slot pre) ∧
      y.IsTurn slot (clock.now.addSaturating delay) (.await k :: x.stack) d := by
  obtain ⟨seen, y, m, report, r, here, control, top, beat, timer, late, _⟩ :=
    advances.exists_last run split stack returns
  refine ⟨seen, y, [], here, known.imp id fun armed => ?_, ⟨r, control, report, top⟩, m, timer, ?_⟩
  · rw [here, armings, beats_append, beats_cons, beat] at armed
    simpa [armings, Beat.arms?, beats] using armed
  · -- nothing that is left is due by the target
    intro u pending due armed sooner
    have after := Clock.next?_eq_none_iff.1 late u pending due armed
    exact Span.not_le.2 after (Clock.le_of_firesBefore sooner early)

/-- While the listeners of a timer run, the clock shows its due time. -/
theorem AdvancesAlone.now_eq_due (advances : AdvancesAlone slot clock delay k x span)
    (run : p.Run w past c) (split : past = before ++ x :: span) {mid : List (Config H)} {z : Config H}
    {t : Span} {m : Clock} (here : span ++ [c] = pre ++ y :: (mid ++ z :: post))
    (beat : y.beat? slot = some (.fires t d))
    (listening : ∀ u ∈ mid, ∀ r,
      ¬u.Picks slot (clock.now.addSaturating delay) (.await k :: x.stack) r)
    (timer : z.world.clock? slot = some m) : m.now = d.due := by
  have there : p.Run w (before ++ x :: pre ++ y :: mid) z := by
    have whole : past ++ [c] = before ++ x :: (span ++ [c]) := by rw [split]; simp
    refine run.earlier ⟨post, ?_⟩
    rw [whole, here]
    simp
  obtain ⟨m₀, timer₀, _⟩ := Config.exists_strikes beat
  obtain ⟨m', timer', leads⟩ := there.clock_leads_between rfl timer₀
  cases timer.symm.trans timer'
  have leads : m₀.Leads ([] ++ .fires t d :: beats slot mid) m := by
    rwa [beats_cons, beat] at leads
  obtain ⟨m₁, _, _, rest⟩ := leads.split
  refine rest.now_eq fun b mem => Option.eq_none_iff_forall_ne_some.2 fun t aims => ?_
  obtain ⟨first, u, more, rfl, beat'⟩ := exists_of_mem_beats mem
  have whole : span ++ [c] = pre ++ y :: first ++ u :: (more ++ z :: post) := by
    rw [here]
    simp
  obtain ⟨rest', inside⟩ := split_of_concat whole (by simp)
  obtain ⟨_, r, picks⟩ := advances.picks run split inside beat' aims
  exact listening u (List.mem_append_right _ (List.mem_cons_self ..)) r picks

/-- Until an advance returns, the clock goes forward, and so it does when that happens. -/
theorem AdvancesAlone.now_le (advances : AdvancesAlone slot clock delay k x span)
    (run : p.Run w past c) (unarmed : w.Unarmed) (split : past = before ++ x :: span) {z : Config H}
    {m m' : Clock} (next : x :: (span ++ [c]) = pre ++ y :: z :: post)
    (timer : y.world.clock? slot = some m) (timer' : z.world.clock? slot = some m') :
    m.now ≤ m'.now := by
  cases pre with
  | nil =>
    -- the call does nothing to the clock
    obtain ⟨rfl, rest⟩ := List.cons.inj next
    obtain ⟨z', later, after, step, _⟩ := run.step_of_split split advances.going
    rw [rest] at after
    cases after
    have begun : p.Run w before x := run.earlier (split ▸ ⟨span ++ [c], by simp⟩)
    have same := p.clock?_of_step begun.grounded step timer
    rw [Config.beat?_of_call advances.call, timer'] at same
    cases same
    exact Span.le_rfl
  | cons first pre =>
    obtain ⟨rfl, rest⟩ := List.cons.inj next
    obtain ⟨post', here⟩ := split_of_concat rest (by simp)
    have reached := AdvancesAlone.reached run split here
    obtain ⟨z', later, after, step⟩ := advances.exists_step run split here
    have same : z' = z := by
      rw [here, List.append_assoc, List.cons_append, after] at rest
      exact (List.cons.inj (List.cons.inj (List.append_cancel_left rest)).2).1
    subst same
    have follows := p.clock?_of_step reached.grounded step timer
    rw [timer', Option.some.injEq] at follows
    subst follows
    cases beat : y.beat? slot with
    | none => exact Span.le_rfl
    | some b =>
      have strikes := Config.strikes_of_beat? timer beat
      cases ends : b.isEnd with
      | false => exact (reached.clock_sound unarmed timer).now_le_after strikes.allows ends
      | true =>
        cases b with
        | reaches t =>
          obtain ⟨rfl, _⟩ := advances.picks run split here beat rfl
          obtain ⟨_, timer'', leads⟩ := advances.clock_at run split here
          cases timer.symm.trans timer''
          refine leads.now_le_target Span.le_addSaturating fun b mem t aims => ?_
          obtain ⟨first, u, more, rfl, beat'⟩ := exists_of_mem_beats mem
          have inside : span = first ++ u :: (more ++ y :: post') := by rw [here]; simp
          exact (advances.picks run split inside beat' aims).1
        | _ => cases ends

end Turns

/-! ## Reports of an advance -/

section Reports

variable {slot : Nat} {target : Span} {base : List (Frame H)} {seen more : List (Config H)}
  {c : Config H} {d : DueTimer} {r report : Report}

/-- A timer fired, and when the next one was picked its dispatch had come to a report. -/
def Dispatched (slot : Nat) (target : Span) (base : List (Frame H)) (span : List (Config H))
    (d : DueTimer) (r : Report) : Prop :=
  ∃ pre y mid z post, span = pre ++ y :: (mid ++ z :: post) ∧
    y.beat? slot = some (.fires target d) ∧ (∀ u ∈ mid, ∀ r, ¬u.Picks slot target base r) ∧
      z.Picks slot target base r

theorem Dispatched.mono (dispatched : Dispatched slot target base seen d r) :
    Dispatched slot target base (seen ++ more) d r := by
  obtain ⟨pre, y, mid, z, post, rfl, fires, listening, picks⟩ := dispatched
  exact ⟨pre, y, mid, z, post ++ more, by simp, fires, listening, picks⟩

theorem eq_of_tops {fs : List (Frame H)} {f g : Frame H} (same : fs ++ f :: base = g :: base) :
    fs = [] ∧ f = g := by
  cases fs with
  | nil => exact ⟨rfl, (List.cons.inj same).1⟩
  | cons _ fs => exact absurd (List.cons.inj same).2 above_ne_base

/-- How the report of an advance is put together. -/
inductive Account (slot : Nat) (target : Span) (base : List (Frame H)) (seen : List (Config H))
    (c : Config H) : Prop where
  /-- The next timer is picked, and the dispatches so far are accounted for. -/
  | even (rs : List Report)
      (done : List.Forall₂ (Dispatched slot target base seen) (firings slot seen) rs)
      (stack : c.stack = .advancing slot target (.total rs) :: base)
      (control : c.control = .give (.report {}))
  /-- The listeners of a timer are being called. -/
  | due (rs : List Report) (ds : List DueTimer) (d : DueTimer) (pre mid : List (Config H))
      (y : Config H) (fs : List (Frame H)) (done : List.Forall₂ (Dispatched slot target base seen) ds rs)
      (split : seen = pre ++ y :: mid) (beat : y.beat? slot = some (.fires target d))
      (listening : ∀ u ∈ mid, ∀ r, ¬u.Picks slot target base r) (fired : firings slot seen = ds ++ [d])
      (stack : c.stack = fs ++ .advancing slot target (.total rs) :: base)
  | closed (rs : List Report)
      (done : List.Forall₂ (Dispatched slot target base seen) (firings slot seen) rs)
      (stack : c.stack = base) (control : c.control = .give (.report (.total rs)))
  | fell (message : String) (stack : c.stack = base) (control : c.control = .panic message)

/-- When the next timer is picked, the dispatches so far are accounted for. -/
theorem Account.settle (account : Account slot target base seen c)
    (control : c.control = .give (.report r)) (stack : c.stack = .advancing slot target report :: base) :
    ∃ rs, report.absorb r = .total rs ∧
      List.Forall₂ (Dispatched slot target base (seen ++ [c])) (firings slot seen) rs := by
  have apart (stack' : c.stack = base) : False :=
    List.cons_ne_self _ _ (stack.symm.trans stack')
  cases account with
  | even rs done stack' control' =>
    cases stack.symm.trans stack'
    cases control.symm.trans control'
    exact ⟨rs, Report.absorb_empty, done.imp fun _ _ => Dispatched.mono⟩
  | due rs ds d pre mid y fs done split beat listening fired stack' =>
    obtain ⟨rfl, same⟩ := eq_of_tops (stack'.symm.trans stack)
    cases same
    refine ⟨rs ++ [r], Report.total_concat.symm, ?_⟩
    rw [fired]
    refine List.rel_append (done.imp fun _ _ => Dispatched.mono) (.cons ?_ .nil)
    exact ⟨pre, y, mid, c, [], by rw [split]; simp, beat, listening, control, _, stack⟩
  | closed rs done stack' => exact (apart stack').elim
  | fell message stack' => exact (apart stack').elim

variable {w : World H} {before past span : List (Config H)} {x : Config H} {clock : Clock}
  {delay : Span} {k : Answer → Script H}

/-- While an advance is under way, its report is made up of those of the dispatches. -/
theorem AdvancesAlone.account (advances : AdvancesAlone slot clock delay k x span)
    (run : p.Run w past c) (split : past = before ++ x :: span) :
    Account slot (clock.now.addSaturating delay) (.await k :: x.stack) span c := by
  refine (run.above_induction split advances.going advances.stays ?_ ?_ ?_
    (P := fun seen c => (∀ y ∈ seen, y ∈ span) ∧
      Account slot (clock.now.addSaturating delay) (.await k :: x.stack) seen c)).2
  · rintro seen c ⟨_, account⟩
    cases account with
    | even rs _ stack => exact ⟨[_], stack⟩
    | due rs ds d pre mid y fs _ _ _ _ _ stack =>
      exact ⟨fs ++ [_], by rw [stack, List.append_assoc]; rfl⟩
    | closed rs _ stack | fell message stack => exact ⟨[], stack⟩
  · intro c first
    cases (p.step_advance advances.timer advances.call).symm.trans first
    exact ⟨List.forall_mem_nil _, .even [] .nil rfl rfl⟩
  · rintro seen c c' run inside step ⟨earlier, account⟩
    have all : ∀ y ∈ seen ++ [c], y ∈ span := fun y mem =>
      (List.mem_append.1 mem).elim (earlier y) fun now => List.mem_singleton.1 now ▸ inside
    refine ⟨all, ?_⟩
    obtain ⟨fs, report, stack, _⟩ := ((advances.within earlier).sole run rfl).resolve_left
      (advances.stays c inside)
    obtain ⟨m, timer, _⟩ := run.clock_leads_between rfl advances.timer
    cases (run.course step).pursues step timer stack with
    | above _ fs' stack busy stack' =>
      have waits : ∀ r, ¬c.Picks slot (clock.now.addSaturating delay) (.await k :: x.stack) r := by
        rintro r ⟨control, _, top⟩
        rcases busy with more | goes
        · exact more (eq_of_tops (stack.symm.trans top)).1
        · rw [control] at goes
          cases goes
      have unfired : (c.beat? slot).bind Beat.fires? = none := by
        refine Option.eq_none_iff_forall_ne_some.2 fun d fires => ?_
        obtain ⟨b, beat, fires⟩ := Option.bind_eq_some_iff.1 fires
        have aims : b.target?.isSome := by cases b <;> first | rfl | cases fires
        obtain ⟨t, aims⟩ := Option.isSome_iff_exists.1 aims
        have whole : before ++ x :: seen ++ [c] = before ++ x :: (seen ++ [c]) := by simp
        obtain ⟨_, r, picks⟩ := (advances.within all).picks (run.step step) whole rfl beat aims
        exact waits r picks
      cases account with
      | even rs done top control => exact absurd ⟨control, _, top⟩ (waits {})
      | due rs ds d pre mid y gs done split beat listening fired under =>
        cases (List.append_inj' (under.symm.trans stack) rfl).2
        refine .due rs ds d pre (mid ++ [c]) y fs' (done.imp fun _ _ => Dispatched.mono)
          (by rw [split]; simp) beat ?_ ?_ stack'
        · intro u mem
          rcases List.mem_append.1 mem with before | now
          · exact listening u before
          · exact List.mem_singleton.1 now ▸ waits
        · rw [firings_concat, unfired, fired, Option.toList_none, List.append_nil]
      | closed rs done under | fell message under => exact absurd under (advances.stays c inside)
    | @fires r d top control beat listeners stack' control' =>
      obtain ⟨rs, sum, done⟩ := account.settle control top
      refine .due rs (firings slot seen) d seen [] c [_] done rfl beat (List.forall_mem_nil _) ?_
        (sum ▸ stack')
      rw [firings_concat, beat]
      rfl
    | @skips r d top control beat stack' control' =>
      obtain ⟨rs, sum, done⟩ := account.settle control top
      refine .even rs ?_ (sum ▸ stack') control'
      rw [firings_concat, beat]
      exact (List.append_nil _).symm ▸ done
    | @reaches r top control beat stack' control' =>
      obtain ⟨rs, sum, done⟩ := account.settle control top
      refine .closed rs ?_ stack' (sum ▸ control')
      rw [firings_concat, beat]
      exact (List.append_nil _).symm ▸ done
    | falls stack' control' => exact .fell _ stack' control'

end Reports

/-! ## All of an advance -/

/-- What an advance of a clock to a target does that was called at `x` and returned at `c`, after `span`
was passed above some frames. -/
structure IsPunctual (p : Program H) (slot : Nat) (clock : Clock) (target : Span)
    (base : List (Frame H)) (x : Config H) (span : List (Config H)) (c : Config H) : Prop where
  /-- Timers fire in the order of their due times, those due together in the order in which they were
  armed. -/
  order : (firings slot span).Pairwise fun d d' =>
    d.due < d'.due ∨ d.due = d'.due ∧ d.timer.number < d'.timer.number
  /-- A timer fires if it was pending or has been armed when it is its turn, is due by the target, and
  its token is not cancelled then; and no other timer fires. -/
  fires_iff {d : DueTimer} : d ∈ firings slot span ↔
    d.timer.due = some d.due ∧ d.due ≤ target ∧ ∃ pre y post, span = pre ++ y :: post ∧
      (d.timer ∈ clock.pending ∨ d.timer ∈ armings slot pre) ∧ y.IsTurn slot target base d ∧
        y.world.isCancelled d.timer.token = false
  /-- Every timer that is due by the target gets its turn. -/
  turn {d : DueTimer} (known : d.timer ∈ clock.pending ∨ d.timer ∈ armings slot span)
    (due : d.timer.due = some d.due) (early : d.due ≤ target) : ∃ pre y post, span = pre ++ y :: post ∧
      (d.timer ∈ clock.pending ∨ d.timer ∈ armings slot pre) ∧ y.IsTurn slot target base d
  /-- When a timer fires, its event is dispatched to those who listen to it, with the milliseconds that
  have passed. -/
  event {pre post : List (Config H)} {y : Config H} {t : Span} {d : DueTimer}
    (here : span = pre ++ y :: post) (beat : y.beat? slot = some (.fires t d)) :
    ∃ source report z, y.world.source? slot = some source ∧ p.step y = some z ∧
      z.control = .give (.result (.ok ())) ∧ z.stack =
        .dispatching ⟨d.timer.kind, .object [("elapsed_ms",
            .int (min (d.due.nanos / 1000000) 18446744073709551615 : Nat))]⟩
          (source.registry.matching d.timer.kind) {} :: .advancing slot target report :: base
  /-- From then on until the next timer is picked, the clock shows the due time of the one that fired. -/
  during {pre mid post : List (Config H)} {y z : Config H} {t : Span} {d : DueTimer} {m : Clock}
    (here : span ++ [c] = pre ++ y :: (mid ++ z :: post)) (beat : y.beat? slot = some (.fires t d))
    (listening : ∀ u ∈ mid, ∀ r, ¬u.Picks slot target base r)
    (timer : z.world.clock? slot = some m) : m.now = d.due
  /-- From one instant to the next the clock does not go back. -/
  forward {pre post : List (Config H)} {y z : Config H} {m m' : Clock}
    (next : x :: (span ++ [c]) = pre ++ y :: z :: post) (timer : y.world.clock? slot = some m)
    (timer' : z.world.clock? slot = some m') : m.now ≤ m'.now
  /-- At the end the clock shows the target, what is pending is due later if ever, and a timer that is
  due later or never is pending as it was, unless its token was cancelled. -/
  arrives : ∃ m, c.world.clock? slot = some m ∧ m.now = target ∧
    (∀ t ∈ m.pending, ∀ due, t.due = some due → target < due) ∧
      ∀ t, t ∈ clock.pending ∨ t ∈ armings slot span →
        (∀ due, t.due = some due → target < due) → c.world.isCancelled t.token = false →
          t ∈ m.pending
  /-- The answer puts the reports of the dispatches together, in the order of the timers. -/
  report : ∃ rs, List.Forall₂ (Dispatched slot target base span) (firings slot span) rs ∧
    c.control = .give (.report (.total rs))

section Whole

variable {w : World H} {before past span : List (Config H)} {x c : Config H} {slot : Nat}
  {clock : Clock} {delay : Span} {k : Answer → Script H}

/-- What is pending when an advance returns is due later than its target, and what is due later is still
pending. -/
theorem AdvancesAlone.pending (advances : AdvancesAlone slot clock delay k x span)
    (run : p.Run w past c) (unarmed : w.Unarmed) (split : past = before ++ x :: span) {a : Answer}
    (stack : c.stack = .await k :: x.stack) (returns : c.control = .give a) :
    ∃ m, c.world.clock? slot = some m ∧ m.now = clock.now.addSaturating delay ∧
      (∀ t ∈ m.pending, ∀ due, t.due = some due → clock.now.addSaturating delay < due) ∧
        ∀ t, t ∈ clock.pending ∨ t ∈ armings slot span →
          (∀ due, t.due = some due → clock.now.addSaturating delay < due) →
            c.world.isCancelled t.token = false → t ∈ m.pending := by
  obtain ⟨_, _, m, _, _, _, _, _, _, _, late, timer, _⟩ := advances.exists_last run split stack returns
  refine ⟨_, timer, rfl, Clock.next?_eq_none_iff.1 late, fun t known later live => ?_⟩
  obtain ⟨_, timer', leads⟩ := run.clock_leads_between split advances.timer
  cases timer.symm.trans timer'
  rw [beats_cons, Config.beat?_of_call advances.call] at leads
  have begun : p.Run w before x := run.earlier (split ▸ ⟨span ++ [c], by simp⟩)
  have once := leads.count (begun.clock_sound unarmed advances.timer) (List.mem_append.2 known)
  have unfired : t ∉ (firings slot span).map DueTimer.timer := by
    intro mem
    obtain ⟨d, fired, rfl⟩ := List.mem_map.1 mem
    obtain ⟨due, early, _⟩ := advances.turn_of_fires run unarmed split fired
    exact Span.not_le.2 (later _ due) early
  have kept : t ∉ drops slot span := by
    intro dropped
    have dropped : t ∈ drops slot past := by
      rw [split, List.append_cons, drops_append]
      exact List.mem_append_right _ dropped
    rw [run.isCancelled_of_dropped unarmed dropped] at live
    cases live
  have unfired := List.count_eq_zero_of_not_mem unfired
  have kept := List.count_eq_zero_of_not_mem kept
  rw [firings] at unfired
  rw [drops] at kept
  rw [Option.toList_none, List.nil_append, unfired, kept] at once
  exact List.count_pos_iff.1 (Nat.lt_of_lt_of_eq Nat.one_pos once.symm)

/-- An advance within which no other one of its clock is called fires exactly what is due, in order. -/
theorem AdvancesAlone.punctual (advances : AdvancesAlone slot clock delay k x span)
    (run : p.Run w past c) (unarmed : w.Unarmed) (split : past = before ++ x :: span) {a : Answer}
    (stack : c.stack = .await k :: x.stack) (returns : c.control = .give a) :
    IsPunctual p slot clock (clock.now.addSaturating delay) (.await k :: x.stack) x span c where
  order := by
    obtain ⟨seen, y, _, _, _, here, _, _, beat, _⟩ := advances.exists_last run split stack returns
    obtain ⟨_, _, leads⟩ := advances.clock_at run split here
    have begun : p.Run w before x := run.earlier (split ▸ ⟨span ++ [c], by simp⟩)
    have ordered := leads.fires_in_order (begun.clock_sound unarmed advances.timer)
      (advances.goes run split here)
    rw [here, firings_concat, beat]
    refine (List.append_nil _).symm ▸ ordered.imp fun first => ?_
    exact Clock.firesBefore_iff.1 first
  fires_iff := by
    refine ⟨advances.turn_of_fires run unarmed split, ?_⟩
    rintro ⟨due, early, pre, y, post, here, known, turn, live⟩
    exact advances.fires_of_turn run unarmed split due early here known turn live
  turn known _ early := advances.exists_turn run split stack returns known early
  event {pre post y t d} here beat := by
    obtain ⟨rfl, _, control, report, top⟩ := advances.picks run split here beat rfl
    obtain ⟨m, timer, strikes⟩ := Config.exists_strikes beat
    obtain ⟨source, found⟩ := World.exists_source timer
    cases strikes with
    | fires _ _ next live =>
      obtain ⟨world, host, ctl, _⟩ := y
      cases control
      cases top
      exact ⟨source, _, _, found, p.step_fires found timer next live, rfl, rfl⟩
  during here beat listening timer := advances.now_eq_due run split here beat listening timer
  forward next timer timer' := advances.now_le run unarmed split next timer timer'
  arrives := advances.pending run unarmed split stack returns
  report := by
    cases advances.account run split with
    | closed rs done _ control => exact ⟨rs, done, control⟩
    | even rs _ top => exact absurd (top.symm.trans stack) (List.cons_ne_self _ _)
    | due rs ds d pre mid y fs _ _ _ _ _ under =>
      exact absurd (under.symm.trans stack) above_ne_base
    | fell message _ control =>
      rw [returns] at control
      cases control

end Whole

namespace Alarm

/-- The alarm rings after ten milliseconds and after fifteen, but not after thirty. -/
theorem punctual_snoozed : ∃ clock k,
    AdvancesAlone 0 clock (.ofMillis 20) k (program.run 8 (start snoozed))
      (program.trail 9 (program.run 9 (start snoozed))) ∧
    (firings 0 (program.trail 9 (program.run 9 (start snoozed)))).map (fun d => d.timer.kind) =
      ["ring", "snooze"] ∧
    IsPunctual program 0 clock (clock.now.addSaturating (.ofMillis 20)) [.await k]
      (program.run 8 (start snoozed)) (program.trail 9 (program.run 9 (start snoozed)))
      (program.run 18 (start snoozed)) := by
  have split : program.trail 18 (start snoozed) = program.trail 8 (start snoozed) ++
      program.run 8 (start snoozed) :: program.trail 9 (program.run 9 (start snoozed)) := rfl
  have taller : ∀ y ∈ program.trail 9 (program.run 9 (start snoozed)), y.stack.length ≠ 1 := by
    decide
  have alone : ∀ y ∈ program.trail 9 (program.run 9 (start snoozed)), y.calls? 0 = none := by
    decide
  have advances : AdvancesAlone 0 _ (.ofMillis 20) _ (program.run 8 (start snoozed))
      (program.trail 9 (program.run 9 (start snoozed))) :=
    ⟨rfl, rfl, fun y mem same => taller y mem (congrArg List.length same), alone⟩
  exact ⟨_, _, advances, by decide,
    advances.punctual (run snoozed 18) world_unarmed split rfl rfl⟩

end Alarm

end ScopedMachine

import ScopedMachine.Proofs.Advances

/-!
# Where a clock goes back

An advance fixes its target when it is called, and when it ends the clock is set to the target. In
between the clock goes forward only. So it can go back in one way: an advance is called within another
one of the same clock and has a later target; then the clock goes back when the outer one ends. A run
in which no advance overtakes another one never turns the clock back.
-/

namespace ScopedMachine

variable {H : Type} {p : Program H}

/-- The next step calls an advance whose target is later than that of one that is under way. -/
def Config.overtakes (slot : Nat) (c : Config H) : Bool :=
  (c.calls? slot).any fun target => (c.targets slot).any fun outer => outer < target

/-- The targets of a clock are in order: an advance within another one does not go further, and the
clock shows no later time than they. -/
structure Config.Paced (slot : Nat) (clock : Clock) (c : Config H) : Prop where
  sorted : (c.targets slot).Pairwise fun inner outer => inner ≤ outer
  ahead {target : Span} (underWay : target ∈ c.targets slot) : clock.now ≤ target

section Step

variable {slot : Nat} {c c' : Config H} {clock : Clock} {b : Beat}

/-- A target that a clock is moved to is not beyond any of those under way. -/
theorem Config.Paced.now_after (paced : c.Paced slot clock) (strikes : c.Strikes slot clock b)
    {target : Span} (underWay : target ∈ c.targets slot) : (clock.after b).now ≤ target := by
  -- the innermost target is the first one
  have first {inner : Span} {report : Report} {rest : List (Frame H)}
      (stack : c.stack = .advancing slot inner report :: rest) : inner ≤ target := by
    have targets := Config.targets_of_top stack
    have sorted := paced.sorted
    rw [targets] at sorted underWay
    rcases List.mem_cons.1 underWay with here | below
    · rw [here]
      exact Span.le_rfl
    · exact (List.pairwise_cons.1 sorted).1 target below
  cases strikes with
  | arms | disarms => exact paced.ahead underWay
  | fires _ stack next | skips _ stack next =>
    exact Span.le_trans (Clock.next?_spec next).2.2.1 (first stack)
  | reaches _ stack => exact first stack

/-- To call an advance does nothing to the clock yet. -/
theorem Config.beat?_of_call {i : Nat} {span : Span} {k : Answer → Script H}
    (call : c.control = .run (.call (.advance i span) k)) : c.beat? slot = none := by
  refine Config.beat?_of_still fun ticks => ?_
  cases ticks with
  | arms control | disarms control | advances control =>
    rw [call] at control
    cases control

theorem Config.Paced.step (paced : c.Paced slot clock)
    (step : p.step c = some c') (timer : c.world.clock? slot = some clock)
    (never : c.overtakes slot = false) :
    c'.Paced slot ((c.beat? slot).elim clock clock.after) := by
  -- no target is passed by the clock
  have passes {target : Span} (underWay : target ∈ c.targets slot) :
      ((c.beat? slot).elim clock clock.after).now ≤ target := by
    cases beat : c.beat? slot with
    | none => exact paced.ahead underWay
    | some b => exact paced.now_after (Config.strikes_of_beat? timer beat) underWay
  cases (p.paces_of_step step).aims timer with
  | same targets =>
    exact ⟨targets ▸ paced.sorted, fun underWay => passes (targets ▸ underWay)⟩
  | @begin target calls targets =>
    have within (outer) (underWay : outer ∈ c.targets slot) : target ≤ outer := by
      refine Span.not_lt.1 fun less => ?_
      rw [Config.overtakes, calls, Option.any_some, List.any_eq_false] at never
      exact never outer underWay (by simpa using less)
    refine ⟨targets ▸ List.pairwise_cons.2 ⟨within, paced.sorted⟩, fun {outer} underWay => ?_⟩
    rw [targets] at underWay
    rcases List.mem_cons.1 underWay with rfl | before
    · obtain ⟨span, k, call, rfl⟩ := Config.exists_of_calls? timer calls
      rw [Config.beat?_of_call call]
      exact Span.le_addSaturating
    · exact passes before
  | finish targets =>
    have kept : (_ :: c'.targets slot).Pairwise _ := targets ▸ paced.sorted
    exact ⟨(List.pairwise_cons.1 kept).2, fun underWay =>
      passes (targets ▸ List.mem_cons_of_mem _ underWay)⟩

end Step

/-! ## Runs -/

namespace Program.Run

variable {w : World H} {before past since : List (Config H)} {x c c' : Config H} {slot : Nat}
  {clock clock' : Clock}

theorem paced (run : p.Run w past c) (never : ∀ y ∈ past, y.overtakes slot = false)
    (timer : c.world.clock? slot = some clock) : c.Paced slot clock := by
  induction run generalizing clock with
  | begin => exact ⟨.nil, fun underWay => absurd underWay List.not_mem_nil⟩
  | @step past c c' run step ih =>
    cases there : c.world.clock? slot with
    | none =>
      rw [(run.move step).clock?_eq_none there] at timer
      cases timer
    | some old =>
      have earlier := ih (fun y mem => never y (List.mem_append_left _ mem)) there
      have last := never c (List.mem_append_right _ (List.mem_singleton_self c))
      have paced := earlier.step step there last
      rw [p.clock?_of_step run.grounded step there, Option.some.injEq] at timer
      exact timer ▸ paced
  | resume run ended host s ih =>
    have earlier := ih (fun y mem => never y (List.mem_append_left _ mem)) timer
    exact ⟨earlier.sorted, earlier.ahead⟩

/-- A step moves a clock forward, or an advance ends whose target the clock has passed. -/
theorem now_le_of_step (run : p.Run w past c) (unarmed : w.Unarmed) (step : p.step c = some c')
    (timer : c.world.clock? slot = some clock) (timer' : c'.world.clock? slot = some clock') :
    clock.now ≤ clock'.now ∨ ∃ target report r base, c.stack = .advancing slot target report :: base ∧
      c.control = .give (.report r) ∧ clock'.now = target ∧ target < clock.now := by
  rw [p.clock?_of_step run.grounded step timer, Option.some.injEq] at timer'
  subst timer'
  cases beat : c.beat? slot with
  | none => exact .inl Span.le_rfl
  | some b =>
    have strikes := Config.strikes_of_beat? timer beat
    cases ends : b.isEnd with
    | false => exact .inl ((run.clock_sound unarmed timer).now_le_after strikes.allows ends)
    | true =>
      cases strikes with
      | @reaches target report r rest control stack =>
        by_cases passed : clock.now ≤ target
        · exact .inl passed
        · exact .inr ⟨target, report, r, rest, stack, control, rfl, Span.not_le.1 passed⟩
      | _ => cases ends

/-- As long as no advance overtakes another one, a clock goes forward. -/
theorem now_le (run : p.Run w past c) (unarmed : w.Unarmed)
    (never : ∀ y ∈ past, y.overtakes slot = false) (passed : before ++ [x] <+: past ++ [c])
    (timer : x.world.clock? slot = some clock) (timer' : c.world.clock? slot = some clock') :
    clock.now ≤ clock'.now := by
  let P (past : List (Config H)) (c : Config H) : Prop :=
    (∀ y ∈ past, y.overtakes slot = false) →
      ∃ clock', c.world.clock? slot = some clock' ∧ clock.now ≤ clock'.now
  have go : P past c := by
    refine run.since passed (fun _ => ⟨clock, timer, Span.le_rfl⟩) ?_ ?_
    · intro past c c' run step ih never
      obtain ⟨old, there, le⟩ := ih fun y mem => never y (List.mem_append_left _ mem)
      have there' := p.clock?_of_step run.grounded step there
      refine ⟨_, there', Span.le_trans le ?_⟩
      rcases run.now_le_of_step unarmed step there there' with forward |
        ⟨target, report, r, base, stack, _, _, passed⟩
      · exact forward
      · -- an advance that is under way has not been overtaken
        have paced := run.paced (fun y mem => never y (List.mem_append_left _ mem)) there
        have underWay : target ∈ c.targets slot :=
          Config.targets_of_top stack ▸ List.mem_cons_self ..
        exact absurd (paced.ahead underWay) (Span.not_le.2 passed)
    · intro past c run ended host s ih never
      exact ih fun y mem => never y (List.mem_append_left _ mem)
  obtain ⟨last, there, le⟩ := go never
  cases timer'.symm.trans there
  exact le

end Program.Run

/-- How the clock of a timer goes in a run. -/
structure KeepsTime (slot : Nat) (past : List (Config H)) (c : Config H) : Prop where
  /-- From one instant to the next the clock goes forward, or an advance ends that was overtaken by
  one within it, and the clock goes back to the target of the one that ends. -/
  step {pre post : List (Config H)} {y z : Config H} {clock clock' : Clock}
    (next : past ++ [c] = pre ++ y :: z :: post) (timer : y.world.clock? slot = some clock)
    (timer' : z.world.clock? slot = some clock') :
    clock.now ≤ clock'.now ∨ (clock'.now < clock.now ∧ (∃ u ∈ pre, u.overtakes slot) ∧
      ∃ report r base, y.stack = .advancing slot clock'.now report :: base ∧
        y.control = .give (.report r))
  /-- When an advance returns, the clock shows the time of the call and the delay added up, or the
  longest span, whatever the clock showed meanwhile. -/
  returns {before span : List (Config H)} {x : Config H} {clock : Clock} {delay : Span}
    {k : Answer → Script H} {a : Answer} (split : past = before ++ x :: span)
    (timer : x.world.clock? slot = some clock)
    (call : x.control = .run (.call (.advance slot delay) k))
    (stays : ∀ y ∈ span, y.stack ≠ .await k :: x.stack) (stack : c.stack = .await k :: x.stack)
    (returns : c.control = .give a) :
    ∃ clock', c.world.clock? slot = some clock' ∧
      clock'.now.nanos = min (clock.now.nanos + delay.nanos) Span.maxNanos
  /-- As long as no advance overtakes another one, the clock never goes back. -/
  forward {before : List (Config H)} {x : Config H} {clock clock' : Clock}
    (never : ∀ y ∈ past, y.overtakes slot = false) (passed : before ++ [x] <+: past ++ [c])
    (timer : x.world.clock? slot = some clock) (timer' : c.world.clock? slot = some clock') :
    clock.now ≤ clock'.now
  /-- So a timer that is armed now with some delay is not due before one that was armed earlier with
  the same delay. -/
  order {before : List (Config H)} {x : Config H} {clock clock' : Clock} {delay : Span}
    (never : ∀ y ∈ past, y.overtakes slot = false) (passed : before ++ [x] <+: past ++ [c])
    (timer : x.world.clock? slot = some clock) (timer' : c.world.clock? slot = some clock')
    {kind kind' : String} {token token' : ScopeId} {due' : Span}
    (later : (clock'.made kind' delay token').due = some due') :
    ∃ due, (clock.made kind delay token).due = some due ∧ due ≤ due'

/-- A clock goes forward, but for the end of an advance that was overtaken. -/
theorem Program.Run.keeps_time {w : World H} {past : List (Config H)} {c : Config H} {slot : Nat}
    (run : p.Run w past c) (unarmed : w.Unarmed) : KeepsTime slot past c where
  step {pre post y z clock clock'} next timer timer' := by
    have here : p.Run w pre y := run.earlier (next ▸ ⟨z :: post, by simp⟩)
    have there : p.Run w (pre ++ [y]) z := run.earlier (next ▸ ⟨post, by simp⟩)
    generalize whole : pre ++ [y] = passed at there
    cases there with
    | begin => simp at whole
    | resume =>
      obtain ⟨rfl, same⟩ := List.append_inj' whole rfl
      cases same
      cases timer.symm.trans timer'
      exact .inl Span.le_rfl
    | step _ step =>
      obtain ⟨rfl, same⟩ := List.append_inj' whole rfl
      cases same
      rcases here.now_le_of_step unarmed step timer timer' with forward |
        ⟨target, report, r, base, stack, control, shows, passed⟩
      · exact .inl forward
      · subst shows
        refine .inr ⟨passed, ?_, report, r, base, stack, control⟩
        by_contra none
        -- without another advance the clock would not have passed the target
        have never : ∀ u ∈ pre, u.overtakes slot = false := fun u mem =>
          Bool.eq_false_iff.2 fun overtakes => none ⟨u, mem, overtakes⟩
        have underWay := Config.targets_of_top stack ▸ List.mem_cons_self ..
        exact Span.not_le.2 passed ((here.paced never timer).ahead underWay)
  returns split timer call stays stack returns := by
    obtain ⟨clock', timer', now, _⟩ := run.arrives split timer call stays stack returns
    exact ⟨clock', timer', by rw [now, Span.nanos_addSaturating]⟩
  forward never passed timer timer' := run.now_le unarmed never passed timer timer'
  order {before x clock clock' delay} never passed timer timer' {kind kind' token token' due'} later := by
    have le := run.now_le unarmed never passed timer timer'
    have sum : due'.nanos = clock'.now.nanos + delay.nanos := Span.add?_eq_some_iff.1 later
    have fits := due'.le_max
    rw [Span.le_iff] at le
    cases due : clock.now.add? delay with
    | none =>
      have long := Span.add?_eq_none_iff.1 due
      omega
    | some first =>
      refine ⟨first, due, ?_⟩
      rw [Span.le_iff, Span.add?_eq_some_iff.1 due]
      omega

namespace Alarm

/-- When the alarm rings, somebody advances the clock further than the advance that made it ring. -/
def overtaken : Script Unit :=
  .call (.newScope none) fun
    | .scope s =>
      .call (.listen 0 "ring" (fun _ => .call (.advance 0 (.ofMillis 100)) fun _ => .ok) s) fun _ =>
        .call (.arm 0 "ring" (.ofMillis 5) s) fun _ =>
          .call (.advance 0 (.ofMillis 10)) fun _ => .ok
    | _ => .ok

theorem keeps_time_overtaken : world.Unarmed ∧
    KeepsTime 0 (program.trail 15 (start overtaken)) (program.run 15 (start overtaken)) :=
  ⟨world_unarmed, (run overtaken 15).keeps_time world_unarmed⟩

/-- The clock shows 105 milliseconds while the alarm rings, and 10 milliseconds later on. -/
theorem turns_back : ∃ before x past c clock clock', program.Run world past c ∧
    before ++ [x] <+: past ++ [c] ∧ x.world.clock? 0 = some clock ∧
      c.world.clock? 0 = some clock' ∧ clock'.now < clock.now := by
  refine ⟨program.trail 12 (start overtaken), program.run 12 (start overtaken), _, _, _, _,
    run overtaken 15, program.trail_prefix 12 3 _, rfl, rfl, ?_⟩
  decide

end Alarm

end ScopedMachine

import ScopedMachine.Proofs.Advances
import ScopedMachine.Proofs.Teardowns

/-!
# The fate of a timer

A timer that is armed stays on its clock until it fires or is dropped, and it is dropped only because
its token was cancelled: by the teardown that hangs off the scope of the token, or when its turn comes.
So at every instant it has one of three fates, whatever listeners and teardowns do meanwhile.
-/

namespace ScopedMachine

variable {H : Type} {p : Program H}

/-! ## Tokens -/

namespace Program.Run

variable {w : World H} {past : List (Config H)} {y c : Config H} {slot : Nat} {clock : Clock}
  {s : ScopeId} {t : Timer} {d : DueTimer} {b : Beat}

/-- A scope that was released stays released. -/
theorem released_since (run : p.Run w past c) (passed : y ∈ past) {owner : Option MachineId}
    (released : y.world.header? s = some (true, owner)) : c.world.header? s = some (true, owner) := by
  induction run with
  | begin => cases passed
  | step run h ih =>
    rcases List.mem_append.1 passed with earlier | now
    · exact (run.move h).scopes.header (ih earlier)
    · rw [List.mem_singleton.1 now] at released
      exact (run.move h).scopes.header released
  | resume run ended host t ih =>
    rcases List.mem_append.1 passed with earlier | now
    · exact ih earlier
    · rw [List.mem_singleton.1 now] at released
      exact released

/-- What was armed was armed by a call with a token that was not cancelled. -/
theorem exists_of_armed (armed : t ∈ armings slot past) :
    ∃ y ∈ past, y.beat? slot = some (.arms t) ∧ y.world.isCancelled t.token = false := by
  obtain ⟨b, mem, arms⟩ := List.mem_filterMap.1 armed
  cases b with
  | arms u =>
    cases arms
    obtain ⟨before, y, after, rfl, beat⟩ := exists_of_mem_beats mem
    obtain ⟨clock, _, strikes⟩ := Config.exists_strikes beat
    cases strikes with
    | arms control live =>
      exact ⟨y, List.mem_append_right _ (List.mem_cons_self ..), beat, live⟩
  | _ => cases arms

/-- The token of a timer that was armed is that of a scope. -/
theorem header?_of_armed (run : p.Run w past c) (armed : t ∈ armings slot past) :
    ∃ released owner, c.world.header? t.token = some (released, owner) := by
  obtain ⟨y, passed, _, live⟩ := exists_of_armed armed
  obtain ⟨owner, live⟩ := World.isCancelled_eq_false_iff.1 live
  obtain ⟨released, known⟩ := run.owner passed ⟨_, live⟩
  exact ⟨released, owner, known⟩

/-- A timer that is on its clock was armed. -/
theorem armed_of_pending (run : p.Run w past c) (unarmed : w.Unarmed)
    (timer : c.world.clock? slot = some clock) (pending : t ∈ clock.pending) :
    t ∈ armings slot past := by
  obtain ⟨first, there, leads⟩ := run.clock_leads timer
  have none := unarmed slot first there
  have known := leads.known (.of_unarmed none) pending
  rwa [none, List.nil_append] at known

/-- A timer that was armed is pending, or it fired, or it was dropped; it is so once. -/
theorem count_fates (run : p.Run w past c) (unarmed : w.Unarmed)
    (timer : c.world.clock? slot = some clock) (armed : t ∈ armings slot past) :
    clock.pending.count t + ((firings slot past).map DueTimer.timer).count t +
      (drops slot past).count t = 1 := by
  obtain ⟨first, there, leads⟩ := run.clock_leads timer
  exact leads.count (.of_unarmed (unarmed slot first there)) (List.mem_append_right _ armed)

/-- The token of a timer that was dropped is cancelled for good. -/
theorem isCancelled_of_dropped (run : p.Run w past c) (unarmed : w.Unarmed)
    (dropped : t ∈ drops slot past) : c.world.isCancelled t.token := by
  obtain ⟨b, mem, drops⟩ := List.mem_filterMap.1 dropped
  obtain ⟨before, y, after, rfl, beat⟩ := exists_of_mem_beats mem
  have here : p.Run w before y := run.earlier ⟨after ++ [c], by simp⟩
  obtain ⟨clock, timer, strikes⟩ := Config.exists_strikes beat
  have pending : t ∈ clock.pending := by
    cases strikes with
    | skips _ _ next => cases drops; exact (Clock.next?_spec next).1
    | disarms _ _ pending => cases drops; exact pending
    | _ => cases drops
  obtain ⟨released, owner, known⟩ := here.header?_of_armed (here.armed_of_pending unarmed timer pending)
  have cancelled := here.isCancelled_of_drops unarmed beat drops
  rw [World.isCancelled_iff] at cancelled ⊢
  cases released with
  | false => exact absurd known (cancelled owner)
  | true =>
    have passed : y ∈ before ++ y :: after := List.mem_append_right _ (List.mem_cons_self ..)
    rw [run.released_since passed known]
    simp

/-- As long as the token of a timer is not cancelled, its scope is to take it off the clock. -/
theorem hung_of_armed (run : p.Run w past c) (armed : t ∈ armings slot past)
    (live : c.world.isCancelled t.token = false) :
    .disarm slot t.number ∈ c.world.teardowns t.token := by
  induction run with
  | begin => cases armed
  | @step past c c' run step ih =>
    have unreleased (owner) : c'.world.header? t.token ≠ some (true, owner) := by
      intro released
      obtain ⟨owner', live⟩ := World.isCancelled_eq_false_iff.1 live
      rw [released] at live
      cases live
    rw [armings, beats_concat, List.filterMap_append, List.mem_append] at armed
    rcases armed with earlier | now
    · have before : c.world.isCancelled t.token = false := by
        obtain ⟨released, owner, known⟩ := run.header?_of_armed earlier
        cases released with
        | false => exact World.isCancelled_eq_false_iff.2 ⟨owner, known⟩
        | true => exact absurd ((run.move step).scopes.header known) (unreleased owner)
      exact ((run.move step).prefix_teardowns unreleased).subset (ih earlier before)
    · obtain ⟨b, mem, arms⟩ := List.mem_filterMap.1 now
      obtain ⟨clock, timer, strikes⟩ := Config.exists_strikes (Option.mem_toList.1 mem)
      cases strikes with
      | arms control known =>
        cases arms
        obtain ⟨world, host, ctl, stack⟩ := c
        cases control
        cases step
        exact World.hung_of_arm timer known
      | _ => cases arms
  | resume run ended host s ih =>
    rw [armings, beats_concat, Config.beat?_of_isOver ended, Option.toList_none,
      List.append_nil] at armed
    exact ih armed live

/-- A clock on which something was armed is still there. -/
theorem exists_clock (run : p.Run w past c) (armed : t ∈ armings slot past) :
    ∃ clock, c.world.clock? slot = some clock := by
  obtain ⟨y, passed, beat, _⟩ := exists_of_armed armed
  obtain ⟨before, after, split⟩ := List.append_of_mem passed
  obtain ⟨clock, timer, _⟩ := Config.exists_strikes beat
  obtain ⟨clock', timer', _⟩ := run.clock_leads_between split timer
  exact ⟨clock', timer'⟩

end Program.Run

/-- A timer fired or was dropped. -/
def Gone (slot : Nat) (t : Timer) (past : List (Config H)) : Prop :=
  (∃ d ∈ firings slot past, d.timer = t) ∨ t ∈ drops slot past

theorem Gone.mono {slot : Nat} {t : Timer} {past more : List (Config H)} (gone : Gone slot t past) :
    Gone slot t (past ++ more) := by
  rw [Gone, firings_append, drops_append]
  rcases gone with ⟨d, fired, same⟩ | dropped
  · exact .inl ⟨d, List.mem_append_left _ fired, same⟩
  · exact .inr (List.mem_append_left _ dropped)

namespace Program.Run

variable {w : World H} {past : List (Config H)} {b c : Config H} {slot : Nat} {clock : Clock}
  {t : Timer}

/-- What was armed is pending until it is gone. -/
theorem gone_iff (run : p.Run w past c) (unarmed : w.Unarmed)
    (timer : c.world.clock? slot = some clock) (armed : t ∈ armings slot past) :
    Gone slot t past ↔ t ∉ clock.pending := by
  have once := run.count_fates unarmed timer armed
  have fired : (∃ d ∈ firings slot past, d.timer = t) ↔
      0 < ((firings slot past).map DueTimer.timer).count t := by
    rw [List.count_pos_iff, List.mem_map]
  rw [Gone, fired, ← List.count_pos_iff (a := t), ← List.count_eq_zero (a := t)]
  omega

/-- A timer whose scope is released was armed before the release began. -/
theorem armed_before_release {pre post : List (Config H)} (run : p.Run w past c)
    (split : past = pre ++ b :: post) (armed : t ∈ armings slot past)
    (frees : b.frees? = some t.token) : t ∈ armings slot pre := by
  subst split
  rw [armings_append] at armed
  refine (List.mem_append.1 armed).resolve_right fun later => ?_
  obtain ⟨y, passed, beat, alive⟩ := exists_of_armed later
  rcases List.mem_cons.1 passed with rfl | passed
  · -- the step that begins the release arms nothing
    obtain ⟨control, _⟩ := Config.frees?_eq_some_iff.1 frees
    obtain ⟨_, _, strikes⟩ := Config.exists_strikes beat
    cases strikes with
    | arms call =>
      rw [control] at call
      cases call
  · -- from then on the token is cancelled
    obtain ⟨seen, left, rfl⟩ := List.append_of_mem passed
    have here : p.Run w (pre ++ b :: seen) y := run.earlier ⟨left ++ [c], by simp⟩
    have freed : t.token ∈ (pre ++ b :: seen).filterMap Config.frees? :=
      List.mem_filterMap.2 ⟨b, by simp, frees⟩
    obtain ⟨owner, released⟩ := here.header?_of_freed freed
    obtain ⟨owner', alive⟩ := World.isCancelled_eq_false_iff.1 alive
    rw [released] at alive
    cases alive

/-- Once the release of its scope was carried through, a timer is gone. -/
theorem gone_of_carriedThrough {pre mid rest : List (Config H)} (run : p.Run w past c)
    (unarmed : w.Unarmed) (armed : t ∈ armings slot past) (split : past = pre ++ b :: (mid ++ rest))
    (frees : b.frees? = some t.token) (through : CarriedThrough t.token b mid) :
    Gone slot t past := by
  subst split
  have begins : p.Run w pre b := run.earlier ⟨mid ++ rest ++ [c], by simp⟩
  obtain ⟨control, live⟩ := Config.frees?_eq_some_iff.1 frees
  have before := run.armed_before_release rfl armed frees
  obtain ⟨us, ts, all⟩ := List.append_of_mem (begins.hung_of_armed before live)
  obtain ⟨y, passed, stack, a, answer⟩ := through.turns ⟨us, all.symm⟩
  obtain ⟨seen, left, rfl⟩ := List.append_of_mem passed
  have turn : p.Run w (pre ++ b :: seen) y := run.earlier ⟨left ++ rest ++ [c], by simp⟩
  have known : t ∈ armings slot (pre ++ b :: seen) :=
    armings_append ▸ List.mem_append_left _ before
  obtain ⟨clock, timer⟩ := turn.exists_clock known
  have whole : pre ++ b :: (seen ++ y :: left ++ rest) = pre ++ b :: seen ++ (y :: (left ++ rest)) := by
    simp
  rw [whole]
  by_cases pending : t ∈ clock.pending
  · have beat := Config.beat?_disarms timer (turn.clock_sound unarmed timer) answer stack pending
    exact .inr (mem_drops (List.mem_append_right _ (List.mem_cons_self ..)) beat rfl)
  · exact ((turn.gone_iff unarmed timer known).2 pending).mono

end Program.Run

/-! ## Fates -/

/-- What becomes of a timer that was armed with a delay, by a call that found its token not cancelled
and the clock as `clock`. -/
structure OneFate (slot : Nat) (clock : Clock) (delay : Span) (t : Timer) (past : List (Config H))
    (c : Config H) : Prop where
  /-- It is pending, or it fired, or it was dropped: one of these, and that once. -/
  one : ∃ clock', c.world.clock? slot = some clock' ∧
    clock'.pending.count t + ((firings slot past).map DueTimer.timer).count t +
      (drops slot past).count t = 1
  /-- It fires at its due time, in an advance that was called with a target no earlier than that, and
  its token is not cancelled then. -/
  fires {pre post : List (Config H)} {y : Config H} {target : Span} {d : DueTimer}
    (split : past = pre ++ y :: post) (beat : y.beat? slot = some (.fires target d))
    (same : d.timer = t) :
    t.due = some d.due ∧ d.due ≤ target ∧ y.world.isCancelled t.token = false ∧
      ∃ x ∈ pre, x.calls? slot = some target
  /-- It is dropped only when its token is cancelled, and by the release of no other scope. -/
  drops {pre post : List (Config H)} {y : Config H} {b : Beat} (split : past = pre ++ y :: post)
    (beat : y.beat? slot = some b) (dropped : b.drops? = some t) :
    y.world.isCancelled t.token ∧ ∀ s ts base, y.stack = .releasing s ts :: base → s = t.token
  /-- Once the release of its scope is over, it is not pending. -/
  released {pre mid rest : List (Config H)} {b : Config H} {clock' : Clock}
    (split : past = pre ++ b :: (mid ++ rest)) (frees : b.frees? = some t.token)
    (through : CarriedThrough t.token b mid) (timer : c.world.clock? slot = some clock') :
    t ∉ clock'.pending
  /-- It is due when the delay has passed, if the clock goes so far. -/
  due : clock.now.nanos + delay.nanos ≤ Span.maxNanos →
    ∃ due, t.due = some due ∧ due.nanos = clock.now.nanos + delay.nanos
  /-- Once an advance has reached its due time, it has fired, unless its token was cancelled before. -/
  reached {pre post : List (Config H)} {y : Config H} {target due : Span}
    (split : past = pre ++ y :: post) (armed : t ∈ armings slot pre)
    (beat : y.beat? slot = some (.reaches target)) (time : t.due = some due) (passed : due ≤ target)
    (live : y.world.isCancelled t.token = false) : ∃ d ∈ firings slot pre, d.timer = t
  /-- If the clock does not go so far it never fires, and it stays until its token is cancelled. -/
  never : Span.maxNanos < clock.now.nanos + delay.nanos →
    t.due = none ∧ (∀ d ∈ firings slot past, d.timer ≠ t) ∧
      (c.world.isCancelled t.token = false →
        ∃ clock', c.world.clock? slot = some clock' ∧ t ∈ clock'.pending)

section Fate

variable {w : World H} {before after past : List (Config H)} {x c : Config H} {slot : Nat}
  {clock : Clock} {kind : String} {delay : Span} {token : ScopeId} {k : Answer → Script H} {t : Timer}

/-- A timer fires at its due time. -/
theorem due_of_firings {d : DueTimer} (fired : d ∈ firings slot past) :
    d.timer.due = some d.due := by
  obtain ⟨b, mem, fires⟩ := List.mem_filterMap.1 fired
  obtain ⟨pre, y, post, rfl, beat⟩ := exists_of_mem_beats mem
  obtain ⟨clock, _, strikes⟩ := Config.exists_strikes beat
  cases strikes with
  | fires _ _ next => cases fires; exact (Clock.next?_spec next).2.1
  | _ => cases fires

theorem Program.Run.fate_of_armed (run : p.Run w past c) (unarmed : w.Unarmed)
    (armed : t ∈ armings slot past) (made : t.due = clock.now.add? delay) :
    OneFate slot clock delay t past c where
  one := by
    obtain ⟨clock', timer⟩ := run.exists_clock armed
    exact ⟨clock', timer, run.count_fates unarmed timer armed⟩
  fires {pre post y target d} split beat same := by
    subst same
    have here : p.Run w pre y := run.earlier (split ▸ ⟨post ++ [c], by simp⟩)
    obtain ⟨clock, timer, strikes⟩ := Config.exists_strikes beat
    cases strikes with
    | fires _ stack next live =>
      obtain ⟨_, due, early, _⟩ := Clock.next?_spec next
      refine ⟨due, early, live, here.called timer ?_⟩
      rw [Config.targets_of_top stack]
      exact List.mem_cons_self ..
  drops {pre post y b} split beat dropped := by
    have here : p.Run w pre y := run.earlier (split ▸ ⟨post ++ [c], by simp⟩)
    refine ⟨here.isCancelled_of_drops unarmed beat dropped, fun s ts base top => ?_⟩
    cases b with
    | disarms u =>
      cases dropped
      obtain ⟨us, rest, stack⟩ := here.disarms unarmed beat
      cases stack.symm.trans top
      rfl
    | skips target d =>
      obtain ⟨_, _, strikes⟩ := Config.exists_strikes beat
      cases strikes with
      | skips _ stack => cases stack.symm.trans top
    | _ => cases dropped
  released split frees through timer := by
    have gone := run.gone_of_carriedThrough unarmed armed split frees through
    exact (run.gone_iff unarmed timer armed).1 gone
  due fits := by
    cases due : clock.now.add? delay with
    | none =>
      have long := Span.add?_eq_none_iff.1 due
      omega
    | some sum => exact ⟨sum, made.trans due, Span.add?_eq_some_iff.1 due⟩
  reached {pre post y target due} split armed beat time passed live := by
    have here : p.Run w pre y := run.earlier (split ▸ ⟨post ++ [c], by simp⟩)
    obtain ⟨m, timer, strikes⟩ := Config.exists_strikes beat
    cases strikes with
    | reaches _ _ late =>
      -- nothing that is due is left on the clock
      have past : t ∉ m.pending := fun pending =>
        Span.not_le.2 (Clock.next?_eq_none_iff.1 late t pending due time) passed
      rcases (here.gone_iff unarmed timer armed).2 past with fired | dropped
      · exact fired
      · rw [here.isCancelled_of_dropped unarmed dropped] at live
        cases live
  never long := by
    have none : t.due = none := made.trans (Span.add?_eq_none_iff.2 long)
    have unfired : ∀ d ∈ firings slot past, d.timer ≠ t := by
      rintro d fired rfl
      rw [due_of_firings fired] at none
      cases none
    refine ⟨none, unfired, fun live => ?_⟩
    obtain ⟨clock', timer⟩ := run.exists_clock armed
    refine ⟨clock', timer, Classical.not_not.1 fun missing => ?_⟩
    rcases (run.gone_iff unarmed timer armed).2 missing with ⟨d, fired, same⟩ | dropped
    · exact unfired d fired same
    · rw [run.isCancelled_of_dropped unarmed dropped] at live
      cases live

/-- A timer that is armed with a token is put on the clock and has one fate; with a cancelled token
nothing is armed. -/
theorem Program.Run.one_fate (run : p.Run w past c) (unarmed : w.Unarmed)
    (split : past = before ++ x :: after) (timer : x.world.clock? slot = some clock)
    (call : x.control = .run (.call (.arm slot kind delay token) k)) :
    (x.world.isCancelled token →
      p.step x = some ⟨x.world, x.host, .give .unit, .await k :: x.stack⟩) ∧
    (x.world.isCancelled token = false →
      (∃ y, p.step x = some y ∧ y.world.clock? slot = some (clock.arm kind delay token)) ∧
        OneFate slot clock delay (clock.made kind delay token) past c) := by
  constructor
  · intro cancelled
    obtain ⟨world, host, ctl, stack⟩ := x
    cases call
    obtain ⟨source, found⟩ := World.exists_source timer
    have cancelled : world.isCancelled token = true := cancelled
    have found : world.source? slot = some source := found
    simp only [Program.step, Program.call, Config.push, Config.mapWorld, World.arm, found, cancelled]
    rfl
  · intro live
    have beat := Config.beat?_arms timer call live
    have here : p.Run w before x := run.earlier (split ▸ ⟨after ++ [c], by simp⟩)
    constructor
    · obtain ⟨world, host, ctl, stack⟩ := x
      cases call
      have next := p.clock?_of_step here.grounded rfl timer
      rw [beat] at next
      exact ⟨_, rfl, next⟩
    · refine run.fate_of_armed unarmed ?_ rfl
      exact mem_armings (split ▸ List.mem_append_right _ (List.mem_cons_self ..)) beat

end Fate

namespace Alarm

/-- The alarm is set twice, and its scope is released when it rings for the first time. -/
def silenced : Script Unit :=
  .call (.newScope none) fun
    | .scope s =>
      .call (.listen 0 "ring" (fun _ => .call (.release s) fun _ => .ok) s) fun _ =>
        .call (.arm 0 "ring" (.ofMillis 5) s) fun _ =>
          .call (.arm 0 "ring" (.ofMillis 7) s) fun _ =>
            .call (.advance 0 (.ofMillis 10)) fun _ => .ok
    | _ => .ok

/-- The timer that was set last is taken off the clock while the first one rings. -/
theorem one_fate_silenced : ∃ clock,
    (program.run 6 (start silenced)).world.clock? 0 = some clock ∧
      OneFate 0 clock (.ofMillis 7) (clock.made "ring" (.ofMillis 7) ⟨0⟩)
        (program.trail 30 (start silenced)) (program.run 30 (start silenced)) := by
  have split : program.trail 30 (start silenced) = program.trail 6 (start silenced) ++
      program.run 6 (start silenced) :: program.trail 23 (program.run 7 (start silenced)) := rfl
  have fate := (run silenced 30).one_fate world_unarmed split rfl rfl
  exact ⟨_, rfl, (fate.2 rfl).2⟩

end Alarm

end ScopedMachine

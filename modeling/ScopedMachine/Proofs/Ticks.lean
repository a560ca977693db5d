import ScopedMachine.Proofs.Beats
import ScopedMachine.Proofs.Nascence

/-!
# The history of a clock

`Config.beat?` reads off a configuration what its next step does to the clock of a timer, and nothing
else changes a clock. So the steps of a run make up a list of beats, and each timer that was armed is
found in it. The teardown that takes a timer off its clock hangs off the scope of its token.
-/

namespace ScopedMachine

variable {H : Type} {p : Program H}

/-! ## Clocks of a world -/

theorem SourceCell.label_modifyClock {f : Clock → Clock} {source : SourceCell H} :
    (source.modifyClock f).label = source.label := by
  unfold modifyClock
  split <;> rfl

/-- The clock of a timer. -/
def SourceKind.clock? : SourceKind H → Option Clock
  | .timer clock => some clock
  | .emitter | .hosted _ => none

namespace World

/-- The clock of the timer at a place. -/
def clock? (slot : Nat) (w : World H) : Option Clock :=
  (w.source? slot).bind fun source => source.kind.clock?

/-- No timer is armed. -/
def Unarmed (w : World H) : Prop :=
  ∀ slot clock, w.clock? slot = some clock → clock.pending = []

variable {w w' : World H} {slot i : Nat}

theorem clock?_congr (sources : w'.sources = w.sources) : w'.clock? slot = w.clock? slot := by
  rw [clock?, clock?, source?, source?, sources]

theorem clock?_modifySource {f : SourceCell H → SourceCell H}
    (keeps : ∀ source, (f source).kind = source.kind) :
    (w.modifySource i f).clock? slot = w.clock? slot := by
  rw [clock?, clock?, source?_modifySource]
  split
  · cases w.source? slot with
    | none => rfl
    | some source => exact congrArg SourceKind.clock? (keeps source)
  · rfl

theorem clock?_modifyClock {f : Clock → Clock} :
    (w.modifySource i (SourceCell.modifyClock f)).clock? slot =
      if slot = i then (w.clock? slot).map f else w.clock? slot := by
  rw [clock?, clock?, source?_modifySource]
  split
  · cases w.source? slot with
    | none => rfl
    | some source =>
      simp only [Option.map_some, Option.bind_some, SourceCell.modifyClock]
      cases h : source.kind <;> simp [SourceKind.clock?, h]
  · rfl

theorem clock?_addTeardown {s : ScopeId} {t : Teardown H} :
    (w.addTeardown s t).clock? slot = w.clock? slot := rfl

theorem clock?_addScope {owner : Option MachineId} {manager : Option ManagerId} :
    (w.addScope owner manager).2.clock? slot = w.clock? slot := by
  rw [clock?, clock?, source?_addScope]

theorem clock?_register {topic : String} {token : ScopeId} {l : Listener H} :
    (w.register i topic token l).clock? slot = w.clock? slot := by
  unfold register
  split
  · rfl
  · split
    · rfl
    · exact clock?_modifySource fun _ => rfl

/-- The clock that a source shows is the one that it has. -/
theorem clock_of_clock? {source : SourceCell H} {clock : Clock} (found : w.source? slot = some source)
    (timer : w.clock? slot = some clock) : source.clock = clock := by
  rw [clock?, found] at timer
  unfold SourceCell.clock
  cases h : source.kind with
  | timer c => simpa [SourceKind.clock?, h] using timer
  | _ => simp [SourceKind.clock?, h] at timer

theorem exists_source {clock : Clock} (timer : w.clock? slot = some clock) :
    ∃ source, w.source? slot = some source := by
  obtain ⟨source, found, _⟩ := Option.bind_eq_some_iff.1 timer
  exact ⟨source, found⟩

theorem clock?_arm {kind : String} {after : Span} {token : ScopeId} :
    (w.arm i kind after token).clock? slot =
      if slot = i ∧ w.isCancelled token = false then (w.clock? slot).map (Clock.arm kind after token)
      else w.clock? slot := by
  unfold arm
  split
  · next missing =>
    split
    · next here => rw [clock?, here.1, missing]; rfl
    · rfl
  · next source found =>
    cases live : w.isCancelled token with
    | true => simp
    | false =>
      simp [clock?_addTeardown, clock?_modifyClock]

end World

/-! ## Beats of a configuration -/

namespace Config

/-- What the next step does to the clock of a timer. -/
def beat? (slot : Nat) (c : Config H) : Option Beat :=
  (c.world.clock? slot).bind fun clock =>
    match c.control, c.stack with
    | .run (.call (.arm i kind after token) _), _ =>
      if i = slot ∧ c.world.isCancelled token = false then
        some (.arms (clock.made kind after token))
      else none
    | .give _, .releasing _ (.disarm i number :: _) :: _ =>
      if i = slot then (clock.pending.find? (·.number == number)).map .disarms else none
    | .give (.report _), .advancing i target _ :: _ =>
      if i = slot then
        match clock.next? target with
        | none => some (.reaches target)
        | some d =>
          if c.world.isCancelled d.timer.token then some (.skips target d)
          else some (.fires target d)
      else none
    | _, _ => none

/-- A beat, with what is seen of it in the configuration before it. -/
inductive Strikes (slot : Nat) (clock : Clock) (c : Config H) : Beat → Prop where
  | arms {kind : String} {after : Span} {token : ScopeId} {k : Answer → Script H}
      (control : c.control = .run (.call (.arm slot kind after token) k))
      (live : c.world.isCancelled token = false) :
      Strikes slot clock c (.arms (clock.made kind after token))
  | fires {target : Span} {d : DueTimer} {report r : Report} {rest : List (Frame H)}
      (control : c.control = .give (.report r)) (stack : c.stack = .advancing slot target report :: rest)
      (next : clock.next? target = some d) (live : c.world.isCancelled d.timer.token = false) :
      Strikes slot clock c (.fires target d)
  | skips {target : Span} {d : DueTimer} {report r : Report} {rest : List (Frame H)}
      (control : c.control = .give (.report r)) (stack : c.stack = .advancing slot target report :: rest)
      (next : clock.next? target = some d) (cancelled : c.world.isCancelled d.timer.token) :
      Strikes slot clock c (.skips target d)
  | disarms {a : Answer} {s : ScopeId} {t : Timer} {ts : List (Teardown H)} {rest : List (Frame H)}
      (control : c.control = .give a)
      (stack : c.stack = .releasing s (.disarm slot t.number :: ts) :: rest)
      (pending : t ∈ clock.pending) : Strikes slot clock c (.disarms t)
  | reaches {target : Span} {report r : Report} {rest : List (Frame H)}
      (control : c.control = .give (.report r)) (stack : c.stack = .advancing slot target report :: rest)
      (late : clock.next? target = none) : Strikes slot clock c (.reaches target)

variable {slot : Nat} {c : Config H} {b : Beat} {clock : Clock}

theorem strikes_of_beat? (timer : c.world.clock? slot = some clock) (beat : c.beat? slot = some b) :
    c.Strikes slot clock b := by
  rw [beat?, timer, Option.bind_some] at beat
  split at beat
  · next control =>
    split at beat
    · next here =>
      obtain ⟨rfl, live⟩ := here
      cases beat
      exact .arms control live
    · cases beat
  · next number _ _ control stack =>
    split at beat
    · next here =>
      subst here
      obtain ⟨t, found, rfl⟩ := Option.map_eq_some_iff.1 beat
      have same : t.number = number := by simpa using List.find?_some found
      subst same
      exact .disarms control stack (List.mem_of_find?_eq_some found)
    · cases beat
  · next control stack =>
    split at beat
    · next here =>
      subst here
      split at beat
      · next late =>
        cases beat
        exact .reaches control stack late
      · next d next =>
        split at beat <;> cases beat
        · next cancelled => exact .skips control stack next cancelled
        · next live => exact .fires control stack next (Bool.eq_false_iff.2 live)
    · cases beat
  · cases beat

theorem exists_strikes (beat : c.beat? slot = some b) :
    ∃ clock, c.world.clock? slot = some clock ∧ c.Strikes slot clock b := by
  obtain ⟨clock, timer, _⟩ := Option.bind_eq_some_iff.1 beat
  exact ⟨clock, timer, strikes_of_beat? timer beat⟩

/-- Only what a clock allows happens to it. -/
theorem Strikes.allows (strikes : c.Strikes slot clock b) : clock.Allows b := by
  cases strikes with
  | arms => exact .arms ..
  | fires _ _ next => exact .fires next
  | skips _ _ next => exact .skips next
  | disarms _ _ pending => exact .disarms pending
  | reaches _ _ late => exact .reaches late

/-- A timer that is armed with a token that is not cancelled is put on the clock. -/
theorem beat?_arms {kind : String} {after : Span} {token : ScopeId} {k : Answer → Script H}
    (timer : c.world.clock? slot = some clock)
    (control : c.control = .run (.call (.arm slot kind after token) k))
    (live : c.world.isCancelled token = false) :
    c.beat? slot = some (.arms (clock.made kind after token)) := by
  rw [beat?, timer, Option.bind_some]
  simp [control, live]

/-- A pending timer is taken off its clock when the teardown with its number has its turn. -/
theorem beat?_disarms {a : Answer} {s : ScopeId} {t : Timer} {ts : List (Teardown H)}
    {rest : List (Frame H)} (timer : c.world.clock? slot = some clock) (sound : clock.Sound)
    (control : c.control = .give a)
    (stack : c.stack = .releasing s (.disarm slot t.number :: ts) :: rest)
    (pending : t ∈ clock.pending) : c.beat? slot = some (.disarms t) := by
  have found : clock.pending.find? (·.number == t.number) = some t := by
    cases found : clock.pending.find? (·.number == t.number) with
    | none => simpa using List.find?_eq_none.1 found t pending
    | some u =>
      have same : u.number = t.number := by simpa using List.find?_some found
      rw [sound.eq_of_number (List.mem_of_find?_eq_some found) pending same]
  rw [beat?, timer, Option.bind_some]
  simp [control, stack, found]

section Advancing

variable {w : World H} {h : H} {rest : List (Frame H)} {target : Span} {report r : Report}
  {d : DueTimer}

theorem beat?_reaches (timer : w.clock? slot = some clock) (late : clock.next? target = none) :
    beat? slot ⟨w, h, .give (.report r), .advancing slot target report :: rest⟩ =
      some (.reaches target) := by
  simp [beat?, timer, late]

theorem beat?_skips (timer : w.clock? slot = some clock) (next : clock.next? target = some d)
    (cancelled : w.isCancelled d.timer.token) :
    beat? slot ⟨w, h, .give (.report r), .advancing slot target report :: rest⟩ =
      some (.skips target d) := by
  simp [beat?, timer, next, cancelled]

theorem beat?_fires (timer : w.clock? slot = some clock) (next : clock.next? target = some d)
    (live : w.isCancelled d.timer.token = false) :
    beat? slot ⟨w, h, .give (.report r), .advancing slot target report :: rest⟩ =
      some (.fires target d) := by
  simp [beat?, timer, next, live]

end Advancing

/-- No beat comes from a configuration in which nothing is under way. -/
theorem beat?_of_isOver (ended : c.IsOver) : c.beat? slot = none := by
  obtain ⟨w, h, ctl, stack⟩ := c
  obtain ⟨rfl, ⟨a, rfl⟩ | ⟨message, rfl⟩⟩ := ended <;>
    cases h : w.clock? slot <;> simp [beat?, h]

end Config

/-! ## Steps and clocks -/

/-- Where a step can change a clock. -/
inductive Config.Ticks (slot : Nat) (c : Config H) : Prop where
  | arms {kind : String} {after : Span} {token : ScopeId} {k : Answer → Script H}
      (control : c.control = .run (.call (.arm slot kind after token) k))
  | disarms {a : Answer} {s : ScopeId} {number : Nat} {ts : List (Teardown H)}
      {rest : List (Frame H)} (control : c.control = .give a)
      (stack : c.stack = .releasing s (.disarm slot number :: ts) :: rest)
  | advances {a : Answer} {target : Span} {report : Report} {rest : List (Frame H)}
      (control : c.control = .give a) (stack : c.stack = .advancing slot target report :: rest)

theorem Effect.clock?_apply {w : World H} {m : MachineId} {e : Effect H} {slot : Nat} :
    (e.apply m w).clock? slot = w.clock? slot := by
  cases e with
  | none | hang | observe | tell => rfl
  | acquire => exact World.clock?_addScope
  | subscribe => exact World.clock?_register

/-- Elsewhere the clock stays as it is. -/
theorem Move.clock? {c c' : Config H} {slot : Nat} (move : Move p c c') (still : ¬c.Ticks slot) :
    c'.world.clock? slot = c.world.clock? slot := by
  cases move with
  | idle pops pushes rest alike | unobserveGone alike => exact World.clock?_congr alike.sources
  | newScope => exact World.clock?_addScope
  | listen => exact World.clock?_register
  | unlisten => exact World.clock?_modifySource fun _ => rfl
  | @arm w h i =>
    refine World.clock?_arm.trans (if_neg ?_)
    rintro ⟨rfl, _⟩
    exact still (.arms rfl)
  | disarm =>
    refine World.clock?_modifyClock.trans (if_neg ?_)
    rintro rfl
    exact still (.disarms rfl rfl)
  | tick | reached =>
    refine World.clock?_modifyClock.trans (if_neg ?_)
    rintro rfl
    exact still (.advances rfl rfl)
  | start frames new machine scopes sources => exact World.clock?_congr sources
  | turn pops pushes rest found turn turned =>
    exact (World.clock?_congr turned.sources).trans Effect.clock?_apply
  | _ => rfl

/-- No source becomes a timer. -/
theorem Move.clock?_eq_none {c c' : Config H} {slot : Nat} (move : Move p c c')
    (absent : c.world.clock? slot = none) : c'.world.clock? slot = none := by
  cases move with
  | idle pops pushes rest alike | unobserveGone alike =>
    exact (World.clock?_congr alike.sources).trans absent
  | newScope => exact World.clock?_addScope.trans absent
  | listen => exact World.clock?_register.trans absent
  | unlisten =>
    refine Eq.trans ?_ absent
    exact World.clock?_modifySource fun _ => rfl
  | @arm w =>
    have absent : w.clock? slot = none := absent
    exact World.clock?_arm.trans (by simp [absent])
  | @disarm w | @tick w | @reached w =>
    have absent : w.clock? slot = none := absent
    exact World.clock?_modifyClock.trans (by simp [absent])
  | start frames new machine scopes sources => exact (World.clock?_congr sources).trans absent
  | turn pops pushes rest found turn turned =>
    exact ((World.clock?_congr turned.sources).trans Effect.clock?_apply).trans absent
  | _ => exact absent

theorem Config.beat?_of_still {c : Config H} {slot : Nat} (still : ¬c.Ticks slot) :
    c.beat? slot = none := by
  refine Option.eq_none_iff_forall_ne_some.2 fun b beat => ?_
  obtain ⟨clock, _, beat⟩ := Option.bind_eq_some_iff.1 beat
  split at beat
  · next control =>
    split at beat
    · next here => exact still (.arms (here.1 ▸ control))
    · cases beat
  · next control stack =>
    split at beat
    · next here => exact still (.disarms control (here ▸ stack))
    · cases beat
  · next control stack =>
    split at beat
    · next here => exact still (.advances control (here ▸ stack))
    · cases beat
  · cases beat

namespace Program

variable {slot : Nat} {w : World H} {h : H} {rest : List (Frame H)} {target : Span} {clock : Clock}
  {report r : Report} {d : DueTimer} {source : SourceCell H}

/-- When no timer is due by the target, an advance ends. -/
theorem step_reaches (timer : w.clock? slot = some clock) (late : clock.next? target = none) :
    p.step ⟨w, h, .give (.report r), .advancing slot target report :: rest⟩ =
      some ⟨w.modifySource slot (SourceCell.modifyClock fun clock => { clock with now := target }), h,
        .give (.report (report.absorb r)), rest⟩ := by
  obtain ⟨source, found⟩ := World.exists_source timer
  have shows := World.clock_of_clock? found timer
  simp only [step, resume, Config.advanceNext, found, shows,
    Clock.take?_eq_none_iff.2 late]
  rfl

/-- When the token of the next timer is cancelled, the timer is passed over. -/
theorem step_skips (timer : w.clock? slot = some clock) (next : clock.next? target = some d)
    (cancelled : w.isCancelled d.timer.token) :
    p.step ⟨w, h, .give (.report r), .advancing slot target report :: rest⟩ =
      some ⟨w.modifySource slot (SourceCell.modifyClock fun _ =>
          { clock.disarm d.timer.number with now := d.due }), h,
        .give (.report {}), .advancing slot target (report.absorb r) :: rest⟩ := by
  obtain ⟨source, found⟩ := World.exists_source timer
  have shows := World.clock_of_clock? found timer
  have cancelled' : (w.modifySource slot (SourceCell.modifyClock fun _ =>
      { clock.disarm d.timer.number with now := d.due })).isCancelled d.timer.token = true := cancelled
  simp only [step, resume, Config.advanceNext, found, shows,
    Clock.take?_eq_some_iff.2 ⟨next, rfl⟩, Config.mapWorld, Config.push, cancelled', if_true]
  rfl

/-- The next timer fires: its event is dispatched to those who listen to it. -/
theorem step_fires (found : w.source? slot = some source) (timer : w.clock? slot = some clock)
    (next : clock.next? target = some d) (live : w.isCancelled d.timer.token = false) :
    p.step ⟨w, h, .give (.report r), .advancing slot target report :: rest⟩ =
      some ⟨w.modifySource slot (SourceCell.modifyClock fun _ =>
          { clock.disarm d.timer.number with now := d.due }),
        p.subscriber (.dispatching source.label d.timer.kind)
          (p.subscriber (.timerFired source.label d.timer.kind) h),
        .give (.result (.ok ())),
        .dispatching (Config.firing d) (source.registry.matching d.timer.kind) {} ::
          .advancing slot target (report.absorb r) :: rest⟩ := by
  have shows := World.clock_of_clock? found timer
  have live' : (w.modifySource slot (SourceCell.modifyClock fun _ =>
      { clock.disarm d.timer.number with now := d.due })).isCancelled d.timer.token = false := live
  have found' : (w.modifySource slot (SourceCell.modifyClock fun _ =>
      { clock.disarm d.timer.number with now := d.due })).source? slot =
        some (source.modifyClock fun _ => { clock.disarm d.timer.number with now := d.due }) := by
    rw [World.source?_modifySource, if_pos rfl, found, Option.map_some]
  simp only [step, resume, Config.advanceNext, found, shows,
    Clock.take?_eq_some_iff.2 ⟨next, rfl⟩, Config.mapWorld, Config.push, live', Config.emit,
    Config.record, found', SourceCell.label_modifyClock, World.registry_modifyClock]
  rfl

/-- What a step does to the clock of a timer can be read off the configuration before it. -/
theorem clock?_of_step {c c' : Config H} (grounded : c.Grounded) (step : p.step c = some c')
    (timer : c.world.clock? slot = some clock) :
    c'.world.clock? slot = some ((c.beat? slot).elim clock clock.after) := by
  by_cases ticks : c.Ticks slot
  · obtain ⟨w, h, ctl, stack⟩ := c
    cases ticks with
    | @arms kind after token k control =>
      cases control
      cases step
      refine (World.clock?_arm (w := w)).trans ?_
      have timer : w.clock? slot = some clock := timer
      simp only [timer, Config.beat?, Option.bind_some, true_and, Option.map_some]
      split <;> rfl
    | @disarms a s number ts rest control above =>
      cases control
      cases above
      cases step
      refine (World.clock?_modifyClock (w := w)).trans ?_
      have timer : w.clock? slot = some clock := timer
      simp only [timer, Config.beat?, Option.bind_some, if_true, Option.map_some]
      cases found : clock.pending.find? (·.number == number) with
      | none =>
        have missing : ∀ u ∈ clock.pending, u.number ≠ number := by simpa using found
        rw [Clock.disarm_of_missing missing]
        rfl
      | some t =>
        have number : t.number = number := by simpa using List.find?_some found
        rw [← number]
        rfl
    | @advances a target report rest control above =>
      cases control
      cases above
      cases a with
      | report r =>
        have timer : w.clock? slot = some clock := timer
        have edit (f : Clock → Clock) :
            (w.modifySource slot (SourceCell.modifyClock f)).clock? slot = some (f clock) := by
          rw [World.clock?_modifyClock, if_pos rfl, timer, Option.map_some]
        cases next : clock.next? target with
        | none =>
          cases (step_reaches timer next).symm.trans step
          rw [Config.beat?_reaches timer next]
          exact edit _
        | some d =>
          cases live : w.isCancelled d.timer.token with
          | true =>
            cases (step_skips timer next live).symm.trans step
            rw [Config.beat?_skips timer next live]
            exact edit _
          | false =>
            obtain ⟨source, found⟩ := World.exists_source timer
            cases (step_fires found timer next live).symm.trans step
            rw [Config.beat?_fires timer next live]
            exact edit _
      | _ => cases step
  · rw [Config.beat?_of_still ticks, (move_of_step grounded step).clock? ticks, timer]
    rfl

/-- A step changes a clock by at most one beat. -/
theorem leads_of_step {c c' : Config H} (grounded : c.Grounded) (step : p.step c = some c')
    (timer : c.world.clock? slot = some clock) :
    ∃ clock', c'.world.clock? slot = some clock' ∧ clock.Leads (c.beat? slot).toList clock' := by
  refine ⟨_, clock?_of_step grounded step timer, ?_⟩
  cases beat : c.beat? slot with
  | none => exact .refl
  | some b =>
    have begins : clock.Leads [] clock := .refl
    exact begins.concat (Config.strikes_of_beat? timer beat).allows

end Program

/-! ## Runs and clocks -/

/-- What happened to a clock in the steps from the given configurations. -/
def beats (slot : Nat) (past : List (Config H)) : List Beat := past.filterMap (Config.beat? slot)

/-- The timers that were armed. -/
def armings (slot : Nat) (past : List (Config H)) : List Timer :=
  (beats slot past).filterMap Beat.arms?

/-- The timers that fired, in the order in which they did. -/
def firings (slot : Nat) (past : List (Config H)) : List DueTimer :=
  (beats slot past).filterMap Beat.fires?

/-- The timers that were dropped because their tokens were cancelled. -/
def drops (slot : Nat) (past : List (Config H)) : List Timer :=
  (beats slot past).filterMap Beat.drops?

theorem beats_concat {slot : Nat} {past : List (Config H)} {c : Config H} :
    beats slot (past ++ [c]) = beats slot past ++ (c.beat? slot).toList := by
  cases h : c.beat? slot <;> simp [beats, h]

theorem beats_cons {slot : Nat} {past : List (Config H)} {c : Config H} :
    beats slot (c :: past) = (c.beat? slot).toList ++ beats slot past := by
  cases h : c.beat? slot <;> simp [beats, h]

theorem beats_append {slot : Nat} {past past' : List (Config H)} :
    beats slot (past ++ past') = beats slot past ++ beats slot past' := List.filterMap_append

theorem firings_cons {slot : Nat} {past : List (Config H)} {c : Config H} :
    firings slot (c :: past) = ((c.beat? slot).bind Beat.fires?).toList ++ firings slot past := by
  rw [firings, beats_cons, List.filterMap_append]
  refine congrArg (· ++ _) ?_
  cases c.beat? slot with
  | none => rfl
  | some b => cases fires : b.fires? <;> simp [fires]

theorem firings_append {slot : Nat} {past past' : List (Config H)} :
    firings slot (past ++ past') = firings slot past ++ firings slot past' := by
  rw [firings, beats_append, List.filterMap_append]
  rfl

theorem firings_concat {slot : Nat} {past : List (Config H)} {c : Config H} :
    firings slot (past ++ [c]) = firings slot past ++ ((c.beat? slot).bind Beat.fires?).toList := by
  rw [firings_append, firings_cons]
  exact congrArg _ (List.append_nil _)

theorem armings_append {slot : Nat} {past past' : List (Config H)} :
    armings slot (past ++ past') = armings slot past ++ armings slot past' := by
  rw [armings, beats_append, List.filterMap_append]
  rfl

theorem drops_append {slot : Nat} {past past' : List (Config H)} :
    drops slot (past ++ past') = drops slot past ++ drops slot past' := by
  rw [drops, beats_append, List.filterMap_append]
  rfl

theorem mem_armings {slot : Nat} {past : List (Config H)} {y : Config H} {t : Timer}
    (passed : y ∈ past) (beat : y.beat? slot = some (.arms t)) : t ∈ armings slot past :=
  List.mem_filterMap.2 ⟨_, List.mem_filterMap.2 ⟨y, passed, beat⟩, rfl⟩

theorem mem_drops {slot : Nat} {past : List (Config H)} {y : Config H} {b : Beat} {t : Timer}
    (passed : y ∈ past) (beat : y.beat? slot = some b) (dropped : b.drops? = some t) :
    t ∈ drops slot past :=
  List.mem_filterMap.2 ⟨b, List.mem_filterMap.2 ⟨y, passed, beat⟩, dropped⟩

/-- A beat comes from a step that was made. -/
theorem exists_of_mem_beats {slot : Nat} {past : List (Config H)} {b : Beat}
    (mem : b ∈ beats slot past) :
    ∃ before y after, past = before ++ y :: after ∧ y.beat? slot = some b := by
  obtain ⟨y, passed, beat⟩ := List.mem_filterMap.1 mem
  obtain ⟨before, after, split⟩ := List.append_of_mem passed
  exact ⟨before, y, after, split, beat⟩

namespace Program.Run

variable {w : World H} {before past since : List (Config H)} {x c : Config H} {slot : Nat}
  {clock : Clock}

/-- From an instant on, the beats make of a clock what it is now. -/
theorem clock_leads_since (run : p.Run w past c) (passed : before ++ [x] <+: past ++ [c])
    (timer : x.world.clock? slot = some clock) :
    ∃ since clock', past = before ++ since ∧ c.world.clock? slot = some clock' ∧
      clock.Leads (beats slot since) clock' := by
  refine run.since (P := fun past c => ∃ since clock', past = before ++ since ∧
    c.world.clock? slot = some clock' ∧ clock.Leads (beats slot since) clock') passed
    ⟨[], clock, (List.append_nil _).symm, timer, .refl⟩ ?_ ?_
  · rintro past c c' run h ⟨since, clock', rfl, timer, leads⟩
    obtain ⟨clock'', timer', last⟩ := Program.leads_of_step run.grounded h timer
    exact ⟨since ++ [c], clock'', List.append_assoc .., timer', beats_concat ▸ leads.trans last⟩
  · rintro past c run ended host s ⟨since, clock', rfl, timer, leads⟩
    refine ⟨since ++ [c], clock', List.append_assoc .., timer, ?_⟩
    rw [beats_concat, Config.beat?_of_isOver ended]
    exact leads.trans .refl

theorem clock_leads_between (run : p.Run w past c) (split : past = before ++ x :: since)
    (timer : x.world.clock? slot = some clock) :
    ∃ clock', c.world.clock? slot = some clock' ∧ clock.Leads (beats slot (x :: since)) clock' := by
  have passed : before ++ [x] <+: past ++ [c] := split ▸ ⟨since ++ [c], by simp⟩
  obtain ⟨since, clock', same, timer', leads⟩ := run.clock_leads_since passed timer
  cases List.append_cancel_left (same.symm.trans split)
  exact ⟨clock', timer', leads⟩

/-- The beats of a whole run make of a clock what it is now. -/
theorem clock_leads (run : p.Run w past c) (timer : c.world.clock? slot = some clock) :
    ∃ first, w.clock? slot = some first ∧ first.Leads (beats slot past) clock := by
  induction run generalizing clock with
  | begin => exact ⟨clock, timer, .refl⟩
  | @step past c c' run h ih =>
    cases before : c.world.clock? slot with
    | none =>
      rw [(run.move h).clock?_eq_none before] at timer
      cases timer
    | some old =>
      obtain ⟨first, there, leads⟩ := ih before
      obtain ⟨clock', timer', last⟩ := Program.leads_of_step run.grounded h before
      cases timer.symm.trans timer'
      exact ⟨first, there, beats_concat ▸ leads.trans last⟩
  | resume run ended host s ih =>
    obtain ⟨first, there, leads⟩ := ih timer
    refine ⟨first, there, ?_⟩
    rw [beats_concat, Config.beat?_of_isOver ended]
    exact leads.trans .refl

/-- Every clock of a run is sound. -/
theorem clock_sound (run : p.Run w past c) (unarmed : w.Unarmed)
    (timer : c.world.clock? slot = some clock) : clock.Sound := by
  obtain ⟨first, there, leads⟩ := run.clock_leads timer
  exact leads.sound (.of_unarmed (unarmed slot first there))

end Program.Run

/-! ## Teardowns of timers -/

theorem World.IsFresh.teardowns {w : World H} (fresh : w.IsFresh) (s : ScopeId) :
    w.teardowns s = [] := by
  rw [World.teardowns_eq]
  cases found : w.scope? s with
  | none => rfl
  | some cell => exact (fresh.scope? found).2

theorem World.hung_disarm_of_arm {w : World H} {slot i number : Nat} {kind : String} {after : Span}
    {s token : ScopeId} (hung : .disarm slot number ∈ (w.arm i kind after token).teardowns s) :
    .disarm slot number ∈ w.teardowns s ∨ i = slot ∧ token = s ∧ w.isCancelled token = false ∧
      ∃ source, w.source? slot = some source ∧ source.clock.nextNumber = number := by
  unfold arm at hung
  split at hung
  · exact .inl hung
  · next source found =>
    split at hung
    · exact .inl hung
    · next live =>
      have live : w.isCancelled token = false := Bool.eq_false_iff.2 live
      rw [teardowns_addTeardown (by exact live)] at hung
      rcases List.mem_append.1 hung with before | now
      · exact .inl before
      · split at now
        · next here =>
          cases List.mem_singleton.1 now
          exact .inr ⟨rfl, here.symm, live, source, found, rfl⟩
        · cases now

/-- A timer that is armed is to be taken off its clock by the scope of its token. -/
theorem World.hung_of_arm {w : World H} {slot : Nat} {kind : String} {after : Span}
    {token : ScopeId} {clock : Clock} (timer : w.clock? slot = some clock)
    (live : w.isCancelled token = false) :
    .disarm slot clock.nextNumber ∈ (w.arm slot kind after token).teardowns token := by
  obtain ⟨source, found⟩ := exists_source timer
  simp only [arm, found, live]
  rw [if_neg Bool.false_ne_true, teardowns_addTeardown (by exact live), if_pos rfl,
    clock_of_clock? found timer]
  exact List.mem_append_right _ (List.mem_singleton_self _)

theorem Turn.hung_disarm {w w' : World H} {m : MachineId} {d : Option Deed} {e : Effect H}
    {cell cell' : MachineCell H} {ctl ctl' : Control H} {pops pushes : List (Frame H)}
    {slot number : Nat} {s : ScopeId} (turn : Turn p w m d e ⟨cell, ctl, pops⟩ ⟨cell', ctl', pushes⟩)
    (turned : w.Turned m cell' e w') (hung : .disarm slot number ∈ w'.teardowns s) :
    .disarm slot number ∈ w.teardowns s := by
  rw [World.teardowns_congr turned.scopes] at hung
  cases turn with
  | enter => exact World.teardowns_addScope (w := w) ▸ hung
  | observe | signal => exact (World.mem_teardowns_addTeardown hung).resolve_right nofun
  | subscribe =>
    rcases World.mem_teardowns_register hung with before | ⟨_, now⟩
    · exact before
    · cases now
  | _ => exact hung

/-- That a scope takes a timer off its clock comes from the call that armed it. -/
theorem Move.hung_disarm {c c' : Config H} {slot number : Nat} {s : ScopeId} (move : Move p c c')
    (hung : .disarm slot number ∈ c'.world.teardowns s) :
    .disarm slot number ∈ c.world.teardowns s ∨ ∃ kind after k,
      c.control = .run (.call (.arm slot kind after s) k) ∧ c.world.isCancelled s = false ∧
        ∃ source, c.world.source? slot = some source ∧ source.clock.nextNumber = number := by
  cases move with
  | idle pops pushes rest alike | unobserveGone alike =>
    exact .inl (World.teardowns_congr alike.scopes ▸ hung)
  | newScope => exact .inl (World.teardowns_addScope (H := H) ▸ hung)
  | hang => exact .inl ((World.mem_teardowns_addTeardown hung).resolve_right nofun)
  | release => exact .inl (World.mem_teardowns_cancel hung)
  | listen =>
    rcases World.mem_teardowns_register hung with before | ⟨_, now⟩
    · exact .inl before
    · cases now
  | arm =>
    rcases World.hung_disarm_of_arm hung with before | ⟨rfl, rfl, live, made⟩
    · exact .inl before
    · exact .inr ⟨_, _, _, rfl, live, made⟩
  | start frames new machine scopes => exact .inl (World.teardowns_congr scopes ▸ hung)
  | turn pops pushes rest found turn turned => exact .inl (turn.hung_disarm turned hung)
  | _ => exact .inl hung

/-- A scope is to take the timer with this number off its clock. -/
def Config.IsToDisarm (slot number : Nat) (s : ScopeId) (c : Config H) : Prop :=
  .disarm slot number ∈ c.world.teardowns s ∨
    ∃ ts, .releasing s ts ∈ c.stack ∧ .disarm slot number ∈ ts

namespace Program.Run

variable {w : World H} {past : List (Config H)} {c : Config H} {slot number : Nat} {s : ScopeId}
  {clock : Clock} {t : Timer}

/-- A scope takes off its clock only what was armed with its token. -/
theorem armed_of_isToDisarm (run : p.Run w past c) (timer : c.world.clock? slot = some clock)
    (hung : c.IsToDisarm slot number s) :
    ∃ t ∈ armings slot past, t.number = number ∧ t.token = s := by
  induction run generalizing clock with
  | begin fresh =>
    rcases hung with hung | ⟨ts, mem, _⟩
    · rw [fresh.teardowns] at hung
      cases hung
    · cases mem
  | @step past c c' run h ih =>
    cases before : c.world.clock? slot with
    | none =>
      rw [(run.move h).clock?_eq_none before] at timer
      cases timer
    | some old =>
      have earlier (hung : c.IsToDisarm slot number s) :
          ∃ t ∈ armings slot (past ++ [c]), t.number = number ∧ t.token = s := by
        obtain ⟨t, armed, same⟩ := ih before hung
        exact ⟨t, armings_append ▸ List.mem_append_left _ armed, same⟩
      rcases hung with hung | ⟨ts, mem, hung⟩
      · rcases (run.move h).hung_disarm hung with before |
          ⟨kind, after, k, control, live, source, found, rfl⟩
        · exact earlier (.inl before)
        · have beat := Config.beat?_arms before control live
          refine ⟨old.made kind after s, mem_armings (List.mem_append_right _
            (List.mem_singleton_self c)) beat, ?_, rfl⟩
          rw [World.clock_of_clock? found before]
          rfl
      · rcases (run.course h).due mem hung with ⟨ts', old, hung⟩ | now
        · exact earlier (.inr ⟨ts', old, hung⟩)
        · exact earlier (.inl now)
  | resume run ended host s ih =>
    obtain ⟨t, armed, same⟩ := ih timer hung
    refine ⟨t, ?_, same⟩
    rw [armings, beats_concat, Config.beat?_of_isOver ended, Option.toList_none, List.append_nil]
    exact armed

/-- A timer that is taken off a clock is taken off by the release of the scope of its token. -/
theorem disarms (run : p.Run w past c) (unarmed : w.Unarmed) (beat : c.beat? slot = some (.disarms t)) :
    ∃ ts rest, c.stack = .releasing t.token (.disarm slot t.number :: ts) :: rest := by
  obtain ⟨clock, timer, strikes⟩ := Config.exists_strikes beat
  obtain ⟨first, there, leads⟩ := run.clock_leads timer
  have sound : first.Sound := .of_unarmed (unarmed slot first there)
  cases strikes with
  | @disarms a s t ts rest control stack pending =>
    -- the timer that was armed with the token of the scope under this number is this one
    have hung : c.IsToDisarm slot t.number s :=
      .inr ⟨_, stack ▸ List.mem_cons_self .., List.mem_cons_self ..⟩
    obtain ⟨u, armed, number, token⟩ := run.armed_of_isToDisarm timer hung
    have same : u = t :=
      leads.eq_of_number sound (List.mem_append_right _ armed) (leads.known sound pending) number
    rw [← same, token, same]
    exact ⟨ts, rest, stack⟩

/-- A timer is dropped only after its token was cancelled. -/
theorem isCancelled_of_drops (run : p.Run w past c) (unarmed : w.Unarmed) {b : Beat}
    (beat : c.beat? slot = some b) (drops : b.drops? = some t) :
    c.world.isCancelled t.token := by
  cases b with
  | disarms u =>
    cases drops
    obtain ⟨ts, rest, stack⟩ := run.disarms unarmed beat
    obtain ⟨owner, released⟩ := run.releases t.token _ (stack ▸ List.mem_cons_self ..)
    rw [World.isCancelled_iff, released]
    simp
  | skips target d =>
    cases drops
    obtain ⟨clock, _, strikes⟩ := Config.exists_strikes beat
    cases strikes with
    | skips _ _ _ cancelled => exact cancelled
  | _ => cases drops

end Program.Run

/-! ## An alarm clock

A world with one timer and no machines serves as the example wherever a theorem about clocks is to be
seen at work.
-/

namespace Alarm

def program : Program Unit where
  declared _ := .finish (.ok ())
  subscriber _ h := h

/-- There is a timer on which nothing is armed. -/
def world : World Unit where
  sources := #[{ id := ⟨Uuid.ofNat 0⟩, label := "alarm", kind := .timer {} }]
  wallClock _ := Lamp.noon

theorem world_isFresh : world.IsFresh where
  machine? _ := rfl
  scope? h := nomatch h
  source? := by
    intro slot source h
    cases slot with
    | zero => cases h; rfl
    | succ slot => cases h

theorem world_unarmed : world.Unarmed := by
  intro slot clock timer
  cases slot with
  | zero => cases timer; rfl
  | succ slot => cases timer

/-- Where a run of the alarm clock begins. -/
def start (s : Script Unit) : Config Unit := { world, host := (), control := .run s }

/-- The alarm clock runs. -/
theorem run (s : Script Unit) (n : Nat) :
    program.Run world (program.trail n (start s)) (program.run n (start s)) :=
  (Program.Run.begin world_isFresh () s).trail n

/-- When the alarm rings it is set again, to snooze for five milliseconds. -/
def snoozed : Script Unit :=
  .call (.newScope none) fun
    | .scope s =>
      .call (.listen 0 "ring" (fun _ => .call (.arm 0 "snooze" (.ofMillis 5) s) fun _ => .ok) s) fun _ =>
        .call (.arm 0 "ring" (.ofMillis 10) s) fun _ =>
          .call (.arm 0 "ring" (.ofMillis 30) s) fun _ =>
            .call (.advance 0 (.ofMillis 20)) fun _ => .ok
    | _ => .ok

end Alarm

end ScopedMachine

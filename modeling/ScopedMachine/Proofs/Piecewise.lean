import ScopedMachine.Proofs.Agreement
import ScopedMachine.Proofs.Advances
import ScopedMachine.Proofs.Beneath

/-!
# Advancing piece by piece

To advance a clock by two spans, one after the other, is to advance it by their sum: the same timers
fire in the same order, the same host code runs in the same worlds, and the two reports together are
the one report. The loop that fires the timers is taken out of the steps first, as the rounds that it
makes; each round looks at the pending timers and at the target, and sets the clock before any listener
can see it. So it does not matter where a stretch of time is cut.
-/

namespace ScopedMachine

variable {H : Type} {p : Program H}

/-! ## Activities above frames that stay -/

/-- The same streams are open above the one frames as above the others. -/
def SameFeeds (base base' : List (Frame H)) : Prop :=
  ∀ (c : Config H) i, (c.above base).isOpen i = (c.above base').isOpen i

namespace Config

variable {base base' fs : List (Frame H)} {c d : Config H}

theorem above_above : (c.above fs).above base = c.above (fs ++ base) := by
  simp [above, List.append_assoc]

theorem above_inj (same : c.above base = d.above base) : c = d := by
  obtain ⟨w, h, ctl, stack⟩ := c
  obtain ⟨w', h', ctl', stack'⟩ := d
  simp only [above, Config.mk.injEq, List.append_cancel_right_eq] at same
  obtain ⟨rfl, rfl, rfl, rfl⟩ := same
  rfl

theorem not_goes_of_isEnd {w : World H} {h : H} {ctl : Control H} (ended : ctl.isEnd) :
    ¬Goes ⟨w, h, ctl, []⟩ := by
  rintro (more | goes)
  · exact more rfl
  · rw [ended] at goes
    cases goes

theorem Goes.above (goes : c.Goes) : (c.above fs).Goes :=
  goes.imp (fun more none => more (List.append_eq_nil_iff.1 none).1) id

/-- A frame that tells nobody of a change feeds no stream. -/
theorem isOpen_above_cons {f : Frame H} {i : StreamId}
    (plain : ∀ m change rest, f ≠ .publishing m change rest) :
    (c.above (f :: base)).isOpen i = (c.above base).isOpen i := by
  refine congrArg (Bool.or _) ?_
  have quiet (feeds : Frame H → Bool) (here : feeds f = false) :
      (c.stack ++ f :: base).any feeds = (c.stack ++ base).any feeds := by
    rw [List.any_append, List.any_cons, here, Bool.false_or, List.any_append]
  refine quiet _ ?_
  cases f with
  | publishing m change rest => exact absurd rfl (plain m change rest)
  | _ => rfl

end Config

namespace SameFeeds

variable {base base' : List (Frame H)}

theorem refl : SameFeeds base base := fun _ _ => rfl

theorem symm (same : SameFeeds base base') : SameFeeds base' base := fun c i => (same c i).symm

theorem advancing (same : SameFeeds base base') {slot : Nat} {target : Span} {report : Report} :
    SameFeeds (.advancing slot target report :: base) base' :=
  fun c i => (Config.isOpen_above_cons (by simp)).trans (same c i)

theorem await (same : SameFeeds base base') {k : Answer → Script H} :
    SameFeeds (.await k :: base) base' :=
  fun c i => (Config.isOpen_above_cons (by simp)).trans (same c i)

end SameFeeds

section Steps

variable {base base' : List (Frame H)} {c e : Config H}

/-- An activity goes on in the same way above frames that feed the same streams. -/
theorem Program.step_swap (same : SameFeeds base base') (goes : c.Goes)
    (h : p.step (c.above base) = some e) :
    ∃ d : Config H, e = d.above base ∧ p.step (c.above base') = some (d.above base') := by
  by_cases reads : ∃ i k, c.control = .run (.call (.read i) k)
  · obtain ⟨i, k, control⟩ := reads
    obtain ⟨w, host, ctl, stack⟩ := c
    cases control
    cases h
    refine ⟨⟨_, host, .give (.changes _ ((Config.above base ⟨w, host, .give .unit, stack⟩).isOpen i)),
      .await k :: stack⟩, rfl, ?_⟩
    rw [same]
    rfl
  · have unread (base : List (Frame H)) (i : StreamId) (k : Answer → Script H)
        (control : c.control = .run (.call (.read i) k)) :
        (c.above base).isOpen i = c.isOpen i := absurd ⟨i, k, control⟩ reads
    rw [p.step_above_of_isOpen (unread base) goes] at h
    obtain ⟨d, step, rfl⟩ := Option.map_eq_some_iff.1 h
    exact ⟨d, rfl, by rw [p.step_above_of_isOpen (unread base') goes, step, Option.map_some]⟩

end Steps

/-- Above some frames that stay beneath, one activity leads to another one, through those that are
passed. -/
inductive Program.Covers (p : Program H) (base : List (Frame H)) :
    Config H → List (Config H) → Config H → Prop where
  | refl (c : Config H) : p.Covers base c [] c
  | step {c d e : Config H} {seen : List (Config H)} (goes : c.Goes)
      (h : p.step (c.above base) = some (d.above base)) (next : p.Covers base d seen e) :
      p.Covers base c (c :: seen) e

namespace Program.Covers

variable {base base' fs : List (Frame H)} {c d e : Config H} {seen seen' : List (Config H)}

theorem trans (first : p.Covers base c seen d) (next : p.Covers base d seen' e) :
    p.Covers base c (seen ++ seen') e := by
  induction first with
  | refl => exact next
  | step goes h _ ih => exact .step goes h (ih next)

theorem goes (covers : p.Covers base c seen d) : ∀ y ∈ seen, y.Goes := by
  induction covers with
  | refl => exact List.forall_mem_nil _
  | step goes _ _ ih => exact List.forall_mem_cons.2 ⟨goes, ih⟩

/-- The frames beneath may be others that feed the same streams. -/
theorem swap (covers : p.Covers base c seen d) (same : SameFeeds base base') :
    p.Covers base' c seen d := by
  induction covers with
  | refl => exact .refl _
  | step goes h _ ih =>
    obtain ⟨d, here, there⟩ := p.step_swap same goes h
    cases Config.above_inj here
    exact .step goes there ih

/-- What goes on above some frames can be seen as going on above a part of them. -/
theorem above (covers : p.Covers (fs ++ base) c seen d) :
    p.Covers base (c.above fs) (seen.map (Config.above fs)) (d.above fs) := by
  induction covers with
  | refl => exact .refl _
  | step goes h _ ih =>
    refine .step goes.above ?_ ih
    rw [Config.above_above, Config.above_above, h]

/-- An activity above some frames is still going on, or it ended before anything happened to them. -/
theorem of_above (covers : p.Covers base (c.above fs) seen e) :
    (∃ d seen', p.Covers (fs ++ base) c seen' d ∧ e = d.above fs ∧
      seen = seen'.map (Config.above fs)) ∨
    ∃ d seen₁ seen₂, p.Covers (fs ++ base) c seen₁ d ∧ ¬d.Goes ∧ p.Covers base (d.above fs) seen₂ e ∧
      seen = seen₁.map (Config.above fs) ++ seen₂ := by
  generalize start : c.above fs = y at covers
  induction covers generalizing c with
  | refl => exact .inl ⟨c, [], .refl c, start.symm, rfl⟩
  | @step y z e seen goes h next ih =>
    subst start
    by_cases inside : c.Goes
    · rw [Config.above_above] at h
      obtain ⟨d, same, step⟩ := p.step_swap .refl inside h
      rw [← Config.above_above] at same
      cases Config.above_inj same
      rcases ih rfl with ⟨x, seen', covers, rfl, rfl⟩ | ⟨x, seen₁, seen₂, covers, ended, rest, rfl⟩
      · exact .inl ⟨x, c :: seen', .step inside step covers, rfl, rfl⟩
      · exact .inr ⟨x, c :: seen₁, seen₂, .step inside step covers, ended, rest, rfl⟩
    · exact .inr ⟨c, [], _, .refl c, inside, .step goes h next, rfl⟩

/-- An activity that is over leads nowhere. -/
theorem eq_of_ended (covers : p.Covers base c seen d) (ended : ¬c.Goes) : seen = [] ∧ d = c := by
  cases covers with
  | refl => exact ⟨rfl, rfl⟩
  | step goes => exact absurd goes ended

/-- Where there is no step nothing follows. -/
theorem eq_of_stuck (covers : p.Covers base c seen d) (stuck : p.step (c.above base) = none) :
    seen = [] ∧ d = c := by
  cases covers with
  | refl => exact ⟨rfl, rfl⟩
  | step _ h =>
    rw [stuck] at h
    cases h

end Program.Covers

/-! ## Edits of a clock -/

namespace World

variable {w : World H} {slot : Nat} {clock : Clock} {now now' : Span} {d : DueTimer}

/-- A clock is set to a time. -/
def setNow (slot : Nat) (now : Span) (w : World H) : World H :=
  w.modifySource slot (SourceCell.modifyClock fun clock => { clock with now })

/-- A timer is taken off its clock, and the clock moves to the due time. -/
def take (slot : Nat) (clock : Clock) (d : DueTimer) (w : World H) : World H :=
  w.modifySource slot
    (SourceCell.modifyClock fun _ => { clock.disarm d.timer.number with now := d.due })

theorem modifyClock_modifyClock {f g : Clock → Clock} :
    (w.modifySource slot (SourceCell.modifyClock f)).modifySource slot (SourceCell.modifyClock g) =
      w.modifySource slot (SourceCell.modifyClock fun clock => g (f clock)) := by
  have twice (source : SourceCell H) : (source.modifyClock f).modifyClock g =
      source.modifyClock fun clock => g (f clock) := by
    obtain ⟨id, label, kind, registry⟩ := source
    cases kind <;> rfl
  unfold modifySource
  congr 1
  refine Array.ext_getElem? fun i => ?_
  simp only [Array.getElem?_modify]
  split
  · cases w.sources[i]? with
    | none => rfl
    | some source => exact congrArg some (twice source)
  · rfl

theorem setNow_setNow : (w.setNow slot now).setNow slot now' = w.setNow slot now' :=
  modifyClock_modifyClock

/-- What the clock showed before a timer is taken off does not matter. -/
theorem take_setNow :
    (w.setNow slot now).take slot { clock with now } d = w.take slot clock d :=
  modifyClock_modifyClock

theorem clock?_setNow (timer : w.clock? slot = some clock) :
    (w.setNow slot now).clock? slot = some { clock with now } := by
  rw [setNow, clock?_modifyClock, if_pos rfl, timer, Option.map_some]

theorem clock?_of_setNow (timer : (w.setNow slot now).clock? slot = some clock) :
    ∃ old, w.clock? slot = some old ∧ clock = { old with now } := by
  rw [setNow, clock?_modifyClock, if_pos rfl] at timer
  obtain ⟨old, timer', rfl⟩ := Option.map_eq_some_iff.1 timer
  exact ⟨old, timer', rfl⟩

theorem source?_setNow {source : SourceCell H} (found : w.source? slot = some source) :
    (w.setNow slot now).source? slot =
      some (source.modifyClock fun clock => { clock with now }) := by
  rw [setNow, source?_modifySource, if_pos rfl, found, Option.map_some]

end World

/-! ## Rounds -/

/-- A stretch of time on a clock: the timers that fired, the host code that ran with the worlds and
hosts it found, the report, and the world and the host at the end. -/
@[ext]
structure Stretch (H : Type) where
  fired : List DueTimer
  ran : List (World H × H × Script H)
  report : Report
  world : World H
  host : H

/-- One stretch of time, then another one. -/
def Stretch.andThen (o o' : Stretch H) : Stretch H where
  fired := o.fired ++ o'.fired
  ran := o.ran ++ o'.ran
  report := o.report.absorb o'.report
  world := o'.world
  host := o'.host

theorem Stretch.andThen_assoc {o o' o'' : Stretch H} :
    (o.andThen o').andThen o'' = o.andThen (o'.andThen o'') := by
  simp [andThen, Report.absorb_assoc]

theorem Stretch.andThen_nothing {o : Stretch H} :
    o.andThen ⟨[], [], {}, o.world, o.host⟩ = o := by
  simp [andThen]

/-- A timer has fired, and its listeners are to be called. -/
def Program.ringing (p : Program H) (slot : Nat) (clock : Clock) (d : DueTimer)
    (source : SourceCell H) (w : World H) (h : H) : Config H where
  world := w.take slot clock d
  host := p.subscriber (.dispatching source.label d.timer.kind)
    (p.subscriber (.timerFired source.label d.timer.kind) h)
  control := .give (.result (.ok ()))
  stack := [.dispatching (Config.firing d) (source.registry.matching d.timer.kind) {}]

theorem Program.ringing_setNow {slot : Nat} {clock : Clock} {d : DueTimer} {source : SourceCell H}
    {w : World H} {h : H} {now : Span} :
    p.ringing slot { clock with now } d (source.modifyClock fun clock => { clock with now })
      (w.setNow slot now) h = p.ringing slot clock d source w h := by
  simp only [ringing, World.take_setNow, SourceCell.label_modifyClock, World.registry_modifyClock]

/-- The rounds that an advance of a clock to a target makes above some frames. -/
inductive Program.Rounds (p : Program H) (slot : Nat) (target : Span) (base : List (Frame H)) :
    World H → H → Stretch H → Prop where
  /-- No timer is due any more. -/
  | ends {w : World H} {h : H} {clock : Clock} (timer : w.clock? slot = some clock)
      (late : clock.next? target = none) :
      Rounds p slot target base w h ⟨[], [], {}, w.setNow slot target, h⟩
  /-- The next timer is passed over, because its token is cancelled. -/
  | pass {w : World H} {h : H} {clock : Clock} {d : DueTimer} {o : Stretch H}
      (timer : w.clock? slot = some clock) (next : clock.next? target = some d)
      (cancelled : w.isCancelled d.timer.token)
      (rest : Rounds p slot target base (w.take slot clock d) h o) :
      Rounds p slot target base w h o
  /-- The next timer fires, and its dispatch comes to a report. -/
  | fire {w w' : World H} {h h' : H} {clock : Clock} {d : DueTimer} {source : SourceCell H}
      {seen : List (Config H)} {r : Report} {o : Stretch H}
      (timer : w.clock? slot = some clock) (next : clock.next? target = some d)
      (live : w.isCancelled d.timer.token = false) (found : w.source? slot = some source)
      (dispatch : p.Covers base (p.ringing slot clock d source w h) seen ⟨w', h', .give (.report r), []⟩)
      (rest : Rounds p slot target base w' h' o) :
      Rounds p slot target base w h
        ((⟨d :: firings slot seen, seen.filterMap Config.running?, r, w', h'⟩ : Stretch H).andThen o)

namespace Program.Rounds

variable {slot : Nat} {target early : Span} {base : List (Frame H)} {w : World H} {h : H}
  {o o' : Stretch H} {now : Span}

/-- At the end the clock shows the target. -/
theorem clock? (rounds : p.Rounds slot target base w h o) :
    ∃ clock, o.world.clock? slot = some clock ∧ clock.now = target := by
  induction rounds with
  | ends timer => exact ⟨_, World.clock?_setNow timer, rfl⟩
  | pass _ _ _ _ ih | fire _ _ _ _ _ _ ih => exact ih

/-- What the clock shows when the rounds begin does not matter. -/
theorem setNow (rounds : p.Rounds slot target base w h o) :
    p.Rounds slot target base (w.setNow slot now) h o := by
  cases rounds with
  | ends timer late =>
    have rounds : p.Rounds slot target base (w.setNow slot now) h
        ⟨[], [], {}, (w.setNow slot now).setNow slot target, h⟩ :=
      .ends (World.clock?_setNow timer) late
    rwa [World.setNow_setNow] at rounds
  | pass timer next cancelled rest =>
    refine .pass (World.clock?_setNow timer) next cancelled ?_
    rw [World.take_setNow]
    exact rest
  | fire timer next live found dispatch rest =>
    refine .fire (World.clock?_setNow timer) next live (World.source?_setNow found) ?_ rest
    rw [ringing_setNow]
    exact dispatch

theorem of_setNow (rounds : p.Rounds slot target base (w.setNow slot now) h o) :
    p.Rounds slot target base w h o := by
  cases rounds with
  | ends timer late =>
    obtain ⟨old, timer', rfl⟩ := World.clock?_of_setNow timer
    rw [World.setNow_setNow]
    exact .ends timer' late
  | pass timer next cancelled rest =>
    obtain ⟨old, timer', rfl⟩ := World.clock?_of_setNow timer
    rw [World.take_setNow] at rest
    exact .pass timer' next cancelled rest
  | fire timer next live found dispatch rest =>
    obtain ⟨old, timer', rfl⟩ := World.clock?_of_setNow timer
    obtain ⟨source, found'⟩ := World.exists_source timer'
    cases found.symm.trans (World.source?_setNow found')
    rw [ringing_setNow] at dispatch
    exact .fire timer' next live found' dispatch rest

/-- The rounds up to a target are those up to an earlier one, and the others. -/
theorem split (rounds : p.Rounds slot target base w h o) (le : early ≤ target) :
    ∃ o₁ o₂, p.Rounds slot early base w h o₁ ∧ p.Rounds slot target base o₁.world o₁.host o₂ ∧
      o = o₁.andThen o₂ := by
  induction rounds with
  | @ends w h clock timer late =>
    have late' : clock.next? early = none := by rw [Clock.next?_of_le le, late]; rfl
    exact ⟨_, _, .ends timer late', (ends timer late).setNow, by simp [Stretch.andThen]⟩
  | @pass w h clock d o timer next cancelled rest ih =>
    by_cases due : d.due ≤ early
    · obtain ⟨o₁, o₂, first, second, rfl⟩ := ih
      exact ⟨o₁, o₂, .pass timer (Clock.next?_of_due le next due) cancelled first, second, rfl⟩
    · exact ⟨_, o, .ends timer (Clock.next?_of_not_due le next due),
        (pass timer next cancelled rest).setNow, by simp [Stretch.andThen]⟩
  | @fire w w' h h' clock d source seen r o timer next live found dispatch rest ih =>
    by_cases due : d.due ≤ early
    · obtain ⟨o₁, o₂, first, second, rfl⟩ := ih
      exact ⟨_, o₂, .fire timer (Clock.next?_of_due le next due) live found dispatch first, second,
        Stretch.andThen_assoc.symm⟩
    · exact ⟨_, _, .ends timer (Clock.next?_of_not_due le next due),
        (fire timer next live found dispatch rest).setNow, by simp [Stretch.andThen]⟩

/-- The rounds up to a target, and then those up to a later one, are those up to the later one. -/
theorem andThen (first : p.Rounds slot early base w h o) (le : early ≤ target)
    (second : p.Rounds slot target base o.world o.host o') :
    p.Rounds slot target base w h (o.andThen o') := by
  induction first with
  | ends timer late => simpa [Stretch.andThen] using second.of_setNow
  | pass timer next cancelled rest ih =>
    exact .pass timer (Clock.next?_mono le next) cancelled (ih second)
  | fire timer next live found dispatch rest ih =>
    rw [Stretch.andThen_assoc]
    exact .fire timer (Clock.next?_mono le next) live found dispatch (ih second)

end Program.Rounds

/-! ## The rounds of an advance -/

section Seen

variable {slot : Nat} {base fs : List (Frame H)} {c d : Config H} {seen : List (Config H)}

theorem Config.beat?_above (goes : c.Goes) : (c.above fs).beat? slot = c.beat? slot := by
  obtain ⟨w, h, ctl, stack⟩ := c
  cases ctl with
  | run s =>
    cases s with
    | call s k => cases s <;> rfl
    | _ => rfl
  | give a =>
    obtain ⟨f, rest, rfl⟩ := List.exists_cons_of_ne_nil (goes.resolve_right nofun)
    cases f with
    | releasing s ts =>
      cases ts with
      | nil => cases a <;> rfl
      | cons t ts => cases t <;> cases a <;> rfl
    | _ => cases a <;> rfl
  | _ => rfl

theorem firings_above (goes : ∀ y ∈ seen, y.Goes) :
    firings slot (seen.map (Config.above fs)) = firings slot seen := by
  have same : (seen.map (Config.above fs)).filterMap (Config.beat? slot) =
      seen.filterMap (Config.beat? slot) := by
    rw [List.filterMap_map]
    exact List.filterMap_congr fun y mem => Config.beat?_above (goes y mem)
  rw [firings, beats, same]
  rfl

theorem running?_above :
    (seen.map (Config.above fs)).filterMap Config.running? = seen.filterMap Config.running? := by
  rw [List.filterMap_map]
  rfl

/-- A timer stays a timer, and every machine keeps a posture. -/
theorem Program.Covers.kept (covers : p.Covers base c seen d) {clock : Clock}
    (poised : ∀ m, (c.above base).Poised m) (timer : c.world.clock? slot = some clock) :
    (∀ m, (d.above base).Poised m) ∧ ∃ clock', d.world.clock? slot = some clock' := by
  induction covers generalizing clock with
  | refl => exact ⟨poised, clock, timer⟩
  | step goes h _ ih =>
    have grounded := Config.grounded_of_poised poised
    have timer' := p.clock?_of_step grounded h timer
    exact ih (fun m => (Program.move_of_step grounded h).poised (poised m)) timer'

end Seen

section Rounds

variable {slot : Nat} {target : Span} {base base' : List (Frame H)} {w w' : World H} {h h' : H}
  {o : Stretch H} {report r total : Report} {seen : List (Config H)}

/-- The steps of an advance make its rounds. -/
theorem Program.Rounds.covers (rounds : p.Rounds slot target base w h o) (report r : Report)
    (same : SameFeeds base base') :
    ∃ seen, p.Covers base' ⟨w, h, .give (.report r), [.advancing slot target report]⟩ seen
        ⟨o.world, o.host, .give (.report ((report.absorb r).absorb o.report)), []⟩ ∧
      firings slot seen = o.fired ∧ seen.filterMap Config.running? = o.ran := by
  induction rounds generalizing report r with
  | @ends w h clock timer late =>
    have step : p.step (Config.above base'
          ⟨w, h, .give (.report r), [.advancing slot target report]⟩) =
        some (Config.above base' ⟨w.setNow slot target, h, .give (.report (report.absorb r)), []⟩) :=
      p.step_reaches timer late
    refine ⟨[_], .step (.inl nofun) step ?_, ?_, rfl⟩
    · rw [Report.absorb_empty]
      exact .refl _
    · rw [firings, beats_cons, Config.beat?_reaches timer late]
      rfl
  | @pass w h clock d o timer next cancelled rest ih =>
    have step : p.step (Config.above base'
          ⟨w, h, .give (.report r), [.advancing slot target report]⟩) =
        some (Config.above base' ⟨w.take slot clock d, h, .give (.report {}),
          [.advancing slot target (report.absorb r)]⟩) :=
      p.step_skips timer next cancelled
    obtain ⟨seen, covers, fired, ran⟩ := ih (report.absorb r) {}
    rw [Report.absorb_empty] at covers
    refine ⟨_ :: seen, .step (.inl nofun) step covers, ?_, ran⟩
    rw [firings, beats_cons, Config.beat?_skips timer next cancelled]
    exact fired
  | @fire w w' h h' clock d source seen r' o timer next live found dispatch rest ih =>
    have step : p.step (Config.above base'
          ⟨w, h, .give (.report r), [.advancing slot target report]⟩) =
        some (Config.above base' ((p.ringing slot clock d source w h).above
          [.advancing slot target (report.absorb r)])) :=
      p.step_fires found timer next live
    obtain ⟨seen', covers, fired, ran⟩ := ih (report.absorb r) r'
    rw [Report.absorb_assoc] at covers
    have feeds : SameFeeds base (.advancing slot target (report.absorb r) :: base') :=
      same.symm.advancing.symm
    have within : p.Covers base'
        ((p.ringing slot clock d source w h).above [.advancing slot target (report.absorb r)])
        (seen.map (Config.above [.advancing slot target (report.absorb r)]))
        (Config.above [.advancing slot target (report.absorb r)] ⟨w', h', .give (.report r'), []⟩) :=
      (dispatch.swap feeds).above
    refine ⟨_ :: (seen.map _ ++ seen'), .step (.inl nofun) step (within.trans covers), ?_, ?_⟩
    · rw [firings_cons, Config.beat?_fires timer next live, firings_append,
        firings_above dispatch.goes, fired]
      rfl
    · rw [List.filterMap_cons_none rfl, List.filterMap_append, running?_above, ran]
      rfl

/-- An advance that returns goes on when the dispatch above it has come to a report. -/
theorem Program.Covers.returns {c : Config H}
    (covers : p.Covers base (c.above [.advancing slot target report]) seen
      ⟨w', h', .give (.report total), []⟩) :
    ∃ seen₁ w₁ h₁ r₁ seen₂, p.Covers (.advancing slot target report :: base) c seen₁
        ⟨w₁, h₁, .give (.report r₁), []⟩ ∧
      p.Covers base ⟨w₁, h₁, .give (.report r₁), [.advancing slot target report]⟩ seen₂
        ⟨w', h', .give (.report total), []⟩ ∧
      seen = seen₁.map (Config.above [.advancing slot target report]) ++ seen₂ := by
  rcases covers.of_above with ⟨x, seen', _, same, _⟩ | ⟨x, seen₁, seen₂, dispatch, ended, rest, whole⟩
  · have shorter := congrArg (fun c => c.stack.length) same
    simp [Config.above] at shorter
  · obtain ⟨w₁, h₁, ctl, stack⟩ := x
    obtain ⟨none, ended⟩ := not_or.1 ended
    cases Classical.not_not.1 none
    cases ctl with
    | give a =>
      cases a with
      | report r₁ => exact ⟨seen₁, w₁, h₁, r₁, seen₂, dispatch, rest, whole⟩
      | _ => cases (rest.eq_of_stuck rfl).2
    | panic message =>
      have falls : p.step (Config.above base
            ⟨w₁, h₁, .panic message, [.advancing slot target report]⟩) =
          some (Config.above base ⟨w₁, h₁, .panic message, []⟩) := rfl
      cases rest with
      | step goes step next =>
        cases Config.above_inj (Option.some.inj (step.symm.trans falls))
        cases (next.eq_of_ended (Config.not_goes_of_isEnd rfl)).2
    | gather g =>
      cases g with
      | done => cases (rest.eq_of_stuck rfl).2
      | _ => exact absurd rfl ended
    | _ => exact absurd rfl ended

/-- The steps of an advance that returns are those of its rounds. -/
theorem Program.Covers.rounds {clock : Clock} (same : SameFeeds base' base)
    (covers : p.Covers base' ⟨w, h, .give (.report r), [.advancing slot target report]⟩ seen
      ⟨w', h', .give (.report total), []⟩)
    (poised : ∀ m, Config.Poised m
      (Config.above base' ⟨w, h, .give (.report r), [.advancing slot target report]⟩))
    (timer : w.clock? slot = some clock) :
    ∃ o, p.Rounds slot target base w h o ∧ firings slot seen = o.fired ∧
      seen.filterMap Config.running? = o.ran ∧ o.world = w' ∧ o.host = h' ∧
        total = (report.absorb r).absorb o.report := by
  generalize len : seen.length = n
  induction n using Nat.strongRecOn generalizing w h report r seen clock with
  | ind n ih =>
  subst len
  cases covers with
  | @step _ d _ seen goes step next =>
  obtain ⟨poised', clock', timer'⟩ := (Program.Covers.step goes step (.refl d)).kept poised timer
  cases due : clock.next? target with
  | none =>
    have reaches : p.step (Config.above base'
          ⟨w, h, .give (.report r), [.advancing slot target report]⟩) =
        some (Config.above base' ⟨w.setNow slot target, h, .give (.report (report.absorb r)), []⟩) :=
      p.step_reaches timer due
    cases Config.above_inj (Option.some.inj (step.symm.trans reaches))
    obtain ⟨rfl, same⟩ := next.eq_of_ended (Config.not_goes_of_isEnd rfl)
    cases same
    refine ⟨_, .ends timer due, ?_, rfl, rfl, rfl, Report.absorb_empty.symm⟩
    rw [firings_cons, Config.beat?_reaches timer due]
    rfl
  | some e =>
    cases live : w.isCancelled e.timer.token with
    | true =>
      have skips : p.step (Config.above base'
            ⟨w, h, .give (.report r), [.advancing slot target report]⟩) =
          some (Config.above base' ⟨w.take slot clock e, h, .give (.report {}),
            [.advancing slot target (report.absorb r)]⟩) :=
        p.step_skips timer due live
      cases Config.above_inj (Option.some.inj (step.symm.trans skips))
      obtain ⟨o, rounds, fired, ran, world, host, sum⟩ :=
        ih seen.length (Nat.lt_succ_self _) next poised' timer' rfl
      refine ⟨o, .pass timer due live rounds, ?_, ran, world, host, ?_⟩
      · rw [firings_cons, Config.beat?_skips timer due live]
        exact fired
      · rw [sum, Report.absorb_empty]
    | false =>
      obtain ⟨source, found⟩ := World.exists_source timer
      have fires : p.step (Config.above base'
            ⟨w, h, .give (.report r), [.advancing slot target report]⟩) =
          some (Config.above base' ((p.ringing slot clock e source w h).above
            [.advancing slot target (report.absorb r)])) :=
        p.step_fires found timer due live
      cases Config.above_inj (Option.some.inj (step.symm.trans fires))
      obtain ⟨seen₁, w₁, h₁, r₁, seen₂, dispatch, rest, rfl⟩ := next.returns
      obtain ⟨poised₁, clock₁, timer₁⟩ := dispatch.above.kept poised' timer'
      obtain ⟨o, rounds, fired, ran, world, host, sum⟩ :=
        ih seen₂.length (by simp only [List.length_cons, List.length_append]; omega) rest poised₁
          timer₁ rfl
      have feeds : SameFeeds (.advancing slot target (report.absorb r) :: base') base := same.advancing
      refine ⟨_, .fire timer due live found (dispatch.swap feeds) rounds, ?_, ?_, world, host, ?_⟩
      · rw [firings_cons, Config.beat?_fires timer due live, firings_append,
          firings_above dispatch.goes, fired]
        rfl
      · rw [List.filterMap_cons_none rfl, List.filterMap_append, running?_above, ran]
        rfl
      · rw [sum, Report.absorb_assoc]
        rfl

end Rounds

/-! ## Calls -/

/-- Host code above some frames that advances a clock by a span goes on with a report, whatever it does
then; and this is what comes of the advance. -/
def Program.Advances (p : Program H) (slot : Nat) (base : List (Frame H)) (span : Span) (w : World H)
    (h : H) (o : Stretch H) : Prop :=
  ∀ k, ∃ c seen,
    p.step ⟨w, h, .run (.call (.advance slot span) k), base⟩ = some (c.above (.await k :: base)) ∧
      p.Covers (.await k :: base) c seen ⟨o.world, o.host, .give (.report o.report), []⟩ ∧
        firings slot seen = o.fired ∧ seen.filterMap Config.running? = o.ran

/-- The same for several advances, one after the other. -/
def Program.AdvancesBy (p : Program H) (slot : Nat) (base : List (Frame H)) :
    List Span → World H → H → Stretch H → Prop
  | [], w, h, o => o = ⟨[], [], {}, w, h⟩
  | span :: spans, w, h, o => ∃ o₁ o₂, p.Advances slot base span w h o₁ ∧
      p.AdvancesBy slot base spans o₁.world o₁.host o₂ ∧ o = o₁.andThen o₂

/-- Host code may go on above some frames, and there is a clock to advance. -/
structure CanAdvance (slot : Nat) (base : List (Frame H)) (w : World H) (h : H) : Prop where
  poised (s : Script H) (m : MachineId) : Config.Poised m ⟨w, h, .run s, base⟩
  timer : ∃ clock, w.clock? slot = some clock

section Calls

variable {slot : Nat} {base : List (Frame H)} {w : World H} {h : H} {o : Stretch H} {clock : Clock}
  {a b span : Span} {spans : List Span}

/-- An advance is the rounds that it makes. -/
theorem CanAdvance.advances_iff (can : CanAdvance slot base w h) (timer : w.clock? slot = some clock) :
    p.Advances slot base span w h o ↔
      p.Rounds slot (clock.now.addSaturating span) base w h o := by
  have begins (k : Answer → Script H) : p.step ⟨w, h, .run (.call (.advance slot span) k), base⟩ =
      some (Config.above (.await k :: base) ⟨w, h, .give (.report {}),
        [.advancing slot (clock.now.addSaturating span) {}]⟩) := p.step_advance timer rfl
  constructor
  · intro advances
    obtain ⟨c, seen, step, covers, fired, ran⟩ := advances fun _ => .ok
    have poised (m : MachineId) := (Program.move_of_step
      (Config.grounded_of_poised (can.poised _)) (begins fun _ => .ok)).poised (can.poised _ m)
    cases Config.above_inj (Option.some.inj (step.symm.trans (begins _)))
    obtain ⟨o', rounds, fired', ran', world, host, sum⟩ :=
      covers.rounds SameFeeds.refl.await poised timer
    rw [Report.absorb_empty, Report.empty_absorb] at sum
    have same : o' = o := Stretch.ext (fired'.symm.trans fired) (ran'.symm.trans ran)
      sum.symm world host
    exact same ▸ rounds
  · intro rounds k
    have feeds : SameFeeds base (.await k :: base) := SameFeeds.refl.await.symm
    obtain ⟨seen, covers, fired, ran⟩ := rounds.covers {} {} feeds
    rw [Report.absorb_empty, Report.empty_absorb] at covers
    exact ⟨_, seen, begins k, covers, fired, ran⟩

/-- When an advance has returned, another one can be called. -/
theorem CanAdvance.next (can : CanAdvance slot base w h) (advances : p.Advances slot base span w h o) :
    CanAdvance slot base o.world o.host := by
  obtain ⟨clock, timer⟩ := can.timer
  obtain ⟨c, seen, step, covers, _⟩ := advances fun _ => .ok
  have grounded := Config.grounded_of_poised (can.poised (.call (.advance slot span) fun _ => .ok))
  have timer' := p.clock?_of_step grounded step timer
  obtain ⟨poised, clock', timer'⟩ := covers.kept
    (fun m => (Program.move_of_step grounded step).poised (can.poised _ m)) timer'
  have resumes : p.step (Config.above (.await (fun _ => .ok) :: base)
      ⟨o.world, o.host, .give (.report o.report), []⟩) = some ⟨o.world, o.host, .run .ok, base⟩ := rfl
  refine ⟨fun s m => ?_, clock', timer'⟩
  exact ((Program.move_of_step (Config.grounded_of_poised poised) resumes).poised
    (poised m)).turnTo o.host s

/-- To advance a clock by two spans, one after the other, is to advance it by their sum. -/
theorem CanAdvance.advances_add (can : CanAdvance slot base w h) :
    p.Advances slot base (a.addSaturating b) w h o ↔ ∃ o₁ o₂, p.Advances slot base a w h o₁ ∧
      p.Advances slot base b o₁.world o₁.host o₂ ∧ o = o₁.andThen o₂ := by
  obtain ⟨clock, timer⟩ := can.timer
  have le : clock.now.addSaturating a ≤ (clock.now.addSaturating a).addSaturating b :=
    Span.le_addSaturating
  -- the second advance begins where the first one ended
  have second {o₁ o₂ : Stretch H} (first : p.Rounds slot (clock.now.addSaturating a) base w h o₁) :
      p.Advances slot base b o₁.world o₁.host o₂ ↔
        p.Rounds slot ((clock.now.addSaturating a).addSaturating b) base o₁.world o₁.host o₂ := by
    obtain ⟨m, timer', now⟩ := first.clock?
    rw [(can.next ((can.advances_iff timer).2 first)).advances_iff timer', now]
  rw [can.advances_iff timer, ← Span.addSaturating_assoc]
  constructor
  · intro rounds
    obtain ⟨o₁, o₂, first, rest, rfl⟩ := rounds.split le
    exact ⟨o₁, o₂, (can.advances_iff timer).2 first, (second first).2 rest, rfl⟩
  · rintro ⟨o₁, o₂, first, rest, rfl⟩
    have first := (can.advances_iff timer).1 first
    exact first.andThen le ((second first).1 rest)

/-- To advance a clock by some spans, one after the other, is to advance it by their sum. -/
theorem CanAdvance.advancesBy_iff (can : CanAdvance slot base w h) :
    p.AdvancesBy slot base (a :: spans) w h o ↔
      p.Advances slot base (spans.foldl Span.addSaturating a) w h o := by
  induction spans generalizing a o with
  | nil =>
    constructor
    · rintro ⟨o₁, _, first, rfl, rfl⟩
      exact Stretch.andThen_nothing.symm ▸ first
    · intro advances
      exact ⟨o, _, advances, rfl, Stretch.andThen_nothing.symm⟩
  | cons b spans ih =>
    rw [List.foldl_cons, ← ih]
    constructor
    · rintro ⟨o₁, _, first, ⟨o₂, o₃, second, rest, rfl⟩, rfl⟩
      exact ⟨o₁.andThen o₂, o₃, can.advances_add.2 ⟨o₁, o₂, first, second, rfl⟩, rest,
        Stretch.andThen_assoc.symm⟩
    · rintro ⟨_, o₃, sum, rest, rfl⟩
      obtain ⟨o₁, o₂, first, second, rfl⟩ := can.advances_add.1 sum
      exact ⟨o₁, _, first, ⟨o₂, o₃, second, rest, rfl⟩, Stretch.andThen_assoc⟩

end Calls

/-! ## Runs -/

namespace Program.Run

variable {w₀ w : World H} {h : H} {before past span : List (Config H)} {x c : Config H} {slot : Nat}
  {base : List (Frame H)} {delay : Span} {k : Answer → Script H} {clock : Clock} {s : Script H}
  {o : Stretch H}

/-- Wherever host code goes on, it can advance a clock that there is. -/
theorem canAdvance (run : p.Run w₀ past ⟨w, h, .run s, base⟩) (timer : w.clock? slot = some clock) :
    CanAdvance slot base w h where
  poised s' m := (run.poised m).turnTo h s'
  timer := ⟨clock, timer⟩

/-- What goes on above some frames, from an instant on, covers them. -/
theorem covers (run : p.Run w₀ past c) (split : past = before ++ x :: span) (going : ¬x.IsOver)
    (stays : ∀ y ∈ span, y.stack ≠ base) {y : Config H} (first : p.step x = some (y.above base)) :
    ∃ d seen, c = d.above base ∧ p.Covers base y seen d ∧ span = seen.map (Config.above base) := by
  refine run.above_induction split going stays (P := fun span c => ∃ d seen, c = d.above base ∧
    p.Covers base y seen d ∧ span = seen.map (Config.above base)) ?_ ?_ ?_
  · rintro seen c ⟨d, _, rfl, _⟩
    exact ⟨d.stack, rfl⟩
  · intro c step
    cases first.symm.trans step
    exact ⟨y, [], rfl, .refl y, rfl⟩
  · rintro _ _ c' run inside step ⟨d, seen, rfl, covers, rfl⟩
    have goes : d.Goes := .inl fun none => stays _ inside (congrArg (· ++ base) none)
    obtain ⟨e, rfl, _⟩ := p.step_swap .refl goes step
    exact ⟨e, seen ++ [d], rfl, covers.trans (.step goes step (.refl e)), by simp⟩

/-- An advance that returns in a run makes a stretch of time. -/
theorem advances (run : p.Run w₀ past c) (split : past = before ++ x :: span)
    (timer : x.world.clock? slot = some clock)
    (call : x.control = .run (.call (.advance slot delay) k))
    (stays : ∀ y ∈ span, y.stack ≠ .await k :: x.stack) {a : Answer}
    (stack : c.stack = .await k :: x.stack) (returns : c.control = .give a) :
    ∃ o, p.Advances slot x.stack delay x.world x.host o ∧ firings slot span = o.fired ∧
      span.filterMap Config.running? = o.ran ∧ c.world = o.world ∧ c.host = o.host ∧
        a = .report o.report := by
  have begun : p.Run w₀ before x := run.earlier (split ▸ ⟨span ++ [c], by simp⟩)
  obtain ⟨w, h, ctl, base⟩ := x
  cases call
  have can := begun.canAdvance timer
  have first : p.step ⟨w, h, .run (.call (.advance slot delay) k), base⟩ =
      some (Config.above (.await k :: base) ⟨w, h, .give (.report {}),
        [.advancing slot (clock.now.addSaturating delay) {}]⟩) := p.step_advance timer rfl
  have going : ¬Config.IsOver ⟨w, h, .run (.call (.advance slot delay) k), base⟩ := by
    rintro ⟨_, ⟨a, control⟩ | ⟨message, control⟩⟩ <;> cases control
  obtain ⟨_, _, report, r, _, _, _, _, rfl⟩ :=
    (run.journey split timer rfl stays).last_of_returns stack returns
  generalize report.absorb r = total at returns ⊢
  obtain ⟨⟨w', h', ctl, above⟩, seen, rfl, covers, rfl⟩ := run.covers split going stays first
  cases returns
  cases List.append_left_eq_self.1 stack
  have poised (m : MachineId) := (Program.move_of_step begun.grounded first).poised (begun.poised m)
  obtain ⟨o, rounds, fired, ran, rfl, rfl, sum⟩ := covers.rounds SameFeeds.refl.await poised timer
  rw [Report.absorb_empty, Report.empty_absorb] at sum
  refine ⟨o, (can.advances_iff timer).2 rounds, ?_, ?_, rfl, rfl, congrArg Answer.report sum⟩
  · rw [firings_above covers.goes, fired]
  · rw [running?_above, ran]

/-- To advance a clock by two spans, one after the other, is to advance it by their sum, and so it is for
any number of spans. -/
theorem advances_in_steps (run : p.Run w₀ past ⟨w, h, .run s, base⟩)
    (timer : w.clock? slot = some clock) :
    (∀ a b o, p.Advances slot base (a.addSaturating b) w h o ↔ ∃ o₁ o₂,
      p.Advances slot base a w h o₁ ∧ p.Advances slot base b o₁.world o₁.host o₂ ∧
        o = o₁.andThen o₂) ∧
    ∀ a spans o, p.AdvancesBy slot base (a :: spans) w h o ↔
      p.Advances slot base (spans.foldl Span.addSaturating a) w h o :=
  have can := run.canAdvance timer
  ⟨fun _ _ _ => can.advances_add, fun _ _ _ => can.advancesBy_iff⟩

end Program.Run

namespace Alarm

/-- To advance by 20 milliseconds is to advance by 12 and then by 8: the alarm rings in the first stretch
and again in the second one. -/
theorem advances_in_steps_snoozed : ∃ w h o o₁ o₂,
    (program.run 8 (start snoozed)).world = w ∧ (program.run 8 (start snoozed)).host = h ∧
      o.fired.map (fun d => d.timer.kind) = ["ring", "snooze"] ∧
      program.Advances 0 [] (.ofMillis 20) w h o ∧ program.Advances 0 [] (.ofMillis 12) w h o₁ ∧
        program.Advances 0 [] (.ofMillis 8) o₁.world o₁.host o₂ ∧ o = o₁.andThen o₂ := by
  have split : program.trail 18 (start snoozed) = program.trail 8 (start snoozed) ++
      program.run 8 (start snoozed) :: program.trail 9 (program.run 9 (start snoozed)) := rfl
  have taller : ∀ y ∈ program.trail 9 (program.run 9 (start snoozed)), y.stack.length ≠ 1 := by
    decide
  obtain ⟨o, advances, fired, _⟩ := (run snoozed 18).advances split rfl rfl
    (fun y mem same => taller y mem (congrArg List.length same)) rfl rfl
  obtain ⟨o₁, o₂, first, second, same⟩ :=
    (((run snoozed 8).advances_in_steps rfl).1 (.ofMillis 12) (.ofMillis 8) o).1 advances
  refine ⟨_, _, o, o₁, o₂, rfl, rfl, ?_, advances, first, second, same⟩
  rw [← fired]
  decide

end Alarm

end ScopedMachine

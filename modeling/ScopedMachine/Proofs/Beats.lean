import ScopedMachine.Proofs.Clocks

/-!
# What can happen to a clock

A clock changes in five ways: a timer is armed, the next timer fires or is passed over, a timer is
taken off because its scope is released, or an advance ends. These are its beats. A list of beats
that leads from one clock to another one accounts for every timer, and as long as no advance ends the
timers in it fire in their order.
-/

namespace ScopedMachine

/-! ## Beats -/

/-- Something that happens to a clock. -/
inductive Beat where
  /-- A timer is armed. -/
  | arms (t : Timer)
  /-- In an advance to `target` it is the turn of a timer, and it fires. -/
  | fires (target : Span) (d : DueTimer)
  /-- In an advance to `target` it is the turn of a timer, but its token is cancelled. -/
  | skips (target : Span) (d : DueTimer)
  /-- A timer is taken off, because its scope is released. -/
  | disarms (t : Timer)
  /-- An advance ends. -/
  | reaches (target : Span)
deriving DecidableEq

namespace Beat

/-- The timer that is armed. -/
def arms? : Beat → Option Timer
  | arms t => some t
  | _ => none

/-- The timer that fires. -/
def fires? : Beat → Option DueTimer
  | fires _ d => some d
  | _ => none

/-- The timer that is dropped because its token is cancelled. -/
def drops? : Beat → Option Timer
  | skips _ d => some d.timer
  | disarms t => some t
  | _ => none

/-- Whether an advance ends. -/
def isEnd : Beat → Bool
  | reaches _ => true
  | _ => false

/-- The target of the advance that goes on or ends. -/
def target? : Beat → Option Span
  | fires target _ | skips target _ | reaches target => some target
  | arms _ | disarms _ => none

end Beat

namespace Clock

/-- The timer that is armed next. -/
def made (kind : String) (after : Span) (token : ScopeId) (c : Clock) : Timer :=
  ⟨c.nextNumber, c.now.add? after, kind, token⟩

/-- The clock after a beat. -/
def after (c : Clock) : Beat → Clock
  | .arms t => { c with nextNumber := c.nextNumber + 1, pending := c.pending ++ [t] }
  | .fires _ d | .skips _ d => { c.disarm d.timer.number with now := d.due }
  | .disarms t => c.disarm t.number
  | .reaches target => { c with now := target }

/-- What can happen to a clock. -/
inductive Allows (c : Clock) : Beat → Prop where
  | arms (kind : String) (after : Span) (token : ScopeId) : Allows c (.arms (c.made kind after token))
  | fires {target : Span} {d : DueTimer} (next : c.next? target = some d) :
      Allows c (.fires target d)
  | skips {target : Span} {d : DueTimer} (next : c.next? target = some d) :
      Allows c (.skips target d)
  | disarms {t : Timer} (pending : t ∈ c.pending) : Allows c (.disarms t)
  | reaches {target : Span} (late : c.next? target = none) : Allows c (.reaches target)

/-- One clock leads to another one by some beats. -/
inductive Leads (a : Clock) : List Beat → Clock → Prop where
  | refl : Leads a [] a
  | concat {bs : List Beat} {b : Beat} {c : Clock} (leads : Leads a bs c) (allows : c.Allows b) :
      Leads a (bs ++ [b]) (c.after b)

variable {a c c' : Clock} {b : Beat} {bs bs' : List Beat} {t : Timer} {d : DueTimer} {target : Span}

/-! ## One beat -/

theorem Sound.after (sound : c.Sound) (allows : c.Allows b) : (c.after b).Sound := by
  cases allows with
  | arms => exact sound.arm
  | fires next | skips next => exact sound.take next
  | disarms => exact sound.disarm
  | reaches late => exact sound.reach late

/-- A timer is pending after a beat that was so before or was just armed, unless it was taken off. -/
theorem Sound.perm_after (sound : c.Sound) (allows : c.Allows b) :
    (c.pending ++ b.arms?.toList).Perm
      ((c.after b).pending ++ (b.fires?.map DueTimer.timer).toList ++ b.drops?.toList) := by
  have taken {t : Timer} (pending : t ∈ c.pending) :
      c.pending.Perm ((c.disarm t.number).pending ++ [t]) :=
    (sound.perm_disarm pending).trans (List.perm_append_singleton ..).symm
  cases allows with
  | arms => simp [Beat.arms?, Beat.fires?, Beat.drops?, Clock.after]
  | fires next | skips next =>
    have taken := taken (next?_spec next).1
    simpa [Beat.arms?, Beat.fires?, Beat.drops?, Clock.after] using taken
  | disarms pending =>
    have taken := taken pending
    simpa [Beat.arms?, Beat.fires?, Beat.drops?, Clock.after] using taken
  | reaches => simp [Beat.arms?, Beat.fires?, Beat.drops?, Clock.after]

/-- The clock goes forward, unless an advance ends. -/
theorem Sound.now_le_after (sound : c.Sound) (allows : c.Allows b) (goes : b.isEnd = false) :
    c.now ≤ (c.after b).now := by
  cases allows with
  | arms | disarms => exact Span.le_rfl
  | fires next | skips next => exact sound.ahead (next?_spec next).1 (next?_spec next).2.1
  | reaches => cases goes

/-- Numbers are given out one after the other. -/
theorem nextNumber_after : (c.after b).nextNumber = c.nextNumber + b.arms?.toList.length := by
  cases b <;> rfl

/-! ## Many beats -/

namespace Leads

theorem trans (first : a.Leads bs c) (next : c.Leads bs' c') : a.Leads (bs ++ bs') c' := by
  induction next with
  | refl => rwa [List.append_nil]
  | concat _ allows ih =>
    rw [← List.append_assoc]
    exact ih.concat allows

/-- The clock at a beat, and what it leads to from then on. -/
theorem split (leads : a.Leads (bs ++ b :: bs') c') :
    ∃ c, a.Leads bs c ∧ c.Allows b ∧ (c.after b).Leads bs' c' := by
  generalize whole : bs ++ b :: bs' = all at leads
  induction leads generalizing bs' with
  | refl => simp at whole
  | @concat before last c leads allows ih =>
    rcases List.eq_nil_or_concat' bs' with rfl | ⟨inner, x, rfl⟩
    · obtain ⟨rfl, same⟩ := List.append_inj' whole rfl
      cases same
      exact ⟨c, leads, allows, .refl⟩
    · rw [← List.cons_append, ← List.append_assoc] at whole
      obtain ⟨earlier, same⟩ := List.append_inj' whole rfl
      cases same
      obtain ⟨c₀, first, allows₀, next⟩ := ih earlier
      exact ⟨c₀, first, allows₀, next.concat allows⟩

/-- The last beat. -/
theorem last (leads : a.Leads (bs ++ [b]) c') :
    ∃ c, a.Leads bs c ∧ c.Allows b ∧ c' = c.after b := by
  generalize whole : bs ++ [b] = all at leads
  cases leads with
  | refl => simp at whole
  | @concat before b c leads allows =>
    obtain ⟨rfl, same⟩ := List.append_inj' whole rfl
    cases same
    exact ⟨c, leads, allows, rfl⟩

theorem sound (leads : a.Leads bs c) (sound : a.Sound) : c.Sound := by
  induction leads with
  | refl => exact sound
  | concat _ allows ih => exact ih.after allows

/-- Each timer that was pending or has been armed is pending, or it fired, or it was dropped. -/
theorem perm (leads : a.Leads bs c) (sound : a.Sound) :
    (a.pending ++ bs.filterMap Beat.arms?).Perm
      (c.pending ++ (bs.filterMap Beat.fires?).map DueTimer.timer ++ bs.filterMap Beat.drops?) := by
  induction leads with
  | refl => simp
  | @concat bs b c leads allows ih =>
    have step := (leads.sound sound).perm_after allows
    -- what was pending or fired or was dropped so far, with what the beat adds
    have one {A : Type} (f : Beat → Option A) :
        (bs ++ [b]).filterMap f = bs.filterMap f ++ (f b).toList := by
      rw [List.filterMap_append]
      cases h : f b <;> simp [h]
    have fired : ((b.fires?).toList.map DueTimer.timer) = (b.fires?.map DueTimer.timer).toList := by
      cases b.fires? <;> rfl
    rw [one, one, one, List.map_append, fired, ← List.append_assoc]
    refine (ih.append_right _).trans ?_
    rw [List.perm_iff_count] at step ⊢
    intro t
    have step := step t
    simp only [List.count_append] at step ⊢
    omega

/-- No two timers have the same number, whenever they were armed. -/
theorem numbered (leads : a.Leads bs c) (sound : a.Sound) :
    (a.pending ++ bs.filterMap Beat.arms?).Pairwise (fun t u => t.number < u.number) ∧
      ∀ t ∈ a.pending ++ bs.filterMap Beat.arms?, t.number < c.nextNumber := by
  induction leads with
  | refl =>
    rw [List.filterMap_nil, List.append_nil]
    exact ⟨sound.numbered, fun t => sound.fresh⟩
  | @concat bs b c leads allows ih =>
    obtain ⟨increasing, below⟩ := ih
    have later (t) (mem : t ∈ a.pending ++ bs.filterMap Beat.arms?) :
        t.number < (c.after b).nextNumber := by
      rw [nextNumber_after]
      exact Nat.lt_of_lt_of_le (below t mem) (Nat.le_add_right ..)
    rw [List.filterMap_append, ← List.append_assoc]
    cases allows with
    | arms kind delay token =>
      have made : [Beat.arms (c.made kind delay token)].filterMap Beat.arms? =
          [c.made kind delay token] := rfl
      rw [made]
      refine ⟨List.pairwise_append.2 ⟨increasing, List.pairwise_singleton .., fun t ht u hu => ?_⟩,
        fun t mem => ?_⟩
      · rw [List.mem_singleton.1 hu]
        exact below t ht
      · rcases List.mem_append.1 mem with before | now
        · exact later t before
        · rw [List.mem_singleton.1 now]
          exact Nat.lt_succ_self _
    | fires | skips | disarms | reaches =>
      rw [List.filterMap_cons_none rfl, List.filterMap_nil, List.append_nil]
      exact ⟨increasing, later⟩

/-- A timer that was pending or has been armed counts once: as pending, as fired or as dropped. -/
theorem count (leads : a.Leads bs c) (sound : a.Sound)
    (known : t ∈ a.pending ++ bs.filterMap Beat.arms?) :
    c.pending.count t + ((bs.filterMap Beat.fires?).map DueTimer.timer).count t +
      (bs.filterMap Beat.drops?).count t = 1 := by
  have apart : (a.pending ++ bs.filterMap Beat.arms?).Nodup :=
    (leads.numbered sound).1.imp fun {t u} less same => Nat.ne_of_lt less (congrArg _ same)
  have once := List.count_eq_one_of_mem apart known
  rw [(leads.perm sound).count_eq, List.count_append, List.count_append] at once
  exact once

/-- A timer is known by its number. -/
theorem eq_of_number (leads : a.Leads bs c) (sound : a.Sound) {u : Timer}
    (ht : t ∈ a.pending ++ bs.filterMap Beat.arms?) (hu : u ∈ a.pending ++ bs.filterMap Beat.arms?)
    (same : t.number = u.number) : t = u := by
  have apart := List.pairwise_map.2 (leads.numbered sound).1
  exact List.inj_on_of_nodup_map (apart.imp Nat.ne_of_lt) ht hu same

/-- A timer that is pending was so before, or it was armed. -/
theorem known (leads : a.Leads bs c) (sound : a.Sound) (pending : t ∈ c.pending) :
    t ∈ a.pending ++ bs.filterMap Beat.arms? := by
  rw [(leads.perm sound).mem_iff]
  exact List.mem_append_left _ (List.mem_append_left _ pending)

/-- As long as no advance ends, the clock goes forward. -/
theorem now_le (leads : a.Leads bs c) (sound : a.Sound) (goes : ∀ b ∈ bs, b.isEnd = false) :
    a.now ≤ c.now := by
  induction leads with
  | refl => exact Span.le_rfl
  | @concat bs b c leads allows ih =>
    have before := ih fun b mem => goes b (List.mem_append_left _ mem)
    have last := goes b (List.mem_append_right _ (List.mem_singleton_self b))
    exact Span.le_trans before ((leads.sound sound).now_le_after allows last)

/-- The clock stands still when nothing advances it. -/
theorem now_eq (leads : a.Leads bs c) (still : ∀ b ∈ bs, b.target? = none) : c.now = a.now := by
  induction leads with
  | refl => rfl
  | @concat bs b c leads allows ih =>
    have before := ih fun b mem => still b (List.mem_append_left _ mem)
    have last := still b (List.mem_append_right _ (List.mem_singleton_self b))
    cases allows with
    | arms | disarms => exact before
    | fires | skips | reaches => cases last

/-- The clock does not go beyond the targets. -/
theorem now_le_target (leads : a.Leads bs c) (start : a.now ≤ target)
    (aims : ∀ b ∈ bs, ∀ t, b.target? = some t → t = target) : c.now ≤ target := by
  induction leads with
  | refl => exact start
  | @concat bs b c leads allows ih =>
    have before := ih fun b mem => aims b (List.mem_append_left _ mem)
    have last := aims b (List.mem_append_right _ (List.mem_singleton_self b))
    cases allows with
    | arms | disarms => exact before
    | fires next | skips next => exact last _ rfl ▸ (next?_spec next).2.2.1
    | reaches => exact last _ rfl ▸ Span.le_rfl

/-- As long as no advance ends, each timer that fires was before those that are pending. -/
theorem fired_before (leads : a.Leads bs c) (sound : a.Sound) (goes : ∀ b ∈ bs, b.isEnd = false)
    (fired : d ∈ bs.filterMap Beat.fires?) :
    d.due ≤ c.now ∧ d.timer.number < c.nextNumber ∧
      ∀ u ∈ c.pending, ∀ due, u.due = some due → firesBefore d ⟨u, due⟩ := by
  induction leads with
  | refl => cases fired
  | @concat bs b c leads allows ih =>
    have sound := leads.sound sound
    have forward := sound.now_le_after allows (goes b (List.mem_append_right _ (by simp)))
    -- a timer that fired earlier stays before the others
    have earlier (fired : d ∈ bs.filterMap Beat.fires?)
        (others : ∀ u ∈ (c.after b).pending, u ∈ c.pending ∨ b = .arms u) :
        d.due ≤ (c.after b).now ∧ d.timer.number < (c.after b).nextNumber ∧
          ∀ u ∈ (c.after b).pending, ∀ due, u.due = some due → firesBefore d ⟨u, due⟩ := by
      obtain ⟨passed, less, first⟩ := ih (fun b mem => goes b (List.mem_append_left _ mem)) fired
      refine ⟨Span.le_trans passed forward, ?_, fun u pending due armed => ?_⟩
      · rw [nextNumber_after]
        exact Nat.lt_of_lt_of_le less (Nat.le_add_right ..)
      · rcases others u pending with before | rfl
        · exact first u before due armed
        · cases allows with
          | arms kind delay token =>
            have sum := Span.add?_eq_some_iff.1 armed
            rw [Span.le_iff] at passed
            rw [firesBefore_iff, Span.lt_iff, Span.eq_iff, sum]
            have number : (DueTimer.mk (c.made kind delay token) due).timer.number = c.nextNumber := rfl
            omega
    rw [List.filterMap_append, List.mem_append] at fired
    cases allows with
    | arms =>
      refine earlier (fired.resolve_right nofun) fun u pending => ?_
      exact (List.mem_append.1 pending).imp id fun now => by rw [List.mem_singleton.1 now]
    | disarms => exact earlier (fired.resolve_right nofun) fun u pending => .inl (mem_disarm.1 pending).1
    | skips => exact earlier (fired.resolve_right nofun) fun u pending => .inl (mem_disarm.1 pending).1
    | reaches => exact earlier (fired.resolve_right nofun) fun u pending => .inl pending
    | @fires target x next =>
      rcases fired with before | now
      · exact earlier before fun u pending => .inl (mem_disarm.1 pending).1
      · cases List.mem_singleton.1 now
        obtain ⟨pending, _, _, first⟩ := next?_spec next
        refine ⟨Span.le_rfl, sound.fresh pending, fun u mem due armed => ?_⟩
        obtain ⟨mem, other⟩ := mem_disarm.1 mem
        by_contra later
        exact other (same_place (first u mem due armed) later).2

/-- As long as no advance ends, timers fire in their order. -/
theorem fires_in_order (leads : a.Leads bs c) (sound : a.Sound)
    (goes : ∀ b ∈ bs, b.isEnd = false) :
    (bs.filterMap Beat.fires?).Pairwise fun d d' => firesBefore d d' := by
  induction leads with
  | refl => exact .nil
  | @concat bs b c leads allows ih =>
    have before : ∀ b ∈ bs, b.isEnd = false := fun b mem => goes b (List.mem_append_left _ mem)
    rw [List.filterMap_append]
    refine List.pairwise_append.2 ⟨ih before, ?_, fun d fired d' now => ?_⟩
    · cases b with
      | fires => exact List.pairwise_singleton ..
      | _ => exact .nil
    · cases allows with
      | @fires target x next =>
        cases List.mem_singleton.1 now
        obtain ⟨pending, armed, _⟩ := next?_spec next
        exact (leads.fired_before sound before fired).2.2 _ pending _ armed
      | _ => cases now

end Leads

end Clock

end ScopedMachine

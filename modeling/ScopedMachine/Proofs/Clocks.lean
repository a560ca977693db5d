import Mathlib.Data.List.Nodup
import ScopedMachine.Proofs.Run

/-!
# Which timer fires next

The timers of a clock are ordered by their due times, and by their numbers when they are due
together. The timer that fires next is the first one in this order among those that are due, so what
is due earlier than that has fired or is gone. A sound clock has armed no two timers under one number,
and none that is pending is due before the time it shows.
-/

namespace ScopedMachine

/-! ## Spans -/

namespace Span

variable {a b c : Span}

theorem le_iff : a ≤ b ↔ a.nanos ≤ b.nanos := Iff.rfl

theorem lt_iff : a < b ↔ a.nanos < b.nanos := Iff.rfl

theorem eq_iff : a = b ↔ a.nanos = b.nanos := by
  cases a
  cases b
  simp

theorem le_rfl : a ≤ a := Nat.le_refl _

theorem le_trans (h : a ≤ b) (h' : b ≤ c) : a ≤ c := Nat.le_trans h h'

theorem not_le : ¬a ≤ b ↔ b < a := Nat.not_le

theorem not_lt : ¬a < b ↔ b ≤ a := Nat.not_lt

/-- A sum that is not too long is the exact one. -/
theorem add?_eq_some_iff {s : Span} : a.add? b = some s ↔ s.nanos = a.nanos + b.nanos := by
  unfold add?
  split
  · next fits => rw [Option.some.injEq, eq_iff, eq_comm]
  · next long =>
    refine ⟨nofun, fun sum => absurd s.le_max ?_⟩
    rwa [sum]

theorem add?_eq_none_iff : a.add? b = none ↔ maxNanos < a.nanos + b.nanos := by
  unfold add?
  split <;> simp <;> omega

theorem nanos_addSaturating : (a.addSaturating b).nanos = min (a.nanos + b.nanos) maxNanos := rfl

/-- A clock that advances does not go back. -/
theorem le_addSaturating : a ≤ a.addSaturating b := by
  have fits := a.le_max
  rw [le_iff, nanos_addSaturating]
  omega

/-- To advance by one span and then by another one is to advance by their sum. -/
theorem addSaturating_assoc :
    (a.addSaturating b).addSaturating c = a.addSaturating (b.addSaturating c) := by
  have fits := a.le_max
  simp only [eq_iff, nanos_addSaturating]
  omega

end Span

/-! ## The order of timers -/

namespace Clock

variable {target target' : Span} {t : Timer} {a b d : DueTimer} {c : Clock}

theorem dueBy_eq_some_iff :
    dueBy target t = some d ↔ d.timer = t ∧ t.due = some d.due ∧ d.due ≤ target := by
  obtain ⟨timer, due⟩ := d
  unfold dueBy
  cases t.due with
  | none => simp
  | some time =>
    dsimp only
    by_cases early : time ≤ target
    · rw [if_pos early, Option.some.injEq, DueTimer.mk.injEq, Option.some.injEq]
      constructor
      · rintro ⟨rfl, rfl⟩
        exact ⟨rfl, rfl, early⟩
      · rintro ⟨rfl, rfl, _⟩
        exact ⟨rfl, rfl⟩
    · rw [if_neg early]
      refine ⟨nofun, ?_⟩
      rintro ⟨_, same, late⟩
      cases same
      exact absurd late early

theorem firesBefore_iff :
    firesBefore a b ↔ a.due < b.due ∨ a.due = b.due ∧ a.timer.number < b.timer.number := by
  simp [firesBefore]

theorem firesBefore_trans (h : firesBefore a b) (h' : firesBefore b d) : firesBefore a d := by
  simp only [firesBefore_iff, Span.lt_iff, Span.eq_iff] at h h' ⊢
  omega

theorem firesBefore_irrefl : ¬firesBefore a a := by
  simp only [firesBefore_iff, Span.lt_iff]
  omega

theorem not_firesBefore_trans (h : ¬firesBefore a b) (h' : ¬firesBefore b d) :
    ¬firesBefore a d := by
  simp only [firesBefore_iff, Span.lt_iff, Span.eq_iff] at h h' ⊢
  omega

/-- Timers that neither fires before the other one have the same place in the order. -/
theorem same_place (h : ¬firesBefore a b) (h' : ¬firesBefore b a) :
    a.due = b.due ∧ a.timer.number = b.timer.number := by
  simp only [firesBefore_iff, Span.lt_iff, Span.eq_iff] at h h' ⊢
  omega

/-- A timer that fires before one that is due is due itself. -/
theorem le_of_firesBefore (h : firesBefore a b) (due : b.due ≤ target) : a.due ≤ target := by
  simp only [firesBefore_iff, Span.lt_iff, Span.eq_iff, Span.le_iff] at h due ⊢
  omega

theorem firesBefore_of_lt (h : a.due < b.due) : firesBefore a b := firesBefore_iff.2 (.inl h)

/-! ## The next timer -/

/-- Of two timers the one is chosen that fires first. -/
theorem earlier_spec (best : Option DueTimer) (x : DueTimer) :
    ∃ y, earlier best x = some y ∧ (y = x ∨ best = some y) ∧ ¬firesBefore x y ∧
      ∀ b, best = some b → ¬firesBefore b y := by
  cases best with
  | none => exact ⟨x, rfl, .inl rfl, firesBefore_irrefl, nofun⟩
  | some b =>
    by_cases sooner : firesBefore x b
    · refine ⟨x, if_pos sooner, .inl rfl, firesBefore_irrefl, ?_⟩
      rintro _ ⟨⟩ back
      exact firesBefore_irrefl (firesBefore_trans sooner back)
    · refine ⟨b, if_neg sooner, .inr rfl, sooner, ?_⟩
      rintro _ ⟨⟩
      exact firesBefore_irrefl

/-- What is chosen among some timers, when one was chosen before. -/
theorem foldl_earlier {best : Option DueTimer} {ds : List DueTimer}
    (found : ds.foldl earlier best = some d) :
    (best = some d ∨ d ∈ ds) ∧ (∀ b, best = some b → ¬firesBefore b d) ∧
      ∀ x ∈ ds, ¬firesBefore x d := by
  induction ds generalizing best with
  | nil =>
    refine ⟨.inl found, fun b same => ?_, List.forall_mem_nil _⟩
    cases same.symm.trans found
    exact firesBefore_irrefl
  | cons x ds ih =>
    obtain ⟨y, chosen, origin, notX, notBest⟩ := earlier_spec best x
    obtain ⟨place, first, others⟩ := ih found
    have behind := first y chosen
    refine ⟨?_, fun b hb => not_firesBefore_trans (notBest b hb) behind,
      List.forall_mem_cons.2 ⟨not_firesBefore_trans notX behind, others⟩⟩
    rcases place with here | later
    · cases chosen.symm.trans here
      rcases origin with rfl | before
      · exact .inr (List.mem_cons_self ..)
      · exact .inl before
    · exact .inr (List.mem_cons_of_mem _ later)

theorem foldl_earlier_isSome {best : Option DueTimer} {ds : List DueTimer}
    (some : best.isSome ∨ ds ≠ []) : (ds.foldl earlier best).isSome := by
  induction ds generalizing best with
  | nil => exact some.resolve_right (absurd rfl)
  | cons x ds ih =>
    obtain ⟨y, chosen, _⟩ := earlier_spec best x
    exact ih (.inl (by rw [chosen]; rfl))

/-- The next timer is pending and due, and no pending timer fires before it. -/
theorem next?_spec (next : c.next? target = some d) :
    d.timer ∈ c.pending ∧ d.timer.due = some d.due ∧ d.due ≤ target ∧
      ∀ u ∈ c.pending, ∀ due, u.due = some due → ¬firesBefore ⟨u, due⟩ d := by
  obtain ⟨place, _, first⟩ := foldl_earlier next
  obtain ⟨t, mem, due⟩ := List.mem_filterMap.1 (place.resolve_left nofun)
  obtain ⟨rfl, due, early⟩ := dueBy_eq_some_iff.1 due
  refine ⟨mem, due, early, fun u pending time armed sooner => ?_⟩
  have also : dueBy target u = some ⟨u, time⟩ :=
    dueBy_eq_some_iff.2 ⟨rfl, armed, le_of_firesBefore sooner early⟩
  exact first _ (List.mem_filterMap.2 ⟨u, pending, also⟩) sooner

/-- There is no next timer when none is due. -/
theorem next?_eq_none_iff :
    c.next? target = none ↔ ∀ u ∈ c.pending, ∀ due, u.due = some due → target < due := by
  constructor
  · intro none u pending due armed
    refine Span.not_le.1 fun early => ?_
    have found : dueBy target u = some ⟨u, due⟩ := dueBy_eq_some_iff.2 ⟨rfl, armed, early⟩
    have busy : c.pending.filterMap (dueBy target) ≠ [] :=
      List.ne_nil_of_mem (List.mem_filterMap.2 ⟨u, pending, found⟩)
    have found := @foldl_earlier_isSome Option.none _ (.inr busy)
    change (c.next? target).isSome at found
    rw [none] at found
    cases found
  · intro late
    have empty : c.pending.filterMap (dueBy target) = [] := by
      refine List.filterMap_eq_nil_iff.2 fun u pending => ?_
      refine Option.eq_none_iff_forall_ne_some.2 fun d due => ?_
      obtain ⟨rfl, armed, early⟩ := dueBy_eq_some_iff.1 due
      exact Span.not_le.2 (late _ pending _ armed) early
    rw [next?, empty]
    rfl

/-- To look for a timer that is due earlier is to look whether the next one is. -/
theorem foldl_earlier_filter {best best' : Option DueTimer} {ds : List DueTimer}
    (same : best = best'.filter (·.due ≤ target)) :
    (ds.filter (·.due ≤ target)).foldl earlier best =
      (ds.foldl earlier best').filter (·.due ≤ target) := by
  induction ds generalizing best best' with
  | nil => exact same
  | cons x ds ih =>
    rw [List.filter_cons]
    subst same
    by_cases early : x.due ≤ target
    · rw [if_pos (by simpa using early)]
      refine ih ?_
      cases best' with
      | none => simp [earlier, early, Option.filter]
      | some b =>
        by_cases early' : b.due ≤ target
        · simp only [Option.filter, early', earlier, decide_true, if_true]
          split <;> simp [early, early']
        · have sooner : firesBefore x b := firesBefore_of_lt (Nat.lt_of_le_of_lt early
            (Span.not_le.1 early'))
          simp [Option.filter, early', earlier, sooner, early]
    · rw [if_neg (by simpa using early)]
      refine ih ?_
      cases best' with
      | none => simp [earlier, early, Option.filter]
      | some b =>
        by_cases sooner : firesBefore x b
        · have late : ¬b.due ≤ target := fun due => early (le_of_firesBefore sooner due)
          simp [Option.filter, earlier, sooner, early, late]
        · simp [earlier, sooner]

theorem next?_of_le (le : target ≤ target') :
    c.next? target = (c.next? target').filter (·.due ≤ target) := by
  have filtered : c.pending.filterMap (dueBy target) =
      (c.pending.filterMap (dueBy target')).filter (·.due ≤ target) := by
    rw [List.filter_filterMap]
    congr 1
    funext u
    unfold dueBy
    cases u.due with
    | none => rfl
    | some due =>
      by_cases early : due ≤ target
      · simp [early, Span.le_trans early le, Option.filter]
      · by_cases early' : due ≤ target' <;> simp [early, early', Option.filter]
  rw [next?, filtered]
  exact foldl_earlier_filter rfl

/-- The next timer is the same when the target is later. -/
theorem next?_mono (le : target ≤ target') (next : c.next? target = some d) :
    c.next? target' = some d := by
  rw [next?_of_le le] at next
  exact (Option.filter_eq_some_iff.1 next).1

/-- The next timer is the same when the target is earlier, if it is due by then. -/
theorem next?_of_due (le : target ≤ target') (next : c.next? target' = some d)
    (due : d.due ≤ target) : c.next? target = some d := by
  rw [next?_of_le le, next, Option.filter_some, if_pos (decide_eq_true due)]

/-- There is no next timer when the one for a later target is not due yet. -/
theorem next?_of_not_due (le : target ≤ target') (next : c.next? target' = some d)
    (due : ¬d.due ≤ target) : c.next? target = none := by
  rw [next?_of_le le, next, Option.filter_some, if_neg (by simpa using due)]

theorem take?_eq_some_iff {c' : Clock} :
    c.take? target = some (d, c') ↔
      c.next? target = some d ∧ c' = { c.disarm d.timer.number with now := d.due } := by
  simp only [take?, Option.map_eq_some_iff, Prod.mk.injEq]
  constructor
  · rintro ⟨d, next, rfl, rfl⟩
    exact ⟨next, rfl⟩
  · rintro ⟨next, rfl⟩
    exact ⟨d, next, rfl, rfl⟩

theorem take?_eq_none_iff : c.take? target = none ↔ c.next? target = none := by
  simp [take?]

theorem mem_disarm {u : Timer} {number : Nat} :
    u ∈ (c.disarm number).pending ↔ u ∈ c.pending ∧ u.number ≠ number := by
  simp [disarm]

theorem disarm_of_missing {number : Nat} (missing : ∀ u ∈ c.pending, u.number ≠ number) :
    c.disarm number = c := by
  have same : c.pending.filter (·.number != number) = c.pending :=
    List.filter_eq_self.2 fun u mem => bne_iff_ne.2 (missing u mem)
  rw [disarm, same]

/-! ## Sound clocks -/

/-- Each pending timer has a number of its own and is not due before the time that the clock shows. -/
structure Sound (c : Clock) : Prop where
  numbered : c.pending.Pairwise fun t u => t.number < u.number
  fresh {t : Timer} (pending : t ∈ c.pending) : t.number < c.nextNumber
  ahead {t : Timer} (pending : t ∈ c.pending) {due : Span} (armed : t.due = some due) : c.now ≤ due

namespace Sound

variable {u : Timer}

theorem of_unarmed (unarmed : c.pending = []) : c.Sound where
  numbered := unarmed ▸ .nil
  fresh pending := absurd (unarmed ▸ pending) List.not_mem_nil
  ahead pending := absurd (unarmed ▸ pending) List.not_mem_nil

/-- A pending timer is known by its number. -/
theorem eq_of_number (sound : c.Sound) (ht : t ∈ c.pending) (hu : u ∈ c.pending)
    (same : t.number = u.number) : t = u := by
  have apart : (c.pending.map Timer.number).Nodup :=
    (List.pairwise_map.2 sound.numbered).imp Nat.ne_of_lt
  exact List.inj_on_of_nodup_map apart ht hu same

theorem arm (sound : c.Sound) {kind : String} {after : Span} {token : ScopeId} :
    (c.arm kind after token).Sound where
  numbered := by
    refine List.pairwise_append.2 ⟨sound.numbered, List.pairwise_singleton .., fun t ht u hu => ?_⟩
    rw [List.mem_singleton.1 hu]
    exact sound.fresh ht
  fresh {t} pending := by
    rcases List.mem_append.1 pending with before | now
    · exact Nat.lt_succ_of_lt (sound.fresh before)
    · rw [List.mem_singleton.1 now]
      exact Nat.lt_succ_self _
  ahead {t} pending due armed := by
    rcases List.mem_append.1 pending with before | now
    · exact sound.ahead before armed
    · rw [List.mem_singleton.1 now] at armed
      rw [Span.le_iff, Span.add?_eq_some_iff.1 armed]
      exact Nat.le_add_right ..

theorem disarm (sound : c.Sound) {number : Nat} : (c.disarm number).Sound where
  numbered := sound.numbered.sublist List.filter_sublist
  fresh pending := sound.fresh (mem_disarm.1 pending).1
  ahead pending := sound.ahead (mem_disarm.1 pending).1

/-- The clock may be set to any time at which no pending timer is overdue. -/
theorem moved (sound : c.Sound) {now : Span}
    (ahead : ∀ t ∈ c.pending, ∀ due, t.due = some due → now ≤ due) : { c with now }.Sound where
  numbered := sound.numbered
  fresh := sound.fresh
  ahead pending _ armed := ahead _ pending _ armed

theorem take (sound : c.Sound) (next : c.next? target = some d) :
    { c.disarm d.timer.number with now := d.due }.Sound := by
  refine sound.disarm.moved fun u pending due armed => Span.not_lt.1 fun sooner => ?_
  obtain ⟨_, _, _, first⟩ := next?_spec next
  exact first u (mem_disarm.1 pending).1 due armed (firesBefore_of_lt sooner)

theorem reach (sound : c.Sound) (next : c.next? target = none) : { c with now := target }.Sound :=
  sound.moved fun u pending due armed => Nat.le_of_lt (next?_eq_none_iff.1 next u pending due armed)

/-- What is pending is the timer that is taken off, and the rest. -/
theorem perm_disarm (sound : c.Sound) (pending : t ∈ c.pending) :
    c.pending.Perm (t :: (c.disarm t.number).pending) := by
  obtain ⟨before, after, split⟩ := List.append_of_mem pending
  have numbered := sound.numbered
  rw [split, List.pairwise_append, List.pairwise_cons] at numbered
  obtain ⟨_, ⟨later, _⟩, earlier⟩ := numbered
  have kept (u : Timer) (mem : u ∈ before ++ after) : (u.number != t.number) = true := by
    rcases List.mem_append.1 mem with mem | mem
    · exact bne_iff_ne.2 (Nat.ne_of_lt (earlier u mem t (List.mem_cons_self ..)))
    · exact bne_iff_ne.2 (Nat.ne_of_gt (later u mem))
  have left : c.pending.filter (·.number != t.number) = before ++ after := by
    rw [split, List.filter_append, List.filter_cons_of_neg (by simp), ← List.filter_append]
    exact List.filter_eq_self.2 kept
  show c.pending.Perm (t :: c.pending.filter (·.number != t.number))
  rw [left, split]
  exact List.perm_middle

end Sound

end Clock

end ScopedMachine

import ScopedMachine.Proofs.Order

/-!
# Every teardown has its turn once

A teardown that is registered with a token waits at the end of the list of its scope. The release of
the scope takes the list over and works it off; from then on the list stays empty, and what is
registered is performed at once. `Disposing` is kept by every step from the beginning of a release on:
it compares what was performed with the list that was taken over, and says whether the release was
counted. Only a panic lets a release end before the list is worked off.
-/

namespace ScopedMachine

variable {H : Type} {p : Program H} {s : ScopeId}

/-! ## What a release does -/

/-- The teardowns of a scope that its release performed. -/
def performed (s : ScopeId) (past : List (Config H)) : List (Teardown H) :=
  past.filterMap (Config.teardown? s)

/-- The scope whose release is counted in the next step, because no teardown is left. -/
def Config.counts? (c : Config H) : Option ScopeId :=
  match c.control, c.stack with
  | .give _, .releasing s [] :: _ => some s
  | _, _ => none

/-- The scopes whose releases were counted. -/
def counted (past : List (Config H)) : List ScopeId := past.filterMap Config.counts?

/-- The manager that counts a scope. -/
def World.counter? (w : World H) (s : ScopeId) : Option ManagerId := (w.holder? s).bind Prod.snd

/-- No frame releases the scope. -/
def Clear (s : ScopeId) (fs : List (Frame H)) : Prop := ∀ ts, .releasing s ts ∉ fs

section Configs

variable {c : Config H} {t : Teardown H} {past : List (Config H)}

theorem Config.exists_of_teardown? (h : c.teardown? s = some t) :
    ∃ ts base, c.Resumes s (t :: ts) base := by
  unfold teardown? at h
  split at h
  · next a u v ts base control stack =>
    split at h
    · next same =>
      subst same
      cases h
      exact ⟨ts, base, stack, a, control⟩
    · cases h
  · cases h

theorem Config.exists_of_counts? (h : c.counts? = some s) : ∃ base, c.Resumes s [] base := by
  unfold counts? at h
  split at h
  · next a u base control stack =>
    cases h
    exact ⟨base, stack, a, control⟩
  · cases h

theorem Config.Resumes.teardown? {ts : List (Teardown H)} {base : List (Frame H)}
    (resumes : c.Resumes s ts base) : c.teardown? s = ts.head? := by
  obtain ⟨stack, a, control⟩ := resumes
  cases ts <;> simp [Config.teardown?, control, stack]

theorem Config.Resumes.counts? {ts : List (Teardown H)} {base : List (Frame H)}
    (resumes : c.Resumes s ts base) : c.counts? = if ts = [] then some s else none := by
  obtain ⟨stack, a, control⟩ := resumes
  cases ts <;> simp [Config.counts?, control, stack]

/-- Where no answer comes to a release of the scope, nothing is performed and nothing counted. -/
theorem Config.rests_of_apart (apart : ∀ ts base, ¬c.Resumes s ts base) :
    c.teardown? s = none ∧ c.counts? ≠ some s := by
  refine ⟨Option.eq_none_iff_forall_ne_some.2 fun t h => ?_, fun h => ?_⟩
  · obtain ⟨ts, base, resumes⟩ := exists_of_teardown? h
    exact apart _ _ resumes
  · obtain ⟨base, resumes⟩ := exists_of_counts? h
    exact apart _ _ resumes

theorem Clear.apart (clear : Clear s c.stack) (ts : List (Teardown H)) (base : List (Frame H)) :
    ¬c.Resumes s ts base :=
  fun resumes => clear ts (resumes.1 ▸ List.mem_cons_self ..)

theorem performed_concat : performed s (past ++ [c]) = performed s past ++ (c.teardown? s).toList := by
  cases h : c.teardown? s <;> simp [performed, h]

theorem counted_concat : counted (past ++ [c]) = counted past ++ c.counts?.toList := by
  cases h : c.counts? <;> simp [counted, h]

theorem counted_append {later : List (Config H)} :
    counted (past ++ later) = counted past ++ counted later :=
  List.filterMap_append

end Configs

/-! ## From the beginning of a release on -/

/-- How far the release of a scope that began at `b` has come; `after` was passed since. -/
inductive Disposing (s : ScopeId) (b : Config H) (after : List (Config H)) (c : Config H) : Prop where
  /-- What is left of the list follows what was performed. -/
  | underWay (above : List (Frame H)) (ts : List (Teardown H))
      (stack : c.stack = above ++ .releasing s ts :: b.stack) (clear : Clear s above)
      (sofar : performed s after ++ ts = b.world.teardowns s) (uncounted : s ∉ counted after)
  /-- The list was worked off, and the release was counted, once. -/
  | workedOff (clear : Clear s c.stack) (sofar : performed s after = b.world.teardowns s)
      (once : (counted after).count s = 1)
  /-- A panic ended the release; what was left of the list is never performed. -/
  | lost (loses : ∃ y ∈ after, y.Loses s b.stack) (clear : Clear s c.stack)
      (sofar : performed s after <+: b.world.teardowns s) (uncounted : s ∉ counted after)

section Disposing

variable {b c c' : Config H} {after : List (Config H)}

/-- What a scope is not released by, it is not released by after a step, if it was released before. -/
theorem Course.clear (course : Course c c') (released : c.frees? ≠ some s)
    (clear : Clear s c.stack) : Clear s c'.stack := by
  intro ts mem
  rcases course.continues s ts mem with ⟨us, old⟩ | frees
  · exact clear us old
  · exact released frees

/-- Where the release rests, nothing is added to what was performed and counted. -/
theorem rests_concat (after : List (Config H)) (rests : c.teardown? s = none ∧ c.counts? ≠ some s) :
    performed s (after ++ [c]) = performed s after ∧
      (counted (after ++ [c])).count s = (counted after).count s := by
  obtain ⟨idle, uncounted⟩ := rests
  rw [performed_concat, counted_concat, idle, List.count_append]
  refine ⟨List.append_nil _, ?_⟩
  cases h : c.counts? with
  | none => rfl
  | some t =>
    have other : t ≠ s := fun same => uncounted (h.trans (congrArg some same))
    simp [other]

theorem Disposing.rest (disposing : Disposing s b after c) (rests : c.teardown? s = none ∧ c.counts? ≠ some s)
    (clear : Clear s c.stack) (clear' : Clear s c'.stack) : Disposing s b (after ++ [c]) c' := by
  obtain ⟨same, count⟩ := rests_concat after rests
  cases disposing with
  | underWay above ts stack =>
    exact absurd (stack ▸ List.mem_append_right _ (List.mem_cons_self ..)) (clear ts)
  | workedOff _ sofar once => exact .workedOff clear' (same.trans sofar) (count.trans once)
  | lost loses _ sofar uncounted =>
    obtain ⟨y, mem, loses⟩ := loses
    refine .lost ⟨y, List.mem_append_left _ mem, loses⟩ clear' (same ▸ sofar) ?_
    rw [← List.count_eq_zero, count, List.count_eq_zero]
    exact uncounted

/-- An answer comes to the release: the next teardown is performed, or the release is counted. -/
theorem Disposing.resume {ts : List (Teardown H)} (resumes : c.Resumes s ts b.stack)
    (h : p.step c = some c') (clear : Clear s b.stack)
    (sofar : performed s after ++ ts = b.world.teardowns s) (uncounted : s ∉ counted after) :
    Disposing s b (after ++ [c]) c' := by
  have performs := resumes.teardown?
  have counts := resumes.counts?
  obtain ⟨w, host, ctl, fs⟩ := c
  obtain ⟨stack, a, control⟩ := resumes
  cases stack
  cases control
  cases ts with
  | nil =>
    cases h
    refine .workedOff clear ?_ ?_
    · rw [performed_concat, performs, ← sofar]
      rfl
    · rw [counted_concat, counts, List.count_append, List.count_eq_zero.2 uncounted]
      simp
  | cons t ts =>
    cases h
    obtain ⟨fs, free, grown⟩ := (Config.grows_performTeardown (t := t)
      (c := ⟨w, host, .give a, .releasing s ts :: b.stack⟩)).stack
    refine .underWay fs ts grown (fun us mem => ?_) ?_ ?_
    · cases free _ mem
    · rw [performed_concat, performs, ← sofar]
      simp
    · rw [counted_concat, counts]
      simpa using uncounted

theorem Disposing.step (disposing : Disposing s b after c) (course : Course c c') (h : p.step c = some c')
    (released : c.frees? ≠ some s) (clear : Clear s b.stack) : Disposing s b (after ++ [c]) c' := by
  have idle (clear : Clear s c.stack) : Disposing s b (after ++ [c]) c' :=
    disposing.rest (Config.rests_of_apart clear.apart) clear (course.clear released clear)
  cases disposing with
  | workedOff clear => exact idle clear
  | lost _ clear => exact idle clear
  | underWay above ts stack clearAbove sofar uncounted =>
    by_cases resumes : c.Resumes s ts b.stack
    · exact .resume resumes h clear sofar uncounted
    · -- the answer, if there is one, comes to a frame above the release
      have apart (us : List (Teardown H)) (base : List (Frame H)) : ¬c.Resumes s us base := by
        rintro ⟨top, ended⟩
        cases above with
        | nil =>
          have top' := stack.symm.trans top
          cases top'
          exact resumes ⟨stack, ended⟩
        | cons f above =>
          have top' := stack.symm.trans top
          cases top'
          exact clearAbove us (List.mem_cons_self ..)
      obtain ⟨same, count⟩ := rests_concat after (Config.rests_of_apart apart)
      have uncounted' : s ∉ counted (after ++ [c]) := by
        rw [← List.count_eq_zero, count, List.count_eq_zero]
        exact uncounted
      cases course.releasing stack with
      | above above' stack' continues =>
        refine .underWay above' ts stack' (fun us mem => ?_) (by rw [same, sofar]) uncounted'
        rcases continues s us mem with ⟨vs, old⟩ | frees
        · exact clearAbove vs old
        · exact released frees
      | perform t us above' left resumes' => exact absurd resumes' resumes
      | finish left resumes' => exact absurd resumes' resumes
      | lose loses control stack' =>
        refine .lost ⟨c, List.mem_append_right _ (List.mem_singleton_self c), loses⟩
          (stack' ▸ clear) ⟨ts, by rw [same, sofar]⟩ uncounted'

end Disposing

section Counts

variable {c c' : Config H} {i : ManagerId}

theorem World.released_addScope {w : World H} {owner : Option MachineId}
    {manager : Option ManagerId} :
    ((w.addScope owner manager).2.tally i).released = (w.tally i).released := by
  cases manager with
  | none => rfl
  | some j =>
    simp only [addScope, tally, modifyManager, Array.getElem?_modify]
    split
    · cases w.managers[i.index]? <;> rfl
    · rfl

/-- A step counts the release of a scope that it is the end of, and no other one. -/
theorem Course.released (course : Course c c') (h : p.step c = some c')
    (bound : i.index < c.world.managers.size)
    (known : ∀ s, c.counts? = some s → c.world.holder? s ≠ none) :
    (c'.world.tally i).released = (c.world.tally i).released +
      (c.counts?.toList.filter fun s => decide (c.world.counter? s = some i)).length := by
  cases counts : c.counts? with
  | some s =>
    obtain ⟨base, resumes⟩ := Config.exists_of_counts? counts
    obtain ⟨_, world⟩ := Program.step_of_resumes resumes h
    obtain ⟨⟨o, manager⟩, holder⟩ := Option.ne_none_iff_exists'.1 (known s counts)
    have counter : c.world.counter? s = manager := by rw [World.counter?, holder]; rfl
    rw [world, World.tally_countRelease holder bound]
    by_cases here : manager = some i <;> simp [here, counter]
  | none =>
    rw [Option.toList_none, List.filter_nil, List.length_nil, Nat.add_zero]
    cases course with
    | call grows | perform s t ts rest a control stack grows =>
      rw [World.tally_congr grows.managers]
    | turn f rest stack ended free grows => rw [World.tally_congr grows.managers]
    | manage running stack managers =>
      rw [World.tally, managers]
      exact congrArg Tally.released (World.tally_push (w := c.world))
    | make manager k control stack world | enter m cell f x stage rest found enters stack stack' world =>
      rw [world, World.released_addScope]
    | begin s control live stack world => rw [world]; rfl
    | finish s rest a control stack =>
      rw [Config.Resumes.counts? ⟨stack, a, control⟩] at counts
      cases counts
    | lose s ts rest message control stack next => rw [next]

end Counts

namespace Program.Run

variable {w : World H} {past before after : List (Config H)} {b c : Config H}

/-- A scope that is being released was freed. -/
theorem freed_of_releasing (run : p.Run w past c) {ts : List (Teardown H)}
    (mem : .releasing s ts ∈ c.stack) : s ∈ past.filterMap Config.frees? := by
  induction run generalizing ts with
  | begin => cases mem
  | @step past c c' run h ih =>
    rw [List.filterMap_append, List.mem_append]
    rcases (run.course h).continues s ts mem with ⟨us, old⟩ | frees
    · exact .inl (ih old)
    · exact .inr (List.mem_filterMap.2 ⟨c, List.mem_singleton_self c, frees⟩)
  | resume run ended => exact absurd (ended.1 ▸ mem) List.not_mem_nil

/-- Whatever a release performs or counts, it began before. -/
theorem unperformed (run : p.Run w past c) (never : s ∉ past.filterMap Config.frees?) :
    performed s past = [] ∧ s ∉ counted past := by
  have apart (y : Config H) (passed : y ∈ past) (ts : List (Teardown H)) (base : List (Frame H)) :
      ¬y.Resumes s ts base := by
    intro resumes
    obtain ⟨pre, post, rfl⟩ := List.append_of_mem passed
    have reached : p.Run w pre y := run.earlier ⟨post ++ [c], by simp⟩
    have freed := reached.freed_of_releasing (resumes.1 ▸ List.mem_cons_self ..)
    rw [List.filterMap_append, List.mem_append] at never
    exact never (.inl freed)
  constructor
  · exact List.filterMap_eq_nil_iff.2 fun y passed => (Config.rests_of_apart (apart y passed)).1
  · intro mem
    obtain ⟨y, passed, counts⟩ := List.mem_filterMap.1 mem
    exact (Config.rests_of_apart (apart y passed)).2 counts

/-- When the release of a scope begins it never began before. -/
theorem notMem_freed (run : p.Run w past c) (frees : c.frees? = some s) :
    s ∉ past.filterMap Config.frees? := by
  intro freed
  obtain ⟨_, released⟩ := run.header?_of_freed freed
  obtain ⟨_, live⟩ := Config.frees?_eq_some_iff.1 frees
  obtain ⟨_, live⟩ := World.isCancelled_eq_false_iff.1 live
  rw [released] at live
  cases live

/-- How far a release has come is known from its beginning on. -/
theorem disposing (run : p.Run w past c) (split : past = before ++ b :: after)
    (frees : b.frees? = some s) : Disposing s b after c := by
  obtain ⟨control, live⟩ := Config.frees?_eq_some_iff.1 frees
  have going : ¬b.IsOver := by
    rintro ⟨_, ⟨a, ended⟩ | ⟨message, ended⟩⟩ <;> rw [control] at ended <;> cases ended
  have begun : p.Run w before b := run.earlier (split ▸ ⟨after ++ [c], by simp⟩)
  -- the scope is live when its release begins, so nothing releases it yet
  have clear : Clear s b.stack := by
    intro ts mem
    obtain ⟨_, released⟩ := begun.releases s ts mem
    obtain ⟨_, live⟩ := World.isCancelled_eq_false_iff.1 live
    rw [released] at live
    cases live
  obtain ⟨z, rest, first, h, reached⟩ := run.step_of_split split going
  have base : Disposing s b [] z := by
    have next : some (Config.performRelease s b) = some z := by rw [← h, Program.step, control]
    cases next
    refine .underWay [] (b.world.teardowns s) ?_ (fun ts mem => absurd mem List.not_mem_nil) rfl
      List.not_mem_nil
    rw [Config.performRelease, if_neg (by simp [live])]
    rfl
  let P (past : List (Config H)) (c : Config H) : Prop :=
    ∃ after, past = before ++ b :: after ∧ Disposing s b after c
  have kept : P past c := by
    have passed : (before ++ [b]) ++ [z] <+: past ++ [c] :=
      ⟨rest, by rw [split, List.append_assoc, List.append_assoc, List.append_assoc,
        List.singleton_append, List.singleton_append, ← first]; rfl⟩
    refine run.since passed ⟨[], rfl, base⟩ ?_ ?_
    · rintro past c c' run h ⟨after, rfl, disposing⟩
      have released : c.frees? ≠ some s := fun again => by
        have live := (Config.frees?_eq_some_iff.1 again).2
        rw [run.isCancelled_of_frees frees] at live
        cases live
      exact ⟨after ++ [c], by simp, disposing.step (run.course h) h released clear⟩
    · rintro past c run ended host t ⟨after, rfl, disposing⟩
      have nothing : Clear s c.stack := fun ts mem => by simp [ended.1] at mem
      exact ⟨after ++ [c], by simp,
        disposing.rest (Config.rests_of_apart nothing.apart) nothing nothing⟩
  obtain ⟨after', split', disposing⟩ := kept
  have same : after' = after := by simpa using split'.symm.trans split
  exact same ▸ disposing

/-! ## Counts -/

theorem freed_of_counted (run : p.Run w past c) (mem : s ∈ counted past) :
    s ∈ past.filterMap Config.frees? := by
  by_contra never
  exact (run.unperformed never).2 mem

/-- A release is counted after it began. -/
theorem count_counted (run : p.Run w past c) (split : past = before ++ b :: after)
    (frees : b.frees? = some s) : (counted past).count s = (counted after).count s := by
  have begun : p.Run w before b := run.earlier (split ▸ ⟨after ++ [c], by simp⟩)
  have never := (begun.unperformed (begun.notMem_freed frees)).2
  have uncounted : b.counts? = none := by
    obtain ⟨control, _⟩ := Config.frees?_eq_some_iff.1 frees
    simp [Config.counts?, control]
  rw [split, counted_append, List.count_append, List.count_eq_zero.2 never, Nat.zero_add]
  simp [counted, uncounted]

/-- No release is counted twice. -/
theorem counted_nodup (run : p.Run w past c) : (counted past).Nodup := by
  refine List.nodup_iff_count_le_one.2 fun s => ?_
  by_cases mem : s ∈ counted past
  · obtain ⟨b, passed, frees⟩ := List.mem_filterMap.1 (run.freed_of_counted mem)
    obtain ⟨before, after, split⟩ := List.append_of_mem passed
    rw [run.count_counted split frees]
    cases run.disposing split frees with
    | underWay above ts stack clear sofar uncounted => simp [List.count_eq_zero.2 uncounted]
    | workedOff clear sofar once => exact Nat.le_of_eq once
    | lost loses clear sofar uncounted => simp [List.count_eq_zero.2 uncounted]
  · simp [List.count_eq_zero.2 mem]

/-- Who counts a scope whose release was counted stays known. -/
theorem counter?_step {c' : Config H} (run : p.Run w past c) (h : p.step c = some c')
    (freed : s ∈ past.filterMap Config.frees?) : c'.world.counter? s = c.world.counter? s := by
  obtain ⟨owner, released⟩ := run.header?_of_freed freed
  obtain ⟨manager, holder⟩ := World.owner_eq.1 ⟨_, released⟩
  rw [World.counter?, World.counter?, (run.course h).holds.holder holder, holder]

/-- The count of a manager grows by one with each release of its scopes that is counted. -/
theorem released_eq (run : p.Run w past c) {x : Config H} {span : List (Config H)}
    {i : ManagerId} (split : past = before ++ x :: span) (bound : i.index < x.world.managers.size) :
    (c.world.tally i).released = (x.world.tally i).released +
      ((counted (x :: span)).filter fun s => decide (c.world.counter? s = some i)).length := by
  let P (past : List (Config H)) (c : Config H) : Prop :=
    ∃ span, past = before ++ span ∧ i.index < c.world.managers.size ∧
      (c.world.tally i).released = (x.world.tally i).released +
        ((counted span).filter fun s => decide (c.world.counter? s = some i)).length
  have kept : P past c := by
    have passed : before ++ [x] <+: past ++ [c] := split ▸ ⟨span ++ [c], by simp⟩
    refine run.since passed ⟨[], by simp, bound, by simp [counted]⟩ ?_ ?_
    · rintro past c c' run h ⟨span, rfl, bound, count⟩
      refine ⟨span ++ [c], by simp, Nat.lt_of_lt_of_le bound (run.course h).managers_size, ?_⟩
      have freed {s : ScopeId} (counts : c.counts? = some s) :
          s ∈ (before ++ span).filterMap Config.frees? := by
        obtain ⟨base, resumes⟩ := Config.exists_of_counts? counts
        exact run.freed_of_releasing (resumes.1 ▸ List.mem_cons_self ..)
      have known (s : ScopeId) (counts : c.counts? = some s) : c.world.holder? s ≠ none := by
        obtain ⟨owner, released⟩ := run.header?_of_freed (freed counts)
        obtain ⟨manager, holder⟩ := World.owner_eq.1 ⟨_, released⟩
        rw [holder]
        nofun
      rw [(run.course h).released h bound known, count, counted_concat, List.filter_append,
        List.length_append, ← Nat.add_assoc]
      congr 2
      · congr 1
        refine List.filter_congr fun s mem => ?_
        have inside : s ∈ counted (before ++ span) := by
          rw [counted_append]
          exact List.mem_append_right _ mem
        rw [run.counter?_step h (run.freed_of_counted inside)]
      · refine List.filter_congr fun s mem => ?_
        rw [run.counter?_step h (freed (Option.mem_toList.1 mem))]
    · rintro past c run ended host t ⟨span, rfl, bound, count⟩
      have uncounted : c.counts? = none := by simp [Config.counts?, ended.1]
      refine ⟨span ++ [c], by simp, bound, ?_⟩
      rw [counted_concat, uncounted]
      simpa using count
  obtain ⟨span', split', _, count⟩ := kept
  have same : span' = x :: span := by simpa using split'.symm.trans split
  exact same ▸ count

end Program.Run

/-! ## Late registrations -/

/-- What becomes of a teardown that is registered with a cancelled token: it is performed at once,
above the frame of the call, and the caller goes on, at `base`, when it is over. -/
inductive Late (base : List (Frame H)) (span : List (Config H)) (c : Config H) : Prop where
  | underWay (above : List (Frame H)) (stack : c.stack = above ++ .settling (.gave .unit) :: base)
  | returned (mid : List (Config H)) (y : Config H) (split : span = mid ++ [y])
      (passed : y.stack = .settling (.gave .unit) :: base ∧ ∃ a, y.control = .give a)
      (stack : c.stack = base) (control : c.control = .give .unit)
  | panicked (stack : c.stack = base) (control : ∃ message, c.control = .panic message)

theorem Late.step {base : List (Frame H)} {span : List (Config H)} {c c' : Config H}
    (late : Late base span c) (apart : c.stack ≠ base) (course : Course c c')
    (h : p.step c = some c') : Late base (span ++ [c]) c' := by
  cases late with
  | returned mid y split passed stack => exact absurd stack apart
  | panicked stack => exact absurd stack apart
  | underWay above stack =>
    by_cases busy : above ≠ [] ∨ c.control.isEnd = false
    · obtain ⟨above', stack'⟩ := course.stays stack busy
      exact .underWay above' stack'
    · obtain ⟨none, ended⟩ := not_or.1 busy
      obtain ⟨w, host, ctl, fs⟩ := c
      cases Classical.not_not.1 none
      cases stack
      cases ctl with
      | give a => cases h; exact .returned span _ rfl ⟨rfl, a, rfl⟩ rfl rfl
      | panic message => cases h; exact .panicked rfl ⟨message, rfl⟩
      | gather g =>
        cases g with
        | done r => cases h
        | _ => exact absurd rfl ended
      | _ => exact absurd rfl ended

section Late

variable {w : World H} {before past span : List (Config H)} {x c : Config H} {t : Script H}
  {k : Answer → Script H}

/-- A registration hangs its teardown off the scope at the end of the list, or runs it at once. -/
theorem Program.step_onCancel (control : c.control = .run (.call (.onCancel s t) k)) :
    ∃ c', p.step c = some c' ∧ c'.stack = .settling (.gave .unit) :: .await k :: c.stack ∧
      (c.world.isCancelled s = false → c'.control = .give .unit ∧
        c'.world.teardowns s = c.world.teardowns s ++ [.run t]) ∧
      (c.world.isCancelled s = true → c'.control = .run t ∧ c'.world = c.world) := by
  obtain ⟨w, host, ctl, fs⟩ := c
  cases control
  cases cancelled : w.isCancelled s with
  | true =>
    refine ⟨_, rfl, ?_, by simp, fun _ => ?_⟩ <;>
      simp [Program.call, Config.onCancel, Config.push, Config.performTeardown, Config.run, cancelled]
  | false =>
    refine ⟨_, rfl, ?_, fun _ => ?_, by simp⟩ <;>
      simp [Program.call, Config.onCancel, Config.push, Config.mapWorld, Config.give, cancelled,
        World.teardowns_addTeardown cancelled]

/-- A teardown that is registered with a cancelled token is over before the call returns. -/
theorem Program.Run.late (run : p.Run w past c) (split : past = before ++ x :: span)
    (control : x.control = .run (.call (.onCancel s t) k))
    (stays : ∀ y ∈ span, y.stack ≠ .await k :: x.stack) : Late (.await k :: x.stack) span c := by
  have going : ¬x.IsOver := by
    rintro ⟨_, ⟨a, ended⟩ | ⟨message, ended⟩⟩ <;> rw [control] at ended <;> cases ended
  have suffix {seen : List (Config H)} {c : Config H} (late : Late (.await k :: x.stack) seen c) :
      ∃ above, c.stack = above ++ .await k :: x.stack := by
    cases late with
    | underWay above stack => exact ⟨above ++ [_], by rw [stack, List.append_assoc]; rfl⟩
    | returned mid y split passed stack => exact ⟨[], stack⟩
    | panicked stack => exact ⟨[], stack⟩
  refine run.above_induction split going stays suffix (fun {z} h => ?_) ?_
  · obtain ⟨z', step, stack, _⟩ := Program.step_onCancel (p := p) control
    rw [step] at h
    cases h
    exact .underWay [] stack
  · intro seen c c' reached inside h late
    exact late.step (stays c inside) (reached.course h) h

end Late

/-! ## Every teardown -/

/-- What is known of teardowns at an instant of a run. -/
structure Disposal (p : Program H) (past : List (Config H)) (c : Config H) : Prop where
  /-- A registration with a live token waits at the end of the list; with a cancelled one it is
  performed at once, and nothing is added to the list. -/
  registers {s : ScopeId} {t : Script H} {k : Answer → Script H}
    (control : c.control = .run (.call (.onCancel s t) k)) :
    ∃ c', p.step c = some c' ∧ c'.stack = .settling (.gave .unit) :: .await k :: c.stack ∧
      (c.world.isCancelled s = false → c'.control = .give .unit ∧
        c'.world.teardowns s = c.world.teardowns s ++ [.run t]) ∧
      (c.world.isCancelled s = true → c'.control = .run t ∧ c'.world = c.world)
  /-- A registration returns when what it set off is over. -/
  late {before span : List (Config H)} {x : Config H} {s : ScopeId} {t : Script H}
    {k : Answer → Script H} (split : past = before ++ x :: span)
    (control : x.control = .run (.call (.onCancel s t) k))
    (stays : ∀ y ∈ span, y.stack ≠ .await k :: x.stack) : Late (.await k :: x.stack) span c
  /-- The signal of a machine hangs a stop off its scope, or stops the machine at once. -/
  signals {s : ScopeId} {m : MachineId} {base : List (Frame H)}
    (control : c.control = .give (.entered (.ok ())))
    (stack : c.stack = .starting m (some s) :: base) :
    ∃ c', p.step c = some c' ∧
      (c.world.isCancelled s = false → c'.control = .give .unit ∧ c'.stack = .signalled m :: base ∧
        c'.world.teardowns s = c.world.teardowns s ++ [.stop m]) ∧
      (c.world.isCancelled s = true → c.world.isAlive m → c'.control = .stop m ∧
        c'.stack = .holding m :: .signalled m :: base ∧
        c'.world.teardowns s = c.world.teardowns s)
  /-- Where no release began, nothing was performed or counted; as long as the token is live, what
  was registered waits in its place. -/
  waits {s : ScopeId} (never : s ∉ past.filterMap Config.frees?) :
    performed s past = [] ∧ s ∉ counted past ∧
      (c.world.isCancelled s = false → ∀ y ∈ past, y.world.teardowns s <+: c.world.teardowns s)
  /-- A release takes over all that was registered before, and works it off in order. -/
  works {before after : List (Config H)} {b : Config H} {s : ScopeId}
    (split : past = before ++ b :: after) (frees : b.frees? = some s) :
    performed s before = [] ∧ s ∉ counted before ∧
      (∀ y ∈ before, y.world.teardowns s <+: b.world.teardowns s) ∧
      Disposing s b after c ∧ Fate s b after c
  /-- The token is cancelled from the beginning of the release on. -/
  cancelled {before after : List (Config H)} {b : Config H} {s : ScopeId}
    (split : past = before ++ b :: after) (frees : b.frees? = some s) :
    ∀ y ∈ after ++ [c], y.world.isCancelled s = true
  /-- Whether it was released in the run or before, a scope stays released. -/
  stays {y : Config H} {s : ScopeId} (passed : y ∈ past) (known : y.world.header? s ≠ none)
    (cancelled : y.world.isCancelled s = true) : c.world.isCancelled s = true
  /-- The teardown whose turn it is is performed above what is left of the list. -/
  turn {s : ScopeId} {t : Teardown H} (performs : c.teardown? s = some t) :
    ∃ ts base, c.stack = .releasing s (t :: ts) :: base ∧
      p.step c = some
        ((Config.push (.releasing s ts) { c with stack := base }).performTeardown t)
  /-- Nothing hangs off a cancelled token. -/
  nothing {s : ScopeId} (cancelled : c.world.isCancelled s = true) : c.world.teardowns s = []
  /-- While the token is live no teardown is performed. -/
  rests {s : ScopeId} (live : c.world.isCancelled s = false) : c.teardown? s = none
  /-- No release begins twice. -/
  once : (past.filterMap Config.frees?).Nodup
  /-- To release a scope again does nothing. -/
  again {s : ScopeId} (control : c.control = .release s) (cancelled : c.world.isCancelled s = true) :
    p.step c = some (c.give .unit)
  /-- A manager counts each release of a scope of its own once. -/
  counts {before span : List (Config H)} {x : Config H} {i : ManagerId}
    (split : past = before ++ x :: span) (bound : i.index < x.world.managers.size) :
    (counted past).Nodup ∧ (c.world.tally i).released = (x.world.tally i).released +
      ((counted (x :: span)).filter fun s => decide (c.world.counter? s = some i)).length

namespace Program.Run

variable {w : World H} {before past after : List (Config H)} {b c : Config H}

theorem isCancelled_since (run : p.Run w past c) (split : past = before ++ b :: after)
    (frees : b.frees? = some s) : ∀ y ∈ after ++ [c], y.world.isCancelled s = true := by
  intro y mem
  obtain ⟨pre, post, here⟩ := List.append_of_mem mem
  have passed : (before ++ b :: pre) ++ [y] <+: past ++ [c] := ⟨post, by simp [split, here]⟩
  exact (run.earlier passed).isCancelled_of_frees frees

/-- A scope that was released stays released. -/
theorem isCancelled_stays (run : p.Run w past c) {y : Config H} (passed : y ∈ past)
    (known : y.world.header? s ≠ none) (cancelled : y.world.isCancelled s = true) :
    c.world.isCancelled s = true := by
  obtain ⟨pre, post, split⟩ := List.append_of_mem passed
  have released (y : Config H) (known : y.world.header? s ≠ none)
      (cancelled : y.world.isCancelled s = true) :
      ∃ owner, y.world.header? s = some (true, owner) := by
    obtain ⟨⟨released, owner⟩, header⟩ := Option.ne_none_iff_exists'.1 known
    cases released with
    | true => exact ⟨owner, header⟩
    | false => exact absurd header (World.isCancelled_iff.1 cancelled owner)
  have kept : ∃ owner, c.world.header? s = some (true, owner) := by
    have passed : pre ++ [y] <+: past ++ [c] := split ▸ ⟨post ++ [c], by simp⟩
    refine run.since passed
      (P := fun _ c => ∃ owner, c.world.header? s = some (true, owner))
      (released y known cancelled) ?_ ?_
    · rintro past c c' run h ⟨owner, released⟩
      exact ⟨owner, (run.move h).scopes.header released⟩
    · exact fun run ended host t released => released
  obtain ⟨owner, header⟩ := kept
  refine World.isCancelled_iff.2 fun owner' live => ?_
  rw [header] at live
  cases live

/-- While a token is live, no teardown of its scope is performed. -/
theorem teardown?_of_live (run : p.Run w past c) (live : c.world.isCancelled s = false) :
    c.teardown? s = none := by
  refine (Config.rests_of_apart fun ts base resumes => ?_).1
  obtain ⟨owner, released⟩ := run.releases s ts (resumes.1 ▸ List.mem_cons_self ..)
  obtain ⟨owner', live⟩ := World.isCancelled_eq_false_iff.1 live
  rw [released] at live
  cases live

/-- Every teardown has its turn once, at the right time. -/
theorem disposal (run : p.Run w past c) : Disposal p past c where
  registers control := Program.step_onCancel control
  late split control stays := run.late split control stays
  signals {s m base} control stack := by
    obtain ⟨w', host, ctl, fs⟩ := c
    cases control
    cases stack
    cases cancelled : w'.isCancelled s with
    | true =>
      refine ⟨_, rfl, by simp, fun _ alive => ?_⟩
      have alive : w'.isAlive m = true := alive
      simp [Config.onCancel, Config.push, Config.performTeardown, Config.pin, Config.mapWorld,
        Config.stop, cancelled, alive, World.teardowns, World.modifyMachine]
    | false =>
      refine ⟨_, rfl, fun _ => ?_, by simp⟩
      simp [Config.onCancel, Config.push, Config.mapWorld, Config.give, cancelled,
        World.teardowns_addTeardown cancelled]
  waits never := by
    obtain ⟨idle, uncounted⟩ := run.unperformed never
    refine ⟨idle, uncounted, fun live y passed => run.prefix_teardowns passed fun owner released => ?_⟩
    obtain ⟨owner', live⟩ := World.isCancelled_eq_false_iff.1 live
    rw [released] at live
    cases live
  works {before after b s} split frees := by
    have begun : p.Run w before b := run.earlier (split ▸ ⟨after ++ [c], by simp⟩)
    obtain ⟨idle, uncounted⟩ := begun.unperformed (begun.notMem_freed frees)
    have passed : before ++ [b] <+: past := split ▸ ⟨after, by simp⟩
    obtain ⟨after', split', fate⟩ := run.fate passed frees
    have same : after' = after := by simpa using split'.symm.trans split
    refine ⟨idle, uncounted, fun y mem => ?_, run.disposing split frees, same ▸ fate⟩
    refine begun.prefix_teardowns mem fun owner released => ?_
    obtain ⟨_, live⟩ := Config.frees?_eq_some_iff.1 frees
    obtain ⟨owner', live⟩ := World.isCancelled_eq_false_iff.1 live
    rw [released] at live
    cases live
  cancelled split frees := run.isCancelled_since split frees
  stays passed known cancelled := run.isCancelled_stays passed known cancelled
  turn performs := by
    obtain ⟨ts, base, stack, a, control⟩ := Config.exists_of_teardown? performs
    refine ⟨ts, base, stack, ?_⟩
    rw [Program.step, control, stack]
    rfl
  nothing {s} cancelled := run.tidy s cancelled
  rests live := run.teardown?_of_live live
  once := run.freed_nodup
  again control cancelled := by
    rw [Program.step, control]
    simp [Config.performRelease, cancelled]
  counts split bound := ⟨run.counted_nodup, run.released_eq split bound⟩

end Program.Run

namespace Lamp

/-- Register two teardowns with the token of a counted scope and release the scope twice. -/
def sweep (first second : ScopeId → Script Unit) : Script Unit :=
  .call .newManager fun
    | .manager i =>
      .call (.newScope (some i)) fun
        | .scope s =>
          .call (.onCancel s (first s)) fun _ =>
            .call (.onCancel s (second s)) fun _ =>
              .call (.release s) fun _ => .call (.release s) fun _ => .ok
        | _ => .ok
    | _ => .ok

/-- Where the run begins in which two teardowns are registered. -/
def sweeping (first second : ScopeId → Script Unit) : Config Unit :=
  { world, host := (), control := .run (sweep first second) }

theorem sweeping_run (first second : ScopeId → Script Unit) (n : Nat) :
    program.Run world (program.trail n (sweeping first second))
      (program.run n (sweeping first second)) :=
  (Program.Run.begin world_isFresh () (sweep first second)).trail n

/-- A teardown that registers another one with the same token, and releases the scope. -/
def again (s : ScopeId) : Script Unit :=
  .call (.onCancel s .ok) fun _ => .call (.release s) fun _ => .ok

/-- A teardown that panics. -/
def burst (_ : ScopeId) : Script Unit := .panic "the bulb burst"

end Lamp

/-- Two teardowns that register further ones and release the scope again have their turns, and the
release is counted once. -/
theorem Program.Run.disposal_lamp :
    Disposal Lamp.program (Lamp.program.trail 36 (Lamp.sweeping Lamp.again Lamp.again))
        (Lamp.program.run 36 (Lamp.sweeping Lamp.again Lamp.again)) ∧
      (performed ⟨0⟩ (Lamp.program.trail 36 (Lamp.sweeping Lamp.again Lamp.again))).length = 2 ∧
      counted (Lamp.program.trail 36 (Lamp.sweeping Lamp.again Lamp.again)) = [⟨0⟩] :=
  ⟨(Lamp.sweeping_run Lamp.again Lamp.again 36).disposal, by decide, by decide⟩

/-- If the first teardown panics, the second one never has its turn, and the release is not counted
though the run is over. -/
theorem Program.Run.cut_short_lamp :
    (Lamp.program.run 16 (Lamp.sweeping Lamp.burst Lamp.again)).IsOver ∧
      (∃ b ∈ Lamp.program.trail 16 (Lamp.sweeping Lamp.burst Lamp.again),
        b.frees? = some ⟨0⟩ ∧ (b.world.teardowns ⟨0⟩).length = 2) ∧
      (performed ⟨0⟩ (Lamp.program.trail 16 (Lamp.sweeping Lamp.burst Lamp.again))).length = 1 ∧
      (Lamp.program.run 16 (Lamp.sweeping Lamp.burst Lamp.again)).world.tally ⟨0⟩ = ⟨1, 0⟩ := by
  refine ⟨⟨rfl, .inr ⟨"the bulb burst", rfl⟩⟩, ?_, by decide, rfl⟩
  exact ⟨(Lamp.program.trail 16 (Lamp.sweeping Lamp.burst Lamp.again))[11], by simp, by decide,
    by decide⟩

end ScopedMachine

import ScopedMachine.Proofs.Holding
import ScopedMachine.Proofs.Nascence

/-!
# A release is carried through

The teardowns of a scope are fixed when its release begins. They are performed one after the other,
and whatever a teardown sets off is over before the next one is performed, because it all happens
above the release on the stack. Only a panic ends a release before its time.
-/

namespace ScopedMachine

variable {H : Type} {p : Program H} {s token : ScopeId}

/-! ## What hangs off a scope -/

namespace World

variable {w : World H}

theorem prefix_teardowns_addTeardown {t : Teardown H} :
    w.teardowns s <+: (w.addTeardown token t).teardowns s := by
  rw [teardowns_eq, teardowns_eq, addTeardown, scope?_modifyScope]
  split
  · cases w.scope? s with
    | none => exact List.prefix_rfl
    | some cell => exact List.prefix_append ..
  · exact List.prefix_rfl

theorem prefix_teardowns_register {slot : Nat} {topic : String} {l : Listener H} :
    w.teardowns s <+: (w.register slot topic token l).teardowns s := by
  unfold register
  split
  · exact List.prefix_rfl
  · split
    · exact List.prefix_rfl
    · exact prefix_teardowns_addTeardown

theorem prefix_teardowns_arm {slot : Nat} {kind : String} {after : Span} :
    w.teardowns s <+: (w.arm slot kind after token).teardowns s := by
  unfold arm
  split
  · exact List.prefix_rfl
  · split
    · exact List.prefix_rfl
    · exact prefix_teardowns_addTeardown

end World

theorem Turn.prefix_teardowns {w w' : World H} {m : MachineId} {d : Option Deed} {e : Effect H}
    {cell cell' : MachineCell H} {ctl ctl' : Control H} {pops pushes : List (Frame H)}
    (turn : Turn p w m d e ⟨cell, ctl, pops⟩ ⟨cell', ctl', pushes⟩)
    (turned : w.Turned m cell' e w') : w.teardowns s <+: w'.teardowns s := by
  rw [World.teardowns_congr turned.scopes]
  cases turn with
  | enter =>
    have same : (w.addScope (some m) (some cell.manager)).2.teardowns s = w.teardowns s :=
      World.teardowns_addScope
    exact ⟨[], (List.append_nil _).trans same.symm⟩
  | observe | signal => exact World.prefix_teardowns_addTeardown
  | subscribe => exact World.prefix_teardowns_register
  | _ => exact List.prefix_rfl

/-- As long as a scope is not released, what hangs off it stays, and more may come. -/
theorem Move.prefix_teardowns {c c' : Config H} (move : Move p c c')
    (unreleased : ∀ owner, c'.world.header? s ≠ some (true, owner)) :
    c.world.teardowns s <+: c'.world.teardowns s := by
  have same {w w' : World H} (eq : w'.teardowns s = w.teardowns s) :
      w.teardowns s <+: w'.teardowns s := eq ▸ List.prefix_rfl
  cases move with
  | idle pops pushes rest alike | unobserveGone alike =>
    exact same (World.teardowns_congr alike.scopes)
  | newScope => exact same World.teardowns_addScope
  | hang => exact World.prefix_teardowns_addTeardown
  | @release w _ scope _ live =>
    refine same (World.teardowns_cancel live |>.trans (if_neg ?_))
    rintro rfl
    obtain ⟨owner, live⟩ := World.isCancelled_eq_false_iff.1 live
    exact unreleased owner ((World.header?_cancel live).trans (if_pos rfl))
  | listen => exact World.prefix_teardowns_register
  | arm => exact World.prefix_teardowns_arm
  | start frames new machine scopes => exact same (World.teardowns_congr scopes)
  | turn pops pushes rest found turn turned => exact turn.prefix_teardowns turned
  | _ => exact List.prefix_rfl

theorem Program.Run.prefix_teardowns {w : World H} {past : List (Config H)} {y c : Config H}
    (run : p.Run w past c) (passed : y ∈ past)
    (unreleased : ∀ owner, c.world.header? s ≠ some (true, owner)) :
    y.world.teardowns s <+: c.world.teardowns s := by
  induction run with
  | begin => cases passed
  | @step past c c' run h ih =>
    have grows := (run.move h).prefix_teardowns unreleased
    rcases List.mem_append.1 passed with earlier | now
    · have before : ∀ owner, c.world.header? s ≠ some (true, owner) := fun owner released =>
        unreleased owner ((run.move h).scopes.header released)
      exact (ih earlier before).trans grows
    · rw [List.mem_singleton.1 now]
      exact grows
  | resume run ended host s ih =>
    rcases List.mem_append.1 passed with earlier | now
    · exact ih earlier unreleased
    · obtain rfl := List.mem_singleton.1 now
      exact List.prefix_rfl

/-! ## Releases begin once -/

/-- The scope whose release is about to begin. -/
def Config.frees? (c : Config H) : Option ScopeId :=
  match c.control with
  | .release s => if c.world.isCancelled s then none else some s
  | _ => none

theorem Config.frees?_eq_some_iff {c : Config H} :
    c.frees? = some s ↔ c.control = .release s ∧ c.world.isCancelled s = false := by
  unfold frees?
  split
  · next t control =>
    rw [control, Control.release.injEq]
    split
    · next cancelled =>
      constructor
      · nofun
      · rintro ⟨rfl, live⟩
        rw [cancelled] at live
        cases live
    · next live =>
      rw [Option.some.injEq]
      constructor
      · rintro rfl
        exact ⟨rfl, Bool.eq_false_iff.2 live⟩
      · exact fun h => h.1
  · next other =>
    constructor
    · nofun
    · exact fun h => absurd h.1 (other s)

section Once

variable {w : World H} {past : List (Config H)} {c : Config H}

/-- The owner of a scope stays its owner. -/
theorem Program.Run.owner (run : p.Run w past c) {y : Config H} (passed : y ∈ past)
    {o : Option MachineId} (known : ∃ b, y.world.header? s = some (b, o)) :
    ∃ b, c.world.header? s = some (b, o) := by
  induction run with
  | begin => cases passed
  | step run h ih =>
    rcases List.mem_append.1 passed with earlier | now
    · exact (run.move h).scopes.owner (ih earlier)
    · rw [List.mem_singleton.1 now] at known
      exact (run.move h).scopes.owner known
  | resume run ended host t ih =>
    rcases List.mem_append.1 passed with earlier | now
    · exact ih earlier
    · rw [List.mem_singleton.1 now] at known
      exact known

/-- A scope of a machine is released because its release began. -/
theorem Program.Run.frees_of_released (run : p.Run w past c) {m : MachineId}
    (released : c.world.header? s = some (true, some m)) : ∃ b ∈ past, b.frees? = some s := by
  induction run with
  | begin fresh host t =>
    obtain ⟨cell, found, header⟩ := Option.map_eq_some_iff.1 released
    have mine : cell.owner = some m := congrArg Prod.snd header
    rw [(fresh.scope? found).1] at mine
    cases mine
  | @step past c c' run h ih =>
    have earlier (before : c.world.header? s = some (true, some m)) :
        ∃ b ∈ past ++ [c], b.frees? = some s := by
      obtain ⟨b, mem, frees⟩ := ih before
      exact ⟨b, List.mem_append_left _ mem, frees⟩
    cases (run.move h).scopes with
    | same header => exact earlier (header s ▸ released)
    | acquire owner t new entering header =>
      rw [header] at released
      split at released
      · cases released
      · exact earlier released
    | release t owner control live header =>
      rw [header] at released
      split at released
      · next same =>
        subst same
        have live := World.isCancelled_eq_false_iff.2 ⟨_, live⟩
        exact ⟨c, List.mem_append_right _ (List.mem_singleton_self c),
          Config.frees?_eq_some_iff.2 ⟨control, live⟩⟩
      · exact earlier released
  | resume run ended host t ih =>
    obtain ⟨b, mem, frees⟩ := ih released
    exact ⟨b, List.mem_append_left _ mem, frees⟩

/-- A scope whose release began is released. -/
theorem Program.Run.header?_of_freed (run : p.Run w past c) (freed : s ∈ past.filterMap Config.frees?) :
    ∃ owner, c.world.header? s = some (true, owner) := by
  induction run with
  | begin => cases freed
  | @step past c c' run h ih =>
    rw [List.filterMap_append, List.mem_append] at freed
    rcases freed with earlier | now
    · obtain ⟨owner, released⟩ := ih earlier
      exact ⟨owner, (run.move h).scopes.header released⟩
    · obtain ⟨y, mem, frees⟩ := List.mem_filterMap.1 now
      rw [List.mem_singleton.1 mem] at frees
      obtain ⟨control, live⟩ := Config.frees?_eq_some_iff.1 frees
      obtain ⟨owner, live⟩ := World.isCancelled_eq_false_iff.1 live
      obtain ⟨b, header⟩ := (run.move h).scopes.owner ⟨_, live⟩
      cases b with
      | true => exact ⟨owner, header⟩
      | false => exact absurd header (run.header?_of_release h control owner)
  | resume run ended host t ih =>
    rw [List.filterMap_append, List.mem_append] at freed
    rcases freed with earlier | now
    · exact ih earlier
    · obtain ⟨y, mem, frees⟩ := List.mem_filterMap.1 now
      rw [List.mem_singleton.1 mem] at frees
      obtain ⟨control, _⟩ := Config.frees?_eq_some_iff.1 frees
      obtain ⟨_, ⟨a, ha⟩ | ⟨message, hm⟩⟩ := ended
      · rw [ha] at control
        cases control
      · rw [hm] at control
        cases control

/-- No scope is released twice. -/
theorem Program.Run.freed_nodup (run : p.Run w past c) : (past.filterMap Config.frees?).Nodup := by
  have next {past : List (Config H)} {c : Config H} (run : p.Run w past c)
      (nodup : (past.filterMap Config.frees?).Nodup) :
      ((past ++ [c]).filterMap Config.frees?).Nodup := by
    rw [List.filterMap_append, List.nodup_append]
    refine ⟨nodup, ?_, ?_⟩
    · cases frees : c.frees? <;> simp [frees]
    · intro s earlier t now same
      subst same
      obtain ⟨y, mem, frees⟩ := List.mem_filterMap.1 now
      rw [List.mem_singleton.1 mem] at frees
      obtain ⟨_, live⟩ := Config.frees?_eq_some_iff.1 frees
      obtain ⟨owner, released⟩ := run.header?_of_freed earlier
      obtain ⟨owner', live⟩ := World.isCancelled_eq_false_iff.1 live
      rw [released] at live
      cases live
  induction run with
  | begin => exact List.nodup_nil
  | step run h ih | resume run ended host t ih => exact next run ih

end Once

/-! ## Releases under way -/

/-- An answer comes back to the release of a scope, with these teardowns left. -/
def Config.Resumes (s : ScopeId) (ts : List (Teardown H)) (base : List (Frame H)) (c : Config H) :
    Prop :=
  c.stack = .releasing s ts :: base ∧ ∃ a, c.control = .give a

/-- A panic meets the release of a scope. -/
def Config.Loses (s : ScopeId) (base : List (Frame H)) (c : Config H) : Prop :=
  (∃ ts, c.stack = .releasing s ts :: base) ∧ ∃ message, c.control = .panic message

/-- A release among some frames was so before, or it just began. -/
def Config.Continues (c : Config H) (before after : List (Frame H)) : Prop :=
  ∀ u us, .releasing u us ∈ after → (∃ us', .releasing u us' ∈ before) ∨ c.frees? = some u

/-- How a step goes on above or at the release of a scope. -/
inductive Releasing (s : ScopeId) (ts : List (Teardown H)) (above base : List (Frame H))
    (c c' : Config H) : Prop where
  | above (above' : List (Frame H)) (stack : c'.stack = above' ++ .releasing s ts :: base)
      (continues : c.Continues above above')
  | perform (t : Teardown H) (us : List (Teardown H)) (above' : List (Frame H)) (left : ts = t :: us)
      (resumes : c.Resumes s ts base) (stack : c'.stack = above' ++ .releasing s us :: base)
      (free : ∀ f ∈ above', f.release? = none)
  | finish (left : ts = []) (resumes : c.Resumes s ts base) (stack : c'.stack = base)
  | lose (loses : c.Loses s base) (control : ∃ message, c'.control = .panic message)
      (stack : c'.stack = base)

theorem Enters.release? {m : MachineId} {ctl : Control H} {f : Frame H} {x : Collected (Entry H)}
    {stage : Stage H} (enters : Enters m ctl f x stage) : f.release? = none := by
  cases enters <;> rfl

section Step

variable {c c' : Config H} {ts us : List (Teardown H)} {base above : List (Frame H)}

theorem Config.Continues.refl {fs : List (Frame H)} : c.Continues fs fs :=
  fun _ us mem => .inl ⟨us, mem⟩

/-- Frames that release nothing are put on top. -/
theorem Config.Continues.grow {fs gs : List (Frame H)} (free : ∀ f ∈ fs, f.release? = none) :
    c.Continues gs (fs ++ gs) := by
  intro u us mem
  rcases List.mem_append.1 mem with new | old
  · cases free _ new
  · exact .inl ⟨us, old⟩

theorem Config.Continues.cons {fs gs : List (Frame H)} (continues : c.Continues fs gs)
    (f : Frame H) : c.Continues (f :: fs) gs := by
  intro u us mem
  exact (continues u us mem).imp (fun ⟨us', old⟩ => ⟨us', List.mem_cons_of_mem _ old⟩) id

theorem Course.releasing (course : Course c c')
    (stack : c.stack = above ++ .releasing s ts :: base) : Releasing s ts above base c c' := by
  have push (fs : List (Frame H)) (continues : c.Continues above (fs ++ above))
      (new : c'.stack = fs ++ c.stack) : Releasing s ts above base c c' :=
    .above (fs ++ above) (by rw [new, stack, List.append_assoc]) continues
  -- the top frame is taken off, and it is not the release
  have pop {f : Frame H} (fs : List (Frame H)) {rest : List (Frame H)} (top : c.stack = f :: rest)
      (free : f.release? = none) (frees : ∀ f ∈ fs, f.release? = none)
      (new : c'.stack = fs ++ rest) : Releasing s ts above base c c' := by
    rw [top] at stack
    cases above with
    | nil =>
      cases stack
      cases free
    | cons g above =>
      cases stack
      exact .above (fs ++ above) (new.trans (List.append_assoc ..).symm) (.cons (.grow frees) f)
  cases course with
  | call grows =>
    obtain ⟨fs, free, new⟩ := grows.stack
    exact push fs (.grow free) new
  | turn f rest top ended free grows =>
    obtain ⟨fs, frees, new⟩ := grows.stack
    exact pop fs top free frees new
  | manage running new =>
    obtain ⟨fs, free, new⟩ := new
    exact push fs (.grow free) new
  | make manager k control new => exact push [.await k] (.grow (by simp [Frame.release?])) new
  | enter n cell f x stage rest found enters top new =>
    exact pop [_, _] top enters.release? (by simp [Frame.release?]) new
  | begin u control live new =>
    refine push [_] (fun v vs mem => ?_) new
    rcases List.mem_cons.1 mem with now | old
    · cases now
      exact .inr (Config.frees?_eq_some_iff.2 ⟨control, live⟩)
    · exact .inl ⟨vs, old⟩
  | perform u t vs rest a control top grows =>
    obtain ⟨fs, free, new⟩ := grows.stack
    rw [stack] at top
    cases above with
    | nil =>
      cases top
      exact .perform t vs fs rfl ⟨stack, a, control⟩ new free
    | cons g above =>
      cases top
      refine .above (fs ++ .releasing u vs :: above) (by rw [new, List.append_assoc]; rfl) ?_
      intro v us mem
      rcases List.mem_append.1 mem with new | old
      · cases free _ new
      · rcases List.mem_cons.1 old with here | old
        · cases here
          exact .inl ⟨_, List.mem_cons_self ..⟩
        · exact .inl ⟨us, List.mem_cons_of_mem _ old⟩
  | finish u rest a control top new =>
    rw [stack] at top
    cases above with
    | nil =>
      cases top
      exact .finish rfl ⟨stack, a, control⟩ new
    | cons g above =>
      cases top
      exact .above above new (.cons .refl _)
  | lose u vs rest message control top next =>
    subst next
    rw [stack] at top
    cases above with
    | nil =>
      cases top
      exact .lose ⟨⟨ts, stack⟩, message, control⟩ ⟨message, control⟩ rfl
    | cons g above =>
      cases top
      exact .above above rfl (.cons .refl _)

/-- A release that is under way after a step was so before, or just began. -/
theorem Course.continues (course : Course c c') : c.Continues c.stack c'.stack := by
  intro u us mem
  obtain ⟨above, base, split⟩ := List.append_of_mem mem
  rcases course.split_release split with ⟨above', ts, stack, _⟩ | ⟨control, live, _⟩
  · exact .inl ⟨ts, stack ▸ List.mem_append_right _ (List.mem_cons_self ..)⟩
  · exact .inr (Config.frees?_eq_some_iff.2 ⟨control, live⟩)

end Step

/-! ## From the beginning of a release on -/

/-- The release that began at `b` goes on, with the teardowns `ts` left; `mid` was passed since. -/
structure UnderWay (s : ScopeId) (b : Config H) (ts : List (Teardown H)) (mid : List (Config H)) :
    Prop where
  left : ts <:+ b.world.teardowns s
  /-- Each of the other teardowns has had its turn. -/
  turns {us : List (Teardown H)} (all : us <:+ b.world.teardowns s) (before : ts <:+ us)
    (turned : us ≠ ts) : ∃ y ∈ mid, y.Resumes s us b.stack
  /-- Whatever was above the release before it had its last turn is over. -/
  returns {pre post : List (Config H)} {y : Config H} (here : mid = pre ++ y :: post) :
    ∃ above us, y.stack = above ++ .releasing s us :: b.stack ∧
      (us = ts ∨ ∃ z ∈ y :: post, z.Resumes s us b.stack)

/-- The release that began at `b` was carried through, and `mid` was passed meanwhile. -/
structure CarriedThrough (s : ScopeId) (b : Config H) (mid : List (Config H)) : Prop where
  /-- Each teardown has had its turn, and all were over when none was left. -/
  turns {us : List (Teardown H)} (all : us <:+ b.world.teardowns s) :
    ∃ y ∈ mid, y.Resumes s us b.stack
  /-- Whatever happened above the release is over. -/
  returns {pre post : List (Config H)} {y : Config H} (here : mid = pre ++ y :: post) :
    ∃ above us, y.stack = above ++ .releasing s us :: b.stack ∧
      ∃ z ∈ y :: post, z.Resumes s us b.stack

/-- What became of the release of a scope that began at `b`; `after` was passed since. -/
inductive Fate (s : ScopeId) (b : Config H) (after : List (Config H)) (c : Config H) : Prop where
  | underWay (above : List (Frame H)) (ts : List (Teardown H))
      (stack : c.stack = above ++ .releasing s ts :: b.stack) (underWay : UnderWay s b ts after)
  | carriedThrough (mid rest : List (Config H)) (split : after = mid ++ rest)
      (carriedThrough : CarriedThrough s b mid)
  | lost (loses : ∃ y ∈ after, y.Loses s b.stack)

section Fate

variable {b c c' : Config H} {ts us : List (Teardown H)} {mid : List (Config H)}

/-- A split of a list that ends in `c` is at `c` or before it. -/
theorem eq_or_split_of_concat {pre post : List (Config H)} {y : Config H}
    (here : mid ++ [c] = pre ++ y :: post) :
    (y = c ∧ post = []) ∨ ∃ post', mid = pre ++ y :: post' ∧ post = post' ++ [c] := by
  rcases List.eq_nil_or_concat' post with rfl | ⟨post', z, rfl⟩
  · obtain ⟨_, same⟩ := List.append_inj' here rfl
    exact .inl ⟨(List.cons.inj same).1.symm, rfl⟩
  · rw [← List.cons_append, ← List.append_assoc] at here
    obtain ⟨rfl, same⟩ := List.append_inj' here rfl
    exact .inr ⟨post', rfl, by rw [(List.cons.inj same).1]⟩

theorem UnderWay.begin : UnderWay s b (b.world.teardowns s) [] where
  left := List.suffix_rfl
  turns all before turned := absurd (all.eq_of_length_le before.length_le) turned
  returns here := by simp at here

/-- Something happens above the release. -/
theorem UnderWay.above {above : List (Frame H)} (underWay : UnderWay s b ts mid)
    (stack : c.stack = above ++ .releasing s ts :: b.stack) : UnderWay s b ts (mid ++ [c]) where
  left := underWay.left
  turns all before turned := by
    obtain ⟨y, mem, resumes⟩ := underWay.turns all before turned
    exact ⟨y, List.mem_append_left _ mem, resumes⟩
  returns {pre post y} here := by
    rcases eq_or_split_of_concat here with ⟨rfl, _⟩ | ⟨post', earlier, rfl⟩
    · exact ⟨above, ts, stack, .inl rfl⟩
    · obtain ⟨above', us, stack', turned⟩ := underWay.returns earlier
      refine ⟨above', us, stack', turned.imp id ?_⟩
      rintro ⟨z, mem, resumes⟩
      exact ⟨z, List.mem_append_left _ mem, resumes⟩

/-- The next teardown has its turn. -/
theorem UnderWay.perform {t : Teardown H} (underWay : UnderWay s b (t :: ts) mid)
    (resumes : c.Resumes s (t :: ts) b.stack) : UnderWay s b ts (mid ++ [c]) where
  left := (List.suffix_cons t ts).trans underWay.left
  turns {us} all before turned := by
    by_cases now : us = t :: ts
    · subst now
      exact ⟨c, List.mem_append_right _ (List.mem_singleton_self c), resumes⟩
    · have longer : (t :: ts).length ≤ us.length := by
        have le := before.length_le
        have ne : ts.length ≠ us.length := fun same => turned (before.eq_of_length same).symm
        rw [List.length_cons]
        omega
      obtain ⟨y, mem, resumes⟩ :=
        underWay.turns all (List.suffix_of_suffix_length_le underWay.left all longer) now
      exact ⟨y, List.mem_append_left _ mem, resumes⟩
  returns {pre post y} here := by
    rcases eq_or_split_of_concat here with ⟨rfl, _⟩ | ⟨post', earlier, rfl⟩
    · exact ⟨[], t :: ts, resumes.1, .inr ⟨y, List.mem_cons_self .., resumes⟩⟩
    · obtain ⟨above', us, stack', rfl | ⟨z, mem, turned⟩⟩ := underWay.returns earlier
      · refine ⟨above', t :: ts, stack', .inr ⟨c, ?_, resumes⟩⟩
        exact List.mem_cons_of_mem _ (List.mem_append_right _ (List.mem_singleton_self c))
      · exact ⟨above', us, stack', .inr ⟨z, List.mem_append_left _ mem, turned⟩⟩

/-- No teardown is left. -/
theorem UnderWay.finish (underWay : UnderWay s b [] mid) (resumes : c.Resumes s [] b.stack) :
    CarriedThrough s b (mid ++ [c]) where
  turns {us} all := by
    by_cases now : us = []
    · subst now
      exact ⟨c, List.mem_append_right _ (List.mem_singleton_self c), resumes⟩
    · obtain ⟨y, mem, resumes⟩ := underWay.turns all us.nil_suffix now
      exact ⟨y, List.mem_append_left _ mem, resumes⟩
  returns {pre post y} here := by
    rcases eq_or_split_of_concat here with ⟨rfl, _⟩ | ⟨post', earlier, rfl⟩
    · exact ⟨[], [], resumes.1, y, List.mem_cons_self .., resumes⟩
    · obtain ⟨above', us, stack', rfl | ⟨z, mem, turned⟩⟩ := underWay.returns earlier
      · refine ⟨above', [], stack', c, ?_, resumes⟩
        exact List.mem_cons_of_mem _ (List.mem_append_right _ (List.mem_singleton_self c))
      · exact ⟨above', us, stack', z, List.mem_append_left _ mem, turned⟩

theorem Fate.step {after : List (Config H)} (fate : Fate s b after c) (course : Course c c') :
    Fate s b (after ++ [c]) c' := by
  cases fate with
  | underWay above ts stack underWay =>
    cases course.releasing stack with
    | above above' stack' => exact .underWay above' ts stack' (underWay.above stack)
    | perform t us above' left resumes stack' =>
      subst left
      exact .underWay above' us stack' (underWay.perform resumes)
    | finish left resumes stack' =>
      subst left
      exact .carriedThrough _ [] (List.append_nil _).symm (underWay.finish resumes)
    | lose loses control stack' =>
      exact .lost ⟨c, List.mem_append_right _ (List.mem_singleton_self c), loses⟩
  | carriedThrough mid rest split carriedThrough =>
    exact .carriedThrough mid (rest ++ [c]) (by rw [split, List.append_assoc]) carriedThrough
  | lost loses =>
    obtain ⟨y, mem, loses⟩ := loses
    exact .lost ⟨y, List.mem_append_left _ mem, loses⟩

/-- A release that began is under way, was carried through, or was lost to a panic. -/
theorem Program.Run.fate {w : World H} {before past : List (Config H)} (run : p.Run w past c)
    (passed : before ++ [b] <+: past) (frees : b.frees? = some s) :
    ∃ after, past = before ++ b :: after ∧ Fate s b after c := by
  have begins {past : List (Config H)} {c c' : Config H} (run : p.Run w past c)
      (h : p.step c = some c') (same : before ++ [b] = past ++ [c]) : Fate s b [] c' := by
    obtain ⟨rfl, here⟩ := List.append_inj' same rfl
    cases here
    obtain ⟨control, live⟩ := Config.frees?_eq_some_iff.1 frees
    have step : some (Config.performRelease s b) = some c' := by
      rw [← h, Program.step, control]
    cases step
    refine .underWay [] (b.world.teardowns s) ?_ .begin
    rw [Config.performRelease, if_neg (by simp [live])]
    rfl
  induction run with
  | begin => simp at passed
  | @step past c c' run h ih =>
    rcases List.prefix_concat_iff.1 passed with same | earlier
    · exact ⟨[], same.symm, begins run h same⟩
    · obtain ⟨after, split, fate⟩ := ih earlier
      exact ⟨after ++ [c], by rw [split, List.append_assoc]; rfl, fate.step (run.course h)⟩
  | @resume past c run ended host t ih =>
    rcases List.prefix_concat_iff.1 passed with same | earlier
    · obtain ⟨rfl, here⟩ := List.append_inj' same rfl
      cases here
      obtain ⟨control, _⟩ := Config.frees?_eq_some_iff.1 frees
      obtain ⟨_, ⟨a, ha⟩ | ⟨message, hm⟩⟩ := ended
      · rw [ha] at control
        cases control
      · rw [hm] at control
        cases control
    · obtain ⟨after, split, fate⟩ := ih earlier
      refine ⟨after ++ [c], by rw [split, List.append_assoc]; rfl, ?_⟩
      cases fate with
      | underWay above ts stack => simp [ended.1] at stack
      | carriedThrough mid rest split carriedThrough =>
        exact .carriedThrough mid (rest ++ [c]) (by rw [split, List.append_assoc]) carriedThrough
      | lost loses =>
        obtain ⟨y, mem, loses⟩ := loses
        exact .lost ⟨y, List.mem_append_left _ mem, loses⟩

end Fate

/-! ## Registrations and releases -/

/-- A panic ended the release of a scope. -/
def Lost (s : ScopeId) (past : List (Config H)) : Prop := ∃ y ∈ past, ∃ base, y.Loses s base

theorem not_lost_of_calm {past : List (Config H)} (calm : ∀ y ∈ past, y.IsCalm) : ¬Lost s past :=
  fun ⟨y, mem, _, _, message, panics⟩ => calm y mem message panics

namespace Program.Run

variable {w : World H} {past : List (Config H)} {c : Config H} {q : Place} {b : Book}

/-- The teardown of a registration hangs off the scope of its token or is yet to be performed, unless
a panic ended the release of the scope. -/
theorem covered_or_lost (run : p.Run w past c) (found : c.world.book? q = some b)
    {e : Nat × ScopeId} (mem : e ∈ b.entries) : (q, e.1) ∈ c.hung e.2 ∨ Lost e.2 past := by
  induction run generalizing b with
  | begin fresh host s =>
    rw [fresh.book? found] at mem
    cases mem
  | @step past c c' run h ih =>
    by_cases lost : Lost e.2 past
    · obtain ⟨y, passed, loses⟩ := lost
      exact .inr ⟨y, List.mem_append_left _ passed, loses⟩
    · refine ((run.move h).books.covered_or_lost found mem fun b found mem =>
        (ih found mem).resolve_right lost).imp id ?_
      rintro ⟨panics, ts, rest, top⟩
      obtain ⟨message, control⟩ := Classical.not_forall.1 panics
      exact ⟨c, List.mem_append_right _ (List.mem_singleton_self c), rest, ⟨ts, top⟩, message,
        Classical.not_not.1 control⟩
  | resume run ended host s ih =>
    refine (ih found mem).imp id ?_
    rintro ⟨y, passed, loses⟩
    exact ⟨y, List.mem_append_left _ passed, loses⟩

/-- A registration with a cancelled token is one that a release is about to undo. -/
theorem undoing_of_cancelled (run : p.Run w past c) (found : c.world.book? q = some b)
    {e : Nat × ScopeId} (mem : e ∈ b.entries) (cancelled : c.world.isCancelled e.2 = true) :
    (∃ ts, .releasing e.2 ts ∈ c.stack ∧ (q, e.1) ∈ ts.filterMap Teardown.undoes?) ∨
      Lost e.2 past := by
  refine (run.covered_or_lost found mem).imp (fun hung => ?_) id
  rw [Config.hung, World.hung, run.tidy e.2 cancelled, List.filterMap_nil, List.nil_append] at hung
  obtain ⟨f, inside, hung⟩ := List.mem_flatMap.1 hung
  cases f with
  | releasing s ts =>
    rw [Frame.hung] at hung
    split at hung
    · next same =>
      subst same
      exact ⟨ts, inside, hung⟩
    · cases hung
  | _ => cases hung

end Program.Run

end ScopedMachine

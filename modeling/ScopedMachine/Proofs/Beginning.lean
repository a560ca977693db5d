import ScopedMachine.Proofs.Rollback
import ScopedMachine.Proofs.Stopped

/-!
# The first state is entered

A machine begins with the phases of a transition, but for the activation that is left: the first state
is collected, its entry actions are called, and its routes are subscribed. `Entering` says what is so
in each phase. All the while the machine is idle, so an event that reaches it is ignored. If an action
fails, the scope is released, and the machine is gone as if there had been none.
-/

namespace ScopedMachine

variable {H : Type} {p : Program H} {m : MachineId}

/-! ## What a new machine shows -/

/-- What a machine shows before its first state was entered. -/
def Face.blank (m : MachineId) (settings : Settings) : Face where
  uuid := Uuid.ofNat m.index
  settings
  state := ""
  aliases := []
  terminal := false
  accumulator := none
  history := {}
  sequence := 0

/-- What a machine shows in its first state: that state, and no transition. -/
def Face.first (m : MachineId) (settings : Settings) (y : Collected (Entry H)) : Face :=
  { Face.blank m settings with
    state := y.name
    aliases := y.aliases
    terminal := y.isTerminal
    accumulator := y.accumulator }

/-! ## Phases -/

/-- Why a first state could not be entered: it could not be collected, and nothing was called, or one
of its entry actions failed. -/
inductive Refusal (p : Program H) (m : MachineId) (settings : Settings) (d : Definition)
    (seen : List (Config H)) : DefinitionError → Prop where
  | uncollected {error : DefinitionError}
      (collects : p.collect settings.delegationLimit d = .done (.error error))
      (marks : marks m seen = []) : Refusal p m settings d seen error
  | unentered {y : Collected (Entry H)} {s : ScopeId} {error : DefinitionError}
      {ms : List (Mark H)} (collects : p.collect settings.delegationLimit d = .done (.ok y))
      (fails : EntryFails seen y s error ms) (marks : marks m seen = ms) :
      Refusal p m settings d seen error

/-- An entry action of the first state of a machine has failed, where that state is entered above some
frames. -/
def Config.Balks (m : MachineId) (below : List (Frame H)) (c : Config H) : Prop :=
  ∃ fault state s later y, c.control = .give (.result (.error fault)) ∧
    c.stack = .acting state s later :: .activating m y s .initial :: below

/-- What is so in each phase in which the first state of a machine is entered above some frames. -/
inductive Entering (p : Program H) (m : MachineId) (settings : Settings) (d : Definition)
    (below : List (Frame H)) (seen : List (Config H)) (c : Config H) : Prop where
  | collecting (r : Except DefinitionError (Collected (Entry H)))
      (collects : p.collect settings.delegationLimit d = .done r) (idle : seen = [])
      (control : c.control = .gather (.done r)) (stack : c.stack = .collecting (.initial m) :: below)
  | acting (y : Collected (Entry H)) (s : ScopeId) (called later : List (Entry H))
      (above : List (Frame H)) (collects : p.collect settings.delegationLimit d = .done (.ok y))
      (actions : y.actions = called ++ later) (marks : marks m seen = called.map (.enter s))
      (sound : ∀ u ∈ seen, ¬u.Balks m below)
      (begun : called = [] → above = [] ∧ c.control = .give (.result (.ok ())))
      (stack : c.stack = above ++ .acting y.name s later :: .activating m y s .initial :: below)
  | failed (y : Collected (Entry H)) (s : ScopeId) (error : DefinitionError) (ms : List (Mark H))
      (collects : p.collect settings.delegationLimit d = .done (.ok y))
      (fails : EntryFails seen y s error ms) (marks : marks m seen = ms)
      (control : c.control = .give (.entered (.error error)))
      (stack : c.stack = .activating m y s .initial :: below)
  | abandoning (y : Collected (Entry H)) (s : ScopeId) (error : DefinitionError)
      (ms : List (Mark H)) (above : List (Frame H))
      (collects : p.collect settings.delegationLimit d = .done (.ok y))
      (fails : EntryFails seen y s error ms) (marks : marks m seen = ms)
      (stack : c.stack = above ++ .abandoning m y.name error .initial :: below)
  | entered (y : Collected (Entry H)) (s : ScopeId)
      (collects : p.collect settings.delegationLimit d = .done (.ok y))
      (marks : marks m seen = y.actions.map (.enter s)) (sound : ∀ u ∈ seen, ¬u.Balks m below)
      (control : c.control = .give (.entered (.ok ())))
      (stack : c.stack = .activating m y s .initial :: below)
  | subscribing (y : Collected (Entry H)) (s : ScopeId) (done later : List Route)
      (above : List (Frame H)) (collects : p.collect settings.delegationLimit d = .done (.ok y))
      (routes : (RouteTable.build y.directives).routes = done ++ later)
      (marks : marks m seen = y.actions.map (.enter s) ++ done.map (.subscribe s))
      (sound : ∀ u ∈ seen, ¬u.Balks m below)
      (stack : c.stack =
        above ++ .subscribing m ⟨y, .build y.directives, s⟩ later .initial :: below)

/-- The first state of a machine was entered, and the next thing is to hand the machine over. -/
structure Begun (p : Program H) (m : MachineId) (settings : Settings) (d : Definition)
    (below : List (Frame H)) (seen : List (Config H)) (c : Config H) (y : Collected (Entry H))
    (s : ScopeId) : Prop where
  collects : p.collect settings.delegationLimit d = .done (.ok y)
  /-- All entry actions were called, each once, and then all routes were subscribed. -/
  marks : marks m seen = y.actions.map (.enter s) ++
    (RouteTable.build y.directives).routes.map (.subscribe s)
  /-- No entry action failed. -/
  sound : ∀ u ∈ seen, ¬u.Balks m below
  /-- The machine was idle all the time. -/
  nascent : ∀ u ∈ seen, .first ∈ roles m u.stack
  shows : c.Shows m (.first m settings y) .running (some ⟨y, .build y.directives, s⟩)
  unheld : ∀ cell, c.world.machine? m = some cell → cell.handles = 0
  control : c.control = .give (.entered (.ok ()))
  stack : c.stack = below

/-- The first state of a machine could not be entered, and nothing is left but to say so. -/
structure Refused (p : Program H) (m : MachineId) (settings : Settings) (d : Definition)
    (below : List (Frame H)) (seen : List (Config H)) (c : Config H) (error : DefinitionError) :
    Prop where
  refusal : Refusal p m settings d seen error
  untouched : c.Untouched m
  control : c.control = .give (.entered (.error error))
  stack : c.stack = below

section Phases

variable {w : World H} {past seen : List (Config H)} {c c' : Config H} {settings : Settings}
  {d : Definition} {above base below : List (Frame H)} {face : Face} {y : Collected (Entry H)}
  {s : ScopeId} {error : DefinitionError} {ms : List (Mark H)}

/-- While the first state of a machine is entered the machine is idle. -/
theorem Program.Run.shows_of_first (run : p.Run w past c) {cell : MachineCell H}
    (found : c.world.machine? m = some cell) (first : .first ∈ roles m c.stack)
    (same : cell.face = face) : c.Shows m face .idle none := by
  have posture := (run.poised m).posture found
  refine ⟨cell, found, same, run.idle_of_first found first, ?_⟩
  refine Option.eq_none_iff_forall_ne_some.2 fun a current => ?_
  exact (posture.first first).1 (posture.current (by rw [current]; rfl)).1

/-- What goes on while the first state of a machine is entered leaves the machine as it is. -/
theorem Program.Run.first_goes_on (run : p.Run w past c) (h : p.step c = some c')
    (shows : c.Shows m face .idle none) (stack : c.stack = above ++ base)
    (busy : above ≠ [] ∨ c.control.isEnd = false) (first : .first ∈ roles m base)
    (top : ∀ n y s stage rest, base ≠ .activating n y s stage :: rest) :
    ∃ above', c'.stack = above' ++ base ∧ c.mark? m = none ∧ c'.Shows m face .idle none := by
  obtain ⟨cell, found, rfl, _, _⟩ := shows
  obtain ⟨above', stack'⟩ := (run.course h).stays stack busy
  have quiet := run.mark?_above found stack busy first rfl top
  obtain ⟨cell', found', same, _⟩ := run.face_above found stack busy first rfl h
  have first' : .first ∈ roles m c'.stack := by
    rw [stack', roles_append]
    exact List.mem_append_right _ first
  exact ⟨above', stack', quiet, (run.step h).shows_of_first found' first' same⟩

/-- Either something goes on above a frame while the first state is entered, or the frame gets an
answer. -/
theorem Program.Run.first_goes_on_or_resumes {f : Frame H} {rest : List (Frame H)}
    (run : p.Run w past c) (h : p.step c = some c') (calm : c.IsCalm)
    (shows : c.Shows m face .idle none) (stack : c.stack = above ++ f :: rest)
    (first : .first ∈ roles m (f :: rest)) (top : ∀ n y s stage, f ≠ .activating n y s stage)
    (waits : ∀ purpose, f ≠ .collecting purpose) :
    (above ≠ [] ∨ c.control.isEnd = false) ∧ (∃ above', c'.stack = above' ++ f :: rest ∧
        c.mark? m = none ∧ c'.Shows m face .idle none) ∨
      above = [] ∧ ∃ a, c.control = .give a ∧ p.resume f a { c with stack := rest } = some c' := by
  by_cases busy : above ≠ [] ∨ c.control.isEnd = false
  · refine .inl ⟨busy, run.first_goes_on h shows stack busy first ?_⟩
    rintro n y s stage _ same
    exact top n y s stage (List.cons.inj same).1
  · exact .inr (Config.resume_of_idle h busy calm stack waits)

/-- No entry action has failed at an instant, if something else is answered. -/
theorem Config.not_balks (other : ∀ fault, c.control ≠ .give (.result (.error fault))) :
    ¬c.Balks m below := by
  rintro ⟨fault, _, _, _, _, control, _⟩
  exact other fault control

/-- No entry action has failed while one goes on. -/
theorem Config.not_balks_of_busy {f g : Frame H} (stack : c.stack = above ++ f :: g :: below)
    (busy : above ≠ [] ∨ c.control.isEnd = false) : ¬c.Balks m below := by
  rintro ⟨fault, state, t, later, x, control, stack'⟩
  rw [control] at busy
  have length := congrArg List.length (stack.symm.trans stack')
  simp only [List.length_append, List.length_cons] at length
  have none : above = [] := List.eq_nil_of_length_eq_zero (by omega)
  rcases busy with some | goes
  · exact some none
  · cases goes

/-- No entry action fails while the routes are subscribed. -/
theorem Config.not_balks_of_subscribing {a : Activation H} {later : List Route} {stage : Stage H}
    (stack : c.stack = above ++ .subscribing m a later stage :: below) : ¬c.Balks m below := by
  rintro ⟨fault, state, t, actions, x, _, stack'⟩
  have split : above ++ [.subscribing m a later stage] ++ below =
      [.acting state t actions, .activating m x t .initial] ++ below := by
    rw [List.append_assoc]
    exact stack.symm.trans stack'
  have top := List.append_cancel_right split
  cases above with
  | nil => cases top
  | cons f above =>
    cases above with
    | nil => cases top
    | cons g above => simp at top

theorem Config.sound_concat (sound : ∀ u ∈ seen, ¬u.Balks m below) (now : ¬c.Balks m below) :
    ∀ u ∈ seen ++ [c], ¬u.Balks m below := by
  intro u mem
  rcases List.mem_append.1 mem with earlier | here
  · exact sound u earlier
  · rwa [List.mem_singleton.1 here]

/-- What comes after an instant at which the first state is entered. -/
inductive Entering.Next (p : Program H) (m : MachineId) (settings : Settings) (d : Definition)
    (below : List (Frame H)) (seen : List (Config H)) (c : Config H) : Prop where
  | on (entering : Entering p m settings d below seen c)
      (shows : c.Shows m (.blank m settings) .idle none)
  | refused (error : DefinitionError) (refused : Refused p m settings d below seen c error)
  | begun (y : Collected (Entry H)) (s : ScopeId) (begun : Begun p m settings d below seen c y s)

variable (run : p.Run w past c) (h : p.step c = some c') (calm : c.IsCalm)
  (shows : c.Shows m (.blank m settings) .idle none)

include run h in
/-- The collection is over, and the first state is entered with a new scope, or it is not entered. -/
theorem Entering.collecting_step {r : Except DefinitionError (Collected (Entry H))}
    (shows : c.Shows m (.blank m settings) .idle none)
    (collects : p.collect settings.delegationLimit d = .done r) (idle : seen = [])
    (control : c.control = .gather (.done r)) (stack : c.stack = .collecting (.initial m) :: below) :
    Next p m settings d below (seen ++ [c]) c' := by
  have quiet : c.mark? m = none := Config.mark?_eq_none (by simp [control])
  have silent : marks m (seen ++ [c]) = [] := by rw [marks_quiet _ quiet, idle]; rfl
  have untouched := run.untouched (m := m) (.inr (by rw [stack, roles_initial]; exact List.mem_cons_self ..))
  obtain ⟨world, host, ctl, fs⟩ := c
  cases control
  cases stack
  cases r with
  | error error =>
    cases h
    refine .refused error ⟨.uncollected collects silent, ?_, rfl, rfl⟩
    exact ⟨untouched.hung, fun mem => untouched.due (List.mem_cons_of_mem _ mem),
      fun busy => (by cases busy), untouched.cell⟩
  | ok y =>
    obtain ⟨cell, found, face, status, vacant⟩ := shows
    simp only [Program.step, Config.useCollected, Config.record, Option.some.injEq] at h
    rw [Config.activate_eq found] at h
    subst h
    refine .on (.acting y ⟨world.scopes.size⟩ [] y.actions [] collects rfl silent ?_
      (fun _ => ⟨rfl, rfl⟩) rfl) ⟨cell, ?_, face, status, vacant⟩
    · rw [idle]
      exact Config.sound_concat (fun _ mem => by cases mem)
        (Config.not_balks fun _ same => by cases same)
    show (world.addScope (some m) (some cell.manager)).2.machine? m = some cell
    exact World.machine?_addScope.trans found

include run h calm shows in
theorem Entering.acting_step {called later : List (Entry H)}
    (collects : p.collect settings.delegationLimit d = .done (.ok y))
    (actions : y.actions = called ++ later) (marks : marks m seen = called.map (.enter s))
    (sound : ∀ u ∈ seen, ¬u.Balks m below)
    (begun : called = [] → above = [] ∧ c.control = .give (.result (.ok ())))
    (stack : c.stack = above ++ .acting y.name s later :: .activating m y s .initial :: below) :
    Next p m settings d below (seen ++ [c]) c' := by
  have first : .first ∈ roles m (.acting y.name s later :: .activating m y s .initial :: below) := by
    rw [roles_acting, roles_activating]
    exact List.mem_cons_self ..
  rcases run.first_goes_on_or_resumes h calm shows stack first (by simp) (by simp) with
    ⟨busy, above', stack', quiet, shows'⟩ | ⟨rfl, answer, control, resumes⟩
  · refine .on (.acting y s called later above' collects actions
      ((marks_quiet _ quiet).trans marks)
      (Config.sound_concat sound (Config.not_balks_of_busy stack busy)) (fun none => ?_) stack') shows'
    obtain ⟨rfl, control⟩ := begun none
    rw [control] at busy
    rcases busy with some | goes
    · exact absurd rfl some
    · cases goes
  · cases answer with
    | result r =>
      cases r with
      | error fault =>
        cases resumes
        -- before the first action nothing fails
        obtain rfl | ⟨called, failing, rfl⟩ := List.eq_nil_or_concat' called
        · cases (begun rfl).2.symm.trans control
        · have quiet : c.mark? m = none := by simp [Config.mark?, control, stack]
          have fails : EntryFails (seen ++ [c]) y s (.entry y.name fault) _ :=
            .intro called later failing fault (by rw [actions, List.append_assoc]; rfl)
              ⟨c, List.mem_append_right _ (List.mem_singleton_self c), control, _, stack⟩
          exact .on (.failed y s _ _ collects fails ((marks_quiet _ quiet).trans marks) rfl rfl) shows
      | ok =>
        have sound' := Config.sound_concat sound (Config.not_balks (c := c) (by simp [control]))
        cases later with
        | nil =>
          have quiet : c.mark? m = none := by simp [Config.mark?, control, stack]
          cases resumes
          rw [List.append_nil] at actions
          exact .on (.entered y s collects ((marks_quiet _ quiet).trans (actions ▸ marks)) sound' rfl
            rfl) shows
        | cons action later =>
          have mark : c.mark? m = some (.enter s action) := by simp [Config.mark?, control, stack]
          cases resumes
          refine .on (.acting y s (called ++ [action]) later [] collects ?_ ?_ sound' ?_ rfl) shows
          · rw [actions, List.append_assoc]
            rfl
          · rw [marks_concat, marks, mark, List.map_append]
            rfl
          · intro none
            simp at none
    | _ => cases resumes

include h shows in
theorem Entering.failed_step (collects : p.collect settings.delegationLimit d = .done (.ok y))
    (fails : EntryFails seen y s error ms) (marks : marks m seen = ms)
    (control : c.control = .give (.entered (.error error)))
    (stack : c.stack = .activating m y s .initial :: below) :
    Next p m settings d below (seen ++ [c]) c' := by
  have quiet : c.mark? m = none := Config.mark?_eq_none (by simp [control])
  obtain ⟨world, host, ctl, fs⟩ := c
  cases control
  cases stack
  cases h
  exact .on (.abandoning y s error ms [] collects fails.mono ((marks_quiet _ quiet).trans marks) rfl)
    shows

include h shows in
theorem Entering.entered_step (collects : p.collect settings.delegationLimit d = .done (.ok y))
    (marks : marks m seen = y.actions.map (.enter s)) (sound : ∀ u ∈ seen, ¬u.Balks m below)
    (control : c.control = .give (.entered (.ok ())))
    (stack : c.stack = .activating m y s .initial :: below) :
    Next p m settings d below (seen ++ [c]) c' := by
  have quiet : c.mark? m = none := Config.mark?_eq_none (by simp [control])
  have sound' := Config.sound_concat sound (Config.not_balks (c := c) (by simp [control]))
  obtain ⟨world, host, ctl, fs⟩ := c
  cases control
  cases stack
  cases h
  refine .on (.subscribing y s [] _ [] collects rfl ?_ sound' rfl) shows
  rw [marks_quiet _ quiet, marks, List.map_nil, List.append_nil]

include run h calm shows in
theorem Entering.abandoning_step (collects : p.collect settings.delegationLimit d = .done (.ok y))
    (fails : EntryFails seen y s error ms) (marks : marks m seen = ms)
    (stack : c.stack = above ++ .abandoning m y.name error .initial :: below) :
    Next p m settings d below (seen ++ [c]) c' := by
  have first : .first ∈ roles m (.abandoning m y.name error .initial :: below) := by
    rw [roles_abandoning]
    exact List.mem_cons_self ..
  rcases run.first_goes_on_or_resumes h calm shows stack first (by simp) (by simp) with
    ⟨_, above', stack', quiet, shows'⟩ | ⟨rfl, answer, control, resumes⟩
  · exact .on (.abandoning y s error ms above' collects fails.mono ((marks_quiet _ quiet).trans marks)
      stack') shows'
  · cases answer with
    | unit =>
      have quiet : c.mark? m = none := Config.mark?_eq_none (by simp [control])
      have untouched := run.untouched (m := m) (.inr (by rw [stack, List.nil_append]; exact first))
      have marks' := (marks_quiet _ quiet).trans marks
      obtain ⟨world, host, ctl, fs⟩ := c
      cases stack
      cases resumes
      refine .refused error ⟨.unentered collects fails.mono marks', ?_, rfl, rfl⟩
      exact ⟨untouched.hung, fun mem => untouched.due (List.mem_cons_of_mem _ mem),
        fun busy => (by cases busy), untouched.cell⟩
    | _ => cases resumes

include run h calm shows in
theorem Entering.subscribing_step {done later : List Route}
    (nascent : ∀ u ∈ seen ++ [c], .first ∈ roles m u.stack)
    (collects : p.collect settings.delegationLimit d = .done (.ok y))
    (routes : (RouteTable.build y.directives).routes = done ++ later)
    (marks : marks m seen = y.actions.map (.enter s) ++ done.map (.subscribe s))
    (sound : ∀ u ∈ seen, ¬u.Balks m below)
    (stack : c.stack = above ++ .subscribing m ⟨y, .build y.directives, s⟩ later .initial :: below) :
    Next p m settings d below (seen ++ [c]) c' := by
  have first : .first ∈ roles m
      (.subscribing m ⟨y, .build y.directives, s⟩ later .initial :: below) := by
    rw [roles_subscribing]
    exact List.mem_cons_self ..
  have sound' := Config.sound_concat sound (Config.not_balks_of_subscribing stack)
  rcases run.first_goes_on_or_resumes h calm shows stack first (by simp) (by simp) with
    ⟨_, above', stack', quiet, shows'⟩ | ⟨rfl, answer, control, resumes⟩
  · exact .on (.subscribing y s done later above' collects routes ((marks_quiet _ quiet).trans marks)
      sound' stack') shows'
  · obtain ⟨cell, found, face, idle, vacant⟩ := shows
    have untouched := run.untouched (m := m) (.inr (by rw [stack, List.nil_append]; exact first))
    cases answer with
    | result r =>
      cases later with
      | nil =>
        have quiet : c.mark? m = none := by simp [Config.mark?, control, stack]
        have marks' := (marks_quiet seen quiet).trans marks
        rw [List.append_nil] at routes
        simp only [Program.resume, Config.subscribeNext, Config.install, Config.record, found, idle,
          Option.some.injEq, reduceCtorEq, if_false] at resumes
        subst resumes
        let a : Activation H := ⟨y, .build y.directives, s⟩
        have began : (c.world.modifyMachine m (MachineCell.begin a)).machine? m =
            some (cell.begin a) := by
          exact World.machine?_modifyMachine_self found
        have shown : (cell.begin a).face = { cell.face with
            state := y.name, aliases := y.aliases, terminal := y.isTerminal,
            accumulator := y.accumulator } := rfl
        refine .begun y s ⟨collects, routes ▸ marks', sound', nascent, ⟨cell.begin a, began, ?_, rfl, rfl⟩,
          fun cell' found' => ?_, rfl, rfl⟩
        · rw [shown, face]
          rfl
        · cases began.symm.trans found'
          exact (untouched.cell found).2
      | cons route later =>
        have mark : c.mark? m = some (.subscribe s route) := by simp [Config.mark?, control, stack]
        have marks' : ScopedMachine.marks m (seen ++ [c]) =
            y.actions.map (.enter s) ++ (done ++ [route]).map (.subscribe s) := by
          rw [marks_concat, marks, mark, List.map_append, List.append_assoc]
          rfl
        have routes' : (RouteTable.build y.directives).routes = (done ++ [route]) ++ later := by
          rw [routes, List.append_assoc]
          rfl
        simp only [Program.resume, Config.subscribeNext] at resumes
        split at resumes
        · cases resumes
          exact .on (.subscribing y s _ later [] collects routes' marks' sound' rfl)
            ⟨cell, found, face, idle, vacant⟩
        · cases resumes
          exact .on (.subscribing y s _ later [] collects routes' marks' sound' rfl)
            ⟨cell, World.machine?_register.trans found, face, idle, vacant⟩
    | _ => cases resumes

/-- One step while the first state is entered. -/
theorem Entering.step (entering : Entering p m settings d below seen c) (run : p.Run w past c)
    (h : p.step c = some c') (calm : c.IsCalm) (shows : c.Shows m (.blank m settings) .idle none)
    (nascent : ∀ u ∈ seen ++ [c], .first ∈ roles m u.stack) :
    Next p m settings d below (seen ++ [c]) c' := by
  cases entering with
  | collecting r collects idle control stack =>
    exact collecting_step run h shows collects idle control stack
  | acting y s called later above collects actions marks sound begun stack =>
    exact acting_step run h calm shows collects actions marks sound begun stack
  | failed y s error ms collects fails marks control stack =>
    exact failed_step h shows collects fails marks control stack
  | abandoning y s error ms above collects fails marks stack =>
    exact abandoning_step run h calm shows collects fails marks stack
  | entered y s collects marks sound control stack =>
    exact entered_step h shows collects marks sound control stack
  | subscribing y s done later above collects routes marks sound stack =>
    exact subscribing_step run h calm shows nascent collects routes marks sound stack

/-- The first state is entered above the frames that wait for it. -/
theorem Entering.stands (entering : Entering p m settings d below seen c) :
    (∃ above f, c.stack = above ++ f :: below) ∧ .first ∈ roles m c.stack := by
  have within (fs : List (Frame H)) {gs : List (Frame H)} (split : c.stack = fs ++ gs)
      (first : .first ∈ roles m gs) : .first ∈ roles m c.stack := by
    rw [split, roles_append]
    exact List.mem_append_right _ first
  cases entering with
  | collecting r collects idle control stack =>
    exact ⟨⟨[], _, stack⟩, within [] stack (by simp)⟩
  | acting y s called later above collects actions marks sound begun stack =>
    exact ⟨⟨above ++ [_], _, stack.trans (List.append_assoc above [_] _).symm⟩,
      within _ stack (by simp [Stage.role])⟩
  | failed y s error ms collects fails marks control stack =>
    exact ⟨⟨[], _, stack⟩, within [] stack (by simp [Stage.role])⟩
  | abandoning y s error ms above collects fails marks stack =>
    exact ⟨⟨above, _, stack⟩, within _ stack (by simp [Stage.role])⟩
  | entered y s collects marks sound control stack =>
    exact ⟨⟨[], _, stack⟩, within [] stack (by simp [Stage.role])⟩
  | subscribing y s done later above collects routes marks sound stack =>
    exact ⟨⟨above, _, stack⟩, within _ stack (by simp [Stage.role])⟩

end Phases

/-! ## A start that fails -/

/-- A machine is gone, and nothing is about to stop it. -/
structure Config.Forgotten (m : MachineId) (c : Config H) : Prop where
  gone : ∃ cell, c.world.machine? m = some cell ∧ cell.isAlive = false
  hung (s : ScopeId) : .stop m ∉ c.world.teardowns s
  due {s : ScopeId} {ts : List (Teardown H)} (mem : .releasing s ts ∈ c.stack) : .stop m ∉ ts

/-- What is so from when the first state could not be entered until the start answers so. -/
inductive Failing (p : Program H) (m : MachineId) (settings : Settings) (d : Definition)
    (signal : Option ScopeId) (base : List (Frame H)) (seen : List (Config H)) (c : Config H)
    (error : DefinitionError) : Prop where
  | refused (refused : Refused p m settings d (.starting m signal :: base) seen c error)
  | dismantling (refusal : Refusal p m settings d seen error) (forgotten : c.Forgotten m)
      (control : c.control = .give .unit)
      (stack : c.stack =
        .dismantling m :: .settling (.gave (.started (.error (.definition error)))) :: base)
  | settling (refusal : Refusal p m settings d seen error) (forgotten : c.Forgotten m)
      (control : c.control = .give .unit)
      (stack : c.stack = .settling (.gave (.started (.error (.definition error)))) :: base)
  | failed (refusal : Refusal p m settings d seen error) (forgotten : c.Forgotten m)
      (control : c.control = .give (.started (.error (.definition error))))
      (stack : c.stack = base)

section Failing

variable {w : World H} {past seen : List (Config H)} {c c' : Config H} {settings : Settings}
  {d : Definition} {signal : Option ScopeId} {base : List (Frame H)} {error : DefinitionError}

theorem Refusal.mono (refusal : Refusal p m settings d seen error) (quiet : c.mark? m = none) :
    Refusal p m settings d (seen ++ [c]) error := by
  cases refusal with
  | uncollected collects marks => exact .uncollected collects ((marks_quiet _ quiet).trans marks)
  | unentered collects fails marks =>
    exact .unentered collects fails.mono ((marks_quiet _ quiet).trans marks)

/-- The frame of a start holds the one handle on a machine that nobody else holds. -/
theorem Posture.pins_of_start {cell : MachineCell H} {ctl : Control H} {rs : List Role}
    (posture : Posture m cell ctl (.start :: rs)) : cell.pins = 1 ∧ rs = [] := by
  have none : rs = [] := List.head?_eq_none_iff.1 posture.nested.1
  refine ⟨?_, none⟩
  rw [posture.pins, none]
  rfl

/-- When the start hears that the first state was not entered the machine is taken down. -/
theorem Failing.refused_step (run : p.Run w past c) (h : p.step c = some c')
    (refused : Refused p m settings d (.starting m signal :: base) seen c error) :
    Failing p m settings d signal base (seen ++ [c]) c' error := by
  obtain ⟨refusal, untouched, control, stack⟩ := refused
  have quiet : c.mark? m = none := Config.mark?_eq_none (by simp [control])
  obtain ⟨cell, found⟩ := run.grounded.frame (stack ▸ List.mem_cons_self ..) rfl
  have posture := (run.poised m).posture found
  rw [stack, roles_starting] at posture
  obtain ⟨last, _⟩ := posture.pins_of_start
  obtain ⟨idle, unheld⟩ := untouched.cell found
  have dead : cell.unpin.isAlive = false :=
    MachineCell.isAlive_eq_false_iff.2 ⟨unheld, by simp [MachineCell.unpin, last]⟩
  have vacant : cell.current = none := by
    refine Option.eq_none_iff_forall_ne_some.2 fun a current => ?_
    have running := (posture.current (by rw [current]; rfl)).1
    rw [idle] at running
    cases running
  have refusal' := refusal.mono quiet
  obtain ⟨hung, due, -, -⟩ := untouched
  obtain ⟨world, host, ctl, fs⟩ := c
  cases control
  cases stack
  simp only [Program.step, Program.resume, Option.some.injEq] at h
  rw [Config.unpin_of_last found last unheld, vacant] at h
  subst h
  refine .dismantling refusal' ⟨⟨cell.unpin.clearCurrent, ?_, dead⟩, hung, fun {t ts} mem => ?_⟩
    rfl rfl
  · exact World.machine?_modifyMachine_self (World.machine?_modifyMachine_self found)
  · have inside : .releasing t ts ∈ base := by simpa using mem
    exact due (List.mem_cons_of_mem _ inside)

/-- One step of a start that fails. -/
theorem Failing.step (failing : Failing p m settings d signal base seen c error)
    (run : p.Run w past c) (h : p.step c = some c') (apart : c.stack ≠ base) :
    Failing p m settings d signal base (seen ++ [c]) c' error := by
  cases failing with
  | refused refused => exact refused_step run h refused
  | dismantling refusal forgotten control stack =>
    have quiet : c.mark? m = none := Config.mark?_eq_none (by simp [control])
    have refusal' := refusal.mono quiet
    obtain ⟨⟨cell, found, dead⟩, hung, due⟩ := forgotten
    obtain ⟨world, host, ctl, fs⟩ := c
    cases control
    cases stack
    cases h
    refine .settling refusal' ⟨⟨cell.clearObservers, ?_, dead⟩, hung, fun mem => ?_⟩ rfl rfl
    · exact World.machine?_modifyMachine_self found
    · exact due (List.mem_cons_of_mem _ mem)
  | settling refusal forgotten control stack =>
    have quiet : c.mark? m = none := Config.mark?_eq_none (by simp [control])
    have refusal' := refusal.mono quiet
    obtain ⟨gone, hung, due⟩ := forgotten
    obtain ⟨world, host, ctl, fs⟩ := c
    cases control
    cases stack
    cases h
    exact .failed refusal' ⟨gone, hung, fun mem => due (List.mem_cons_of_mem _ mem)⟩ rfl rfl
  | failed refusal forgotten control stack => exact absurd stack apart

end Failing

/-! ## A start that succeeds -/

/-- No event is handled for a machine, and its first state is not being entered. -/
def Config.Disengaged (m : MachineId) (c : Config H) : Prop :=
  ∀ r ∈ roles m c.stack, r.isEngaged = false

theorem Stage.isEngaged_role {stage : Stage H} : stage.role.isEngaged := by cases stage <;> rfl

/-- A frame that enters a state is engaged for its machine. -/
theorem Enters.engaged {ctl : Control H} {f : Frame H} {x : Collected (Entry H)} {stage : Stage H}
    (enters : Enters m ctl f x stage) : ∃ r ∈ roles m [f], r.isEngaged := by
  cases enters with
  | initial => exact ⟨.first, by simp, rfl⟩
  | next | again => exact ⟨.shift, by simp [Stage.role], rfl⟩

/-- A machine that was stopped begins to handle nothing. -/
theorem Turn.disengaged {w : World H} {d : Option Deed} {e : Effect H} {cell cell' : MachineCell H}
    {ctl ctl' : Control H} {pops pushes : List (Frame H)}
    (turn : Turn p w m d e ⟨cell, ctl, pops⟩ ⟨cell', ctl', pushes⟩)
    (stopped : cell.status = .stopped) (idle : ∀ r ∈ roles m pops, r.isEngaged = false) :
    ∀ r ∈ roles m pushes, r.isEngaged = false := by
  cases turn with
  | @pin _ _ _ _ pushes alive quiet call sheds =>
    obtain ⟨_, hpushes⟩ := sheds.filter (m := m)
    rw [roles_holding, roles, hpushes]
    simp [Role.isEngaged]
  | hold held quiet plain inert | drop held alive quiet plain inert
  | dropLast held dead quiet inert | observe live held quiet plain inert =>
    simp [roles_of_isPlain inert, Role.isEngaged]
  | look running | leave running =>
    rw [stopped] at running
    cases running
  | enter enters =>
    obtain ⟨r, here, engaged⟩ := enters.engaged
    rw [idle r here] at engaged
    cases engaged
  | @entered _ _ _ stage | @fail _ _ _ stage | @subscribe _ _ _ _ _ stage
  | @subscribeHosted _ _ _ _ _ stage =>
    have engaged : stage.role.isEngaged := Stage.isEngaged_role
    rw [idle stage.role (by simp)] at engaged
    cases engaged
  | commit running =>
    rw [stopped] at running
    cases running
  | tell | passOver => exact absurd (idle .publish (by simp)) (by simp [Role.isEngaged])
  | _ => simp [Role.isEngaged]

section Disengaged

variable {c c' : Config H} {cell : MachineCell H}

/-- A machine that was stopped goes on handling nothing. -/
theorem Outlook.disengaged (outlook : Outlook p m c c') (found : c.world.machine? m = some cell)
    (stopped : cell.status = .stopped) (idle : c.Disengaged m) : c'.Disengaged m := by
  unfold Config.Disengaged at idle ⊢
  cases outlook with
  | spared machine frames =>
    have same : roles m c'.stack = roles m c.stack := congrArg (List.filterMap Frame.role?) frames
    rwa [same]
  | start signal new =>
    rw [new] at found
    cases found
  | turn pops pushes rest known found' turn before after =>
    cases known.symm.trans found
    rw [before, roles_append] at idle
    rw [after, roles_append]
    have above := turn.disengaged stopped fun r mem => idle r (List.mem_append_left _ mem)
    intro r mem
    exact (List.mem_append.1 mem).elim (above r) fun below => idle r (List.mem_append_right _ below)

/-- A machine for which nothing is handled sets nothing off. -/
theorem Config.Disengaged.mark?_eq_none (idle : c.Disengaged m) : c.mark? m = none := by
  have busy {r : Role} (mem : r ∈ roles m c.stack) (engaged : r.isEngaged) : False := by
    rw [idle r mem] at engaged
    cases engaged
  unfold Config.mark?
  split
  · next x s stage rest control top =>
    refine if_neg ?_
    rintro rfl
    exact busy (r := stage.role) (by rw [top]; simp) Stage.isEngaged_role
  · next stage rest control top =>
    refine if_neg ?_
    rintro rfl
    exact busy (r := stage.role) (by rw [top]; simp) Stage.isEngaged_role
  · next top =>
    refine if_neg ?_
    rintro ⟨rfl, _⟩
    exact busy (r := .publish) (by rw [top]; simp) rfl
  · rfl

end Disengaged

/-- A machine that was started is handed over: it runs, and its signal will stop it, or it was stopped
because its signal is cancelled. -/
inductive HandedOver (m : MachineId) (signal : Option ScopeId) (face : Face) (a : Activation H)
    (z c : Config H) : Prop where
  | running (live : ∀ σ, signal = some σ → z.world.isCancelled σ = false)
      (shows : c.Shows m face .running (some a))
      (hung : ∀ σ, signal = some σ → .stop m ∈ c.world.teardowns σ)
  | stopped (cancelled : ∃ σ, signal = some σ ∧ z.world.isCancelled σ = true)
      (shows : c.Shows m face .stopped none)

/-- What is so from the instant `z` at which the first state was entered until the start answers. -/
inductive Handing (m : MachineId) (signal : Option ScopeId) (face : Face) (a : Activation H)
    (base : List (Frame H)) (z c : Config H) : Prop where
  | begun (same : c = z)
  | hooked (live : ∀ σ, signal = some σ → z.world.isCancelled σ = false)
      (shows : c.Shows m face .running (some a))
      (hung : ∀ σ, signal = some σ → .stop m ∈ c.world.teardowns σ)
      (control : c.control = .give .unit) (stack : c.stack = .signalled m :: base)
  | asked (cancelled : ∃ σ, signal = some σ ∧ z.world.isCancelled σ = true)
      (shows : c.Shows m face .running (some a)) (control : c.control = .stop m)
      (stack : c.stack = .holding m :: .signalled m :: base)
  | stopping (cancelled : ∃ σ, signal = some σ ∧ z.world.isCancelled σ = true)
      (shows : c.Shows m face .stopped none) (idle : c.Disengaged m) (above : List (Frame H))
      (stack : c.stack = above ++ .signalled m :: base)
  | handed (outcome : HandedOver m signal face a z c) (held : c.world.isHeld m)
      (control : c.control = .give (.started (.ok m))) (stack : c.stack = base)

section Handing

variable {w : World H} {past seen : List (Config H)} {z c c' : Config H} {settings : Settings}
  {d : Definition} {signal : Option ScopeId} {above base : List (Frame H)} {face : Face}
  {a : Activation H} {status : Status} {current : Option (Activation H)}

/-- A machine that was stopped shows the same after a step. -/
theorem Program.Run.stopped_goes_on (run : p.Run w past c) (h : p.step c = some c')
    (shows : c.Shows m face .stopped none) : c'.Shows m face .stopped none := by
  obtain ⟨cell, found, rfl, stopped, _⟩ := shows
  have next := run.step h
  obtain ⟨cell', found', stopped', same⟩ :=
    (next.still ⟨[c'], rfl⟩ found stopped).machine
  refine ⟨cell', found', same, stopped', Option.eq_none_iff_forall_ne_some.2 fun a current => ?_⟩
  have running := (((next.poised m).posture found').current (by rw [current]; rfl)).1
  rw [stopped'] at running
  cases running

/-- The machine is handed over by the frame that waited for that. -/
theorem Handing.hand_over (shows : c.Shows m face status current) :
    (c.handOver m).Shows m face status current ∧ (c.handOver m).world.isHeld m := by
  obtain ⟨cell, found, rfl, rfl, rfl⟩ := shows
  have found' : (c.handOver m).world.machine? m = some cell.unpin.hold := by
    simp [Config.handOver, Config.mapWorld, Config.give, World.machine?_modifyMachine, found]
  refine ⟨⟨_, found', rfl, rfl, rfl⟩, ?_⟩
  rw [World.isHeld, found']
  simp [MachineCell.hold]

/-- The first step after the first state was entered: the machine is tied to its signal. -/
theorem Handing.begun_step (run : p.Run w past z) (h : p.step z = some c')
    (shows : z.Shows m face .running (some a)) (control : z.control = .give (.entered (.ok ())))
    (stack : z.stack = .starting m signal :: base) : Handing m signal face a base z c' := by
  obtain ⟨cell, found, rfl, running, current⟩ := shows
  have posture := (run.poised m).posture found
  obtain ⟨world, host, ctl, fs⟩ := z
  cases control
  cases stack
  rw [roles_starting] at posture
  have alive : world.isAlive m := by
    rw [World.isAlive, show world.machine? m = some cell from found]
    exact posture.isAlive_of_cons (by simp)
  cases signal with
  | none =>
    cases h
    obtain ⟨shows, held⟩ := hand_over (c := ⟨world, host, .give (.entered (.ok ())), base⟩)
      ⟨cell, found, rfl, running, current⟩
    exact .handed (.running (fun _ same => by cases same) shows fun _ same => by cases same) held rfl
      rfl
  | some σ =>
    by_cases cancelled : world.isCancelled σ = true
    · simp only [Program.step, Program.resume, Config.onCancel, Config.push, cancelled, if_true,
        Config.performTeardown, alive, Option.some.injEq] at h
      subst h
      refine .asked ⟨σ, rfl, cancelled⟩ ⟨cell.pin, ?_, rfl, running, current⟩ rfl rfl
      simp [Config.pin, Config.mapWorld, Config.push, Config.stop, World.machine?_modifyMachine,
        show world.machine? m = some cell from found]
    · have live : world.isCancelled σ = false := Bool.eq_false_iff.2 cancelled
      simp only [Program.step, Program.resume, Config.onCancel, Config.push, live,
        Bool.false_eq_true, if_false, Option.some.injEq] at h
      subst h
      refine .hooked (fun σ' same => ?_) ⟨cell, found, rfl, running, current⟩ (fun σ' same => ?_)
        rfl rfl
      · cases same
        exact live
      · cases same
        show .stop m ∈ (world.addTeardown σ (.stop m)).teardowns σ
        rw [World.teardowns_addTeardown live, if_pos rfl]
        exact List.mem_append_right _ (List.mem_singleton_self _)

/-- One step from when the first state was entered until the start answers. -/
theorem Handing.step (handing : Handing m signal face a base z c) (run : p.Run w past c)
    (h : p.step c = some c') (calm : c.IsCalm) (apart : c.stack ≠ base)
    (shows : z.Shows m face .running (some a)) (control : z.control = .give (.entered (.ok ())))
    (stack : z.stack = .starting m signal :: base) : Handing m signal face a base z c' := by
  cases handing with
  | begun same =>
    subst same
    exact begun_step run h shows control stack
  | hooked live shows hung control stack =>
    obtain ⟨world, host, ctl, fs⟩ := c
    cases control
    cases stack
    cases h
    obtain ⟨shows, held⟩ := hand_over (c := ⟨world, host, .give .unit, base⟩) shows
    exact .handed (.running live shows hung) held rfl rfl
  | asked cancelled shows control stack =>
    obtain ⟨cell, found, rfl, running, current⟩ := shows
    have posture := (run.poised m).posture found
    rw [stack, roles_holding, roles_signalled] at posture
    have none : roles m base = [] := List.head?_eq_none_iff.1 posture.nested.tail.1
    obtain ⟨world, host, ctl, fs⟩ := c
    cases control
    cases stack
    simp only [Program.step, Config.performStop, show world.machine? m = some cell from found,
      running, reduceCtorEq, if_false, current, Config.releaseActivation, Option.some.injEq] at h
    subst h
    refine .stopping cancelled ⟨cell.stop, ?_, rfl, rfl, rfl⟩ ?_ [.stopping m, .holding m] rfl
    · simp [Config.mapWorld, Config.push, Config.release, World.machine?_modifyMachine,
        show world.machine? m = some cell from found]
    · show ∀ r ∈ roles m (.stopping m :: .holding m :: .signalled m :: base), r.isEngaged = false
      rw [roles_stopping, roles_holding, roles_signalled, none]
      decide
  | stopping cancelled shows idle above stack =>
    by_cases busy : above ≠ [] ∨ c.control.isEnd = false
    · obtain ⟨above', stack'⟩ := (run.course h).stays stack busy
      obtain ⟨cell, found, _, stopped, _⟩ := shows
      have idle' := ((run.move h).outlook m).disengaged found stopped idle
      exact .stopping cancelled (run.stopped_goes_on h ⟨cell, found, ‹_›, stopped, ‹_›⟩) idle' above'
        stack'
    · obtain ⟨rfl, answer, control, resumes⟩ := Config.resume_of_idle h busy calm stack (by simp)
      cases answer with
      | unit =>
        cases resumes
        obtain ⟨shows, held⟩ := hand_over (c := { c with stack := base }) shows
        exact .handed (.stopped cancelled shows) held rfl rfl
      | _ => cases resumes
  | handed outcome held control stack => exact absurd stack apart

/-- From when the first state was entered until the start answers the machine sets nothing off. -/
theorem Handing.mark?_eq_none (handing : Handing m signal face a base z c)
    (control : z.control = .give (.entered (.ok ()))) : c.mark? m = none := by
  cases handing with
  | begun same => exact Config.mark?_eq_none (by simp [same, control])
  | hooked _ _ _ control | asked _ _ control | handed _ _ control =>
    exact Config.mark?_eq_none (by simp [control])
  | stopping _ _ idle => exact idle.mark?_eq_none

/-- From when the first state was entered on no entry action of it fails. -/
theorem Handing.not_balks {below : List (Frame H)} (handing : Handing m signal face a base z c)
    (control : z.control = .give (.entered (.ok ()))) : ¬c.Balks m below := by
  cases handing with
  | begun same => exact Config.not_balks (by simp [same, control])
  | hooked _ _ _ control | asked _ _ control | handed _ _ control =>
    exact Config.not_balks (by simp [control])
  | stopping _ _ idle =>
    rintro ⟨fault, state, s, later, y, _, stack⟩
    have engaged := idle .first (by rw [stack]; simp [Stage.role])
    cases engaged

end Handing

end ScopedMachine

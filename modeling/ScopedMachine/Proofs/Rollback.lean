import ScopedMachine.Proofs.Above
import ScopedMachine.Proofs.Inbox

/-!
# A failed transition leaves the machine in its previous state

An event is routed in phases: the target is collected, the current activation is left, the entry
actions of the target are called, its routes are subscribed. If an action fails, the scope is
released and the previous state goes through the same phases again. `Attempt` says what is so in each
phase, and `RolledBack` what is so when the routing has failed.
-/

namespace ScopedMachine

variable {H : Type} {p : Program H} {m : MachineId}

/-! ## Failures -/

/-- The entry of a state with a scope failed: one of its actions did, and the later ones were not
called. -/
inductive EntryFails (span : List (Config H)) (x : Collected (Entry H)) (s : ScopeId) :
    DefinitionError → List (Mark H) → Prop where
  | intro (called later : List (Entry H)) (failing : Entry H) (fault : Fault)
      (actions : x.actions = called ++ failing :: later)
      (answered : ∃ y ∈ span, y.control = .give (.result (.error fault)) ∧
        ∃ rest, y.stack = .acting x.name s later :: rest) :
      EntryFails span x s (.entry x.name fault) ((called ++ [failing]).map (.enter s))

/-- A scope was made after the instant `x`, and released again; its teardowns were performed. -/
structure Discarded (m : MachineId) (x : Config H) (span : List (Config H)) (c : Config H)
    (s : ScopeId) : Prop where
  new : x.world.header? s = none
  released : c.world.header? s = some (true, some m)
  through : ∃ pre b mid post, span = pre ++ b :: (mid ++ post) ∧ b.frees? = some s ∧
    CarriedThrough s b mid

/-- A machine has the same face as before. -/
def Config.Shows (m : MachineId) (face : Face) (status : Status) (current : Option (Activation H))
    (c : Config H) : Prop :=
  ∃ cell, c.world.machine? m = some cell ∧ cell.face = face ∧ cell.status = status ∧
    cell.current = current

/-- How the routing of an event failed that began at the instant `x`, with the activation `a` in
place. -/
inductive RolledBack (p : Program H) (m : MachineId) (x : Config H) (cell : MachineCell H)
    (a : Activation H) (target : Definition) (span : List (Config H)) (c : Config H) :
    MachineError → Prop where
  /-- The target could not be collected, and nothing happened. -/
  | refused {error : DefinitionError}
      (collects : p.collect cell.settings.delegationLimit target = .done (.error error))
      (idle : ∃ y, span = [y] ∧ y.control = .gather (.done (.error error)))
      (world : c.world = x.world) : RolledBack p m x cell a target span c (.definition error)
  /-- The target could not be entered, and the previous state was entered again. -/
  | restored {next : Collected (Entry H)} {s s' : ScopeId} {error : DefinitionError}
      {ms : List (Mark H)}
      (collects : p.collect cell.settings.delegationLimit target = .done (.ok next))
      (fails : EntryFails span next s error ms)
      (marks : marks m span = ms ++ a.collected.actions.map (.enter s') ++
        a.routes.routes.map (.subscribe s'))
      (discarded : Discarded m x span c s)
      (new : x.world.header? s' = none) (live : c.world.header? s' = some (false, some m))
      (shows : c.Shows m cell.face .running (some { a with scope := s' }))
      (listens : ∀ slot, c.world.source? slot ≠ none →
        (∀ id, c.world.sourceHeader? slot ≠ some (id, true)) →
        c.world.subscribed m slot s' = lines slot a.routes.routes) :
      RolledBack p m x cell a target span c (.definition error)
  /-- The previous state could not be entered again either, and the machine is stopped. -/
  | lost {next : Collected (Entry H)} {s s' : ScopeId} {error error' : DefinitionError}
      {ms ms' : List (Mark H)}
      (collects : p.collect cell.settings.delegationLimit target = .done (.ok next))
      (fails : EntryFails span next s error ms) (fails' : EntryFails span a.collected s' error' ms')
      (marks : marks m span = ms ++ ms')
      (discarded : Discarded m x span c s) (discarded' : Discarded m x span c s')
      (shows : c.Shows m cell.face .stopped none) :
      RolledBack p m x cell a target span c
        (.restoreFailed next.name a.collected.name error error')

/-! ## Phases -/

/-- The release of a scope of the machine began above the frames that were there at `x`. -/
def Freed (m : MachineId) (x : Config H) (seen : List (Config H)) (s : ScopeId) : Prop :=
  x.world.header? s = none ∧ ∃ b ∈ seen, b.frees? = some s ∧
    b.world.header? s = some (false, some m) ∧ ∃ fs, b.stack = fs ++ x.stack

/-- Which state is being entered, in which stage, and what was set off for an earlier one. -/
inductive Trial (p : Program H) (m : MachineId) (x : Config H) (cell : MachineCell H)
    (a : Activation H) (target : Definition) (kind : String) (seen : List (Config H)) :
    Collected (Entry H) → Stage H → List (Mark H) → Prop where
  | next {next : Collected (Entry H)}
      (collects : p.collect cell.settings.delegationLimit target = .done (.ok next)) :
      Trial p m x cell a target kind seen next (.commit kind a.collected) []
  | again {next : Collected (Entry H)} {s : ScopeId} {error : DefinitionError}
      {ms : List (Mark H)}
      (collects : p.collect cell.settings.delegationLimit target = .done (.ok next))
      (fails : EntryFails seen next s error ms) (freed : Freed m x seen s) :
      Trial p m x cell a target kind seen a.collected (.restore next.name error) ms

/-- Neither the target nor the previous state could be entered. -/
inductive Collapse (p : Program H) (m : MachineId) (x : Config H) (cell : MachineCell H)
    (a : Activation H) (target : Definition) (seen : List (Config H)) : MachineError → Prop where
  | intro {next : Collected (Entry H)} {s s' : ScopeId} {error error' : DefinitionError}
      {ms ms' : List (Mark H)}
      (collects : p.collect cell.settings.delegationLimit target = .done (.ok next))
      (fails : EntryFails seen next s error ms) (fails' : EntryFails seen a.collected s' error' ms')
      (marks : marks m seen = ms ++ ms') (freed : Freed m x seen s) (freed' : Freed m x seen s') :
      Collapse p m x cell a target seen (.restoreFailed next.name a.collected.name error error')

/-- What is so in each phase of the routing of an event. -/
inductive Attempt (p : Program H) (m : MachineId) (x : Config H) (cell : MachineCell H)
    (a : Activation H) (target : Definition) (kind : String) (seen : List (Config H))
    (c : Config H) : Prop where
  | collecting (r : Except DefinitionError (Collected (Entry H)))
      (collects : p.collect cell.settings.delegationLimit target = .done r) (idle : seen = [])
      (world : c.world = x.world) (control : c.control = .gather (.done r))
      (stack : c.stack = .collecting (.transition m kind) :: x.stack)
  | leaving (next : Collected (Entry H)) (above : List (Frame H))
      (collects : p.collect cell.settings.delegationLimit target = .done (.ok next))
      (shows : c.Shows m cell.face .running none) (marks : marks m seen = [])
      (stack : c.stack = above ++ .leaving m a.collected next kind :: x.stack)
  | acting (y : Collected (Entry H)) (stage : Stage H) (ms : List (Mark H)) (s : ScopeId)
      (called later : List (Entry H)) (above : List (Frame H))
      (trial : Trial p m x cell a target kind seen y stage ms) (new : x.world.header? s = none)
      (shows : c.Shows m cell.face .running none) (actions : y.actions = called ++ later)
      (marks : marks m seen = ms ++ called.map (.enter s))
      (begun : called = [] → above = [] ∧ c.control = .give (.result (.ok ())))
      (stack : c.stack = above ++ .acting y.name s later :: .activating m y s stage :: x.stack)
  | entered (y : Collected (Entry H)) (stage : Stage H) (ms : List (Mark H)) (s : ScopeId)
      (trial : Trial p m x cell a target kind seen y stage ms) (new : x.world.header? s = none)
      (shows : c.Shows m cell.face .running none)
      (marks : marks m seen = ms ++ y.actions.map (.enter s))
      (control : c.control = .give (.entered (.ok ())))
      (stack : c.stack = .activating m y s stage :: x.stack)
  | failed (y : Collected (Entry H)) (stage : Stage H) (ms ms' : List (Mark H)) (s : ScopeId)
      (error : DefinitionError)
      (trial : Trial p m x cell a target kind seen y stage ms) (new : x.world.header? s = none)
      (shows : c.Shows m cell.face .running none) (fails : EntryFails seen y s error ms')
      (marks : marks m seen = ms ++ ms') (control : c.control = .give (.entered (.error error)))
      (stack : c.stack = .activating m y s stage :: x.stack)
  | subscribing (y : Collected (Entry H)) (stage : Stage H) (ms : List (Mark H)) (s : ScopeId)
      (done later : List Route) (above : List (Frame H))
      (trial : Trial p m x cell a target kind seen y stage ms) (new : x.world.header? s = none)
      (shows : c.Shows m cell.face .running none)
      (routes : (RouteTable.build y.directives).routes = done ++ later)
      (marks : marks m seen = ms ++ y.actions.map (.enter s) ++ done.map (.subscribe s))
      (stack : c.stack = above ++
        .subscribing m ⟨y, .build y.directives, s⟩ later stage :: x.stack)
  | abandoning (y : Collected (Entry H)) (stage : Stage H) (ms ms' : List (Mark H)) (s : ScopeId)
      (error : DefinitionError) (above : List (Frame H))
      (trial : Trial p m x cell a target kind seen y stage ms)
      (shows : c.Shows m cell.face .running none) (fails : EntryFails seen y s error ms')
      (marks : marks m seen = ms ++ ms') (freed : Freed m x (seen ++ [c]) s)
      (stack : c.stack = above ++ .abandoning m y.name error stage :: x.stack)
  | succeeding (above : List (Frame H)) (change : Change)
      (rest : List (Registration (Observer H)))
      (stack : c.stack = above ++ .publishing m change rest :: x.stack)
  | stopping (err : MachineError) (collapse : Collapse p m x cell a target seen err)
      (shows : c.Shows m cell.face .running none) (control : c.control = .stop m)
      (stack : c.stack = .settling (.gave (.delivered (.error err))) :: x.stack)
  | stopped (err : MachineError) (collapse : Collapse p m x cell a target seen err)
      (shows : c.Shows m cell.face .stopped none) (control : c.control = .give .unit)
      (stack : c.stack = .stopping m :: .settling (.gave (.delivered (.error err))) :: x.stack)
  | settling (err : MachineError) (collapse : Collapse p m x cell a target seen err)
      (shows : c.Shows m cell.face .stopped none) (control : c.control = .give .unit)
      (stack : c.stack = .settling (.gave (.delivered (.error err))) :: x.stack)
  | returned (r : Except MachineError Delivery) (control : c.control = .give (.delivered r))
      (stack : c.stack = x.stack)
      (outcome : ∀ err, r = .error err → RolledBack p m x cell a target seen c err)

section Mono

variable {x c : Config H} {seen : List (Config H)}

theorem EntryFails.mono {y : Collected (Entry H)} {s : ScopeId} {error : DefinitionError}
    {ms : List (Mark H)} (fails : EntryFails seen y s error ms) :
    EntryFails (seen ++ [c]) y s error ms := by
  cases fails with
  | intro called later failing fault actions answered =>
    obtain ⟨z, mem, given⟩ := answered
    exact .intro called later failing fault actions ⟨z, List.mem_append_left _ mem, given⟩

theorem Freed.mono {s : ScopeId} (freed : Freed m x seen s) : Freed m x (seen ++ [c]) s := by
  obtain ⟨new, b, mem, frees⟩ := freed
  exact ⟨new, b, List.mem_append_left _ mem, frees⟩

theorem Trial.mono {cell : MachineCell H} {a : Activation H} {target : Definition} {kind : String}
    {y : Collected (Entry H)} {stage : Stage H} {ms : List (Mark H)}
    (trial : Trial p m x cell a target kind seen y stage ms) :
    Trial p m x cell a target kind (seen ++ [c]) y stage ms := by
  cases trial with
  | next collects => exact .next collects
  | again collects fails freed => exact .again collects fails.mono freed.mono

theorem Trial.role {cell : MachineCell H} {a : Activation H} {target : Definition} {kind : String}
    {y : Collected (Entry H)} {stage : Stage H} {ms : List (Mark H)}
    (trial : Trial p m x cell a target kind seen y stage ms) : stage.role = .shift := by
  cases trial <;> rfl

theorem marks_quiet (seen : List (Config H)) (quiet : c.mark? m = none) :
    marks m (seen ++ [c]) = marks m seen := by
  rw [marks_concat, quiet]
  exact List.append_nil _

theorem Collapse.quiet {cell : MachineCell H} {a : Activation H} {target : Definition}
    {err : MachineError} (collapse : Collapse p m x cell a target seen err)
    (quiet : c.mark? m = none) : Collapse p m x cell a target (seen ++ [c]) err := by
  cases collapse with
  | intro collects fails fails' marks freed freed' =>
    exact .intro collects fails.mono fails'.mono ((marks_quiet _ quiet).trans marks) freed.mono
      freed'.mono

end Mono

/-! ## How a phase goes on -/

/-- When nothing goes on above a frame any more, an answer comes down to it, or a panic. -/
theorem Config.ends_of_idle {c c' : Config H} {f : Frame H} {above rest : List (Frame H)}
    (h : p.step c = some c') (idle : ¬(above ≠ [] ∨ c.control.isEnd = false))
    (stack : c.stack = above ++ f :: rest) (waits : ∀ purpose, f ≠ .collecting purpose) :
    above = [] ∧
      ((∃ a, c.control = .give a ∧ p.resume f a { c with stack := rest } = some c') ∨
        ∃ message, c.control = .panic message ∧
          Config.unwind f message { c with stack := rest } = some c') := by
  obtain ⟨none, ended⟩ := not_or.1 idle
  cases Classical.not_not.1 none
  refine ⟨rfl, ?_⟩
  obtain ⟨w, host, ctl, fs⟩ := c
  cases stack
  cases ctl with
  | give a => exact .inl ⟨a, rfl, h⟩
  | panic message => exact .inr ⟨message, rfl, h⟩
  | gather g =>
    cases g with
    | done r =>
      cases f with
      | collecting purpose => exact absurd rfl (waits purpose)
      | _ => cases h
    | _ => exact absurd rfl ended
  | _ => exact absurd rfl ended

/-- Without a panic it is an answer. -/
theorem Config.resume_of_idle {c c' : Config H} {f : Frame H} {above rest : List (Frame H)}
    (h : p.step c = some c') (idle : ¬(above ≠ [] ∨ c.control.isEnd = false)) (calm : c.IsCalm)
    (stack : c.stack = above ++ f :: rest) (waits : ∀ purpose, f ≠ .collecting purpose) :
    above = [] ∧ ∃ a, c.control = .give a ∧ p.resume f a { c with stack := rest } = some c' := by
  obtain ⟨none, answered | ⟨message, panics, _⟩⟩ := Config.ends_of_idle h idle stack waits
  · exact ⟨none, answered⟩
  · exact absurd panics (calm message)

section Phases

variable {w : World H} {before seen : List (Config H)} {x c c' : Config H} {face : Face}
  {above base : List (Frame H)}

/-- Something goes on above frames that leave one activation for another. -/
theorem Program.Run.goes_on {past : List (Config H)} (run : p.Run w past c)
    (seen : List (Config H)) (h : p.step c = some c') (shows : c.Shows m face .running none) (stack : c.stack = above ++ base)
    (busy : above ≠ [] ∨ c.control.isEnd = false) (shift : .shift ∈ roles m base)
    (top : ∀ n y s stage rest, base ≠ .activating n y s stage :: rest) (unstopped : ¬c.AsksStop m) :
    ∃ above', c'.stack = above' ++ base ∧ marks m (seen ++ [c]) = marks m seen ∧
      c'.Shows m face .running none := by
  obtain ⟨cell, found, rfl, running, _⟩ := shows
  obtain ⟨above', stack'⟩ := (run.course h).stays stack busy
  have quiet := run.mark?_above found stack busy shift rfl top
  obtain ⟨cell', found', same, running'⟩ := run.face_above found stack busy shift rfl h
  refine ⟨above', stack', marks_quiet _ quiet, cell', found', same, running' rfl running unstopped, ?_⟩
  have posture := ((run.step h).poised m).posture found'
  refine posture.shift ?_
  rw [stack', roles_append]
  exact List.mem_append_right _ shift

/-- Either something goes on above a frame that leaves one activation for another, or the frame gets
an answer. -/
theorem Program.Run.goes_on_or_resumes {past : List (Config H)} {f : Frame H} {rest : List (Frame H)}
    (run : p.Run w past c) (seen : List (Config H)) (h : p.step c = some c') (calm : c.IsCalm)
    (shows : c.Shows m face .running none) (stack : c.stack = above ++ f :: rest)
    (shift : .shift ∈ roles m (f :: rest)) (top : ∀ n y s stage, f ≠ .activating n y s stage)
    (waits : ∀ purpose, f ≠ .collecting purpose) (unstopped : ¬c.AsksStop m) :
    (above ≠ [] ∨ c.control.isEnd = false) ∧ (∃ above', c'.stack = above' ++ f :: rest ∧
        marks m (seen ++ [c]) = marks m seen ∧ c'.Shows m face .running none) ∨
      above = [] ∧ ∃ a, c.control = .give a ∧ p.resume f a { c with stack := rest } = some c' := by
  by_cases busy : above ≠ [] ∨ c.control.isEnd = false
  · refine .inl ⟨busy, run.goes_on seen h shows stack busy shift ?_ unstopped⟩
    rintro n y s stage _ same
    exact top n y s stage (List.cons.inj same).1
  · exact .inr (Config.resume_of_idle h busy calm stack waits)

/-- The next instant is one of those after `x`. -/
theorem Program.Run.step_after {before : List (Config H)} (run : p.Run w (before ++ x :: seen) c)
    (h : p.step c = some c') : p.Run w (before ++ x :: (seen ++ [c])) c' := by
  have next := run.step h
  rwa [List.append_assoc] at next

/-- A scope that is made later was not known before. -/
theorem Program.Run.new_of_passed {past : List (Config H)} (run : p.Run w past c) (passed : x ∈ past) :
    x.world.header? ⟨c.world.scopes.size⟩ = none := by
  cases known : x.world.header? ⟨c.world.scopes.size⟩ with
  | none => rfl
  | some header =>
    obtain ⟨b, later⟩ := run.owner passed ⟨header.1, known⟩
    rw [World.header?_size] at later
    cases later

variable {cell : MachineCell H} {a : Activation H} {target : Definition} {kind : String}
  {y next : Collected (Entry H)} {stage : Stage H} {ms ms' : List (Mark H)} {s : ScopeId}
  (run : p.Run w (before ++ x :: seen) c) (h : p.step c = some c') (calm : c.IsCalm)
  (unstopped : ¬c.AsksStop m)

include run in
/-- A state is entered with a new scope. -/
theorem Program.Run.attempt_activate {host : H} {ctl : Control H} {world : World H}
    (trial : Trial p m x cell a target kind (seen ++ [c]) y stage ms)
    (same : world = c.world) (shows : c.Shows m cell.face .running none)
    (marks : marks m (seen ++ [c]) = ms) :
    Attempt p m x cell a target kind (seen ++ [c])
      (Config.activate m y stage ⟨world, host, ctl, x.stack⟩) := by
  subst same
  obtain ⟨cell', found, face, running, none⟩ := shows
  have found' : (c.world.addScope (some m) (some cell'.manager)).2.machine? m = some cell' :=
    World.machine?_addScope.trans found
  rw [Config.activate_eq found]
  refine .acting y stage ms ⟨c.world.scopes.size⟩ [] y.actions [] trial ?_ ?_ rfl ?_
    (fun _ => ⟨rfl, rfl⟩) rfl
  · exact run.new_of_passed (List.mem_append_right _ (List.mem_cons_self ..))
  · exact ⟨cell', found', face, running, none⟩
  · rw [marks, List.map_nil, List.append_nil]

include run h calm unstopped in
theorem Attempt.leaving_step
    (collects : p.collect cell.settings.delegationLimit target = .done (.ok next))
    (shows : c.Shows m cell.face .running none) (marks : marks m seen = [])
    (stack : c.stack = above ++ .leaving m a.collected next kind :: x.stack) :
    Attempt p m x cell a target kind (seen ++ [c]) c' := by
  have shift : .shift ∈ roles m (.leaving m a.collected next kind :: x.stack) := by
    rw [roles_leaving]
    exact List.mem_cons_self ..
  rcases run.goes_on_or_resumes seen h calm shows stack shift (by simp) (by simp) unstopped with
    ⟨-, above', stack', quiet, shows'⟩ | ⟨rfl, ans, control, resumes⟩
  · exact .leaving next above' collects shows' (quiet.trans marks) stack'
  · cases ans with
    | unit =>
      have quiet : c.mark? m = none := Config.mark?_eq_none (by simp [control])
      cases resumes
      exact run.attempt_activate (.next collects) rfl shows ((marks_quiet _ quiet).trans marks)
    | _ => cases resumes

include run h calm unstopped in
theorem Attempt.acting_step {called later : List (Entry H)}
    (trial : Trial p m x cell a target kind seen y stage ms) (new : x.world.header? s = none)
    (shows : c.Shows m cell.face .running none) (actions : y.actions = called ++ later)
    (marks : marks m seen = ms ++ called.map (.enter s))
    (begun : called = [] → above = [] ∧ c.control = .give (.result (.ok ())))
    (stack : c.stack = above ++ .acting y.name s later :: .activating m y s stage :: x.stack) :
    Attempt p m x cell a target kind (seen ++ [c]) c' := by
  have shift : .shift ∈ roles m (.acting y.name s later :: .activating m y s stage :: x.stack) := by
    rw [roles_acting, roles_activating, trial.role]
    exact List.mem_cons_self ..
  rcases run.goes_on_or_resumes seen h calm shows stack shift (by simp) (by simp) unstopped with
    ⟨busy, above', stack', quiet, shows'⟩ | ⟨rfl, ans, control, resumes⟩
  · refine .acting y stage ms s called later above' trial.mono new shows' actions
      (quiet.trans marks) (fun none => ?_) stack'
    obtain ⟨rfl, control⟩ := begun none
    rw [control] at busy
    rcases busy with some | goes
    · exact absurd rfl some
    · cases goes
  · cases ans with
    | result r =>
      cases r with
      | error fault =>
        cases resumes
        -- an error is the answer of the action called last, for before the first one nothing fails
        obtain rfl | ⟨called, failing, rfl⟩ := List.eq_nil_or_concat' called
        · cases (begun rfl).2.symm.trans control
        · have quiet : c.mark? m = none := by simp [Config.mark?, control, stack]
          have fails : EntryFails (seen ++ [c]) y s (.entry y.name fault) _ :=
            .intro called later failing fault (by rw [actions, List.append_assoc]; rfl)
              ⟨c, List.mem_append_right _ (List.mem_singleton_self c), control, _, stack⟩
          exact .failed y stage ms _ s _ trial.mono new shows fails ((marks_quiet _ quiet).trans marks)
            rfl rfl
      | ok =>
        cases later with
        | nil =>
          have quiet : c.mark? m = none := by simp [Config.mark?, control, stack]
          cases resumes
          rw [List.append_nil] at actions
          exact .entered y stage ms s trial.mono new shows
            ((marks_quiet _ quiet).trans (actions ▸ marks)) rfl rfl
        | cons action later =>
          have mark : c.mark? m = some (.enter s action) := by simp [Config.mark?, control, stack]
          cases resumes
          refine .acting y stage ms s (called ++ [action]) later [] trial.mono new shows ?_ ?_ ?_ rfl
          · rw [actions, List.append_assoc]
            rfl
          · rw [marks_concat, marks, mark, List.map_append, List.append_assoc]
            rfl
          · intro none
            simp at none
    | _ => cases resumes

omit calm unstopped in
include run h in
theorem Attempt.failed_step {error : DefinitionError}
    (trial : Trial p m x cell a target kind seen y stage ms) (new : x.world.header? s = none)
    (shows : c.Shows m cell.face .running none) (fails : EntryFails seen y s error ms')
    (marks : marks m seen = ms ++ ms') (control : c.control = .give (.entered (.error error)))
    (stack : c.stack = .activating m y s stage :: x.stack) :
    Attempt p m x cell a target kind (seen ++ [c]) c' := by
  have quiet : c.mark? m = none := Config.mark?_eq_none (by simp [control])
  have held : (⟨s, [], []⟩ : Grip) ∈ c.grips m :=
    Config.mem_grips (stack ▸ List.mem_cons_self ..) rfl rfl
  have live := (run.holding m).live held
  obtain ⟨world, host, ctl, fs⟩ := c
  cases control
  cases stack
  cases h
  refine .abandoning y stage ms ms' s error [] trial.mono shows fails.mono
    ((marks_quiet _ quiet).trans marks) ⟨new, _, List.mem_append_right _ (List.mem_singleton_self _),
      Config.frees?_eq_some_iff.2 ⟨rfl, ?_⟩, live, [_], rfl⟩ rfl
  exact World.isCancelled_eq_false_iff.2 ⟨_, live⟩

omit calm unstopped run in
include h in
theorem Attempt.entered_step (trial : Trial p m x cell a target kind seen y stage ms)
    (new : x.world.header? s = none) (shows : c.Shows m cell.face .running none)
    (marks : marks m seen = ms ++ y.actions.map (.enter s))
    (control : c.control = .give (.entered (.ok ())))
    (stack : c.stack = .activating m y s stage :: x.stack) :
    Attempt p m x cell a target kind (seen ++ [c]) c' := by
  have quiet : c.mark? m = none := Config.mark?_eq_none (by simp [control])
  obtain ⟨world, host, ctl, fs⟩ := c
  cases control
  cases stack
  cases h
  refine .subscribing y stage ms s [] _ [] trial.mono new shows rfl ?_ rfl
  rw [marks_quiet _ quiet, marks, List.map_nil, List.append_nil]

/-- The release of a scope is over when the frames are back above which it began. -/
theorem Program.Run.discarded {past : List (Config H)} {b : Config H} {fs : List (Frame H)}
    (run : p.Run w past c) (split : past = before ++ x :: seen) (new : x.world.header? s = none)
    (mem : b ∈ seen) (frees : b.frees? = some s) (header : b.world.header? s = some (false, some m))
    (above : b.stack = fs ++ base) (stack : c.stack = base) (calm : ∀ y ∈ seen, y.IsCalm) :
    Discarded m x seen c s := by
  have inside : b ∈ past := split ▸ List.mem_append_right _ (List.mem_cons_of_mem _ mem)
  obtain ⟨pre, post, rfl⟩ := List.append_of_mem mem
  have passed : (before ++ x :: pre) ++ [b] <+: past :=
    ⟨post, by rw [split, List.append_assoc, List.append_assoc]; rfl⟩
  obtain ⟨after, split', fate⟩ := run.fate passed frees
  have same : post = after := by
    rw [split, List.append_assoc] at split'
    exact (List.cons.inj (List.append_cancel_left (List.cons.inj (List.append_cancel_left split')).2)).2
  subst same
  refine ⟨new, ?_, pre, b, ?_⟩
  · obtain ⟨owner, released⟩ := run.header?_of_freed (List.mem_filterMap.2 ⟨b, inside, frees⟩)
    obtain ⟨b', owned⟩ := run.owner inside ⟨_, header⟩
    rw [released] at owned
    cases owned
    exact released
  · cases fate with
    | underWay above' ts stack' =>
      rw [stack, above] at stack'
      have longer := congrArg List.length stack'
      simp at longer
      omega
    | carriedThrough mid rest split through =>
      exact ⟨mid, rest, by rw [split], frees, through⟩
    | lost loses =>
      obtain ⟨z, mem', _, message, control⟩ := loses
      exact absurd control (calm z (List.mem_append_right _ (List.mem_cons_of_mem _ mem')) message)

/-- The same for the frames that were there at the beginning. -/
theorem Freed.discarded {past : List (Config H)} (freed : Freed m x seen s)
    (run : p.Run w past c) (split : past = before ++ x :: seen) (stack : c.stack = x.stack)
    (calm : ∀ y ∈ seen, y.IsCalm) : Discarded m x seen c s := by
  obtain ⟨new, b, mem, frees, header, fs, above⟩ := freed
  exact run.discarded split new mem frees header above stack calm

include run h in
/-- The previous state is entered again. -/
theorem Attempt.restored_step {state : String} {cause : DefinitionError}
    (trial : Trial p m x cell a target kind seen y (.restore state cause) ms)
    (new : x.world.header? s = none) (shows : c.Shows m cell.face .running none)
    (built : a.routes = .build a.collected.directives) (settled : ∀ y ∈ seen ++ [c], y.IsCalm)
    (marks : marks m (seen ++ [c]) = ms ++ y.actions.map (.enter s) ++
      (RouteTable.build y.directives).routes.map (.subscribe s))
    (world : c'.world = c.world.modifyMachine m fun n =>
      { n with current := some ⟨y, .build y.directives, s⟩ })
    (control : c'.control = .give (.delivered (.error (.definition cause))))
    (stack : c'.stack = x.stack) : Attempt p m x cell a target kind (seen ++ [c]) c' := by
  obtain ⟨cell', found, face, running, _⟩ := shows
  have run' := run.step_after h
  cases trial with
  | @again next t _ _ collects fails freed =>
    have same : (⟨a.collected, .build a.collected.directives, s⟩ : Activation H) =
        { a with scope := s } := by rw [built]
    have found' : c'.world.machine? m = some { cell' with current := some { a with scope := s } } := by
      rw [world, World.machine?_modifyMachine, if_pos rfl, found, Option.map_some, same]
    have current : c'.world.current? m = some { a with scope := s } := by
      rw [World.current?, found']
      rfl
    have held := Program.Run.mem_grips_of_current current
    refine .returned _ control stack fun err failed => ?_
    cases failed
    refine .restored collects fails.mono ?_ ?_ new ((run'.holding m).live held) ?_ ?_
    · rw [marks, built]
    · exact freed.mono.discarded run' rfl stack settled
    · exact ⟨_, found', face, running, rfl⟩
    · intro slot source emitter
      have emitter (id : SourceId) : w.sourceHeader? slot ≠ some (id, true) :=
        run'.sourceHeader? slot ▸ emitter id
      exact (List.append_nil _).symm.trans (run'.subscribedOn emitter m _ held source)

include run h calm unstopped in
theorem Attempt.subscribing_step {done later : List Route}
    (trial : Trial p m x cell a target kind seen y stage ms) (new : x.world.header? s = none)
    (shows : c.Shows m cell.face .running none)
    (built : a.routes = .build a.collected.directives) (settled : ∀ y ∈ seen ++ [c], y.IsCalm)
    (routes : (RouteTable.build y.directives).routes = done ++ later)
    (marks : marks m seen = ms ++ y.actions.map (.enter s) ++ done.map (.subscribe s))
    (stack : c.stack = above ++ .subscribing m ⟨y, .build y.directives, s⟩ later stage :: x.stack) :
    Attempt p m x cell a target kind (seen ++ [c]) c' := by
  have shift : .shift ∈ roles m (.subscribing m ⟨y, .build y.directives, s⟩ later stage :: x.stack) := by
    rw [roles_subscribing, trial.role]
    exact List.mem_cons_self ..
  rcases run.goes_on_or_resumes seen h calm shows stack shift (by simp) (by simp) unstopped with
    ⟨-, above', stack', quiet, shows'⟩ | ⟨rfl, ans, control, resumes⟩
  · exact .subscribing y stage ms s done later above' trial.mono new shows' routes
      (quiet.trans marks) stack'
  · cases ans with
    | result r =>
      cases later with
      | nil =>
        have quiet : c.mark? m = none := by simp [Config.mark?, control, stack]
        have marks' := (marks_quiet seen quiet).trans marks
        rw [List.append_nil] at routes
        obtain ⟨cell', found, face, running, none⟩ := id shows
        simp only [Program.resume, Option.some.injEq, Config.subscribeNext, Config.record,
          Config.install, found, running, if_true] at resumes
        cases id trial with
        | next =>
          subst resumes
          exact .succeeding [] _ _ rfl
        | again =>
          subst resumes
          exact Attempt.restored_step run h trial new shows built settled (routes ▸ marks') rfl rfl rfl
      | cons route later =>
        have mark : c.mark? m = some (.subscribe s route) := by simp [Config.mark?, control, stack]
        have routes' : (RouteTable.build y.directives).routes = (done ++ [route]) ++ later := by
          rw [routes, List.append_assoc]
          rfl
        have marks' : ScopedMachine.marks m (seen ++ [c]) =
            ms ++ y.actions.map (.enter s) ++ (done ++ [route]).map (.subscribe s) := by
          rw [marks_concat, marks, mark, List.map_append, List.append_assoc _ _ (some _).toList]
          rfl
        simp only [Program.resume, Option.some.injEq, Config.subscribeNext, Config.push] at resumes
        -- a source that the host keeps is called, another one registers the listener at once
        split at resumes
        · subst resumes
          exact .subscribing y stage ms s _ later [] trial.mono new shows routes' marks' rfl
        · subst resumes
          obtain ⟨cell', found, same⟩ := shows
          refine .subscribing y stage ms s _ later [] trial.mono new ⟨cell', ?_, same⟩ routes' marks' rfl
          exact World.machine?_register.trans found
    | _ => cases resumes

include run h calm unstopped in
theorem Attempt.abandoning_step {error : DefinitionError}
    (trial : Trial p m x cell a target kind seen y stage ms)
    (shows : c.Shows m cell.face .running none) (fails : EntryFails seen y s error ms')
    (marks : marks m seen = ms ++ ms') (freed : Freed m x (seen ++ [c]) s)
    (stack : c.stack = above ++ .abandoning m y.name error stage :: x.stack) :
    Attempt p m x cell a target kind (seen ++ [c]) c' := by
  have shift : .shift ∈ roles m (.abandoning m y.name error stage :: x.stack) := by
    rw [roles_abandoning, trial.role]
    exact List.mem_cons_self ..
  rcases run.goes_on_or_resumes seen h calm shows stack shift (by simp) (by simp) unstopped with
    ⟨-, above', stack', quiet, shows'⟩ | ⟨rfl, ans, control, resumes⟩
  · exact .abandoning y stage ms ms' s error above' trial.mono shows' fails.mono
      (quiet.trans marks) freed.mono stack'
  · cases ans with
    | unit =>
      have quiet : c.mark? m = none := Config.mark?_eq_none (by simp [control])
      have marks' := (marks_quiet seen quiet).trans marks
      -- after the target the previous state is tried, after that one there is nothing left
      cases trial with
      | next collects =>
        cases resumes
        exact run.attempt_activate (.again collects fails.mono freed) rfl shows marks'
      | again collects earlier freed' =>
        cases resumes
        exact .stopping _ (.intro collects earlier.mono fails.mono marks' freed'.mono freed) shows rfl
          rfl
    | _ => cases resumes

omit calm unstopped run in
include h in
theorem Attempt.stopping_step {err : MachineError} (collapse : Collapse p m x cell a target seen err)
    (shows : c.Shows m cell.face .running none) (control : c.control = .stop m)
    (stack : c.stack = .settling (.gave (.delivered (.error err))) :: x.stack) :
    Attempt p m x cell a target kind (seen ++ [c]) c' := by
  have quiet : c.mark? m = none := Config.mark?_eq_none (by simp [control])
  obtain ⟨cell', found, face, running, none⟩ := shows
  obtain ⟨world, host, ctl, fs⟩ := c
  cases control
  cases stack
  have found : world.machine? m = some cell' := found
  have step : some (Config.performStop m ⟨world, host, .stop m,
      .settling (.gave (.delivered (.error err))) :: x.stack⟩) = some c' := h
  have stands : cell'.status ≠ .stopped := by
    rw [running]
    nofun
  simp only [Config.performStop, found, if_neg stands, none, Config.releaseActivation,
    Option.some.injEq] at step
  subst step
  refine .stopped err (collapse.quiet quiet) ⟨cell'.stop, ?_, face, rfl, rfl⟩ rfl rfl
  exact World.machine?_modifyMachine_self found

omit calm unstopped run in
include h in
theorem Attempt.stopped_step {err : MachineError} (collapse : Collapse p m x cell a target seen err)
    (shows : c.Shows m cell.face .stopped none) (control : c.control = .give .unit)
    (stack : c.stack = .stopping m :: .settling (.gave (.delivered (.error err))) :: x.stack) :
    Attempt p m x cell a target kind (seen ++ [c]) c' := by
  have quiet : c.mark? m = none := Config.mark?_eq_none (by simp [control])
  obtain ⟨cell', found, face, stopped, none⟩ := shows
  obtain ⟨world, host, ctl, fs⟩ := c
  cases control
  cases stack
  cases h
  refine .settling err (collapse.quiet quiet) ⟨cell'.clearPending, ?_, face, stopped, none⟩ rfl rfl
  show (world.modifyMachine m MachineCell.clearPending).machine? m = _
  rw [World.machine?_modifyMachine, if_pos rfl, show world.machine? m = some cell' from found,
    Option.map_some]

omit calm unstopped in
include run h in
theorem Attempt.settling_step {err : MachineError} (settled : ∀ y ∈ seen ++ [c], y.IsCalm)
    (collapse : Collapse p m x cell a target seen err)
    (shows : c.Shows m cell.face .stopped none) (control : c.control = .give .unit)
    (stack : c.stack = .settling (.gave (.delivered (.error err))) :: x.stack) :
    Attempt p m x cell a target kind (seen ++ [c]) c' := by
  have quiet : c.mark? m = none := Config.mark?_eq_none (by simp [control])
  have run' := run.step_after h
  obtain ⟨world, host, ctl, fs⟩ := c
  cases control
  cases stack
  cases h
  refine .returned _ rfl rfl fun err' failed => ?_
  cases failed
  cases collapse with
  | intro collects fails fails' marks freed freed' =>
    exact .lost collects fails.mono fails'.mono ((marks_quiet _ quiet).trans marks)
      (freed.mono.discarded run' rfl rfl settled) (freed'.mono.discarded run' rfl rfl settled) shows

omit unstopped in
include run h calm in
theorem Attempt.succeeding_step {change : Change} {rest : List (Registration (Observer H))}
    (stack : c.stack = above ++ .publishing m change rest :: x.stack) :
    Attempt p m x cell a target kind (seen ++ [c]) c' := by
  by_cases busy : above ≠ [] ∨ c.control.isEnd = false
  · obtain ⟨above', stack'⟩ := (run.course h).stays stack busy
    exact .succeeding above' change rest stack'
  · obtain ⟨rfl, ans, control, resumes⟩ := Config.resume_of_idle h busy calm stack (by simp)
    -- whatever the last observer answered, the next one is told
    have next {host : H} {ctl : Control H}
        (told : Config.publishNext m change rest ⟨c.world, host, ctl, x.stack⟩ = c') :
        Attempt p m x cell a target kind (seen ++ [c]) c' := by
      cases rest with
      | nil =>
        subst told
        exact .returned (.ok _) rfl rfl nofun
      | cons r rest =>
        simp only [Config.publishNext] at told
        split at told
        · subst told
          exact .succeeding [] change rest rfl
        · subst told
          unfold Config.notify
          split <;> exact .succeeding [] change rest rfl
    cases ans with
    | result r =>
      cases r with
      | ok => exact next (Option.some.inj resumes)
      | error fault => exact next (Option.some.inj resumes)
    | _ => cases resumes

omit calm unstopped run in
include h in
theorem Attempt.collecting_step {r : Except DefinitionError (Collected (Entry H))}
    (found : x.world.machine? m = some cell) (running : cell.status = .running)
    (current : cell.current = some a)
    (collects : p.collect cell.settings.delegationLimit target = .done r) (idle : seen = [])
    (same : c.world = x.world) (control : c.control = .gather (.done r))
    (stack : c.stack = .collecting (.transition m kind) :: x.stack) :
    Attempt p m x cell a target kind (seen ++ [c]) c' := by
  subst idle
  have quiet : c.mark? m = none := Config.mark?_eq_none (by simp [control])
  obtain ⟨world, host, ctl, fs⟩ := c
  cases control
  cases stack
  cases same
  cases r with
  | error error =>
    cases h
    refine .returned _ rfl rfl fun err failed => ?_
    cases failed
    exact .refused collects ⟨_, rfl, rfl⟩ rfl
  | ok next =>
    simp only [Program.step, Config.useCollected, Config.record, found, running, current,
      Option.some.injEq] at h
    subst h
    refine .leaving next [] collects ⟨cell.clearCurrent, ?_, rfl, running, rfl⟩
      (marks_quiet [] quiet) rfl
    exact World.machine?_modifyMachine_self found

end Phases

/-! ## The whole routing -/

section Whole

variable {x c : Config H} {cell : MachineCell H} {a : Activation H} {target : Definition}
  {kind : String} {seen : List (Config H)}

/-- Something of an attempt is left on the stack, or it is over. -/
theorem Attempt.above_or_returned (attempt : Attempt p m x cell a target kind seen c) :
    (∃ above f, c.stack = above ++ f :: x.stack) ∨
      c.stack = x.stack ∧ ∀ err, c.control = .give (.delivered (.error err)) →
        RolledBack p m x cell a target seen c err := by
  cases attempt with
  | collecting _ _ _ _ _ stack => exact .inl ⟨[], _, stack⟩
  | leaving _ above _ _ _ stack => exact .inl ⟨above, _, stack⟩
  | acting _ _ _ _ _ _ above _ _ _ _ _ _ stack =>
    exact .inl ⟨above ++ [_], _, stack.trans (List.append_assoc above [_] _).symm⟩
  | entered _ _ _ _ _ _ _ _ _ stack => exact .inl ⟨[], _, stack⟩
  | failed _ _ _ _ _ _ _ _ _ _ _ _ stack => exact .inl ⟨[], _, stack⟩
  | subscribing _ _ _ _ _ _ above _ _ _ _ _ stack => exact .inl ⟨above, _, stack⟩
  | abandoning _ _ _ _ _ _ above _ _ _ _ _ stack => exact .inl ⟨above, _, stack⟩
  | succeeding above _ _ stack => exact .inl ⟨above, _, stack⟩
  | stopping _ _ _ _ stack => exact .inl ⟨[], _, stack⟩
  | stopped _ _ _ _ stack => exact .inl ⟨[_], _, stack⟩
  | settling _ _ _ _ stack => exact .inl ⟨[], _, stack⟩
  | returned r control stack outcome =>
    refine .inr ⟨stack, fun err failed => outcome err ?_⟩
    rw [control] at failed
    cases failed
    rfl

/-- One step of an attempt. -/
theorem Attempt.step {w : World H} {before : List (Config H)} {c' : Config H}
    (attempt : Attempt p m x cell a target kind seen c) (run : p.Run w (before ++ x :: seen) c)
    (h : p.step c = some c') (found : x.world.machine? m = some cell)
    (running : cell.status = .running) (current : cell.current = some a)
    (built : a.routes = .build a.collected.directives) (settled : ∀ y ∈ seen ++ [c], y.IsCalm)
    (apart : c.stack ≠ x.stack) (unstopped : ¬c.AsksStop m) :
    Attempt p m x cell a target kind (seen ++ [c]) c' := by
  have calm : c.IsCalm := settled c (List.mem_append_right _ (List.mem_singleton_self c))
  cases attempt with
  | collecting r collects idle world control stack =>
    exact Attempt.collecting_step h found running current collects idle world control stack
  | leaving next above collects shows marks stack =>
    exact Attempt.leaving_step run h calm unstopped collects shows marks stack
  | acting y stage ms s called later above trial new shows actions marks begun stack =>
    exact Attempt.acting_step run h calm unstopped trial new shows actions marks begun stack
  | entered y stage ms s trial new shows marks control stack =>
    exact Attempt.entered_step h trial new shows marks control stack
  | failed y stage ms ms' s error trial new shows fails marks control stack =>
    exact Attempt.failed_step run h trial new shows fails marks control stack
  | subscribing y stage ms s done later above trial new shows routes marks stack =>
    exact Attempt.subscribing_step run h calm unstopped trial new shows built settled routes marks
      stack
  | abandoning y stage ms ms' s error above trial shows fails marks freed stack =>
    exact Attempt.abandoning_step run h calm unstopped trial shows fails marks freed stack
  | succeeding above change rest stack => exact Attempt.succeeding_step run h calm stack
  | stopping err collapse shows control stack =>
    exact Attempt.stopping_step h collapse shows control stack
  | stopped err collapse shows control stack =>
    exact Attempt.stopped_step h collapse shows control stack
  | settling err collapse shows control stack =>
    exact Attempt.settling_step run h settled collapse shows control stack
  | returned r control stack => exact absurd stack apart

end Whole

/-- A machine that an event leads to a target is running, with an activation in place. -/
theorem MachineCell.stands_of_target? {cell : MachineCell H} {target : Definition} {slot : SourceId}
    {kind : String} (leads : cell.target? slot kind = some target) :
    cell.status = .running ∧ ∃ a, cell.current = some a := by
  unfold target? at leads
  split at leads
  · next stands =>
    obtain ⟨a, current, _⟩ := Option.bind_eq_some_iff.1 leads
    exact ⟨stands.1, a, current⟩
  · cases leads

/-- The marks of a failed entry are calls of entry actions. -/
theorem EntryFails.not_tell {span : List (Config H)} {y : Collected (Entry H)} {s : ScopeId}
    {error : DefinitionError} {ms : List (Mark H)} (fails : EntryFails span y s error ms)
    (number : Nat) (change : Change) : .tell number change ∉ ms := by
  cases fails
  simp

/-- What becomes of a machine when the routing of an event fails that began at the instant `x`. -/
structure KeepsState (p : Program H) (m : MachineId) (x : Config H) (cell : MachineCell H)
    (source : SourceId) (e : Event) (span : List (Config H)) (c : Config H) (err : MachineError) :
    Prop where
  /-- What the machine shows is as before. -/
  face : ∃ cell', c.world.machine? m = some cell' ∧ cell'.face = cell.face
  /-- No observer of the machine was told of anything. -/
  silent (number : Nat) (change : Change) : .tell number change ∉ marks m span
  /-- The event led to a target, and the transition failed in one of three ways. -/
  outcome : ∃ a target, cell.current = some a ∧ cell.target? source e.kind = some target ∧
    RolledBack p m x cell a target span c err

theorem RolledBack.keepsState {x c : Config H} {cell : MachineCell H} {a : Activation H}
    {target : Definition} {span : List (Config H)} {err : MachineError} {source : SourceId}
    {e : Event} (back : RolledBack p m x cell a target span c err)
    (found : x.world.machine? m = some cell) (current : cell.current = some a)
    (leads : cell.target? source e.kind = some target) :
    KeepsState p m x cell source e span c err where
  face := by
    cases id back with
    | refused collects idle world => exact ⟨cell, world ▸ found, rfl⟩
    | restored collects fails marks discarded new live shows =>
      obtain ⟨cell', found', face, _⟩ := shows
      exact ⟨cell', found', face⟩
    | lost collects fails fails' marks discarded discarded' shows =>
      obtain ⟨cell', found', face, _⟩ := shows
      exact ⟨cell', found', face⟩
  silent number change := by
    cases id back with
    | refused collects idle world =>
      obtain ⟨y, rfl, control⟩ := idle
      have quiet : y.mark? m = none := Config.mark?_eq_none (by simp [control])
      simp [marks, quiet]
    | restored collects fails marks =>
      rw [marks]
      have none := fails.not_tell number change
      simp [none]
    | lost collects fails fails' marks =>
      rw [marks]
      have none := fails.not_tell number change
      have none' := fails'.not_tell number change
      simp [none, none']
  outcome := ⟨a, target, current, leads, back⟩

namespace Program.Run

variable {w : World H} {before past span : List (Config H)} {x c : Config H} {cell : MachineCell H}
  {source : SourceId} {e : Event} {err : MachineError}

section Routed

variable (run : p.Run w past c) (split : past = before ++ x :: span)
  (found : x.world.machine? m = some cell) (routes : x.control = .route m source e)
  (first : ∀ y ∈ span, y.stack ≠ x.stack)

include routes in
theorem not_isOver_of_route : ¬x.IsOver := by
  rintro ⟨_, ⟨a, control⟩ | ⟨message, control⟩⟩ <;> rw [routes] at control <;> cases control

include run split found routes first in
/-- An event that leads nowhere is ignored at once. -/
theorem ignored_of_target? (nowhere : cell.target? source e.kind = none) :
    c.control = .give (.delivered (.ok .ignored)) := by
  let P (_ : List (Config H)) (c : Config H) : Prop :=
    c.control = .give (.delivered (.ok .ignored)) ∧ c.stack = x.stack
  have ignored : P span c := by
    refine run.above_induction split (not_isOver_of_route routes) first
      (fun kept => ⟨[], kept.2⟩) ?_ ?_
    · intro c step
      obtain ⟨host, routed⟩ := p.step_route found routes
      rw [routed, nowhere] at step
      cases step
      exact ⟨rfl, rfl⟩
    · intro seen c c' _ inside _ kept
      exact absurd kept.2 (first c inside)
  exact ignored.1

include run split found routes first in
/-- An event that leads to a target is an attempt to get there. -/
theorem attempt {a : Activation H} {target : Definition} (yields : p.Yields fun _ => True)
    (running : cell.status = .running) (current : cell.current = some a)
    (leads : cell.target? source e.kind = some target) (calm : ∀ y ∈ span, y.IsCalm)
    (unstopped : ∀ y ∈ span, ¬y.AsksStop m) :
    Attempt p m x cell a target e.kind span c := by
  have begun : p.Run w before x := run.earlier (split ▸ ⟨span ++ [c], by simp⟩)
  have built := ((begun.keeps yields.keeps).machine found a current).2
  let P (seen : List (Config H)) (c : Config H) : Prop :=
    (∀ y ∈ seen, y ∈ span) ∧ Attempt p m x cell a target e.kind seen c
  have go : P span c := by
    refine run.above_induction split (not_isOver_of_route routes) first ?_ ?_ ?_
    · rintro seen c ⟨_, attempt⟩
      rcases attempt.above_or_returned with ⟨above, f, stack⟩ | ⟨stack, _⟩
      · exact ⟨above ++ [f], stack.trans (List.append_assoc above [f] _).symm⟩
      · exact ⟨[], stack⟩
    · intro c step
      obtain ⟨host, routed⟩ := p.step_route found routes
      obtain ⟨r, done, _⟩ := yields.collect cell.settings.delegationLimit target
      simp only [routed, leads, done] at step
      cases step
      exact ⟨List.forall_mem_nil _, .collecting r done rfl rfl rfl rfl⟩
    · rintro seen c c' run' inside h ⟨within, attempt⟩
      have within' : ∀ y ∈ seen ++ [c], y ∈ span := by
        intro y mem
        rcases List.mem_append.1 mem with earlier | now
        · exact within y earlier
        · exact List.mem_singleton.1 now ▸ inside
      exact ⟨within', attempt.step run' h found running current built
        (fun y mem => calm y (within' y mem)) (first c inside) (unstopped c inside)⟩
  exact go.2

end Routed

/-- If the routing of an event fails, and no callback stops the machine meanwhile, the machine shows
what it showed before, and unless its state could not be entered again it is in that state. -/
theorem keeps_state (run : p.Run w past c) (split : past = before ++ x :: span)
    (yields : p.Yields fun _ => True) (found : x.world.machine? m = some cell)
    (routes : x.control = .route m source e)
    (returns : c.control = .give (.delivered (.error err))) (stack : c.stack = x.stack)
    (first : ∀ y ∈ span, y.stack ≠ x.stack) (unstopped : ∀ y ∈ span, ¬y.AsksStop m) :
    KeepsState p m x cell source e span c err := by
  have calm := run.calm_of_returns split (by rw [routes]; rfl) first stack returns
  cases leads : cell.target? source e.kind with
  | none =>
    have ignored := run.ignored_of_target? split found routes first leads
    cases returns.symm.trans ignored
  | some target =>
    obtain ⟨running, a, current⟩ := MachineCell.stands_of_target? leads
    have attempt := run.attempt split found routes first yields running current leads calm unstopped
    rcases attempt.above_or_returned with ⟨above, f, higher⟩ | ⟨_, outcome⟩
    · rw [stack] at higher
      have longer := congrArg List.length higher
      simp at longer
      omega
    · exact (outcome err returns).keepsState found current leads

end Program.Run

namespace Lamp

/-- A lamp that cannot be switched on: the second of its three entry actions fails. -/
def broken : Program Unit where
  declared key :=
    if key = "on" then
      .yield (.entry fun _ => .ok) <|
        .yield (.entry fun _ => .done (.error (.plain "the bulb is broken"))) <|
          .yield (.entry fun _ => .ok) <|
            .finish (.ok ())
    else .yield (.entry fun _ => .ok) (program.declared key)
  subscriber _ h := h

/-- Try to switch the lamp on. -/
def attempt : Script Unit :=
  .call (.start off {} none) fun _ =>
    .call (.send ⟨0⟩ switch.id { kind := "toggle" }) fun _ => .ok

/-- Where the run begins in which the broken lamp is to be switched on. -/
def attempted : Config Unit := { world, host := (), control := .run attempt }

theorem attempted_run (n : Nat) :
    broken.Run world (broken.trail n attempted) (broken.run n attempted) :=
  (Program.Run.begin world_isFresh () attempt).trail n

theorem broken_yields : broken.Yields fun _ => True := by
  intro key
  unfold broken
  dsimp only
  split
  · exact ⟨trivial, trivial, trivial, trivial⟩
  · exact ⟨trivial, trivial, trivial, trivial⟩

end Lamp

/-- The broken lamp is off again after the attempt to switch it on. -/
theorem Program.Run.keeps_state_broken :
    ∃ cell err, (Lamp.broken.run 12 Lamp.attempted).world.machine? ⟨0⟩ = some cell ∧
      (Lamp.broken.run 33 Lamp.attempted).control = .give (.delivered (.error err)) ∧
      KeepsState Lamp.broken ⟨0⟩ (Lamp.broken.run 12 Lamp.attempted) cell Lamp.switch.id
        { kind := "toggle" } (Lamp.broken.trail 20 (Lamp.broken.run 13 Lamp.attempted))
        (Lamp.broken.run 33 Lamp.attempted) err := by
  have split : Lamp.broken.trail 33 Lamp.attempted = Lamp.broken.trail 12 Lamp.attempted ++
      Lamp.broken.run 12 Lamp.attempted ::
        Lamp.broken.trail 20 (Lamp.broken.run 13 Lamp.attempted) := rfl
  have taller : ∀ y ∈ Lamp.broken.trail 20 (Lamp.broken.run 13 Lamp.attempted),
      y.stack.length ≠ (Lamp.broken.run 12 Lamp.attempted).stack.length := by decide
  have unstopped : ∀ y ∈ Lamp.broken.trail 20 (Lamp.broken.run 13 Lamp.attempted),
      y.control.isCallOn ⟨0⟩ = false := by decide
  refine ⟨_, _, rfl, rfl,
    (Lamp.attempted_run 33).keeps_state split Lamp.broken_yields rfl rfl rfl rfl ?_ ?_⟩
  · intro y mem same
    exact taller y mem (congrArg List.length same)
  · rintro y mem ⟨stop, _⟩
    have call := unstopped y mem
    rw [stop] at call
    cases call

end ScopedMachine

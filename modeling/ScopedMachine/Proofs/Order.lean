import ScopedMachine.Proofs.Crossing

/-!
# The phases of a transition, in order

A transition that is committed goes through its phases one after the other, whatever the host code
in it does to the same machine or to the same sources: the activation that is left is released, the
target is entered and subscribed, it is installed, and the observers are told. `InPhases` says so of
what was passed before the commit and since.
-/

namespace ScopedMachine

variable {H : Type} {p : Program H} {m : MachineId}

/-! ## Telling the observers -/

/-- The observers `due` had their turn to be told of a change while `mid` was passed; `told` are
those that were called. -/
structure Announced (m : MachineId) (change : Change) (mid : List (Config H))
    (due told : List (Registration (Observer H))) : Prop where
  /-- They were called in registration order. -/
  sublist : told.Sublist due
  /-- The others had been cancelled. -/
  omitted : ∀ r ∈ due, r ∈ told ∨ ∃ z ∈ mid, z.world.isCancelled r.token = true
  marks : marks m mid = told.map fun r => .tell r.number change
  /-- Meanwhile no event was routed, so that no other transition began. -/
  sole : ∀ z ∈ mid, ¬z.Routes m

/-- How the publication of a change to the observers `os` went on while `after` was passed. -/
inductive Publication (m : MachineId) (change : Change) (os : List (Registration (Observer H)))
    (base : List (Frame H)) (after : List (Config H)) (c : Config H) : Prop where
  | underWay (due told left : List (Registration (Observer H))) (above : List (Frame H))
      (all : os = due ++ left) (announced : Announced m change after due told)
      (stack : c.stack = above ++ .publishing m change left :: base)
  | finished (mid rest : List (Config H)) (told : List (Registration (Observer H)))
      (split : after = mid ++ rest) (announced : Announced m change mid os told)
  /-- An observer panicked, and the later ones were not called. -/
  | lost (mid rest : List (Config H)) (z : Config H)
      (due told left : List (Registration (Observer H))) (split : after = mid ++ z :: rest)
      (all : os = due ++ left) (announced : Announced m change mid due told)
      (panics : ∃ message, z.control = .panic message)
      (stack : z.stack = .publishing m change left :: base)

section Publication

variable {w : World H} {past after : List (Config H)} {c c' : Config H} {change : Change}
  {os due told left : List (Registration (Observer H))} {base above : List (Frame H)}

theorem Announced.nil : Announced m change ([] : List (Config H)) [] [] where
  sublist := .slnil
  omitted := nofun
  marks := rfl
  sole := nofun

/-- Nobody has a turn. -/
theorem Announced.quiet (announced : Announced m change after due told) (quiet : c.mark? m = none)
    (sole : ¬c.Routes m) : Announced m change (after ++ [c]) due told where
  sublist := announced.sublist
  omitted r mem := by
    refine (announced.omitted r mem).imp id ?_
    rintro ⟨z, mem, cancelled⟩
    exact ⟨z, List.mem_append_left _ mem, cancelled⟩
  marks := (marks_quiet after quiet).trans announced.marks
  sole := List.forall_mem_append.2 ⟨announced.sole, List.forall_mem_singleton.2 sole⟩

/-- The next observer is called. -/
theorem Announced.tell {r : Registration (Observer H)}
    (announced : Announced m change after due told) (mark : c.mark? m = some (.tell r.number change))
    (sole : ¬c.Routes m) : Announced m change (after ++ [c]) (due ++ [r]) (told ++ [r]) where
  sublist := announced.sublist.append (.refl _)
  omitted q mem := by
    rcases List.mem_append.1 mem with earlier | now
    · rcases announced.omitted q earlier with called | ⟨z, mem, cancelled⟩
      · exact .inl (List.mem_append_left _ called)
      · exact .inr ⟨z, List.mem_append_left _ mem, cancelled⟩
    · exact .inl (List.mem_append_right _ now)
  marks := by
    rw [marks_concat, announced.marks, mark, List.map_append]
    rfl
  sole := List.forall_mem_append.2 ⟨announced.sole, List.forall_mem_singleton.2 sole⟩

/-- The next observer was cancelled, and is passed over. -/
theorem Announced.omit {r : Registration (Observer H)}
    (announced : Announced m change after due told) (quiet : c.mark? m = none)
    (cancelled : c.world.isCancelled r.token = true) (sole : ¬c.Routes m) :
    Announced m change (after ++ [c]) (due ++ [r]) told where
  sublist := announced.sublist.trans (List.sublist_append_left due [r])
  omitted q mem := by
    rcases List.mem_append.1 mem with earlier | now
    · exact (announced.quiet quiet sole).omitted q earlier
    · rw [List.mem_singleton.1 now]
      exact .inr ⟨c, List.mem_append_right _ (List.mem_singleton_self c), cancelled⟩
  marks := (announced.quiet quiet sole).marks
  sole := (announced.quiet quiet sole).sole

variable (run : p.Run w past c) (h : p.step c = some c')

include run h in
theorem Publication.underWay_step (all : os = due ++ left)
    (announced : Announced m change after due told)
    (stack : c.stack = above ++ .publishing m change left :: base) :
    Publication m change os base (after ++ [c]) c' := by
  have mem : .publishing m change left ∈ c.stack :=
    stack ▸ List.mem_append_right _ (List.mem_cons_self ..)
  obtain ⟨cell, found⟩ := run.grounded.frame mem rfl
  have publish : .publish ∈ roles m (.publishing m change left :: base) := by
    rw [roles_publishing]
    exact List.mem_cons_self ..
  have sole : ¬c.Routes m := by
    refine run.not_routes (r := .publish) ?_ rfl
    rw [stack, roles_append]
    exact List.mem_append_right _ publish
  by_cases busy : above ≠ [] ∨ c.control.isEnd = false
  · have quiet := run.mark?_above found stack busy publish rfl (by simp)
    obtain ⟨above', stack'⟩ := (run.course h).stays stack busy
    exact .underWay due told left above' all (announced.quiet quiet sole) stack'
  · obtain ⟨rfl, ⟨ans, control, resumes⟩ | ⟨message, control, -⟩⟩ :=
      Config.ends_of_idle h busy stack (by simp)
    · -- whatever the last observer answered, the next one has its turn
      have next {host : H} {ctl : Control H} {r : Except Fault Unit}
          (control : c.control = .give (.result r))
          (goes : Config.publishNext m change left ⟨c.world, host, ctl, base⟩ = c') :
          Publication m change os base (after ++ [c]) c' := by
        cases left with
        | nil =>
          have quiet : c.mark? m = none := by simp [Config.mark?, control, stack]
          rw [List.append_nil] at all
          exact .finished (after ++ [c]) [] told (List.append_nil _).symm
            (all ▸ announced.quiet quiet sole)
        | cons r left =>
          have all' : os = (due ++ [r]) ++ left := by
            rw [all, List.append_assoc]
            rfl
          simp only [Config.publishNext] at goes
          split at goes
          · next cancelled =>
            have quiet : c.mark? m = none := by simp [Config.mark?, control, stack, cancelled]
            subst goes
            exact .underWay _ told left [] all' (announced.omit quiet cancelled sole) rfl
          · next live =>
            have mark : c.mark? m = some (.tell r.number change) := by
              simp [Config.mark?, control, stack, live]
            subst goes
            refine .underWay _ _ left [] all' (announced.tell mark sole) ?_
            unfold Config.notify
            split <;> rfl
      cases ans with
      | result r =>
        cases r with
        | ok => exact next control (Option.some.inj resumes)
        | error fault => exact next control (Option.some.inj resumes)
      | _ => cases resumes
    · exact .lost after [] c due told left rfl all announced ⟨message, control⟩ stack

include run h in
theorem Publication.step (publication : Publication m change os base after c) :
    Publication m change os base (after ++ [c]) c' := by
  cases publication with
  | underWay due told left above all announced stack =>
    exact Publication.underWay_step run h all announced stack
  | finished mid rest told split announced =>
    exact .finished mid (rest ++ [c]) told (by rw [split, List.append_assoc]) announced
  | lost mid rest z due told left split all announced panics stack =>
    refine .lost mid (rest ++ [c]) z due told left ?_ all announced panics stack
    rw [split, List.append_assoc]
    rfl

end Publication

/-! ## Listeners of the activation that was left -/

/-- A dispatch passes over the next listener, if its token is the given one. -/
def Config.PassesOver (p : Program H) (s : ScopeId) (c : Config H) : Prop :=
  ∀ result e r rest report base, c.control = .give (.result result) →
    c.stack = .dispatching e (r :: rest) report :: base → r.token = s →
      ∃ host report', p.step c =
        some ⟨c.world, host, .give (.result (.ok ())), .dispatching e rest report' :: base⟩

theorem Config.passesOver_of_isCancelled {s : ScopeId} {c : Config H}
    (cancelled : c.world.isCancelled s = true) : c.PassesOver p s := by
  rintro result e r rest report base control stack rfl
  obtain ⟨world, host, ctl, fs⟩ := c
  cases control
  cases stack
  cases result with
  | ok =>
    refine ⟨host, report, ?_⟩
    simp [Program.step, Program.resume, Config.dispatchNext, cancelled, Config.push, Config.give]
  | error fault =>
    refine ⟨p.subscriber (.listenerFailed e.kind fault) host,
      { report with failures := report.failures ++ [fault] }, ?_⟩
    simp [Program.step, Program.resume, Config.dispatchNext, Config.record, cancelled, Config.push,
      Config.give]

/-! ## All phases -/

/-- The transition from the activation `a` to the activation `n` that is committed at `y`. The release
of the scope of `a` began at `b`, right after `x`, and was over when `mid` had been passed; `rest` was
passed from then on until `y`, and `after` since `y`. -/
structure InPhases (p : Program H) (m : MachineId) (a n : Activation H) (change : Change)
    (before : List (Config H)) (x b : Config H) (mid rest : List (Config H)) (y : Config H)
    (after : List (Config H)) (c : Config H) : Prop where
  /-- The activation `a` was in place until it was left. -/
  place : x.world.current? m = some a
  /-- What hung off the scope was registered in this order. -/
  registered : ∀ z ∈ before, z.world.teardowns a.scope <+: b.world.teardowns a.scope
  /-- First the teardowns of the scope are performed, in that order. -/
  freed : acts m a.scope (b :: mid) = .free :: (b.world.teardowns a.scope).map .teardown
  /-- Each of them is over before the next one is performed, and all of them at the end. -/
  through : CarriedThrough a.scope b mid
  /-- Then the entry actions are called, then the routes are subscribed, and then it is committed. -/
  entered : acts m a.scope (rest ++ [y]) =
    n.collected.actions.map (fun e => .mark (.enter n.scope e)) ++
      n.routes.routes.map (fun r => .mark (.subscribe n.scope r)) ++ [.commit change]
  /-- The token of the activation is not cancelled when an action is called or a route subscribed. -/
  live : ∀ z ∈ rest, z.MarksLive m
  table : n.routes = .build n.collected.directives
  /-- On emitters and timers the routes are listened to, in the order of the table. -/
  listens : ∀ slot, y.world.source? slot ≠ none →
    (∀ id, y.world.sourceHeader? slot ≠ some (id, true)) →
      y.world.subscribed m slot n.scope = lines slot n.routes.routes
  /-- All the time the machine shows the state of `a`, and no activation is in place. -/
  shows : ∀ z ∈ b :: (mid ++ rest ++ [y]), ∃ cell, z.world.machine? m = some cell ∧
    cell.state = a.collected.name ∧ cell.current = none
  /-- No event is routed, so that no other transition begins. -/
  sole : ∀ z ∈ b :: (mid ++ rest ++ [y]), ¬z.Routes m
  /-- The next step installs `n`. -/
  installs : ∃ z cell, (after ++ [c]).head? = some z ∧ z.world.machine? m = some cell ∧
    cell.state = n.collected.name ∧ cell.current = some n
  /-- After that the observers are told, those who were registered at `y`, in that order. -/
  tells : ∃ cell base, y.world.machine? m = some cell ∧
    (cell.observers.matching Change.topic).Pairwise (fun r q => r.number < q.number) ∧
      Publication m change (cell.observers.matching Change.topic) base after c
  /-- Since the release began, no listener that was registered with the token of `a` is called. -/
  unheard : ∀ z ∈ mid ++ rest ++ y :: (after ++ [c]), z.PassesOver p a.scope

section Commit

variable {w : World H} {past passed seen after : List (Config H)} {b y c : Config H}
  {a n : Activation H} {next : Collected (Entry H)} {kind event : String}
  {previous : Collected (Entry H)} {base below : List (Frame H)} {change : Change}

/-- What goes on after an instant at which nothing is over is a step from it. -/
theorem Program.Run.step_of_split (run : p.Run w past c) (split : past = passed ++ y :: after)
    (going : ¬y.IsOver) :
    ∃ z rest, after ++ [c] = z :: rest ∧ p.step y = some z ∧ p.Run w (passed ++ [y]) z := by
  have last {past : List (Config H)} {c : Config H} (run : p.Run w past c)
      (same : past = passed ++ [y]) : p.step y = some c := by
    cases run with
    | begin => simp at same
    | step run h =>
      obtain ⟨rfl, here⟩ := List.append_inj' same rfl
      cases here
      exact h
    | resume run ended =>
      obtain ⟨rfl, here⟩ := List.append_inj' same rfl
      cases here
      exact absurd ended going
  cases after with
  | nil => exact ⟨c, [], rfl, last run split, split ▸ run⟩
  | cons z after =>
    have begun : p.Run w (passed ++ [y]) z := run.earlier ⟨after ++ [c], by simp [split]⟩
    exact ⟨z, after ++ [c], rfl, last begun rfl, begun⟩

/-- The activation that is committed is the one that the machine was on its way to. -/
theorem Crossing.of_commit (crossing : Crossing m a next kind base b seen y)
    (run : p.Run w past y) (leaves : b.Leaves m a next kind base)
    (stack : y.stack = .subscribing m n [] (.commit event previous) :: below) :
    ∃ s, n = ⟨next, .build next.directives, s⟩ ∧
      Released m a.scope b seen y (next.actions.map (fun e => .mark (.enter s e)) ++
        (RouteTable.build next.directives).routes.map fun r => .mark (.subscribe s r)) := by
  have mem : .subscribing m n [] (.commit event previous) ∈ y.stack := stack ▸ List.mem_cons_self ..
  obtain ⟨cell, found⟩ := run.grounded.frame mem rfl
  have posture := (run.poised m).posture found
  rw [stack, roles_subscribing] at posture
  -- the frame on top is the only one that leaves one activation for another
  have top {above fs : List (Frame H)} (split : y.stack = above ++ fs)
      (shift : .shift ∈ roles m fs) : above = [] := by
    cases above with
    | nil => rfl
    | cons f above =>
      rw [stack] at split
      obtain ⟨_, rfl⟩ := List.cons.inj split
      have within : .shift ∈ roles m (above ++ fs) := roles_append ▸ List.mem_append_right _ shift
      cases posture.isTransit_eq_false rfl within
  cases crossing with
  | releasing done left above all underWay alone acts split =>
    have none := top split (by
      rw [roles_releasing, leaves.stack, roles_leaving]
      exact List.mem_cons_self ..)
    rw [none, stack] at split
    cases split
  | left released control split =>
    rw [leaves.stack, stack] at split
    cases split
  | acting s called later above actions released split =>
    have none := top split (by
      rw [roles_acting, roles_activating]
      exact List.mem_cons_self ..)
    rw [none, stack] at split
    cases split
  | entered s released control split =>
    rw [stack] at split
    cases split
  | subscribing s done later above routes released split =>
    have none := top split (by
      rw [roles_subscribing]
      exact List.mem_cons_self ..)
    rw [none, stack] at split
    cases split
    rw [List.append_nil] at routes
    exact ⟨s, rfl, routes ▸ released⟩
  | failing f fails leads split =>
    rw [stack] at split
    rcases leads with rfl | ⟨s, rfl⟩ <;> cases split

/-- The step that commits a transition installs the activation, and begins to tell the observers. -/
theorem Program.step_of_commit {cell : MachineCell H} {r : Except Fault Unit}
    (found : y.world.machine? m = some cell) (running : cell.status = .running)
    (control : y.control = .give (.result r))
    (stack : y.stack = .subscribing m n [] (.commit event previous) :: below) {z : Config H}
    (h : p.step y = some z) :
    let time := y.world.wallClock y.world.readings
    z.world.machine? m = some (cell.commit n event time) ∧
      z.stack = .publishing m ((cell.commit n event time).change cell.state event)
        (cell.observers.matching Change.topic) :: below := by
  obtain ⟨world, host, ctl, fs⟩ := y
  cases control
  cases stack
  have found : world.machine? m = some cell := found
  simp only [Program.step, Program.resume, Config.subscribeNext, Config.record, Config.install,
    found, running, if_true, Option.some.injEq] at h
  subst h
  refine ⟨?_, rfl⟩
  show (world.modifyMachine m _).machine? m = _
  rw [World.machine?_modifyMachine, if_pos rfl, found]
  rfl

/-- The step that commits a transition does nothing else. -/
theorem Config.act?_of_commit {s : ScopeId} {r : Except Fault Unit}
    (control : y.control = .give (.result r))
    (stack : y.stack = .subscribing m n [] (.commit event previous) :: below)
    (commits : y.deed? m = some (.committed change)) : y.act? m s = some (.commit change) := by
  have performs : y.teardown? s = none := by simp [Config.teardown?, control, stack]
  have quiet : y.mark? m = none := by simp [Config.mark?, control, stack]
  rw [Config.act?_of_ne_release (by simp [control]), performs, quiet, commits]
  rfl

/-- Observers are registered in the order of their numbers. -/
theorem Program.Run.observers_increasing (run : p.Run w past y) {cell : MachineCell H}
    (found : y.world.machine? m = some cell) (topic : String) :
    (cell.observers.matching topic).Pairwise (fun r q => r.number < q.number) := by
  have book : y.world.book? (.machine m) = some cell.observers.book := by
    rw [World.book?, found]
    rfl
  have increasing := (run.owned.ordered book).increasing
  rw [Registry.book, List.map_map, List.pairwise_map] at increasing
  exact increasing.filter _

/-- The publication of a change goes on from the step that committed it. -/
theorem Program.Run.publication {z : Config H} {rest : List (Config H)}
    {os : List (Registration (Observer H))} (run : p.Run w past c)
    (split : past = passed ++ y :: after) (first : after ++ [c] = z :: rest)
    (stack : z.stack = .publishing m change os :: base) : Publication m change os base after c := by
  have here : (passed ++ [y]) ++ [z] <+: past ++ [c] :=
    ⟨rest, by simp [split, first]⟩
  let P (past : List (Config H)) (c : Config H) : Prop :=
    ∃ after, past = (passed ++ [y]) ++ after ∧ Publication m change os base after c
  have go : P past c := by
    refine run.since here ?_ ?_ ?_
    · exact ⟨[], (List.append_nil _).symm, .underWay [] [] os [] rfl .nil stack⟩
    · rintro past c c' run h ⟨after, rfl, publication⟩
      exact ⟨after ++ [c], List.append_assoc .., publication.step run h⟩
    · rintro past c run ended host s ⟨after, rfl, publication⟩
      refine ⟨after ++ [c], List.append_assoc .., ?_⟩
      cases publication with
      | underWay due told left above all announced stack =>
        rw [ended.1] at stack
        simp at stack
      | finished mid rest told split announced =>
        exact .finished mid (rest ++ [c]) told (by rw [split, List.append_assoc]) announced
      | lost mid rest z due told left split all announced panics stack =>
        refine .lost mid (rest ++ [c]) z due told left ?_ all announced panics stack
        rw [split, List.append_assoc]
        rfl
  obtain ⟨after', same, publication⟩ := go
  rw [split, List.append_assoc] at same
  obtain rfl := (List.cons.inj (List.append_cancel_left same)).2
  exact publication

/-- Every transition that is committed goes through its phases in order. -/
theorem Program.Run.in_phases (run : p.Run w past c) (split : past = passed ++ y :: after)
    (commits : y.deed? m = some (.committed change)) :
    ∃ a n before x b mid rest, passed = before ++ x :: b :: (mid ++ rest) ∧
      InPhases p m a n change before x b mid rest y after c := by
  have begun : p.Run w passed y := run.earlier ⟨after ++ [c], by simp [split]⟩
  obtain ⟨cell, r, n, event, previous, below, found, running, control, stack, rfl⟩ :=
    Config.of_committed commits
  rcases begun.onTheWay (m := m) with clear | @⟨_, _, _, _, _, _, _, _, leaves⟩ |
    @⟨a, next, kind, base, before, seen, x, b, split', place, leaves, crossing, live, departs⟩
  · cases clear _ (stack ▸ List.mem_cons_self ..) rfl
  · have release := leaves.control
    rw [control] at release
    cases release
  · subst split'
    have earlier : p.Run w (before ++ [x]) b := begun.earlier ⟨seen ++ [y], by simp⟩
    have since : p.Run w ((before ++ [x]) ++ b :: seen) y := by
      rw [List.append_assoc]
      exact begun
    obtain ⟨s, rfl, released⟩ := crossing.of_commit begun leaves stack
    obtain ⟨_, mid, rest, rfl, through, freed, entered⟩ := released
    have going : ¬y.IsOver := by
      rintro ⟨none, _⟩
      rw [stack] at none
      cases none
    obtain ⟨z, later, first, h, _⟩ := run.step_of_split split going
    obtain ⟨installed, publishing⟩ := Program.step_of_commit found running control stack h
    have crossed : ∀ z ∈ b :: (mid ++ rest ++ [y]), z.Departs m a.collected.name ∧
        ∃ past, p.Run w past z := by
      intro z mem
      constructor
      · rw [← List.cons_append] at mem
        rcases List.mem_append.1 mem with passed | last
        · exact departs z passed
        · exact List.mem_singleton.1 last ▸ crossing.departs leaves
      · obtain ⟨pre, post, same⟩ := List.append_of_mem mem
        have here : ((before ++ [x]) ++ pre) ++ [z] <+: ((before ++ [x]) ++ b :: (mid ++ rest)) ++ [y] :=
          ⟨post, by simpa using same.symm⟩
        exact ⟨_, since.earlier here⟩
    refine ⟨a, ⟨next, .build next.directives, s⟩, before, x, b, mid, rest, rfl, ?_⟩
    constructor
    case place => exact place
    case registered =>
      intro z mem
      refine earlier.prefix_teardowns (List.mem_append_left _ mem) fun owner released => ?_
      rw [leaves.live] at released
      cases released
    case freed => exact freed
    case through => exact through
    case entered =>
      have act : y.act? m a.scope = some (.commit _) := Config.act?_of_commit control stack commits
      rw [acts_concat, entered, act]
      rfl
    case live => exact fun z mem => live z (List.mem_append_right _ mem)
    case table => rfl
    case listens =>
      intro slot source emitter
      have emitter (id : SourceId) : w.sourceHeader? slot ≠ some (id, true) :=
        begun.sourceHeader? slot ▸ emitter id
      have mem : .subscribing m ⟨next, .build next.directives, s⟩ [] (.commit event previous) ∈
          y.stack := stack ▸ List.mem_cons_self ..
      have subscribed := begun.subscribedOn emitter m _ (Config.mem_grips mem rfl rfl) source
      exact (List.append_nil _).symm.trans subscribed
    case shows =>
      intro z mem
      obtain ⟨departs, _, run⟩ := crossed z mem
      exact run.shows_of_departs departs
    case sole =>
      intro z mem
      obtain ⟨departs, _, run⟩ := crossed z mem
      exact run.not_routes departs.shift rfl
    case installs =>
      refine ⟨z, _, ?_, installed, rfl, rfl⟩
      rw [first]
      rfl
    case tells =>
      exact ⟨cell, below, found, begun.observers_increasing found _,
        run.publication split first publishing⟩
    case unheard =>
      intro z mem
      obtain ⟨pre, post, same⟩ := List.append_of_mem mem
      have here : ((before ++ [x]) ++ b :: pre) ++ [z] <+: past ++ [c] :=
        ⟨post, by rw [split]; simpa using same.symm⟩
      exact Config.passesOver_of_isCancelled ((run.earlier here).isCancelled_of_frees leaves.frees?)

end Commit

/-- The second time the lamp is switched, it goes through the phases in order. -/
theorem Program.Run.in_phases_lamp :
    ∃ change, (Lamp.program.run 48 Lamp.start).deed? ⟨0⟩ = some (.committed change) ∧
      ∃ a n before x b mid rest,
        Lamp.program.trail 48 Lamp.start = before ++ x :: b :: (mid ++ rest) ∧
          InPhases Lamp.program ⟨0⟩ a n change before x b mid rest
            (Lamp.program.run 48 Lamp.start)
            (Lamp.program.trail 10 (Lamp.program.run 49 Lamp.start))
            (Lamp.program.run 59 Lamp.start) := by
  have split : Lamp.program.trail 59 Lamp.start = Lamp.program.trail 48 Lamp.start ++
      Lamp.program.run 48 Lamp.start ::
        Lamp.program.trail 10 (Lamp.program.run 49 Lamp.start) := rfl
  exact ⟨_, rfl, (Lamp.run 59).in_phases split rfl⟩

end ScopedMachine

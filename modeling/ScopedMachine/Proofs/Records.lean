import ScopedMachine.Proofs.Streams

/-!
# Records, states and notices agree

A machine keeps a sequence number, a history and the state it shows, and tells its observers of each
transition. At every instant of a run, whatever its callbacks do, all four tell the same story.
-/

namespace ScopedMachine

variable {H : Type} {p : Program H} {m : MachineId}

/-! ## The path of a history -/

/-- The path of a history that records transitions is the states that the machine was in. -/
theorem Chronicle.path {face : Face} {ds : List Deed} (chronicle : Chronicle face ds) :
    face.history.path =
      if face.settings.recordHistory ∧ commits ds ≠ [] then visits ds else [] := by
  have history := chronicle.history
  have targets : face.history.transitions.map Transition.target =
      (face.history.transitions.map Transition.facts).map fun facts => facts.2.1 := by
    rw [List.map_map]
    rfl
  have first : face.history.transitions.head?.map Transition.source =
      (face.history.transitions.map Transition.facts).head?.map fun facts => facts.1 := by
    rw [List.head?_map, Option.map_map]
    rfl
  rw [History.path, first, targets, history]
  cases records : face.settings.recordHistory with
  | false => simp
  | true =>
    rcases chronicle.entered with ⟨_, none, _⟩ | ⟨state, _, visited⟩
    · simp [none]
    · cases hc : commits ds with
      | nil => simp
      | cons change changes =>
        have previous := chronicle.previous
        rw [visited, hc, List.map_cons, List.map_cons, List.dropLast_cons_cons,
          List.cons.injEq] at previous
        rw [visited, hc]
        simp [Change.facts, previous.1]

/-! ## The story of a machine -/

/-- The records of a machine agree with the transitions that it made. -/
structure Records (cell : MachineCell H) (ds : List Deed) : Prop where
  /-- The snapshot counts the transitions, and they are numbered from 1. -/
  sequence : cell.snapshot.transitions = (commits ds).length ∧
    (commits ds).map Change.sequence = List.range' 1 (commits ds).length
  /-- One state was entered first; each transition then led from the state that the one before it
  led to. -/
  chain : begins ds = [] ∧ commits ds = [] ∧ visits ds = [] ∨
    ∃ first, begins ds = [first] ∧ visits ds = first :: (commits ds).map Change.state ∧
      (commits ds).map Change.previous = (visits ds).dropLast
  /-- The state shown is the last one that was entered. -/
  state : cell.state = (visits ds).getLast?.getD ""
  /-- The history, if it is kept, has one record for each transition, which says the same of it. -/
  history : cell.history.transitions.map Transition.facts =
    if cell.settings.recordHistory then (commits ds).map Change.facts else []
  size : cell.history.size = if cell.settings.recordHistory then cell.snapshot.transitions else 0
  /-- The path is the states that the machine was in, from the first transition on. -/
  path : cell.history.path =
    if cell.settings.recordHistory ∧ commits ds ≠ [] then visits ds else []

theorem Chronicle.records {cell : MachineCell H} {ds : List Deed}
    (chronicle : Chronicle cell.face ds) : Records cell ds where
  sequence := ⟨chronicle.sequence, chronicle.numbers⟩
  chain := chronicle.entered.imp_right fun ⟨first, begun, visited⟩ =>
    ⟨first, begun, visited, chronicle.previous⟩
  state := chronicle.state
  history := chronicle.history
  size := by
    have lengths := congrArg List.length chronicle.history
    have sequence : cell.sequence = (commits ds).length := chronicle.sequence
    rw [List.length_map] at lengths
    show cell.history.transitions.length = if _ then cell.sequence else 0
    rw [sequence]
    refine Eq.trans lengths ?_
    show List.length (if cell.settings.recordHistory then _ else _) = _
    split
    · exact List.length_map _
    · rfl
  path := chronicle.path

/-- An observer hears of the transitions that it is to hear of. -/
structure Hears (m : MachineId) (past : List (Config H)) (c : Config H) (e : Nat × ScopeId) :
    Prop where
  /-- What is due to it are the last transitions, none of them left out. -/
  last : due m e.1 past <:+ commits (deeds m past)
  /-- It hears nothing else, and everything once and in order. -/
  order : (heard e.1 (deeds m past)).Sublist (due m e.1 past)
  /-- If no panic kept anything from it, it has missed nothing so far. -/
  steady : cuts m e.1 past = [] → heard e.1 (deeds m past) <+: due m e.1 past
  /-- As long as its token is live it has heard of everything that is due, except for what a panic
  kept from it and for a change that is being published and has not reached it yet. -/
  all : c.world.isCancelled e.2 = false →
    heard e.1 (deeds m past) ++ c.awaited m e.1 =
      (due m e.1 past).filter (· ∉ cuts m e.1 past)

/-- The records of a machine and what its observers know agree, at one instant of a run. -/
structure Faithful (p : Program H) (m : MachineId) (past : List (Config H)) (c : Config H)
    (cell : MachineCell H) : Prop where
  records : Records cell (deeds m past)
  /-- Whoever is or was registered as an observer hears of the transitions. -/
  hears {x : Config H} {e : Nat × ScopeId} (hx : x ∈ past ++ [c]) (registers : x.Registers m e) :
    Hears m past c e
  /-- What was read off the stream of an observer and what is still on it is what it heard. -/
  streams {x : Config H} {k : Nat} {s : StreamId} (hx : x ∈ past ++ [c])
    (card : (k, some s) ∈ x.cards m) :
    received s past ++ c.world.stream s = heard k (deeds m past)
  /-- An observer that is told of a change is live, is called with it, and sees a machine that shows
  just what the change tells. -/
  told {k : Nat} {change : Change} (h : c.deed? m = some (.told k change)) :
    change.Describes cell.snapshot ∧ (commits (deeds m past)).getLast? = some change ∧
      ∃ r rest below host, c.stack = .publishing m change (r :: rest) :: below ∧ r.number = k ∧
        c.world.isCancelled r.token = false ∧
        p.step c = some (Config.notify r.listener change
          ⟨c.world, host, c.control, .publishing m change rest :: below⟩)

namespace Program.Run

variable {w : World H} {past : List (Config H)} {c : Config H} {cell : MachineCell H}

/-- Whoever is told of a change is next in a publication. -/
theorem exists_of_told {k : Nat} {change : Change} (h : c.deed? m = some (.told k change)) :
    ∃ a r rest below, c.control = .give (.result a) ∧
      c.stack = .publishing m change (r :: rest) :: below ∧ r.number = k ∧
      c.world.isCancelled r.token = false := by
  obtain ⟨w, host, ctl, stack⟩ := c
  unfold Config.deed? at h
  split at h
  · cases h
  · next cell _ =>
    split at h
    · split at h <;> cases h
    · split at h <;> cases h
    · split at h <;> cases h
    · next n a stage _ _ _ =>
      split at h
      · cases stage with
        | initial | restore => cases h
        | commit event previous =>
          simp only [MachineCell.installing?] at h
          split at h <;> cases h
      · cases h
    · next a n change' r rest below control stack =>
      split at h
      · next live =>
        cases h
        exact ⟨a, r, rest, below, control, by rw [stack, live.1], rfl, live.2⟩
      · cases h
    · cases h

theorem step_of_told {a : Except Fault Unit} {change : Change} {r : Registration (Observer H)}
    {rest : List (Registration (Observer H))} {below : List (Frame H)}
    (control : c.control = .give (.result a))
    (stack : c.stack = .publishing m change (r :: rest) :: below)
    (live : c.world.isCancelled r.token = false) :
    ∃ host, p.step c = some (Config.notify r.listener change
      ⟨c.world, host, c.control, .publishing m change rest :: below⟩) := by
  obtain ⟨w, host, ctl, fs⟩ := c
  cases control
  cases stack
  have next (host : H) :
      Config.publishNext m change (r :: rest) ⟨w, host, .give (.result a), below⟩ =
        Config.notify r.listener change
          ⟨w, host, .give (.result a), .publishing m change rest :: below⟩ := by
    rw [Config.publishNext, if_neg (by simp [live])]
    rfl
  cases a with
  | ok => exact ⟨host, congrArg some (next host)⟩
  | error e =>
    exact ⟨p.subscriber (.listenerFailed Change.topic e) host, congrArg some (next _)⟩

/-- At every instant of a run the records of a machine and what its observers know agree. -/
theorem faithful (run : p.Run w past c) (found : c.world.machine? m = some cell) :
    Faithful p m past c cell where
  records := by
    have recorded := run.recorded (m := m)
    simp only [Config.Recorded, found] at recorded
    exact recorded.1.records
  hears hx registers :=
    ⟨run.attends.suffix _, run.attends.order _, run.attends.steady,
      run.attends.told ⟨_, hx, registers⟩⟩
  streams hx card := run.posted.post ⟨_, hx, card⟩
  told {k change} h := by
    obtain ⟨a, r, rest, below, control, stack, number, live⟩ := exists_of_told h
    have here : (change, (r :: rest).map Registration.line) ∈ publications m c.stack := by
      rw [stack, publications_publishing]
      exact List.mem_cons_self ..
    obtain ⟨host, step⟩ := step_of_told (p := p) control stack live
    exact ⟨run.describes found here, run.attends.last here, r, rest, below, host, stack, number,
      live, step⟩

/-- The records of the lamp and what its observers know agree. -/
theorem faithful_lamp :
    ∃ cell, Lamp.program.Run Lamp.world (Lamp.program.trail 60 Lamp.start)
        (Lamp.program.run 60 Lamp.start) ∧
      (Lamp.program.run 60 Lamp.start).world.machine? ⟨0⟩ = some cell ∧
      Faithful Lamp.program ⟨0⟩ (Lamp.program.trail 60 Lamp.start)
        (Lamp.program.run 60 Lamp.start) cell :=
  have found : ((Lamp.program.run 60 Lamp.start).world.machine? ⟨0⟩).isSome := by decide
  ⟨_, Lamp.run 60, (Option.some_get found).symm, faithful (Lamp.run 60) (Option.some_get found).symm⟩

/-- Before the first transition the path is empty, although the machine is in a state already. -/
theorem path_ne_visits_lamp :
    ¬∀ (past : List (Config Unit)) (c : Config Unit) (cell : MachineCell Unit),
      Lamp.program.Run Lamp.world past c → c.world.machine? ⟨0⟩ = some cell →
        cell.settings.recordHistory → cell.history.path = visits (deeds ⟨0⟩ past) := by
  intro claim
  have shown : ((Lamp.program.run 10 Lamp.start).world.machine? ⟨0⟩).map
      (fun cell => (cell.settings.recordHistory, cell.history.path)) = some (true, []) := by
    decide
  have visited : visits (deeds ⟨0⟩ (Lamp.program.trail 10 Lamp.start)) = ["Off"] := by decide
  obtain ⟨cell, found, facts⟩ := Option.map_eq_some_iff.1 shown
  rw [Prod.mk.injEq] at facts
  have path := claim _ _ cell (Lamp.run 10) found facts.1
  rw [facts.2, visited] at path
  cases path

end Program.Run

end ScopedMachine

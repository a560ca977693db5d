import ScopedMachine.Proofs.Ensemble

/-!
# A machine joins the others

A member is given a machine, and the machine is given its observers. This leaves the machines of the
other members alone, also if the first state cannot be entered.
-/

namespace ScopedMachine

variable {H D ι : Type} {p : Program H} {own : ι → H → D} {i : ι} {m : MachineId}

/-! ## Setting a machine up -/

/-- What there is to be seen of a machine in its first state. -/
def Facts.begin (settings : Settings) (x : Collected (Entry H)) : Facts H where
  settings := settings
  status := .running
  state := x.name
  aliases := x.aliases
  terminal := x.isTerminal
  accumulator := x.accumulator
  transitions := 0
  history := []
  current := some x

/-- A member that has no machine is given one. -/
def Standing.start (p : Program H) (habits : Habits H D) (initial : Definition) :
    Standing H D → Standing H D
  | .on s => .on s
  | .out data =>
    match habits.settings.validate, p.collect habits.settings.delegationLimit initial with
    | .ok (), .done (.ok x) =>
      let u := Upshot.all (x.actions.map habits.act) data
      match u.result with
      | .ok () => .on ⟨.begin habits.settings x, u.teardowns, [], u.data⟩
      | .error _ => .out u.undone
    | _, _ => .out data

/-- The place of the next machine, and of the stream of its changes. -/
def World.nextSeat (w : World H) : Seat := ⟨⟨w.machines.size⟩, ⟨w.streams.size⟩⟩

/-- A machine is made, and nothing else happened. -/
theorem World.Aside.bear {w : World H} {settings : Settings} :
    w.Aside w.nextSeat (w.bear settings) where
  machine? _ other := World.machine?_bear.trans (if_neg other)
  stream _ _ := rfl
  scope? known _ _ := known
  host := id
  kind _ := rfl
  entry := .inl

/-- A machine is in its first state, and nobody observes it. -/
structure World.Begins (own : ι → H → D) (i : ι) (habits : Habits H D) (m : MachineId)
    (s : Solo H D) (cell : MachineCell H) (w : World H) : Prop where
  found : w.machine? m = some cell
  facts : cell.facts = s.facts
  settings : s.facts.settings = habits.settings
  states {x : Collected (Entry H)} (current : s.facts.current = some x) : habits.states x
  unobserved : cell.observers = {}
  untold : s.told = []
  current {a : Activation H} (current : cell.current = some a) :
    a.routes = .build a.collected.directives ∧ w.header? a.scope = some (false, some m) ∧
      Tears own i (w.teardowns a.scope) s.teardowns
  idle : cell.inbox = {}
  held : 0 < cell.handles

section Starting

variable {w : World H} {h : H} {habits : Habits H D} {s : Solo H D} {cell : MachineCell H}

/-- A machine whose first state was not entered is taken down. -/
theorem Program.Leads.dismantle {seat : Seat} (found : w.machine? seat.machine = some cell)
    (unheld : cell.handles = 0) (pinned : cell.pins = 1) (idle : cell.current = none)
    (error : DefinitionError) :
    ∃ w', w.Aside seat w' ∧ w'.current? seat.machine = none ∧ w'.streams = w.streams ∧
      ∀ rest, p.Leads ⟨w, h, .give (.entered (.error error)), .starting seat.machine none :: rest⟩
        ⟨w', h, .give (.started (.error (.definition error))), rest⟩ := by
  let m := seat.machine
  let o : Outcome := .gave (.started (.error (.definition error)))
  let w₁ := w.modifyMachine m MachineCell.unpin
  let w₂ := w₁.modifyMachine m MachineCell.clearCurrent
  let w₃ := w₂.modifyMachine m MachineCell.clearObservers
  have found₁ : w₁.machine? m = some cell.unpin :=
    World.machine?_modifyMachine_self found
  have found₂ : w₂.machine? m = some cell.unpin.clearCurrent :=
    World.machine?_modifyMachine_self found₁
  have found₃ : w₃.machine? m = some cell.unpin.clearCurrent.clearObservers :=
    World.machine?_modifyMachine_self found₂
  have unpins (rest : List (Frame H)) :
      p.step ⟨w, h, .give (.entered (.error error)), .starting m none :: rest⟩ =
        some ⟨w₂, h, .give .unit, .dismantling m :: .settling o :: rest⟩ := by
    simp only [Program.step, Program.resume]
    rw [Config.unpin_of_last found pinned unheld, idle]
    rfl
  refine ⟨w₃, .trans (.trans .modifyMachine .modifyMachine) .modifyMachine, ?_, rfl, fun rest =>
    .head rfl (unpins rest) (.head rfl rfl (.single rfl rfl))⟩
  rw [World.current?, found₃]
  rfl

/-- The first state that was entered is installed, and the host is given the machine. -/
theorem Program.Leads.handOver {v : World H} {seat : Seat} {a : Activation H} {u : Upshot D}
    (found : w.machine? seat.machine = some (v.newborn habits.settings)) (mute : p.IsMute own)
    (state : habits.states a.collected) (routes : a.routes = .build a.collected.directives)
    (live : w.header? a.scope = some (false, some seat.machine))
    (tears : Tears own i (w.teardowns a.scope) u.teardowns) (data : own i h = u.data)
    (r : Except Fault Unit) :
    ∃ w' h' cell, w.Aside seat w' ∧ w'.streams = w.streams ∧ Writes own i u.data h h' ∧
      w'.Begins own i habits seat.machine
        ⟨.begin habits.settings a.collected, u.teardowns, [], u.data⟩ cell ∧
      ∀ rest, p.Leads
        ⟨w, h, .give (.result r),
          .subscribing seat.machine a [] .initial :: .starting seat.machine none :: rest⟩
        ⟨w', h', .give (.started (.ok seat.machine)), rest⟩ := by
  let w₁ := w.modifyMachine seat.machine (MachineCell.begin a)
  let w' := w₁.modifyMachine seat.machine fun cell => cell.unpin.hold
  let h' := p.subscriber (.started habits.settings.label a.collected.name)
    (p.subscriber (.entered a.collected.name a.routes.size) h)
  have found₁ : w₁.machine? seat.machine = some ((v.newborn habits.settings).begin a) :=
    World.machine?_modifyMachine_self found
  have installs (rest : List (Frame H)) :
      p.step ⟨w, h, .give (.result r), .subscribing seat.machine a [] .initial :: rest⟩ =
        some ⟨w₁, h', .give (.entered (.ok ())), rest⟩ := by
    simp only [Program.step, Program.resume, Config.subscribeNext, Config.record, Config.install,
      found]
    rfl
  have begins : w'.Begins own i habits seat.machine
      ⟨.begin habits.settings a.collected, u.teardowns, [], u.data⟩
      ((v.newborn habits.settings).begin a).unpin.hold :=
    { found := World.machine?_modifyMachine_self found₁
      facts := rfl
      settings := rfl
      states := by
        rintro _ ⟨⟩
        exact state
      unobserved := rfl
      untold := rfl
      current := by
        rintro _ ⟨⟩
        exact ⟨routes, live, tears⟩
      idle := rfl
      held := Nat.one_pos }
  exact ⟨w', h', _, .trans .modifyMachine .modifyMachine, rfl,
    ((Writes.same data).record mute _).record mute _, begins,
    fun rest => .head rfl (installs _) (.single rfl rfl)⟩

/-- A machine is started whose first state cannot be entered. -/
theorem Program.Leads.start_of_fails {w₁ : World H} {h₁ : H} {initial : Definition}
    {r : Except DefinitionError (Collected (Entry H))} {error : DefinitionError}
    (valid : habits.settings.validate = .ok ())
    (collects : p.collect habits.settings.delegationLimit initial = .done r)
    (stirs : (w.bear habits.settings).Stirs w.nextMachine w₁)
    (fails : ∀ rest, p.Leads
      ⟨w.bear habits.settings, h, .gather (.done r), .collecting (.initial w.nextMachine) :: rest⟩
      ⟨w₁, h₁, .give (.entered (.error error)), rest⟩) :
    ∃ w', w.Aside w.nextSeat w' ∧ w'.streams = w.streams ∧ w'.current? w.nextMachine = none ∧
      ∀ k rest, p.Leads ⟨w, h, .run (.call (.start initial habits.settings none) k), rest⟩
        ⟨w', h₁, .run (k (.started (.error (.definition error)))), rest⟩ := by
  have found : w₁.machine? w.nextSeat.machine = some (w.newborn habits.settings) :=
    (stirs.machine? _).trans (World.machine?_bear.trans (if_pos rfl))
  obtain ⟨w', aside, idle, streams, ends⟩ :=
    Program.Leads.dismantle (p := p) (h := h₁) found rfl rfl rfl error
  have aside₁ : w.Aside w.nextSeat w₁ := .trans .bear (.of_stirs stirs)
  refine ⟨w', aside₁.trans aside, streams.trans stirs.streams, idle, fun k rest => ?_⟩
  refine .head rfl (Program.step_start rfl valid) ?_
  rw [collects]
  exact (fails _).trans ((ends _).trans (.single rfl rfl))

/-- A machine is started: it is in its first state, or else it is taken down again. -/
theorem Program.Leads.start (suits : habits.Suits p own i) (mute : p.IsMute own)
    (yields : p.Yields fun _ => True) (plain : ∀ slot, w.IsPlain slot) (initial : Definition)
    (first : ∀ x, p.collect habits.settings.delegationLimit initial = .done (.ok x) →
      habits.states x) :
    ∃ w' h' result, w.Aside w.nextSeat w' ∧ w'.streams = w.streams ∧
      Writes own i ((Standing.out (own i h)).start p habits initial).data h h' ∧
      (match (Standing.out (own i h)).start p habits initial with
        | .on s => result = .ok w.nextSeat.machine ∧
          ∃ cell, w'.Begins own i habits w.nextSeat.machine s cell
        | .out _ => (∃ error, result = .error error) ∧
          w'.current? w.nextSeat.machine = none) ∧
      ∀ k rest, p.Leads ⟨w, h, .run (.call (.start initial habits.settings none) k), rest⟩
        ⟨w', h', .run (k (.started result)), rest⟩ := by
  unfold Standing.start
  cases valid : habits.settings.validate with
  | error error =>
    have refused (k : Answer → Script H) (rest : List (Frame H)) :
        p.step ⟨w, h, .run (.call (.start initial habits.settings none) k), rest⟩ =
          some ⟨w, h, .give (.started (.error (.build error))), .await k :: rest⟩ := by
      simp only [Program.step, Program.call, Config.start, Config.push, valid]
      rfl
    have nobody : w.current? w.nextMachine = none := by
      rw [World.current?, World.machine?_nextMachine]
      rfl
    exact ⟨w, h, _, .refl w, rfl, .refl h, ⟨⟨_, rfl⟩, nobody⟩,
      fun k rest => .head rfl (refused k rest) (.single rfl rfl)⟩
  | ok =>
    obtain ⟨r, done, _⟩ := yields.collect habits.settings.delegationLimit initial
    rw [done]
    cases r with
    | error error =>
      obtain ⟨w', aside, streams, nobody, leads⟩ := Program.Leads.start_of_fails (h := h) valid done
        (.refl _) fun rest => .single rfl rfl
      exact ⟨w', h, _, aside, streams, .refl h, ⟨⟨_, rfl⟩, nobody⟩, leads⟩
    | ok x =>
      let h₁ := p.subscriber (.collected x.name x.directives.length) h
      have writes₁ : Writes own i (own i h) h h₁ := mute.writes _ h
      have found : (w.bear habits.settings).machine? w.nextMachine =
          some (w.newborn habits.settings) := World.machine?_bear.trans (if_pos rfl)
      obtain ⟨w₁, h₂, stirs, entered⟩ := Program.Leads.activate (p := p) (h := h₁) (i := i) found
        plain fun a mem => suits.performs (first x done) mem
      rw [writes₁.mine] at entered
      have collects (rest : List (Frame H)) :
          p.step ⟨w.bear habits.settings, h, .gather (.done (.ok x)),
              .collecting (.initial w.nextMachine) :: rest⟩ =
            some (Config.activate w.nextMachine x .initial
              ⟨w.bear habits.settings, h₁, .gather (.done (.ok x)), rest⟩) := rfl
      dsimp only
      rcases entered with ⟨ends, writes, a, rfl, routes, live, tears, r, leads⟩ |
        ⟨e, ends, writes, leads⟩
      · rw [ends]
        have found₁ : w₁.machine? w.nextSeat.machine = some (w.newborn habits.settings) :=
          (stirs.machine? _).trans found
        obtain ⟨w', h', cell, aside, streams, writes', begins, installs⟩ := Program.Leads.handOver
          (p := p) found₁ mute (first _ done) routes live tears writes.mine r
        have aside₁ : w.Aside w.nextSeat w₁ := .trans .bear (.of_stirs stirs)
        refine ⟨w', h', _, aside₁.trans aside, streams.trans stirs.streams,
          (writes₁.trans writes).trans writes', ⟨rfl, cell, begins⟩, fun k rest => ?_⟩
        refine .head rfl (Program.step_start rfl valid) ?_
        rw [done]
        exact .head rfl (collects _) ((leads _ _ _).trans
          ((installs _).trans (.single rfl rfl)))
      · rw [ends]
        obtain ⟨w', aside, streams, nobody, leads⟩ := Program.Leads.start_of_fails (h := h) valid
          done stirs fun rest => .head rfl (collects rest)
            ((leads _ _ _).trans (.single rfl rfl))
        exact ⟨w', h₂, _, aside, streams, writes₁.trans writes, ⟨⟨_, rfl⟩, nobody⟩, leads⟩

end Starting

/-! ## Observing a machine -/

section Observing

variable {w : World H} {h : H} {habits : Habits H D} {s : Solo H D} {cell : MachineCell H}
  {token : ScopeId} {o : Observer H}

/-- Register an observer with a machine. -/
def MachineCell.addObserver (token : ScopeId) (o : Observer H) (cell : MachineCell H) :
    MachineCell H :=
  { cell with observers := cell.observers.add Change.topic token o }

namespace World

/-- An observer of a machine that is there hangs off a scope that is not released. -/
theorem addObserver_eq (found : w.machine? m = some cell)
    (live : w.header? token = some (false, none)) :
    w.addObserver m token o =
      (w.modifyMachine m (MachineCell.addObserver token o)).addTeardown token
        (.unobserve m cell.observers.nextNumber) := by
  have open_ : w.isCancelled token = false := isCancelled_eq_false_iff.2 ⟨_, live⟩
  simp only [addObserver, found, open_]
  rfl

theorem machine?_addObserver (found : w.machine? m = some cell)
    (live : w.header? token = some (false, none)) :
    (w.addObserver m token o).machine? m = some (cell.addObserver token o) := by
  rw [addObserver_eq found live]
  exact machine?_modifyMachine_self found

theorem streams_addObserver (found : w.machine? m = some cell)
    (live : w.header? token = some (false, none)) :
    (w.addObserver m token o).streams = w.streams := by
  rw [addObserver_eq found live]
  rfl

/-- A teardown that hangs off a scope of the host is none of a machine's. -/
theorem scope?_addTeardown_host {t : Teardown H} {s : ScopeId} {c : ScopeCell H} {n : MachineId}
    (live : w.header? token = some (false, none)) (known : w.scope? s = some c)
    (owner : c.owner = some n) : (w.addTeardown token t).scope? s = some c := by
  rw [addTeardown, scope?_modifyScope, if_neg, known]
  rintro rfl
  rw [header?, known] at live
  cases owner.symm.trans (congrArg Prod.snd (Option.some.inj live))

theorem Aside.addTeardown {seat : Seat} {t : Teardown H}
    (live : w.header? token = some (false, none)) : w.Aside seat (w.addTeardown token t) where
  machine? _ _ := rfl
  stream _ _ := rfl
  scope? known owner _ := scope?_addTeardown_host live known owner
  host known := header?_addTeardown.trans known
  kind _ := rfl
  entry := .inl

/-- To observe a machine leaves the others alone. -/
theorem Aside.addObserver {seat : Seat} (found : w.machine? seat.machine = some cell)
    (live : w.header? token = some (false, none)) :
    w.Aside seat (w.addObserver seat.machine token o) := by
  rw [addObserver_eq found live]
  exact .trans .modifyMachine (.addTeardown live)

theorem isHeld_of_found (found : w.machine? m = some cell) (held : 0 < cell.handles) :
    w.isHeld m = true := by
  rw [isHeld, found]
  exact decide_eq_true held

end World

/-- An activation is where it was while observers are registered. -/
theorem Tears.addObserver {s : ScopeId} {n : MachineId} {fs : List (D → D)}
    (found : w.machine? m = some cell) (live : w.header? token = some (false, none))
    (known : w.header? s = some (false, some n)) (tears : Tears own i (w.teardowns s) fs) :
    (w.addObserver m token o).header? s = some (false, some n) ∧
      Tears own i ((w.addObserver m token o).teardowns s) fs := by
  obtain ⟨c, there, header⟩ := Option.map_eq_some_iff.1 known
  have same : (w.addObserver m token o).scope? s = some c := by
    rw [World.addObserver_eq found live]
    exact World.scope?_addTeardown_host live there (congrArg Prod.snd header)
  refine ⟨by rw [World.header?, same, Option.map_some, header], ?_⟩
  rw [World.teardowns_eq, same, ← there]
  exact tears

/-- The host makes a scope of its own. -/
theorem World.Begins.addScope (begins : w.Begins own i habits m s cell) :
    (w.addScope none none).2.Begins own i habits m s cell :=
  { begins with
    found := World.machine?_addScope.trans begins.found
    current := fun current => by
      obtain ⟨routes, live, tears⟩ := begins.current current
      refine ⟨routes, ?_, World.teardowns_addScope (w := w) ▸ tears⟩
      rw [World.header?_addScope, if_neg, live]
      intro same
      rw [same, World.header?_size] at live
      cases live }

/-- The stream of its changes is the first observer of a machine. -/
theorem World.Begins.leads_stream (begins : w.Begins own i habits m s cell)
    (live : w.header? token = some (false, none)) :
    let seat : Seat := ⟨m, ⟨w.streams.size⟩⟩
    ∃ w', w'.Seats own i { habits with notices := [] } seat s ∧ w.Aside seat w' ∧
      w'.header? token = some (false, none) ∧
      ∀ k rest, p.Leads ⟨w, h, .run (.call (.stream m token) k), rest⟩
        ⟨w', h, .run (k (.stream seat.stream)), rest⟩ := by
  intro seat
  let w₁ : World H := { w with streams := w.streams.push [] }
  let w' := w₁.addObserver m token (.stream seat.stream)
  have opened : w.Aside seat w₁ := by
    refine ⟨fun _ _ => rfl, fun f other => ?_, fun known _ _ => known, id, fun _ => rfl, .inl⟩
    have apart : f.index ≠ w.streams.size := fun same => other (congrArg StreamId.mk same)
    show (w.streams.push [])[f.index]? = _
    rw [Array.getElem?_push, if_neg apart]
  have observed : w₁.Aside seat w' := .addObserver begins.found live
  have called (k : Answer → Script H) (rest : List (Frame H)) :
      p.step ⟨w, h, .run (.call (.stream m token) k), rest⟩ =
        some ⟨w', h, .give (.stream seat.stream), .await k :: rest⟩ := by
    have held := World.isHeld_of_found begins.found begins.held
    simp only [Program.step, Program.call, Config.push, held, if_true]
    rfl
  have entries : (cell.addObserver token (.stream seat.stream)).observers.entries =
      [⟨cell.observers.nextNumber, Change.topic, token, .stream seat.stream⟩] := by
    rw [MachineCell.addObserver, begins.unobserved]
    rfl
  have plays : w'.Plays own i { habits with notices := [] } seat s
      (cell.addObserver token (.stream seat.stream)) :=
    { found := World.machine?_addObserver (w := w₁) begins.found live
      facts := begins.facts
      settings := begins.settings
      states := begins.states
      audience := ⟨_, [], entries, rfl, .nil⟩
      lasting := by
        intro r mem
        rw [entries] at mem
        rw [List.mem_singleton.1 mem]
        exact ⟨rfl, observed.host live⟩
      stream := by
        rw [World.streams_addObserver (w := w₁) begins.found live, begins.untold]
        exact congrArg (Option.map _) Array.getElem?_push_size
      current := by
        intro a current
        obtain ⟨routes, open_, tears⟩ := begins.current current
        exact ⟨routes, Tears.addObserver (w := w₁) begins.found live open_ tears⟩ }
  exact ⟨w', ⟨_, plays, begins.idle, begins.held⟩, opened.trans observed, observed.host live,
    fun k rest => .head rfl (called k rest) (.single rfl rfl)⟩

/-- One more observer is registered with a machine. -/
theorem World.Seats.leads_observe {seat : Seat} {notices : List (Change → D → D)}
    {notice : Change → D → D} {f : Change → Script H}
    (fits : w.Seats own i { habits with notices := notices } seat s)
    (heeds : ∀ change, ∃ u, (f change).Performs own i none u ∧
      ∀ d, (u d).data = notice change.anonymous d)
    (live : w.header? token = some (false, none)) :
    ∃ w', w'.Seats own i { habits with notices := notices ++ [notice] } seat s ∧ w.Aside seat w' ∧
      ∀ k rest, p.Leads ⟨w, h, .run (.call (.observe seat.machine f token) k), rest⟩
        ⟨w', h, .run (k .unit), rest⟩ := by
  obtain ⟨cell, plays, idle, held⟩ := fits
  let w' := w.addObserver seat.machine token (.script f)
  have observed : w.Aside seat w' := .addObserver plays.found live
  have called (k : Answer → Script H) (rest : List (Frame H)) :
      p.step ⟨w, h, .run (.call (.observe seat.machine f token) k), rest⟩ =
        some ⟨w', h, .give .unit, .await k :: rest⟩ := by
    have held := World.isHeld_of_found plays.found held
    simp only [Program.step, Program.call, Config.push, held, if_true]
    rfl
  obtain ⟨first, others, entries, listener, heed⟩ := plays.audience
  let last : Registration (Observer H) :=
    ⟨cell.observers.nextNumber, Change.topic, token, .script f⟩
  have entries' : (cell.addObserver token (.script f)).observers.entries =
      first :: (others ++ [last]) := by
    show cell.observers.entries ++ [last] = _
    rw [entries, List.cons_append]
  have plays' : w'.Plays own i { habits with notices := notices ++ [notice] } seat s
      (cell.addObserver token (.script f)) :=
    { found := World.machine?_addObserver plays.found live
      facts := plays.facts
      settings := plays.settings
      states := plays.states
      audience := ⟨first, others ++ [last], entries', listener,
        List.rel_append heed (.cons ⟨f, rfl, heeds⟩ .nil)⟩
      lasting := by
        intro r mem
        rcases List.mem_append.1 mem with old | new
        · obtain ⟨topic, open_⟩ := plays.lasting old
          exact ⟨topic, observed.host open_⟩
        · rw [List.mem_singleton.1 new]
          exact ⟨rfl, observed.host live⟩
      stream := by
        rw [World.streams_addObserver plays.found live, plays.stream]
      current := by
        intro a current
        obtain ⟨routes, open_, tears⟩ := plays.current current
        exact ⟨routes, Tears.addObserver plays.found live open_ tears⟩ }
  exact ⟨w', ⟨_, plays', idle, held⟩, observed,
    fun k rest => .head rfl (called k rest) (.single rfl rfl)⟩

end Observing

/-! ## Joining the others -/

namespace Ensemble

variable {habits : ι → Habits H D} {seats : ι → Option Seat} {standing : ι → Standing H D}
  {w w' : World H} {h h' : H}

/-- The place of the next machine is nobody's. -/
theorem ne_nextSeat (ensemble : Ensemble own habits seats standing w h) {seat : Seat}
    (found : seats i = some seat) :
    seat.machine ≠ w.nextSeat.machine ∧ seat.stream ≠ w.nextSeat.stream := by
  obtain ⟨s, _, cell, plays, _⟩ := ensemble.on found
  constructor
  · intro same
    have size : w.machines[w.machines.size]? = some cell := by
      have found := plays.found
      rwa [same] at found
    rw [Array.getElem?_size] at size
    cases size
  · intro same
    have size : (w.streams[w.streams.size]?).map (List.map Change.anonymous) = some s.told := by
      have stream := plays.stream
      rwa [same] at stream
    rw [Array.getElem?_size] at size
    cases size

variable [DecidableEq ι]

/-- A member that has no machine did something to its data. -/
theorem fail {d : D} (ensemble : Ensemble own habits seats standing w h) (free : seats i = none)
    (aside : w.Aside w.nextSeat w') (writes : Writes own i d h h')
    (nobody : w'.current? w.nextSeat.machine = none) :
    Ensemble own habits seats (Function.update standing i (.out d)) w' h' where
  data := writes.update ensemble.data
  out {j} none := by
    by_cases same : j = i
    · subst same
      exact ⟨d, Function.update_self ..⟩
    · rw [Function.update_of_ne same]
      exact ensemble.out none
  on {j seat} found := by
    have other : j ≠ i := by
      rintro rfl
      rw [free] at found
      cases found
    obtain ⟨s, stands, waits⟩ := ensemble.on found
    obtain ⟨machine, stream⟩ := ensemble.ne_nextSeat found
    rw [Function.update_of_ne other]
    exact ⟨s, stands, waits.aside aside machine stream⟩
  apart := ensemble.apart
  strangers {n} stranger := by
    by_cases new : n = w.nextSeat.machine
    · rw [new]
      exact nobody
    · rw [World.current?, aside.machine? n new]
      exact ensemble.strangers stranger
  plain slot := aside.isPlain (ensemble.plain slot)
  routes := ensemble.routes_aside aside

/-- A member that had no machine has one. -/
theorem join {s : Solo H D} (ensemble : Ensemble own habits seats standing w h)
    (free : seats i = none) (aside : w.Aside w.nextSeat w') (writes : Writes own i s.data h h')
    (fits : w'.Seats own i (habits i) w.nextSeat s) :
    Ensemble own habits (Function.update seats i (some w.nextSeat))
      (Function.update standing i (.on s)) w' h' where
  data := writes.update ensemble.data
  out {j} none := by
    have other : j ≠ i := by
      rintro rfl
      rw [Function.update_self] at none
      cases none
    rw [Function.update_of_ne other] at none ⊢
    exact ensemble.out none
  on {j seat} found := by
    by_cases same : j = i
    · subst same
      rw [Function.update_self] at found
      cases found
      exact ⟨s, Function.update_self .., fits⟩
    · rw [Function.update_of_ne same] at found ⊢
      obtain ⟨t, stands, waits⟩ := ensemble.on found
      obtain ⟨machine, stream⟩ := ensemble.ne_nextSeat found
      exact ⟨t, stands, waits.aside aside machine stream⟩
  apart {j k x y} ne hj hk := by
    by_cases first : j = i
    · subst first
      rw [Function.update_self] at hj
      rw [Function.update_of_ne ne.symm] at hk
      cases hj
      obtain ⟨machine, stream⟩ := ensemble.ne_nextSeat hk
      exact ⟨machine.symm, stream.symm⟩
    · rw [Function.update_of_ne first] at hj
      by_cases second : k = i
      · subst second
        rw [Function.update_self] at hk
        cases hk
        exact ensemble.ne_nextSeat hj
      · rw [Function.update_of_ne second] at hk
        exact ensemble.apart ne hj hk
  strangers {n} stranger := by
    have new : w.nextSeat.machine ≠ n := stranger i _ (Function.update_self ..)
    rw [World.current?, aside.machine? n new.symm]
    refine ensemble.strangers fun j seat found => stranger j seat ?_
    have other : j ≠ i := by
      rintro rfl
      rw [free] at found
      cases found
    rw [Function.update_of_ne other, found]
  plain slot := aside.isPlain (ensemble.plain slot)
  routes := ensemble.routes_aside aside

end Ensemble

end ScopedMachine

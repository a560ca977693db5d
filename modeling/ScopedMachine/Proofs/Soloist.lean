import ScopedMachine.Proofs.Beneath
import ScopedMachine.Proofs.Ideal
import ScopedMachine.Proofs.Privacy

/-!
# A machine that keeps to itself

`Solo` is what there is to know of a machine that only hears events and whose code is private, and
`Solo.react` is what it does when it hears one. Both look at nothing but the machine's definitions
and the data of the member that it belongs to. `World.Plays` says that a machine of a world is the
one that a `Solo` describes, and it stays so when the machine hears an event; meanwhile nothing
happens that is not the machine's.
-/

namespace ScopedMachine

variable {H D ι : Type} {p : Program H} {own : ι → H → D} {i : ι} {m : MachineId}

/-! ## What is to be seen of a machine -/

/-- What there is to be seen of a machine, apart from its identity and from points in time. -/
structure Facts (H : Type) where
  settings : Settings
  status : Status
  state : String
  aliases : List String
  terminal : Bool
  accumulator : Option Value
  transitions : Nat
  /-- The states that each recorded transition led from and to, and its event. -/
  history : List (String × String × Option String)
  /-- The current activation. -/
  current : Option (Collected (Entry H))

/-- A recorded transition without its time. -/
def Transition.legs (t : Transition) : String × String × Option String :=
  (t.source, t.target, t.event)

/-- A change without the identity of the machine. -/
def Change.anonymous (c : Change) : Change := { c with machine := Uuid.ofNat 0 }

/-- What there is to be seen of a machine. -/
def MachineCell.facts (cell : MachineCell H) : Facts H where
  settings := cell.settings
  status := cell.status
  state := cell.state
  aliases := cell.aliases
  terminal := cell.terminal
  accumulator := cell.accumulator
  transitions := cell.sequence
  history := cell.history.transitions.map Transition.legs
  current := cell.current.map Activation.collected

namespace Facts

/-- A state is entered because of an event. -/
def commit (x : Collected (Entry H)) (event : String) (f : Facts H) : Facts H where
  settings := f.settings
  status := f.status
  state := x.name
  aliases := x.aliases
  terminal := x.isTerminal
  accumulator := x.accumulator
  transitions := f.transitions + 1
  history :=
    if f.settings.recordHistory then f.history ++ [(f.state, x.name, some event)] else f.history
  current := some x

/-- The machine is stopped. -/
def stop (f : Facts H) : Facts H := { f with status := .stopped, current := none }

/-- What observers are told of the transition that led from `previous` to the current state. -/
def change (previous event : String) (f : Facts H) : Change where
  machine := Uuid.ofNat 0
  sequence := f.transitions
  previous := previous
  state := f.state
  aliases := f.aliases
  event := some event
  accumulator := f.accumulator

/-- The target of an event. -/
def target? (source : SourceId) (type : String) (f : Facts H) : Option Definition :=
  if f.status = .running ∧ f.terminal = false then
    f.current.bind fun x => ((RouteTable.build x.directives).resolve source type).target?
  else none

end Facts

theorem MachineCell.facts_commit {a : Activation H} {event : String} {time : Moment}
    {cell : MachineCell H} :
    (cell.commit a event time).facts = cell.facts.commit a.collected event := by
  unfold MachineCell.facts MachineCell.commit MachineCell.install Facts.commit
  cases cell.settings.recordHistory with
  | true => simp [History.record, Transition.legs]
  | false => rfl

/-! ## A machine on its own -/

/-- What a member is: how its machine is set up, the states that the machine can be in, what their
entry actions come to, and what the observers do with the data. -/
structure Habits (H D : Type) where
  settings : Settings
  states : Collected (Entry H) → Prop
  act : Entry H → D → Upshot D
  notices : List (Change → D → D)

/-- What there is to know of a machine that keeps to itself. -/
structure Solo (H D : Type) where
  facts : Facts H
  /-- What the release of the current activation will do to the data. -/
  teardowns : List (D → D)
  /-- The changes that the machine made. -/
  told : List Change
  data : D

namespace Solo

variable (p) (habits : Habits H D)

/-- Enter the current state again with these data, or else stop. -/
def fallBack (data : D) (s : Solo H D) : Solo H D :=
  let actions := (s.facts.current.map Collected.actions).getD []
  let u := Upshot.all (actions.map habits.act) data
  match u.result with
  | .ok () => { s with teardowns := u.teardowns, data := u.data }
  | .error _ => { s with facts := s.facts.stop, teardowns := [], data := u.undone }

/-- Leave the current state and enter another one, which may fail. -/
def move (x : Collected (Entry H)) (event : String) (s : Solo H D) : Solo H D :=
  let u := Upshot.all (x.actions.map habits.act) (tearDown s.teardowns s.data)
  match u.result with
  | .ok () =>
    let facts := s.facts.commit x event
    let change := facts.change s.facts.state event
    { facts
      teardowns := u.teardowns
      told := s.told ++ [change]
      data := habits.notices.foldl (fun d notice => notice change d) u.data }
  | .error _ => s.fallBack habits u.undone

/-- The state that an event leads to, if it leads anywhere. -/
def next? (source : SourceId) (type : String) (s : Solo H D) : Option (Collected (Entry H)) :=
  (s.facts.target? source type).bind fun target =>
    match p.collect habits.settings.delegationLimit target with
    | .done (.ok x) => some x
    | _ => none

/-- Hear an event. -/
def react (source : SourceId) (e : Event) (s : Solo H D) : Solo H D :=
  match s.next? p habits source e.kind with
  | some x => s.move habits x e.kind
  | none => s

end Solo

/-! ## A machine of a world -/

/-- The places of a machine and of the stream of its changes. -/
structure Seat where
  machine : MachineId
  stream : StreamId

/-- Nothing happened but to one machine, its scopes, its listeners and its stream. -/
structure World.Aside (seat : Seat) (w w' : World H) : Prop where
  machine? (n : MachineId) (other : n ≠ seat.machine) : w'.machine? n = w.machine? n
  stream (f : StreamId) (other : f ≠ seat.stream) : w'.streams[f.index]? = w.streams[f.index]?
  scope? {s : ScopeId} {cell : ScopeCell H} {n : MachineId} (known : w.scope? s = some cell)
    (owner : cell.owner = some n) (other : n ≠ seat.machine) : w'.scope? s = some cell
  /-- The host's own scopes are not released. -/
  host {s : ScopeId} {b : Bool} (known : w.header? s = some (b, none)) :
    w'.header? s = some (b, none)
  kind (slot : Nat) : (w'.source? slot).map SourceCell.kind = (w.source? slot).map SourceCell.kind
  entry {slot : Nat} {r : Registration (Listener H)} (mem : r ∈ w'.entries slot) :
    r ∈ w.entries slot ∨ ∃ source, r.listener = .route seat.machine source

namespace World.Aside

variable {seat : Seat} {w w' w'' : World H}

theorem refl (w : World H) : w.Aside seat w :=
  ⟨fun _ _ => rfl, fun _ _ => rfl, fun known _ _ => known, id, fun _ => rfl, .inl⟩

theorem trans (first : w.Aside seat w') (next : w'.Aside seat w'') : w.Aside seat w'' where
  machine? n other := (next.machine? n other).trans (first.machine? n other)
  stream f other := (next.stream f other).trans (first.stream f other)
  scope? known owner other := next.scope? (first.scope? known owner other) owner other
  host known := next.host (first.host known)
  kind slot := (next.kind slot).trans (first.kind slot)
  entry mem := (next.entry mem).elim first.entry .inr

theorem of_stirs (stirs : w.Stirs seat.machine w') : w.Aside seat w' where
  machine? n _ := stirs.machine? n
  stream f _ := by rw [stirs.streams]
  scope? {s cell n} known owner other := stirs.scope? known fun mine =>
    other (Option.some.inj (owner.symm.trans mine))
  host {s b} known := by
    obtain ⟨cell, found, header⟩ := Option.map_eq_some_iff.1 known
    have foreign : cell.owner ≠ some seat.machine := by
      rw [show cell.owner = none from congrArg Prod.snd header]
      nofun
    rw [World.header?, stirs.scope? found foreign, Option.map_some, header]
  kind := stirs.kind
  entry := stirs.entry

/-- The machine itself changes. -/
theorem modifyMachine {f : MachineCell H → MachineCell H} :
    w.Aside seat (w.modifyMachine seat.machine f) where
  machine? n other := by rw [World.machine?_modifyMachine, if_neg other]
  stream _ _ := rfl
  scope? known _ _ := known
  host := id
  kind _ := rfl
  entry := .inl

theorem isPlain (aside : w.Aside seat w') {slot : Nat} (plain : w.IsPlain slot) :
    w'.IsPlain slot := by
  intro f
  rw [aside.kind]
  exact plain f

/-- The scope of another machine is untouched. -/
theorem header? (aside : w.Aside seat w') {s : ScopeId} {b : Bool} {n : MachineId}
    (known : w.header? s = some (b, some n)) (other : n ≠ seat.machine) :
    w'.header? s = some (b, some n) ∧ w'.teardowns s = w.teardowns s := by
  obtain ⟨cell, found, header⟩ := Option.map_eq_some_iff.1 known
  have same := aside.scope? found (congrArg Prod.snd header) other
  exact ⟨by rw [World.header?, same, Option.map_some, header], by
    rw [World.teardowns_eq, World.teardowns_eq, same, found]⟩

end World.Aside

/-- An observer does this to the data when it is told of a change. -/
def Heeds (own : ι → H → D) (i : ι) (r : Registration (Observer H)) (notice : Change → D → D) :
    Prop :=
  ∃ o, r.listener = .script o ∧ ∀ change, ∃ u, (o change).Performs own i none u ∧
    ∀ d, (u d).data = notice change.anonymous d

/-- The first observer of a machine is its stream, and the others do this to the data. -/
def Registry.IsAudience (own : ι → H → D) (i : ι) (f : StreamId)
    (notices : List (Change → D → D)) (r : Registry (Observer H)) : Prop :=
  ∃ first others, r.entries = first :: others ∧ first.listener = .stream f ∧
    List.Forall₂ (Heeds own i) others notices

/-- A machine is the one that a description fits. -/
structure World.Plays (own : ι → H → D) (i : ι) (habits : Habits H D) (seat : Seat) (s : Solo H D)
    (cell : MachineCell H) (w : World H) : Prop where
  found : w.machine? seat.machine = some cell
  facts : cell.facts = s.facts
  settings : s.facts.settings = habits.settings
  states {x : Collected (Entry H)} (current : s.facts.current = some x) : habits.states x
  audience : cell.observers.IsAudience own i seat.stream habits.notices
  /-- The observers are there to stay. -/
  lasting {r : Registration (Observer H)} (mem : r ∈ cell.observers.entries) :
    r.topic = Change.topic ∧ w.header? r.token = some (false, none)
  stream : (w.streams[seat.stream.index]?).map (List.map Change.anonymous) = some s.told
  current {a : Activation H} (current : cell.current = some a) :
    a.routes = .build a.collected.directives ∧
      w.header? a.scope = some (false, some seat.machine) ∧
      Tears own i (w.teardowns a.scope) s.teardowns

/-- The entry actions of the states do what the habits say, and the states lead to one another. -/
structure Habits.Suits (p : Program H) (own : ι → H → D) (i : ι) (habits : Habits H D) : Prop where
  performs {x : Collected (Entry H)} (state : habits.states x) {a : Entry H} (mem : a ∈ x.actions)
    (token : ScopeId) : (a token).Performs own i (some token) (habits.act a)
  leads {x y : Collected (Entry H)} (state : habits.states x) {type : String} {d : Definition}
    (mem : .moveTo type d ∈ x.directives)
    (collects : p.collect habits.settings.delegationLimit d = .done (.ok y)) : habits.states y

namespace World.Plays

variable {w w' : World H} {habits : Habits H D} {seat : Seat} {s : Solo H D} {cell : MachineCell H}

/-- What another machine does is nothing to this one. -/
theorem aside {other : Seat} (plays : w.Plays own i habits seat s cell) (aside : w.Aside other w')
    (machine : seat.machine ≠ other.machine) (stream : seat.stream ≠ other.stream) :
    w'.Plays own i habits seat s cell where
  found := (aside.machine? _ machine).trans plays.found
  facts := plays.facts
  settings := plays.settings
  states := plays.states
  audience := plays.audience
  lasting mem := by
    obtain ⟨topic, live⟩ := plays.lasting mem
    exact ⟨topic, aside.host live⟩
  stream := by rw [aside.stream _ stream, plays.stream]
  current current := by
    obtain ⟨routes, live, tears⟩ := plays.current current
    obtain ⟨live', same⟩ := aside.header? live machine
    exact ⟨routes, live', same ▸ tears⟩

/-- Handles and the inbox do not matter. -/
theorem edit (plays : w.Plays own i habits seat s cell) {f : MachineCell H → MachineCell H}
    (facts : (f cell).facts = cell.facts) (observers : (f cell).observers = cell.observers)
    (current : (f cell).current = cell.current) :
    (w.modifyMachine seat.machine f).Plays own i habits seat s (f cell) where
  found := World.machine?_modifyMachine_self plays.found
  facts := facts.trans plays.facts
  settings := plays.settings
  states := plays.states
  audience := observers ▸ plays.audience
  lasting mem := plays.lasting (observers ▸ mem)
  stream := plays.stream
  current := by
    rw [current]
    exact plays.current

/-- The target of an event is the one that the description says. -/
theorem target? (plays : w.Plays own i habits seat s cell) (source : SourceId) (type : String) :
    cell.target? source type = s.facts.target? source type := by
  rw [← plays.facts]
  unfold MachineCell.target? Facts.target?
  show (if cell.status = .running ∧ cell.terminal = false then _ else none) =
    if cell.status = .running ∧ cell.terminal = false then _ else none
  refine if_congr Iff.rfl ?_ rfl
  show _ = (cell.current.map Activation.collected).bind _
  cases current : cell.current with
  | none => rfl
  | some a =>
    obtain ⟨routes, _⟩ := plays.current current
    show (a.routes.resolve source type).target? = _
    rw [routes]
    rfl

/-- A machine that changed fits another description. -/
theorem renew {t : Solo H D} {cell' : MachineCell H} (plays : w.Plays own i habits seat s cell)
    (aside : w.Aside seat w') (found : w'.machine? seat.machine = some cell')
    (observers : cell'.observers = cell.observers) (facts : cell'.facts = t.facts)
    (settings : cell'.settings = cell.settings)
    (states : ∀ x, t.facts.current = some x → habits.states x)
    (stream : (w'.streams[seat.stream.index]?).map (List.map Change.anonymous) = some t.told)
    (current : ∀ a, cell'.current = some a → a.routes = .build a.collected.directives ∧
      w'.header? a.scope = some (false, some seat.machine) ∧
      Tears own i (w'.teardowns a.scope) t.teardowns) :
    w'.Plays own i habits seat t cell' where
  found := found
  facts := facts
  settings := by
    rw [← plays.settings, ← facts, ← plays.facts]
    exact settings
  states current := states _ current
  audience := observers ▸ plays.audience
  lasting mem := by
    obtain ⟨topic, live⟩ := plays.lasting (observers ▸ mem)
    exact ⟨topic, aside.host live⟩
  stream := stream
  current current' := current _ current'

end World.Plays

/-! ## Telling the observers -/

/-- Tell a stream of a change. -/
def World.tell (f : StreamId) (change : Change) (w : World H) : World H :=
  { w with streams := w.streams.modify f.index (· ++ [change]) }

theorem World.Aside.tell {seat : Seat} {w : World H} {change : Change} :
    w.Aside seat (w.tell seat.stream change) where
  machine? _ _ := rfl
  stream f other := by
    have apart : seat.stream.index ≠ f.index := fun same =>
      other (congrArg StreamId.mk same.symm)
    exact (Array.getElem?_modify ..).trans (if_neg apart)
  scope? known _ _ := known
  host := id
  kind _ := rfl
  entry := .inl

section Telling

variable {w : World H} {h : H}

/-- How the last observer took a change is no matter to the next one. -/
theorem Program.IsMute.publishing (mute : p.IsMute own) (change : Change) (r : Except Fault Unit)
    (os : List (Registration (Observer H))) :
    ∃ h', Writes own i (own i h) h h' ∧ ∀ rest,
      p.step ⟨w, h, .give (.result r), .publishing m change os :: rest⟩ =
        some (Config.publishNext m change os ⟨w, h', .give (.result r), rest⟩) := by
  cases r with
  | ok => exact ⟨h, .refl h, fun _ => rfl⟩
  | error e => exact ⟨_, mute.writes _ h, fun _ => rfl⟩

/-- Observers whose code is private are told of a change one after the other. -/
theorem Program.Leads.publishing {os : List (Registration (Observer H))}
    {notices : List (Change → D → D)} (mute : p.IsMute own) (change : Change)
    (heeds : List.Forall₂ (Heeds own i) os notices)
    (live : ∀ r ∈ os, w.isCancelled r.token = false) (r : Except Fault Unit) :
    ∃ h', Writes own i (notices.foldl (fun d notice => notice change.anonymous d) (own i h)) h h' ∧
      ∀ rest, p.Leads ⟨w, h, .give (.result r), .publishing m change os :: rest⟩
        ⟨w, h', .give (.delivered (.ok (.transitioned change.previous change.state))), rest⟩ := by
  induction heeds generalizing h r with
  | nil =>
    obtain ⟨h', writes, goes⟩ := mute.publishing (w := w) (h := h) (i := i) change r []
    exact ⟨h', writes, fun rest => .single rfl (goes rest)⟩
  | @cons o notice os notices heed _ ih =>
    obtain ⟨f, listener, does⟩ := heed
    obtain ⟨open_, live⟩ := List.forall_mem_cons.1 live
    obtain ⟨h₁, writes₁, goes⟩ :=
      mute.publishing (w := w) (h := h) (i := i) (m := m) change r (o :: os)
    obtain ⟨u, performs, data⟩ := does change
    obtain ⟨_, h₂, _, writes₂, runs⟩ := performs.leads (p := p) (w := w) (h := h₁)
      fun _ mem => by cases mem
    rw [data, writes₁.mine] at writes₂
    obtain ⟨h', writes', leads⟩ := ih (h := h₂) live (u (own i h₁)).result
    rw [writes₂.mine] at writes'
    refine ⟨h', (writes₁.trans writes₂).trans writes', fun rest => ?_⟩
    have tells : Config.publishNext m change (o :: os) ⟨w, h₁, .give (.result r), rest⟩ =
        ⟨w, h₁, .run (f change), .publishing m change os :: rest⟩ := by
      simp only [Config.publishNext, Config.push, open_, listener]
      rfl
    exact .head rfl ((goes rest).trans (congrArg some tells)) ((runs _).trans (leads rest))

/-- The stream is told of a change first, and then the observers. -/
theorem Program.Leads.telling {f : StreamId} {notices : List (Change → D → D)}
    {registry : Registry (Observer H)} (mute : p.IsMute own) (change : Change)
    (audience : registry.IsAudience own i f notices)
    (live : ∀ r ∈ registry.entries, w.isCancelled r.token = false) :
    ∃ h', Writes own i (notices.foldl (fun d notice => notice change.anonymous d) (own i h)) h h' ∧
      ∀ rest,
        p.Leads ⟨w, h, .give (.result (.ok ())), .publishing m change registry.entries :: rest⟩
          ⟨w.tell f change, h',
            .give (.delivered (.ok (.transitioned change.previous change.state))), rest⟩ := by
  obtain ⟨first, others, entries, listener, heeds⟩ := audience
  rw [entries] at live ⊢
  obtain ⟨open_, live⟩ := List.forall_mem_cons.1 live
  obtain ⟨h', writes, tells⟩ := Program.Leads.publishing (p := p) (m := m)
    (w := w.tell f change) (h := h) mute change heeds live (.ok ())
  have streams (rest : List (Frame H)) :
      p.step ⟨w, h, .give (.result (.ok ())), .publishing m change (first :: others) :: rest⟩ =
        some ⟨w.tell f change, h, .give (.result (.ok ())),
          .publishing m change others :: rest⟩ := by
    simp only [Program.step, Program.resume, Config.publishNext, Config.push, open_, listener]
    rfl
  exact ⟨h', writes, fun rest => .head rfl (streams rest) (tells rest)⟩

end Telling

namespace World.Plays

variable {w w' : World H} {habits : Habits H D} {seat : Seat} {s : Solo H D} {cell : MachineCell H}

/-- All observers are told of a change. -/
theorem matching (plays : w.Plays own i habits seat s cell) :
    cell.observers.matching Change.topic = cell.observers.entries :=
  List.filter_eq_self.2 fun _ mem => beq_iff_eq.2 (plays.lasting mem).1

/-- A change that is told is the last one on the stream. -/
theorem stream_tell (plays : w.Plays own i habits seat s cell) (same : w'.streams = w.streams)
    (change : Change) :
    ((w'.tell seat.stream change).streams[seat.stream.index]?).map (List.map Change.anonymous) =
      some (s.told ++ [change.anonymous]) := by
  obtain ⟨told, there, anonymous⟩ := Option.map_eq_some_iff.1 plays.stream
  show ((w'.streams.modify seat.stream.index (· ++ [change]))[seat.stream.index]?).map _ = _
  rw [Array.getElem?_modify, if_pos rfl, same, there, Option.map_some, Option.map_some,
    List.map_append, anonymous, List.map_singleton]

end World.Plays

/-! ## Transitions -/

/-- A machine came to fit a description, and nothing else happened. -/
structure Passage (own : ι → H → D) (i : ι) (habits : Habits H D) (seat : Seat) (w : World H)
    (h : H) (cell : MachineCell H) (w' : World H) (h' : H) (s' : Solo H D) : Prop where
  plays : ∃ cell', w'.Plays own i habits seat s' cell' ∧ cell'.inbox = cell.inbox ∧
    cell'.handles = cell.handles
  writes : Writes own i s'.data h h'
  aside : w.Aside seat w'
  released {t : ScopeId} {owner : Option MachineId} (known : w.header? t = some (true, owner)) :
    w'.header? t = some (true, owner)

section Transitions

variable {w w₀ : World H} {h h₀ : H} {habits : Habits H D} {seat : Seat} {s : Solo H D}
  {cell : MachineCell H} {x : Collected (Entry H)} {a : Activation H} {u : Upshot D}

/-- A machine is between two states: the current activation was left and none is installed yet. -/
structure Midway (own : ι → H → D) (i : ι) (habits : Habits H D) (seat : Seat) (s : Solo H D)
    (cell : MachineCell H) (w₀ : World H) (w : World H) : Prop where
  plays : w₀.Plays own i habits seat s cell
  running : cell.status = .running
  idle : cell.inbox.pending = []
  found : w.machine? seat.machine = some cell.clearCurrent
  streams : w.streams = w₀.streams
  aside : w₀.Aside seat w
  plain (slot : Nat) : w.IsPlain slot

namespace Midway

theorem stirs {w' : World H} (midway : Midway own i habits seat s cell w₀ w)
    (stirs : w.Stirs seat.machine w') : Midway own i habits seat s cell w₀ w' :=
  { midway with
    found := (stirs.machine? _).trans midway.found
    streams := stirs.streams.trans midway.streams
    aside := midway.aside.trans (.of_stirs stirs)
    plain := fun slot => stirs.isPlain (midway.plain slot) }

/-- The state that was entered is installed, and the observers are told. -/
theorem leads_commit (midway : Midway own i habits seat s cell w₀ w) (mute : p.IsMute own)
    (state : habits.states x) (collected : a.collected = x)
    (routes : a.routes = .build x.directives)
    (live : w.header? a.scope = some (false, some seat.machine))
    (tears : Tears own i (w.teardowns a.scope) u.teardowns) (data : own i h = u.data)
    (event : String) (previous : Collected (Entry H)) (r : Except Fault Unit) :
    let facts := s.facts.commit x event
    let change := facts.change s.facts.state event
    ∃ w' h' answer, Passage own i habits seat w h cell w' h'
        { facts
          teardowns := u.teardowns
          told := s.told ++ [change]
          data := habits.notices.foldl (fun d notice => notice change d) u.data } ∧
      ∀ rest, p.Leads
        ⟨w, h, .give (.result r), .subscribing seat.machine a [] (.commit event previous) :: rest⟩
        ⟨w', h', .give (.delivered answer), rest⟩ := by
  intro facts change
  obtain ⟨plays, running, _, found, streams, aside, _⟩ := midway
  subst collected
  let time := w.wallClock w.readings
  let cell' := cell.clearCurrent.commit a event time
  let w₁ : World H := { w.modifyMachine seat.machine (MachineCell.commit a event time) with
    readings := w.readings + if cell.settings.recordHistory then 1 else 0 }
  let news := cell'.change cell.state event
  let w₂ := w₁.tell seat.stream news
  let h₁ := p.subscriber (.transitioned cell.state a.collected.name event)
    (p.subscriber (.entered a.collected.name a.routes.size) h)
  have aside₁ : w.Aside seat w₁ :=
    let edit : w.Aside seat (w.modifyMachine seat.machine (MachineCell.commit a event time)) :=
      .modifyMachine
    ⟨edit.machine?, edit.stream, edit.scope?, edit.host, edit.kind, edit.entry⟩
  have aside₂ : w.Aside seat w₂ := aside₁.trans .tell
  have found₂ : w₂.machine? seat.machine = some cell' := by
    show (w.modifyMachine seat.machine (MachineCell.commit a event time)).machine? _ = _
    rw [World.machine?_modifyMachine, if_pos rfl, found, Option.map_some]
  -- what is told is what the description says
  have facts' : cell'.facts = facts := by
    rw [MachineCell.facts_commit]
    show _ = s.facts.commit a.collected event
    rw [← plays.facts]
    rfl
  have anonymous : news.anonymous = change := by
    show cell'.facts.change cell.facts.state event = facts.change s.facts.state event
    rw [facts', plays.facts]
  have installs (rest : List (Frame H)) :
      p.step ⟨w, h, .give (.result r), .subscribing seat.machine a [] (.commit event previous) ::
          rest⟩ =
        some ⟨w₁, h₁, .give (.result (.ok ())),
          .publishing seat.machine news cell.observers.entries :: rest⟩ := by
    have running : cell.clearCurrent.status = .running := running
    have matching : cell.clearCurrent.observers.matching Change.topic = cell.observers.entries :=
      plays.matching
    simp only [Program.step, Program.resume, Config.subscribeNext, Config.record, Config.install,
      found, running, matching, if_true]
    rfl
  have tokens (o : Registration (Observer H)) (mem : o ∈ cell.observers.entries) :
      w₁.isCancelled o.token = false :=
    World.isCancelled_eq_false_iff.2 ⟨_, aside.host (plays.lasting mem).2⟩
  have writes₁ : Writes own i u.data h h₁ := ((Writes.same data).record mute _).record mute _
  obtain ⟨h', writes, tells⟩ := Program.Leads.telling (p := p) (m := seat.machine) (w := w₁)
    (h := h₁) mute news plays.audience tokens
  rw [writes₁.mine, anonymous] at writes
  refine ⟨w₂, h', _, ⟨⟨cell', ?_, rfl, rfl⟩, writes₁.trans writes, aside₂, fun known => known⟩,
    fun rest => .head rfl (installs rest) (tells rest)⟩
  refine plays.renew (aside.trans aside₂) found₂ rfl facts' rfl ?_ ?_ ?_
  · rintro _ ⟨⟩
    exact state
  · have told := plays.stream_tell (show w₁.streams = w₀.streams from streams) news
    rwa [anonymous] at told
  · rintro _ ⟨⟩
    exact ⟨routes, live, tears⟩

/-- The state that was left is installed again. -/
theorem leads_restore (midway : Midway own i habits seat s cell w₀ w) (mute : p.IsMute own)
    (current : s.facts.current = some a.collected)
    (routes : a.routes = .build a.collected.directives)
    (live : w.header? a.scope = some (false, some seat.machine))
    (tears : Tears own i (w.teardowns a.scope) u.teardowns) (data : own i h = u.data)
    (state : String) (cause : DefinitionError) (r : Except Fault Unit) :
    ∃ w' h' answer, Passage own i habits seat w h cell w' h'
        { s with teardowns := u.teardowns, data := u.data } ∧
      ∀ rest, p.Leads
        ⟨w, h, .give (.result r), .subscribing seat.machine a [] (.restore state cause) :: rest⟩
        ⟨w', h', .give (.delivered answer), rest⟩ := by
  obtain ⟨plays, running, _, found, streams, aside, _⟩ := midway
  let install (n : MachineCell H) : MachineCell H := { n with current := some a }
  let w' := w.modifyMachine seat.machine install
  have edits : w.Aside seat w' := .modifyMachine
  have found' : w'.machine? seat.machine = some (install cell.clearCurrent) :=
    World.machine?_modifyMachine_self found
  have facts : (install cell.clearCurrent).facts = s.facts := by
    show ({ cell.facts with current := some a.collected } : Facts H) = s.facts
    rw [plays.facts, ← current]
  have installs (rest : List (Frame H)) :
      p.step ⟨w, h, .give (.result r), .subscribing seat.machine a [] (.restore state cause) ::
          rest⟩ =
        some ⟨w', p.subscriber (.entered a.collected.name a.routes.size) h,
          .give (.delivered (.error (.definition cause))), rest⟩ := by
    have running : cell.clearCurrent.status = .running := running
    simp only [Program.step, Program.resume, Config.subscribeNext, Config.record, Config.install,
      found, running, if_true]
    rfl
  refine ⟨w', _, _, ⟨⟨install cell.clearCurrent, ?_, rfl, rfl⟩,
    (Writes.same data).record mute _, edits, id⟩, fun rest => .single rfl (installs rest)⟩
  refine plays.renew (aside.trans edits) found' rfl facts rfl (fun _ => plays.states) ?_ ?_
  · show (w.streams[seat.stream.index]?).map _ = _
    rw [streams, plays.stream]
  · rintro _ ⟨⟩
    exact ⟨routes, live, tears⟩

/-- The machine stops, because the state that was left could not be entered again. -/
theorem leads_stop (midway : Midway own i habits seat s cell w₀ w) (mute : p.IsMute own)
    (data : own i h = u.undone) (name state : String) (error cause : DefinitionError) :
    ∃ w' h' answer, Passage own i habits seat w h cell w' h'
        { s with facts := s.facts.stop, teardowns := [], data := u.undone } ∧
      ∀ rest, p.Leads
        ⟨w, h, .give .unit, .abandoning seat.machine name error (.restore state cause) :: rest⟩
        ⟨w', h', .give (.delivered answer), rest⟩ := by
  obtain ⟨plays, running, idle, found, streams, aside, _⟩ := midway
  let answer : Except MachineError Delivery := .error (.restoreFailed state name cause error)
  let w₁ := w.modifyMachine seat.machine MachineCell.stop
  let w' := w₁.modifyMachine seat.machine MachineCell.clearPending
  let cell' := cell.clearCurrent.stop.clearPending
  have edits : w.Aside seat w' := .trans .modifyMachine .modifyMachine
  have found₁ : w₁.machine? seat.machine = some cell.clearCurrent.stop :=
    World.machine?_modifyMachine_self found
  have found' : w'.machine? seat.machine = some cell' :=
    World.machine?_modifyMachine_self found₁
  have facts : cell'.facts = s.facts.stop := by
    show cell.facts.stop = s.facts.stop
    rw [plays.facts]
  let h₁ := p.subscriber (.restoreFailed name error) h
  let h' := p.subscriber (.stopped cell.settings.label) h₁
  have stops (rest : List (Frame H)) : p.step ⟨w, h₁, .stop seat.machine, rest⟩ =
      some ⟨w₁, h₁, .give .unit, .stopping seat.machine :: rest⟩ := by
    have runs : cell.clearCurrent.status ≠ .stopped := by
      show cell.status ≠ .stopped
      rw [running]
      intro same
      cases same
    simp only [Program.step, Config.performStop, found, if_neg runs]
    rfl
  have stopped (rest : List (Frame H)) :
      p.step ⟨w₁, h₁, .give .unit, .stopping seat.machine :: rest⟩ =
        some ⟨w', h', .give .unit, rest⟩ := by
    simp only [Program.step, Program.resume, found₁]
    rfl
  have inbox : cell'.inbox = cell.inbox := by
    show (⟨[], cell.inbox.draining⟩ : Inbox) = _
    rw [← idle]
  refine ⟨w', h', answer, ⟨⟨cell', ?_, inbox, rfl⟩,
    ((Writes.same data).record mute _).record mute _, edits, id⟩, fun rest =>
      .head rfl rfl (.head rfl (stops _) (.head rfl (stopped _) (.single rfl rfl)))⟩
  refine plays.renew (aside.trans edits) found' rfl facts rfl (fun _ shown => by cases shown) ?_
    fun _ current => by cases current
  show (w.streams[seat.stream.index]?).map _ = _
  rw [streams, plays.stream]

end Midway

theorem Passage.after {w' w₁ : World H} {h' h₁ : H} {s' : Solo H D}
    (passage : Passage own i habits seat w₁ h₁ cell w' h' s') {d : D} (writes : Writes own i d h h₁)
    (aside : w.Aside seat w₁)
    (released : ∀ {t owner}, w.header? t = some (true, owner) → w₁.header? t = some (true, owner)) :
    Passage own i habits seat w h cell w' h' s' where
  plays := passage.plays
  writes := writes.trans passage.writes
  aside := aside.trans passage.aside
  released known := passage.released (released known)

/-- A state could not be entered, and the one before is entered again or else the machine stops. -/
theorem Midway.leads_fallBack (midway : Midway own i habits seat s cell w₀ w)
    (suits : habits.Suits p own i) (mute : p.IsMute own) {previous : Collected (Entry H)}
    (current : s.facts.current = some previous) (name event : String) (error : DefinitionError) :
    ∃ w' h' answer, Passage own i habits seat w h cell w' h' (s.fallBack habits (own i h)) ∧
      ∀ rest, p.Leads
        ⟨w, h, .give .unit, .abandoning seat.machine name error (.commit event previous) :: rest⟩
        ⟨w', h', .give (.delivered answer), rest⟩ := by
  let h₁ := p.subscriber (.restoring name previous.name error) h
  have quiet : own i h₁ = own i h := mute _ h i
  obtain ⟨w₁, h₂, stirs, entered⟩ := Program.Leads.activate (p := p) (h := h₁) (i := i)
    midway.found midway.plain fun a mem => suits.performs (midway.plays.states current) mem
  rw [quiet] at entered
  have midway₁ := midway.stirs stirs
  have writes₁ : Writes own i (own i h) h h₁ := mute.writes _ h
  unfold Solo.fallBack
  rw [current, Option.map_some, Option.getD_some]
  dsimp only
  rcases entered with ⟨ends, writes, a, rfl, routes, live, tears, r, leads⟩ |
    ⟨e, ends, writes, leads⟩
  · rw [ends]
    obtain ⟨w', h', answer, passage, installs⟩ :=
      midway₁.leads_restore (p := p) mute current routes live tears writes.mine name error r
    refine ⟨w', h', answer, passage.after (writes₁.trans writes) (.of_stirs stirs) stirs.released,
      fun rest => .head rfl rfl ((leads _ _ rest).trans (installs rest))⟩
  · rw [ends]
    obtain ⟨w', h', answer, passage, stops⟩ := midway₁.leads_stop (p := p) mute writes.mine
      previous.name name (.entry previous.name e) error
    refine ⟨w', h', answer, passage.after (writes₁.trans writes) (.of_stirs stirs) stirs.released,
      fun rest => .head rfl rfl ((leads _ _ rest).trans (stops rest))⟩

/-- A machine that runs leaves its state for another one. -/
theorem World.Plays.leads_move (plays : w.Plays own i habits seat s cell)
    (suits : habits.Suits p own i) (mute : p.IsMute own) (plain : ∀ slot, w.IsPlain slot)
    (data : own i h = s.data) (idle : cell.inbox.pending = []) (running : cell.status = .running)
    (current : cell.current = some a) (state : habits.states x) (event : String) :
    ∃ w' h' answer, Passage own i habits seat w h cell w' h' (s.move habits x event) ∧
      w'.header? a.scope = some (true, some seat.machine) ∧ ∀ rest,
        p.Leads
          ⟨w, h, .gather (.done (.ok x)), .collecting (.transition seat.machine event) :: rest⟩
          ⟨w', h', .give (.delivered answer), rest⟩ := by
  obtain ⟨_, live, tears⟩ := plays.current current
  have previous : s.facts.current = some a.collected := by
    rw [← plays.facts]
    exact congrArg (Option.map Activation.collected) current
  -- the current state is left
  let w₁ := w.modifyMachine seat.machine MachineCell.clearCurrent
  let h₁ := p.subscriber (.collected x.name x.directives.length) h
  have edits : w.Aside seat w₁ := .modifyMachine
  have leaves (rest : List (Frame H)) :
      p.step ⟨w, h, .gather (.done (.ok x)), .collecting (.transition seat.machine event) :: rest⟩ =
        some ⟨w₁, h₁, .release a.scope, .leaving seat.machine a.collected x event :: rest⟩ := by
    simp only [Program.step, Config.useCollected, Config.record, plays.found, running, current]
    rfl
  have quiet : own i h₁ = s.data := (mute _ h i).trans data
  obtain ⟨w₂, h₂, releases, released, writes₂, releasing⟩ :=
    Program.Leads.release (p := p) (w := w₁) (h := h₁) live tears
  rw [quiet] at writes₂
  have midway : Midway own i habits seat s cell w w₁ :=
    { plays, running, idle, streams := rfl, aside := edits, plain
      found := World.machine?_modifyMachine_self plays.found }
  have midway₂ := midway.stirs releases
  -- the next one is entered
  let h₃ := p.subscriber (.scopeReleased a.collected.name) h₂
  have writes₃ : Writes own i (tearDown s.teardowns s.data) h h₃ :=
    ((mute.writes _ h).trans writes₂).record mute _
  obtain ⟨w₄, h₄, stirs, entered⟩ := Program.Leads.activate (p := p) (h := h₃) (i := i)
    midway₂.found midway₂.plain fun a mem => suits.performs state mem
  rw [writes₃.mine] at entered
  have midway₄ := midway₂.stirs stirs
  have aside₄ : w.Aside seat w₄ := midway₄.aside
  have released₄ {t owner} (known : w.header? t = some (true, owner)) :
      w₄.header? t = some (true, owner) := stirs.released (releases.released known)
  have left := stirs.released released
  unfold Solo.move
  dsimp only
  rcases entered with ⟨ends, writes, b, rfl, routes, live, tears, r, leads⟩ |
    ⟨e, ends, writes, leads⟩
  · rw [ends]
    obtain ⟨w', h', answer, passage, installs⟩ :=
      midway₄.leads_commit (p := p) mute state rfl routes live tears writes.mine event a.collected r
    exact ⟨w', h', answer, passage.after (writes₃.trans writes) aside₄ released₄,
      passage.released left, fun rest => .head rfl (leaves rest) ((releasing _).trans
        (.head rfl rfl ((leads _ _ rest).trans (installs rest))))⟩
  · rw [ends]
    obtain ⟨w', h', answer, passage, fallsBack⟩ :=
      midway₄.leads_fallBack (h := h₄) suits mute previous x.name event (.entry x.name e)
    rw [writes.mine] at passage
    exact ⟨w', h', answer, passage.after (writes₃.trans writes) aside₄ released₄,
      passage.released left, fun rest => .head rfl (leaves rest) ((releasing _).trans
        (.head rfl rfl ((leads _ _ rest).trans (fallsBack rest))))⟩

/-! ## Events -/

/-- The target of an event is declared by the current state, and the machine runs. -/
theorem Facts.moveTo_of_target? {f : Facts H} {source : SourceId} {type : String} {d : Definition}
    (leads : f.target? source type = some d) :
    f.status = .running ∧ ∃ x, f.current = some x ∧ .moveTo type d ∈ x.directives := by
  unfold Facts.target? at leads
  split at leads
  · next going =>
    obtain ⟨x, current, resolves⟩ := Option.bind_eq_some_iff.1 leads
    rw [RouteTable.target?_resolve_build] at resolves
    split at resolves
    · obtain ⟨⟨type', d'⟩, first, rfl⟩ := Option.map_eq_some_iff.1 resolves
      have same : type' = type := by simpa using List.find?_some first
      obtain ⟨directive, mem, move⟩ := List.mem_filterMap.1 (List.mem_of_find?_eq_some first)
      cases directive with
      | moveTo =>
        cases move
        exact ⟨going.1, x, current, same ▸ mem⟩
      | _ => cases move
    · cases resolves
  · cases leads

/-- To route an event is at most recorded. -/
theorem Config.host_performRoute (source : SourceId) (e : Event) (c : Config H) :
    (Config.performRoute p m source e c).host = c.host ∨
      ∃ r, (Config.performRoute p m source e c).host = p.subscriber r c.host := by
  unfold Config.performRoute
  repeat' split
  all_goals first
    | exact .inl rfl
    | exact .inr ⟨_, rfl⟩

theorem Program.IsMute.step_route (mute : p.IsMute own) (found : w.machine? m = some cell)
    (source : SourceId) (e : Event) :
    ∃ h', Writes own i (own i h) h h' ∧ ∀ rest, p.step ⟨w, h, .route m source e, rest⟩ =
      some (match cell.target? source e.kind with
        | some target =>
          ⟨w, h', .gather (p.collect cell.settings.delegationLimit target),
            .collecting (.transition m e.kind) :: rest⟩
        | none => ⟨w, h', .give (.delivered (.ok .ignored)), rest⟩) := by
  let c : Config H := ⟨w, h, .route m source e, []⟩
  obtain ⟨h', routes⟩ := @Program.step_route _ p m c cell source e found rfl
  have routed := Option.some.inj routes
  refine ⟨h', ?_, fun rest => ?_⟩
  · have host : (Config.performRoute p m source e c).host = h' := by
      rw [routed]
      split <;> rfl
    rcases Config.host_performRoute (p := p) (m := m) source e c with same | ⟨r, recorded⟩
    · rw [← host, same]
      exact .refl h
    · rw [← host, recorded]
      exact mute.writes r h
  · have above : Config.performRoute p m source e (c.above rest) =
        (Config.performRoute p m source e c).above rest := Config.performRoute_above
    refine congrArg some (above.trans ?_)
    rw [routed]
    cases cell.target? source e.kind <;> rfl

/-- An event that is routed does what the description says. If it leads to another state, the one
before is left for good, and else nothing happens. -/
theorem World.Plays.leads_route (plays : w.Plays own i habits seat s cell)
    (suits : habits.Suits p own i) (yields : p.Yields fun _ => True) (mute : p.IsMute own)
    (plain : ∀ slot, w.IsPlain slot) (data : own i h = s.data) (idle : cell.inbox.pending = [])
    (source : SourceId) (e : Event) :
    ∃ w' h' answer, Passage own i habits seat w h cell w' h' (s.react p habits source e) ∧
      (match s.next? p habits source e.kind with
        | some _ => ∀ a, cell.current = some a →
          w'.header? a.scope = some (true, some seat.machine)
        | none => w' = w) ∧
      ∀ rest, p.Leads ⟨w, h, .route seat.machine source e, rest⟩
        ⟨w', h', .give (.delivered answer), rest⟩ := by
  have stays {h' : H} (writes : Writes own i (own i h) h h') :
      Passage own i habits seat w h cell w h' s :=
    ⟨⟨cell, plays, rfl, rfl⟩, data ▸ writes, .refl w, id⟩
  obtain ⟨h₁, writes₁, routes⟩ :=
    mute.step_route (h := h) (i := i) plays.found source e
  have limit : cell.settings.delegationLimit = habits.settings.delegationLimit := by
    rw [← plays.settings, ← plays.facts]
    rfl
  rw [plays.target?, limit] at routes
  unfold Solo.react Solo.next?
  cases leads : s.facts.target? source e.kind with
  | none =>
    rw [leads] at routes
    exact ⟨w, h₁, _, stays writes₁, rfl, fun rest => .single rfl (routes rest)⟩
  | some target =>
    rw [leads] at routes
    obtain ⟨r, done, _⟩ := yields.collect habits.settings.delegationLimit target
    simp only [done] at routes
    simp only [Option.bind_some, done]
    cases r with
    | error error =>
      have writes := writes₁.record mute (.collectFailed error)
      exact ⟨w, _, _, stays writes, rfl, fun rest =>
        .head rfl (routes rest) (.single rfl rfl)⟩
    | ok x =>
      obtain ⟨running, y, current, mem⟩ := Facts.moveTo_of_target? leads
      have state : habits.states x := suits.leads (plays.states current) mem done
      have running : cell.status = .running := (congrArg Facts.status plays.facts).trans running
      obtain ⟨a, activation, _⟩ := Option.map_eq_some_iff.1
        ((congrArg Facts.current plays.facts).trans current)
      obtain ⟨w', h', answer, passage, left, moves⟩ := plays.leads_move (h := h₁) suits mute plain
        (writes₁.mine.trans data) idle running activation state e.kind
      refine ⟨w', h', answer, passage.after writes₁ (.refl w) id, ?_, fun rest =>
        .head rfl (routes rest) (moves rest)⟩
      intro b current'
      rw [activation] at current'
      cases current'
      exact left

/-- A machine that fits a description waits for events. -/
def World.Seats (own : ι → H → D) (i : ι) (habits : Habits H D) (seat : Seat) (s : Solo H D)
    (w : World H) : Prop :=
  ∃ cell, w.Plays own i habits seat s cell ∧ cell.inbox = {} ∧ 0 < cell.handles

/-- What another machine does is nothing to a machine that waits. -/
theorem World.Seats.aside {w' : World H} {other : Seat} (fits : w.Seats own i habits seat s)
    (aside : w.Aside other w') (machine : seat.machine ≠ other.machine)
    (stream : seat.stream ≠ other.stream) : w'.Seats own i habits seat s := by
  obtain ⟨cell, plays, idle, held⟩ := fits
  exact ⟨cell, plays.aside aside machine stream, idle, held⟩

theorem World.isAlive_of_held (found : w.machine? m = some cell) (held : 0 < cell.handles) :
    w.isAlive m = true := by
  rw [World.isAlive, found]
  exact decide_eq_true (Nat.add_pos_left held _)

/-- A listener holds the machine and claims its inbox. -/
theorem World.Plays.leads_claim (plays : w.Plays own i habits seat s cell) (idle : cell.inbox = {})
    (held : 0 < cell.handles) (source : SourceId) (e : Event) :
    ∃ w', w'.Plays own i habits seat s cell.pin.beginDraining ∧ w.Aside seat w' ∧
      w'.scopes = w.scopes ∧ ∀ ctl rest,
        p.Leads (Config.forward seat.machine source e ⟨w, h, ctl, rest⟩)
          ⟨w', h, .route seat.machine source e, .draining seat.machine e.kind none ::
            .holding seat.machine :: .forwarding :: rest⟩ := by
  let w₁ := w.modifyMachine seat.machine MachineCell.pin
  let w' := w₁.modifyMachine seat.machine MachineCell.beginDraining
  have plays₁ : w₁.Plays own i habits seat s cell.pin := plays.edit rfl rfl rfl
  have plays' : w'.Plays own i habits seat s cell.pin.beginDraining := plays₁.edit rfl rfl rfl
  refine ⟨w', plays', .trans .modifyMachine .modifyMachine, rfl, fun ctl rest => ?_⟩
  have claims (rest : List (Frame H)) : p.step ⟨w₁, h, .send seat.machine source e, rest⟩ =
      some ⟨w', h, .route seat.machine source e, .draining seat.machine e.kind none :: rest⟩ := by
    have free : cell.pin.inbox.draining = false := congrArg Inbox.draining idle
    simp only [Program.step, Config.performSend, plays₁.found, free]
    rfl
  rw [Config.forward, if_pos (World.isAlive_of_held plays.found held)]
  exact .single rfl (claims _)

/-- Nothing was sent meanwhile, and the handle of the listener is not the last one: the machine
waits again. -/
theorem World.Plays.leads_letGo (plays : w.Plays own i habits seat s cell)
    (empty : cell.inbox.pending = []) (held : 0 < cell.handles) (kind : String)
    (answer : Except MachineError Delivery) :
    ∃ w', w'.Seats own i habits seat s ∧ w.Aside seat w' ∧ w'.scopes = w.scopes ∧
      w'.current? seat.machine = cell.current ∧ ∀ rest, p.Leads
        ⟨w, h, .give (.delivered answer),
          .draining seat.machine kind none :: .holding seat.machine :: .forwarding :: rest⟩
        ⟨w', h, .give (.result ((answer.map fun _ => ()).mapError .machine)), rest⟩ := by
  let w₁ := w.modifyMachine seat.machine MachineCell.endDraining
  let w' := w₁.modifyMachine seat.machine MachineCell.unpin
  have plays₁ : w₁.Plays own i habits seat s cell.endDraining := plays.edit rfl rfl rfl
  have plays' : w'.Plays own i habits seat s cell.endDraining.unpin := plays₁.edit rfl rfl rfl
  have idle : cell.endDraining.unpin.inbox = {} := by
    show (⟨cell.inbox.pending, false⟩ : Inbox) = {}
    rw [empty]
  have current : w'.current? seat.machine = cell.current := by
    rw [World.current?, plays'.found]
    rfl
  have drained (rest : List (Frame H)) :
      p.step ⟨w, h, .give (.delivered answer), .draining seat.machine kind none :: rest⟩ =
        some ⟨w₁, h, .give (.delivered answer), rest⟩ := by
    simp only [Program.step, Program.resume, Config.drain, plays.found, Option.bind_some, empty]
    rfl
  have released (rest : List (Frame H)) :
      p.step ⟨w₁, h, .give (.delivered answer), .holding seat.machine :: rest⟩ =
        some ⟨w', h, .give (.delivered answer), rest⟩ := by
    show some (Config.settleHandle seat.machine _ ⟨w', _, _, _⟩) = _
    rw [Config.settleHandle, if_pos (World.isAlive_of_held plays'.found held)]
    rfl
  exact ⟨w', ⟨_, plays', idle, held⟩, .trans .modifyMachine .modifyMachine, rfl, current,
    fun rest => .head rfl (drained _) (.head rfl (released _) (.single rfl rfl))⟩

/-- A listener that hears an event does what the description says. -/
theorem World.Seats.leads_forward (seats : w.Seats own i habits seat s)
    (suits : habits.Suits p own i) (yields : p.Yields fun _ => True) (mute : p.IsMute own)
    (plain : ∀ slot, w.IsPlain slot) (data : own i h = s.data) (source : SourceId) (e : Event) :
    ∃ w' h' r, w'.Seats own i habits seat (s.react p habits source e) ∧
      Writes own i (s.react p habits source e).data h h' ∧ w.Aside seat w' ∧
      (∀ {t owner}, w.header? t = some (true, owner) → w'.header? t = some (true, owner)) ∧
      (match s.next? p habits source e.kind with
        | some _ => ∀ a, w.current? seat.machine = some a →
          w'.header? a.scope = some (true, some seat.machine)
        | none => w'.scopes = w.scopes ∧ w'.current? seat.machine = w.current? seat.machine) ∧
      ∀ ctl rest, p.Leads (Config.forward seat.machine source e ⟨w, h, ctl, rest⟩)
        ⟨w', h', .give (.result r), rest⟩ := by
  obtain ⟨cell, plays, idle, held⟩ := seats
  obtain ⟨w₁, plays₁, before, scopes₁, claims⟩ :=
    plays.leads_claim (p := p) (h := h) idle held source e
  obtain ⟨w₂, h', answer, passage, outcome, routes⟩ := plays₁.leads_route (h := h) suits yields mute
    (fun slot => before.isPlain (plain slot)) data (congrArg Inbox.pending idle) source e
  obtain ⟨cell₂, plays₂, inbox, handles⟩ := passage.plays
  obtain ⟨w', fits, after, scopes', current', letsGo⟩ := plays₂.leads_letGo (p := p) (h := h')
    ((congrArg Inbox.pending inbox).trans (congrArg Inbox.pending idle)) (handles ▸ held) e.kind
    answer
  have current : w.current? seat.machine = cell.current := by
    rw [World.current?, plays.found]
    rfl
  refine ⟨w', h', _, fits, passage.writes, (before.trans passage.aside).trans after,
    fun known => ?_, ?_, fun ctl rest => (claims ctl rest).trans ((routes _).trans (letsGo rest))⟩
  · rw [World.header?_congr scopes']
    exact passage.released ((World.header?_congr scopes₁).trans known)
  · split at outcome
    · intro a there
      rw [World.header?_congr scopes']
      exact outcome a (current.symm.trans there)
    · subst outcome
      have same : cell₂ = cell.pin.beginDraining :=
        Option.some.inj (plays₂.found.symm.trans plays₁.found)
      refine ⟨scopes'.trans scopes₁, current'.trans ?_⟩
      rw [current, same]
      rfl

end Transitions

end ScopedMachine

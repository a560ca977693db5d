import ScopedMachine.Proofs.Nativity

/-!
# Machines that share sources do not interfere

A family of machines listens to the same sources. Bodies only yield directives, and entry actions,
teardowns and observers touch neither the engine nor each other's data. Machines are started and
events are emitted in any order. Then each machine goes through the same states, with the same
history, and tells its observers of the same changes, as if it were the only one that was started.

Both runs are compared with the description of the machine on its own: what becomes of it depends on
its own cues alone.
-/

namespace ScopedMachine

variable {H D ι : Type}

/-! ## Families of machines -/

/-- A family of machines. Each member has data of its own, and observers. -/
structure Cast (H D ι : Type) where
  own : ι → H → D
  initial : ι → Definition
  settings : ι → Settings
  observers : ι → List (Change → Script H)

/-- The states that a machine can get to. -/
inductive Program.Visits (p : Program H) (limit : Nat) (initial : Definition) :
    Collected (Entry H) → Prop where
  | first {x : Collected (Entry H)} (collects : p.collect limit initial = .done (.ok x)) :
      Visits p limit initial x
  | next {x y : Collected (Entry H)} {type : String} {target : Definition}
      (visits : Visits p limit initial x) (mem : .moveTo type target ∈ x.directives)
      (collects : p.collect limit target = .done (.ok y)) : Visits p limit initial y

/-- An entry action touches neither the engine nor the data of others, but for the teardowns that it
hangs on the token. -/
def Entry.IsPrivate (own : ι → H → D) (i : ι) (a : Entry H) : Prop :=
  ∃ act, ∀ token, (a token).Performs own i (some token) act

/-- An observer touches neither the engine nor the data of others, and minds what a change says but
not which machine it is from. -/
def IsPrivateObserver (own : ι → H → D) (i : ι) (f : Change → Script H) : Prop :=
  ∃ notice : Change → D → D, ∀ change, ∃ u, (f change).Performs own i none u ∧
    ∀ d, (u d).data = notice change.anonymous d

/-- The members of a family keep to themselves. -/
structure Cast.KeepsApart (cast : Cast H D ι) (p : Program H) (w : World H) : Prop where
  fresh : w.IsFresh
  /-- The sources are emitters or timers. -/
  emitters (slot : Nat) : w.IsPlain slot
  yields : p.Yields fun _ => True
  /-- What the host does with records is not to change the data of a member. -/
  mute : p.IsMute cast.own
  entries {i : ι} {x : Collected (Entry H)}
    (visits : p.Visits (cast.settings i).delegationLimit (cast.initial i) x) {a : Entry H}
    (mem : a ∈ x.actions) : Entry.IsPrivate cast.own i a
  observers {i : ι} {f : Change → Script H} (mem : f ∈ cast.observers i) :
    IsPrivateObserver cast.own i f

/-! ## What happens to a family -/

/-- Something that the host does. -/
inductive Cue (ι : Type) where
  /-- Start the machine of a member, unless it has one. -/
  | start (i : ι)
  | emit (slot : Nat) (event : Event)

/-- Only the start of another member's machine does not concern a member. -/
def Cue.concerns [DecidableEq ι] (i : ι) : Cue ι → Bool
  | .start j => j = i
  | .emit .. => true

/-- Register observers with a machine, and go on. -/
def Script.observeAll (m : MachineId) (token : ScopeId) :
    List (Change → Script H) → Script H → Script H
  | [], next => next
  | f :: fs, next => .call (.observe m f token) fun _ => observeAll m token fs next

/-- Do what the cues say, and go on with the places of the machines. A machine that is started is
observed by a stream and by the observers of the member. -/
def Cast.play [DecidableEq ι] (cast : Cast H D ι) (k : (ι → Option Seat) → Script H) :
    List (Cue ι) → (ι → Option Seat) → Script H
  | [], seats => k seats
  | .start i :: cues, seats =>
    if (seats i).isSome then cast.play k cues seats
    else
      .call (.start (cast.initial i) (cast.settings i) none) fun
        | .started (.ok m) =>
          .call (.newScope none) fun
            | .scope token =>
              .call (.stream m token) fun
                | .stream f =>
                  .observeAll m token (cast.observers i) <|
                    cast.play k cues (Function.update seats i (some ⟨m, f⟩))
                | _ => .ok
            | _ => .ok
        | _ => cast.play k cues seats
  | .emit slot e :: cues, seats => .call (.emit slot e) fun _ => cast.play k cues seats

/-- What is to be seen of a machine, apart from its identity and from points in time. -/
structure Sight where
  label : String
  snapshot : Snapshot
  history : List (String × String × Option String)
  subscriptions : Nat
  /-- The changes that were told. -/
  changes : List Change

/-- What is to be seen of a machine and its stream. -/
def World.sight (w : World H) (seat : Seat) : Option Sight :=
  (w.machineView? seat.machine).map fun v =>
    { label := v.label
      snapshot := { v.snapshot with machine := Uuid.ofNat 0 }
      history := v.history.transitions.map Transition.legs
      subscriptions := v.subscriptions
      changes := (w.streams[seat.stream.index]?.getD []).map Change.anonymous }

/-! ## What becomes of a member -/

open Classical in
/-- What an entry action comes to, if it is private. -/
noncomputable def Entry.upshot (own : ι → H → D) (i : ι) (a : Entry H) : D → Upshot D :=
  if h : Entry.IsPrivate own i a then h.choose else fun d => ⟨d, [], .ok ()⟩

open Classical in
/-- What an observer does to the data, if it is private. -/
noncomputable def observerNotice (own : ι → H → D) (i : ι) (f : Change → Script H) :
    Change → D → D :=
  if h : IsPrivateObserver own i f then h.choose else fun _ d => d

/-- The habits of a member. -/
noncomputable def Cast.habits (cast : Cast H D ι) (p : Program H) (i : ι) : Habits H D where
  settings := cast.settings i
  states := p.Visits (cast.settings i).delegationLimit (cast.initial i)
  act := Entry.upshot cast.own i
  notices := (cast.observers i).map (observerNotice cast.own i)

theorem Entry.IsPrivate.performs {own : ι → H → D} {i : ι} {a : Entry H}
    (isPrivate : Entry.IsPrivate own i a) (token : ScopeId) :
    (a token).Performs own i (some token) (Entry.upshot own i a) := by
  rw [Entry.upshot, dif_pos isPrivate]
  exact isPrivate.choose_spec token

theorem IsPrivateObserver.heeds {own : ι → H → D} {i : ι} {f : Change → Script H}
    (isPrivate : IsPrivateObserver own i f) (change : Change) :
    ∃ u, (f change).Performs own i none u ∧
      ∀ d, (u d).data = observerNotice own i f change.anonymous d := by
  rw [observerNotice, dif_pos isPrivate]
  exact isPrivate.choose_spec change

theorem Cast.KeepsApart.suits {cast : Cast H D ι} {p : Program H} {w : World H}
    (apart : cast.KeepsApart p w) (i : ι) : (cast.habits p i).Suits p cast.own i where
  performs visits _ mem token := (apart.entries visits mem).performs token
  leads visits _ _ mem collects := .next visits mem collects

/-- The observers of a member are registered one after the other. -/
theorem World.Seats.leads_observeAll {i : ι} {own : ι → H → D} {p : Program H}
    {habits : Habits H D} {seat : Seat} {s : Solo H D} {token : ScopeId} {x : World H} {h : H}
    {notices : List (Change → D → D)} {fs : List (Change → Script H)}
    (isPrivate : ∀ f ∈ fs, IsPrivateObserver own i f)
    (fits : x.Seats own i { habits with notices := notices } seat s)
    (live : x.header? token = some (false, none)) :
    ∃ w', w'.Seats own i
        { habits with notices := notices ++ fs.map (observerNotice own i) } seat s ∧
      x.Aside seat w' ∧
      ∀ next, p.Leads ⟨x, h, .run (.observeAll seat.machine token fs next), []⟩
        ⟨w', h, .run next, []⟩ := by
  induction fs generalizing x notices with
  | nil => exact ⟨x, by rwa [List.map_nil, List.append_nil], .refl x, fun _ => .refl _⟩
  | cons f fs ih =>
    obtain ⟨first, others⟩ := List.forall_mem_cons.1 isPrivate
    obtain ⟨w₁, fits₁, aside₁, observes⟩ := fits.leads_observe (p := p) (h := h) first.heeds live
    obtain ⟨w', fits', aside', leads⟩ := ih others fits₁ (aside₁.host live)
    rw [List.append_assoc] at fits'
    exact ⟨w', fits', aside₁.trans aside', fun next => (observes _ _).trans (leads next)⟩

section Playing

variable [DecidableEq ι] {cast : Cast H D ι} {p : Program H} {w : World H}

/-- What a cue does to a member. -/
noncomputable def Cast.follow (cast : Cast H D ι) (p : Program H) (w : World H) (i : ι)
    (t : Standing H D) : Cue ι → Standing H D
  | .start j => if j = i then t.start p (cast.habits p i) (cast.initial i) else t
  | .emit slot e => if (w.source? slot).isSome then t.emit p (cast.habits p i) slot e else t

/-- Only the member whose machine is started gets one. -/
theorem Cast.follow_start (i : ι) (standing : ι → Standing H D) :
    (fun j => cast.follow p w j (standing j) (.start i)) =
      Function.update standing i ((standing i).start p (cast.habits p i) (cast.initial i)) := by
  funext j
  rw [Cast.follow]
  by_cases same : j = i
  · subst same
    rw [if_pos rfl, Function.update_self]
  · rw [if_neg (Ne.symm same), Function.update_of_ne same]

/-- The cues that do not concern a member make no difference to it. -/
theorem Cast.foldl_follow_filter (i : ι) (cues : List (Cue ι)) (t : Standing H D) :
    (cues.filter (Cue.concerns i)).foldl (cast.follow p w i) t =
      cues.foldl (cast.follow p w i) t := by
  induction cues generalizing t with
  | nil => rfl
  | cons cue cues ih =>
    cases cue with
    | emit slot e => exact ih _
    | start j =>
      by_cases same : j = i
      · rw [List.filter_cons_of_pos (by simpa [Cue.concerns] using same)]
        exact ih _
      · rw [List.filter_cons_of_neg (by simpa [Cue.concerns] using same), ih, List.foldl_cons,
          Cast.follow, if_neg same]

variable (apart : cast.KeepsApart p w) {seats : ι → Option Seat} {standing : ι → Standing H D}
  {x : World H} {h : H} {past : List (Config H)}
include apart

/-- A member is told to start its machine. -/
theorem Ensemble.leads_start (ensemble : Ensemble cast.own (cast.habits p) seats standing x h)
    (i : ι) :
    ∃ w' h' seats', Ensemble cast.own (cast.habits p) seats'
        (fun j => cast.follow p w j (standing j) (.start i)) w' h' ∧
      ∀ k cues, p.Leads ⟨x, h, .run (cast.play k (.start i :: cues) seats), []⟩
        ⟨w', h', .run (cast.play k cues seats'), []⟩ := by
  rw [Cast.follow_start]
  cases seated : seats i with
  | some seat =>
    obtain ⟨s, stands, _⟩ := ensemble.on seated
    have same : (standing i).start p (cast.habits p i) (cast.initial i) = standing i := by
      rw [stands]
      rfl
    rw [same, Function.update_eq_self]
    refine ⟨x, h, seats, ensemble, fun k cues => ?_⟩
    rw [Cast.play, seated]
    exact .refl _
  | none =>
    obtain ⟨d, stands⟩ := ensemble.out seated
    have data : cast.own i h = d := by rw [ensemble.data i, stands]; rfl
    obtain ⟨w₁, h₁, result, aside, streams, writes, outcome, starts⟩ :=
      Program.Leads.start (p := p) (h := h) (i := i) (apart.suits i) apart.mute apart.yields
        ensemble.plain (cast.initial i) fun _ => .first
    rw [data, ← stands] at writes outcome
    cases next : (standing i).start p (cast.habits p i) (cast.initial i) with
    | out d' =>
      rw [next] at writes outcome
      obtain ⟨⟨error, rfl⟩, nobody⟩ := outcome
      refine ⟨w₁, h₁, seats, ensemble.fail seated aside writes nobody, fun k cues => ?_⟩
      rw [Cast.play, seated]
      exact starts _ _
    | on s =>
      rw [next] at writes outcome
      obtain ⟨rfl, cell, begins⟩ := outcome
      let m := x.nextSeat.machine
      let token : ScopeId := ⟨w₁.scopes.size⟩
      let w₂ := (w₁.addScope none none).2
      have live : w₂.header? token = some (false, none) := by
        rw [World.header?_addScope, if_pos rfl]
      have seat : (⟨m, ⟨w₂.streams.size⟩⟩ : Seat) = x.nextSeat := by
        show (⟨m, ⟨w₁.streams.size⟩⟩ : Seat) = x.nextSeat
        rw [streams]
        rfl
      obtain ⟨w₃, fits₃, aside₃, live₃, streams₃⟩ :=
        begins.addScope.leads_stream (p := p) (h := h₁) live
      rw [seat] at fits₃ aside₃ streams₃
      obtain ⟨w₄, fits₄, aside₄, observes⟩ := fits₃.leads_observeAll (p := p) (h := h₁)
        (fun f => apart.observers) live₃
      have aside' : x.Aside x.nextSeat w₄ :=
        ((aside.trans (.of_stirs .addScope)).trans aside₃).trans aside₄
      refine ⟨w₄, h₁, _, ensemble.join seated aside' writes fits₄,
        fun k cues => ?_⟩
      rw [Cast.play, seated]
      exact (starts _ _).trans (.head rfl rfl (.head rfl rfl
        ((streams₃ _ _).trans (observes _))))

/-- Every member follows its cues while the host goes through all of them. -/
theorem Cast.KeepsApart.leads_play (cues : List (Cue ι)) {k₀ : (ι → Option Seat) → Script H}
    (run : p.Run w past ⟨x, h, .run (cast.play k₀ cues seats), []⟩)
    (calm : ∀ x ∈ past, x.IsCalm)
    (ensemble : Ensemble cast.own (cast.habits p) seats standing x h) :
    ∃ w' h' seats', Ensemble cast.own (cast.habits p) seats'
        (fun i => cues.foldl (cast.follow p w i) (standing i)) w' h' ∧
      ∀ k, p.Leads ⟨x, h, .run (cast.play k cues seats), []⟩ ⟨w', h', .run (k seats'), []⟩ := by
  induction cues generalizing x h past seats standing with
  | nil => exact ⟨x, h, seats, ensemble, fun k => .refl _⟩
  | cons cue cues ih =>
    obtain ⟨w₁, h₁, seats₁, ensemble₁, leads₁⟩ : ∃ w₁ h₁ seats₁,
        Ensemble cast.own (cast.habits p) seats₁ (fun j => cast.follow p w j (standing j) cue)
          w₁ h₁ ∧
        ∀ k, p.Leads ⟨x, h, .run (cast.play k (cue :: cues) seats), []⟩
          ⟨w₁, h₁, .run (cast.play k cues seats₁), []⟩ := by
      cases cue with
      | start i =>
        obtain ⟨w₁, h₁, seats₁, ensemble₁, leads₁⟩ := ensemble.leads_start apart i
        exact ⟨w₁, h₁, seats₁, ensemble₁, fun k => leads₁ k cues⟩
      | emit slot e =>
        obtain ⟨w₁, h₁, standing₁, report, ensemble₁, hears, leads₁⟩ :=
          ensemble.leads_emit apart.suits apart.yields apart.mute apart.emitters slot e run calm
        cases (funext hears : standing₁ = fun j => cast.follow p w j (standing j) (.emit slot e))
        exact ⟨w₁, h₁, seats, ensemble₁, fun k => leads₁ _⟩
    obtain ⟨past₁, run₁, calm₁⟩ := run.leads calm (leads₁ k₀)
    obtain ⟨w', h', seats', ensemble', leads⟩ := ih run₁ calm₁ ensemble₁
    exact ⟨w', h', seats', ensemble', fun k => (leads₁ k).trans (leads k)⟩

end Playing

/-- Before the first cue nobody has a machine. -/
theorem Cast.KeepsApart.ensemble {cast : Cast H D ι} {p : Program H} {w : World H}
    (apart : cast.KeepsApart p w) (h : H) :
    Ensemble cast.own (cast.habits p) (fun _ => none) (fun i => .out (cast.own i h)) w h where
  data _ := rfl
  out _ := ⟨_, rfl⟩
  on := nofun
  apart _ := nofun
  strangers _ := by rw [World.current?, apart.fresh.machine?]; rfl
  plain := apart.emitters
  routes {slot r} mem := by
    rw [World.entries] at mem
    cases found : w.source? slot with
    | none =>
      rw [found] at mem
      cases mem
    | some source =>
      rw [found, Option.map_some, Option.getD_some, apart.fresh.source? found] at mem
      cases mem

/-! ## What is to be seen of a member -/

/-- What is to be seen of a machine that a description fits. -/
def Solo.sight (s : Solo H D) : Sight where
  label := s.facts.settings.label
  snapshot :=
    { machine := Uuid.ofNat 0
      state := s.facts.state
      aliases := s.facts.aliases
      status := s.facts.status
      terminal := s.facts.terminal
      accumulator := s.facts.accumulator
      transitions := s.facts.transitions }
  history := s.facts.history
  subscriptions := (s.facts.current.map fun x => (RouteTable.build x.directives).size).getD 0
  changes := s.told

theorem World.Seats.sight {own : ι → H → D} {i : ι} {habits : Habits H D} {seat : Seat}
    {s : Solo H D} {w : World H} (fits : w.Seats own i habits seat s) :
    w.sight seat = some s.sight := by
  obtain ⟨cell, plays, _, held⟩ := fits
  have subscriptions : w.subscriptions cell =
      (s.facts.current.map fun x => (RouteTable.build x.directives).size).getD 0 := by
    rw [← plays.facts]
    show _ = ((cell.current.map Activation.collected).map _).getD 0
    unfold World.subscriptions
    cases current : cell.current with
    | none => rfl
    | some a =>
      obtain ⟨routes, live, _⟩ := plays.current current
      show (if w.isCancelled a.scope then 0 else a.routes.size) = _
      rw [if_neg, routes]
      · rfl
      · rw [World.isCancelled_eq_false_iff.2 ⟨_, live⟩]
        nofun
  obtain ⟨told, stream, anonymous⟩ := Option.map_eq_some_iff.1 plays.stream
  have held : cell.handles ≠ 0 := Nat.ne_of_gt held
  simp only [World.sight, World.machineView?, plays.found, Option.bind_eq_bind, Option.bind_some,
    if_neg held, Option.map_some, stream, Option.getD_some, anonymous, subscriptions, Solo.sight,
    ← plays.facts]
  rfl

/-- What is to be seen of a member, if it has a machine. -/
def Standing.sight : Standing H D → Option Sight
  | .out _ => none
  | .on s => some s.sight

theorem Ensemble.sight {own : ι → H → D} {habits : ι → Habits H D} {seats : ι → Option Seat}
    {standing : ι → Standing H D} {w : World H} {h : H}
    (ensemble : Ensemble own habits seats standing w h) (i : ι) :
    (seats i).bind w.sight = (standing i).sight := by
  cases seated : seats i with
  | none =>
    obtain ⟨d, stands⟩ := ensemble.out seated
    rw [stands]
    rfl
  | some seat =>
    obtain ⟨s, stands, fits⟩ := ensemble.on seated
    rw [stands]
    exact fits.sight

/-! ## Noninterference -/

section Noninterference

variable [DecidableEq ι] {cast : Cast H D ι} {p : Program H} {w : World H}

/-- Some cues are followed after others. -/
theorem Cast.play_append {k : (ι → Option Seat) → Script H} (cues later : List (Cue ι))
    (seats : ι → Option Seat) :
    cast.play k (cues ++ later) seats = cast.play (cast.play k later) cues seats := by
  induction cues generalizing seats with
  | nil => rfl
  | cons cue cues ih =>
    cases cue with
    | emit slot e => simp only [List.cons_append, Cast.play, ih]
    | start i => simp only [List.cons_append, Cast.play, ih]

/-- A machine that shares sources with others does what it does alone. After any cues, and whatever
follows, there is the same to be seen of it as in the run in which it alone is started, at the same
point, and the same events are emitted; and the data of the member are the same. -/
theorem Cast.KeepsApart.undisturbed (apart : cast.KeepsApart p w) (i : ι) (cues : List (Cue ι))
    (h : H) :
    ∃ w₁ h₁ seats₁ w₂ h₂ seats₂,
      (∀ k later, p.Reaches ⟨w, h, .run (cast.play k (cues ++ later) fun _ => none), []⟩
        ⟨w₁, h₁, .run (cast.play k later seats₁), []⟩) ∧
      (∀ k later, p.Reaches
        ⟨w, h, .run (cast.play k ((cues ++ later).filter (Cue.concerns i)) fun _ => none), []⟩
        ⟨w₂, h₂, .run (cast.play k (later.filter (Cue.concerns i)) seats₂), []⟩) ∧
      (seats₁ i).bind w₁.sight = (seats₂ i).bind w₂.sight ∧ cast.own i h₁ = cast.own i h₂ := by
  have begins (cues : List (Cue ι)) :=
    apart.leads_play cues (.begin apart.fresh h (cast.play (fun _ => .ok) cues fun _ => none))
      (fun _ mem => nomatch mem) (apart.ensemble h)
  obtain ⟨w₁, h₁, seats₁, ensemble₁, leads₁⟩ := begins cues
  obtain ⟨w₂, h₂, seats₂, ensemble₂, leads₂⟩ := begins (cues.filter (Cue.concerns i))
  refine ⟨w₁, h₁, seats₁, w₂, h₂, seats₂, fun k later => ?_, fun k later => ?_, ?_, ?_⟩
  · rw [Cast.play_append]
    exact (leads₁ _).reaches
  · rw [List.filter_append, Cast.play_append]
    exact (leads₂ _).reaches
  · rw [ensemble₁.sight, ensemble₂.sight, Cast.foldl_follow_filter]
  · rw [ensemble₁.data, ensemble₂.data, Cast.foldl_follow_filter]

end Noninterference

/-! ## A lamp and a bell -/

namespace House

def quiet : Definition := .shared "quiet" "Quiet"

def ringing : Definition := .shared "ringing" "Ringing"

/-- The lamp adds a tally when it leaves a state. -/
def mark : Entry (Nat × Nat) := fun token =>
  .call (.onCancel token (.update (fun h => (h.1 + 1, h.2)) .ok)) fun _ => .ok

/-- The bell adds a tally when it tries to ring, and fails. -/
def strike : Entry (Nat × Nat) := fun _ =>
  .update (fun h => (h.1, h.2 + 1)) (.done (.error (.plain "the clapper is stuck")))

/-- A lamp and a bell have one switch. -/
def program : Program (Nat × Nat) where
  declared key :=
    if key = "ringing" then .yield (.entry strike) (.finish (.ok ()))
    else if key = "quiet" then
      .yield (.listenTo Lamp.switch (.ofList ["toggle"])) <|
        .yield (.moveTo "toggle" ringing) <| .finish (.ok ())
    else
      .yield (.entry mark) <|
        .yield (.listenTo Lamp.switch (.ofList ["toggle"])) <|
          .yield (.moveTo "toggle" (if key = "off" then Lamp.on else Lamp.off)) <|
            .finish (.ok ())
  subscriber _ h := h

def world : World (Nat × Nat) where
  sources := #[{ id := Lamp.switch.id, label := Lamp.switch.label, kind := .emitter }]
  wallClock _ := Lamp.noon

/-- The lamp is observed, the bell is not. -/
def cast : Cast (Nat × Nat) Nat Bool where
  own bell h := if bell then h.2 else h.1
  initial bell := if bell then quiet else Lamp.off
  settings _ := {}
  observers bell := if bell then [] else [fun _ => .update (fun h => (h.1 + 10, h.2)) .ok]

def cues : List (Cue Bool) :=
  [.start true, .start false, .emit 0 { kind := "toggle" }, .emit 0 { kind := "toggle" }]

def lampState (name : String) (next : Definition) : Collected (Entry (Nat × Nat)) :=
  ⟨name, [], [.entry mark, .listenTo Lamp.switch (.ofList ["toggle"]), .moveTo "toggle" next]⟩

def quietState : Collected (Entry (Nat × Nat)) :=
  ⟨"Quiet", [], [.listenTo Lamp.switch (.ofList ["toggle"]), .moveTo "toggle" ringing]⟩

def ringingState : Collected (Entry (Nat × Nat)) := ⟨"Ringing", [], [.entry strike]⟩

/-- The lamp goes on and off. -/
theorem visits_lamp {x : Collected (Entry (Nat × Nat))} (visits : program.Visits 32 Lamp.off x) :
    x = lampState "Off" Lamp.on ∨ x = lampState "On" Lamp.off := by
  induction visits with
  | first collects =>
    cases collects
    exact .inl rfl
  | next _ mem collects ih =>
    rcases ih with rfl | rfl
    · simp only [lampState, List.mem_cons, reduceCtorEq, Directive.moveTo.injEq, false_or,
        List.not_mem_nil, or_false] at mem
      obtain ⟨_, rfl⟩ := mem
      cases collects
      exact .inr rfl
    · simp only [lampState, List.mem_cons, reduceCtorEq, Directive.moveTo.injEq, false_or,
        List.not_mem_nil, or_false] at mem
      obtain ⟨_, rfl⟩ := mem
      cases collects
      exact .inl rfl

/-- The bell is quiet, or about to fail. -/
theorem visits_bell {x : Collected (Entry (Nat × Nat))} (visits : program.Visits 32 quiet x) :
    x = quietState ∨ x = ringingState := by
  induction visits with
  | first collects =>
    cases collects
    exact .inl rfl
  | next _ mem collects ih =>
    rcases ih with rfl | rfl
    · simp only [quietState, List.mem_cons, reduceCtorEq, Directive.moveTo.injEq, false_or,
        List.not_mem_nil, or_false] at mem
      obtain ⟨_, rfl⟩ := mem
      cases collects
      exact .inr rfl
    · simp [ringingState] at mem

theorem isPrivate_strike : Entry.IsPrivate cast.own true strike := by
  refine ⟨_, fun token => .update (g := (· + 1)) (fun _ => rfl) ?_ .done⟩
  rintro h (_ | _) other
  · rfl
  · exact absurd rfl other

theorem isPrivate_mark : Entry.IsPrivate cast.own false mark := by
  refine ⟨_, fun token => .onCancel (.update (g := (· + 1)) (fun _ => rfl) ?_ .done) .done⟩
  rintro h (_ | _) other
  · exact absurd rfl other
  · rfl

theorem keepsApart : cast.KeepsApart program world where
  fresh :=
    { machine? := fun _ => rfl
      scope? := fun h => nomatch h
      source? := by
        intro slot source h
        cases slot with
        | zero => cases h; rfl
        | succ slot => cases h }
  emitters slot f := by
    cases slot with
    | zero => nofun
    | succ slot => nofun
  yields key := by
    unfold program
    dsimp only
    split
    · exact ⟨trivial, trivial⟩
    · split
      · exact ⟨trivial, trivial, trivial⟩
      · exact ⟨trivial, trivial, trivial, trivial⟩
  mute _ _ _ := rfl
  entries {bell x} visits a mem := by
    cases bell with
    | true =>
      rcases visits_bell visits with rfl | rfl
      · cases mem
      · exact List.mem_singleton.1 mem ▸ isPrivate_strike
    | false =>
      have same : a = mark := by
        rcases visits_lamp visits with rfl | rfl <;> exact List.mem_singleton.1 mem
      exact same ▸ isPrivate_mark
  observers {bell f} mem := by
    cases bell with
    | true => cases mem
    | false =>
      cases List.mem_singleton.1 mem
      refine ⟨fun _ d => d + 10, fun _ => ⟨_, .update (g := (· + 10)) (fun _ => rfl) ?_ .done,
        fun _ => rfl⟩⟩
      rintro h (_ | _) other
      · exact absurd rfl other
      · rfl

/-- The bell is started first, then the lamp, and the switch is operated twice. -/
def start : Config (Nat × Nat) :=
  { world, host := (0, 0), control := .run (cast.play (fun _ => .ok) cues fun _ => none) }

end House

/-- The lamp goes on and off while the bell fails on the same events, as if there were no bell. -/
theorem Cast.KeepsApart.undisturbed_house :
    House.cast.KeepsApart House.program House.world ∧
      (House.program.run 200 House.start).IsOver ∧
      ((House.program.run 200 House.start).world.sight ⟨⟨1⟩, ⟨1⟩⟩).map (·.snapshot.transitions) =
        some 2 ∧
      (House.program.run 200 House.start).host = (22, 2) ∧
      ∃ w₁ h₁ seats₁ w₂ h₂ seats₂,
        (∀ k later, House.program.Reaches
          ⟨House.world, (0, 0), .run (House.cast.play k (House.cues ++ later) fun _ => none), []⟩
          ⟨w₁, h₁, .run (House.cast.play k later seats₁), []⟩) ∧
        (∀ k later, House.program.Reaches
          ⟨House.world, (0, 0), .run (House.cast.play k
            ((House.cues ++ later).filter (Cue.concerns false)) fun _ => none), []⟩
          ⟨w₂, h₂, .run (House.cast.play k (later.filter (Cue.concerns false)) seats₂), []⟩) ∧
        (seats₁ false).bind w₁.sight = (seats₂ false).bind w₂.sight ∧
        House.cast.own false h₁ = House.cast.own false h₂ :=
  ⟨House.keepsApart, ⟨rfl, .inl ⟨_, rfl⟩⟩, rfl, rfl,
    House.keepsApart.undisturbed false House.cues (0, 0)⟩

end ScopedMachine

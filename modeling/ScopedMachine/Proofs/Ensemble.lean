import ScopedMachine.Proofs.Soloist

/-!
# Several machines that keep to themselves

`Ensemble` says of a world that each of its machines is one that a description fits. An event that
is dispatched reaches the machines one after the other, and while one of them moves its listeners
are removed and new ones are registered on the very source. Each machine still does just what its own
description says of its own listeners.
-/

namespace ScopedMachine

variable {H D ι : Type} {p : Program H} {own : ι → H → D} {i : ι}

/-! ## Where a member stands -/

/-- Where a member stands: its machine is yet to be started, or it has one. -/
inductive Standing (H D : Type) where
  | out (data : D)
  | on (s : Solo H D)

/-- The data of a member. -/
def Standing.data : Standing H D → D
  | .out data => data
  | .on s => s.data

/-- Hear an event once for each listener, as long as the activation of the listeners is there. -/
def Solo.hear (p : Program H) (habits : Habits H D) (e : Event) :
    List SourceId → Solo H D → Solo H D
  | [], s => s
  | source :: sources, s =>
    match s.next? p habits source e.kind with
    | some x => s.move habits x e.kind
    | none => s.hear p habits e sources

/-- A member that has a machine hears an event. -/
def Standing.hear (p : Program H) (habits : Habits H D) (e : Event) (sources : List SourceId) :
    Standing H D → Standing H D
  | .out data => .out data
  | .on s => .on (s.hear p habits e sources)

/-- One member wrote its data, and stands where these are. -/
theorem Writes.update [DecidableEq ι] {standing : ι → Standing H D} {t : Standing H D} {h h' : H}
    (writes : Writes own i t.data h h') (data : ∀ j, own j h = (standing j).data) (j : ι) :
    own j h' = (Function.update standing i t j).data := by
  by_cases same : j = i
  · subst same
    rw [Function.update_self]
    exact writes.mine
  · rw [Function.update_of_ne same]
    exact (writes.others j same).trans (data j)

theorem Standing.hear_nil {habits : Habits H D} {e : Event} {t : Standing H D} :
    t.hear p habits e [] = t := by
  cases t <;> rfl

/-! ## A world of machines -/

/-- The machines of the world are those of the members, each where it stands. -/
structure Ensemble (own : ι → H → D) (habits : ι → Habits H D) (seats : ι → Option Seat)
    (standing : ι → Standing H D) (w : World H) (h : H) : Prop where
  data (i : ι) : own i h = (standing i).data
  out {i : ι} (none : seats i = none) : ∃ data, standing i = .out data
  on {i : ι} {seat : Seat} (some : seats i = some seat) :
    ∃ s, standing i = .on s ∧ w.Seats own i (habits i) seat s
  apart {i j : ι} {x y : Seat} (ne : i ≠ j) (hi : seats i = some x) (hj : seats j = some y) :
    x.machine ≠ y.machine ∧ x.stream ≠ y.stream
  /-- A machine that is nobody's does nothing. -/
  strangers {n : MachineId} (stranger : ∀ i seat, seats i = some seat → seat.machine ≠ n) :
    w.current? n = none
  plain (slot : Nat) : w.IsPlain slot
  /-- There are no listeners but those of machines. -/
  routes {slot : Nat} {r : Registration (Listener H)} (mem : r ∈ w.entries slot) :
    ∃ n source, r.listener = .route n source

namespace Ensemble

variable {habits : ι → Habits H D} {seats : ι → Option Seat} {standing : ι → Standing H D}
  {w w' : World H} {h h' : H}

/-- The data are as they were. -/
theorem quiet (ensemble : Ensemble own habits seats standing w h)
    (same : ∀ j, own j h' = own j h) : Ensemble own habits seats standing w h' :=
  { ensemble with data := fun j => (same j).trans (ensemble.data j) }

/-- All listeners are still those of machines. -/
theorem routes_aside (ensemble : Ensemble own habits seats standing w h) {seat : Seat}
    (aside : w.Aside seat w') {slot : Nat} {r : Registration (Listener H)}
    (mem : r ∈ w'.entries slot) : ∃ n source, r.listener = .route n source :=
  (aside.entry mem).elim ensemble.routes fun ⟨source, route⟩ => ⟨_, source, route⟩

/-- One machine came to fit another description, and nothing else happened. -/
theorem turn [DecidableEq ι] (ensemble : Ensemble own habits seats standing w h) {seat : Seat}
    {s : Solo H D} (mine : seats i = some seat) (aside : w.Aside seat w')
    (writes : Writes own i s.data h h') (fits : w'.Seats own i (habits i) seat s) :
    Ensemble own habits seats (Function.update standing i (.on s)) w' h' where
  data := writes.update ensemble.data
  out {j} none := by
    have other : j ≠ i := by
      rintro rfl
      rw [mine] at none
      cases none
    rw [Function.update_of_ne other]
    exact ensemble.out none
  on {j other} found := by
    by_cases same : j = i
    · subst same
      rw [mine] at found
      cases found
      exact ⟨s, Function.update_self .., fits⟩
    · obtain ⟨t, stands, waits⟩ := ensemble.on found
      obtain ⟨machine, stream⟩ := ensemble.apart same found mine
      rw [Function.update_of_ne same]
      exact ⟨t, stands, waits.aside aside machine stream⟩
  apart := ensemble.apart
  strangers {n} stranger := by
    have same : w'.machine? n = w.machine? n := aside.machine? n (stranger i seat mine).symm
    rw [World.current?, same]
    exact ensemble.strangers stranger
  plain slot := aside.isPlain (ensemble.plain slot)
  routes := ensemble.routes_aside aside

end Ensemble

/-! ## Dispatching an event -/

/-- The listener is one of the machine, and not cancelled. -/
def Registration.call? (seat : Option Seat) (w : World H) (r : Registration (Listener H)) :
    Option SourceId :=
  match seat, r.listener with
  | some seat, .route n source =>
    if n = seat.machine ∧ w.isCancelled r.token = false then some source else none
  | _, _ => none

/-- Listeners that are to be called are those of the current activations, or else are cancelled. -/
def World.Awaits (seats : ι → Option Seat) (w : World H) (r : Registration (Listener H)) : Prop :=
  ∃ i seat source, seats i = some seat ∧ r.listener = .route seat.machine source ∧
    (w.header? r.token = some (true, some seat.machine) ∨
      ∃ a, w.current? seat.machine = some a ∧ a.scope = r.token)

section Dispatching

variable {habits : ι → Habits H D} {seats : ι → Option Seat} {standing : ι → Standing H D}
  {w : World H} {h : H}

/-- How the last listener ended is no matter to the next one. -/
theorem Program.IsMute.dispatching (mute : p.IsMute own) (e : Event) (r : Except Fault Unit)
    (ls : List (Registration (Listener H))) (report : Report) :
    ∃ h' report', (∀ j, own j h' = own j h) ∧ ∀ rest,
      p.step ⟨w, h, .give (.result r), .dispatching e ls report :: rest⟩ =
        some (Config.dispatchNext e ls report' ⟨w, h', .give (.result r), rest⟩) := by
  cases r with
  | ok => exact ⟨h, report, fun _ => rfl, fun _ => rfl⟩
  | error e => exact ⟨_, _, fun j => mute _ h j, fun _ => rfl⟩

theorem Registration.call?_eq_some_iff {seat : Option Seat} {r : Registration (Listener H)}
    {source : SourceId} : r.call? seat w = some source ↔ ∃ x, seat = some x ∧
      r.listener = .route x.machine source ∧ w.isCancelled r.token = false := by
  unfold Registration.call?
  constructor
  · intro calls
    split at calls
    · next x n source' listener =>
      split at calls
      · next mine =>
        obtain ⟨rfl, live⟩ := mine
        cases calls
        exact ⟨x, rfl, listener, live⟩
      · cases calls
    · cases calls
  · rintro ⟨x, rfl, listener, live⟩
    rw [listener]
    exact if_pos ⟨rfl, live⟩

/-- Who is to be called depends on the tokens alone. -/
theorem Registration.call?_congr {seat : Option Seat} {r : Registration (Listener H)} {w' : World H}
    (same : w'.isCancelled r.token = w.isCancelled r.token) : r.call? seat w' = r.call? seat w := by
  unfold Registration.call?
  rw [same]

/-- A machine whose scopes and state stay as they are awaits what it awaited. -/
theorem World.Awaits.mono {w' : World H} {r : Registration (Listener H)} (awaits : w.Awaits seats r)
    (released : ∀ {t owner}, w.header? t = some (true, owner) → w'.header? t = some (true, owner))
    (current : ∀ i seat a, seats i = some seat → w.current? seat.machine = some a →
      w'.current? seat.machine = some a ∨ w'.header? a.scope = some (true, some seat.machine)) :
    w'.Awaits seats r := by
  obtain ⟨i, seat, source, found, listener, cancelled | ⟨a, there, token⟩⟩ := awaits
  · exact ⟨i, seat, source, found, listener, .inl (released cancelled)⟩
  · refine ⟨i, seat, source, found, listener, ?_⟩
    rcases current i seat a found there with still | gone
    · exact .inr ⟨a, still, token⟩
    · exact .inl (token ▸ gone)

/-- No listener of a machine that left its state is called any more. -/
theorem World.Awaits.call?_left {seat : Seat} {w' : World H} {a : Activation H}
    {r : Registration (Listener H)} (awaits : w.Awaits seats r) (mine : seats i = some seat)
    (current : w.current? seat.machine = some a)
    (left : w'.header? a.scope = some (true, some seat.machine))
    (released : ∀ {t owner}, w.header? t = some (true, owner) → w'.header? t = some (true, owner)) :
    r.call? (seats i) w' = none := by
  refine Option.eq_none_iff_forall_ne_some.2 fun source calls => ?_
  obtain ⟨x, hx, listener, live⟩ := Registration.call?_eq_some_iff.1 calls
  rw [mine] at hx
  cases hx
  obtain ⟨k, y, source', _, listener', outcome⟩ := awaits
  rw [listener] at listener'
  obtain ⟨same, _⟩ := Listener.route.inj listener'
  rw [← same] at outcome
  have gone : w'.header? r.token = some (true, some seat.machine) := by
    rcases outcome with cancelled | ⟨b, current', token⟩
    · exact released cancelled
    · rw [current] at current'
      cases current'
      exact token ▸ left
  obtain ⟨owner, live⟩ := World.isCancelled_eq_false_iff.1 live
  rw [gone] at live
  cases live

namespace Ensemble

/-- The current activation of a machine lives in a live scope. -/
theorem live_of_current (ensemble : Ensemble own habits seats standing w h) {seat : Seat}
    {a : Activation H} (mine : seats i = some seat) (current : w.current? seat.machine = some a) :
    w.header? a.scope = some (false, some seat.machine) := by
  obtain ⟨s, _, cell, plays, _⟩ := ensemble.on mine
  rw [World.current?, plays.found] at current
  exact (plays.current current).2.1

/-- The listener of a machine is not one of another member's. -/
theorem call?_other (ensemble : Ensemble own habits seats standing w h) {seat : Seat} {j : ι}
    (mine : seats i = some seat) (other : j ≠ i) {r : Registration (Listener H)} {source : SourceId}
    (listener : r.listener = .route seat.machine source) (v : World H) :
    r.call? (seats j) v = none := by
  refine Option.eq_none_iff_forall_ne_some.2 fun source' calls => ?_
  obtain ⟨y, hy, listener', _⟩ := Registration.call?_eq_some_iff.1 calls
  rw [listener] at listener'
  exact (ensemble.apart other hy mine).1 (Listener.route.inj listener').1.symm

/-- Who awaits a call of another machine still awaits it after one machine moved. -/
theorem call?_aside (ensemble : Ensemble own habits seats standing w h) {seat : Seat} {w' : World H}
    {j : ι} (mine : seats i = some seat) (other : j ≠ i) (aside : w.Aside seat w')
    (released : ∀ {t owner}, w.header? t = some (true, owner) → w'.header? t = some (true, owner))
    {r : Registration (Listener H)} (awaits : w.Awaits seats r) :
    r.call? (seats j) w' = r.call? (seats j) w := by
  obtain ⟨k, x, source, found, listener, outcome⟩ := awaits
  by_cases same : k = i
  · -- the listener is one of the machine that moved
    subst same
    rw [mine] at found
    cases found
    rw [ensemble.call?_other mine other listener, ensemble.call?_other mine other listener]
  · refine Registration.call?_congr ?_
    rcases outcome with cancelled | ⟨a, current, token⟩
    · exact World.isCancelled_congr ((released cancelled).trans cancelled.symm)
    · have live := ensemble.live_of_current found current
      rw [token] at live
      have still := (aside.header? live (ensemble.apart same found mine).1).1
      exact World.isCancelled_congr (still.trans live.symm)

variable [DecidableEq ι] (suits : ∀ i, (habits i).Suits p own i) (yields : p.Yields fun _ => True)
  (mute : p.IsMute own)
include suits yields mute

/-- One listener is called, and whoever awaits a call awaits it still. -/
theorem leads_call (ensemble : Ensemble own habits seats standing w h) {seat : Seat}
    {r : Registration (Listener H)} {ls : List (Registration (Listener H))} {source : SourceId}
    (mine : seats i = some seat) (listener : r.listener = .route seat.machine source)
    (live : w.isCancelled r.token = false) (awaits : ∀ l ∈ r :: ls, w.Awaits seats l) (e : Event) :
    ∃ w' h' standing' result, Ensemble own habits seats standing' w' h' ∧
      (∀ l ∈ ls, w'.Awaits seats l) ∧
      (∀ j, (standing' j).hear p (habits j) e (ls.filterMap (·.call? (seats j) w')) =
        (standing j).hear p (habits j) e ((r :: ls).filterMap (·.call? (seats j) w))) ∧
      ∀ ctl rest, p.Leads (Config.forward seat.machine source e ⟨w, h, ctl, rest⟩)
        ⟨w', h', .give (.result result), rest⟩ := by
  obtain ⟨s, stands, fits⟩ := ensemble.on mine
  have data : own i h = s.data := by rw [ensemble.data i, stands]; rfl
  obtain ⟨w', h', result, fits', writes, aside, released, outcome, leads⟩ :=
    fits.leads_forward (suits i) yields mute ensemble.plain data source e
  have awaiting := List.forall_mem_cons.1 awaits
  obtain ⟨a, current, token⟩ : ∃ a, w.current? seat.machine = some a ∧ a.scope = r.token := by
    obtain ⟨k, x, _, _, listener', outcome⟩ := awaiting.1
    rw [listener] at listener'
    rw [← (Listener.route.inj listener').1] at outcome
    refine outcome.resolve_left fun gone => ?_
    obtain ⟨owner, live⟩ := World.isCancelled_eq_false_iff.1 live
    rw [gone] at live
    cases live
  have others {j : ι} (other : j ≠ i) :
      ls.filterMap (·.call? (seats j) w') = (r :: ls).filterMap (·.call? (seats j) w) := by
    rw [List.filterMap_cons, ensemble.call?_other mine other listener w]
    exact List.filterMap_congr fun l mem =>
      ensemble.call?_aside mine other aside released (awaiting.2 l mem)
  have first : (r :: ls).filterMap (·.call? (seats i) w) =
      source :: ls.filterMap (·.call? (seats i) w) := by
    rw [List.filterMap_cons,
      Registration.call?_eq_some_iff.2 ⟨seat, mine, listener, live⟩]
  refine ⟨w', h', _, result, ensemble.turn mine aside writes fits', fun l mem => ?_, fun j => ?_,
    leads⟩
  · refine (awaiting.2 l mem).mono released fun j x b found there => ?_
    by_cases same : j = i
    · subst same
      rw [mine] at found
      cases found
      split at outcome
      · exact .inr (outcome b there)
      · exact .inl (outcome.2.trans there)
    · refine .inl ?_
      rw [World.current?, aside.machine? _ (ensemble.apart same found mine).1]
      exact there
  · by_cases same : j = i
    · subst same
      rw [Function.update_self, first, stands]
      simp only [Standing.hear, Solo.react, Solo.hear]
      cases next : s.next? p (habits j) source e.kind with
      | some x =>
        rw [next] at outcome
        have silent : ls.filterMap (·.call? (seats j) w') = [] :=
          List.filterMap_eq_nil_iff.2 fun l mem =>
            (awaiting.2 l mem).call?_left mine current (outcome a current) released
        rw [silent, Solo.hear]
      | none =>
        rw [next] at outcome
        have same : ls.filterMap (·.call? (seats j) w') = ls.filterMap (·.call? (seats j) w) :=
          List.filterMap_congr fun l _ => Registration.call?_congr
            (World.isCancelled_congr (World.header?_congr outcome.1))
        rw [same]
    · rw [Function.update_of_ne same, others same]

/-- An event is dispatched, and every member hears it as often as it has listeners for it. -/
theorem leads_dispatching (ensemble : Ensemble own habits seats standing w h)
    {ls : List (Registration (Listener H))} (awaits : ∀ l ∈ ls, w.Awaits seats l) (e : Event)
    (r : Except Fault Unit) (report : Report) :
    ∃ w' h' standing' report', Ensemble own habits seats standing' w' h' ∧
      (∀ j, standing' j =
        (standing j).hear p (habits j) e (ls.filterMap (·.call? (seats j) w))) ∧
      ∀ rest, p.Leads ⟨w, h, .give (.result r), .dispatching e ls report :: rest⟩
        ⟨w', h', .give (.report report'), rest⟩ := by
  induction ls generalizing w h standing r report with
  | nil =>
    obtain ⟨h', report', same, goes⟩ := mute.dispatching (w := w) (h := h) e r [] report
    exact ⟨w, h', standing, report', ensemble.quiet same, fun _ => Standing.hear_nil.symm,
      fun rest => .single rfl (goes rest)⟩
  | cons l ls ih =>
    obtain ⟨h₁, report₁, same, goes⟩ := mute.dispatching (w := w) (h := h) e r (l :: ls) report
    have ensemble₁ := ensemble.quiet same
    cases live : w.isCancelled l.token with
    | true =>
      obtain ⟨w', h', standing', report', ensemble', hears, leads⟩ :=
        ih ensemble₁ (List.forall_mem_cons.1 awaits).2 (.ok ()) report₁
      have passes (rest : List (Frame H)) :
          Config.dispatchNext e (l :: ls) report₁ ⟨w, h₁, .give (.result r), rest⟩ =
            ⟨w, h₁, .give (.result (.ok ())), .dispatching e ls report₁ :: rest⟩ := by
        rw [Config.dispatchNext, if_pos live]
        rfl
      refine ⟨w', h', standing', report', ensemble', fun j => ?_,
        fun rest => .head rfl ((goes rest).trans (congrArg some (passes rest))) (leads rest)⟩
      have none : l.call? (seats j) w = none := by
        refine Option.eq_none_iff_forall_ne_some.2 fun source calls => ?_
        obtain ⟨_, _, _, open_⟩ := Registration.call?_eq_some_iff.1 calls
        rw [live] at open_
        cases open_
      rw [hears, List.filterMap_cons, none]
    | false =>
      obtain ⟨i, seat, source, mine, listener, _⟩ := awaits l List.mem_cons_self
      let report₂ : Report := { report₁ with delivered := report₁.delivered + 1 }
      obtain ⟨w₂, h₂, standing₂, result, ensemble₂, awaits₂, hears₂, calls⟩ :=
        ensemble₁.leads_call suits yields mute mine listener live awaits e
      obtain ⟨w', h', standing', report', ensemble', hears, leads⟩ :=
        ih ensemble₂ awaits₂ result report₂
      have turns (rest : List (Frame H)) :
          Config.dispatchNext e (l :: ls) report₁ ⟨w, h₁, .give (.result r), rest⟩ =
            Config.forward seat.machine source e
              ⟨w, h₁, .give (.result r), .dispatching e ls report₂ :: rest⟩ := by
        rw [Config.dispatchNext, if_neg (Bool.eq_false_iff.1 live), listener]
        rfl
      exact ⟨w', h', standing', report', ensemble', fun j => (hears j).trans (hears₂ j),
        fun rest => .head rfl ((goes rest).trans (congrArg some (turns rest)))
          ((calls _ _).trans (leads rest))⟩

end Ensemble

end Dispatching

/-! ## Emitting an event -/

/-- The listeners that a machine has for an event type on a source, as its description says. -/
def Solo.lines (slot : Nat) (kind : String) (s : Solo H D) : List SourceId :=
  match s.facts.current with
  | some x =>
    ((ScopedMachine.lines slot (RouteTable.build x.directives).routes).filter (·.1 == kind)).map
      Prod.snd
  | none => []

/-- An event is emitted on a source. -/
def Standing.emit (p : Program H) (habits : Habits H D) (slot : Nat) (e : Event) :
    Standing H D → Standing H D
  | .out data => .out data
  | .on s => .on (s.hear p habits e (s.lines slot e.kind))

section Emitting

variable {habits : ι → Habits H D} {seats : ι → Option Seat} {standing : ι → Standing H D}
  {w : World H} {past : List (Config H)} {c : Config H}

/-- At rest the listeners that await an event are those of the current activations. -/
theorem Ensemble.awaits (run : p.Run w past c) (calm : ∀ x ∈ past, x.IsCalm) (rest : c.AtRest)
    (ensemble : Ensemble own habits seats standing c.world c.host) {slot : Nat}
    {r : Registration (Listener H)} (mem : r ∈ c.world.entries slot) : c.world.Awaits seats r := by
  obtain ⟨n, source, listener⟩ := ensemble.routes mem
  obtain ⟨a, current, token⟩ :=
    (run.current_or_lost_of_entry (.inl rest) mem listener).resolve_right (not_lost_of_calm calm)
  by_contra nobody
  have none := ensemble.strangers (n := n) fun i seat mine same => nobody
    ⟨i, seat, source, mine, same ▸ listener, .inr ⟨a, same ▸ current, token⟩⟩
  rw [current] at none
  cases none

/-- At rest a machine has just the listeners that its description says. -/
theorem Ensemble.filterMap_call? (run : p.Run w past c) (calm : ∀ x ∈ past, x.IsCalm)
    (rest : c.AtRest) (ensemble : Ensemble own habits seats standing c.world c.host) {slot : Nat}
    (emitter : ∀ id, w.sourceHeader? slot ≠ some (id, true)) (there : c.world.source? slot ≠ none)
    {seat : Seat} {s : Solo H D} (mine : seats i = some seat) (stands : standing i = .on s)
    (kind : String) :
    ((c.world.entries slot).filter (·.topic == kind)).filterMap (·.call? (seats i) c.world) =
      s.lines slot kind := by
  obtain ⟨t, stands', cell, plays, _⟩ := ensemble.on mine
  cases stands.symm.trans stands'
  have facts : s.facts.current = cell.current.map Activation.collected := by
    rw [← plays.facts]
    rfl
  have current? : c.world.current? seat.machine = cell.current := by
    rw [World.current?, plays.found]
    rfl
  have token {r : Registration (Listener H)} (mem : r ∈ c.world.entries slot) {source : SourceId}
      (listener : r.listener = .route seat.machine source) :
      ∃ a, cell.current = some a ∧ a.scope = r.token :=
    current? ▸ (run.current_or_lost_of_entry (.inl rest) mem listener).resolve_right
      (not_lost_of_calm calm)
  rw [Solo.lines, facts]
  cases current : cell.current with
  | none =>
    refine List.filterMap_eq_nil_iff.2 fun r mem => Option.eq_none_iff_forall_ne_some.2 ?_
    intro source calls
    obtain ⟨x, hx, listener, _⟩ := Registration.call?_eq_some_iff.1 calls
    cases mine.symm.trans hx
    obtain ⟨a, current', _⟩ := token (List.mem_of_mem_filter mem) listener
    rw [current] at current'
    cases current'
  | some a =>
    obtain ⟨routes, live, _⟩ := plays.current current
    have held := Program.Run.mem_grips_of_current (current?.trans current)
    have subscribed : c.world.subscribed seat.machine slot a.scope =
        ScopedMachine.lines slot a.routes.routes :=
      (List.append_nil _).symm.trans (run.subscribedOn emitter _ _ held there)
    rw [routes] at subscribed
    show _ = ((ScopedMachine.lines slot _).filter _).map Prod.snd
    rw [← subscribed, World.subscribed, List.filter_filterMap, List.map_filterMap,
      List.filterMap_filter]
    refine List.filterMap_congr fun r mem => ?_
    rw [mine]
    unfold Registration.call? Registration.route?
    obtain ⟨n, source, listener⟩ := ensemble.routes mem
    by_cases same : n = seat.machine
    · subst same
      obtain ⟨b, current', scope⟩ := token mem listener
      cases current.symm.trans current'
      have open_ : c.world.isCancelled r.token = false :=
        World.isCancelled_eq_false_iff.2 ⟨_, scope ▸ live⟩
      by_cases topic : r.topic = kind <;> simp [listener, open_, scope, topic, Option.filter]
    · simp [listener, same]

/-- An event that is emitted is heard by every machine as its description says. -/
theorem Ensemble.leads_emit [DecidableEq ι] (suits : ∀ i, (habits i).Suits p own i)
    (yields : p.Yields fun _ => True) (mute : p.IsMute own) (emitters : ∀ slot, w.IsPlain slot)
    (slot : Nat) (e : Event) {x : World H} {h : H} {k₀ : Answer → Script H}
    (run : p.Run w past ⟨x, h, .run (.call (.emit slot e) k₀), []⟩)
    (calm : ∀ x ∈ past, x.IsCalm) (ensemble : Ensemble own habits seats standing x h) :
    ∃ w' h' standing' report, Ensemble own habits seats standing' w' h' ∧
      (∀ i, standing' i =
        if (w.source? slot).isSome then (standing i).emit p (habits i) slot e else standing i) ∧
      ∀ k, p.Leads ⟨x, h, .run (.call (.emit slot e) k), []⟩
        ⟨w', h', .run (k (.report report)), []⟩ := by
  have same : (w.source? slot).isSome = (x.source? slot).isSome := by
    have header := congrArg Option.isSome (run.sourceHeader? slot)
    rwa [World.sourceHeader?, World.sourceHeader?, Option.isSome_map, Option.isSome_map, eq_comm]
      at header
  have emitter (id : SourceId) : w.sourceHeader? slot ≠ some (id, true) := by
    intro hosted
    obtain ⟨source, found, header⟩ := Option.map_eq_some_iff.1 hosted
    have plain := emitters slot
    cases kind : source.kind with
    | hosted f => exact plain f (by rw [found, Option.map_some, kind])
    | emitter | timer =>
      have isHosted : source.isHosted = true := congrArg Prod.snd header
      rw [SourceCell.isHosted, kind] at isHosted
      cases isHosted
  rw [same]
  cases found : x.source? slot with
  | none =>
    have silent (k : Answer → Script H) : p.step ⟨x, h, .run (.call (.emit slot e) k), []⟩ =
        some ⟨x, h, .give (.report {}), [.await k]⟩ := by
      simp only [Program.step, Program.call, Config.push, Config.emit, found]
      rfl
    exact ⟨x, h, standing, {}, ensemble, fun _ => rfl, fun k =>
      .head rfl (silent k) (.single rfl rfl)⟩
  | some source =>
    let ls := (x.entries slot).filter (·.topic == e.kind)
    let h₁ := p.subscriber (.dispatching source.label e.kind) h
    have emits (k : Answer → Script H) : p.step ⟨x, h, .run (.call (.emit slot e) k), []⟩ =
        some ⟨x, h₁, .give (.result (.ok ())), [.dispatching e ls {}, .await k]⟩ := by
      have matching : source.registry.matching e.kind = ls := by
        show _ = (((x.source? slot).map _).getD []).filter _
        rw [found]
        rfl
      simp only [Program.step, Program.call, Config.push, Config.emit, found, matching]
      rfl
    have rest : Config.AtRest ⟨x, h, .run (.call (.emit slot e) k₀), []⟩ := ⟨rfl, .inl ⟨_, rfl⟩⟩
    have awaits : ∀ l ∈ ls, x.Awaits seats l := fun l mem =>
      ensemble.awaits run calm rest (List.mem_of_mem_filter mem)
    obtain ⟨w', h', standing', report, ensemble', hears, leads⟩ :=
      (ensemble.quiet fun j => mute _ h j).leads_dispatching suits yields mute awaits e (.ok ()) {}
    refine ⟨w', h', standing', report, ensemble', fun i => ?_,
      fun k => .head rfl (emits k) ((leads _).trans (.single rfl rfl))⟩
    rw [hears, Option.isSome_some, if_pos rfl]
    cases seated : seats i with
    | none =>
      obtain ⟨data, out⟩ := ensemble.out seated
      rw [out]
      rfl
    | some seat =>
      obtain ⟨s, stands, _⟩ := ensemble.on seated
      have there : x.source? slot ≠ none := by rw [found]; exact Option.some_ne_none _
      rw [← seated, ensemble.filterMap_call? run calm rest emitter there seated stands, stands]
      rfl

end Emitting

end ScopedMachine

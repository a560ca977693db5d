import Mathlib.Data.List.Basic
import ScopedMachine.Proofs.Ledger
import ScopedMachine.Proofs.Posture

/-!
# Events are routed one at a time, in order, exactly once

The inbox of a machine is claimed by the first send, filled by the sends made while that one is under
way, and emptied by it or by a stop. Sends are made from every kind of callback, at any depth. The
machine nevertheless does what a queue on paper does: `Config.queue` is what the machine has yet to
route, and each step does to it what the deed of the step says. Only a panic that ends the first send
empties the queue without a deed; `Config.posting?` is what a ledger has to know of a step.
-/

namespace ScopedMachine

variable {H : Type} {p : Program H} {m : MachineId}

/-! ## What is yet to be routed -/

/-- The event that is about to be routed by a machine. -/
def Control.onItsWay (m : MachineId) : Control H → List (SourceId × Event)
  | .route n source e => if n = m then [(source, e)] else []
  | _ => []

/-- The events that a machine has yet to route: the one on its way, then those that wait. -/
def Config.queue (m : MachineId) (c : Config H) : List (SourceId × Event) :=
  c.control.onItsWay m ++ ((c.world.machine? m).map (·.inbox.pending)).getD []

/-- A panic is about to end the send that empties the inbox of a machine. With it go the events that
wait. -/
def Config.spills (m : MachineId) (c : Config H) : Bool :=
  match c.control, c.stack with
  | .panic _, .draining n _ _ :: _ => n = m
  | _, _ => false

/-- What the next step means for the ledger of a machine: what it does to the machine, or that a panic
throws away the events that wait. -/
def Config.posting? (m : MachineId) (c : Config H) : Option Deed :=
  if c.spills m then some .discarded else c.deed? m

/-- What the steps from the given configurations mean for the ledger of a machine. -/
def postings (m : MachineId) (past : List (Config H)) : List Deed :=
  past.filterMap (Config.posting? m)

/-- What a deed does to the events that are yet to be routed. -/
def Shifts : Option Deed → List (SourceId × Event) → List (SourceId × Event) → Prop
  | some (.sent source e), before, after => after = before ++ [(source, e)]
  | some (.routed source e), before, after => before = (source, e) :: after
  | some .discarded, _, after => after = []
  | _, before, after => after = before

namespace Control

variable {ctl : Control H}

theorem onItsWay_of_ne (h : ctl.machine? ≠ some m) : ctl.onItsWay m = [] := by
  cases ctl <;> simp_all [onItsWay]

theorem onItsWay_of_isPlain (plain : ctl.isPlain) : ctl.onItsWay m = [] :=
  onItsWay_of_ne (by rw [machine?_of_isPlain plain]; nofun)

theorem onItsWay_of_isQuiet (quiet : ctl.isQuiet) : ctl.onItsWay m = [] :=
  onItsWay_of_ne (by rw [machine?_of_isQuiet quiet]; nofun)

theorem onItsWay_of_isCallOn (call : ctl.isCallOn m) : ctl.onItsWay m = [] := by
  cases ctl <;> simp_all [isCallOn, onItsWay]

theorem onItsWay_route {source : SourceId} {e : Event} :
    (route m source e : Control H).onItsWay m = [(source, e)] := if_pos rfl

theorem onItsWay_ofRelease {a : Option (Activation H)} : (ofRelease a).onItsWay m = [] := by
  cases a <;> rfl

end Control

section Postings

variable {past : List (Config H)} {c : Config H}

theorem Config.spills_iff :
    c.spills m ↔ ∃ message kind first rest,
      c.control = .panic message ∧ c.stack = .draining m kind first :: rest := by
  constructor
  · intro loses
    rw [spills] at loses
    split at loses
    · next control stack => exact ⟨_, _, _, _, control, of_decide_eq_true loses ▸ stack⟩
    · cases loses
  · rintro ⟨message, kind, first, rest, control, stack⟩
    simp [spills, control, stack]

theorem Config.posting?_of_isCalm (calm : c.IsCalm) : c.posting? m = c.deed? m := by
  have keeps : ¬c.spills m := by
    rw [Config.spills_iff]
    rintro ⟨message, _, _, _, panics, _⟩
    exact calm message panics
  exact if_neg keeps

theorem Config.posting?_of_isOver (ended : c.IsOver) : c.posting? m = none := by
  have keeps : ¬c.spills m := by
    rw [Config.spills_iff]
    rintro ⟨_, _, _, _, _, stack⟩
    rw [ended.1] at stack
    cases stack
  rw [posting?, if_neg keeps, Config.deed?_of_isOver ended]

theorem postings_concat : postings m (past ++ [c]) = postings m past ++ (c.posting? m).toList := by
  cases h : c.posting? m <;> simp [postings, h]

/-- Without a panic the ledger knows the deeds only. -/
theorem postings_of_calm (calm : ∀ x ∈ past, x.IsCalm) : postings m past = deeds m past :=
  List.filterMap_congr fun x mem => Config.posting?_of_isCalm (calm x mem)

end Postings

/-- Every turn of a machine shifts the events that it has yet to route as its deed says, unless it
throws them away. -/
theorem Turn.shifts {w : World H} {d : Option Deed} {e : Effect H} {cell cell' : MachineCell H}
    {ctl ctl' : Control H} {pops pushes : List (Frame H)}
    (turn : Turn p w m d e ⟨cell, ctl, pops⟩ ⟨cell', ctl', pushes⟩)
    (keeps : ∀ message kind first, ctl = .panic message → pops ≠ [.draining m kind first])
    (pending : cell.inbox.pending ≠ [] → cell.inbox.draining) :
    Shifts d (ctl.onItsWay m ++ cell.inbox.pending) (ctl'.onItsWay m ++ cell'.inbox.pending) := by
  have same {ctl₁ ctl₂ : Control H} {cell₁ cell₂ : MachineCell H}
      (before : ctl₁.onItsWay m = []) (after : ctl₂.onItsWay m = [])
      (inbox : cell₂.inbox.pending = cell₁.inbox.pending) :
      ctl₂.onItsWay m ++ cell₂.inbox.pending = ctl₁.onItsWay m ++ cell₁.inbox.pending := by
    rw [before, after, inbox]
  cases turn with
  | pin alive quiet call sheds =>
    exact same (Control.onItsWay_of_isQuiet quiet) (Control.onItsWay_of_isCallOn call) rfl
  | enqueue busy plain =>
    rw [Control.onItsWay_of_isPlain plain]
    rfl
  | claim idle =>
    have none : cell.inbox.pending = [] := by
      by_cases none : cell.inbox.pending = []
      · exact none
      · rw [pending none] at idle; cases idle
    simp [Shifts, Control.onItsWay, MachineCell.beginDraining, none]
  | next head =>
    obtain ⟨rest, hp⟩ := List.head?_eq_some_iff.1 head
    rw [Control.onItsWay_route]
    simp only [Shifts, Control.onItsWay, MachineCell.dequeue, hp]
    rfl
  | finish empty plain => exact same rfl (Control.onItsWay_of_isPlain plain) rfl
  | ignore plain =>
    rw [Control.onItsWay_of_isPlain plain, Control.onItsWay_route]
    rfl
  | look =>
    rw [Control.onItsWay_route]
    rfl
  | stopped plain =>
    rw [Control.onItsWay_of_isPlain plain]
    rfl
  | unwindDraining => exact absurd rfl (keeps _ _ _ rfl)
  | enter enters => cases enters <;> exact same rfl rfl rfl
  | _ =>
    apply same <;> first
      | rfl
      | exact Control.onItsWay_ofRelease
      | exact Control.onItsWay_of_isPlain ‹_›
      | exact Control.onItsWay_of_isQuiet ‹_›

/-- So does every step. -/
theorem Move.shifts {c c' : Config H} (move : Move p c c') (poised : c.Poised m)
    (keeps : ¬c.spills m) : Shifts (c.deed? m) (c.queue m) (c'.queue m) := by
  cases move.outlook m with
  | spared machine frames deed control control' =>
    rw [deed]
    simp only [Shifts, Config.queue, machine, Control.onItsWay_of_ne control,
      Control.onItsWay_of_ne control']
  | start signal new found deed blank control frames =>
    obtain ⟨settings, manager, rfl⟩ := blank
    simp only [Config.Poised, new] at poised
    rw [deed]
    have idle : c'.control.onItsWay m = [] :=
      Control.onItsWay_of_ne (by simp [control])
    simp [Shifts, Config.queue, new, found, idle, Control.onItsWay_of_ne poised.2]
  | turn pops pushes rest found found' turn before after =>
    simp only [Config.queue, found, found', Option.map_some, Option.getD_some]
    refine turn.shifts (fun message kind first panics top => keeps ?_) (poised.posture found).pending
    rw [top] at before
    exact Config.spills_iff.2 ⟨message, kind, first, rest, panics, before⟩

/-- Nothing is left of what a panic throws away. -/
theorem Program.queue_of_spills {c c' : Config H} (h : p.step c = some c') (spills : c.spills m) :
    c'.queue m = [] := by
  obtain ⟨message, kind, first, rest, panics, stack⟩ := Config.spills_iff.1 spills
  obtain ⟨w, host, ctl, fs⟩ := c
  cases panics
  cases stack
  cases h
  simp only [Config.queue, Config.panic, Config.mapWorld, Control.onItsWay, List.nil_append,
    World.machine?_modifyMachine, if_true]
  cases w.machine? m <;> rfl

/-! ## The inbox is a queue -/

namespace Ledger

variable {l : Ledger} {q q' : List (SourceId × Event)} {d : Deed}

/-- What waits in a ledger are these events. -/
def Tracks (l : Ledger) (q : List (SourceId × Event)) : Prop :=
  l.waiting.map (l.sent[·]?) = q.map some

theorem Tracks.enter (sound : l.Sound) (tracks : l.Tracks q) (shifts : Shifts (some d) q q') :
    ∃ l', l.enter? d = some l' ∧ l'.Tracks q' := by
  unfold Tracks at tracks
  cases d with
  | sent source e =>
    refine ⟨_, rfl, ?_⟩
    have old : l.waiting.map ((l.sent ++ [(source, e)])[·]?) = q.map some := by
      rw [← tracks]
      apply List.map_congr_left
      intro n hn
      have lt : n < l.sent.length := sound.lt_length (List.mem_append_right _ hn)
      exact List.getElem?_append_left lt
    simp only [Shifts] at shifts
    simp [Tracks, old, shifts]
  | routed source e =>
    simp only [Shifts] at shifts
    rw [shifts, List.map_cons] at tracks
    cases hw : l.waiting with
    | nil => rw [hw] at tracks; cases tracks
    | cons n rest =>
      rw [hw, List.map_cons, List.cons.injEq] at tracks
      refine ⟨{ l with routed := l.routed ++ [n], waiting := rest }, ?_, tracks.2⟩
      simp only [enter?, hw, tracks.1, if_true]
  | discarded =>
    simp only [Shifts] at shifts
    exact ⟨_, rfl, by rw [shifts]; rfl⟩
  | began state => simp only [Shifts] at shifts; exact ⟨l, rfl, by rw [shifts]; exact tracks⟩
  | committed change => simp only [Shifts] at shifts; exact ⟨l, rfl, by rw [shifts]; exact tracks⟩
  | told number change =>
    simp only [Shifts] at shifts; exact ⟨l, rfl, by rw [shifts]; exact tracks⟩

end Ledger

namespace Program.Run

variable {w : World H} {past : List (Config H)} {c : Config H}

theorem shifts {c' : Config H} (run : p.Run w past c) (h : p.step c = some c') :
    Shifts (c.posting? m) (c.queue m) (c'.queue m) := by
  by_cases spills : c.spills m
  · rw [Config.posting?, if_pos spills]
    exact Program.queue_of_spills h spills
  · rw [Config.posting?, if_neg spills]
    exact (run.move h).shifts (run.poised m) spills

/-- What becomes of the events sent to a machine is what a queue does with them, and what waits in the
queue is what the machine has yet to route. -/
theorem tracks (run : p.Run w past c) :
    ∃ l, Ledger.read? (postings m past) = some l ∧ l.Tracks (c.queue m) := by
  induction run with
  | begin fresh host s =>
    refine ⟨{}, rfl, ?_⟩
    simp [Ledger.Tracks, Config.queue, Control.onItsWay, fresh.machine? m]
  | @step past c c' run h ih =>
    obtain ⟨l, read, tracks⟩ := ih
    have shifts := run.shifts (m := m) h
    rw [postings_concat]
    cases hd : c.posting? m with
    | none =>
      rw [hd] at shifts
      refine ⟨l, by simpa using read, ?_⟩
      rw [show c'.queue m = c.queue m from shifts]
      exact tracks
    | some d =>
      rw [hd] at shifts
      obtain ⟨l', enter, tracks'⟩ := tracks.enter (Ledger.sound_of_read? read) shifts
      refine ⟨l', ?_, tracks'⟩
      rw [Option.toList_some, Ledger.read?_concat, read]
      exact enter
  | @resume past c run ended host s ih =>
    obtain ⟨l, read, tracks⟩ := ih
    rw [postings_concat, Config.posting?_of_isOver ended]
    refine ⟨l, by simpa using read, ?_⟩
    obtain ⟨_, ⟨a, ha⟩ | ⟨message, hm⟩⟩ := ended
    · simpa [Config.queue, Control.onItsWay, ha] using tracks
    · simpa [Config.queue, Control.onItsWay, hm] using tracks

end Program.Run

/-! ## What an event is routed against -/

/-- The target that an event leads to, if it leads anywhere; of several the first one is taken. -/
def Resolution.target? : Resolution → Option Definition
  | .unmatched => none
  | .matched target | .ambiguous target _ => some target

/-- The target of an event according to the current activation of a machine that runs. -/
def MachineCell.target? (source : SourceId) (type : String) (cell : MachineCell H) :
    Option Definition :=
  if cell.status = .running ∧ cell.terminal = false then
    cell.current.bind fun a => (a.routes.resolve source type).target?
  else none

/-- To route an event is to collect its target, or to ignore it if there is none. -/
theorem Program.step_route {c : Config H} {cell : MachineCell H} {source : SourceId} {e : Event}
    (found : c.world.machine? m = some cell) (routes : c.control = .route m source e) :
    ∃ host, p.step c = some (match cell.target? source e.kind with
      | some target =>
        ⟨c.world, host, .gather (p.collect cell.settings.delegationLimit target),
          .collecting (.transition m e.kind) :: c.stack⟩
      | none => ⟨c.world, host, .give (.delivered (.ok .ignored)), c.stack⟩) := by
  simp only [Program.step, routes, Config.performRoute, found, MachineCell.target?]
  by_cases running : cell.status = .running
  · cases current : cell.current with
    | none => exact ⟨c.host, by simp [running]; rfl⟩
    | some a =>
      cases terminal : cell.terminal with
      | true => exact ⟨_, by simp [running]; rfl⟩
      | false =>
        cases resolves : a.routes.resolve source e.kind with
        | unmatched => exact ⟨_, by simp [running, resolves, Resolution.target?]; rfl⟩
        | matched target => exact ⟨_, by simp [running, resolves, Resolution.target?]; rfl⟩
        | ambiguous target candidates =>
          exact ⟨_, by simp [running, resolves, Resolution.target?]; rfl⟩
  · exact ⟨c.host, by simp [running]; rfl⟩

/-! ## The law of the inbox -/

/-- Whether a send to a machine is under way. -/
def Config.IsSending (m : MachineId) (c : Config H) : Prop :=
  ∃ kind first, Frame.draining m kind first ∈ c.stack

/-- The number of events that a machine is routing. -/
def Config.routings (m : MachineId) (c : Config H) : Nat :=
  (roles m c.stack).countP Role.isTransit + (c.control.onItsWay m).length

theorem mem_roles_drain {fs : List (Frame H)} :
    .drain ∈ roles m fs ↔ ∃ kind first, Frame.draining m kind first ∈ fs := by
  simp only [roles, List.mem_filterMap, List.mem_filter, Frame.concerns_iff]
  constructor
  · rintro ⟨f, ⟨hf, hm⟩, hr⟩
    cases f with
    | draining n kind first => cases hm; exact ⟨kind, first, hf⟩
    | collecting purpose => cases purpose <;> cases hr
    | activating _ _ _ stage | subscribing _ _ _ stage | abandoning _ _ _ stage =>
      cases stage <;> cases hr
    | _ => cases hr
  · rintro ⟨kind, first, hf⟩
    exact ⟨_, ⟨hf, rfl⟩, rfl⟩

/-- How a machine deals with the events sent to it, at one instant of a run. -/
structure Orderly (p : Program H) (m : MachineId) (past : List (Config H)) (c : Config H) :
    Prop where
  /-- At most one event is being routed. -/
  routings : c.routings m ≤ 1
  /-- Events wait only while the inbox is claimed. -/
  claimed {cell : MachineCell H} (found : c.world.machine? m = some cell)
    (waits : cell.inbox.pending ≠ []) : cell.inbox.draining
  /-- The events are numbered as they are sent. Every number was routed, or thrown away by a stop
  that came before its turn, or waits; it is one of the three and that only once. The numbers are
  routed in order, and when no send is under way none is left. -/
  ledger : ∃ l, Ledger.read? (deeds m past) = some l ∧
    l.sent = (deeds m past).filterMap Deed.sent? ∧
    l.routedEvents = ((deeds m past).filterMap Deed.routed?).map some ∧
    l.routed.Pairwise (· < ·) ∧
    (l.routed ++ l.discarded ++ l.waiting).Perm (List.range l.sent.length) ∧
    l.Tracks (c.queue m) ∧ (¬c.IsSending m → l.waiting = [])
  /-- When no send is under way the inbox is empty and not claimed. -/
  idle {cell : MachineCell H} (found : c.world.machine? m = some cell)
    (ended : ¬c.IsSending m) : cell.inbox = {}
  /-- A send that is made while another one is under way answers at once that the event is queued;
  any other one claims the inbox and goes on with its own event. -/
  sends {source : SourceId} {e : Event} (h : c.control = .send m source e) :
    ∃ c', p.step c = some c' ∧
      (c.IsSending m → c'.control = .give (.delivered (.ok .queued)) ∧ c'.stack = c.stack) ∧
      (¬c.IsSending m → c'.control = .route m source e ∧
        c'.stack = .draining m e.kind none :: c.stack)
  /-- An event is routed against the activation that is current when its turn comes, and there is
  one as long as the machine runs. -/
  routes {source : SourceId} {e : Event} (h : c.control = .route m source e) :
    ∃ cell host, c.world.machine? m = some cell ∧
      (cell.status = .running → cell.current.isSome) ∧
      p.step c = some (match cell.target? source e.kind with
        | some target =>
          ⟨c.world, host, .gather (p.collect cell.settings.delegationLimit target),
            .collecting (.transition m e.kind) :: c.stack⟩
        | none => ⟨c.world, host, .give (.delivered (.ok .ignored)), c.stack⟩)

namespace Program.Run

variable {w : World H} {past : List (Config H)} {c : Config H}

theorem routings_le (run : p.Run w past c) : c.routings m ≤ 1 := by
  have poised := run.poised m
  unfold Config.Poised at poised
  split at poised
  · next cell found =>
    unfold Config.routings
    by_cases way : c.control.machine? = some m
    · cases hc : c.control with
      | route n source e =>
        rw [hc] at way poised
        cases way
        -- the event is about to be routed by the drain on top, so nothing else can be in transit
        have head := poised.fits rfl
        obtain ⟨rs, hrs⟩ := List.head?_eq_some_iff.1 head
        rw [hrs] at poised ⊢
        have none : rs.countP Role.isTransit = 0 := by
          rw [List.countP_eq_zero]
          intro q hq
          simp [poised.isTransit_eq_false_of_drain hq]
        rw [Control.onItsWay_route, List.countP_cons, none]
        simp [Role.isTransit]
      | _ => exact poised.countP_isTransit_le
    · rw [Control.onItsWay_of_ne way]
      exact poised.countP_isTransit_le
  · obtain ⟨frames, control⟩ := poised
    have none : roles m c.stack = [] := congrArg (List.filterMap Frame.role?) frames
    simp [Config.routings, none, Control.onItsWay_of_ne control]

theorem inbox_eq {cell : MachineCell H} (run : p.Run w past c)
    (found : c.world.machine? m = some cell) (ended : ¬c.IsSending m) : cell.inbox = {} := by
  have posture := (run.poised m).posture found
  exact posture.inbox_eq fun h => ended (mem_roles_drain.1 h)

theorem queue_eq (run : p.Run w past c) (ended : ¬c.IsSending m) : c.queue m = [] := by
  have poised := run.poised m
  unfold Config.Poised at poised
  split at poised
  · next cell found =>
    simp only [Config.queue, found, Option.map_some, Option.getD_some, run.inbox_eq found ended]
    rw [List.append_nil]
    cases hc : c.control with
    | route n source e =>
      by_cases hn : n = m
      · subst hn
        rw [hc] at poised
        have head := poised.fits rfl
        exact absurd (mem_roles_drain.1 (List.mem_of_head? head)) ended
      · exact if_neg hn
    | _ => rfl
  · next missing =>
    simp [Config.queue, missing, Control.onItsWay_of_ne poised.2]

theorem draining_iff {cell : MachineCell H} (run : p.Run w past c)
    (found : c.world.machine? m = some cell) : cell.inbox.draining ↔ c.IsSending m := by
  have drains := ((run.poised m).posture found).drains
  rw [Config.IsSending, ← mem_roles_drain, ← List.count_pos_iff, drains]
  cases cell.inbox.draining <;> simp

theorem sends (run : p.Run w past c) {source : SourceId} {e : Event}
    (h : c.control = .send m source e) :
    ∃ c', p.step c = some c' ∧
      (c.IsSending m → c'.control = .give (.delivered (.ok .queued)) ∧ c'.stack = c.stack) ∧
      (¬c.IsSending m → c'.control = .route m source e ∧
        c'.stack = .draining m e.kind none :: c.stack) := by
  obtain ⟨cell, found⟩ := run.grounded.control (by rw [h]; rfl)
  have claimed := run.draining_iff found
  refine ⟨c.performSend p m source e, by rw [Program.step, h], fun sending => ?_, fun ended => ?_⟩
  · rw [Config.performSend, found]
    simp only [claimed.2 sending, if_true]
    exact ⟨rfl, rfl⟩
  · rw [Config.performSend, found]
    have free : cell.inbox.draining = false := Bool.eq_false_iff.2 fun h => ended (claimed.1 h)
    simp only [free, Bool.false_eq_true, if_false]
    exact ⟨rfl, rfl⟩

theorem routes (run : p.Run w past c) (calm : ∀ x ∈ past, x.IsCalm) {source : SourceId}
    {e : Event} (h : c.control = .route m source e) :
    ∃ cell host, c.world.machine? m = some cell ∧
      (cell.status = .running → cell.current.isSome) ∧
      p.step c = some (match cell.target? source e.kind with
        | some target =>
          ⟨c.world, host, .gather (p.collect cell.settings.delegationLimit target),
            .collecting (.transition m e.kind) :: c.stack⟩
        | none => ⟨c.world, host, .give (.delivered (.ok .ignored)), c.stack⟩) := by
  obtain ⟨cell, found⟩ := run.grounded.control (by rw [h]; rfl)
  have posture := (run.poised m).posture found
  have manned := run.manned (fun ⟨x, mem, ⟨message, panics⟩, _⟩ => calm x mem message panics) found
  obtain ⟨host, step⟩ := p.step_route found h
  refine ⟨cell, host, found, fun running => ?_, step⟩
  -- the drain on top holds the machine, and nothing is in transit above it
  rw [h] at posture manned
  obtain ⟨rs, hrs⟩ := List.head?_eq_some_iff.1 (posture.fits rfl)
  rw [hrs] at posture manned
  refine manned running (posture.isAlive_of_cons nofun) (fun shift => ?_) nofun
  rcases List.mem_cons.1 shift with shift | shift
  · cases shift
  · cases posture.isTransit_eq_false_of_drain shift

/-- In a run in which nothing panics every machine deals with its events in order. -/
theorem orderly (run : p.Run w past c) (calm : ∀ x ∈ past, x.IsCalm) : Orderly p m past c where
  routings := run.routings_le
  claimed found waits := ((run.poised m).posture found).pending waits
  ledger := by
    obtain ⟨l, read, tracks⟩ := run.tracks (m := m)
    rw [postings_of_calm calm] at read
    obtain ⟨sent, routed⟩ := Ledger.events_of_read? read
    have sound := Ledger.sound_of_read? read
    refine ⟨l, read, sent, routed, (List.pairwise_append.1 sound.ordered).1, sound.complete,
      tracks, fun ended => ?_⟩
    rw [Ledger.Tracks, run.queue_eq ended, List.map_nil] at tracks
    exact List.map_eq_nil_iff.1 tracks
  idle found ended := run.inbox_eq found ended
  sends h := run.sends h
  routes h := run.routes calm h

/-- The lamp deals with its events in order. -/
theorem orderly_lamp :
    Lamp.program.Run Lamp.world (Lamp.program.trail 30 Lamp.start)
        (Lamp.program.run 30 Lamp.start) ∧
      (∀ x ∈ Lamp.program.trail 30 Lamp.start, x.IsCalm) ∧
      Orderly Lamp.program ⟨0⟩ (Lamp.program.trail 30 Lamp.start)
        (Lamp.program.run 30 Lamp.start) := by
  have calm : ∀ x ∈ Lamp.program.trail 30 Lamp.start, x.IsCalm := by decide
  exact ⟨Lamp.run 30, calm, orderly (Lamp.run 30) calm⟩

end Program.Run

end ScopedMachine

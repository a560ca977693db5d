import ScopedMachine.Proofs.Custody
import ScopedMachine.Proofs.Inbox

/-!
# A machine that was stopped

A stop may come in the middle of anything: of a collection, of the entry actions of a state, of a
restore, of the call of an observer. What was under way goes on, but nothing of it reaches the machine
any more. `Turn.stays` says so for one step; the rest follows for every later instant.
-/

namespace ScopedMachine

variable {H : Type} {p : Program H} {m : MachineId}

/-! ## Steps -/

theorem mem_roles_stop {fs : List (Frame H)} : .stop ∈ roles m fs ↔ .stopping m ∈ fs := by
  simp only [roles, List.mem_filterMap, List.mem_filter, Frame.concerns_iff]
  constructor
  · rintro ⟨f, ⟨hf, hm⟩, hr⟩
    cases f with
    | stopping n => cases hm; exact hf
    | collecting purpose => cases purpose <;> cases hr
    | activating _ _ _ stage | subscribing _ _ _ stage | abandoning _ _ _ stage =>
      cases stage <;> cases hr
    | _ => cases hr
  · intro hf
    exact ⟨_, ⟨hf, rfl⟩, rfl⟩

/-- A stop begins when a machine is stopped that was not. -/
theorem Turn.begins_stop {w : World H} {d : Option Deed} {e : Effect H} {cell cell' : MachineCell H}
    {ctl ctl' : Control H} {pops pushes : List (Frame H)}
    (turn : Turn p w m d e ⟨cell, ctl, pops⟩ ⟨cell', ctl', pushes⟩)
    (stop : .stop ∈ roles m pushes) : cell.status ≠ .stopped ∧ cell'.status = .stopped := by
  cases turn with
  | stop running => exact ⟨running, rfl⟩
  | @pin _ _ _ _ pushes alive quiet call sheds =>
    obtain ⟨_, hpushes⟩ := sheds.filter (m := m)
    rw [roles_holding, roles, hpushes] at stop
    simp at stop
  | hold held quiet plain inert | drop held alive quiet plain inert
  | dropLast held dead quiet inert | observe live held quiet plain inert =>
    simp [roles_of_isPlain inert] at stop
  | @enter _ _ _ _ stage | @entered _ _ _ stage | @fail _ _ _ stage | @subscribe _ _ _ _ _ stage
  | @subscribeHosted _ _ _ _ _ stage =>
    cases stage <;> simp [Stage.role] at stop
  | _ => simp at stop

/-- What stays as it is when a machine that was stopped has its turn. -/
structure Stays (m : MachineId) (d : Option Deed) (cell cell' : MachineCell H)
    (pops : List (Frame H)) : Prop where
  status : cell'.status = .stopped
  face : cell'.face = cell.face
  visited : d.bind Deed.visited? = none
  /-- The events that wait are forgotten by the stop alone. -/
  discarded : d = some .discarded → .stop ∈ roles m pops

/-- A machine that was stopped stays as it is, if its first state was entered before. -/
theorem Turn.stays {w : World H} {d : Option Deed} {e : Effect H} {cell cell' : MachineCell H}
    {ctl ctl' : Control H} {pops pushes : List (Frame H)}
    (turn : Turn p w m d e ⟨cell, ctl, pops⟩ ⟨cell', ctl', pushes⟩)
    (stopped : cell.status = .stopped) (entered : .first ∉ roles m pops) :
    Stays m d cell cell' pops := by
  cases turn with
  | begin | beginStopped => simp [Stage.role] at entered
  | commit running =>
    rw [stopped] at running
    cases running
  | stop running => exact absurd stopped running
  | stopped plain => exact ⟨stopped, rfl, rfl, fun _ => by simp⟩
  | _ => exact ⟨stopped, rfl, rfl, by simp⟩

/-! ## Later instants -/

/-- What became of a machine since an instant `x` at which it was stopped, when `before` had been
passed. -/
structure Still (m : MachineId) (cell : MachineCell H) (before : List (Config H)) (x : Config H)
    (past : List (Config H)) (c : Config H) : Prop where
  machine : ∃ cell', c.world.machine? m = some cell' ∧ cell'.status = .stopped ∧
    cell'.face = cell.face
  deeds : ∃ ds, deeds m past = deeds m before ++ ds ∧ (∀ d ∈ ds, d.visited? = none) ∧
    (.discarded ∈ ds → .stop ∈ roles m x.stack)
  stop : .stop ∈ roles m c.stack → .stop ∈ roles m x.stack

section Later

variable {w : World H} {before past : List (Config H)} {x c c' : Config H} {cell : MachineCell H}

theorem Still.step (still : Still m cell before x past c) (run : p.Run w past c)
    (h : p.step c = some c') : Still m cell before x (past ++ [c]) c' := by
  obtain ⟨⟨now, found, stopped, face⟩, ⟨ds, split, unvisited, discards⟩, stop⟩ := still
  have nothing (deed : c.deed? m = none) : ∃ ds, ScopedMachine.deeds m (past ++ [c]) =
      ScopedMachine.deeds m before ++ ds ∧ (∀ d ∈ ds, d.visited? = none) ∧
        (.discarded ∈ ds → .stop ∈ roles m x.stack) := by
    refine ⟨ds, ?_, unvisited, discards⟩
    rw [deeds_concat, deed, split, Option.toList_none, List.append_nil]
  cases (run.move h).outlook m with
  | spared machine frames deed =>
    have same : roles m c'.stack = roles m c.stack := congrArg (List.filterMap Frame.role?) frames
    exact ⟨⟨now, machine.trans found, stopped, face⟩, nothing deed, same ▸ stop⟩
  | start signal new =>
    rw [found] at new
    cases new
  | @turn _ cell' e pops pushes rest found₀ found' turn above after =>
    rw [found] at found₀
    cases found₀
    have entered : .first ∉ roles m pops := by
      intro first
      have idle := run.idle_of_first found (by rw [above, roles_append]; exact List.mem_append_left _ first)
      rw [stopped] at idle
      cases idle
    have stays := turn.stays stopped entered
    rw [above, roles_append] at stop
    constructor
    case machine => exact ⟨cell', found', stays.status, stays.face.trans face⟩
    case deeds =>
      cases deed : c.deed? m with
      | none => exact nothing deed
      | some d =>
        rw [deed] at stays
        refine ⟨ds ++ [d], ?_, ?_, ?_⟩
        · rw [deeds_concat, deed, split, Option.toList_some, List.append_assoc]
        · intro y mem
          rcases List.mem_append.1 mem with old | new
          · exact unvisited y old
          · rw [List.mem_singleton.1 new]
            exact stays.visited
        · intro mem
          rcases List.mem_append.1 mem with old | new
          · exact discards old
          · have top := stays.discarded (congrArg some (List.mem_singleton.1 new).symm)
            exact stop (List.mem_append_left _ top)
    case stop =>
      rw [after, roles_append]
      intro mem
      rcases List.mem_append.1 mem with new | old
      · exact absurd stopped (turn.begins_stop new).1
      · exact stop (List.mem_append_right _ old)

/-- A machine that was stopped stays as it is for good. -/
theorem Program.Run.still (run : p.Run w past c) (passed : before ++ [x] <+: past ++ [c])
    (found : x.world.machine? m = some cell) (stopped : cell.status = .stopped) :
    Still m cell before x past c := by
  refine run.since passed ?_ (fun run h still => still.step run h) ?_
  · exact ⟨⟨cell, found, stopped, rfl⟩, ⟨[], by simp, nofun, nofun⟩, id⟩
  · intro past c run ended host s still
    refine ⟨still.machine, ?_, still.stop⟩
    rw [deeds_concat, Config.deed?_of_isOver ended, Option.toList_none, List.append_nil]
    exact still.deeds

end Later

/-! ## Events that are sent later -/

namespace Ledger

variable {l l' : Ledger} {ds : List Deed}

theorem Sound.lt_of_mem_discarded (sound : l.Sound) {n : Nat} (hn : n ∈ l.discarded) :
    n < l.sent.length := by
  rw [← List.mem_range, ← sound.complete.mem_iff]
  exact List.mem_append_left _ (List.mem_append_right _ hn)

/-- Only what waits is thrown away. -/
theorem waited_of_enter? {d : Deed} {n : Nat} (h : l.enter? d = some l') (gone : n ∈ l'.discarded)
    (kept : n ∉ l.discarded) : d = .discarded ∧ n ∈ l.waiting := by
  cases d with
  | routed source e =>
    simp only [enter?] at h
    split at h
    · cases h
    · split at h <;> cases h
      exact absurd gone kept
  | discarded =>
    cases h
    exact ⟨rfl, (List.mem_append.1 gone).resolve_left kept⟩
  | _ => cases h; exact absurd gone kept

/-- What was thrown away waited until then. -/
theorem waited_of_foldlM {n : Nat} (h : ds.foldlM enter? l = some l') (gone : n ∈ l'.discarded)
    (kept : n ∉ l.discarded) :
    ∃ ds₁ ds₂ l₁, ds = ds₁ ++ .discarded :: ds₂ ∧ ds₁.foldlM enter? l = some l₁ ∧
      n ∈ l₁.waiting := by
  induction ds generalizing l with
  | nil => cases h; exact absurd gone kept
  | cons d ds ih =>
    rw [List.foldlM_cons] at h
    obtain ⟨l₁, hd, h⟩ := Option.bind_eq_some_iff.1 h
    by_cases now : n ∈ l₁.discarded
    · obtain ⟨rfl, waited⟩ := waited_of_enter? hd now kept
      exact ⟨[], ds, l, rfl, rfl, waited⟩
    · obtain ⟨ds₁, ds₂, l₂, rfl, read, waited⟩ := ih h now
      refine ⟨d :: ds₁, ds₂, l₂, rfl, ?_, waited⟩
      rw [List.foldlM_cons, hd]
      exact read

end Ledger

/-- The event with this number was sent to a machine, and waits. -/
def Waits (m : MachineId) (past : List (Config H)) (n : Nat) : Prop :=
  ∃ l, Ledger.read? (postings m past) = some l ∧ n ∈ l.waiting

/-- After an instant `x`, when `before` had been passed, the event with this number waited until it was
thrown away: by the stop that was under way at `x`, or by a panic that ended the send which was to
route it. -/
def Forgotten (m : MachineId) (before : List (Config H)) (x : Config H) (past : List (Config H))
    (n : Nat) : Prop :=
  ∃ mid y rest, past = before ++ (mid ++ y :: rest) ∧ Waits m (before ++ mid) n ∧
    (.stopping m ∈ x.stack ∧ y.deed? m = some .discarded ∨ y.spills m)

/-- What was thrown away waited until an instant that meant its end. -/
theorem Ledger.waits_of_discarded {before later : List (Config H)} {l₀ l : Ledger} {n : Nat}
    (read₀ : Ledger.read? (postings m before) = some l₀)
    (read : Ledger.read? (postings m (before ++ later)) = some l) (gone : n ∈ l.discarded)
    (kept : n ∉ l₀.discarded) :
    ∃ mid y rest, later = mid ++ y :: rest ∧ Waits m (before ++ mid) n ∧
      y.posting? m = some .discarded := by
  have reads (now : List (Config H)) :
      Ledger.read? (postings m (before ++ now)) = (postings m now).foldlM Ledger.enter? l₀ := by
    rw [Ledger.read?] at read₀ ⊢
    rw [postings, List.filterMap_append, List.foldlM_append, ← postings, read₀]
    rfl
  rw [reads] at read
  obtain ⟨ds₁, ds₂, l₁, split, read₁, waited⟩ := Ledger.waited_of_foldlM read gone kept
  obtain ⟨mid, last, rfl, rfl, ends⟩ := List.filterMap_eq_append_iff.1 split
  obtain ⟨skipped, y, rest, rfl, nothing, here, _⟩ := List.filterMap_eq_cons_iff.1 ends
  refine ⟨mid ++ skipped, y, rest, (List.append_assoc ..).symm, ⟨l₁, ?_, waited⟩, here⟩
  rw [reads, postings, List.filterMap_append, List.filterMap_eq_nil_iff.2 nothing, List.append_nil]
  exact read₁

section Sends

variable {w : World H} {h : H} {rest : List (Frame H)} {cell : MachineCell H} {source : SourceId}
  {e : Event}

/-- A machine that was stopped ignores what is routed to it. -/
theorem Program.step_route_of_stopped (found : w.machine? m = some cell)
    (stopped : cell.status = .stopped) :
    p.step ⟨w, h, .route m source e, rest⟩ = some ⟨w, h, .give (.delivered (.ok .ignored)), rest⟩ := by
  simp [Program.step, Config.performRoute, found, stopped, Config.deliver, Config.give]

/-- To stop a machine again is to do nothing. -/
theorem Program.step_stop_of_stopped (found : w.machine? m = some cell)
    (stopped : cell.status = .stopped) :
    p.step ⟨w, h, .stop m, rest⟩ = some ⟨w, h, .give .unit, rest⟩ := by
  simp [Program.step, Config.performStop, found, stopped, Config.give]

/-- A machine that was stopped and handles no event answers a send at once, and that the event was
ignored. -/
theorem Program.run_send_of_stopped (found : w.machine? m = some cell)
    (stopped : cell.status = .stopped) (idle : cell.inbox = {}) :
    ∃ w', p.run 3 ⟨w, h, .send m source e, rest⟩ =
        ⟨w', h, .give (.delivered (.ok .ignored)), rest⟩ ∧
      w'.machine? m = some cell := by
  have claims : p.step ⟨w, h, .send m source e, rest⟩ =
      some ⟨w.modifyMachine m MachineCell.beginDraining, h, .route m source e,
        .draining m e.kind none :: rest⟩ := by
    simp [Program.step, Config.performSend, found, idle, Config.mapWorld, Config.push, Config.route]
  have claimed : (w.modifyMachine m MachineCell.beginDraining).machine? m =
      some cell.beginDraining := by
    simp [found]
  have ends : p.step ⟨w.modifyMachine m MachineCell.beginDraining, h,
      .give (.delivered (.ok .ignored)), .draining m e.kind none :: rest⟩ =
      some ⟨(w.modifyMachine m MachineCell.beginDraining).modifyMachine m MachineCell.endDraining, h,
        .give (.delivered (.ok .ignored)), rest⟩ := by
    have none : cell.beginDraining.inbox.pending = [] := by rw [MachineCell.beginDraining, idle]
    simp [Program.step, Program.resume, Config.drain, claimed, none, Config.mapWorld, Config.deliver,
      Config.give]
  refine ⟨(w.modifyMachine m MachineCell.beginDraining).modifyMachine m MachineCell.endDraining,
    ?_, ?_⟩
  · rw [Program.run_succ claims, Program.run_succ (Program.step_route_of_stopped claimed stopped),
      Program.run_succ ends, Program.run]
  · rw [World.machine?_modifyMachine, if_pos rfl, claimed, Option.map_some, Option.some.injEq]
    rw [MachineCell.endDraining, MachineCell.beginDraining, idle]
    rw [← idle]

end Sends

/-! ## Stopped for good -/

/-- A machine that was stopped at an instant `x`, as it is at a later instant `c`; what had been
passed at `x` is `before`. -/
structure Absorbed (p : Program H) (m : MachineId) (cell : MachineCell H) (before : List (Config H))
    (x : Config H) (past : List (Config H)) (c : Config H) : Prop where
  /-- The machine is stopped, it shows the same as at `x`, and no activation is in place. -/
  machine : ∃ cell', c.world.machine? m = some cell' ∧ cell'.status = .stopped ∧
    cell'.face = cell.face ∧ cell'.current = none
  /-- No state was entered since. -/
  visits : visits (deeds m past) = visits (deeds m before)
  /-- No change was made that observers could be told of. -/
  commits : commits (deeds m past) = commits (deeds m before)
  /-- An event that is routed is ignored. -/
  routes {source : SourceId} {e : Event} (h : c.control = .route m source e) :
    p.step c = some (c.deliver (.ok .ignored))
  /-- A send that is made while another one is under way answers that the event is queued; any other
  one answers that it is ignored, and leaves the machine as it is. -/
  sends {source : SourceId} {e : Event} (h : c.control = .send m source e) :
    (c.IsSending m → ∃ c', p.step c = some c' ∧
      c'.control = .give (.delivered (.ok .queued)) ∧ c'.stack = c.stack) ∧
    (¬c.IsSending m → ∃ w', p.run 3 c = { c.deliver (.ok .ignored) with world := w' } ∧
      w'.machine? m = c.world.machine? m)
  /-- When no send is under way any more, every event sent since was routed, but for those that were
  thrown away while they waited. -/
  queued (ended : ¬c.IsSending m) :
    ∃ l₀ l, Ledger.read? (postings m before) = some l₀ ∧ Ledger.read? (postings m past) = some l ∧
      ∀ n, l₀.sent.length ≤ n → n < l.sent.length →
        n ∈ l.routed ∨ Forgotten m before x past n
  /-- To stop the machine again is to do nothing. -/
  stops (h : c.control = .stop m) : p.step c = some (c.give .unit)
  /-- When nothing is under way all scopes of the machine are released. -/
  scopes (rest : c.AtRest ∨ c.IsOver) (s : ScopeId) : c.world.header? s ≠ some (false, some m)
  /-- Its manager has counted them all, but for one whose release a panic ended. -/
  counts (rest : c.AtRest ∨ c.IsOver) {now : MachineCell H} (found : c.world.machine? m = some now)
    (reserves : c.world.Reserves now.manager) :
    (c.world.tally now.manager).acquired = (c.world.tally now.manager).released ∨
      (∃ y ∈ past, y.LosesOne m) ∧
        (c.world.tally now.manager).acquired = (c.world.tally now.manager).released + 1

namespace Program.Run

variable {w : World H} {before past : List (Config H)} {x c : Config H} {cell : MachineCell H}

theorem queued_of_still (run : p.Run w past c) (passed : before ++ [x] <+: past ++ [c])
    (still : Still m cell before x past c) (ended : ¬c.IsSending m) :
    ∃ l₀ l, Ledger.read? (postings m before) = some l₀ ∧ Ledger.read? (postings m past) = some l ∧
      ∀ n, l₀.sent.length ≤ n → n < l.sent.length →
        n ∈ l.routed ∨ Forgotten m before x past n := by
  obtain ⟨later, rfl⟩ := prefix_of_passed passed
  obtain ⟨l₀, read₀, _⟩ := (run.earlier passed).tracks (m := m)
  obtain ⟨l, read, tracks⟩ := run.tracks (m := m)
  have sound := Ledger.sound_of_read? read
  have waits : l.waiting = [] := by
    rw [Ledger.Tracks, run.queue_eq ended, List.map_nil] at tracks
    exact List.map_eq_nil_iff.1 tracks
  refine ⟨l₀, l, read₀, read, fun n since sent => ?_⟩
  have somewhere : n ∈ l.routed ++ l.discarded ++ l.waiting :=
    sound.complete.mem_iff.2 (List.mem_range.2 sent)
  rw [waits, List.append_nil] at somewhere
  refine (List.mem_append.1 somewhere).imp_right fun gone => ?_
  have kept : n ∉ l₀.discarded := fun old =>
    absurd ((Ledger.sound_of_read? read₀).lt_of_mem_discarded old) (Nat.not_lt.2 since)
  obtain ⟨mid, y, rest, rfl, waited, thrown⟩ := Ledger.waits_of_discarded read₀ read gone kept
  refine ⟨mid, y, rest, rfl, waited, ?_⟩
  by_cases spills : y.spills m
  · exact .inr spills
  · rw [Config.posting?, if_neg spills] at thrown
    -- the stop that threw it away was under way at `x`, because no other one has begun since
    obtain ⟨ds, split, _, discards⟩ := still.deeds
    rw [deeds, List.filterMap_append] at split
    have mem : .discarded ∈ ds := by
      rw [← List.append_cancel_left split]
      exact List.mem_filterMap.2 ⟨y, List.mem_append_right _ (List.mem_cons_self ..), thrown⟩
    exact .inl ⟨mem_roles_stop.1 (discards mem), thrown⟩

/-- Once a machine is stopped, it stays stopped and shows the same for good; it enters no state, ignores
every event that it routes, and when nothing is under way it has no live scope. -/
theorem absorbed (run : p.Run w past c) (passed : before ++ [x] <+: past ++ [c])
    (found : x.world.machine? m = some cell) (stopped : cell.status = .stopped) :
    Absorbed p m cell before x past c := by
  have still := run.still passed found stopped
  obtain ⟨now, found', stopped', face⟩ := still.machine
  obtain ⟨ds, split, unvisited, _⟩ := still.deeds
  have posture := (run.poised m).posture found'
  have none : now.current = none := by
    cases current : now.current with
    | none => rfl
    | some a =>
      have running := (posture.current (by rw [current]; rfl)).1
      rw [stopped'] at running
      cases running
  have vacant : c.world.current? m = Option.none := by
    rw [World.current?, found']
    exact none
  constructor
  case machine => exact ⟨now, found', stopped', face, none⟩
  case visits =>
    have nothing : ds.filterMap Deed.visited? = [] := List.filterMap_eq_nil_iff.2 unvisited
    rw [split, ScopedMachine.visits, List.filterMap_append, nothing, List.append_nil]
    rfl
  case commits =>
    have nothing : ds.filterMap Deed.committed? = [] := by
      refine List.filterMap_eq_nil_iff.2 fun d mem => ?_
      exact committed?_of_visited? (d := some d) (unvisited d mem)
    rw [split, ScopedMachine.commits, List.filterMap_append, nothing, List.append_nil]
    rfl
  case routes =>
    intro source e h
    obtain ⟨w', host, ctl, stack⟩ := c
    cases h
    exact Program.step_route_of_stopped found' stopped'
  case sends =>
    intro source e h
    constructor
    · intro sending
      obtain ⟨c', step, queues, _⟩ := run.sends h
      exact ⟨c', step, queues sending⟩
    · intro ended
      have idle := run.inbox_eq found' ended
      obtain ⟨w', host, ctl, stack⟩ := c
      cases h
      obtain ⟨w'', answers, same⟩ := Program.run_send_of_stopped found' stopped' idle
      exact ⟨w'', answers, same.trans found'.symm⟩
  case queued => exact fun ended => run.queued_of_still passed still ended
  case stops =>
    intro h
    obtain ⟨w', host, ctl, stack⟩ := c
    cases h
    exact Program.step_stop_of_stopped found' stopped'
  case scopes => exact fun rest => run.header?_of_rest rest vacant
  case counts =>
    intro rest now found reserves
    exact (run.tally_of_rest found reserves rest vacant).imp_left And.right

end Program.Run

namespace Lamp

/-- Watch the lamp with an observer that stops it, and operate the switch; then send it another
event. -/
def unplug : Script Unit :=
  .call (.start off {} none) fun _ =>
    .call (.newScope none) fun
      | .scope s =>
        .call (.observe ⟨0⟩ (fun _ => .call (.stop ⟨0⟩) fun _ => .ok) s) fun _ =>
          .call (.emit 0 { kind := "toggle" }) fun _ =>
            .call (.send ⟨0⟩ switch.id { kind := "toggle" }) fun _ => .ok
      | _ => .ok

/-- Where the run begins in which the lamp is stopped. -/
def unplugged : Config Unit := { world, host := (), control := .run unplug }

theorem unplugged_run (p : Program Unit) (n : Nat) :
    p.Run world (p.trail n unplugged) (p.run n unplugged) :=
  (Program.Run.begin world_isFresh () unplug).trail n

end Lamp

/-- The lamp is stopped while its observer is told of a transition, and stays so. -/
theorem Program.Run.absorbed_lamp :
    ∃ cell, (Lamp.program.run 28 Lamp.unplugged).world.machine? ⟨0⟩ = some cell ∧
      cell.status = .stopped ∧
      Absorbed Lamp.program ⟨0⟩ cell (Lamp.program.trail 28 Lamp.unplugged)
        (Lamp.program.run 28 Lamp.unplugged) (Lamp.program.trail 48 Lamp.unplugged)
        (Lamp.program.run 48 Lamp.unplugged) := by
  have passed := Lamp.program.trail_prefix 28 20 Lamp.unplugged
  exact ⟨_, rfl, rfl, (Lamp.unplugged_run Lamp.program 48).absorbed passed rfl rfl⟩

/-! ## An event that is forgotten -/

/-- Since an instant `x` at which a machine was stopped, one event was sent to it and queued. Nothing
is under way any more, and no event was routed. -/
structure Unheard (p : Program H) (m : MachineId) (before : List (Config H)) (x : Config H)
    (past : List (Config H)) (c : Config H) : Prop where
  passed : before ++ [x] <+: past ++ [c]
  stopped : ∃ cell, x.world.machine? m = some cell ∧ cell.status = .stopped
  queued : ∃ e, (deeds m (past.drop before.length)).filterMap Deed.sent? = [e] ∧
    ∃ y ∈ past.drop before.length, ∃ y', y.control = .send m e.1 e.2 ∧ p.step y = some y' ∧
      y'.control = .give (.delivered (.ok .queued))
  unrouted : (deeds m (past.drop before.length)).filterMap Deed.routed? = []
  rest : c.AtRest ∨ c.IsOver

namespace Lamp

/-- While the lamp is on, a teardown hangs off its scope. -/
def wired (t : Script Unit) : Program Unit where
  declared key :=
    if key = "on" then
      .yield (.entry fun s => .call (.onCancel s t) fun _ => .ok) (program.declared key)
    else program.declared key
  subscriber _ h := h

/-- Send the lamp what its switch sends, and go on. -/
def touch (rest : Script Unit) : Script Unit :=
  .call (.send ⟨0⟩ switch.id { kind := "toggle" }) fun _ => rest

/-- The stop throws away what is sent while it releases the scope. -/
theorem unheard_touch :
    Unheard (wired (touch .ok)) ⟨0⟩ ((wired (touch .ok)).trail 33 unplugged)
      ((wired (touch .ok)).run 33 unplugged) ((wired (touch .ok)).trail 52 unplugged)
      ((wired (touch .ok)).run 52 unplugged) where
  passed := Program.trail_prefix 33 19 unplugged
  stopped := ⟨_, rfl, rfl⟩
  queued := ⟨(switch.id, { kind := "toggle" }), by decide +kernel,
    (wired (touch .ok)).run 36 unplugged, List.mem_iff_getElem?.2 ⟨3, rfl⟩, _, rfl, rfl, rfl⟩
  unrouted := by decide +kernel
  rest := .inl ⟨rfl, .inl ⟨_, rfl⟩⟩

/-- Send the lamp what its switch sends, and burst. -/
def blast : Script Unit := touch (.panic "the bulb burst")

/-- If the teardown panics then, the event goes with the send that the panic ends. -/
theorem unheard_blast :
    Unheard (wired blast) ⟨0⟩ ((wired blast).trail 33 unplugged) ((wired blast).run 33 unplugged)
      ((wired blast).trail 50 unplugged) ((wired blast).run 50 unplugged) where
  passed := Program.trail_prefix 33 17 unplugged
  stopped := ⟨_, rfl, rfl⟩
  queued := ⟨(switch.id, { kind := "toggle" }), by decide +kernel,
    (wired blast).run 36 unplugged, List.mem_iff_getElem?.2 ⟨3, rfl⟩, _, rfl, rfl, rfl⟩
  unrouted := by decide +kernel
  rest := .inr ⟨rfl, .inr ⟨_, rfl⟩⟩

end Lamp

/-- What is sent to a stopped machine and queued is not always routed, even if nothing panics; and
after a panic the manager of the machine may have one scope that it did not count as released. -/
theorem Program.Run.unabsorbed_wired :
    (∃ before x past c, (Lamp.wired (Lamp.touch .ok)).Run Lamp.world past c ∧
      (∀ y ∈ past, y.IsCalm) ∧ Unheard (Lamp.wired (Lamp.touch .ok)) ⟨0⟩ before x past c) ∧
    ∃ before x past c cell, (Lamp.wired Lamp.blast).Run Lamp.world past c ∧
      Unheard (Lamp.wired Lamp.blast) ⟨0⟩ before x past c ∧
      c.world.machine? ⟨0⟩ = some cell ∧ c.world.Reserves cell.manager ∧
      (c.world.tally cell.manager).acquired = (c.world.tally cell.manager).released + 1 := by
  constructor
  · have calm : ∀ y ∈ (Lamp.wired (Lamp.touch .ok)).trail 52 Lamp.unplugged, y.IsCalm := by decide
    exact ⟨_, _, _, _, Lamp.unplugged_run _ 52, calm, Lamp.unheard_touch⟩
  · have reserves : ((Lamp.wired Lamp.blast).run 50 Lamp.unplugged).world.Reserves ⟨0⟩ := by
      rintro ⟨s⟩
      match s with
      | 0 | 1 | 2 => decide
      | s + 3 => nofun
    exact ⟨_, _, _, _, _, Lamp.unplugged_run _ 50, Lamp.unheard_blast, rfl, reserves, rfl⟩

end ScopedMachine

import Mathlib.Data.List.Induction
import ScopedMachine.Proofs.Crossing

/-!
# Where a state comes from

A machine is led to a state by a reference to a definition: the one it is started with, or the
target of an event. `origins` reads off the past of a run which reference a machine collected last,
and through which one it entered the state that it shows. `Program.Run.traces` says that the state
and the aliases of a machine are what was collected for the latter, as long as no collection waits
for host code.
-/

namespace ScopedMachine

variable {H : Type} {p : Program H} {m : MachineId}

/-! ## References -/

/-- A reference to a definition: what it is collected for, and up to which limit. -/
structure Inquiry where
  purpose : Purpose
  limit : Nat
  definition : Definition

/-- The machine that a definition is collected for. -/
def Purpose.machine? : Purpose → Option MachineId
  | .initial m | .transition m _ => some m
  | .view | .enter _ => none

/-- The reference that the next step begins to collect. -/
def Config.collects? (c : Config H) : Option Inquiry :=
  match c.control with
  | .run (.call (.collect d limit) _) => some ⟨.view, limit, d⟩
  | .run (.call (.enter d limit token) _) => some ⟨.enter token, limit, d⟩
  | .run (.call (.start d settings _) _) =>
    match settings.validate with
    | .ok () => some ⟨.initial ⟨c.world.machines.size⟩, settings.delegationLimit, d⟩
    | .error _ => none
  | .route m source e =>
    (c.world.machine? m).bind fun cell =>
      (cell.target? source e.kind).map fun d =>
        ⟨.transition m e.kind, cell.settings.delegationLimit, d⟩
  | _ => none

/-- The reference that the next step begins to collect for a machine. -/
def Config.seeks? (m : MachineId) (c : Config H) : Option Inquiry :=
  match c.collects? with
  | some i => if i.purpose.machine? = some m then some i else none
  | none => none

/-- Whether a state is entered. -/
def Deed.isEntry : Deed → Bool
  | .began _ | .committed _ => true
  | _ => false

/-- What is known of a machine from the past: the reference that was collected last, and the one
that led to the state it shows. -/
structure Origins where
  sought : Option Inquiry := none
  entered : Option Inquiry := none

/-- What is known after one more step. -/
def Origins.after (m : MachineId) (o : Origins) (c : Config H) : Origins where
  sought := (c.seeks? m).or o.sought
  entered := if (c.deed? m).any Deed.isEntry then o.sought else o.entered

/-- What is known after the steps from the given configurations. -/
def origins (m : MachineId) (past : List (Config H)) : Origins := past.foldl (Origins.after m) {}

theorem origins_concat {past : List (Config H)} {c : Config H} :
    origins m (past ++ [c]) = (origins m past).after m c :=
  List.foldl_concat ..

/-- A reference that led to a state was collected. -/
theorem mem_of_origins {past : List (Config H)} {i : Inquiry}
    (known : (origins m past).sought = some i ∨ (origins m past).entered = some i) :
    ∃ y ∈ past, y.collects? = some i := by
  induction past using List.reverseRecOn generalizing i with
  | nil => rcases known with none | none <;> cases none
  | append_singleton past c ih =>
    have old (known : (origins m past).sought = some i ∨ (origins m past).entered = some i) :
        ∃ y ∈ past ++ [c], y.collects? = some i := by
      obtain ⟨y, mem, collects⟩ := ih known
      exact ⟨y, List.mem_append_left _ mem, collects⟩
    rw [origins_concat] at known
    rcases known with sought | entered
    · cases seeks : c.seeks? m with
      | none => exact old (.inl (by simpa [Origins.after, seeks] using sought))
      | some j =>
        have same : j = i := by simpa [Origins.after, seeks] using sought
        subst same
        refine ⟨c, List.mem_append_right _ (List.mem_singleton_self c), ?_⟩
        unfold Config.seeks? at seeks
        split at seeks
        · next collects =>
          split at seeks
          · rw [collects, seeks]
          · cases seeks
        · cases seeks
    · unfold Origins.after at entered
      dsimp only at entered
      split at entered
      · exact old (.inl entered)
      · exact old (.inr entered)

/-! ## Collections that begin -/

/-- No collection waits for host code. -/
structure Config.IsPrompt (c : Config H) : Prop where
  control {g} (gathers : c.control = .gather g) : ∃ r, g = .done r
  stack (k) : Frame.gathering k ∉ c.stack

section Begin

variable {c c' : Config H} {i : Inquiry}

theorem Config.collects?_of_route {cell : MachineCell H} {source : SourceId} {e : Event}
    {d : Definition} (routes : c.control = .route m source e)
    (found : c.world.machine? m = some cell) (leads : cell.target? source e.kind = some d) :
    c.collects? = some ⟨.transition m e.kind, cell.settings.delegationLimit, d⟩ := by
  unfold collects?
  rw [routes]
  exact Option.bind_eq_some_iff.2 ⟨cell, found, Option.map_eq_some_iff.2 ⟨d, leads, rfl⟩⟩

/-- A collection that begins is that of the reference, and somebody waits for it. -/
theorem Program.step_of_collects (collects : c.collects? = some i) :
    ∃ c', p.step c = some c' ∧ c'.control = .gather (p.collect i.limit i.definition) ∧
      c'.stack.head? = some (.collecting i.purpose) := by
  obtain ⟨w, h, ctl, fs⟩ := c
  unfold Config.collects? at collects
  dsimp only at collects
  split at collects
  · cases collects
    exact ⟨_, rfl, rfl, rfl⟩
  · cases collects
    exact ⟨_, rfl, rfl, rfl⟩
  · split at collects
    · next valid =>
      cases collects
      refine ⟨_, rfl, ?_, ?_⟩ <;> simp only [Program.call, Config.start, valid] <;> rfl
    · cases collects
  · next m source e =>
    obtain ⟨cell, found, seeks⟩ := Option.bind_eq_some_iff.1 collects
    obtain ⟨target, leads, rfl⟩ := Option.map_eq_some_iff.1 seeks
    obtain ⟨host, step⟩ := p.step_route (c := ⟨w, h, .route m source e, fs⟩) found rfl
    rw [leads] at step
    exact ⟨_, step, rfl, rfl⟩
  · cases collects

/-- Of all calls, only those that name a definition begin to collect one. -/
theorem Program.collects_of_call {s : Call (Script H)} {k : Answer → Script H}
    (control : c.control = .run (.call s k)) {g}
    (gathers : (p.call s (c.push (.await k))).control = .gather g) : ∃ i, c.collects? = some i := by
  unfold Config.collects?
  rw [control]
  cases s with
  | collect | enter => exact ⟨_, rfl⟩
  | start d settings signal =>
    dsimp only
    simp only [Program.call, Config.start] at gathers
    split
    · exact ⟨_, rfl⟩
    · next invalid =>
      rw [invalid] at gathers
      cases gathers
  | newManager | newScope | arm | read => cases gathers
  | release | hold | send | stop | observe | stream =>
    simp only [Program.call] at gathers
    split at gathers <;> cases gathers
  | onCancel token t =>
    simp only [Program.call, Config.onCancel, Config.performTeardown] at gathers
    split at gathers <;> cases gathers
  | listen =>
    simp only [Program.call] at gathers
    split at gathers <;> cases gathers
  | emit =>
    simp only [Program.call, Config.emit] at gathers
    split at gathers <;> cases gathers
  | advance =>
    simp only [Program.call, Config.advance] at gathers
    split at gathers <;> cases gathers
  | forward =>
    simp only [Program.call, Config.forward] at gathers
    split at gathers <;> cases gathers
  | drop m =>
    simp only [Program.call, Config.settleHandle, Config.dismantle,
      Config.releaseActivation] at gathers
    split at gathers
    · split at gathers
      · cases gathers
      · split at gathers <;> cases gathers
    · cases gathers

/-- A turn begins to collect only the target of an event. -/
theorem Turn.gathers {w : World H} {d : Option Deed} {e : Effect H} {cell cell' : MachineCell H}
    {ctl ctl' : Control H} {fs gs : List (Frame H)}
    (turn : Turn p w m d e ⟨cell, ctl, fs⟩ ⟨cell', ctl', gs⟩) {g} (gathers : ctl' = .gather g) :
    ∃ source e target, ctl = .route m source e ∧ cell.target? source e.kind = some target := by
  have plain (plain : ctl'.isPlain) : False := by
    rw [gathers] at plain
    cases plain
  have released {a : Option (Activation H)} (gathers : .ofRelease a = Control.gather g) :
      False := by
    cases a <;> cases gathers
  cases turn with
  | @look _ source e a target running current terminal resolves =>
    refine ⟨source, e, target, rfl, ?_⟩
    unfold MachineCell.target?
    rw [if_pos ⟨running, terminal⟩, current, Option.bind_some]
    rcases resolves with matched | ⟨names, ambiguous⟩
    · rw [matched]
      rfl
    · rw [ambiguous]
      rfl
  | pin alive quiet call =>
    rw [gathers] at call
    cases call
  | hold held quiet plain' | drop held alive quiet plain' | unpin pin alive quiet plain'
  | dismantled quiet plain' | enqueue busy plain' | finish empty plain' | ignore plain'
  | giveUp plain' | startFailed first quiet plain' | tell live plain' | unobserve plain'
  | observe live held quiet plain' | stopIgnored stopped plain' | stopped plain'
  | signal live plain' | signalGone cancelled dead plain' | handOver pin plain' =>
    exact (plain plain').elim
  | dropLast | unpinLast | stop => exact (released gathers).elim
  | _ => cases gathers

/-- Where no collection waits for host code, one is under way only right after it began. -/
theorem Program.Run.collects_of_gather {w : World H} {past : List (Config H)} (run : p.Run w past c)
    (prompt : c.IsPrompt) (h : p.step c = some c') {g} (gathers : c'.control = .gather g) :
    ∃ i, c.collects? = some i := by
  have plain {ctl : Control H} (plain : ctl.isPlain) (gathers : ctl = .gather g) : False := by
    rw [gathers] at plain
    cases plain
  have host {s : Script H} (control : c.control = .run s) : ∃ i, c.collects? = some i := by
    cases s with
    | call s k =>
      simp only [Program.step, control] at h
      cases h
      exact collects_of_call control gathers
    | done | panic | update | look =>
      simp only [Program.step, control] at h
      cases h
      cases gathers
  cases run.move h with
  | idle pops pushes rest alike sheds quiet plain' => exact (plain plain' gathers).elim
  | collect | start => exact host rfl
  | look => obtain ⟨r, none⟩ := prompt.control rfl; cases none
  | hear => exact absurd (List.mem_cons_self ..) (prompt.stack _)
  | ask | callRelease | release | lose | read => cases gathers
  | newScope frames plain' | hang frames live plain' | listen frames plain' | unlisten plain'
  | unobserveGone alike gone plain' | arm frames plain' | disarm plain' | tick frames plain'
  | reached plain' | openStream frames plain' => exact (plain plain' gathers).elim
  | @turn w w' h₀ h' m cell cell' ctl ctl' e pops pushes rest found turn =>
    obtain ⟨source, e, target, rfl, leads⟩ := turn.gathers gathers
    exact ⟨_, Config.collects?_of_route rfl found leads⟩

end Begin

/-! ## What a machine is led to -/

/-- The state that a frame leads a machine to, if nothing fails; a state that is entered again does
not count. -/
def Frame.next? : Frame H → Option (Collected (Entry H))
  | .leaving _ _ next _ => some next
  | .activating _ x _ .initial | .activating _ x _ (.commit ..) => some x
  | .subscribing _ a _ .initial | .subscribing _ a _ (.commit ..) => some a.collected
  | _ => none

section Turns

variable {w : World H} {d : Option Deed} {e : Effect H} {cell cell' : MachineCell H}
  {ctl ctl' : Control H} {f : Frame H} {fs gs : List (Frame H)} {x : Collected (Entry H)}

theorem Frame.role?_of_next? (next : f.next? = some x) :
    f.role? = some .shift ∨ f.role? = some .first := by
  cases f with
  | leaving => exact .inl rfl
  | activating _ _ _ stage | subscribing _ _ _ stage =>
    cases stage with
    | initial => exact .inr rfl
    | commit => exact .inl rfl
    | restore => cases next
  | _ => cases next

/-- A machine is led to the state that it was led to before, or to the one that was collected. -/
theorem Turn.leads (turn : Turn p w m d e ⟨cell, ctl, fs⟩ ⟨cell', ctl', gs⟩) (mem : f ∈ gs)
    (works : f.machine? = some m) (next : f.next? = some x) :
    (∃ f ∈ fs, f.machine? = some m ∧ f.next? = some x) ∨
      (ctl = .gather (.done (.ok x)) ∧
        ∃ purpose, fs = [.collecting purpose] ∧ purpose.machine? = some m) := by
  have plain {fs : List (Frame H)} (inert : ∀ f ∈ fs, f.isPlain) (mem : f ∈ fs) : False := by
    rw [Frame.machine?_of_isPlain (inert f mem)] at works
    cases works
  cases turn with
  | leave =>
    rw [List.mem_singleton.1 mem] at next
    cases next
    exact .inr ⟨rfl, _, rfl, rfl⟩
  | enter enters =>
    rcases List.mem_pair.1 mem with rfl | rfl
    · cases next
    · cases enters with
      | initial => cases next; exact .inr ⟨rfl, _, rfl, rfl⟩
      | next => exact .inl ⟨_, List.mem_singleton_self _, rfl, next⟩
      | again => cases next
  | @entered _ _ _ stage | @subscribe _ _ _ _ _ stage
  | @subscribeHosted _ _ _ _ _ stage =>
    rw [List.mem_singleton.1 mem] at next
    refine .inl ⟨_, List.mem_singleton_self _, rfl, ?_⟩
    cases stage <;> exact next
  | hold held quiet plain' inert | drop held alive quiet plain' inert
  | observe live held quiet plain' inert => exact (plain inert mem).elim
  | dropLast held dead quiet inert =>
    rcases List.mem_cons.1 mem with rfl | mem
    · cases next
    · rcases List.mem_cons.1 mem with rfl | mem
      · cases next
      · exact (plain inert mem).elim
  | pin alive quiet call sheds =>
    rcases List.mem_cons.1 mem with rfl | mem
    · cases next
    · have none := List.filter_eq_nil_iff.1 (sheds.filter (m := m)).2 f mem
      exact absurd (Frame.concerns_iff.2 works) none
  | unpinLast pin dead quiet =>
    rcases List.mem_pair.1 mem with rfl | rfl <;> cases next
  | signalAtOnce cancelled alive =>
    rcases List.mem_pair.1 mem with rfl | rfl <;> cases next
  | unpin | dismantled | enqueue | finish | ignore | giveUp | begin | restore | startFailed
  | published | stopIgnored | stopped | handOver | unwind | unwindDraining => cases mem
  | _ =>
    cases List.mem_singleton.1 mem
    cases next

/-- The state that a machine shows changes only when it enters the one that it was led to. -/
theorem Turn.shows (turn : Turn p w m d e ⟨cell, ctl, fs⟩ ⟨cell', ctl', gs⟩) :
    (d.any Deed.isEntry = false ∧ cell'.state = cell.state ∧ cell'.aliases = cell.aliases) ∨
      (d.any Deed.isEntry = true ∧ ∃ f ∈ fs, f.machine? = some m ∧
        ∃ x, f.next? = some x ∧ cell'.state = x.name ∧ cell'.aliases = x.aliases) := by
  cases turn with
  | begin | beginStopped | commit =>
    exact .inr ⟨rfl, _, List.mem_singleton_self _, rfl, _, rfl, rfl, rfl⟩
  | _ => exact .inl ⟨rfl, rfl, rfl⟩

end Turns

/-- The state and the aliases of a machine are what is collected for a reference. A machine that
entered no state has no aliases. -/
def MachineCell.StemsFrom (p : Program H) (cell : MachineCell H) : Option Inquiry → Prop
  | some i => ∃ x, p.collect i.limit i.definition = .done (.ok x) ∧ cell.state = x.name ∧
    cell.aliases = x.aliases
  | none => cell.aliases = []

/-- What is known of a machine from the past agrees with what is under way. -/
structure Config.Traces (p : Program H) (m : MachineId) (o : Origins) (c : Config H) : Prop where
  gathers {g} (control : c.control = .gather g) {purpose : Purpose}
    (top : c.stack.head? = some (.collecting purpose)) (works : purpose.machine? = some m) :
    ∃ i, o.sought = some i ∧ g = p.collect i.limit i.definition
  leads {f : Frame H} {x : Collected (Entry H)} (mem : f ∈ c.stack) (works : f.machine? = some m)
    (next : f.next? = some x) :
    ∃ i, o.sought = some i ∧ p.collect i.limit i.definition = .done (.ok x)
  shows {cell : MachineCell H} (found : c.world.machine? m = some cell) :
    cell.StemsFrom p o.entered
  absent (gone : c.world.machine? m = none) : o.entered = none

section Traces

variable {w : World H} {past : List (Config H)} {c c' : Config H} {f : Frame H}
  {x : Collected (Entry H)}

/-- While a machine is led to a state, nothing else is collected for it. -/
theorem Program.Run.seeks?_of_next? (run : p.Run w past c) (mem : f ∈ c.stack)
    (works : f.machine? = some m) (next : f.next? = some x) : c.seeks? m = none := by
  have role : .shift ∈ roles m c.stack ∨ .first ∈ roles m c.stack := by
    have here : f ∈ c.stack.filter (Frame.concerns m) :=
      List.mem_filter.2 ⟨mem, Frame.concerns_iff.2 works⟩
    rcases Frame.role?_of_next? next with role | role
    · exact .inl (List.mem_filterMap.2 ⟨f, here, role⟩)
    · exact .inr (List.mem_filterMap.2 ⟨f, here, role⟩)
  obtain ⟨cell, found⟩ := run.grounded.frame mem works
  unfold Config.seeks?
  split
  · next i collects =>
    refine if_neg fun same => ?_
    unfold Config.collects? at collects
    split at collects
    · cases collects
      cases same
    · cases collects
      cases same
    · split at collects
      · cases collects
        cases same
        -- the machine that is started is a new one
        simp [World.machine?] at found
      · cases collects
    · next n source e routes =>
      obtain ⟨cell', found', seeks⟩ := Option.bind_eq_some_iff.1 collects
      obtain ⟨target, leads, rfl⟩ := Option.map_eq_some_iff.1 seeks
      cases same
      rw [found] at found'
      cases found'
      rcases role with shift | first
      · exact run.not_routes shift rfl ⟨source, e, routes⟩
      · have idle := (((run.poised m).posture found).first first).1
        unfold MachineCell.target? at leads
        rw [if_neg fun running => idle running.1] at leads
        cases leads
    · cases collects
  · rfl

/-- A machine that is led to a state was so before, or the collection of the state is just over. -/
theorem Program.Run.leads_of_step (run : p.Run w past c) (h : p.step c = some c')
    (mem : f ∈ c'.stack) (works : f.machine? = some m) (next : f.next? = some x) :
    (∃ f ∈ c.stack, f.machine? = some m ∧ f.next? = some x) ∨
      (c.control = .gather (.done (.ok x)) ∧ ∃ purpose : Purpose,
        c.stack.head? = some (.collecting purpose) ∧ purpose.machine? = some m) := by
  have here : f ∈ c'.frames m := List.mem_filter.2 ⟨mem, Frame.concerns_iff.2 works⟩
  cases (run.move h).outlook m with
  | spared machine frames =>
    rw [frames] at here
    exact .inl ⟨f, (List.mem_filter.1 here).1, works, next⟩
  | start signal new found deed blank control frames =>
    rw [frames] at here
    rcases List.mem_cons.1 here with rfl | here
    · cases next
    · rcases List.mem_cons.1 here with rfl | here
      · cases next
      · exact .inl ⟨f, (List.mem_filter.1 here).1, works, next⟩
  | turn pops pushes rest found found' turn before after =>
    rw [after] at mem
    rw [before]
    rcases List.mem_append.1 mem with new | below
    · rcases turn.leads new works next with
        ⟨g, mem, works, next⟩ | ⟨control, purpose, rfl, works⟩
      · exact .inl ⟨g, List.mem_append_left _ mem, works, next⟩
      · exact .inr ⟨control, purpose, rfl, works⟩
    · exact .inl ⟨f, List.mem_append_right _ below, works, next⟩

theorem Config.Traces.step {o : Origins} (run : p.Run w past c) (prompt : c.IsPrompt)
    (h : p.step c = some c') (traces : c.Traces p m o) : c'.Traces p m (o.after m c) where
  gathers := by
    intro g control purpose top works
    obtain ⟨i, collects⟩ := run.collects_of_gather prompt h control
    obtain ⟨c'', step, gathers, waits⟩ := p.step_of_collects collects
    cases h.symm.trans step
    rw [top] at waits
    cases waits
    rw [control] at gathers
    cases gathers
    have seeks : c.seeks? m = some i := by
      unfold Config.seeks?
      rw [collects]
      exact if_pos works
    exact ⟨i, by rw [Origins.after, seeks]; rfl, rfl⟩
  leads := by
    intro f x mem works next
    rcases run.leads_of_step h mem works next with
      ⟨g, mem, works, next⟩ | ⟨control, purpose, top, works⟩
    · rw [Origins.after, run.seeks?_of_next? mem works next]
      exact traces.leads mem works next
    · have idle : c.seeks? m = none := by simp [Config.seeks?, Config.collects?, control]
      obtain ⟨i, sought, collects⟩ := traces.gathers control top works
      rw [Origins.after, idle]
      exact ⟨i, sought, collects.symm⟩
  shows := by
    intro cell' found
    cases (run.move h).outlook m with
    | spared machine frames deed =>
      rw [Origins.after, deed]
      exact traces.shows (machine ▸ found)
    | start signal new found' deed blank =>
      rw [found'] at found
      cases found
      obtain ⟨settings, manager, rfl⟩ := blank
      rw [Origins.after, deed, show (if (none : Option Deed).any Deed.isEntry then o.sought else
        o.entered) = o.entered from rfl, traces.absent new]
      rfl
    | turn pops pushes rest found₀ found' turn before =>
      rw [found'] at found
      cases found
      unfold Origins.after
      dsimp only
      rcases turn.shows with ⟨passes, state, aliases⟩ | ⟨enters, f, mem, works, x, next, shown⟩
      · rw [passes]
        have shows := traces.shows found₀
        unfold MachineCell.StemsFrom at shows ⊢
        rw [state, aliases]
        exact shows
      · rw [enters, if_pos rfl]
        have mem := before ▸ List.mem_append_left rest mem
        obtain ⟨i, sought, collects⟩ := traces.leads mem works next
        rw [sought]
        exact ⟨x, collects, shown⟩
  absent := by
    intro gone
    cases (run.move h).outlook m with
    | spared machine frames deed =>
      rw [Origins.after, deed]
      exact traces.absent (machine ▸ gone)
    | start signal new found => rw [gone] at found; cases found
    | turn pops pushes rest found₀ found => rw [gone] at found; cases found

/-- The state and the aliases that a machine shows are what was collected for the reference through
which it entered the state. -/
theorem Program.Run.traces (run : p.Run w past c) (prompt : ∀ y ∈ past, y.IsPrompt)
    (m : MachineId) : c.Traces p m (origins m past) := by
  induction run with
  | begin fresh host s =>
    refine ⟨nofun, fun mem => absurd mem List.not_mem_nil, fun found => ?_, fun _ => rfl⟩
    rw [fresh.machine?] at found
    cases found
  | @step past c c' run h ih =>
    have traces := ih fun y mem => prompt y (List.mem_append_left _ mem)
    rw [origins_concat]
    exact traces.step run (prompt c (List.mem_append_right _ (List.mem_singleton_self c))) h
  | @resume past c run ended host s ih =>
    have traces := ih fun y mem => prompt y (List.mem_append_left _ mem)
    have idle : c.seeks? m = none := by
      rcases ended.2 with ⟨a, control⟩ | ⟨message, control⟩ <;>
        simp [Config.seeks?, Config.collects?, control]
    have same : (origins m past).after m c = origins m past := by
      rw [Origins.after, idle, Config.deed?_of_isOver ended]
      rfl
    rw [origins_concat, same]
    exact ⟨nofun, traces.leads, traces.shows, traces.absent⟩

end Traces

end ScopedMachine

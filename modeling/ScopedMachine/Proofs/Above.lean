import ScopedMachine.Proofs.Custody

/-!
# What happens above a frame

While an activity goes on above some frames, the frames wait. If one of them enters or leaves a state
of a machine, nothing that happens above it changes what the machine shows, calls its entry actions,
subscribes its routes or tells its observers: all of that is done by the frame itself, when an answer
comes down to it. A panic that comes down never turns into an answer.
-/

namespace ScopedMachine

variable {H : Type} {p : Program H} {m : MachineId}

/-! ## The frames below stay -/

theorem Enters.isEnd {ctl : Control H} {f : Frame H} {x : Collected (Entry H)} {stage : Stage H}
    (enters : Enters m ctl f x stage) : ctl.isEnd := by
  cases enters <;> rfl

/-- When an activity above some frames has ended, its end comes down to one of the frames above. -/
theorem Config.top_of_ended {c : Config H} {above base rest : List (Frame H)} {f : Frame H}
    (stack : c.stack = above ++ base) (busy : above ≠ [] ∨ c.control.isEnd = false)
    (ended : c.control.isEnd) (top : c.stack = f :: rest) :
    ∃ above', above = f :: above' ∧ rest = above' ++ base := by
  rw [stack] at top
  cases above with
  | nil =>
    rcases busy with none | goes
    · exact absurd rfl none
    · rw [ended] at goes
      cases goes
  | cons g above =>
    obtain ⟨rfl, rfl⟩ := List.cons.inj top
    exact ⟨above, rfl, rfl⟩

/-- As long as something goes on above some frames, they stay. -/
theorem Course.stays {c c' : Config H} {above base : List (Frame H)} (course : Course c c')
    (stack : c.stack = above ++ base) (busy : above ≠ [] ∨ c.control.isEnd = false) :
    ∃ above', c'.stack = above' ++ base := by
  have push (fs : List (Frame H)) (new : c'.stack = fs ++ c.stack) :
      ∃ above', c'.stack = above' ++ base :=
    ⟨fs ++ above, by rw [new, stack, List.append_assoc]⟩
  -- the top frame is taken off when the activity above it has ended
  have pop {f : Frame H} {rest : List (Frame H)} (fs : List (Frame H)) (ended : c.control.isEnd)
      (top : c.stack = f :: rest) (new : c'.stack = fs ++ rest) :
      ∃ above', c'.stack = above' ++ base := by
    obtain ⟨above', _, rfl⟩ := Config.top_of_ended stack busy ended top
    exact ⟨fs ++ above', new.trans (List.append_assoc ..).symm⟩
  cases course with
  | call grows =>
    obtain ⟨fs, _, new⟩ := grows.stack
    exact push fs new
  | turn f rest top ended free grows =>
    obtain ⟨fs, _, new⟩ := grows.stack
    exact pop fs ended top new
  | manage running new =>
    obtain ⟨fs, _, new⟩ := new
    exact push fs new
  | make manager k control new => exact push [_] new
  | enter n cell f x stage rest found enters top new => exact pop [_, _] enters.isEnd top new
  | begin u control live new => exact push [_] new
  | perform u t ts rest a control top grows =>
    obtain ⟨fs, _, new⟩ := grows.stack
    refine pop (fs ++ [.releasing u ts]) (by rw [control]; rfl) top ?_
    rw [new, List.append_assoc]
    rfl
  | finish u rest a control top new => exact pop [] (by rw [control]; rfl) top new
  | lose u ts rest message control top next =>
    subst next
    exact pop [] (by rw [control]; rfl) top rfl

/-! ## Panics -/

/-- A panic is on its way down to some frames. -/
def Config.Falls (base : List (Frame H)) (c : Config H) : Prop :=
  (∃ message above, c.control = .panic message ∧ c.stack = above ++ base) ∨
    ∃ message above below, c.stack = above ++ .settling (.panicked message) :: (below ++ base)

/-- A panic goes on below the frame that it unwinds, at once or after a release. -/
theorem Config.unwind_falls {c c' : Config H} {f : Frame H} {message : String}
    (h : c.unwind f message = some c') :
    (∃ message, c'.control = .panic message) ∧ c'.stack = c.stack ∨
      ∃ message above, c'.stack = above ++ .settling (.panicked message) :: c.stack := by
  have unpins (n : MachineId) :
      (∃ text, (c.unpin n (.panicked message)).control = .panic text) ∧
          (c.unpin n (.panicked message)).stack = c.stack ∨
        ∃ text above, (c.unpin n (.panicked message)).stack =
          above ++ .settling (.panicked text) :: c.stack := by
    unfold Config.unpin Config.settleHandle
    split
    · exact .inl ⟨⟨message, rfl⟩, rfl⟩
    · refine .inr ⟨message, [.dismantling n], ?_⟩
      unfold Config.dismantle Config.releaseActivation
      split <;> rfl
  cases f with
  | activating n x scope stage | subscribing n a rest stage =>
    cases h
    exact .inr ⟨message, [], rfl⟩
  | holding n | starting n signal | signalled n =>
    cases h
    exact unpins n
  | settling o =>
    cases o with
    | gave a => cases h; exact .inl ⟨⟨message, rfl⟩, rfl⟩
    | panicked message => cases h
  | _ => cases h; exact .inl ⟨⟨message, rfl⟩, rfl⟩

theorem Config.Falls.step {c c' : Config H} {base : List (Frame H)} (falls : c.Falls base)
    (course : Course c c') (h : p.step c = some c') (above : c.stack ≠ base) : c'.Falls base := by
  rcases falls with ⟨message, fs, control, stack⟩ | ⟨message, fs, below, stack⟩
  · cases fs with
    | nil => exact absurd stack above
    | cons f fs =>
      obtain ⟨w, host, ctl, _⟩ := c
      cases control
      cases stack
      rcases Config.unwind_falls (c := ⟨w, host, .panic message, fs ++ base⟩) h with
        ⟨⟨message, control⟩, same⟩ | ⟨message, fs', new⟩
      · exact .inl ⟨message, fs, control, same⟩
      · exact .inr ⟨message, fs', fs, new⟩
  · by_cases busy : fs ≠ [] ∨ c.control.isEnd = false
    · obtain ⟨fs', new⟩ := course.stays stack busy
      exact .inr ⟨message, fs', below, new⟩
    · -- the release that kept the panic waiting is over
      obtain ⟨none, ended⟩ := not_or.1 busy
      obtain ⟨w, host, ctl, _⟩ := c
      cases Classical.not_not.1 none
      cases stack
      cases ctl with
      | give a => cases h; exact .inl ⟨message, below, rfl, rfl⟩
      | panic message => cases h
      | gather g =>
        cases g with
        | done r => cases h
        | _ => exact absurd rfl ended
      | _ => exact absurd rfl ended

section Returns

variable {w : World H} {before past : List (Config H)} {x c : Config H} {base : List (Frame H)}

/-- From an instant on, up to when the stack comes down to some frames. -/
theorem Program.Run.above_induction {P : List (Config H) → Config H → Prop} {span : List (Config H)}
    (run : p.Run w past c) (split : past = before ++ x :: span) (going : ¬x.IsOver)
    (stays : ∀ y ∈ span, y.stack ≠ base)
    (suffix : ∀ {seen c}, P seen c → ∃ above, c.stack = above ++ base)
    (first : ∀ {c}, p.step x = some c → P [] c)
    (next : ∀ {seen c c'}, p.Run w (before ++ x :: seen) c → c ∈ span → p.step c = some c' →
      P seen c → P (seen ++ [c]) c') : P span c := by
  -- the last instant passed is the first one, or there was one before it
  have last {past : List (Config H)} {span : List (Config H)} {c : Config H}
      (split : past ++ [c] = before ++ x :: span) :
      past = before ∧ span = [] ∧ c = x ∨ ∃ seen, past = before ++ x :: seen ∧ span = seen ++ [c] := by
    rcases List.eq_nil_or_concat' span with rfl | ⟨seen, d, rfl⟩
    · obtain ⟨rfl, same⟩ := List.append_inj' split rfl
      exact .inl ⟨rfl, rfl, (List.cons.inj same).1⟩
    · rw [← List.cons_append, ← List.append_assoc] at split
      obtain ⟨rfl, same⟩ := List.append_inj' split rfl
      exact .inr ⟨seen, rfl, by rw [(List.cons.inj same).1]⟩
  induction run generalizing span with
  | begin => simp at split
  | @step past c c' run h ih =>
    rcases last split with ⟨rfl, rfl, rfl⟩ | ⟨seen, rfl, rfl⟩
    · exact first h
    · have inside : c ∈ seen ++ [c] := List.mem_append_right _ (List.mem_singleton_self c)
      refine next run inside h (ih rfl (fun y mem => stays y (List.mem_append_left _ mem)) ?_)
      exact fun run mem => next run (List.mem_append_left _ mem)
  | @resume past c run ended host s ih =>
    rcases last split with ⟨rfl, rfl, rfl⟩ | ⟨seen, rfl, rfl⟩
    · exact absurd ended going
    · have before := ih rfl (fun y mem => stays y (List.mem_append_left _ mem)) fun run mem =>
        next run (List.mem_append_left _ mem)
      obtain ⟨above, stack⟩ := suffix before
      rw [ended.1] at stack
      have same : c.stack = base := by rw [ended.1, (List.append_eq_nil_iff.1 stack.symm).2]
      exact absurd same (stays c (List.mem_append_right _ (List.mem_singleton_self c)))

/-- If an answer comes down to some frames, nothing panicked since they were covered. -/
theorem Program.Run.calm_of_uncovers {span : List (Config H)} (run : p.Run w past c)
    (split : past = before ++ x :: span) (going : ¬x.IsOver)
    (covers : ∀ {c}, p.step x = some c → ∃ above, c.stack = above ++ base)
    (stays : ∀ y ∈ span, y.stack ≠ base) (stack : c.stack = base) {a : Answer}
    (returns : c.control = .give a) : ∀ y ∈ span, y.IsCalm := by
  let P (seen : List (Config H)) (c : Config H) : Prop :=
    (∃ above, c.stack = above ++ base) ∧ (c.Falls base ∨ ∀ y ∈ seen ++ [c], y.IsCalm)
  have go : P span c := by
    refine run.above_induction split going stays (fun kept => kept.1) ?_ ?_
    · intro c first
      obtain ⟨above, stack⟩ := covers first
      refine ⟨⟨above, stack⟩, ?_⟩
      by_cases calm : c.IsCalm
      · exact .inr fun y mem => (List.mem_singleton.1 mem) ▸ calm
      · obtain ⟨message, control⟩ := Classical.not_forall.1 calm
        exact .inl (.inl ⟨message, above, Classical.not_not.1 control, stack⟩)
    · intro seen c c' run inside h ⟨⟨above, stack⟩, kept⟩
      have apart := stays c inside
      have course := run.course h
      have busy : above ≠ [] := by
        rintro rfl
        exact apart stack
      obtain ⟨above', stack'⟩ := course.stays stack (.inl busy)
      refine ⟨⟨above', stack'⟩, ?_⟩
      rcases kept with falls | calm
      · exact .inl (falls.step course h apart)
      · by_cases calm' : c'.IsCalm
        · refine .inr fun y mem => ?_
          rcases List.mem_append.1 mem with earlier | now
          · exact calm y earlier
          · exact List.mem_singleton.1 now ▸ calm'
        · obtain ⟨message, control⟩ := Classical.not_forall.1 calm'
          exact .inl (.inl ⟨message, above', Classical.not_not.1 control, stack'⟩)
  rcases go.2 with falls | calm
  · rcases falls with ⟨message, above, control, _⟩ | ⟨message, above, below, stack'⟩
    · rw [returns] at control
      cases control
    · rw [stack] at stack'
      have longer := congrArg List.length stack'
      simp at longer
      omega
  · exact fun y mem => calm y (List.mem_append_left _ mem)

/-- If an answer comes down to the frames that were there before, nothing panicked meanwhile. -/
theorem Program.Run.calm_of_returns {span : List (Config H)} (run : p.Run w past c)
    (split : past = before ++ x :: span) (going : x.control.isEnd = false)
    (stays : ∀ y ∈ span, y.stack ≠ x.stack) (stack : c.stack = x.stack) {a : Answer}
    (returns : c.control = .give a) : ∀ y ∈ span, y.IsCalm := by
  have begun : p.Run w before x := run.earlier (split ▸ ⟨span ++ [c], by simp⟩)
  refine run.calm_of_uncovers split ?_ (fun first => ?_) stays stack returns
  · rintro ⟨_, ⟨a, control⟩ | ⟨message, control⟩⟩ <;> rw [control] at going <;> cases going
  · exact (begun.course first).stays (List.nil_append _).symm (.inr going)

end Returns

/-! ## What a machine sets off -/

/-- Something that a machine sets off. -/
inductive Mark (H : Type) where
  /-- An entry action is called with a token. -/
  | enter (token : ScopeId) (action : Entry H)
  /-- A route is subscribed with a token. -/
  | subscribe (token : ScopeId) (route : Route)
  /-- The observer with this number is told of a change. -/
  | tell (number : Nat) (change : Change)

/-- What a machine sets off in the next step. -/
def Config.mark? (m : MachineId) (c : Config H) : Option (Mark H) :=
  match c.control, c.stack with
  | .give (.result (.ok ())), .acting _ token (action :: _) :: .activating n .. :: _ =>
    if n = m then some (.enter token action) else none
  | .give (.result _), .subscribing n a (route :: _) _ :: _ =>
    if n = m then some (.subscribe a.scope route) else none
  | .give (.result _), .publishing n change (r :: _) :: _ =>
    if n = m ∧ c.world.isCancelled r.token = false then some (.tell r.number change) else none
  | _, _ => none

/-- What a machine set off in the steps from the given configurations. -/
def marks (m : MachineId) (past : List (Config H)) : List (Mark H) := past.filterMap (Config.mark? m)

/-- A call asks to stop a machine. -/
def Config.AsksStop (m : MachineId) (c : Config H) : Prop :=
  c.control = .stop m ∧ ∃ rest, c.stack = .holding m :: rest

theorem marks_concat {past : List (Config H)} {c : Config H} :
    marks m (past ++ [c]) = marks m past ++ (c.mark? m).toList := by
  cases h : c.mark? m <;> simp [marks, h]

theorem Config.mark?_eq_none {c : Config H} (silent : ∀ r, c.control ≠ .give (.result r)) :
    c.mark? m = none := by
  unfold mark?
  split
  · next control stack => exact absurd control (silent _)
  · next control stack => exact absurd control (silent _)
  · next control stack => exact absurd control (silent _)
  · rfl

/-! ## While a state is entered or left -/

/-- Whether an event is handled or the first state is entered in this role. -/
def Role.isEngaged : Role → Bool
  | .first | .collect | .shift | .publish => true
  | _ => false

section Turns

variable {w : World H} {d : Option Deed} {e : Effect H} {cell cell' : MachineCell H}
  {ctl ctl' : Control H} {pops pushes : List (Frame H)}

/-- What a machine shows is changed by installing an activation only, and it runs until a stop. -/
theorem Turn.face_or_installs (turn : Turn p w m d e ⟨cell, ctl, pops⟩ ⟨cell', ctl', pushes⟩) :
    cell'.face = cell.face ∧ (ctl ≠ .stop m → cell.status = .running → cell'.status = .running) ∨
      ctl.isEnd ∧ ∃ a stage, pops = [.subscribing m a [] stage] := by
  cases turn with
  | begin | beginStopped | commit => exact .inr ⟨rfl, _, _, rfl⟩
  | stop => exact .inl ⟨rfl, fun go => absurd rfl go⟩
  | _ => exact .inl ⟨rfl, fun _ running => running⟩

/-- A stop is asked for by a call, or begins because the previous state could not be entered again. -/
theorem Turn.stop_top (turn : Turn p w m d e ⟨cell, ctl, pops⟩ ⟨cell', .stop m, pushes⟩) :
    (∃ fs, pushes = .holding m :: fs) ∨ roles m pops = [.shift] ∧ ∃ o, pushes = [.settling o] := by
  generalize stop : Control.stop m = ctl' at turn
  cases turn with
  | pin | signalAtOnce => exact .inl ⟨_, rfl⟩
  | restoreFailed => exact .inr ⟨roles_abandoning, _, rfl⟩
  | dropLast | unpinLast | stop =>
    have other := congrArg Control.machine? stop
    rw [Control.machine?_ofRelease] at other
    cases other
  | hold held quiet plain | drop held alive quiet plain | dismantled quiet plain
  | enqueue busy plain | finish empty plain | ignore plain | giveUp plain
  | observe live held quiet plain | unobserve plain | stopIgnored stopped plain | stopped plain
  | handOver pin plain | startFailed first quiet plain | unpin pin alive quiet plain =>
    rw [← stop] at plain
    cases plain
  | tell live plain | signal live plain | signalGone cancelled dead plain =>
    rw [← stop] at plain
    cases plain
  | _ => cases stop

end Turns

section Meanwhile

variable {w : World H} {past : List (Config H)} {c c' : Config H} {above base : List (Frame H)}

/-- While one activation is left for another, a stop comes from a call. -/
theorem Program.Run.asksStop_of_shift (run : p.Run w past c) (shift : .shift ∈ roles m c.stack)
    (stop : c.control = .stop m) : c.AsksStop m := by
  cases run with
  | begin => cases stop
  | @step past c₀ _ run h =>
    cases (run.move h).outlook m with
    | spared machine frames deed control control' =>
      rw [stop] at control'
      exact absurd rfl control'
    | start signal new found deed blank control frames =>
      rw [stop] at control
      cases control
    | turn pops pushes rest found found' turn before after =>
      rw [stop] at turn
      rcases turn.stop_top with ⟨fs, rfl⟩ | ⟨top, o, rfl⟩
      · exact ⟨stop, fs ++ rest, after⟩
      · -- the other change is over, so this one would be a second one
        have posture := (run.poised m).posture found
        rw [before, roles_append, top] at posture
        rw [after] at shift
        cases posture.isTransit_eq_false rfl (roles_settling ▸ shift)
  | resume => cases stop

/-- A machine is engaged in one thing at a time. -/
theorem Posture.isEngaged_eq_false {cell : MachineCell H} {ctl : Control H} {rs : List Role}
    {q r : Role} (posture : Posture m cell ctl (q :: rs)) (top : q.isEngaged) (mem : r ∈ rs) :
    r.isEngaged = false := by
  have first (init : .first ∈ q :: rs) : ∀ r ∈ q :: rs, r.isTransit = false :=
    (posture.first init).2
  have later : r ∈ q :: rs := List.mem_cons_of_mem _ mem
  cases q with
  | first =>
    have start : rs = [.start] := posture.nested.tail.eq_of_head?_start posture.nested.1
    rw [start, List.mem_singleton] at mem
    rw [mem]
    rfl
  | collect | shift | publish =>
    have quiet := posture.isTransit_eq_false rfl mem
    cases r with
    | first => cases first later _ (List.mem_cons_self ..)
    | collect | shift | publish => cases quiet
    | _ => rfl
  | _ => cases top

/-- Nothing of a machine enters a state above frames that are engaged for it. -/
theorem Posture.not_enters {cell : MachineCell H} {ctl : Control H} (fs : List (Frame H))
    {gs : List (Frame H)} {stage : Stage H} {r : Role}
    (posture : Posture m cell ctl (roles m (fs ++ (gs ++ base)))) (within : r ∈ roles m base)
    (engaged : r.isEngaged) : roles m fs ≠ [stage.role] := by
  intro entering
  have below : r ∈ roles m (gs ++ base) := roles_append ▸ List.mem_append_right _ within
  rw [roles_append, entering] at posture
  have none := posture.isEngaged_eq_false (by cases stage <;> rfl) below
  rw [engaged] at none
  cases none

variable {cell : MachineCell H} {r : Role} (run : p.Run w past c)
  (found : c.world.machine? m = some cell) (stack : c.stack = above ++ base)
  (busy : above ≠ [] ∨ c.control.isEnd = false) (within : r ∈ roles m base)
  (engaged : r.isEngaged)

include run found stack busy within engaged in
/-- What goes on above frames that are engaged for a machine sets nothing off for it. -/
theorem Program.Run.mark?_above
    (top : ∀ n x s stage rest, base ≠ .activating n x s stage :: rest) : c.mark? m = none := by
  have posture := (run.poised m).posture found
  rw [stack] at posture
  -- what sets something off is on top, so it is part of what goes on above
  have taller {a : Answer} {f : Frame H} {rest : List (Frame H)} (control : c.control = .give a)
      (first : c.stack = f :: rest) : ∃ above', above = f :: above' ∧ rest = above' ++ base :=
    Config.top_of_ended stack busy (by rw [control]; rfl) first
  unfold Config.mark?
  split
  · next state token action actions n x s stage rest control first =>
    refine if_neg ?_
    rintro rfl
    obtain ⟨above', rfl, split⟩ := taller control first
    cases above' with
    | nil => exact top _ _ _ _ _ split.symm
    | cons g above' =>
      obtain ⟨rfl, _⟩ := List.cons.inj split
      exact Posture.not_enters [_, _] posture within engaged (roles_acting.trans roles_activating)
  · next result n a route routes stage rest control first =>
    refine if_neg ?_
    rintro rfl
    obtain ⟨above', rfl, _⟩ := taller control first
    exact Posture.not_enters [_] posture within engaged roles_subscribing
  · next result n change o os rest control first =>
    refine if_neg ?_
    rintro ⟨rfl, _⟩
    obtain ⟨above', rfl, _⟩ := taller control first
    rw [List.cons_append, roles_publishing, roles_append] at posture
    have none := posture.isEngaged_eq_false rfl (List.mem_append_right _ within)
    rw [engaged] at none
    cases none
  · rfl

include run found stack busy within engaged in
/-- What goes on above frames that are engaged for a machine changes nothing that it shows, and if
the machine is left for another activation it goes on running unless somebody stops it. -/
theorem Program.Run.face_above (h : p.step c = some c') :
    ∃ cell', c'.world.machine? m = some cell' ∧ cell'.face = cell.face ∧
      (r = .shift → cell.status = .running → ¬c.AsksStop m → cell'.status = .running) := by
  have posture := (run.poised m).posture found
  have go (shift : r = .shift) (unstopped : ¬c.AsksStop m) : c.control ≠ .stop m := by
    intro stop
    refine unstopped (run.asksStop_of_shift ?_ stop)
    rw [stack, roles_append]
    exact List.mem_append_right _ (shift ▸ within)
  cases (run.move h).outlook m with
  | spared machine => exact ⟨cell, machine.trans found, rfl, fun _ running _ => running⟩
  | start signal new =>
    rw [found] at new
    cases new
  | turn pops pushes rest found₀ found' turn before after =>
    rw [found] at found₀
    cases found₀
    rcases turn.face_or_installs with ⟨face, status⟩ | ⟨ended, a, stage, rfl⟩
    · exact ⟨_, found', face, fun shift running unstopped => status (go shift unstopped) running⟩
    · -- an activation would be installed while the machine is engaged below
      obtain ⟨above', rfl, _⟩ := Config.top_of_ended stack busy ended before
      rw [stack] at posture
      exact absurd roles_subscribing (Posture.not_enters [_] posture within engaged)

end Meanwhile

end ScopedMachine

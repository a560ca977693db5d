import ScopedMachine.Proofs.AllOrNothing
import ScopedMachine.Proofs.Culprits
import ScopedMachine.Proofs.Forecast
import ScopedMachine.Proofs.Origins

/-!
# Who is told of a failure

A definition is collected for a host that wants to look at it, for a machine that starts, or for one
that an event is sent to. Each of them is told of the error with which the collection failed, and
that is the one that was raised first.
-/

namespace ScopedMachine

variable {H : Type} {p : Program H} {m : MachineId}

/-! ## A collection in a run -/

/-- What a computation goes on to in the end is one of its results. -/
theorem Gather.comesTo_of_leads {α : Type} {g : Gather H α} {a : α}
    (leads : Relation.ReflTransGen GoesOn g (.done a)) : g.ComesTo a := by
  induction leads using Relation.ReflTransGen.head_induction_on with
  | refl => exact .done a
  | head goesOn _ ih => exact goesOn.comesTo ih

/-- Somebody waits for a collection, which is not over. -/
structure Config.IsCollecting (base : List (Frame H)) (c : Config H) : Prop where
  stack : ∃ above, c.stack = above ++ base
  unfinished (here : c.stack = base) : ∃ g, c.control = .gather g ∧ ∀ r, g ≠ .done r

section Gathering

variable {w : World H} {before past span : List (Config H)} {x c c' : Config H} {i : Inquiry}
  {base rest : List (Frame H)}

/-- What a run has made of a collection: it goes on, or waits for host code. -/
inductive Config.Gathering (p : Program H) (i : Inquiry) (base : List (Frame H)) (c : Config H) :
    Prop where
  | here {g : Gather H (Except DefinitionError (Collected (Entry H)))}
      (control : c.control = .gather g) (stack : c.stack = base)
      (leads : Relation.ReflTransGen Gather.GoesOn (p.collect i.limit i.definition) g) :
      Gathering p i base c
  | waits {above : List (Frame H)}
      {k : Except Fault Unit → Gather H (Except DefinitionError (Collected (Entry H)))}
      (stack : c.stack = above ++ .gathering k :: base)
      (leads : ∀ r, Relation.ReflTransGen Gather.GoesOn (p.collect i.limit i.definition) (k r)) :
      Gathering p i base c
  | unwinds {message : String} (control : c.control = .panic message) (stack : c.stack = base) :
      Gathering p i base c

theorem Config.Gathering.step (gathering : c.Gathering p i base) (run : p.Run w past c)
    (collecting : c.IsCollecting base) (h : p.step c = some c') : c'.Gathering p i base := by
  cases gathering with
  | unwinds control stack =>
    obtain ⟨g, gathers, _⟩ := collecting.unfinished stack
    rw [control] at gathers
    cases gathers
  | @here g control stack leads =>
    obtain ⟨g', gathers, unfinished⟩ := collecting.unfinished stack
    cases control.symm.trans gathers
    obtain ⟨w, host, ctl, fs⟩ := c
    cases control
    cases stack
    cases g with
    | done r => exact absurd rfl (unfinished r)
    | perform s k =>
      cases h
      exact .waits (List.nil_append _).symm fun r => leads.tail (.perform s k r)
    | look k =>
      cases h
      exact .here rfl rfl (leads.tail (.look k _ _))
  | @waits above k stack leads =>
    by_cases busy : above ≠ [] ∨ c.control.isEnd = false
    · obtain ⟨above', stack'⟩ := (run.course h).stays stack busy
      exact .waits stack' leads
    · -- the host code that was waited for is over
      obtain ⟨none, ended⟩ := not_or.1 busy
      cases Classical.not_not.1 none
      obtain ⟨w, host, ctl, fs⟩ := c
      cases stack
      cases ctl with
      | give a =>
        cases a with
        | result r => cases h; exact .here rfl rfl (leads r)
        | _ => cases h
      | panic message => cases h; exact .unwinds rfl rfl
      | gather g =>
        cases g with
        | done r => cases h
        | _ => exact absurd rfl ended
      | _ => exact absurd rfl ended

/-- A collection that is under way in a run goes on as it does by itself. -/
theorem Program.Run.gathering (run : p.Run w past c) (split : past = before ++ x :: span)
    (begins : x.collects? = some i)
    (covers : ∀ {c}, p.step x = some c → c.stack = .collecting i.purpose :: rest)
    (under : ∀ y ∈ span, y.IsCollecting (.collecting i.purpose :: rest)) :
    c.Gathering p i (.collecting i.purpose :: rest) := by
  obtain ⟨c₁, first, gathers, _⟩ := p.step_of_collects begins
  have going : ¬x.IsOver := by
    rintro ⟨_, ⟨a, control⟩ | ⟨message, control⟩⟩ <;>
      · unfold Config.collects? at begins
        rw [control] at begins
        cases begins
  have covered : ∀ y ∈ span, y.stack ≠ [] := by
    intro y mem none
    obtain ⟨above, stack⟩ := (under y mem).stack
    simp [none] at stack
  let P (_ : List (Config H)) (c : Config H) : Prop :=
    c.Gathering p i (.collecting i.purpose :: rest)
  refine run.above_induction (P := P) split going covered ?_ ?_ ?_
  · intro _ c _
    exact ⟨c.stack, (List.append_nil _).symm⟩
  · intro c h
    cases first.symm.trans h
    exact .here gathers (covers first) .refl
  · intro seen c c' run inside h gathering
    exact gathering.step run (under c inside) h

/-- What a run has made of a collection that is over is one of its results. -/
theorem Config.Gathering.comesTo {r : Except DefinitionError (Collected (Entry H))}
    (gathering : c.Gathering p i base) (control : c.control = .gather (.done r))
    (stack : c.stack = base) : (p.collect i.limit i.definition).ComesTo r := by
  cases gathering with
  | here gathers _ leads =>
    cases control.symm.trans gathers
    exact Gather.comesTo_of_leads leads
  | waits stack' =>
    have longer := congrArg List.length (stack.symm.trans stack')
    simp at longer
    omega
  | unwinds panics => cases control.symm.trans panics

/-- The first error of a collection that failed in a run. -/
theorem Config.Gathering.exists_firstError {e : DefinitionError} (gathering : c.Gathering p i base)
    (passes : p.PassesOnBelow i.definition) (control : c.control = .gather (.done (.error e)))
    (stack : c.stack = base) : ∃ s, p.FirstError i.limit i.definition s e :=
  passes.exists_firstError (gathering.comesTo control stack)

end Gathering

/-! ## A start -/

section Told

variable {w : World H} {before past span : List (Config H)} {c z : Config H} {e : DefinitionError}
  {base : List (Frame H)}

/-- A start whose collection failed takes the machine down and says so. -/
theorem Program.Run.start_refused {signal : Option ScopeId} (run : p.Run w past c)
    (control : c.control = .gather (.done (.error e)))
    (stack : c.stack = .collecting (.initial m) :: .starting m signal :: base) :
    ∃ w', p.Reaches c ⟨w', c.host, .give (.started (.error (.definition e))), base⟩ := by
  obtain ⟨cell, found⟩ := run.grounded.frame
    (stack ▸ List.mem_cons_of_mem _ (List.mem_cons_self ..) : .starting m signal ∈ c.stack) rfl
  have first : .first ∈ roles m c.stack := by
    rw [stack, roles_initial]
    exact List.mem_cons_self ..
  have start : .start ∈ roles m c.stack := by
    rw [stack, roles_initial, roles_starting]
    exact List.mem_cons_of_mem _ (List.mem_cons_self ..)
  have unheld := run.unheld start found
  obtain ⟨_, found', _, _, vacant⟩ := run.shows_of_first found first rfl
  cases found.symm.trans found'
  obtain ⟨world, host, ctl, fs⟩ := c
  cases control
  cases stack
  have refuses : p.step ⟨world, host, .gather (.done (.error e)),
      .collecting (.initial m) :: .starting m signal :: base⟩ =
        some ⟨world, host, .give (.entered (.error e)), .starting m signal :: base⟩ := rfl
  -- the frame of the start holds the one handle on the machine
  have posture := ((run.step refuses).poised m).posture found
  rw [roles_starting] at posture
  obtain ⟨last, _⟩ := posture.pins_of_start
  let answer : Answer := .started (.error (.definition e))
  let w₁ := (world.modifyMachine m MachineCell.unpin).modifyMachine m MachineCell.clearCurrent
  let w₂ := w₁.modifyMachine m MachineCell.clearObservers
  have unpins : p.step ⟨world, host, .give (.entered (.error e)), .starting m signal :: base⟩ =
      some ⟨w₁, host, .give .unit, .dismantling m :: .settling (.gave answer) :: base⟩ := by
    simp only [Program.step, Program.resume]
    rw [Config.unpin_of_last found last unheld, vacant]
    rfl
  have dismantles : p.step ⟨w₁, host, .give .unit,
      .dismantling m :: .settling (.gave answer) :: base⟩ =
        some ⟨w₂, host, .give .unit, .settling (.gave answer) :: base⟩ := rfl
  have settles : p.step ⟨w₂, host, .give .unit, .settling (.gave answer) :: base⟩ =
      some ⟨w₂, host, .give answer, base⟩ := rfl
  exact ⟨w₂, .head refuses (.head unpins (.head dismantles (.single settles)))⟩

/-! ## A send -/

/-- The answer to a send is settled, while its machine may go on with the events that wait. -/
inductive Config.KeepsAnswer (m : MachineId) (r : Except MachineError Delivery)
    (base : List (Frame H)) (c : Config H) : Prop where
  | delivers {kind : String} (control : c.control = .give (.delivered r))
      (stack : c.stack = .draining m kind none :: base) : KeepsAnswer m r base c
  | drains {above : List (Frame H)} {kind : String}
      (stack : c.stack = above ++ .draining m kind (some r) :: base) : KeepsAnswer m r base c
  | answers (control : c.control = .give (.delivered r)) (stack : c.stack = base) :
      KeepsAnswer m r base c
  | unwinds {message : String} (control : c.control = .panic message) (stack : c.stack = base) :
      KeepsAnswer m r base c

theorem Config.keepsAnswer_drain (r : Except MachineError Delivery) (stack : c.stack = base) :
    (c.drain m r).KeepsAnswer m r base := by
  unfold drain
  split
  · exact .answers rfl stack
  · exact .drains ((congrArg (List.cons _) stack).trans (List.nil_append _).symm)

theorem Config.KeepsAnswer.step {r : Except MachineError Delivery} {c' : Config H}
    (keeps : c.KeepsAnswer m r base) (run : p.Run w past c) (covered : c.stack ≠ base)
    (h : p.step c = some c') : c'.KeepsAnswer m r base := by
  cases keeps with
  | answers _ stack | unwinds _ stack => exact absurd stack covered
  | delivers control stack =>
    obtain ⟨w, host, ctl, fs⟩ := c
    cases control
    cases stack
    cases h
    exact keepsAnswer_drain r rfl
  | @drains above kind stack =>
    by_cases busy : above ≠ [] ∨ c.control.isEnd = false
    · obtain ⟨above', stack'⟩ := (run.course h).stays stack busy
      exact .drains stack'
    · -- the event that was handled is done with
      obtain ⟨none, ended⟩ := not_or.1 busy
      cases Classical.not_not.1 none
      obtain ⟨w, host, ctl, fs⟩ := c
      cases stack
      cases ctl with
      | give a =>
        cases a with
        | delivered result =>
          cases h
          exact keepsAnswer_drain r (by cases result <;> rfl)
        | _ => cases h
      | panic message => cases h; exact .unwinds rfl rfl
      | gather g =>
        cases g with
        | done r => cases h
        | _ => exact absurd rfl ended
      | _ => exact absurd rfl ended

theorem Config.KeepsAnswer.suffix {r : Except MachineError Delivery}
    (keeps : c.KeepsAnswer m r base) : ∃ above, c.stack = above ++ base := by
  cases keeps with
  | delivers _ stack => exact ⟨[_], stack⟩
  | drains stack => exact ⟨_, stack.trans (List.append_cons ..)⟩
  | answers _ stack | unwinds _ stack => exact ⟨[], stack⟩

/-- A send is answered as its event was, whatever becomes of the events that wait behind it. -/
theorem Program.Run.answer_of_drain {r : Except MachineError Delivery} {a : Answer}
    (run : p.Run w past z) (split : past = before ++ c :: span) (going : ¬c.IsOver)
    (first : ∀ {c'}, p.step c = some c' → c'.KeepsAnswer m r base)
    (stays : ∀ y ∈ span, y.stack ≠ base) (stack : z.stack = base) (returns : z.control = .give a) :
    a = .delivered r := by
  let P (_ : List (Config H)) (c : Config H) : Prop := c.KeepsAnswer m r base
  have kept : P span z :=
    run.above_induction split going stays Config.KeepsAnswer.suffix first
      fun run inside h keeps => keeps.step run (stays _ inside) h
  cases kept with
  | delivers _ stack' =>
    have longer := congrArg List.length (stack.symm.trans stack')
    simp at longer
  | drains stack' =>
    have longer := congrArg List.length (stack.symm.trans stack')
    simp at longer
    omega
  | answers control => cases returns.symm.trans control; rfl
  | unwinds control => cases returns.symm.trans control

end Told

/-! ## Failures -/

/-- In a run a collection, which began at the instant `x`, fails at the instant `c`. -/
structure Program.FailsIn (p : Program H) (w : World H) (before : List (Config H)) (x : Config H)
    (span : List (Config H)) (c : Config H) (i : Inquiry) (rest : List (Frame H))
    (e : DefinitionError) : Prop where
  run : p.Run w (before ++ x :: span) c
  begins : x.collects? = some i
  covers {y : Config H} (first : p.step x = some y) : y.stack = .collecting i.purpose :: rest
  under : ∀ y ∈ span, y.IsCollecting (.collecting i.purpose :: rest)
  control : c.control = .gather (.done (.error e))
  stack : c.stack = .collecting i.purpose :: rest

/-- A definition that cannot be collected has one culprit, which everybody is told of. -/
structure Program.HasCulprit (p : Program H) (limit : Nat) (d : Definition) : Prop where
  /-- The first error is what the collection fails with, whatever else is done. -/
  first {s : Collecting H} {e : DefinitionError} (first : p.FirstError limit d s e) :
    (p.remainder limit s).Keeps (fun _ => True) (· = .error e)
  /-- A collection fails just if there is a first error, and it fails with that. -/
  fails (host : H) {e : DefinitionError} :
    (p.collect limit d).ComesTo (.error e) ↔ ∃ s, p.FirstError limit d s e
  /-- A check reports that the definition cannot be collected just if there is a first error, under the
  name of the definition itself and with the text of that error. -/
  checks {r : Except DefinitionError (Collected (Entry H))}
    (comes : (p.collect limit d).ComesTo r) :
    (∃ x, r = .ok x ∧ ∀ state reason, .uncollectable state reason ∉ d.issues r) ∨
      ∃ s e, p.FirstError limit d s e ∧ r = .error e ∧
        d.issues r = [.uncollectable d.name e.message]
  /-- The error with which a collection fails in a run is the first one. -/
  named {w : World H} {before span : List (Config H)} {x c : Config H} {i : Inquiry}
    {rest : List (Frame H)} {e : DefinitionError} (failed : p.FailsIn w before x span c i rest e)
    (limits : i.limit = limit) (definition : i.definition = d) : ∃ s, p.FirstError limit d s e
  /-- The host that looked at the definition is answered with that error. -/
  looks {w : World H} {before span : List (Config H)} {x c : Config H} {i : Inquiry}
    {rest : List (Frame H)} {e : DefinitionError} (failed : p.FailsIn w before x span c i rest e)
    (purpose : i.purpose = .view) :
    p.step c = some ⟨c.world, c.host, .give (.collected (.error e)), rest⟩
  /-- A start is answered with that error. -/
  starts {w : World H} {before span : List (Config H)} {x c : Config H} {i : Inquiry}
    {m : MachineId} {signal : Option ScopeId} {base : List (Frame H)} {e : DefinitionError}
    (failed : p.FailsIn w before x span c i (.starting m signal :: base) e)
    (purpose : i.purpose = .initial m) :
    ∃ w', p.Reaches c ⟨w', c.host, .give (.started (.error (.definition e))), base⟩
  /-- The send that led to the definition is answered with that error and nothing else: at once if no
  event waits for the machine, and otherwise when these have been handled. -/
  sends {w : World H} {before span : List (Config H)} {x c : Config H} {i : Inquiry}
    {m : MachineId} {type kind : String} {base : List (Frame H)} {e : DefinitionError}
    (failed : p.FailsIn w before x span c i (.draining m kind none :: base) e)
    (purpose : i.purpose = .transition m type) :
    ((c.world.machine? m).bind (·.inbox.pending.head?) = none →
      ∃ w' h', p.Reaches c ⟨w', h', .give (.delivered (.error (.definition e))), base⟩) ∧
    ∀ {later z a}, p.Run w (before ++ x :: span ++ c :: later) z →
      (∀ y ∈ later, y.stack ≠ base) → z.stack = base → z.control = .give a →
        a = .delivered (.error (.definition e))
  /-- The send of an event that waited was answered before. The subscriber is told of the error, and the
  machine goes on with the events that wait. -/
  queued {w : World H} {before span : List (Config H)} {x c : Config H} {i : Inquiry}
    {m : MachineId} {type kind : String} {r : Except MachineError Delivery}
    {base : List (Frame H)} {e : DefinitionError}
    (failed : p.FailsIn w before x span c i (.draining m kind (some r) :: base) e)
    (purpose : i.purpose = .transition m type) :
    p.Reaches c (((({ c with stack := base }).record p (.collectFailed e)).record p
      (.queuedFailed kind (.definition e))).drain m r)

section Failures

variable {limit : Nat} {d : Definition} {w : World H} {before span : List (Config H)}
  {x c : Config H} {i : Inquiry} {rest : List (Frame H)} {e : DefinitionError}

theorem Program.FailsIn.exists_firstError (failed : p.FailsIn w before x span c i rest e)
    (passes : p.PassesOnBelow i.definition) : ∃ s, p.FirstError i.limit i.definition s e :=
  (failed.run.gathering rfl failed.begins failed.covers failed.under).exists_firstError passes
    failed.control failed.stack

/-- A machine goes on after the target of an event could not be collected. -/
theorem Program.FailsIn.step_transition {type : String}
    (failed : p.FailsIn w before x span c i rest e) (purpose : i.purpose = .transition m type) :
    p.step c = some ((({ c with stack := rest }).record p (.collectFailed e)).deliver
      (.error (.definition e))) := by
  obtain ⟨_, _, _, _, control, stack⟩ := failed
  rw [purpose] at stack
  obtain ⟨w, host, ctl, fs⟩ := c
  cases control
  cases stack
  rfl

/-- Where bodies pass the errors of delegates on, everybody is told of the innermost culprit. -/
theorem Program.PassesOnBelow.hasCulprit (passes : p.PassesOnBelow d) : p.HasCulprit limit d where
  first first := first.keeps passes
  fails host _ := passes.fails_iff host
  checks {r} comes := by
    cases r with
    | ok y => exact .inl ⟨y, rfl, fun _ _ => Collected.not_mem_issues_uncollectable⟩
    | error e =>
      obtain ⟨s, first⟩ := passes.exists_firstError comes
      exact .inr ⟨s, e, first, rfl, rfl⟩
  named failed limits definition := by
    cases limits
    cases definition
    exact failed.exists_firstError passes
  looks {_ _ _ _ c _ _ _} failed purpose := by
    obtain ⟨_, _, _, _, control, stack⟩ := failed
    rw [purpose] at stack
    obtain ⟨w, host, ctl, fs⟩ := c
    cases control
    cases stack
    rfl
  starts failed purpose := failed.run.start_refused failed.control (purpose ▸ failed.stack)
  sends {_ _ _ _ c _ m _ kind base e} failed purpose := by
    have step := failed.step_transition purpose
    constructor
    · intro idle
      have drains : Config.drain m (.error (.definition e))
          (({ c with stack := base } : Config H).record p (.collectFailed e)) =
            ⟨c.world.modifyMachine m MachineCell.endDraining,
              p.subscriber (.collectFailed e) c.host, .give (.delivered (.error (.definition e))),
              base⟩ := by
        unfold Config.drain
        rw [show ((({ c with stack := base } : Config H).record p (.collectFailed e)).world.machine?
          m).bind (·.inbox.pending.head?) = none from idle]
        rfl
      exact ⟨_, _, .head step (.single (congrArg some drains))⟩
    · intro later z a run stays stack returns
      have first {c' : Config H} (h : p.step c = some c') :
          c'.KeepsAnswer m (.error (.definition e)) base := by
        cases step.symm.trans h
        exact .delivers rfl rfl
      refine run.answer_of_drain rfl ?_ first stays stack returns
      rintro ⟨none, _⟩
      rw [failed.stack] at none
      cases none
  queued failed purpose := .head (failed.step_transition purpose) (.single rfl)

end Failures

namespace Lamp

def night : Definition := .shared "night" "Night"

/-- At night the lamp goes by way of the cellar to the fuse, and there is none. -/
def blackout : Program Unit where
  declared key :=
    if key = "night" then
      .continueAs (.shared "cellar" "Cellar") fun r => .finish (r.mapError Fault.definition)
    else if key = "cellar" then
      .yield (.accumulate (.int 40)) <|
        .continueAs (.shared "fuse" "Fuse") fun r => .finish (r.mapError Fault.definition)
    else if key = "fuse" then .finish (.error (.plain "no fuse"))
    else program.declared key
  subscriber _ h := h

/-- What is wrong at night. -/
def noFuse : DefinitionError := .failure "Fuse" (.plain "no fuse")

/-- Start the lamp at night. -/
def nightfall : Script Unit := .call (.start night {} none) fun _ => .ok

/-- Where the run begins in which the lamp is started at night. -/
def atNight : Config Unit := { world, host := (), control := .run nightfall }

theorem blackout_passesOn (key : String) : (blackout.declared key).PassesOn := by
  unfold blackout
  dsimp only
  split
  · exact ⟨trivial, fun _ => rfl⟩
  · split
    · exact ⟨trivial, fun _ => rfl⟩
    · split <;> trivial

end Lamp

/-- The fuse is to blame, which is two delegations away, and the start says so. -/
theorem Program.PassesOnBelow.hasCulprit_blackout :
    Lamp.blackout.PassesOnBelow Lamp.night ∧ Lamp.blackout.HasCulprit 32 Lamp.night ∧
      Lamp.blackout.collect 32 Lamp.night = .done (.error Lamp.noFuse) ∧
      (∃ s, Lamp.blackout.FirstError 32 Lamp.night s Lamp.noFuse) ∧
      ∃ w', Lamp.blackout.Reaches (Lamp.blackout.run 1 Lamp.atNight)
        ⟨w', (), .give (.started (.error (.definition Lamp.noFuse))), [.await fun _ => .ok]⟩ := by
  have passes := Lamp.blackout.passesOnBelow Lamp.blackout_passesOn Lamp.night
  have culprit : Lamp.blackout.HasCulprit 32 Lamp.night := Program.PassesOnBelow.hasCulprit passes
  have failed : Lamp.blackout.FailsIn Lamp.world [] Lamp.atNight []
      (Lamp.blackout.run 1 Lamp.atNight) ⟨.initial ⟨0⟩, 32, Lamp.night⟩
      [.starting ⟨0⟩ none, .await fun _ => .ok] Lamp.noFuse := by
    refine ⟨(Program.Run.begin Lamp.world_isFresh () Lamp.nightfall).step rfl, rfl, ?_,
      List.forall_mem_nil _, rfl, rfl⟩
    intro y first
    cases first
    rfl
  exact ⟨passes, culprit, rfl, (culprit.fails ()).1 (.done _), culprit.starts failed rfl⟩

end ScopedMachine

import ScopedMachine.Proofs.Order
import ScopedMachine.Proofs.Piecewise
import ScopedMachine.Proofs.Roster

/-!
# Whom a dispatch calls

A dispatch is a frame that holds the listeners it has yet to come to. They are those that were
registered when it began, and each has its turn, in registration order, when the one before has
returned: it is called unless its token is cancelled by then. Whatever the listeners do in between
goes on above the frame, so it cannot change who is left. `Dispatch` says how far a dispatch is, and
one step goes on with it. What a listener returned is added to the report and told to the host as a
warning; the report is not looked at before the dispatch is over, so `Program.abreast` says that
nothing else depends on it. `Delivers` puts this together with what registries keep over a run.
-/

namespace ScopedMachine

variable {H : Type} {p : Program H}

/-! ## Turns -/

/-- The listener whose turn it is in the dispatch at a height of the stack. -/
def Config.turn? (height : Nat) (c : Config H) : Option (Registration (Listener H)) :=
  match c.control, c.stack with
  | .give (.result _), .dispatching _ (r :: _) _ :: rest =>
    if rest.length = height then some r else none
  | _, _ => none

/-- The listener that is called: it is its turn, and its token is not cancelled. -/
def Config.invoked? (height : Nat) (c : Config H) : Option (Registration (Listener H)) :=
  (c.turn? height).filter fun r => !c.world.isCancelled r.token

/-- What comes back to the dispatch at a height of the stack. -/
def Config.returned? (height : Nat) (c : Config H) : Option (Except Fault Unit) :=
  match c.control, c.stack with
  | .give (.result result), .dispatching _ _ _ :: rest =>
    if rest.length = height then some result else none
  | _, _ => none

/-- The listeners that had their turns, in this order. -/
def turns (height : Nat) (span : List (Config H)) : List (Registration (Listener H)) :=
  span.filterMap (Config.turn? height)

/-- The listeners that were called, in this order. -/
def invoked (height : Nat) (span : List (Config H)) : List (Registration (Listener H)) :=
  span.filterMap (Config.invoked? height)

/-- A listener was called, and this is what came back from it. -/
def Returned (height : Nat) (span : List (Config H)) (r : Registration (Listener H))
    (result : Except Fault Unit) : Prop :=
  ∃ pre y mid z post, span = pre ++ y :: (mid ++ z :: post) ∧ y.invoked? height = some r ∧
    (∀ u ∈ mid, u.returned? height = none) ∧ z.returned? height = some result

/-- The error that a listener returned, if it did. -/
def Fault.of? : Except Fault Unit → Option Fault
  | .ok _ => none
  | .error fault => some fault

namespace Report

/-- Add what a listener returned. -/
def note (result : Except Fault Unit) (report : Report) : Report :=
  report.absorb ⟨0, (Fault.of? result).toList⟩

/-- Count a listener that is called. -/
def count (report : Report) : Report := { report with delivered := report.delivered + 1 }

/-- The report about listeners that returned these results. -/
def tally (results : List (Except Fault Unit)) : Report :=
  ⟨results.length, results.filterMap Fault.of?⟩

theorem tally_concat {results : List (Except Fault Unit)} {result : Except Fault Unit} :
    tally (results ++ [result]) = (tally results).count.note result := by
  cases result <;> simp [tally, count, note, absorb, Fault.of?]

end Report

/-- Warn the host of what a listener under a topic returned, if it failed. -/
def Program.warn (p : Program H) (topic : String) (result : Except Fault Unit) (h : H) : H :=
  match result with
  | .ok _ => h
  | .error fault => p.subscriber (.listenerFailed topic fault) h

section Turns

variable {height : Nat} {span : List (Config H)} {c : Config H} {w : World H} {h : H} {e : Event}
  {r : Registration (Listener H)} {ls rest : List (Registration (Listener H))}
  {report : Report} {base : List (Frame H)} {result : Except Fault Unit}

theorem turns_concat : turns height (span ++ [c]) = turns height span ++ (c.turn? height).toList := by
  rw [turns, turns, List.filterMap_append, List.filterMap_cons]
  cases c.turn? height <;> rfl

theorem invoked_concat :
    invoked height (span ++ [c]) = invoked height span ++ (c.invoked? height).toList := by
  rw [invoked, invoked, List.filterMap_append, List.filterMap_cons]
  cases c.invoked? height <;> rfl

/-- Nothing comes back to a dispatch, and nobody has a turn, while something goes on above it. -/
theorem Config.quiet_of_busy {above : List (Frame H)} {f : Frame H}
    (stack : c.stack = above ++ f :: base) (busy : above ≠ [] ∨ c.control.isEnd = false) :
    c.returned? base.length = none ∧ c.turn? base.length = none := by
  obtain ⟨w, h, ctl, fs⟩ := c
  cases stack
  cases above with
  | nil =>
    have goes : ctl.isEnd = false := busy.resolve_left fun more => more rfl
    cases ctl with
    | give a => cases goes
    | _ => exact ⟨rfl, rfl⟩
  | cons g above =>
    have apart : (above ++ f :: base).length ≠ base.length := by
      rw [List.length_append, List.length_cons]
      omega
    constructor
    · unfold returned?
      split
      · next top =>
        cases top
        exact if_neg apart
      · rfl
    · unfold turn?
      split
      · next top =>
        cases top
        exact if_neg apart
      · rfl

theorem Returned.mono {more : List (Config H)} (returned : Returned height span r result) :
    Returned height (span ++ more) r result := by
  obtain ⟨pre, y, mid, z, post, rfl, here, quiet, back⟩ := returned
  exact ⟨pre, y, mid, z, post ++ more, by simp, here, quiet, back⟩

/-- What a listener returned is noted, and it is the turn of the next one. -/
theorem Program.step_dispatching : p.step ⟨w, h, .give (.result result), .dispatching e ls report :: base⟩ =
    some (Config.dispatchNext e ls (report.note result)
      ⟨w, p.warn e.kind result h, .give (.result result), base⟩) := by
  cases result with
  | ok => simp [Program.step, Program.resume, Report.note, Fault.of?, warn]
  | error fault =>
    simp [Program.step, Program.resume, Report.note, Fault.of?, warn, Config.record, Report.absorb]

theorem Config.invoke_control {ctl ctl' : Control H} {l : Listener H} :
    Config.invoke l e ⟨w, h, ctl, base⟩ = Config.invoke l e ⟨w, h, ctl', base⟩ := by
  cases l with
  | route m source =>
    simp only [invoke, forward]
    split <;> rfl
  | handler f => rfl

theorem Config.invoke_stack {l : Listener H} : ∃ above, (c.invoke l e).stack = above ++ c.stack := by
  cases l with
  | route m source =>
    simp only [invoke, forward]
    split
    · exact ⟨[.holding m, .forwarding], rfl⟩
    · exact ⟨[], rfl⟩
  | handler f => exact ⟨[], rfl⟩

/-- What an observer returned makes no difference but for the warning. -/
theorem Program.step_publishing {m : MachineId} {change : Change}
    {os : List (Registration (Observer H))} :
    p.step ⟨w, h, .give (.result result), .publishing m change os :: base⟩ =
      p.step ⟨w, p.warn Change.topic result h, .give (.result (.ok ())),
        .publishing m change os :: base⟩ := by
  cases result with
  | ok => rfl
  | error fault =>
    show some (Config.publishNext m change os ⟨w, p.warn Change.topic (.error fault) h, _, base⟩) = _
    cases os with
    | nil => rfl
    | cons r os =>
      obtain ⟨number, topic, token, o⟩ := r
      cases o <;> rfl

/-- The listener whose turn it is is called, unless its token is cancelled. -/
theorem Program.step_turn :
    p.step ⟨w, h, .give (.result result), .dispatching e (r :: rest) report :: base⟩ = some
      (if w.isCancelled r.token then
        ⟨w, p.warn e.kind result h, .give (.result (.ok ())),
          .dispatching e rest (report.note result) :: base⟩
      else
        Config.invoke r.listener e ⟨w, p.warn e.kind result h, .give (.result (.ok ())),
          .dispatching e rest (report.note result).count :: base⟩) := by
  rw [step_dispatching, Config.dispatchNext]
  dsimp only
  split
  · rfl
  · exact congrArg some Config.invoke_control

end Turns

/-! ## The course of a dispatch -/

/-- How far the dispatch of an event to the listeners `ls` is that stands above some frames; `span` was
passed since it began. -/
inductive Dispatch (e : Event) (ls : List (Registration (Listener H))) (base : List (Frame H))
    (span : List (Config H)) (c : Config H) : Prop where
  /-- The next listener has its turn. -/
  | next (left : List (Registration (Listener H))) (results : List (Except Fault Unit))
      (turned : ls = turns base.length span ++ left)
      (returned : List.Forall₂ (Returned base.length span) (invoked base.length span) results)
      (control : c.control = .give (.result (.ok ())))
      (stack : c.stack = .dispatching e left (.tally results) :: base)
  /-- The listener `r` was called, and has not returned before. -/
  | calling (left done : List (Registration (Listener H))) (results : List (Except Fault Unit))
      (r : Registration (Listener H)) (turned : ls = turns base.length span ++ left)
      (called : invoked base.length span = done ++ [r])
      (returned : List.Forall₂ (Returned base.length span) done results) (pre mid : List (Config H))
      (y : Config H) (split : span = pre ++ y :: mid) (here : y.invoked? base.length = some r)
      (quiet : ∀ u ∈ mid, u.returned? base.length = none) (above : List (Frame H))
      (stack : c.stack = above ++ .dispatching e left (Report.tally results).count :: base)
  /-- All listeners had their turns, and the report tells how many were called and what errors they
  returned. -/
  | finished (mid rest : List (Config H)) (z : Config H) (results : List (Except Fault Unit))
      (split : span ++ [c] = mid ++ z :: rest) (turned : ls = turns base.length mid)
      (returned : List.Forall₂ (Returned base.length mid) (invoked base.length mid) results)
      (control : z.control = .give (.report (.tally results))) (stack : z.stack = base)
  /-- A listener panicked, and those that are left have no turn. -/
  | lost (mid rest : List (Config H)) (z : Config H) (left : List (Registration (Listener H)))
      (split : span = mid ++ z :: rest) (turned : ls = turns base.length mid ++ left) (report : Report)
      (panics : ∃ message, z.control = .panic message)
      (stack : z.stack = .dispatching e left report :: base)

section Dispatch

variable {w : World H} {past span : List (Config H)} {c c' : Config H} {e : Event}
  {ls left : List (Registration (Listener H))} {base : List (Frame H)}
  {results : List (Except Fault Unit)} {report : Report} {q : Except Fault Unit}

/-- Something came back, and it is the turn of the next listener. -/
theorem Dispatch.turn (control : c.control = .give (.result q))
    (stack : c.stack = .dispatching e left report :: base)
    (turned : ls = turns base.length span ++ left) (noted : report.note q = .tally results)
    (returned : List.Forall₂ (Returned base.length (span ++ [c])) (invoked base.length span) results)
    (h : p.step c = some c') : Dispatch e ls base (span ++ [c]) c' := by
  obtain ⟨world, host, ctl, fs⟩ := c
  cases control
  cases stack
  cases left with
  | nil =>
    have none : Config.turn? base.length ⟨world, host, .give (.result q),
        .dispatching e [] report :: base⟩ = none := rfl
    rw [p.step_dispatching, noted] at h
    cases h
    refine .finished _ [] _ results rfl ?_ ?_ rfl rfl
    · rw [turned, turns_concat, none]
      rfl
    · rw [invoked_concat, Config.invoked?, none]
      exact (List.append_nil _).symm ▸ returned
  | cons r left =>
    have own : Config.turn? base.length ⟨world, host, .give (.result q),
        .dispatching e (r :: left) report :: base⟩ = some r := if_pos rfl
    have turned : ls = turns base.length (span ++ [⟨world, host, .give (.result q),
        .dispatching e (r :: left) report :: base⟩]) ++ left := by
      rw [turned, turns_concat, own, List.append_assoc]
      rfl
    rw [p.step_turn, noted] at h
    by_cases cancelled : world.isCancelled r.token
    · rw [if_pos cancelled] at h
      cases h
      refine .next left results turned ?_ rfl rfl
      rw [invoked_concat, Config.invoked?, own, Option.filter_some, if_neg (by simp [cancelled])]
      exact (List.append_nil _).symm ▸ returned
    · rw [if_neg cancelled] at h
      cases h
      have called : Config.invoked? base.length ⟨world, host, .give (.result q),
          .dispatching e (r :: left) report :: base⟩ = some r := by
        rw [Config.invoked?, own, Option.filter_some, if_pos (by simp [cancelled])]
      obtain ⟨above, stack⟩ := Config.invoke_stack (c := ⟨world, p.warn e.kind q host,
        .give (.result (.ok ())), .dispatching e left (Report.tally results).count :: base⟩)
        (e := e) (l := r.listener)
      refine .calling left _ results r turned ?_ returned span [] _ rfl called (List.forall_mem_nil _)
        above stack
      rw [invoked_concat, called]
      rfl

theorem Dispatch.step (dispatch : Dispatch e ls base span c) (run : p.Run w past c)
    (h : p.step c = some c') : Dispatch e ls base (span ++ [c]) c' := by
  cases dispatch with
  | next left results turned returned control stack =>
    refine Dispatch.turn control stack turned ?_ (returned.imp fun _ _ => Returned.mono) h
    simp [Report.note, Fault.of?, Report.absorb]
  | calling left done results r turned called returned pre mid y split here quiet above stack =>
    by_cases busy : above ≠ [] ∨ c.control.isEnd = false
    · obtain ⟨above', stack'⟩ := (run.course h).stays stack busy
      obtain ⟨silent, idle⟩ := Config.quiet_of_busy stack busy
      refine .calling left done results r ?_ ?_ (returned.imp fun _ _ => Returned.mono) pre
        (mid ++ [c]) y (by rw [split, List.append_assoc]; rfl) here ?_ above' stack'
      · rw [turned, turns_concat, idle, Option.toList_none, List.append_nil]
      · rw [invoked_concat, Config.invoked?, idle, called]
        exact List.append_nil _
      · exact List.forall_mem_append.2 ⟨quiet, List.forall_mem_singleton.2 silent⟩
    · obtain ⟨rfl, ⟨ans, control, resumes⟩ | ⟨message, control, -⟩⟩ :=
        Config.ends_of_idle h busy stack (by simp)
      · cases ans with
        | result q =>
          refine Dispatch.turn control stack turned Report.tally_concat.symm ?_ h
          rw [called]
          refine List.rel_append (returned.imp fun _ _ => Returned.mono) (.cons ?_ .nil)
          refine ⟨pre, y, mid, c, [], by rw [split, List.append_assoc]; rfl, here, quiet, ?_⟩
          simp [Config.returned?, control, stack]
        | _ => cases resumes
      · exact .lost span [] c left rfl turned _ ⟨message, control⟩ stack
  | finished mid rest z results split turned returned control stack =>
    exact .finished mid (rest ++ [c']) z results (by rw [split, List.append_assoc]; rfl) turned
      returned control stack
  | lost mid rest z left split turned report panics stack =>
    exact .lost mid (rest ++ [c]) z left (by rw [split, List.append_assoc]; rfl) turned report panics
      stack

/-- A dispatch is over when the program is. -/
theorem Dispatch.resume (dispatch : Dispatch e ls base span c) (ended : c.IsOver) :
    Dispatch e ls base (span ++ [c]) c' := by
  cases dispatch with
  | next left results turned returned control stack =>
    rw [ended.1] at stack
    cases stack
  | calling left done results r turned called returned pre mid y split here quiet above stack =>
    rw [ended.1] at stack
    simp at stack
  | finished mid rest z results split turned returned control stack =>
    exact .finished mid (rest ++ [c']) z results (by rw [split, List.append_assoc]; rfl) turned
      returned control stack
  | lost mid rest z left split turned report panics stack =>
    exact .lost mid (rest ++ [c]) z left (by rw [split, List.append_assoc]; rfl) turned report panics
      stack

/-- A dispatch that began goes on until each of the listeners that were registered then has had its
turn, or one of them panics. -/
theorem Program.Run.dispatch {before : List (Config H)} {x y : Config H} {slot : Nat}
    {source : SourceCell H} (run : p.Run w past c) (split : past = before ++ span)
    (first : (span ++ [c]).head? = some x) (begins : x = y.emit p slot e)
    (found : y.world.source? slot = some source) :
    Dispatch e (source.registry.matching e.kind) y.stack span c := by
  obtain ⟨rest, here⟩ := List.head?_eq_some_iff.1 first
  have passed : before ++ [x] <+: past ++ [c] := by
    refine ⟨rest, ?_⟩
    rw [split, List.append_assoc, List.append_assoc, here]
    rfl
  let P (past : List (Config H)) (c : Config H) : Prop := ∃ span, past = before ++ span ∧
    Dispatch e (source.registry.matching e.kind) y.stack span c
  have go : P past c := by
    refine run.since passed ⟨[], (List.append_nil _).symm, ?_⟩ ?_ ?_
    · rw [begins, Config.emit, found]
      exact .next _ [] rfl .nil rfl rfl
    · rintro past c c' run h ⟨span, rfl, dispatch⟩
      exact ⟨span ++ [c], List.append_assoc .., dispatch.step run h⟩
    · rintro past c run ended host s ⟨span, rfl, dispatch⟩
      exact ⟨span ++ [c], List.append_assoc .., dispatch.resume ended⟩
  obtain ⟨span', same, dispatch⟩ := go
  rw [split] at same
  exact List.append_cancel_left same ▸ dispatch

end Dispatch

/-! ## What a report is looked at for -/

/-- Two configurations that differ in the report of a dispatch above `base`, after `n` steps of each. -/
inductive Program.Abreast (p : Program H) (e : Event) (base : List (Frame H)) (report report' : Report)
    (n : Nat) (c c' : Config H) : Prop where
  /-- They differ in that report only, and the same was added to both. -/
  | underWay (x : Config H) (left : List (Registration (Listener H))) (more : Report)
      (here : p.run n c = x.above (.dispatching e left (report.absorb more) :: base))
      (there : p.run n c' = x.above (.dispatching e left (report'.absorb more) :: base))
  /-- After some of the steps the dispatch was over, and they differ in what it answers. -/
  | finished (k : Nat) (le : k ≤ n) (w : World H) (h : H) (more : Report)
      (here : p.run k c = ⟨w, h, .give (.report (report.absorb more)), base⟩)
      (there : p.run k c' = ⟨w, h, .give (.report (report'.absorb more)), base⟩)
  /-- After some of the steps they panic alike. -/
  | fell (k : Nat) (le : k ≤ n) (x : Config H) (panics : ∃ message, x.control = .panic message)
      (here : p.run k c = x) (there : p.run k c' = x)

section Abreast

variable {e : Event} {base : List (Frame H)} {report report' : Report} {n : Nat} {c c' d d' : Config H}

/-- Nothing happens any more. -/
theorem Program.Abreast.stuck {x : Config H} {left : List (Registration (Listener H))}
    (here : p.step (x.above (.dispatching e left report :: base)) = none)
    (there : p.step (x.above (.dispatching e left report' :: base)) = none) :
    p.Abreast e base report report' n (x.above (.dispatching e left report :: base))
      (x.above (.dispatching e left report' :: base)) := by
  refine .underWay x left {} ?_ ?_
  · rw [run_of_stuck here, Report.absorb_empty]
  · rw [run_of_stuck there, Report.absorb_empty]

/-- Both take a step, in which the same may be added to both reports. -/
theorem Program.Abreast.step (more : Report) (here : p.step c = some d) (there : p.step c' = some d')
    (abreast : p.Abreast e base (report.absorb more) (report'.absorb more) n d d') :
    p.Abreast e base report report' (n + 1) c c' := by
  cases abreast with
  | underWay x left more' run run' =>
    rw [Report.absorb_assoc] at run run'
    exact .underWay x left _ ((run_succ here n).trans run) ((run_succ there n).trans run')
  | finished k le w h more' run run' =>
    rw [Report.absorb_assoc] at run run'
    exact .finished (k + 1) (Nat.succ_le_succ le) w h _ ((run_succ here k).trans run)
      ((run_succ there k).trans run')
  | fell k le x panics run run' =>
    exact .fell (k + 1) (Nat.succ_le_succ le) x panics ((run_succ here k).trans run)
      ((run_succ there k).trans run')

/-- At a listener's turn something is added to the report that does not depend on it. -/
theorem Program.turn_apart {w : World H} {h : H} {result : Except Fault Unit}
    {r : Registration (Listener H)} {left : List (Registration (Listener H))} :
    ∃ (x : Config H) (more : Report), ∀ report,
      p.step ⟨w, h, .give (.result result), .dispatching e (r :: left) report :: base⟩ =
        some (x.above (.dispatching e left (report.absorb more) :: base)) := by
  by_cases cancelled : w.isCancelled r.token
  · refine ⟨⟨w, p.warn e.kind result h, .give (.result (.ok ())), []⟩, ⟨0, (Fault.of? result).toList⟩,
      fun report => ?_⟩
    rw [p.step_turn, if_pos cancelled]
    rfl
  · refine ⟨Config.invoke r.listener e ⟨w, p.warn e.kind result h, .give (.result (.ok ())), []⟩,
      ⟨1, (Fault.of? result).toList⟩, fun report => ?_⟩
    rw [p.step_turn, if_neg cancelled, ← Config.invoke_above]
    rfl

/-- Nothing depends on the report of a dispatch before it is over. -/
theorem Program.abreast {x : Config H} {left : List (Registration (Listener H))} :
    p.Abreast e base report report' n (x.above (.dispatching e left report :: base))
      (x.above (.dispatching e left report' :: base)) := by
  induction n generalizing x left report report' with
  | zero =>
    refine .underWay x left {} ?_ ?_
    · rw [Report.absorb_empty, run]
    · rw [Report.absorb_empty, run]
  | succ n ih =>
    have feeds {report report' : Report} : SameFeeds (.dispatching e left report :: base)
        (.dispatching e left report' :: base) := fun c i =>
      (Config.isOpen_above_cons (by simp)).trans (Config.isOpen_above_cons (by simp)).symm
    by_cases goes : x.Goes
    · cases here : p.step (x.above (.dispatching e left report :: base)) with
      | some d =>
        obtain ⟨d, rfl, there⟩ := p.step_swap feeds goes here
        refine .step {} here there ?_
        rw [Report.absorb_empty, Report.absorb_empty]
        exact ih
      | none =>
        refine .stuck here (Option.eq_none_iff_forall_ne_some.2 fun d' there => ?_)
        obtain ⟨d, _, here'⟩ := p.step_swap feeds goes there
        rw [here] at here'
        cases here'
    · obtain ⟨empty, ended⟩ := not_or.1 goes
      obtain ⟨w, h, ctl, stack⟩ := x
      cases Classical.not_not.1 empty
      cases ctl with
      | give a =>
        cases a with
        | result r =>
          -- a listener returned, and the next one has its turn
          cases left with
          | nil =>
            exact .finished 1 (Nat.le_add_left 1 n) w (p.warn e.kind r h) _
              (p.run_succ p.step_dispatching 0) (p.run_succ p.step_dispatching 0)
          | cons r' left =>
            obtain ⟨x, more, turn⟩ := p.turn_apart
            exact .step more (turn report) (turn report') ih
        | _ => exact .stuck rfl rfl
      | panic message =>
        exact .fell 1 (Nat.le_add_left 1 n) ⟨w, h, .panic message, base⟩ ⟨message, rfl⟩ rfl rfl
      | gather g =>
        cases g with
        | done r => exact .stuck rfl rfl
        | _ => exact absurd rfl ended
      | _ => exact absurd rfl ended

end Abreast

/-! ## What every registry can be relied on for -/

/-- What a listener returned matters for the failures of the report and for the warning only, and the
report is not looked at before the dispatch is over. -/
structure Program.Impartial (p : Program H) : Prop where
  /-- The listener whose turn it is is called and counted, unless its token is cancelled. -/
  turn (w : World H) (h : H) (e : Event) (r : Registration (Listener H))
      (rest : List (Registration (Listener H))) (report : Report) (base : List (Frame H)) :
    p.step ⟨w, h, .give (.result (.ok ())), .dispatching e (r :: rest) report :: base⟩ = some
      (if w.isCancelled r.token then
        ⟨w, h, .give (.result (.ok ())), .dispatching e rest report :: base⟩
      else
        Config.invoke r.listener e
          ⟨w, h, .give (.result (.ok ())), .dispatching e rest report.count :: base⟩)
  /-- It is the same as if it had returned nothing, with its error warned of and noted before. -/
  returned (w : World H) (h : H) (e : Event) (ls : List (Registration (Listener H))) (report : Report)
      (base : List (Frame H)) (result : Except Fault Unit) :
    p.step ⟨w, h, .give (.result result), .dispatching e ls report :: base⟩ =
      p.step ⟨w, p.warn e.kind result h, .give (.result (.ok ())),
        .dispatching e ls (report.note result) :: base⟩
  /-- The same goes for observers, of whom there is no report. -/
  observed (w : World H) (h : H) (m : MachineId) (change : Change)
      (os : List (Registration (Observer H))) (base : List (Frame H)) (result : Except Fault Unit) :
    p.step ⟨w, h, .give (.result result), .publishing m change os :: base⟩ =
      p.step ⟨w, p.warn Change.topic result h, .give (.result (.ok ())),
        .publishing m change os :: base⟩
  /-- Whatever the report says so far, a dispatch goes on alike. -/
  apart (n : Nat) (x : Config H) (e : Event) (left : List (Registration (Listener H)))
      (report report' : Report) (base : List (Frame H)) :
    p.Abreast e base report report' n (x.above (.dispatching e left report :: base))
      (x.above (.dispatching e left report' :: base))

theorem Report.note_ok {report : Report} : report.note (.ok ()) = report := by
  simp [note, Fault.of?, absorb]

theorem Program.impartial (p : Program H) : p.Impartial where
  turn w h e r rest report base := by
    rw [p.step_turn, Report.note_ok]
    rfl
  returned w h e ls report base result := by
    rw [p.step_dispatching, p.step_dispatching, Report.note_ok]
    cases ls with
    | nil => rfl
    | cons r ls =>
      rw [Config.dispatchNext, Config.dispatchNext]
      dsimp only
      split
      · rfl
      · exact congrArg some Config.invoke_control
  observed _ _ _ _ _ _ _ := p.step_publishing
  apart _ _ _ _ _ _ _ := p.abreast

/-- What can be relied on at an instant of a run about all registries and about the dispatches that
began before. -/
structure Delivers (p : Program H) (past : List (Config H)) (c : Config H) : Prop where
  impartial : p.Impartial
  /-- A dispatch goes to the listeners that were registered when it began. -/
  dispatch (before span : List (Config H)) (x y : Config H) (slot : Nat) (e : Event)
      (source : SourceCell H) (split : past = before ++ span)
      (first : (span ++ [c]).head? = some x) (begins : x = y.emit p slot e)
      (found : y.world.source? slot = some source) :
    Dispatch e (source.registry.matching e.kind) y.stack span c
  /-- A change is told to the observers that were registered when it was committed. -/
  publication (passed after : List (Config H)) (y : Config H) (m : MachineId) (change : Change)
      (split : past = passed ++ y :: after) (commits : y.deed? m = some (.committed change)) :
    ∃ cell base, y.world.machine? m = some cell ∧
      Publication m change (cell.observers.matching Change.topic) base after c
  /-- The numbers of the entries of a registry increase. -/
  ordered (q : Place) (b : Book) (found : c.world.book? q = some b) : b.Ordered
  /-- From an earlier instant to this one, entries of cancelled tokens went, and new ones stand
  behind those that are left. -/
  becomes (q : Place) (before : List (Config H)) (y : Config H) (b : Book)
      (passed : before ++ [y] <+: past ++ [c]) (found : y.world.book? q = some b) :
    ∃ b', c.world.book? q = some b' ∧
      b.Becomes b' (fun s => c.world.Released s ∨ c.Closed q) ∧
        ∀ e ∈ b.entries, ∀ e' ∈ b'.entries, e.1 = e'.1 → e = e'
  /-- When no release of its token is under way, an entry is there if its token is not cancelled, and
  only then, unless a panic ended the release. -/
  remains (q : Place) (before : List (Config H)) (y : Config H) (b : Book) (e : Nat × ScopeId)
      (passed : before ++ [y] <+: past ++ [c]) (found : y.world.book? q = some b)
      (mem : e ∈ b.entries) (quiet : ∀ ts, .releasing e.2 ts ∉ c.stack) (kept : ¬Lost e.2 past)
      (opened : ¬c.Closed q) :
    ∃ b', c.world.book? q = some b' ∧ (e ∈ b'.entries ↔ c.world.isCancelled e.2 = false)
  /-- An entry with a cancelled token is one that the release of the token is about to remove. -/
  undoing (q : Place) (b : Book) (e : Nat × ScopeId) (found : c.world.book? q = some b)
      (mem : e ∈ b.entries) (cancelled : c.world.isCancelled e.2 = true) :
    (∃ ts, .releasing e.2 ts ∈ c.stack ∧ (q, e.1) ∈ ts.filterMap Teardown.undoes?) ∨ Lost e.2 past

namespace Program.Run

variable {w : World H} {past passed after : List (Config H)} {c y : Config H} {m : MachineId}
  {change : Change}

/-- A change is told to the observers that were registered when it was committed. -/
theorem publication_of_commit (run : p.Run w past c) (split : past = passed ++ y :: after)
    (commits : y.deed? m = some (.committed change)) :
    ∃ cell base, y.world.machine? m = some cell ∧
      Publication m change (cell.observers.matching Change.topic) base after c := by
  obtain ⟨cell, r, n, event, previous, below, found, running, control, stack, rfl⟩ :=
    Config.of_committed commits
  have going : ¬y.IsOver := by
    rintro ⟨none, _⟩
    rw [stack] at none
    cases none
  obtain ⟨z, later, first, h, _⟩ := run.step_of_split split going
  obtain ⟨-, publishing⟩ := Program.step_of_commit found running control stack h
  exact ⟨cell, below, found, run.publication split first publishing⟩

/-- Dispatches reach the right listeners, and registries keep the right entries. -/
theorem delivers (run : p.Run w past c) : Delivers p past c where
  impartial := p.impartial
  dispatch _ _ _ _ _ _ _ split first begins found := run.dispatch split first begins found
  publication _ _ _ _ _ split commits := run.publication_of_commit split commits
  ordered _ _ found := run.owned.ordered found
  becomes q before y b passed found := by
    obtain ⟨b', found', becomes⟩ := run.becomes passed found
    exact ⟨b', found', becomes, fun e mem e' mem' =>
      becomes.eq_of_number ((run.earlier passed).owned.ordered found) mem mem'⟩
  remains q before y b e passed found mem quiet kept opened := by
    obtain ⟨b', found', becomes⟩ := run.becomes passed found
    refine ⟨b', found', fun here => ?_, fun live => (becomes.mem_or mem).resolve_right ?_⟩
    · by_contra cancelled
      rcases run.undoing_of_cancelled found' here (by simpa using cancelled) with ⟨ts, top, _⟩ | lost
      · exact quiet ts top
      · exact kept lost
    · rintro (released | closed)
      · rw [released.isCancelled] at live
        cases live
      · exact opened closed
  undoing q b e found mem cancelled := run.undoing_of_cancelled found mem cancelled

end Program.Run

namespace Lamp

/-- Listen to the switch with a token that has a teardown that panics, and cancel the token. -/
def blow : Script Unit :=
  .call (.newScope none) fun
    | .scope s =>
      .call (.onCancel s (.panic "the fuse blew")) fun _ =>
        .call (.listen 0 "toggle" (fun _ => .ok) s) fun _ => .call (.release s) fun _ => .ok
    | _ => .ok

/-- Where the run begins in which a listener is left over. -/
def blown : Config Unit := { world, host := (), control := .run blow }

theorem blown_run (n : Nat) :
    program.Run world (program.trail n blown) (program.run n blown) :=
  (Program.Run.begin world_isFresh () blow).trail n

end Lamp

/-- The lamp listens to its switch, and the switch is operated. -/
theorem Program.Run.delivers_lamp :
    (∃ (y : Config Unit) (source : SourceCell Unit),
      Lamp.program.run 15 Lamp.start = y.emit Lamp.program 0 { kind := "toggle" } ∧
        y.world.source? 0 = some source ∧ (source.registry.matching "toggle").length = 1) ∧
    Delivers Lamp.program (Lamp.program.trail 59 Lamp.start) (Lamp.program.run 59 Lamp.start) := by
  let y : Config Unit := { Lamp.program.run 14 Lamp.start with
    stack := (Lamp.program.run 15 Lamp.start).stack.tail }
  exact ⟨⟨y, _, rfl, rfl, by decide⟩, (Lamp.run 59).delivers⟩

/-- If another teardown of the token panics, the listener stays when the token is cancelled. -/
theorem Program.Run.left_over_lamp :
    ¬∀ (past : List (Config Unit)) (c : Config Unit) (q : Place) (b : Book) (e : Nat × ScopeId),
      Lamp.program.Run Lamp.world past c → c.world.book? q = some b → e ∈ b.entries →
        c.world.isCancelled e.2 = true → ∃ ts, .releasing e.2 ts ∈ c.stack := by
  intro claim
  obtain ⟨ts, top⟩ := claim _ _ (.source 0) _ (0, ⟨0⟩) (Lamp.blown_run 14) rfl
    (List.mem_singleton_self _) (by decide)
  cases top

end ScopedMachine

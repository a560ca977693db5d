import ScopedMachine.Proofs.Phases
import ScopedMachine.Proofs.Portrait
import ScopedMachine.Proofs.Signals

/-!
# A start does all or nothing

A call that starts a machine answers in one of three ways: the settings are refused, the first state
could not be entered, or the machine is there. In the first two nothing is left of the attempt. In
the third the machine is in its first state, and it stops when its signal is cancelled, also if that
had happened before.
-/

namespace ScopedMachine

variable {H : Type} {p : Program H} {m : MachineId}

/-! ## What belongs to a machine that is made -/

section Made

variable {w : World H} {before past span : List (Config H)} {x c : Config H} {s : ScopeId}

/-- A machine that is not there owns no scope. -/
theorem Program.Run.header?_of_missing (run : p.Run w past c) (missing : c.world.machine? m = none)
    (s : ScopeId) (b : Bool) : c.world.header? s ≠ some (b, some m) := by
  intro header
  obtain ⟨manager, holder⟩ := World.owner_eq.1 ⟨b, header⟩
  obtain ⟨cell, found, _⟩ := run.assigned.owned holder
  rw [missing] at found
  cases found

/-- The scopes of a machine that was made later are new. -/
theorem Program.Run.new_of_owner (run : p.Run w past c) (passed : x ∈ past)
    (made : ∀ b, x.world.header? s ≠ some (b, some m)) {b : Bool}
    (owner : c.world.header? s = some (b, some m)) : x.world.header? s = none := by
  cases known : x.world.header? s with
  | none => rfl
  | some header =>
    obtain ⟨b', o⟩ := header
    obtain ⟨b'', owner'⟩ := run.owner passed ⟨b', known⟩
    have mine : o = some m := congrArg Prod.snd (Option.some.inj (owner'.symm.trans owner))
    exact absurd (mine ▸ known) (made b')

/-- Something is registered with a token that is known. -/
theorem Program.Run.known_of_entry (run : p.Run w past c) {q : Place} {b : Book}
    (found : c.world.book? q = some b) {e : Nat × ScopeId} (mem : e ∈ b.entries) :
    ∃ header, c.world.header? e.2 = some header := by
  induction run generalizing b with
  | begin fresh host s =>
    rw [fresh.book? found] at mem
    cases mem
  | @step past c c' run h ih =>
    have known : ∃ header, c.world.header? e.2 = some header := by
      rcases (run.move h).books.known found mem with ⟨b', found', mem'⟩ | live
      · exact ih found' mem'
      · obtain ⟨owner, header⟩ := World.isCancelled_eq_false_iff.1 live
        exact ⟨_, header⟩
    obtain ⟨header, known⟩ := known
    obtain ⟨b', later⟩ := (run.move h).scopes.owner ⟨header.1, known⟩
    exact ⟨_, later⟩
  | resume run ended host s ih => exact ih found mem

/-- Unless something panicked since an instant, what was registered since with a new token hangs off
the scope of that token. -/
theorem Program.Run.covered_since (run : p.Run w past c) (passed : before ++ [x] <+: past ++ [c])
    (calm : ∀ y ∈ past.drop before.length, y.IsCalm) {q : Place} {b : Book}
    (found : c.world.book? q = some b) {e : Nat × ScopeId} (mem : e ∈ b.entries)
    (new : x.world.header? e.2 = none) : (q, e.1) ∈ c.hung e.2 := by
  let P (past : List (Config H)) (c : Config H) : Prop :=
    before.length ≤ past.length ∧ ((∀ y ∈ past.drop before.length, y.IsCalm) → ∀ q b e,
      c.world.book? q = some b → e ∈ b.entries → x.world.header? e.2 = none → (q, e.1) ∈ c.hung e.2)
  have begun := run.earlier passed
  have go : P past c := by
    refine run.since (P := P) passed ⟨Nat.le_refl _, fun _ q b e found mem new => ?_⟩ ?_ ?_
    · obtain ⟨header, known⟩ := begun.known_of_entry found mem
      rw [new] at known
      cases known
    · intro past c c' run h ⟨longer, covered⟩
      have split : (past ++ [c]).drop before.length = past.drop before.length ++ [c] :=
        List.drop_append_of_le_length longer
      refine ⟨by rw [List.length_append]; omega, fun calm q b e found mem new => ?_⟩
      rw [split] at calm
      refine (run.move h).books.covered_entry (calm c (by simp)) found mem fun b' found' mem' => ?_
      exact covered (fun y inside => calm y (List.mem_append_left _ inside)) q b' e found' mem' new
    · intro past c run ended host s ⟨longer, covered⟩
      refine ⟨by rw [List.length_append]; omega, fun calm q b e found mem new => ?_⟩
      refine covered (fun y inside => calm y ?_) q b e found mem new
      rw [List.drop_append_of_le_length longer]
      exact List.mem_append_left _ inside
  exact go.2 calm q b e found mem new

end Made

/-! ## A start that fails leaves nothing -/

/-- Nothing is left of a machine that was made after the instant `x`. -/
structure Undone (m : MachineId) (x : Config H) (span : List (Config H)) (c : Config H) : Prop where
  /-- Every scope of the machine was released, and its teardowns were performed. -/
  scopes {s : ScopeId} {b : Bool} (mine : c.world.header? s = some (b, some m)) :
    Discarded m x span c s
  /-- No listener and no observer is registered with a token of the machine. -/
  registered {q : Place} {b : Book} (found : c.world.book? q = some b) {e : Nat × ScopeId}
    (mem : e ∈ b.entries) (o : Bool) : c.world.header? e.2 ≠ some (o, some m)
  /-- No source leads to the machine. -/
  routes {slot : Nat} {r : Registration (Listener H)} (mem : r ∈ c.world.entries slot)
    (source : SourceId) : r.listener ≠ .route m source
  /-- The machine is gone, and no signal is to stop it. -/
  forgotten : c.Forgotten m

section Undone

variable {w : World H} {before past span : List (Config H)} {x c : Config H} {s : ScopeId}
  {k : Answer → Script H} {a : Answer}

/-- Nothing is under way for a machine that is not there. -/
theorem Program.Run.roles_of_missing (run : p.Run w past c) (missing : c.world.machine? m = none) :
    roles m c.stack = [] := by
  have poised := run.poised m
  simp only [Config.Poised, missing] at poised
  exact congrArg (List.filterMap Frame.role?) poised.1

/-- A machine that is gone has no activation. -/
theorem Program.Run.current?_of_gone (run : p.Run w past c)
    (gone : ∃ cell, c.world.machine? m = some cell ∧ cell.isAlive = false) :
    c.world.current? m = none := by
  obtain ⟨cell, found, dead⟩ := gone
  rw [World.current?_of_machine? found]
  refine Option.eq_none_iff_forall_ne_some.2 fun a current => ?_
  have alive := (((run.poised m).posture found).current (by rw [current]; rfl)).2
  rw [dead] at alive
  cases alive

/-- A machine that has no activation and for which nothing is under way has no live scope. -/
theorem Program.Run.header?_of_vacant (run : p.Run w past c) (vacant : c.world.current? m = none)
    (idle : roles m c.stack = []) (control : c.control = .give a) :
    c.world.header? s ≠ some (false, some m) := by
  intro live
  rcases (run.holding m).accounted live with ⟨g, held, _⟩ | release
  · rcases List.mem_append.1 held with current | frame
    · cases found : c.world.machine? m with
      | none =>
        rw [found] at current
        cases current
      | some cell =>
        rw [found, Option.map_some, Option.getD_some, MachineCell.grips,
          ← World.current?_of_machine? found, vacant] at current
        cases current
    · rw [grips_of_roles (by simp [idle]) (by simp [idle])] at frame
      cases frame
  · rw [control] at release
    cases release

/-- When a start answers that it failed, nothing is left of the machine. -/
theorem Program.Run.undone (run : p.Run w past c) (split : past = before ++ x :: span)
    (missing : x.world.machine? m = none) (calm : ∀ u ∈ x :: span, u.IsCalm)
    (above : ∀ u ∈ span, ∃ fs, u.stack = fs ++ .await k :: x.stack)
    (stack : c.stack = .await k :: x.stack) (control : c.control = .give a)
    (forgotten : c.Forgotten m) : Undone m x span c := by
  have passed : before ++ [x] <+: past ++ [c] := ⟨span ++ [c], by simp [split]⟩
  have begun := run.earlier passed
  have here : x ∈ past := by simp [split]
  have new {s : ScopeId} {b : Bool} (mine : c.world.header? s = some (b, some m)) :
      x.world.header? s = none :=
    run.new_of_owner here (begun.header?_of_missing missing s) mine
  have idle : roles m c.stack = [] := by
    rw [stack, roles_of_free rfl]
    exact begun.roles_of_missing missing
  have released {s : ScopeId} {b : Bool} (mine : c.world.header? s = some (b, some m)) :
      c.world.header? s = some (true, some m) := by
    cases b with
    | true => exact mine
    | false =>
      exact absurd mine (run.header?_of_vacant (run.current?_of_gone forgotten.gone) idle control)
  have registered {q : Place} {b : Book} (found : c.world.book? q = some b) {e : Nat × ScopeId}
      (mem : e ∈ b.entries) (o : Bool) : c.world.header? e.2 ≠ some (o, some m) := by
    intro mine
    have cancelled : c.world.isCancelled e.2 := by
      rw [World.isCancelled_iff, released mine]
      nofun
    have hung := run.covered_since passed (by rw [split, List.drop_left]; exact calm) found mem
      (new mine)
    rw [Config.hung, World.hung, run.tidy e.2 cancelled] at hung
    obtain ⟨f, inside, hung⟩ := List.mem_flatMap.1 hung
    -- a release that is under way below the start is one of a scope that was known before
    rw [stack] at inside
    cases f with
    | releasing t ts =>
      rw [Frame.hung] at hung
      split at hung
      · next same =>
        subst same
        obtain ⟨owner, known⟩ := begun.releases _ ts (by simpa using inside)
        rw [new mine] at known
        cases known
      · cases hung
    | _ => cases hung
  refine ⟨fun {s b} mine => ?_, registered, fun {slot r} mem source route => ?_, forgotten⟩
  · obtain ⟨u, mem, frees⟩ := run.frees_of_released (released mine)
    obtain ⟨_, live⟩ := Config.frees?_eq_some_iff.1 frees
    obtain ⟨owner, header⟩ := World.isCancelled_eq_false_iff.1 live
    obtain ⟨b', owner'⟩ := run.owner mem ⟨false, header⟩
    have same : owner = some m :=
      congrArg Prod.snd (Option.some.inj (owner'.symm.trans (released mine)))
    subst same
    have inside : u ∈ span := by
      rw [split] at mem
      refine (List.mem_append.1 mem).elim (fun earlier => ?_) fun later => ?_
      · obtain ⟨b'', known⟩ := begun.owner earlier ⟨false, header⟩
        rw [new mine] at known
        cases known
      · refine (List.mem_cons.1 later).resolve_left ?_
        rintro rfl
        rw [new mine] at header
        cases header
    obtain ⟨fs, covered⟩ := above u inside
    exact run.discarded split (new mine) inside frees header covered stack fun y later =>
      calm y (List.mem_cons_of_mem _ later)
  · obtain ⟨b, mine⟩ := (run.holding m).mine mem route
    obtain ⟨book, found, line⟩ := World.exists_book_of_entry mem
    exact registered found line b mine

end Undone

/-! ## From the call to its answer -/

/-- What is so from the first step of a start until it answers. -/
inductive Startup (p : Program H) (m : MachineId) (settings : Settings) (d : Definition)
    (signal : Option ScopeId) (base : List (Frame H)) (seen : List (Config H)) (c : Config H) :
    Prop where
  | entering (entering : Entering p m settings d (.starting m signal :: base) seen c)
      (shows : c.Shows m (.blank m settings) .idle none)
      (nascent : ∀ u ∈ seen, .first ∈ roles m u.stack)
  | failing (error : DefinitionError) (failing : Failing p m settings d signal base seen c error)
  | handing (pre : List (Config H)) (z : Config H) (post : List (Config H))
      (y : Collected (Entry H)) (s : ScopeId) (split : seen ++ [c] = pre ++ z :: post)
      (begun : Begun p m settings d (.starting m signal :: base) pre z y s)
      (marks : marks m seen = marks m pre)
      (sound : ∀ u ∈ seen, ¬u.Balks m (.starting m signal :: base))
      (handing : Handing m signal (.first m settings y) ⟨y, .build y.directives, s⟩ base z c)

section Startup

variable {w : World H} {past seen : List (Config H)} {x c c' : Config H} {settings : Settings}
  {d : Definition} {signal : Option ScopeId} {base : List (Frame H)} {k : Answer → Script H}

/-- One step of a start. -/
theorem Startup.step (startup : Startup p m settings d signal base seen c) (run : p.Run w past c)
    (h : p.step c = some c') (calm : c.IsCalm) (apart : c.stack ≠ base) :
    Startup p m settings d signal base (seen ++ [c]) c' := by
  cases startup with
  | entering entering shows nascent =>
    have nascent' : ∀ u ∈ seen ++ [c], .first ∈ roles m u.stack := by
      intro u mem
      rcases List.mem_append.1 mem with earlier | now
      · exact nascent u earlier
      · rw [List.mem_singleton.1 now]
        exact entering.stands.2
    cases entering.step run h calm shows nascent' with
    | on entering shows => exact .entering entering shows nascent'
    | refused error refused => exact .failing error (.refused refused)
    | begun y s begun =>
      exact .handing (seen ++ [c]) c' [] y s rfl begun rfl begun.sound (.begun rfl)
  | failing error failing => exact .failing error (failing.step run h apart)
  | handing pre z post y s split begun marks sound handing =>
    refine .handing pre z (post ++ [c']) y s ?_ begun ?_
      (Config.sound_concat sound (handing.not_balks begun.control))
      (handing.step run h calm apart begun.shows begun.control begun.stack)
    · rw [split, List.append_assoc]
      rfl
    · rw [marks_quiet _ (handing.mark?_eq_none begun.control), marks]

/-- The frames that were there when a start began stay until it answers. -/
theorem Startup.covers (startup : Startup p m settings d signal base seen c) :
    ∃ above, c.stack = above ++ base := by
  cases startup with
  | entering entering =>
    obtain ⟨above, f, stack⟩ := entering.stands.1
    exact ⟨above ++ [f, .starting m signal], by rw [stack, List.append_assoc]; rfl⟩
  | failing error failing =>
    cases failing with
    | refused refused => exact ⟨[_], refused.stack⟩
    | dismantling _ _ _ stack => exact ⟨[_, _], stack⟩
    | settling _ _ _ stack => exact ⟨[_], stack⟩
    | failed _ _ _ stack => exact ⟨[], stack⟩
  | handing pre z post y s split begun marks sound handing =>
    cases handing with
    | begun same => exact ⟨[_], same ▸ begun.stack⟩
    | hooked _ _ _ _ stack => exact ⟨[_], stack⟩
    | asked _ _ _ stack => exact ⟨[_, _], stack⟩
    | stopping _ _ _ above stack => exact ⟨above ++ [_], by rw [stack, List.append_assoc]; rfl⟩
    | handed _ _ _ stack => exact ⟨[], stack⟩

/-- What is so when a start answers. -/
theorem Program.Run.startup {before span : List (Config H)} (run : p.Run w past c)
    (split : past = before ++ x :: span) (yields : p.Yields fun _ => True)
    (call : x.control = .run (.call (.start d settings signal) k))
    (valid : settings.validate = .ok ()) (stack : c.stack = .await k :: x.stack)
    (first : ∀ u ∈ span, u.stack ≠ .await k :: x.stack) {a : Answer} (control : c.control = .give a) :
    Startup p x.world.nextMachine settings d signal (.await k :: x.stack) span c ∧
      (∀ u ∈ span, ∃ above, u.stack = above ++ .await k :: x.stack) ∧ ∀ u ∈ x :: span, u.IsCalm := by
  have starts := Program.step_start (p := p) call valid
  have going : ¬x.IsOver := by
    rintro ⟨_, ⟨a, ends⟩ | ⟨message, ends⟩⟩ <;> rw [call] at ends <;> cases ends
  have calm : ∀ u ∈ span, u.IsCalm := by
    refine run.calm_of_uncovers split going (fun {c'} h => ?_) first stack control
    cases starts.symm.trans h
    exact ⟨[_, _], rfl⟩
  have whole := run.above_induction
    (P := fun seen c => Startup p x.world.nextMachine settings d signal (.await k :: x.stack) seen c ∧
      ∀ u ∈ seen, ∃ above, u.stack = above ++ .await k :: x.stack)
    split going first (fun startup => startup.1.covers) ?_ ?_
  · refine ⟨whole.1, whole.2, fun u mem => ?_⟩
    rcases List.mem_cons.1 mem with rfl | later
    · intro message panics
      rw [call] at panics
      cases panics
    · exact calm u later
  · intro c' h
    cases starts.symm.trans h
    obtain ⟨r, collects, _⟩ := yields.collect settings.delegationLimit d
    refine ⟨.entering (.collecting r collects rfl (by rw [collects]) rfl) ?_ nofun, nofun⟩
    exact ⟨_, World.machine?_bear.trans (if_pos rfl), rfl, rfl, rfl⟩
  · intro seen c c' run mem h ⟨startup, above⟩
    refine ⟨startup.step run h (calm c mem) (first c mem), fun u inside => ?_⟩
    rcases List.mem_append.1 inside with earlier | now
    · exact above u earlier
    · rw [List.mem_singleton.1 now]
      exact startup.covers

end Startup

/-! ## A start that succeeds -/

/-- On each emitter and timer a machine listens with a token to what its state listens to. -/
def Config.Listens (m : MachineId) (y : Collected (Entry H)) (s : ScopeId) (c : Config H) : Prop :=
  ∀ slot, c.world.source? slot ≠ none → (∀ id, c.world.sourceHeader? slot ≠ some (id, true)) →
    c.world.subscribed m slot s = lines slot (RouteTable.build y.directives).routes

/-- The first state of a machine is in place at the instant `z`, and `pre` was passed since the start
began at the instant `x`. -/
structure Established (p : Program H) (m : MachineId) (settings : Settings) (x : Config H)
    (pre : List (Config H)) (z : Config H) (y : Collected (Entry H)) (s : ScopeId) : Prop where
  shows : z.Shows m (.first m settings y) .running (some ⟨y, .build y.directives, s⟩)
  new : x.world.header? s = none
  live : z.world.header? s = some (false, some m)
  listens : z.Listens m y s
  /-- What was routed to the machine before was ignored. -/
  ignored {u : Config H} (mem : u ∈ pre) {source : SourceId} {e : Event}
    (routes : u.control = .route m source e) : p.step u = some (u.deliver (.ok .ignored))
  /-- No event that was sent before waits to be routed. -/
  empty {cell : MachineCell H} (found : z.world.machine? m = some cell) : cell.inbox = {}

/-- How a machine is handed over whose first state was in place at the instant `z`. -/
inductive Outset (m : MachineId) (settings : Settings) (signal : Option ScopeId)
    (y : Collected (Entry H)) (s : ScopeId) (z c : Config H) : Prop where
  /-- The signal is not cancelled, and will stop the machine. -/
  | running (live : ∀ σ, signal = some σ → z.world.isCancelled σ = false)
      (hung : ∀ σ, signal = some σ → .stop m ∈ c.world.teardowns σ)
      (shows : c.Shows m (.first m settings y) .running (some ⟨y, .build y.directives, s⟩))
      (mine : c.world.header? s = some (false, some m)) (listens : c.Listens m y s)
  /-- The signal is cancelled, and the machine was stopped. -/
  | stopped (cancelled : ∃ σ, signal = some σ ∧ z.world.isCancelled σ = true)
      (shows : c.Shows m (.first m settings y) .stopped none)
      (released : ∀ t, c.world.header? t ≠ some (false, some m))

/-- What is so when a start answers that it succeeded. It began at the instant `x`, above some frames,
and `span` was passed since. -/
structure Launched (p : Program H) (m : MachineId) (settings : Settings) (d : Definition)
    (signal : Option ScopeId) (base : List (Frame H)) (x : Config H) (past span : List (Config H))
    (c : Config H) (y : Collected (Entry H)) (s : ScopeId) : Prop where
  collects : p.collect settings.delegationLimit d = .done (.ok y)
  /-- All entry actions were called, each once and in order, then all routes were subscribed, and no
  observer was told of anything. -/
  marks : marks m span = y.actions.map (.enter s) ++
    (RouteTable.build y.directives).routes.map (.subscribe s)
  /-- No entry action failed. -/
  sound : ∀ u ∈ span, ¬u.Balks m (.starting m signal :: base)
  /-- There is no change that an observer could be told of. -/
  silent : commits (deeds m past) = []
  held : c.world.isHeld m
  established : ∃ pre z post, span ++ [c] = pre ++ z :: post ∧
    Established p m settings x pre z y s ∧ Outset m settings signal y s z c

section Launched

variable {w : World H} {before past span pre : List (Config H)} {x z c : Config H}
  {settings : Settings} {d : Definition} {signal : Option ScopeId} {base : List (Frame H)}
  {face : Face} {y : Collected (Entry H)} {s : ScopeId}

/-- A machine with an activation in place lives in its scope and listens to its routes. -/
theorem Program.Run.serves_of_shows (run : p.Run w past c)
    (shows : c.Shows m face .running (some ⟨y, .build y.directives, s⟩)) :
    c.world.header? s = some (false, some m) ∧ c.Listens m y s := by
  obtain ⟨cell, found, _, _, current⟩ := shows
  have placed : c.world.current? m = some ⟨y, .build y.directives, s⟩ :=
    (World.current?_of_machine? found).trans current
  have held := Program.Run.mem_grips_of_current placed
  refine ⟨(run.holding m).live held, fun slot source plain => ?_⟩
  have emitter : ∀ id, w.sourceHeader? slot ≠ some (id, true) := fun id hosted =>
    plain id ((run.sourceHeader? slot).trans hosted)
  have subscribed := run.subscribedOn emitter m _ held source
  rwa [show Grip.rest _ = [] from rfl, show lines slot [] = [] from rfl, List.append_nil] at subscribed

/-- Before the first state of a machine is in place, what is routed to the machine is ignored. -/
theorem Program.Run.ignored_of_first (run : p.Run w past c) (first : .first ∈ roles m c.stack)
    {source : SourceId} {e : Event} (routes : c.control = .route m source e) :
    p.step c = some (c.deliver (.ok .ignored)) := by
  obtain ⟨cell, found⟩ := run.grounded.control (by rw [routes]; rfl)
  have idle := run.idle_of_first found first
  simp only [Program.step, routes, Config.performRoute, found, idle]
  rfl

/-- The first state is in place when it was entered. -/
theorem Begun.established {below : List (Frame H)}
    (begun : Begun p m settings d (.starting m signal :: below) pre z y s)
    (run : p.Run w (before ++ x :: pre) z) (missing : x.world.machine? m = none) :
    Established p m settings x pre z y s where
  shows := begun.shows
  new := by
    have passed : before ++ [x] <+: (before ++ x :: pre) ++ [z] := ⟨pre ++ [z], by simp⟩
    exact run.new_of_owner (by simp) ((run.earlier passed).header?_of_missing missing s)
      (run.serves_of_shows begun.shows).1
  live := (run.serves_of_shows begun.shows).1
  listens := (run.serves_of_shows begun.shows).2
  ignored := by
    intro u mem source e routes
    obtain ⟨earlier, later, rfl⟩ := List.append_of_mem mem
    have passed : (before ++ x :: earlier) ++ [u] <+: (before ++ x :: (earlier ++ u :: later)) ++ [z] :=
      ⟨later ++ [z], by simp⟩
    exact (run.earlier passed).ignored_of_first (begun.nascent u mem) routes
  empty := by
    intro cell found
    have posture := (run.poised m).posture found
    rw [begun.stack, roles_starting] at posture
    obtain ⟨_, alone⟩ := posture.pins_of_start
    have drains := posture.drains
    rw [alone] at drains
    have settled : cell.inbox.draining = false := by
      cases draining : cell.inbox.draining with
      | false => rfl
      | true =>
        rw [draining] at drains
        cases drains
    have none : cell.inbox.pending = [] := by
      by_contra waits
      rw [posture.pending waits] at settled
      cases settled
    rcases inbox : cell.inbox with ⟨pending, draining⟩
    rw [inbox] at settled none
    cases settled
    cases none
    rfl

/-- A machine that was handed over runs, or it was stopped and has no live scope. -/
theorem Program.Run.outset (run : p.Run w past c)
    (outcome : HandedOver m signal (.first m settings y) ⟨y, .build y.directives, s⟩ z c)
    (idle : roles m c.stack = []) {a : Answer} (control : c.control = .give a) :
    Outset m settings signal y s z c := by
  cases outcome with
  | running live shows hung =>
    obtain ⟨mine, listens⟩ := run.serves_of_shows shows
    exact .running live hung shows mine listens
  | stopped cancelled shows =>
    refine .stopped cancelled shows fun t => run.header?_of_vacant ?_ idle control
    obtain ⟨cell, found, _, _, vacant⟩ := shows
    exact (World.current?_of_machine? found).trans vacant

/-- A machine that shows no transition has made none. -/
theorem Program.Run.commits_of_shows {status : Status} {current : Option (Activation H)}
    (run : p.Run w past c) (shows : c.Shows m face status current) (sequence : face.sequence = 0) :
    commits (deeds m past) = [] := by
  obtain ⟨cell, found, rfl, _, _⟩ := shows
  have recorded := run.recorded (m := m)
  simp only [Config.Recorded, found] at recorded
  exact List.eq_nil_of_length_eq_zero (recorded.1.sequence.symm.trans sequence)

end Launched

/-! ## All or nothing -/

/-- What comes of a call that starts a machine, made at the instant `x`, when `span` was passed
since. -/
structure AllOrNothing (p : Program H) (d : Definition) (settings : Settings)
    (signal : Option ScopeId) (k : Answer → Script H) (x : Config H) (past span : List (Config H))
    (c : Config H) : Prop where
  /-- If there is no room for a delegation the call fails at once, and nothing happens. -/
  unbuilt (limit : settings.delegationLimit = 0) :
    p.step x = some { x with
      control := .give (.started (.error (.build .invalidDelegationDepth)))
      stack := .await k :: x.stack }
  /-- If the first state cannot be collected the call fails, and nothing else happens. -/
  uncollected {error : DefinitionError} (limit : settings.delegationLimit ≠ 0)
    (collects : p.collect settings.delegationLimit d = .done (.error error)) :
    ∃ w', p.Reaches x
        ⟨w', x.host, .give (.started (.error (.definition error))), .await k :: x.stack⟩ ∧
      w'.scopes = x.world.scopes ∧ w'.sources = x.world.sources ∧
      ∀ n, n ≠ x.world.nextMachine → w'.machine? n = x.world.machine? n
  /-- If the call answers that it failed, then because the first state could not be collected or
  entered, and nothing is left of the machine; otherwise the machine is there. -/
  returns {r : Except MachineError MachineId} (limit : settings.delegationLimit ≠ 0)
    (control : c.control = .give (.started r)) (stack : c.stack = .await k :: x.stack)
    (first : ∀ u ∈ span, u.stack ≠ .await k :: x.stack) :
    (∃ error, r = .error (.definition error) ∧
      Refusal p x.world.nextMachine settings d span error ∧ Undone x.world.nextMachine x span c) ∨
    r = .ok x.world.nextMachine ∧ ∃ y s,
      Launched p x.world.nextMachine settings d signal (.await k :: x.stack) x past span c y s
  /-- When nothing is under way and the signal is cancelled, the machine is stopped or gone and has no
  live scope, unless a panic ended the release of the signal. -/
  signalled {σ : ScopeId} (limit : settings.delegationLimit ≠ 0) (tied : signal = some σ)
    (rest : c.AtRest ∨ c.IsOver) (cancelled : c.world.isCancelled σ)
    (kept : ∀ u ∈ span, ∀ base, ¬u.Loses σ base) :
    ∃ cell, c.world.machine? x.world.nextMachine = some cell ∧
      (cell.isAlive → cell.status = .stopped) ∧
      ∀ s, c.world.header? s ≠ some (false, some x.world.nextMachine)

section Whole

variable {w : World H} {before past span : List (Config H)} {x c : Config H} {settings : Settings}
  {d : Definition} {signal : Option ScopeId} {k : Answer → Script H}

theorem Settings.validate_of_ne (limit : settings.delegationLimit ≠ 0) :
    settings.validate = .ok () := by
  rw [validate, if_neg limit]

/-- A start whose first state cannot be collected comes to its end. -/
theorem Program.Reaches.uncollected {error : DefinitionError}
    (call : x.control = .run (.call (.start d settings signal) k))
    (valid : settings.validate = .ok ())
    (collects : p.collect settings.delegationLimit d = .done (.error error)) :
    ∃ w', p.Reaches x
        ⟨w', x.host, .give (.started (.error (.definition error))), .await k :: x.stack⟩ ∧
      w'.scopes = x.world.scopes ∧ w'.sources = x.world.sources ∧
      ∀ n, n ≠ x.world.nextMachine → w'.machine? n = x.world.machine? n := by
  let m := x.world.nextMachine
  let cell : MachineCell H := x.world.newborn settings
  let w₀ := x.world.bear settings
  let w₁ := (w₀.modifyMachine m MachineCell.unpin).modifyMachine m MachineCell.clearCurrent
  let w₂ := w₁.modifyMachine m MachineCell.clearObservers
  let answer : Answer := .started (.error (.definition error))
  let frames : List (Frame H) := .settling (.gave answer) :: .await k :: x.stack
  have found : w₀.machine? m = some cell := World.machine?_bear.trans (if_pos rfl)
  have begins : p.step x = some ⟨w₀, x.host, .gather (.done (.error error)),
      .collecting (.initial m) :: .starting m signal :: .await k :: x.stack⟩ := by
    rw [Program.step_start call valid, collects]
  have refuses : p.step ⟨w₀, x.host, .gather (.done (.error error)),
      .collecting (.initial m) :: .starting m signal :: .await k :: x.stack⟩ =
        some ⟨w₀, x.host, .give (.entered (.error error)),
          .starting m signal :: .await k :: x.stack⟩ := rfl
  have unpins : p.step ⟨w₀, x.host, .give (.entered (.error error)),
      .starting m signal :: .await k :: x.stack⟩ =
        some ⟨w₁, x.host, .give .unit, .dismantling m :: frames⟩ := by
    simp only [Program.step, Program.resume]
    rw [Config.unpin_of_last found rfl rfl]
    rfl
  have dismantles : p.step ⟨w₁, x.host, .give .unit, .dismantling m :: frames⟩ =
      some ⟨w₂, x.host, .give .unit, frames⟩ := rfl
  have settles : p.step ⟨w₂, x.host, .give .unit, frames⟩ =
      some ⟨w₂, x.host, .give answer, .await k :: x.stack⟩ := rfl
  refine ⟨w₂, .head begins (.head refuses (.head unpins (.head dismantles (.single settles)))),
    rfl, rfl, fun n other => ?_⟩
  have apart : n ≠ m := other
  simp only [w₂, w₁, World.machine?_modifyMachine, if_neg apart]
  exact World.machine?_bear.trans (if_neg other)

/-- A start does all or nothing. -/
theorem Program.Run.all_or_nothing (run : p.Run w past c) (split : past = before ++ x :: span)
    (yields : p.Yields fun _ => True)
    (call : x.control = .run (.call (.start d settings signal) k)) :
    AllOrNothing p d settings signal k x past span c where
  unbuilt limit := by
    obtain ⟨world, host, ctl, fs⟩ := x
    cases call
    simp only [Program.step, Program.call, Config.start, Config.push, Settings.validate, limit,
      if_true]
    rfl
  uncollected limit collects :=
    Program.Reaches.uncollected call (Settings.validate_of_ne limit) collects
  returns {r} limit control stack first := by
    obtain ⟨startup, above, calm⟩ :=
      run.startup split yields call (Settings.validate_of_ne limit) stack first control
    have passed : before ++ [x] <+: past ++ [c] := ⟨span ++ [c], by simp [split]⟩
    have begins := run.earlier passed
    have missing : x.world.machine? x.world.nextMachine = none := World.machine?_nextMachine
    cases startup with
    | entering entering =>
      obtain ⟨fs, f, covered⟩ := entering.stands.1
      have longer := congrArg List.length (covered.symm.trans stack)
      simp at longer
      omega
    | failing error failing =>
      cases failing with
      | refused refused => exact absurd (refused.stack.symm.trans stack) (by simp)
      | dismantling _ _ _ covered => exact absurd (covered.symm.trans stack) (by simp)
      | settling _ _ _ covered => exact absurd (covered.symm.trans stack) (by simp)
      | failed refusal forgotten answers =>
        cases answers.symm.trans control
        exact .inl ⟨error, rfl, refusal,
          run.undone split missing calm above stack control forgotten⟩
    | handing pre z post y s here begun marks sound handing =>
      cases handing with
      | begun same => exact absurd ((same ▸ begun.stack).symm.trans stack) (by simp)
      | hooked _ _ _ _ covered => exact absurd (covered.symm.trans stack) (by simp)
      | asked _ _ _ covered => exact absurd (covered.symm.trans stack) (by simp)
      | stopping _ _ _ fs covered =>
        have longer := congrArg List.length (covered.symm.trans stack)
        simp at longer
        omega
      | handed outcome held answers =>
        cases answers.symm.trans control
        have idle : roles x.world.nextMachine c.stack = [] := by
          rw [stack, roles_of_free rfl]
          exact begins.roles_of_missing missing
        have passed : (before ++ x :: pre) ++ [z] <+: past ++ [c] :=
          ⟨post, by simp [split, here]⟩
        have reached := run.earlier passed
        refine .inr ⟨rfl, y, s, begun.collects, marks.trans begun.marks, sound, ?_, held,
          pre, z, post, here, begun.established reached missing, run.outset outcome idle control⟩
        cases outcome with
        | running live shows => exact run.commits_of_shows shows rfl
        | stopped cancelled shows => exact run.commits_of_shows shows rfl
  signalled {σ} limit tied rest cancelled kept := by
    subst tied
    obtain ⟨⟨cell, found⟩, tied⟩ := run.tied split call (Settings.validate_of_ne limit)
    exact ⟨cell, found, run.stopped_of_tied (tied kept) rest cancelled found⟩

end Whole

namespace Lamp

/-- Start the lamp with a signal, and cancel the signal. -/
def guard : Script Unit :=
  .call (.newScope none) fun
    | .scope s => .call (.start off {} (some s)) fun _ => .call (.release s) fun _ => .ok
    | _ => .ok

/-- Where the run begins in which the signal stops the lamp. -/
def guarded : Config Unit := { world, host := (), control := .run guard }

theorem guarded_run (n : Nat) :
    program.Run world (program.trail n guarded) (program.run n guarded) :=
  (Program.Run.begin world_isFresh () guard).trail n

/-- The same with a teardown on the signal that panics. -/
def short : Script Unit :=
  .call (.newScope none) fun
    | .scope s =>
      .call (.onCancel s (.panic "the fuse blew")) fun _ =>
        .call (.start off {} (some s)) fun _ => .call (.release s) fun _ => .ok
    | _ => .ok

/-- Where the run begins in which the signal does not stop the lamp. -/
def shorted : Config Unit := { world, host := (), control := .run short }

theorem shorted_run (n : Nat) :
    program.Run world (program.trail n shorted) (program.run n shorted) :=
  (Program.Run.begin world_isFresh () short).trail n

theorem program_yields : program.Yields fun _ => True := by
  intro key
  exact ⟨trivial, trivial, trivial⟩

end Lamp

/-- The lamp is started, and when its signal is cancelled it is stopped. -/
theorem Program.Run.all_or_nothing_lamp :
    (Lamp.program.run 22 Lamp.guarded).AtRest ∧
      (Lamp.program.run 22 Lamp.guarded).world.isCancelled ⟨0⟩ ∧
      AllOrNothing Lamp.program Lamp.off {} (some ⟨0⟩)
        (fun _ => .call (.release ⟨0⟩) fun _ => .ok) (Lamp.program.run 2 Lamp.guarded)
        (Lamp.program.trail 22 Lamp.guarded)
        (Lamp.program.trail 19 (Lamp.program.run 3 Lamp.guarded))
        (Lamp.program.run 22 Lamp.guarded) := by
  have split : Lamp.program.trail 22 Lamp.guarded = Lamp.program.trail 2 Lamp.guarded ++
      Lamp.program.run 2 Lamp.guarded ::
        Lamp.program.trail 19 (Lamp.program.run 3 Lamp.guarded) := rfl
  exact ⟨⟨rfl, .inl ⟨_, rfl⟩⟩, by decide,
    (Lamp.guarded_run 22).all_or_nothing split Lamp.program_yields rfl⟩

/-- If another teardown of the signal panics the lamp stays on when the signal is cancelled. -/
theorem Program.Run.unstopped_lamp :
    ¬∀ (before past span : List (Config Unit)) (x c : Config Unit) (cell : MachineCell Unit)
      (k : Answer → Script Unit), Lamp.program.Run Lamp.world past c → past = before ++ x :: span →
        x.control = .run (.call (.start Lamp.off {} (some ⟨0⟩)) k) → c.IsOver →
          c.world.isCancelled ⟨0⟩ → c.world.machine? x.world.nextMachine = some cell →
            cell.isAlive → cell.status = .stopped := by
  intro claim
  have split : Lamp.program.trail 20 Lamp.shorted = Lamp.program.trail 5 Lamp.shorted ++
      Lamp.program.run 5 Lamp.shorted ::
        Lamp.program.trail 14 (Lamp.program.run 6 Lamp.shorted) := rfl
  have ended : (Lamp.program.run 20 Lamp.shorted).IsOver := ⟨rfl, .inr ⟨_, rfl⟩⟩
  have stopped := claim _ _ _ _ _ _ _ (Lamp.shorted_run 20) split rfl ended (by decide) rfl rfl
  cases stopped

end ScopedMachine

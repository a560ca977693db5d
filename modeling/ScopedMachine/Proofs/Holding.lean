import ScopedMachine.Proofs.Subscriptions

/-!
# Scopes, activations and listeners in step

The listeners of a machine live on the sources, the activation that wants them in the machine, and
what removes them on a scope. `Config.Holding` says how the three agree at every instant: a machine
holds every live scope of its own, a scope that is about to be released is held by nobody, and on
each source there are the listeners of just those routes that the holder has subscribed so far.
-/

namespace ScopedMachine

variable {H : Type} {p : Program H} {m : MachineId}

/-! ## Scopes, activations and listeners -/

/-- The topic and the source that a route listens to. -/
def Route.line (r : Route) : String × SourceId := (r.type, r.source.id)

/-- What a listener of a machine listens to, if its token is the given one. -/
def Registration.route? (m : MachineId) (token : ScopeId) (r : Registration (Listener H)) :
    Option (String × SourceId) :=
  match r.listener with
  | .route n source => if n = m ∧ r.token = token then some (r.topic, source) else none
  | .handler _ => none

/-- What a machine listens to on a source with a token. -/
def World.subscribed (m : MachineId) (slot : Nat) (token : ScopeId) (w : World H) :
    List (String × SourceId) :=
  (w.entries slot).filterMap (Registration.route? m token)

/-- What some routes listen to on a source. -/
def lines (slot : Nat) (routes : List Route) : List (String × SourceId) :=
  (routes.filter (·.source.slot == slot)).map Route.line

/-- The scopes of a machine, its activations and its listeners agree. -/
structure Config.Holding (m : MachineId) (c : Config H) : Prop where
  /-- The scope of an activation is live. -/
  live {g : Grip} (held : g ∈ c.grips m) : c.world.header? g.scope = some (false, some m)
  /-- The scope of an activation is not about to be released. -/
  apart {s : ScopeId} (control : c.control = .release s) : ∀ g ∈ c.grips m, g.scope ≠ s
  /-- A live scope of the machine is that of an activation, or about to be released. -/
  accounted {s : ScopeId} (live : c.world.header? s = some (false, some m)) :
    (∃ g ∈ c.grips m, g.scope = s) ∨ c.control = .release s
  /-- The listeners of the machine hang off its own scopes. -/
  mine {slot : Nat} {r : Registration (Listener H)} (entry : r ∈ c.world.entries slot)
    {source : SourceId} (route : r.listener = .route m source) :
    ∃ b, c.world.header? r.token = some (b, some m)

/-- An activation of the machine has subscribed just the routes that are not left. -/
def Config.Subscribed (m : MachineId) (c : Config H) : Prop :=
  ∀ g ∈ c.grips m, ∀ slot, c.world.source? slot ≠ none →
    c.world.subscribed m slot g.scope ++ lines slot g.rest = lines slot g.routes

/-- The same for the routes to one source. -/
def Config.SubscribedOn (m : MachineId) (slot : Nat) (c : Config H) : Prop :=
  ∀ g ∈ c.grips m, c.world.source? slot ≠ none →
    c.world.subscribed m slot g.scope ++ lines slot g.rest = lines slot g.routes

/-- An emitter or a timer is not hosted. -/
theorem Program.Run.plain_of_emitter {w : World H} {past : List (Config H)} {c : Config H}
    (run : p.Run w past c) {i : Nat} (emitter : ∀ id, w.sourceHeader? i ≠ some (id, true))
    (f : Handler H → String → ScopeId → Script H) :
    (c.world.source? i).map SourceCell.kind ≠ some (.hosted f) := by
  intro hosted
  obtain ⟨source, found, kind⟩ := Option.map_eq_some_iff.1 hosted
  refine emitter source.id ?_
  rw [← run.sourceHeader?, World.sourceHeader?, found, Option.map_some, SourceCell.isHosted, kind]

theorem Registration.route?_eq_some_iff {token : ScopeId} {r : Registration (Listener H)}
    {l : String × SourceId} :
    r.route? m token = some l ↔ r.listener = .route m l.2 ∧ r.token = token ∧ r.topic = l.1 := by
  obtain ⟨topic, source⟩ := l
  unfold Registration.route?
  split
  · next n source' h =>
    rw [h, Listener.route.injEq]
    constructor
    · intro h
      split at h
      · next same => cases h; exact ⟨⟨same.1, rfl⟩, same.2, rfl⟩
      · cases h
    · rintro ⟨⟨rfl, rfl⟩, rfl, rfl⟩
      rw [if_pos ⟨rfl, rfl⟩]
  · next h =>
    rw [h]
    constructor <;> nofun

section Step

variable {w : World H} {past : List (Config H)} {c c' : Config H}

/-- A live scope stays live, unless it is about to be released. -/
theorem Scopes.header_of_live {s : ScopeId} {owner : Option MachineId} (scopes : Scopes c c')
    (live : c.world.header? s = some (false, owner)) (control : c.control ≠ .release s) :
    c'.world.header? s = some (false, owner) := by
  cases scopes with
  | same header => rw [header, live]
  | acquire o t new entering header =>
    have other : s ≠ t := by
      rintro rfl
      rw [live] at new
      cases new
    rw [header, if_neg other, live]
  | release t o releases live' header =>
    have other : s ≠ t := by
      rintro rfl
      exact control releases
    rw [header, if_neg other, live]

/-- The owner of a scope stays its owner. -/
theorem Scopes.owner {s : ScopeId} {owner : Option MachineId} (scopes : Scopes c c')
    (known : ∃ b, c.world.header? s = some (b, owner)) :
    ∃ b, c'.world.header? s = some (b, owner) := by
  obtain ⟨b, known⟩ := known
  cases b with
  | true => exact ⟨true, scopes.header known⟩
  | false =>
    cases scopes with
    | same header => exact ⟨false, (header s).trans known⟩
    | acquire o t new entering header =>
      have other : s ≠ t := by
        rintro rfl
        rw [known] at new
        cases new
      exact ⟨false, by rw [header, if_neg other, known]⟩
    | release t o releases live header =>
      by_cases same : s = t
      · subst same
        rw [known] at live
        cases live
        exact ⟨true, by rw [header, if_pos rfl]⟩
      · exact ⟨false, by rw [header, if_neg same, known]⟩

/-- While a machine subscribes nothing, what it listens to with a token stays until the release. -/
theorem Program.Run.subscribed_eq {slot : Nat} {token : ScopeId} (run : p.Run w past c)
    (h : p.step c = some c') (quiet : ¬c.Subscribes m)
    (fresh : ∀ owner, c.world.header? token ≠ some (true, owner)) :
    c'.world.subscribed m slot token = c.world.subscribed m slot token := by
  unfold World.subscribed
  cases (run.move h).listeners with
  | same entries => rw [entries]
  | add i r live entries route =>
    rw [entries]
    split
    · have none : r.route? m token = none := by
        rw [Option.eq_none_iff_forall_ne_some]
        intro l some
        obtain ⟨listener, _⟩ := Registration.route?_eq_some_iff.1 some
        obtain ⟨a, x, rest, stage, result, control, top, _⟩ := route m l.2 listener
        exact quiet ⟨a, x, rest, stage, result, control, top⟩
      rw [List.filterMap_append, List.filterMap_cons, none, List.filterMap_nil, List.append_nil]
    · rfl
  | remove i number s ts top entries =>
    rw [entries]
    split
    · next here =>
      subst here
      rw [List.filterMap_filter]
      refine List.filterMap_congr fun r hr => ?_
      split
      · rfl
      · next same =>
        -- the removed listener has a token that is released already
        have same : r.number = number := by simpa using same
        refine Eq.symm (Option.eq_none_iff_forall_ne_some.2 fun l some => ?_)
        obtain ⟨_, rfl, _⟩ := Registration.route?_eq_some_iff.1 some
        have hung : (Place.source slot, number) ∈ c.hung s := by
          refine List.mem_append_right _ (List.mem_flatMap.2 ⟨_, top, ?_⟩)
          rw [Frame.hung, if_pos rfl]
          exact List.mem_cons_self ..
        obtain ⟨b, found, _, only⟩ := run.owned.owned hung
        obtain ⟨source, hs, rfl⟩ := Option.map_eq_some_iff.1 found
        have mem : r.line ∈ source.registry.book.entries := by
          rw [World.entries, hs] at hr
          exact List.mem_map_of_mem hr
        have token : r.token = s := only r.line mem same
        obtain ⟨o, released⟩ := run.releases s _ top
        exact absurd (token ▸ released) (fresh o)
    · rfl

theorem lines_cons {slot : Nat} {r : Route} {rest : List Route} :
    lines slot (r :: rest) = (if r.source.slot = slot then [r.line] else []) ++ lines slot rest := by
  unfold lines
  by_cases here : r.source.slot = slot <;> simp [here]

/-- What a machine listens to once a route is registered. -/
theorem World.subscribed_register {w : World H} {slot : Nat} {token : ScopeId} {r : Route}
    (live : w.isCancelled token = false) (source : w.source? slot ≠ none) :
    (w.register r.source.slot r.type token (.route m r.source.id)).subscribed m slot token =
      w.subscribed m slot token ++ if r.source.slot = slot then [r.line] else [] := by
  unfold World.subscribed
  rcases World.entries_register with ⟨same, dead⟩ | ⟨cell, found, _, entries⟩
  · rw [same]
    rcases dead with missing | cancelled
    · have other : r.source.slot ≠ slot := by
        rintro rfl
        exact source missing
      rw [if_neg other, List.append_nil]
    · rw [live] at cancelled
      cases cancelled
  · rw [entries]
    by_cases here : slot = r.source.slot
    · rw [if_pos here, if_pos here.symm, List.filterMap_append]
      congr 1
      simp [Registration.route?, Route.line]
    · rw [if_neg here, if_neg (Ne.symm here), List.append_nil]

/-- A scope that nobody knows has no listeners of the machine. -/
theorem Config.Holding.subscribed_eq_nil (holding : c.Holding m) {s : ScopeId} {slot : Nat}
    (new : c.world.header? s = none) : c.world.subscribed m slot s = [] := by
  refine List.filterMap_eq_nil_iff.2 fun r hr => Option.eq_none_iff_forall_ne_some.2 fun l some => ?_
  obtain ⟨listener, rfl, _⟩ := Registration.route?_eq_some_iff.1 some
  obtain ⟨b, known⟩ := holding.mine hr listener
  rw [new] at known
  cases known

theorem Config.mem_grips {f : Frame H} {g : Grip} (mem : f ∈ c.stack)
    (works : f.machine? = some m) (grip : f.grip? = some g) : g ∈ c.grips m := by
  refine List.mem_append_right _ (List.mem_filterMap.2 ⟨f, ?_, grip⟩)
  exact List.mem_filter.2 ⟨mem, Frame.concerns_iff.2 works⟩

/-- The scopes that a machine holds after a step it held before, or they are new. -/
theorem Grasp.held (grasp : Grasp m c c') {g' : Grip} (held : g' ∈ c'.grips m) :
    (∃ g ∈ c.grips m, g.scope = g'.scope) ∨
      c.world.header? g'.scope = none ∧ c'.world.header? g'.scope = some (false, some m) := by
  have one {g₀ g₁ : Grip} (before : c.grips m = [g₀]) (after : c'.grips m = [g₁])
      (same : g₀.scope = g₁.scope) : ∃ g ∈ c.grips m, g.scope = g'.scope := by
    rw [after, List.mem_singleton] at held
    exact ⟨g₀, before ▸ List.mem_singleton_self g₀, held ▸ same⟩
  cases grasp with
  | same quiet kept => exact .inl ⟨g', kept ▸ held, rfl⟩
  | enter quiet s new header before after =>
    rw [after, List.mem_singleton] at held
    subst held
    exact .inr ⟨new, header⟩
  | entered quiet s routes before after => exact .inl (one before after rfl)
  | subscribe s routes r rest before after => exact .inl (one before after rfl)
  | release quiet g control before after =>
    rw [after] at held
    cases held

/-- The scopes that a machine holds before a step it holds after it, or it lets them go. -/
theorem Grasp.kept (grasp : Grasp m c c') {g : Grip} (held : g ∈ c.grips m) :
    (∃ g' ∈ c'.grips m, g'.scope = g.scope) ∨ c'.control = .release g.scope := by
  have one {g₀ g₁ : Grip} (before : c.grips m = [g₀]) (after : c'.grips m = [g₁])
      (same : g₁.scope = g₀.scope) : ∃ g' ∈ c'.grips m, g'.scope = g.scope := by
    rw [before, List.mem_singleton] at held
    exact ⟨g₁, after ▸ List.mem_singleton_self g₁, held ▸ same⟩
  cases grasp with
  | same quiet kept => exact .inl ⟨g, kept ▸ held, rfl⟩
  | enter quiet s new header before after =>
    rw [before] at held
    cases held
  | entered quiet s routes before after => exact .inl (one before after rfl)
  | subscribe s routes r rest before after => exact .inl (one before after rfl)
  | release quiet g' control before after =>
    rw [before, List.mem_singleton] at held
    exact .inr (held ▸ control)

namespace Program.Run

variable (run : p.Run w past c) (h : p.step c = some c')

include run h in
theorem live_kept {g : Grip} (hold : c.Holding m) (held : g ∈ c.grips m) :
    c'.world.header? g.scope = some (false, some m) :=
  (run.move h).scopes.header_of_live (hold.live held) fun control => hold.apart control g held rfl

include run h in
theorem live_step (hold : c.Holding m) {g : Grip} (held : g ∈ c'.grips m) :
    c'.world.header? g.scope = some (false, some m) := by
  rcases (run.grasp h).held held with ⟨g₀, before, same⟩ | ⟨_, header⟩
  · exact same ▸ run.live_kept h hold before
  · exact header

include run h in
theorem apart_step (holding : ∀ n, c.Holding n) {s : ScopeId} (control : c'.control = .release s) :
    ∀ g ∈ c'.grips m, g.scope ≠ s := by
  rintro g held rfl
  rcases run.lets_go h control with ⟨b, external⟩ | ⟨n, g₀, before, scope, after⟩
  · rw [run.live_step h (holding m) held] at external
    cases external
  · have other : n ≠ m := by
      rintro rfl
      rw [after] at held
      cases held
    have owned : c.world.header? g.scope = some (false, some n) :=
      scope ▸ (holding n).live (before ▸ List.mem_singleton_self g₀)
    rcases (run.grasp h).held held with ⟨g₁, hg, same⟩ | ⟨new, _⟩
    · rw [← same, (holding m).live hg] at owned
      cases owned
      exact other rfl
    · rw [new] at owned
      cases owned

include run h in
theorem accounted_step (hold : c.Holding m) {s : ScopeId}
    (live : c'.world.header? s = some (false, some m)) :
    (∃ g ∈ c'.grips m, g.scope = s) ∨ c'.control = .release s := by
  have earlier (before : c.world.header? s = some (false, some m)) :
      (∃ g ∈ c'.grips m, g.scope = s) ∨ c'.control = .release s := by
    rcases hold.accounted before with ⟨g, held, rfl⟩ | control
    · exact (run.grasp h).kept held
    · exact absurd live (run.header?_of_release h control _)
  cases (run.move h).scopes with
  | same header => exact earlier (header s ▸ live)
  | acquire owner t new entering header =>
    rw [header] at live
    split at live
    · next same =>
      subst same
      cases live
      obtain ⟨x, stage, mem⟩ := entering m rfl
      exact .inl ⟨⟨s, [], []⟩, Config.mem_grips mem rfl rfl, rfl⟩
    · exact earlier live
  | release t owner control before header =>
    rw [header] at live
    split at live
    · cases live
    · exact earlier live

include run h in
theorem mine_step (hold : c.Holding m) {slot : Nat} {r : Registration (Listener H)}
    (entry : r ∈ c'.world.entries slot) {source : SourceId} (route : r.listener = .route m source) :
    ∃ b, c'.world.header? r.token = some (b, some m) := by
  have before (mem : r ∈ c.world.entries slot) : ∃ b, c'.world.header? r.token = some (b, some m) :=
    (run.move h).scopes.owner (hold.mine mem route)
  cases (run.move h).listeners with
  | same entries => exact before (entries slot ▸ entry)
  | add i new live entries asks =>
    rw [entries] at entry
    split at entry
    · rcases List.mem_append.1 entry with old | added
      · exact before old
      · rw [List.mem_singleton.1 added] at route ⊢
        obtain ⟨a, x, rest, stage, result, control, top, token⟩ := asks m source route
        have held : (⟨a.scope, a.routes.routes, x :: rest⟩ : Grip) ∈ c.grips m :=
          Config.mem_grips (List.mem_of_mem_head? top) rfl rfl
        exact ⟨false, token ▸ run.live_kept h hold held⟩
    · exact before entry
  | remove i number s ts top entries =>
    rw [entries] at entry
    split at entry
    · exact before (List.mem_filter.1 entry).1
    · exact before entry

/-- At every instant the scopes, the activations and the listeners of a machine agree. -/
theorem holding (run : p.Run w past c) (m : MachineId) : c.Holding m := by
  induction run generalizing m with
  | begin fresh host s =>
    have none : Config.grips m { world := w, host, control := .run s } = [] := by
      rw [Config.grips, show _ = none from fresh.machine? m]
      rfl
    constructor
    case live =>
      intro g held
      rw [none] at held
      cases held
    case apart =>
      intro t control
      cases control
    case accounted =>
      intro t live
      obtain ⟨cell, found, header⟩ := Option.map_eq_some_iff.1 live
      have mine : cell.owner = some m := congrArg Prod.snd header
      rw [(fresh.scope? found).1] at mine
      cases mine
    case mine =>
      intro slot r entry
      have empty : w.entries slot = [] := by
        rw [World.entries]
        cases found : w.source? slot with
        | none => rfl
        | some source => exact fresh.source? found
      rw [show _ = _ from empty] at entry
      cases entry
  | step run h ih =>
    constructor
    case live => exact fun held => run.live_step h (ih m) held
    case apart => exact fun control => run.apart_step h ih control
    case accounted => exact fun live => run.accounted_step h (ih m) live
    case mine => exact fun entry _ route => run.mine_step h (ih m) entry route
  | resume run ended host s ih =>
    obtain ⟨live, apart, accounted, mine⟩ := ih m
    refine ⟨live, fun control => (by cases control), fun known => ?_, mine⟩
    rcases accounted known with gripped | control
    · exact .inl gripped
    · obtain ⟨_, ⟨a, ha⟩ | ⟨message, hm⟩⟩ := ended
      · rw [ha] at control
        cases control
      · rw [hm] at control
        cases control

/-! ## Emitters and timers -/

include run h in
/-- Subscribing a route to a hosted source leaves the world as it is. -/
theorem world_of_hosted {g : Grip} {r : Route} {rest : List Route} (before : c.grips m = [g])
    (next : g.rest = r :: rest) (subscribes : c.Subscribes m)
    {f : Handler H → String → ScopeId → Script H}
    (hosted : (c.world.source? r.source.slot).map SourceCell.kind = some (.hosted f)) :
    c'.world = c.world := by
  obtain ⟨a, r', rest', stage, result, control, top⟩ := subscribes
  have held : (⟨a.scope, a.routes.routes, r' :: rest'⟩ : Grip) ∈ c.grips m :=
    Config.mem_grips (List.mem_of_mem_head? top) rfl rfl
  rw [before, List.mem_singleton] at held
  subst held
  cases next
  obtain ⟨below, stack⟩ := List.head?_eq_some_iff.1 top
  obtain ⟨w', host, ctl, fs⟩ := c
  cases control
  cases stack
  have step : some (Config.subscribeNext p m a (r :: rest) stage
      ⟨w', host, .give (.result result), below⟩) = some c' := h
  have hosted : (w'.source? r.source.slot).map SourceCell.kind = some (.hosted f) := hosted
  rw [Option.some.injEq, Config.subscribeNext] at step
  simp only [Config.push, hosted] at step
  subst step
  rfl

variable {slot : Nat} (emitter : ∀ id, w.sourceHeader? slot ≠ some (id, true))

include run h emitter in
theorem subscribedOn_step (subscribed : c.SubscribedOn m slot) : c'.SubscribedOn m slot := by
  have hold := run.holding m
  intro g held source'
  have source : c.world.source? slot ≠ none := by
    intro missing
    have same := (run.move h).sourceHeader? slot
    rw [World.sourceHeader?, World.sourceHeader?, missing] at same
    exact source' (Option.map_eq_none_iff.1 same)
  have still {g₀ : Grip} (quiet : ¬c.Subscribes m) (before : g₀ ∈ c.grips m) :
      c'.world.subscribed m slot g₀.scope = c.world.subscribed m slot g₀.scope := by
    refine run.subscribed_eq h quiet fun owner released => ?_
    rw [hold.live before] at released
    cases released
  cases run.grasp h with
  | same quiet kept =>
    rw [kept] at held
    rw [still quiet held]
    exact subscribed g held source
  | enter quiet s new header before after =>
    rw [after, List.mem_singleton] at held
    subst held
    have same : c'.world.subscribed m slot s = c.world.subscribed m slot s :=
      run.subscribed_eq h quiet fun owner released => by rw [new] at released; cases released
    rw [same, hold.subscribed_eq_nil new]
    rfl
  | entered quiet s routes before after =>
    rw [after, List.mem_singleton] at held
    subst held
    have held : (⟨s, [], []⟩ : Grip) ∈ c.grips m := before ▸ List.mem_singleton_self _
    have none : c.world.subscribed m slot s = [] :=
      (List.append_eq_nil_iff.1 (subscribed _ held source)).1
    have same : c'.world.subscribed m slot s = c.world.subscribed m slot s := still quiet held
    rw [same, none]
    rfl
  | subscribe s routes r rest before after world =>
    rw [after, List.mem_singleton] at held
    subst held
    have held : (⟨s, routes, r :: rest⟩ : Grip) ∈ c.grips m := before ▸ List.mem_singleton_self _
    have listens := subscribed _ held source
    by_cases plain : ∀ f, (c.world.source? r.source.slot).map SourceCell.kind ≠ some (.hosted f)
    · have live := World.isCancelled_eq_false_iff.2 ⟨_, hold.live held⟩
      rw [world plain, World.subscribed_register live source, List.append_assoc, ← lines_cons]
      exact listens
    · -- the route is to another source, and the listeners stay
      obtain ⟨f, hosted⟩ := Classical.not_forall.1 plain
      have hosted := Classical.not_not.1 hosted
      have other : r.source.slot ≠ slot := by
        rintro rfl
        exact run.plain_of_emitter emitter f hosted
      have same : c'.world.subscribed m slot s = c.world.subscribed m slot s := by
        by_cases subscribes : c.Subscribes m
        · rw [run.world_of_hosted h before rfl subscribes hosted]
        · exact still subscribes held
      rw [lines_cons, if_neg other] at listens
      rw [same]
      exact listens
  | release quiet g control before after =>
    rw [after] at held
    cases held

include emitter in
/-- On an emitter or a timer there are the routes of an activation to it, but for those that are yet
to be subscribed. -/
theorem subscribedOn (run : p.Run w past c) (m : MachineId) : c.SubscribedOn m slot := by
  induction run with
  | begin fresh host s =>
    intro g held
    rw [Config.grips, show _ = none from fresh.machine? m] at held
    cases held
  | step run h ih => exact run.subscribedOn_step h emitter ih
  | resume run ended host s ih => exact ih

/-- In a world of emitters and timers the routes of an activation are on their sources, but for those
that are yet to be subscribed. -/
theorem subscribed (run : p.Run w past c) (emitters : ∀ i id, w.sourceHeader? i ≠ some (id, true))
    (m : MachineId) : c.Subscribed m :=
  fun g held slot => run.subscribedOn (emitters slot) m g held

end Program.Run

end Step

end ScopedMachine

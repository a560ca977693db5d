import ScopedMachine.Proofs.Lockstep

/-!
# Aliases are transparent

Two programs that differ only in the names that some references go through are run side by side:
`Pairing.Run` takes a step in both, and when the host code is over, lets the host go on with code
that corresponds. `Pairing.Run.transparent` says that neither run ends before the other, that host
code hears the same, and that machines do the same and are in the same states, aliases apart.
-/

namespace ScopedMachine

variable {H : Type}

/-! ## What is observed -/

/-- What host code is answered next. -/
def Config.answer? (c : Config H) : Option Answer :=
  match c.control, c.stack with
  | .give a, .await _ :: _ => some a
  | _, _ => none

/-- What host code was answered in the steps from the given configurations. -/
def answers (past : List (Config H)) : List Answer := past.filterMap Config.answer?

section Observed

variable (P : Pairing H)

inductive Deed.Like : Deed → Deed → Prop where
  | sent (source : SourceId) (e : Event) : Like (.sent source e) (.sent source e)
  | routed (source : SourceId) (e : Event) : Like (.routed source e) (.routed source e)
  | discarded : Like .discarded .discarded
  | began (state : String) : Like (.began state) (.began state)
  | committed {s s' : Change} (changes : s.Like P s') : Like (.committed s) (.committed s')
  | told (number : Nat) {s s' : Change} (changes : s.Like P s') :
      Like (.told number s) (.told number s')

inductive Mark.Like : Mark H → Mark H → Prop where
  | enter (token : ScopeId) {a a' : Entry H} (actions : Entry.Like P a a') :
      Like (.enter token a) (.enter token a')
  | subscribe (token : ScopeId) {r r' : Route} (routes : r.Like P r') :
      Like (.subscribe token r) (.subscribe token r')
  | tell (number : Nat) {s s' : Change} (changes : s.Like P s') :
      Like (.tell number s) (.tell number s')

inductive Act.Like : Act H → Act H → Prop where
  | free : Like .free .free
  | teardown {t t' : Teardown H} (teardowns : t.Like P t') : Like (.teardown t) (.teardown t')
  | mark {k k' : Mark H} (marks : k.Like P k') : Like (.mark k) (.mark k')
  | commit {s s' : Change} (changes : s.Like P s') : Like (.commit s) (.commit s')

end Observed

variable {P : Pairing H} {c c' : Config H} {m : MachineId} {s : ScopeId}

/-- Two guards that agree let through what corresponds. -/
theorem rel_guard {α : Type} {R : α → α → Prop} {p p' : Prop} [Decidable p] [Decidable p']
    (agree : p ↔ p') {a a' : α} (same : R a a') :
    Option.Rel R (if p then some a else none) (if p' then some a' else none) := by
  rw [← if_congr agree rfl rfl]
  split
  · exact .some same
  · exact .none

theorem MachineCell.Like.installing? {x x' : MachineCell H} (cells : x.Like P x')
    {a a' : Activation H} (activations : a.Like P a') (time : Moment) {stage stage' : Stage H}
    (stages : stage.Like P stage') :
    Option.Rel (Deed.Like P) (x.installing? a time stage) (x'.installing? a' time stage') := by
  cases stages with
  | initial =>
    unfold MachineCell.installing?
    dsimp only
    rw [activations.collected.name]
    exact .some (.began _)
  | commit event previous =>
    unfold MachineCell.installing?
    dsimp only
    rw [cells.status, cells.state]
    split
    · exact .some (.committed ((cells.commit activations event time).change x'.state event))
    · exact .none
  | restore => exact .none

namespace Config.Like

theorem answer? (like : c.Like P c') : Option.Rel (Answer.Like P) c.answer? c'.answer? := by
  obtain ⟨w, h, ctl, fs⟩ := c
  obtain ⟨w', h', ctl', fs'⟩ := c'
  obtain ⟨worlds, hosts, controls, stack⟩ := like
  cases controls with
  | give answers =>
    cases stack with
    | nil => exact .none
    | cons top below =>
      cases top with
      | await => exact .some answers
      | _ => exact .none
  | _ => exact .none

theorem deed? (like : c.Like P c') (m : MachineId) :
    Option.Rel (Deed.Like P) (c.deed? m) (c'.deed? m) := by
  unfold Config.deed?
  obtain ⟨found, found'⟩ | ⟨x, x', found, found', cells⟩ := exists_of_rel (like.world.machine? m)
  · rw [found, found']
    exact .none
  rw [found, found']
  obtain ⟨w, h, ctl, fs⟩ := c
  obtain ⟨w', h', ctl', fs'⟩ := c'
  obtain ⟨worlds, hosts, controls, stack⟩ := like
  cases controls with
  | send n source e => exact rel_guard Iff.rfl (.sent source e)
  | route n source e => exact rel_guard Iff.rfl (.routed source e)
  | give answers =>
    cases stack with
    | nil => cases answers <;> exact .none
    | cons top below =>
      cases answers with
      | unit =>
        cases top with
        | stopping n => exact rel_guard Iff.rfl .discarded
        | _ => exact .none
      | result ends =>
        cases top with
        | subscribing n activations routes stages =>
          cases routes with
          | nil =>
            dsimp only
            rw [worlds.wallClock, worlds.readings]
            split
            · exact cells.installing? activations _ stages
            · exact .none
          | cons => exact .none
        | publishing n changes observers =>
          cases observers with
          | nil => exact .none
          | cons head tail =>
            refine rel_guard (by rw [worlds.isCancelled, head.token]) ?_
            rw [head.number]
            exact .told _ changes
        | _ => exact .none
      | _ => exact .none
  | _ => exact .none

theorem mark? (like : c.Like P c') (m : MachineId) :
    Option.Rel (Mark.Like P) (c.mark? m) (c'.mark? m) := by
  obtain ⟨w, h, ctl, fs⟩ := c
  obtain ⟨w', h', ctl', fs'⟩ := c'
  obtain ⟨worlds, hosts, controls, stack⟩ := like
  cases controls with
  | give answers =>
    cases stack with
    | nil =>
      cases answers with
      | result ends => cases ends <;> exact .none
      | _ => exact .none
    | cons top below =>
      cases answers with
      | result ends =>
        cases top with
        | acting state token actions =>
          cases ends with
          | error => exact .none
          | ok =>
            cases actions with
            | nil => exact .none
            | cons head tail =>
              cases below with
              | nil => exact .none
              | cons second below =>
                cases second with
                | activating n => exact rel_guard Iff.rfl (.enter token head)
                | _ => exact .none
        | @subscribing n a a' activations rest rest' routes stage stage' stages =>
          cases routes with
          | nil => cases ends <;> exact .none
          | cons head tail =>
            cases ends with
            | ok | error =>
              unfold Config.mark?
              dsimp only
              rw [activations.scope]
              exact rel_guard Iff.rfl (.subscribe _ head)
        | publishing n changes observers =>
          cases observers with
          | nil => cases ends <;> exact .none
          | cons head tail =>
            cases ends with
            | ok | error =>
              refine rel_guard (by rw [worlds.isCancelled, head.token]) ?_
              rw [head.number]
              exact .tell _ changes
        | _ => cases ends <;> exact .none
      | _ => exact .none
  | _ => exact .none

theorem teardown? (like : c.Like P c') (s : ScopeId) :
    Option.Rel (Teardown.Like P) (c.teardown? s) (c'.teardown? s) := by
  obtain ⟨w, h, ctl, fs⟩ := c
  obtain ⟨w', h', ctl', fs'⟩ := c'
  obtain ⟨worlds, hosts, controls, stack⟩ := like
  cases controls with
  | give answers =>
    cases stack with
    | nil => exact .none
    | cons top below =>
      cases top with
      | releasing t teardowns =>
        cases teardowns with
        | nil => exact .none
        | cons head tail =>
          unfold Config.teardown?
          dsimp only
          split
          · exact .some head
          · exact .none
      | _ => exact .none
  | _ => exact .none

theorem frees? (like : c.Like P c') : c.frees? = c'.frees? := by
  obtain ⟨w, h, ctl, fs⟩ := c
  obtain ⟨w', h', ctl', fs'⟩ := c'
  obtain ⟨worlds, hosts, controls, stack⟩ := like
  cases controls with
  | release s =>
    unfold Config.frees?
    dsimp only
    rw [worlds.isCancelled]
  | _ => rfl

theorem act? (like : c.Like P c') (m : MachineId) (s : ScopeId) :
    Option.Rel (Act.Like P) (c.act? m s) (c'.act? m s) := by
  have commits : Option.Rel (Change.Like P) ((c.deed? m).bind Deed.committed?)
      ((c'.deed? m).bind Deed.committed?) := by
    obtain ⟨h, h'⟩ | ⟨d, d', h, h', same⟩ := exists_of_rel (like.deed? m)
    · rw [h, h']
      exact .none
    · rw [h, h']
      cases same with
      | committed changes => exact .some changes
      | _ => exact .none
  unfold Config.act?
  rw [like.frees?]
  split
  · exact .some .free
  · obtain ⟨t, t'⟩ | ⟨t, t', h, h', teardowns⟩ := exists_of_rel (like.teardown? s)
    · rw [t, t']
      obtain ⟨k, k'⟩ | ⟨k, k', h, h', marks⟩ := exists_of_rel (like.mark? m)
      · rw [k, k']
        obtain ⟨d, d'⟩ | ⟨d, d', h, h', changes⟩ := exists_of_rel commits
        · rw [d, d']
          exact .none
        · rw [h, h']
          exact .some (.commit changes)
      · rw [h, h']
        exact .some (.mark marks)
    · rw [h, h']
      exact .some (.teardown teardowns)

theorem isOver (like : c.Like P c') : c.IsOver ↔ c'.IsOver := by
  obtain ⟨w, h, ctl, fs⟩ := c
  obtain ⟨w', h', ctl', fs'⟩ := c'
  obtain ⟨worlds, hosts, controls, stack⟩ := like
  have empty : fs = [] ↔ fs' = [] := by
    cases stack <;> simp
  refine and_congr empty ?_
  cases controls <;> simp

theorem isPrompt (like : c.Like P c') : c.IsPrompt ∧ c'.IsPrompt := by
  obtain ⟨w, h, ctl, fs⟩ := c
  obtain ⟨w', h', ctl', fs'⟩ := c'
  obtain ⟨worlds, hosts, controls, stack⟩ := like
  have frames {fs fs' : List (Frame H)} (stack : List.Forall₂ (Frame.Like P) fs fs') (k) :
      Frame.gathering k ∉ fs ∧ Frame.gathering k ∉ fs' := by
    induction stack with
    | nil => exact ⟨List.not_mem_nil, List.not_mem_nil⟩
    | cons top below ih => cases top <;> simpa using ih
  refine ⟨⟨fun gathers => ?_, fun k => (frames stack k).1⟩,
    ⟨fun gathers => ?_, fun k => (frames stack k).2⟩⟩
  · cases gathers
    cases controls
    exact ⟨_, rfl⟩
  · cases gathers
    cases controls
    exact ⟨_, rfl⟩

end Config.Like

/-! ## References that correspond -/

/-- The same is collected, through references that correspond. -/
structure Inquiry.Like (P : Pairing H) (i i' : Inquiry) : Prop where
  purpose : i.purpose = i'.purpose
  limit : i.limit = i'.limit
  definition : P.Refers i.definition i'.definition

theorem MachineCell.Like.target? {x x' : MachineCell H} (cells : x.Like P x') (source : SourceId)
    (type : String) : Option.Rel P.Refers (x.target? source type) (x'.target? source type) := by
  unfold MachineCell.target?
  rw [cells.status, cells.terminal]
  split
  · obtain ⟨h, h'⟩ | ⟨a, a', h, h', activations⟩ := exists_of_rel cells.current
    · rw [h, h']
      exact .none
    · rw [h, h', Option.bind_some, Option.bind_some]
      have resolves := activations.routes.resolve source type
      generalize a.routes.resolve source type = r, a'.routes.resolve source type = r' at resolves
      cases resolves with
      | unmatched => exact .none
      | matched targets => exact .some targets
      | ambiguous targets => exact .some targets
  · exact .none

namespace Config.Like

theorem collects? (like : c.Like P c') :
    Option.Rel (Inquiry.Like P) c.collects? c'.collects? := by
  obtain ⟨w, h, ctl, fs⟩ := c
  obtain ⟨w', h', ctl', fs'⟩ := c'
  obtain ⟨worlds, hosts, controls, stack⟩ := like
  cases controls with
  | run scripts =>
    cases scripts with
    | @call s _ _ _ calls =>
      cases calls with
      | collect definitions | enter definitions => exact .some ⟨rfl, rfl, definitions⟩
      | start definitions =>
        unfold Config.collects?
        dsimp only
        rw [size_eq_of_forall₂ worlds.machines]
        split
        · exact .some ⟨rfl, rfl, definitions⟩
        · exact .none
      | plain plain =>
        cases s with
        | collect | enter | start => cases plain
        | _ => exact .none
      | _ => exact .none
    | _ => exact .none
  | route n source e =>
    unfold Config.collects?
    dsimp only
    obtain ⟨h, h'⟩ | ⟨x, x', h, h', cells⟩ := exists_of_rel (worlds.machine? n)
    · rw [h, h']
      exact .none
    · rw [h, h', Option.bind_some, Option.bind_some, cells.settings]
      obtain ⟨h, h'⟩ | ⟨d, d', h, h', targets⟩ := exists_of_rel (cells.target? source e.kind)
      · rw [h, h']
        exact .none
      · rw [h, h']
        exact .some ⟨rfl, rfl, targets⟩
  | _ => exact .none

theorem seeks? (like : c.Like P c') (m : MachineId) :
    Option.Rel (Inquiry.Like P) (c.seeks? m) (c'.seeks? m) := by
  unfold Config.seeks?
  obtain ⟨h, h'⟩ | ⟨i, i', h, h', inquiries⟩ := exists_of_rel like.collects?
  · rw [h, h']
    exact .none
  · rw [h, h']
    exact rel_guard (by rw [inquiries.purpose]) inquiries

end Config.Like

/-- The same is known of a machine, through references that correspond. -/
structure Origins.Like (P : Pairing H) (o o' : Origins) : Prop where
  sought : Option.Rel (Inquiry.Like P) o.sought o'.sought
  entered : Option.Rel (Inquiry.Like P) o.entered o'.entered

theorem Origins.Like.after {o o' : Origins} (known : o.Like P o') (like : c.Like P c') :
    (o.after m c).Like P (o'.after m c') where
  sought := by
    unfold Origins.after
    dsimp only
    obtain ⟨h, h'⟩ | ⟨i, i', h, h', inquiries⟩ := exists_of_rel (like.seeks? m)
    · rw [h, h']
      exact known.sought
    · rw [h, h']
      exact .some inquiries
  entered := by
    have entries : (c.deed? m).any Deed.isEntry = (c'.deed? m).any Deed.isEntry := by
      obtain ⟨h, h'⟩ | ⟨d, d', h, h', same⟩ := exists_of_rel (like.deed? m)
      · rw [h, h']
      · rw [h, h']
        cases same <;> rfl
    unfold Origins.after
    dsimp only
    rw [entries]
    split
    · exact known.sought
    · exact known.entered

theorem origins_like {past past' : List (Config H)}
    (steps : List.Forall₂ (Config.Like P) past past') (m : MachineId) :
    (origins m past).Like P (origins m past') :=
  List.rel_foldl (fun _ _ known _ _ like => known.after like) ⟨.none, .none⟩ steps

/-! ## Runs side by side -/

/-- Two runs that take their steps together, the one of the left program and the other one of the
right program. They begin in worlds that correspond, and the host goes on with what corresponds. -/
inductive Pairing.Run (P : Pairing H) (w w' : World H) :
    List (Config H) → List (Config H) → Config H → Config H → Prop where
  | begin (fresh : w.IsFresh) (fresh' : w'.IsFresh) (worlds : w.Like P w') {h h' : H}
      (hosts : P.host h h') {s s' : Script H} (scripts : s.Like P s') :
      P.Run w w' [] [] { world := w, host := h, control := .run s }
        { world := w', host := h', control := .run s' }
  | step {past past' : List (Config H)} {c c' d d' : Config H} (run : P.Run w w' past past' c c')
      (left : P.left.step c = some d) (right : P.right.step c' = some d') :
      P.Run w w' (past ++ [c]) (past' ++ [c']) d d'
  | resume {past past' : List (Config H)} {c c' : Config H} (run : P.Run w w' past past' c c')
      (ended : c.IsOver) (ended' : c'.IsOver) {h h' : H} (hosts : P.host h h') {s s' : Script H}
      (scripts : s.Like P s') :
      P.Run w w' (past ++ [c]) (past' ++ [c']) { c with host := h, control := .run s }
        { c' with host := h', control := .run s' }

/-- The aliases of a machine that entered the state it shows through these references: if the names
that one of them goes through are new, they come first. -/
inductive Pairing.Prepends (P : Pairing H) :
    Option Inquiry → Option Inquiry → List String → List String → Prop where
  | idle : Prepends P none none [] []
  | entered {i : Inquiry} {hops as : List String} (through : P.Through i.definition hops) :
      Prepends P (some i) (some { i with definition := i.definition.under hops }) as (hops ++ as)

/-- What two runs that take their steps together have in common. -/
structure Pairing.InStep (P : Pairing H) (past past' : List (Config H)) (c c' : Config H) :
    Prop where
  here : c.Like P c'
  /-- Neither of them goes on alone. -/
  goes : (P.left.step c).isSome = (P.right.step c').isSome
  /-- Neither of them is over alone. -/
  finished : c.IsOver ↔ c'.IsOver
  /-- Host code heard the same, what became of sends among it. -/
  answers : List.Forall₂ (Answer.Like P) (answers past) (answers past')
  /-- Machines did the same: the same was sent, routed and committed, and the same observers were
  told. -/
  deeds (m : MachineId) : List.Forall₂ (Deed.Like P) (deeds m past) (deeds m past')
  /-- In the same order, teardowns ran, entry actions ran and routes were subscribed. -/
  acts (m : MachineId) (s : ScopeId) : List.Forall₂ (Act.Like P) (acts m s past) (acts m s past')
  machine (m : MachineId) :
    Option.Rel (MachineCell.Like P) (c.world.machine? m) (c'.world.machine? m)
  subscriptions (m : MachineId) : (c.world.machine? m).map c.world.subscriptions =
    (c'.world.machine? m).map c'.world.subscriptions
  tally (i : ManagerId) : c.world.tally i = c'.world.tally i
  cancelled (s : ScopeId) : c.world.isCancelled s = c'.world.isCancelled s
  aliases {m : MachineId} {x x' : MachineCell H} (found : c.world.machine? m = some x)
    (found' : c'.world.machine? m = some x') :
    P.Prepends (origins m past).entered (origins m past').entered x.aliases x'.aliases

namespace Pairing.Run

variable {w w' : World H} {past past' : List (Config H)}

theorem left (run : P.Run w w' past past' c c') : P.left.Run w past c := by
  induction run with
  | begin fresh => exact .begin fresh _ _
  | step run left right ih => exact ih.step left
  | resume run ended => next ih => exact ih.resume ended _ _

theorem right (run : P.Run w w' past past' c c') : P.right.Run w' past' c' := by
  induction run with
  | begin fresh fresh' => exact .begin fresh' _ _
  | step run left right ih => exact ih.step right
  | resume run ended ended' => next ih => exact ih.resume ended' _ _

/-- At every instant the configurations correspond. -/
theorem like (run : P.Run w w' past past' c c') (lawful : P.IsLawful)
    (room : ∀ y ∈ past', y.HasRoom P.right) :
    List.Forall₂ (Config.Like P) past past' ∧ c.Like P c' := by
  induction run with
  | begin fresh fresh' worlds hosts scripts => exact ⟨.nil, worlds, hosts, .run scripts, .nil⟩
  | @step past past' c c' d d' run left right ih =>
    obtain ⟨steps, here⟩ := ih fun y mem => room y (List.mem_append_left _ mem)
    have next := lawful.step here (room c' (List.mem_append_right _ (List.mem_singleton_self c')))
    rw [left, right] at next
    cases next with
    | some next => exact ⟨List.rel_append steps (.cons here .nil), next⟩
  | resume run ended ended' hosts scripts ih =>
    obtain ⟨steps, here⟩ := ih fun y mem => room y (List.mem_append_left _ mem)
    exact ⟨List.rel_append steps (.cons here .nil), here.world, hosts, .run scripts, here.stack⟩

/-- A machine has the aliases that come of the references through which it entered its state. -/
theorem prepends (run : P.Run w w' past past' c c') (lawful : P.IsLawful)
    (room : ∀ y ∈ past', y.HasRoom P.right) {m : MachineId} {x x' : MachineCell H}
    (found : c.world.machine? m = some x) (found' : c'.world.machine? m = some x') :
    P.Prepends (origins m past).entered (origins m past').entered x.aliases x'.aliases := by
  obtain ⟨steps, here⟩ := run.like lawful room
  have prompt : (∀ y ∈ past, y.IsPrompt) ∧ ∀ y ∈ past', y.IsPrompt := by
    clear run room found found'
    induction steps with
    | nil =>
      have none (y : Config H) (mem : y ∈ []) : y.IsPrompt := absurd mem List.not_mem_nil
      exact ⟨none, none⟩
    | cons head tail ih =>
      exact ⟨List.forall_mem_cons.2 ⟨head.isPrompt.1, ih.1⟩,
        List.forall_mem_cons.2 ⟨head.isPrompt.2, ih.2⟩⟩
  have left := (run.left.traces prompt.1 m).shows found
  have right := (run.right.traces prompt.2 m).shows found'
  have known {i : Inquiry} (entered : (origins m past').entered = some i) :
      P.right.HasRoom i.limit i.definition := by
    obtain ⟨y, mem, collects⟩ := mem_of_origins (.inr entered)
    exact room y mem i collects
  have entered := (origins_like steps m).entered
  generalize (origins m past).entered = o, (origins m past').entered = o' at *
  cases entered with
  | none =>
    rw [show x.aliases = [] from left, show x'.aliases = [] from right]
    exact .idle
  | @some i i' inquiries =>
    obtain ⟨purpose, limit, d⟩ := i
    obtain ⟨purpose', limit', d'⟩ := i'
    obtain ⟨same, same', hops, through, rfl⟩ := inquiries
    cases same
    cases same'
    obtain ⟨y, collects, _, aliases⟩ := left
    obtain ⟨y', collects', _, aliases'⟩ := right
    obtain ⟨r, r', alone, alone', ends⟩ := lawful.collect through (known rfl)
    rw [alone] at collects
    rw [alone'] at collects'
    cases collects
    cases collects'
    cases ends with
    | ok states =>
      rw [aliases, aliases', states.2]
      exact .entered through

/-- Aliases are transparent to a running machine: two programs that differ only in the names that
references go through do the same, whatever host code does. Only aliases differ: those of a state
that was entered through a reference with new names begin with these names, outermost first. -/
theorem transparent (run : P.Run w w' past past' c c') (lawful : P.IsLawful)
    (room : ∀ y ∈ past' ++ [c'], y.HasRoom P.right) : P.InStep past past' c c' := by
  have earlier : ∀ y ∈ past', y.HasRoom P.right := fun y mem => room y (List.mem_append_left _ mem)
  obtain ⟨steps, here⟩ := run.like lawful earlier
  exact {
    here
    goes := by
      have next := lawful.step here (room c' (List.mem_append_right _ (List.mem_singleton_self c')))
      obtain ⟨h, h'⟩ | ⟨d, d', h, h', _⟩ := exists_of_rel next
      · rw [h, h']
      · rw [h, h']
        rfl
    finished := here.isOver
    answers := List.rel_filterMap (fun _ _ like => like.answer?) steps
    deeds m := List.rel_filterMap (fun _ _ like => like.deed? m) steps
    acts m s := List.rel_filterMap (fun _ _ like => like.act? m s) steps
    machine := here.world.machine?
    subscriptions m := by
      obtain ⟨h, h'⟩ | ⟨x, x', h, h', cells⟩ := exists_of_rel (here.world.machine? m)
      · rw [h, h']
        rfl
      · rw [h, h', Option.map_some, Option.map_some, here.world.subscriptions cells]
    tally := here.world.tally
    cancelled := here.world.isCancelled
    aliases := run.prepends lawful earlier }

/-- To run both programs from where two runs are is to go on with the runs side by side. -/
theorem trail (run : P.Run w w' past past' c c') (lawful : P.IsLawful) (n : Nat)
    (room : ∀ y ∈ past' ++ P.right.trail n c' ++ [P.right.run n c'], y.HasRoom P.right) :
    P.Run w w' (past ++ P.left.trail n c) (past' ++ P.right.trail n c') (P.left.run n c)
      (P.right.run n c') := by
  induction n generalizing past past' c c' with
  | zero => simpa [Program.trail, Program.run] using run
  | succ n ih =>
    have here := (run.like lawful fun y mem => room y (by simp [mem])).2
    unfold Program.trail Program.run at room ⊢
    generalize right : P.right.step c' = o' at room ⊢
    have next := lawful.step here (room c' (by cases o' <;> simp))
    rw [right] at next
    generalize left : P.left.step c = o at next ⊢
    cases next with
    | none => simpa using run
    | some next => simpa using ih (run.step left right) (by simpa using room)

end Pairing.Run

/-! ## The lamp under other names -/

namespace Lamp

/-- The lamp is switched on through two new names. -/
def relit : Program Unit where
  declared key :=
    .yield (.listenTo switch (.ofList ["toggle"])) <|
      .yield (.moveTo "toggle" (if key = "off" then on.under ["Glow", "Shine"] else off)) <|
        .finish (.ok ())
  subscriber _ h := h

def pairing : Pairing Unit where
  left := program
  right := relit
  via d hops := d = on ∧ hops = ["Glow", "Shine"]
  host _ _ := True

theorem pairing_isLawful : pairing.IsLawful where
  declared key := by
    refine .yield (.listenTo ..) (.yield (.moveTo _ ?_) (.finish (.ok trivial)))
    split
    · exact ⟨_, .inr ⟨rfl, rfl⟩, rfl⟩
    · exact ⟨[], .inl rfl, rfl⟩
  subscriber _ _ := trivial

theorem world_like : world.Like pairing world where
  scopes := .nil
  managers := rfl
  sources := .cons ⟨rfl, rfl, .emitter, rfl, .nil⟩ .nil
  machines := .nil
  streams := .nil
  wallClock := rfl
  readings := rfl

theorem main_like : main.Like pairing main := by
  have ok : (Script.ok : Script Unit).Like pairing .ok := .done (.ok trivial)
  refine .call (.start ⟨[], .inl rfl, rfl⟩ {} none) fun _ _ _ => ?_
  refine .call (.plain trivial) fun a a' answers => ?_
  cases answers with
  | scope s =>
    refine .call (.observe _ (fun _ _ _ => ok) s) fun _ _ _ => ?_
    refine .call (.plain trivial) fun _ _ _ => .call (.plain trivial) fun _ _ _ => ?_
    exact .call (.plain trivial) fun _ _ _ => ok
  | _ => exact ok

/-- The definitions of the lamp continue as each other only through the new names. -/
theorem relit_hasRoom (d : Definition) (known : d = off ∨ d = on.under ["Glow", "Shine"]) :
    relit.HasRoom 32 d := by
  -- a declared body continues as nothing
  have declared {key name : String} {room : Nat} {c : Collector Unit} {target c'} :
      ¬((relit.body (.shared key name)).Asks (relit.delegate 32 room) c target c') := by
    rintro (_ | _ | (_ | _ | asks))
    cases asks
  intro target c asks
  rcases known with rfl | rfl
  · exact absurd asks declared
  · cases asks with
    | later answered rest => cases rest
    | here =>
      intro e c' meets
      cases meets with
      | inside free asks meets =>
        cases asks with
        | later answered rest => cases rest
        | here =>
          cases meets with
          | inside free asks meets => exact absurd asks declared

end Lamp

/-- When the lamp has been switched on, it has the new names as its aliases. -/
theorem Pairing.Run.transparent_lamp :
    Lamp.pairing.IsLawful ∧
      Lamp.pairing.InStep (Lamp.program.trail 30 Lamp.start) (Lamp.relit.trail 30 Lamp.start)
        (Lamp.program.run 30 Lamp.start) (Lamp.relit.run 30 Lamp.start) ∧
      ((Lamp.program.run 30 Lamp.start).world.machine? ⟨0⟩).map MachineCell.aliases = some [] ∧
      ((Lamp.relit.run 30 Lamp.start).world.machine? ⟨0⟩).map MachineCell.aliases =
        some ["Glow", "Shine"] := by
  have room : ∀ y ∈ [] ++ Lamp.relit.trail 30 Lamp.start ++ [Lamp.relit.run 30 Lamp.start],
      y.HasRoom Lamp.relit := by
    intro y mem i collects
    have found : i ∈ (Lamp.relit.trail 31 Lamp.start).filterMap Config.collects? :=
      List.mem_filterMap.2 ⟨y, mem, collects⟩
    have all : (Lamp.relit.trail 31 Lamp.start).filterMap Config.collects? =
        [⟨.initial ⟨0⟩, 32, Lamp.off⟩,
          ⟨.transition ⟨0⟩ "toggle", 32, Lamp.on.under ["Glow", "Shine"]⟩] := rfl
    rw [all] at found
    rcases List.mem_pair.1 found with rfl | rfl
    · exact Lamp.relit_hasRoom _ (.inl rfl)
    · exact Lamp.relit_hasRoom _ (.inr rfl)
  have begun : Lamp.pairing.Run Lamp.world Lamp.world [] [] Lamp.start Lamp.start :=
    .begin Lamp.world_isFresh Lamp.world_isFresh Lamp.world_like trivial Lamp.main_like
  have run := begun.trail Lamp.pairing_isLawful 30 room
  exact ⟨Lamp.pairing_isLawful, run.transparent Lamp.pairing_isLawful room, rfl, rfl⟩

end ScopedMachine

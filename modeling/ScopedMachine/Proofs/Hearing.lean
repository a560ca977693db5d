import ScopedMachine.Proofs.Notices

/-!
# Who hears of what

An observer whose token is live has been told of every change that was committed since it was
registered, each once and in order, except for one that is being published and for those whose
publication a panic cut short. `Progress` says how a step goes on with a publication, `Attends` is
the invariant.
-/

namespace ScopedMachine

variable {H : Type} {p : Program H} {m : MachineId}

/-! ## What there is to hear -/

/-- The changes that an observer was told of. -/
def heard (k : Nat) (ds : List Deed) : List Change :=
  ds.filterMap fun d => d.told?.bind fun x => if x.1 = k then some x.2 else none

namespace Config

/-- The change that the next step commits, if the observer with this number came before. -/
def due? (m : MachineId) (k : Nat) (c : Config H) : Option Change :=
  if k < c.world.nextObserver m then (c.deed? m).bind Deed.committed? else none

/-- The change of which an observer will not be told, because a panic is about to end its
publication. -/
def cut? (m : MachineId) (k : Nat) (c : Config H) : Option Change :=
  match c.control, c.stack with
  | .panic _, .publishing n change rest :: _ =>
    if n = m ∧ k ∈ rest.map Registration.number then some change else none
  | _, _ => none

/-- The change of which an observer is yet to be told. -/
def awaited (m : MachineId) (k : Nat) (c : Config H) : List Change :=
  (publications m c.stack).filterMap fun x => if k ∈ x.2.map Prod.fst then some x.1 else none

end Config

/-- The changes committed since the observer with this number was registered. -/
def due (m : MachineId) (k : Nat) (past : List (Config H)) : List Change :=
  past.filterMap (Config.due? m k)

/-- The changes of which an observer was not told, because a panic ended their publication. -/
def cuts (m : MachineId) (k : Nat) (past : List (Config H)) : List Change :=
  past.filterMap (Config.cut? m k)

section Concat

variable {k : Nat} {ds : List Deed} {past : List (Config H)} {c : Config H}

theorem due_concat : due m k (past ++ [c]) = due m k past ++ (c.due? m k).toList := by
  cases h : c.due? m k <;> simp [due, h]

theorem cuts_concat : cuts m k (past ++ [c]) = cuts m k past ++ (c.cut? m k).toList := by
  cases h : c.cut? m k <;> simp [cuts, h]

theorem heard_of_told?_none {d : Option Deed} (told : d.bind Deed.told? = none) :
    heard k (ds ++ d.toList) = heard k ds := by
  cases d with
  | none => simp
  | some d =>
    have told : d.told? = none := told
    simp [heard, told]

theorem heard_told {number : Nat} {change : Change} :
    heard k (ds ++ [.told number change]) =
      heard k ds ++ if number = k then [change] else [] := by
  by_cases h : number = k <;> simp [heard, Deed.told?, h]

theorem Config.due?_of_none (committed : (c.deed? m).bind Deed.committed? = none) :
    c.due? m k = none := by
  rw [due?, committed, ite_self]

end Concat

/-! ## Topics -/

/-- All observers of a machine are registered for its changes. -/
theorem Turn.topics {w : World H} {d : Option Deed} {e : Effect H} {cell cell' : MachineCell H}
    {ctl ctl' : Control H} {pops pushes : List (Frame H)}
    (turn : Turn p w m d e ⟨cell, ctl, pops⟩ ⟨cell', ctl', pushes⟩)
    (topics : ∀ r ∈ cell.observers.entries, r.topic = Change.topic) :
    ∀ r ∈ cell'.observers.entries, r.topic = Change.topic := by
  cases turn with
  | observe =>
    intro r hr
    rcases List.mem_append.1 hr with hr | hr
    · exact topics r hr
    · rw [List.mem_singleton.1 hr]
  | unobserve => exact fun r hr => topics r (List.mem_filter.1 hr).1
  | dismantled => exact fun r hr => absurd hr List.not_mem_nil
  | _ => exact topics

theorem Program.Run.topics {w : World H} {past : List (Config H)} {c : Config H}
    {cell : MachineCell H} (run : p.Run w past c) (found : c.world.machine? m = some cell) :
    ∀ r ∈ cell.observers.entries, r.topic = Change.topic := by
  induction run generalizing cell with
  | begin fresh host s =>
    rw [show _ = none from fresh.machine? m] at found
    cases found
  | step run h ih =>
    cases (run.move h).outlook m with
    | spared machine => exact ih (machine ▸ found)
    | start signal new found' deed blank =>
      obtain ⟨settings, manager, rfl⟩ := blank
      rw [found] at found'
      cases found'
      exact fun r hr => absurd hr List.not_mem_nil
    | turn pops pushes rest found₀ found' turn =>
      rw [found] at found'
      cases found'
      exact turn.topics (ih found₀)
  | resume run ended host s ih => exact ih found

/-! ## The progress of a publication -/

/-- How a step goes on with the publications of a machine. -/
inductive Progress (m : MachineId) (c c' : Config H) : Prop where
  | same (committed : (c.deed? m).bind Deed.committed? = none)
      (told : (c.deed? m).bind Deed.told? = none) (uncut : ∀ k, c.cut? m k = none)
      (same : publications m c'.stack = publications m c.stack)
  | commit (change : Change) (b : Book) (deed : c.deed? m = some (.committed change))
      (uncut : ∀ k, c.cut? m k = none) (found : c.world.book? (.machine m) = some b)
      (alive : ¬c.IsGone m) (before : publications m c.stack = [])
      (after : publications m c'.stack = [(change, b.entries)])
  | tell (change : Change) (e : Nat × ScopeId) (rest : List (Nat × ScopeId))
      (live : c.world.isCancelled e.2 = false) (deed : c.deed? m = some (.told e.1 change))
      (uncut : ∀ k, c.cut? m k = none) (before : publications m c.stack = [(change, e :: rest)])
      (after : publications m c'.stack = [(change, rest)])
  | pass (change : Change) (e : Nat × ScopeId) (rest : List (Nat × ScopeId))
      (cancelled : c.world.isCancelled e.2) (deed : c.deed? m = none)
      (uncut : ∀ k, c.cut? m k = none) (before : publications m c.stack = [(change, e :: rest)])
      (after : publications m c'.stack = [(change, rest)])
  | close (change : Change) (deed : c.deed? m = none) (uncut : ∀ k, c.cut? m k = none)
      (before : publications m c.stack = [(change, [])]) (after : publications m c'.stack = [])
  | cut (change : Change) (rest : List (Nat × ScopeId)) (deed : c.deed? m = none)
      (cut : ∀ k, c.cut? m k = if k ∈ rest.map Prod.fst then some change else none)
      (before : publications m c.stack = [(change, rest)]) (after : publications m c'.stack = [])

/-- Below a transition there is no publication. -/
theorem Posture.publications_eq_nil {cell : MachineCell H} {ctl : Control H}
    {fs gs : List (Frame H)} {r : Role} (posture : Posture m cell ctl (roles m (fs ++ gs)))
    (top : roles m fs = [r]) (transit : r.isTransit) : publications m gs = [] := by
  rw [roles_append, top] at posture
  refine publications_eq_nil_of_roles fun h => ?_
  have other := posture.isTransit_eq_false transit h
  cases other

theorem Program.Run.progress {w : World H} {past : List (Config H)} {c c' : Config H}
    (run : p.Run w past c) (h : p.step c = some c') : Progress m c c' := by
  by_cases cut : ∃ message change rest below,
      c.control = .panic message ∧ c.stack = .publishing m change rest :: below
  · obtain ⟨message, change, rest, below, control, stack⟩ := cut
    obtain ⟨w', host, ctl, fs⟩ := c
    cases control
    cases stack
    cases h
    obtain ⟨cell, found⟩ := run.grounded.frame (List.mem_cons_self ..) Frame.machine?_publishing
    have posture : Posture m cell (.panic message)
        (roles m ([.publishing m change rest] ++ below)) := (run.poised m).posture found
    have none : publications m below = [] := posture.publications_eq_nil roles_publishing rfl
    refine .cut change (rest.map Registration.line) Config.deed?_panic (fun k => ?_) ?_ none
    · rw [List.map_map]
      exact if_congr (and_iff_right rfl) rfl rfl
    · rw [publications_publishing, none]
  · have uncut (k : Nat) : c.cut? m k = none := by
      unfold Config.cut?
      split
      · next message n change rest below control stack =>
        refine if_neg fun hk => cut ⟨message, change, rest, below, control, ?_⟩
        rw [stack, hk.1]
      · rfl
    cases (run.move h).outlook m with
    | spared machine frames deed control control' =>
      refine .same (by rw [deed]; rfl) (by rw [deed]; rfl) uncut ?_
      exact congrArg (List.filterMap Frame.publication?) frames
    | start signal new found deed blank control frames =>
      refine .same (by rw [deed]; rfl) (by rw [deed]; rfl) uncut ?_
      exact (congrArg (List.filterMap Frame.publication?) frames).trans rfl
    | @turn cell cell' e pops pushes rest found found' turn before after =>
      have posture := (run.poised m).posture found
      rw [before] at posture
      have below {r : Role} (top : roles m pops = [r]) (transit : r.isTransit) :
          publications m rest = [] := posture.publications_eq_nil top transit
      cases turn.telling with
      | same committed told same =>
        refine .same committed told uncut ?_
        rw [before, after, publications_append, publications_append, same]
      | commit change deed role hpushes =>
        have alive : ¬c.IsGone m := by
          rintro ⟨cell₀, found₀, dead⟩
          rw [found] at found₀
          cases found₀
          rw [roles_append, role] at posture
          rw [posture.isAlive_of_cons nofun] at dead
          cases dead
        have matching : cell.observers.matching Change.topic = cell.observers.entries :=
          List.filter_eq_self.2 fun r hr => by simp [run.topics found r hr]
        refine .commit change cell.observers.book deed uncut ?_ alive ?_ ?_
        · rw [World.book?, found, Option.map_some]
        · refine publications_eq_nil_of_roles ?_
          rw [before, roles_append, role]
          rw [roles_append, role] at posture
          intro h
          rcases List.mem_cons.1 h with h | h
          · cases h
          · cases posture.isTransit_eq_false rfl h
        · rw [after, publications_append, hpushes, below role rfl, matching]
          rfl
      | tell change e rest live deed role hpops hpushes =>
        refine .tell change e rest live deed uncut ?_ ?_
        · rw [before, publications_append, hpops, below role rfl]; rfl
        · rw [after, publications_append, hpushes, below role rfl]; rfl
      | pass change e rest cancelled deed role hpops hpushes =>
        refine .pass change e rest cancelled deed uncut ?_ ?_
        · rw [before, publications_append, hpops, below role rfl]; rfl
        · rw [after, publications_append, hpushes, below role rfl]; rfl
      | close change deed role hpops hpushes =>
        refine .close change deed uncut ?_ ?_
        · rw [before, publications_append, hpops, below role rfl]; rfl
        · rw [after, publications_append, hpushes, below role rfl]; rfl
      | cut change others message panics hpops =>
        exact absurd ⟨message, change, others, rest, panics, by rw [before, hpops]; rfl⟩ cut

/-! ## Attention -/

/-- What the observers of a machine know of its transitions. -/
structure Attends (m : MachineId) (past : List (Config H)) (c : Config H) : Prop where
  /-- The change being published is the last one committed. -/
  last {x : Change × List (Nat × ScopeId)} (hx : x ∈ publications m c.stack) :
    (commits (deeds m past)).getLast? = some x.1
  /-- Only observers are told of a change, and each of them once. -/
  audience {x : Change × List (Nat × ScopeId)} (hx : x ∈ publications m c.stack) :
    (x.2.map Prod.fst).Nodup ∧ ∀ e ∈ x.2, Knows m e past c
  cut {k : Nat} {change : Change} (h : change ∈ cuts m k past) : change ∈ commits (deeds m past)
  late {k : Nat} (h : c.world.nextObserver m ≤ k) : due m k past = []
  suffix (k : Nat) : due m k past <:+ commits (deeds m past)
  order (k : Nat) : (heard k (deeds m past)).Sublist (due m k past)
  steady {k : Nat} (uncut : cuts m k past = []) : heard k (deeds m past) <+: due m k past
  told {e : Nat × ScopeId} (known : Knows m e past c) (live : c.world.isCancelled e.2 = false) :
    heard e.1 (deeds m past) ++ c.awaited m e.1 =
      (due m e.1 past).filter (· ∉ cuts m e.1 past)

namespace Config

variable {c : Config H} {k : Nat}

theorem awaited_of_nil (none : publications m c.stack = []) : c.awaited m k = [] := by
  rw [awaited, none, List.filterMap_nil]

theorem awaited_of_singleton {change : Change} {rest : List (Nat × ScopeId)}
    (one : publications m c.stack = [(change, rest)]) :
    c.awaited m k = if k ∈ rest.map Prod.fst then [change] else [] := by
  rw [awaited, one]
  by_cases h : k ∈ rest.map Prod.fst
  · simp only [List.filterMap_cons, h, if_true, List.filterMap_nil]
  · simp only [List.filterMap_cons, h, if_false, List.filterMap_nil]

end Config

namespace Attends

variable {past : List (Config H)} {c c' : Config H}

theorem commits_of_none (committed : (c.deed? m).bind Deed.committed? = none) :
    commits (deeds m (past ++ [c])) = commits (deeds m past) := by
  rw [deeds_concat, commits_concat, committed]
  exact List.append_nil _

theorem due_of_none {k : Nat} (committed : (c.deed? m).bind Deed.committed? = none) :
    due m k (past ++ [c]) = due m k past := by
  rw [due_concat, Config.due?_of_none committed]
  exact List.append_nil _

theorem cuts_of_none {k : Nat} (uncut : c.cut? m k = none) :
    cuts m k (past ++ [c]) = cuts m k past := by
  rw [cuts_concat, uncut]
  exact List.append_nil _

/-- The next observer has missed nothing. -/
theorem due_of_le (attends : Attends m past c) {k : Nat} (h : c.world.nextObserver m ≤ k) :
    due m k (past ++ [c]) = [] := by
  rw [due_concat, attends.late h, Config.due?, if_neg (Nat.not_lt.2 h)]
  rfl

theorem last_step (attends : Attends m past c) (progress : Progress m c c')
    {x : Change × List (Nat × ScopeId)} (hx : x ∈ publications m c'.stack) :
    (commits (deeds m (past ++ [c]))).getLast? = some x.1 := by
  cases progress with
  | same committed told uncut same =>
    rw [commits_of_none committed]
    exact attends.last (same ▸ hx)
  | commit change b deed uncut found alive before after =>
    rw [after] at hx
    rw [List.mem_singleton.1 hx, deeds_concat, commits_concat, deed]
    exact List.getLast?_concat
  | tell change e rest live deed uncut before after =>
    rw [after] at hx
    rw [List.mem_singleton.1 hx, commits_of_none (by rw [deed]; rfl)]
    have last := attends.last (by rw [before]; exact List.mem_singleton_self _)
    exact last
  | pass change e rest cancelled deed uncut before after =>
    rw [after] at hx
    rw [List.mem_singleton.1 hx, commits_of_none (by rw [deed]; rfl)]
    have last := attends.last (by rw [before]; exact List.mem_singleton_self _)
    exact last
  | close change deed uncut before after | cut change rest deed cut before after =>
    rw [after] at hx
    cases hx

theorem audience_step (attends : Attends m past c) (owned : c.Owned)
    (progress : Progress m c c') {x : Change × List (Nat × ScopeId)} (hx : x ∈ publications m c'.stack) :
    (x.2.map Prod.fst).Nodup ∧ ∀ e ∈ x.2, Knows m e past c := by
  have shrinks {change : Change} {e : Nat × ScopeId} {rest : List (Nat × ScopeId)}
      (before : publications m c.stack = [(change, e :: rest)]) :
      (rest.map Prod.fst).Nodup ∧ ∀ e ∈ rest, Knows m e past c := by
    obtain ⟨nodup, known⟩ := attends.audience (by rw [before]; exact List.mem_singleton_self _)
    exact ⟨(List.nodup_cons.1 nodup).2, fun e he => known e (List.mem_cons_of_mem _ he)⟩
  cases progress with
  | same committed told uncut same => exact attends.audience (same ▸ hx)
  | commit change b deed uncut found alive before after =>
    rw [after] at hx
    rw [List.mem_singleton.1 hx]
    exact ⟨(owned.ordered found).increasing.imp Nat.ne_of_lt,
      fun e he => ⟨c, by simp, b, found, he⟩⟩
  | tell change e rest live deed uncut before after =>
    rw [after] at hx
    rw [List.mem_singleton.1 hx]
    exact shrinks before
  | pass change e rest cancelled deed uncut before after =>
    rw [after] at hx
    rw [List.mem_singleton.1 hx]
    exact shrinks before
  | close change deed uncut before after | cut change rest deed cut before after =>
    rw [after] at hx
    cases hx

theorem cut_step (attends : Attends m past c) (progress : Progress m c c') {k : Nat}
    {change : Change} (h : change ∈ cuts m k (past ++ [c])) : change ∈ commits (deeds m (past ++ [c])) := by
  rw [deeds_concat, commits_concat]
  rw [cuts_concat] at h
  rcases List.mem_append.1 h with h | h
  · exact List.mem_append_left _ (attends.cut h)
  · cases progress with
    | same _ _ uncut | commit _ _ _ uncut | tell _ _ _ _ _ uncut | pass _ _ _ _ _ uncut
    | close _ _ uncut =>
      rw [uncut] at h
      cases h
    | cut published rest deed cut before after =>
      rw [cut] at h
      split at h
      · rw [List.mem_singleton.1 h]
        have last := attends.last (by rw [before]; exact List.mem_singleton_self _)
        exact List.mem_append_left _ (List.mem_of_getLast? last)
      · cases h

theorem suffix_step (attends : Attends m past c) (k : Nat) :
    due m k (past ++ [c]) <:+ commits (deeds m (past ++ [c])) := by
  by_cases hk : k < c.world.nextObserver m
  · rw [due_concat, Config.due?, if_pos hk, deeds_concat, commits_concat]
    obtain ⟨early, h⟩ := attends.suffix k
    exact ⟨early, by rw [← h, List.append_assoc]⟩
  · rw [attends.due_of_le (Nat.le_of_not_lt hk)]
    exact List.nil_suffix

/-- Who is told of a change has been told of all those before it. -/
theorem heard_concat (attends : Attends m past c) {change : Change} {e : Nat × ScopeId}
    {rest : List (Nat × ScopeId)} (live : c.world.isCancelled e.2 = false)
    (before : publications m c.stack = [(change, e :: rest)]) :
    heard e.1 (deeds m past) ++ [change] =
      (due m e.1 past).filter (· ∉ cuts m e.1 past) := by
  have audience := attends.audience (by rw [before]; exact List.mem_singleton_self _)
  rw [← attends.told (audience.2 e (List.mem_cons_self ..)) live,
    Config.awaited_of_singleton before, if_pos (List.mem_map_of_mem (List.mem_cons_self ..))]

theorem order_step (attends : Attends m past c) (progress : Progress m c c') (k : Nat) :
    (heard k (deeds m (past ++ [c]))).Sublist (due m k (past ++ [c])) := by
  have same (told : (c.deed? m).bind Deed.told? = none) :
      (heard k (deeds m (past ++ [c]))).Sublist (due m k (past ++ [c])) := by
    rw [deeds_concat, heard_of_told?_none told, due_concat]
    exact (attends.order k).trans (List.sublist_append_left ..)
  cases progress with
  | same committed told => exact same told
  | commit change b deed | pass change e rest cancelled deed | close change deed
  | cut change rest deed => exact same (by rw [deed]; rfl)
  | tell change e rest live deed uncut before after =>
    rw [due_of_none (by rw [deed]; rfl), deeds_concat, deed]
    refine heard_told.symm ▸ ?_
    by_cases hk : e.1 = k
    · subst hk
      rw [if_pos rfl, attends.heard_concat live before]
      exact List.filter_sublist
    · rw [if_neg hk, List.append_nil]
      exact attends.order k

theorem steady_step (attends : Attends m past c) (progress : Progress m c c') {k : Nat}
    (uncut : cuts m k (past ++ [c]) = []) :
    heard k (deeds m (past ++ [c])) <+: due m k (past ++ [c]) := by
  rw [cuts_concat, List.append_eq_nil_iff] at uncut
  have same (told : (c.deed? m).bind Deed.told? = none) :
      heard k (deeds m (past ++ [c])) <+: due m k (past ++ [c]) := by
    rw [deeds_concat, heard_of_told?_none told, due_concat]
    exact (attends.steady uncut.1).trans (List.prefix_append ..)
  cases progress with
  | same committed told => exact same told
  | commit change b deed | pass change e rest cancelled deed | close change deed
  | cut change rest deed => exact same (by rw [deed]; rfl)
  | tell change e rest live deed _ before after =>
    rw [due_of_none (by rw [deed]; rfl), deeds_concat, deed]
    refine heard_told.symm ▸ ?_
    by_cases hk : e.1 = k
    · subst hk
      have all := attends.heard_concat live before
      rw [uncut.1, List.filter_eq_self.2 (by simp)] at all
      exact ⟨[], by rw [if_pos rfl, all, List.append_nil]⟩
    · rw [if_neg hk, List.append_nil]
      exact attends.steady uncut.1

theorem told_step (attends : Attends m past c) (guests : Guestbook m past c)
    (nodup : (commits (deeds m (past ++ [c]))).Nodup) (progress : Progress m c c')
    {e : Nat × ScopeId} (known : Knows m e past c) (live : c.world.isCancelled e.2 = false) :
    heard e.1 (deeds m (past ++ [c])) ++ c'.awaited m e.1 =
      (due m e.1 (past ++ [c])).filter (· ∉ cuts m e.1 (past ++ [c])) := by
  have told := attends.told known live
  cases progress with
  | same committed untold uncut same =>
    rw [deeds_concat, heard_of_told?_none untold, due_of_none committed, cuts_of_none (uncut _),
      ← told, Config.awaited, Config.awaited, same]
  | commit change b deed uncut found alive before after =>
    have here : e.1 ∈ b.entries.map Prod.fst := by
      rcases guests.kept known live with ⟨b', found', he⟩ | gone
      · rw [found] at found'
        cases found'
        exact List.mem_map_of_mem he
      · exact absurd gone alive
    -- the change is new, so no panic has ended its publication
    have new : change ∉ cuts m e.1 past := by
      intro h
      rw [deeds_concat, commits_concat, deed] at nodup
      exact (List.nodup_append.1 nodup).2.2 _ (attends.cut h) _ (List.mem_singleton_self _) rfl
    rw [Config.awaited_of_nil before, List.append_nil] at told
    rw [deeds_concat, heard_of_told?_none (by rw [deed]; rfl), cuts_of_none (uncut _), due_concat,
      Config.due?, if_pos (guests.lt known), deed, List.filter_append, ← told,
      Config.awaited_of_singleton after, if_pos here]
    simp [Deed.committed?, new]
  | tell change e₀ rest live₀ deed uncut before after =>
    rw [due_of_none (by rw [deed]; rfl), cuts_of_none (uncut _), deeds_concat, deed,
      Config.awaited_of_singleton after]
    refine heard_told.symm ▸ ?_
    rw [Config.awaited_of_singleton before] at told
    by_cases h : e₀.1 = e.1
    · have audience := attends.audience (by rw [before]; exact List.mem_singleton_self _)
      have gone : e.1 ∉ rest.map Prod.fst := h ▸ (List.nodup_cons.1 audience.1).1
      rw [if_pos (by simp [h])] at told
      rw [if_pos h, if_neg gone, List.append_nil, told]
    · have iff : e.1 ∈ (e₀ :: rest).map Prod.fst ↔ e.1 ∈ rest.map Prod.fst := by
        simp [Ne.symm h]
      simp only [iff] at told
      rw [if_neg h, List.append_nil, told]
  | pass change e₀ rest cancelled deed uncut before after =>
    have other : e₀.1 ≠ e.1 := by
      intro h
      have audience := attends.audience (by rw [before]; exact List.mem_singleton_self _)
      have same := guests.unique (audience.2 e₀ (List.mem_cons_self ..)) known h
      rw [same, live] at cancelled
      cases cancelled
    have iff : e.1 ∈ (e₀ :: rest).map Prod.fst ↔ e.1 ∈ rest.map Prod.fst := by
      simp [Ne.symm other]
    rw [Config.awaited_of_singleton before] at told
    simp only [iff] at told
    rw [due_of_none (by rw [deed]; rfl), cuts_of_none (uncut _), deeds_concat,
      heard_of_told?_none (by rw [deed]; rfl), Config.awaited_of_singleton after, told]
  | close change deed uncut before after =>
    rw [Config.awaited_of_singleton before, List.map_nil, if_neg List.not_mem_nil] at told
    rw [due_of_none (by rw [deed]; rfl), cuts_of_none (uncut _), deeds_concat,
      heard_of_told?_none (by rw [deed]; rfl), Config.awaited_of_nil after, told]
  | cut change rest deed cut before after =>
    rw [Config.awaited_of_singleton before] at told
    rw [due_of_none (by rw [deed]; rfl), deeds_concat, heard_of_told?_none (by rw [deed]; rfl),
      Config.awaited_of_nil after, List.append_nil, cuts_concat, cut]
    by_cases h : e.1 ∈ rest.map Prod.fst
    · -- the change leaves what is awaited and what is due at once
      rw [if_pos h] at told
      have once : (heard e.1 (deeds m past) ++ [change]).Nodup := by
        rw [told]
        refine List.Nodup.filter _ ?_
        refine (attends.suffix e.1).sublist.nodup ?_
        rw [deeds_concat, commits_concat] at nodup
        exact (List.nodup_append.1 nodup).1
      have others : ∀ x ∈ heard e.1 (deeds m past), decide (x ≠ change) := by
        intro x hx
        have apart := (List.nodup_append.1 once).2.2 x hx change (List.mem_singleton_self _)
        exact decide_eq_true apart
      have split (x : Change) : decide (x ∉ cuts m e.1 past ++ [change]) =
          (decide (x ≠ change) && decide (x ∉ cuts m e.1 past)) := by
        simp [and_comm]
      simp only [if_pos h, Option.toList_some, split]
      rw [← List.filter_filter, ← told, List.filter_append, List.filter_eq_self.2 others]
      simp
    · rw [if_neg h, List.append_nil] at told
      rw [if_neg h, Option.toList_none, List.append_nil, told]

end Attends

namespace Program.Run

variable {w : World H} {past : List (Config H)} {c : Config H}

/-- No two transitions are committed with the same change. -/
theorem commits_nodup (run : p.Run w past c) : (commits (deeds m past)).Nodup := by
  have recorded := run.recorded (m := m)
  unfold Config.Recorded at recorded
  split at recorded
  · refine List.Nodup.of_map Change.sequence ?_
    rw [recorded.1.numbers]
    exact List.nodup_range'
  · rw [recorded]
    exact List.nodup_nil

theorem attends (run : p.Run w past c) : Attends m past c := by
  induction run with
  | begin fresh host s =>
    exact ⟨fun hx => absurd hx List.not_mem_nil, fun hx => absurd hx List.not_mem_nil,
      fun h => absurd h List.not_mem_nil, fun _ => rfl, fun k => List.nil_suffix,
      fun k => List.nil_sublist _, fun _ => List.nil_prefix, fun _ _ => rfl⟩
  | step run h ih =>
    have progress := run.progress (m := m) h
    have owned := run.owned
    have books := (run.move h).books
    refine ⟨ih.last_step progress, fun hx => ?_, ih.cut_step progress, fun h => ?_,
      ih.suffix_step, ih.order_step progress, ih.steady_step progress, fun {e} known live => ?_⟩
    · obtain ⟨nodup, known⟩ := ih.audience_step owned progress hx
      exact ⟨nodup, fun e he => knows_concat.2 (.inl (known e he))⟩
    · exact ih.due_of_le (Nat.le_trans books.nextObserver_le h)
    · rcases known.of_concat books with known | ⟨new, _⟩
      · exact ih.told_step run.guests (run.step h).commits_nodup progress known
          (run.guests.live (run.move h).scopes known live)
      · -- whoever just arrived has heard nothing and has missed nothing
        have none := ih.due_of_le (Nat.le_of_eq new.symm)
        have order := ih.order_step progress e.1
        rw [none] at order ⊢
        rw [List.sublist_nil.1 order]
        refine List.filterMap_eq_nil_iff.2 fun x hx => if_neg fun hk => ?_
        obtain ⟨e', he', same⟩ := List.mem_map.1 hk
        have lt := run.guests.lt ((ih.audience_step owned progress hx).2 e' he')
        omega
  | @resume past c run ended host s ih =>
    have quiet : c.deed? m = none := Config.deed?_of_isOver ended
    have uncut (k : Nat) : c.cut? m k = none := by
      unfold Config.cut?
      rw [ended.1]
      split
      · next stack => cases stack
      · rfl
    have same : deeds m (past ++ [c]) = deeds m past := by
      rw [deeds_concat, quiet]
      exact List.append_nil _
    have dues (k : Nat) : due m k (past ++ [c]) = due m k past :=
      Attends.due_of_none (by rw [quiet]; rfl)
    have before {e : Nat × ScopeId} (h : Knows m e (past ++ [c]) { c with host, control := .run s }) :
        Knows m e past c := by
      rcases knows_concat.1 h with h | h
      · exact h
      · exact ⟨c, by simp, h⟩
    refine ⟨fun hx => same ▸ ih.last hx, fun hx => ?_, fun h => ?_, fun h => ?_, fun k => ?_,
      fun k => ?_, fun h => ?_, fun known live => ?_⟩
    · obtain ⟨nodup, known⟩ := ih.audience hx
      exact ⟨nodup, fun e he => knows_concat.2 (.inl (known e he))⟩
    · rw [same]
      exact ih.cut (Attends.cuts_of_none (uncut _) ▸ h)
    · rw [dues]
      exact ih.late h
    · rw [dues, same]
      exact ih.suffix k
    · rw [dues, same]
      exact ih.order k
    · rw [dues, same]
      exact ih.steady (Attends.cuts_of_none (uncut _) ▸ h)
    · rw [dues, same, Attends.cuts_of_none (uncut _)]
      exact ih.told (before known) live

end Program.Run

/-! ## What observers see -/

/-- A change tells what a machine shows. -/
structure Change.Describes (change : Change) (s : Snapshot) : Prop where
  machine : change.machine = s.machine
  sequence : change.sequence = s.transitions
  state : change.state = s.state
  aliases : change.aliases = s.aliases
  accumulator : change.accumulator = s.accumulator

theorem Change.Describes.of_face {change : Change} {cell cell' : MachineCell H}
    (h : change.Describes cell.snapshot) (face : cell'.face = cell.face) :
    change.Describes cell'.snapshot where
  machine := h.machine.trans (congrArg Face.uuid face).symm
  sequence := h.sequence.trans (congrArg Face.sequence face).symm
  state := h.state.trans (congrArg Face.state face).symm
  aliases := h.aliases.trans (congrArg Face.aliases face).symm
  accumulator := h.accumulator.trans (congrArg Face.accumulator face).symm

/-- While a change is published, the machine shows what the change tells. -/
theorem Program.Run.describes {w : World H} {past : List (Config H)} {c : Config H}
    {cell : MachineCell H} (run : p.Run w past c) (found : c.world.machine? m = some cell)
    {x : Change × List (Nat × ScopeId)} (hx : x ∈ publications m c.stack) :
    x.1.Describes cell.snapshot := by
  induction run generalizing cell x with
  | begin fresh host s => cases hx
  | resume run ended host s ih => exact ih found hx
  | @step past c c' run h ih =>
    cases (run.move h).outlook m with
    | spared machine frames =>
      refine ih (machine ▸ found) ?_
      have same : publications m c'.stack = publications m c.stack :=
        congrArg (List.filterMap Frame.publication?) frames
      exact same ▸ hx
    | start signal new found' deed blank control frames =>
      have poised := run.poised m
      simp only [Config.Poised, new] at poised
      rw [poised.1] at frames
      have none : publications m c'.stack = [] :=
        congrArg (List.filterMap Frame.publication?) frames
      rw [none] at hx
      cases hx
    | @turn cell₀ cell' e pops pushes rest found₀ found' turn before after =>
      rw [found] at found'
      cases found'
      have posture := (run.poised m).posture found₀
      rw [before] at posture
      rw [after, publications_append] at hx
      have earlier {y : Change × List (Nat × ScopeId)} (hy : y ∈ publications m pops) :
          y.1.Describes cell₀.snapshot :=
        ih found₀ (by rw [before, publications_append]; exact List.mem_append_left _ hy)
      have below (hy : x ∈ publications m rest) : x.1.Describes cell₀.snapshot :=
        ih found₀ (by rw [before, publications_append]; exact List.mem_append_right _ hy)
      cases turn.faces with
      | same face visited =>
        refine Change.Describes.of_face ?_ face
        rcases List.mem_append.1 hx with hx | hx
        · cases turn.telling with
          | same _ _ same => exact earlier (same ▸ hx)
          | commit change deed =>
            rw [deed] at visited
            cases visited
          | tell change e others live deed role hpops hpushes
          | pass change e others live deed role hpops hpushes =>
            rw [hpushes] at hx
            rw [List.mem_singleton.1 hx]
            have told := earlier (by rw [hpops]; exact List.mem_singleton_self _)
            exact told
          | close change deed role hpops hpushes =>
            rw [hpushes] at hx
            cases hx
          | cut change others message panics hpops hpushes =>
            rw [hpushes] at hx
            cases hx
        · exact below hx
      | begin a deed face hpops hpushes =>
        -- nothing is published while the first state is entered
        rw [roles_append, hpops] at posture
        have quiet := (posture.first (List.mem_cons_self ..)).2
        rw [publications_eq_nil_of_roles (by rw [hpushes]; exact List.not_mem_nil),
          publications_eq_nil_of_roles fun h => by cases quiet _ (List.mem_cons_of_mem _ h)] at hx
        cases hx
      | commit a event time running deed hcell hpops hpushes =>
        rw [posture.publications_eq_nil hpops rfl, List.append_nil] at hx
        cases turn.telling with
        | same committed =>
          rw [deed] at committed
          cases committed
        | commit change deed' role hpushes' =>
          rw [deed] at deed'
          cases deed'
          rw [hpushes'] at hx
          rw [List.mem_singleton.1 hx, hcell]
          exact ⟨rfl, rfl, rfl, rfl, rfl⟩
        | tell change e others live deed' | pass change e others live deed' =>
          rw [deed] at deed'
          cases deed'
        | close change deed' =>
          rw [deed] at deed'
          cases deed'
        | cut change others message panics hpops' =>
          rw [hpops', roles_publishing] at hpops
          cases hpops

end ScopedMachine

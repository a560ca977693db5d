import Mathlib.Data.List.Induction
import ScopedMachine.Issue
import ScopedMachine.Proofs.Portrait

/-!
# What the checks foretell

The checks of a state and its routing table read the same directives in two ways: the checks group
the transitions by their event types, the table pairs each event type with the sources on which it is
listened to. Both are read off `RouteTable.targets`, the targets declared for one event type, so what
the checks report is what a machine in the state will do with an event.
-/

namespace ScopedMachine

variable {H E : Type} {p : Program H} {m : MachineId}

/-! ## Sets of event types -/

namespace TypeSet

variable {s t : TypeSet} {type : String}

theorem mem_insert {x : String} : type ∈ (s.insert x).toList ↔ type = x ∨ type ∈ s.toList :=
  mem_insertSorted

theorem mem_union : type ∈ (s.union t).toList ↔ type ∈ s.toList ∨ type ∈ t.toList := by
  unfold union
  induction t.toList generalizing s with
  | nil => simp
  | cons x xs ih =>
    rw [List.foldl_cons, ih, mem_insert, List.mem_cons]
    tauto

end TypeSet

/-! ## The order of first declaration -/

/-- Some event types are those that are moved on, in the order in which each is declared first. -/
structure FirstDeclared (kinds types : List String) : Prop where
  nodup : types.Nodup
  mem {type : String} : type ∈ types ↔ type ∈ kinds
  order : types.Pairwise fun s t => kinds.idxOf s < kinds.idxOf t

theorem FirstDeclared.concat {kinds types : List String} {kind : String}
    (first : FirstDeclared kinds types) :
    FirstDeclared (kinds ++ [kind])
      (if types.contains kind then types else types ++ [kind]) := by
  -- what is declared already keeps its place
  have kept : types.Pairwise fun s t =>
      (kinds ++ [kind]).idxOf s < (kinds ++ [kind]).idxOf t := by
    refine first.order.imp_of_mem fun hs ht before => ?_
    rwa [List.idxOf_append_of_mem (first.mem.1 hs), List.idxOf_append_of_mem (first.mem.1 ht)]
  by_cases old : kind ∈ types
  · rw [if_pos (List.contains_iff_mem.2 old)]
    refine ⟨first.nodup, fun {type} => ?_, kept⟩
    rw [List.mem_append, List.mem_singleton, first.mem]
    constructor
    · exact .inl
    · rintro (mem | rfl)
      · exact mem
      · exact first.mem.1 old
  · rw [if_neg (mt List.contains_iff_mem.1 old)]
    have new : kind ∉ kinds := mt first.mem.2 old
    refine ⟨?_, fun {type} => ?_, ?_⟩
    · refine List.nodup_append.2 ⟨first.nodup, List.nodup_singleton _, ?_⟩
      rintro s hs t ht rfl
      rw [List.mem_singleton.1 ht] at hs
      exact old hs
    · rw [List.mem_append, List.mem_append, first.mem]
    · refine List.pairwise_append.2 ⟨kept, List.pairwise_singleton _ _, fun s hs t ht => ?_⟩
      rw [List.mem_singleton.1 ht, List.idxOf_append_of_mem (first.mem.1 hs),
        List.idxOf_append_of_notMem new]
      exact Nat.lt_add_right _ (List.idxOf_lt_length_of_mem (first.mem.1 hs))

/-- There is one such order. -/
theorem FirstDeclared.unique {kinds types types' : List String} (first : FirstDeclared kinds types)
    (first' : FirstDeclared kinds types') : types = types' := by
  have perm : types.Perm types' :=
    (List.perm_ext_iff_of_nodup first.nodup first'.nodup).2 fun type =>
      first.mem.trans first'.mem.symm
  refine perm.eq_of_pairwise (fun s t _ _ before after => ?_) first.order first'.order
  exact absurd before (Nat.lt_asymm after)

namespace Collected

variable {x : Collected E} {type : String}

theorem mem_moves {target : Definition} :
    (type, target) ∈ x.moves ↔ .moveTo type target ∈ x.directives := by
  rw [moves, List.mem_filterMap]
  constructor
  · rintro ⟨d, mem, moves⟩
    cases d with
    | moveTo => cases moves; exact mem
    | _ => cases moves
  · exact fun mem => ⟨_, mem, rfl⟩

theorem firstDeclared : FirstDeclared (x.moves.map Prod.fst) x.movedTypes := by
  unfold movedTypes
  induction x.moves using List.reverseRecOn with
  | nil => exact ⟨.nil, Iff.rfl, .nil⟩
  | append_singleton ms m ih =>
    rw [List.foldl_concat, List.map_append, List.map_singleton]
    exact ih.concat

theorem mem_movedTypes :
    type ∈ x.movedTypes ↔ ∃ target, .moveTo type target ∈ x.directives := by
  rw [x.firstDeclared.mem, List.mem_map]
  constructor
  · rintro ⟨⟨_, target⟩, mem, rfl⟩
    exact ⟨target, mem_moves.1 mem⟩
  · exact fun ⟨target, mem⟩ => ⟨_, mem_moves.2 mem, rfl⟩

/-- An event type is listened to, on one source or another. -/
theorem contains_listenedTypes :
    x.listenedTypes.contains type = true ↔ ∃ source, (source, type) ∈ listened x.directives := by
  have union {ls : List (Source × TypeSet)} {s : TypeSet} :
      type ∈ (ls.foldl (fun s l => s.union l.2) s).toList ↔
        type ∈ s.toList ∨ ∃ l ∈ ls, type ∈ l.2.toList := by
    induction ls generalizing s with
    | nil => simp
    | cons l ls ih =>
      rw [List.foldl_cons, ih, TypeSet.mem_union]
      simp [or_assoc]
  rw [TypeSet.contains, List.contains_iff_mem, listenedTypes, union]
  simp only [TypeSet.empty, List.not_mem_nil, false_or, listened, List.mem_flatMap, List.mem_map,
    Prod.mk.injEq, Prod.exists]
  constructor
  · rintro ⟨source, types, mem, inside⟩
    exact ⟨source, source, types, mem, type, inside, rfl, rfl⟩
  · rintro ⟨source, _, types, mem, _, inside, rfl, rfl⟩
    exact ⟨_, types, mem, inside⟩

end Collected

/-! ## Issues -/

/-- The event type that an issue is about, if it is about one. -/
def Issue.type? : Issue → Option String
  | .ambiguousTransition _ type _ | .unlistenedTransition _ type => some type
  | .terminalWithTransitions .. | .uncollectable .. => none

namespace Collected

variable {x : Collected E} {type : String} {state : String}

/-- The targets that are declared for an event type. -/
def targets (x : Collected E) (type : String) : List Definition := RouteTable.targets x.moves type

theorem targetNames_eq : x.targetNames type = (x.targets type).map Definition.name := by
  rw [targets, RouteTable.targets, List.map_map]
  rfl

theorem mem_targets {target : Definition} :
    target ∈ x.targets type ↔ .moveTo type target ∈ x.directives := by
  rw [← mem_moves, targets, RouteTable.targets, List.mem_map]
  constructor
  · rintro ⟨⟨kind, _⟩, mem, rfl⟩
    obtain ⟨mem, same⟩ := List.mem_filter.1 mem
    rwa [show type = kind from (eq_of_beq same).symm]
  · exact fun mem => ⟨_, List.mem_filter.2 ⟨mem, beq_self_eq_true type⟩, rfl⟩

theorem mem_movedTypes_iff_targets : type ∈ x.movedTypes ↔ x.targets type ≠ [] := by
  simp only [mem_movedTypes, ← mem_targets]
  exact ⟨fun ⟨_, mem⟩ => List.ne_nil_of_mem mem, List.exists_mem_of_ne_nil _⟩

/-- Several transitions on one event type are reported with the names of their targets. -/
theorem mem_issues_ambiguous {names : List String} :
    .ambiguousTransition state type names ∈ x.issues ↔
      state = x.name ∧ names = (x.targets type).map Definition.name ∧ 1 < (x.targets type).length := by
  have moved (several : 1 < (x.targets type).length) : type ∈ x.movedTypes :=
    mem_movedTypes_iff_targets.2 fun none => by simp [none] at several
  simp only [issues, typeIssues, targetNames_eq, List.length_map, List.mem_append,
    List.mem_flatMap]
  constructor
  · rintro (⟨kind, mem, several | unlistened⟩ | terminal)
    · split at several
      · next more =>
        cases List.mem_singleton.1 several
        exact ⟨rfl, rfl, more⟩
      · cases several
    · split at unlistened <;> simp at unlistened
    · split at terminal <;> simp at terminal
  · rintro ⟨rfl, rfl, several⟩
    refine .inl ⟨type, moved several, .inl ?_⟩
    rw [if_pos several]
    exact List.mem_singleton_self _

/-- A transition on an event type that is never listened to is reported. -/
theorem mem_issues_unlistened :
    .unlistenedTransition state type ∈ x.issues ↔
      state = x.name ∧ x.targets type ≠ [] ∧ ∀ source, (source, type) ∉ listened x.directives := by
  rw [← mem_movedTypes_iff_targets]
  have deaf : x.listenedTypes.contains type = false ↔
      ∀ source, (source, type) ∉ listened x.directives := by
    rw [← Bool.not_eq_true, contains_listenedTypes, not_exists]
  rw [← deaf]
  simp only [issues, typeIssues, List.mem_append, List.mem_flatMap]
  constructor
  · rintro (⟨kind, mem, several | unlistened⟩ | terminal)
    · split at several <;> simp at several
    · split at unlistened
      · cases unlistened
      · next unheard =>
        cases List.mem_singleton.1 unlistened
        exact ⟨rfl, mem, Bool.eq_false_iff.2 unheard⟩
    · split at terminal <;> simp at terminal
  · rintro ⟨rfl, mem, unheard⟩
    refine .inl ⟨type, mem, .inr ?_⟩
    rw [if_neg (by rw [unheard]; nofun)]
    exact List.mem_singleton_self _

/-- A terminal state that declares transitions is reported with all of their event types. -/
theorem mem_issues_terminal {types : List String} :
    .terminalWithTransitions state types ∈ x.issues ↔
      state = x.name ∧ types = x.movedTypes ∧ .exit ∈ x.directives ∧ types ≠ [] := by
  rw [← isTerminal_iff]
  simp only [issues, typeIssues, List.mem_append, List.mem_flatMap]
  constructor
  · rintro (⟨kind, mem, several | unlistened⟩ | terminal)
    · split at several <;> simp at several
    · split at unlistened <;> simp at unlistened
    · split at terminal
      · next both =>
        cases List.mem_singleton.1 terminal
        simp only [Bool.and_eq_true, Bool.not_eq_true', List.isEmpty_eq_false_iff] at both
        exact ⟨rfl, rfl, both⟩
      · cases terminal
  · rintro ⟨rfl, rfl, exits, moves⟩
    refine .inr ?_
    rw [if_pos (by simp [exits, moves])]
    exact List.mem_singleton_self _

theorem not_mem_issues_uncollectable {reason : String} :
    .uncollectable state reason ∉ x.issues := by
  simp only [issues, typeIssues, List.mem_append, List.mem_flatMap]
  rintro (⟨kind, mem, several | unlistened⟩ | terminal)
  · split at several <;> simp at several
  · split at unlistened <;> simp at unlistened
  · split at terminal <;> simp at terminal

theorem issues_nodup : x.issues.Nodup := by
  have typed {kind : String} {i : Issue} (mem : i ∈ x.typeIssues kind) : i.type? = some kind := by
    rcases List.mem_append.1 mem with mem | mem <;> split at mem <;>
      simp only [List.mem_singleton, List.not_mem_nil] at mem <;> rw [mem] <;> rfl
  refine List.nodup_append.2 ⟨List.nodup_flatMap.2 ⟨fun kind _ => ?_, ?_⟩, ?_, ?_⟩
  · simp only [typeIssues]
    split <;> split <;> simp
  · -- the issues of one event type are not those of another one
    refine x.firstDeclared.nodup.imp fun other i mem mem' => other ?_
    exact Option.some.inj ((typed mem).symm.trans (typed mem'))
  · split <;> simp
  · rintro i mem j terminal rfl
    obtain ⟨kind, _, mem⟩ := List.mem_flatMap.1 mem
    split at terminal
    · rw [List.mem_singleton.1 terminal] at mem
      cases typed mem
    · cases terminal

end Collected

/-! ## What the checks report -/

/-- The checks of a state and its routing table agree. -/
structure Collected.Foretold (x : Collected (Entry H)) : Prop where
  /-- An event type that is listened to is reported as ambiguous just if some event of it is. -/
  ambiguous {type : String} :
    ((∃ state names, .ambiguousTransition state type names ∈ x.issues) ∧
        ∀ state, .unlistenedTransition state type ∉ x.issues) ↔
      ∃ source chosen names,
        (RouteTable.build x.directives).resolve source type = .ambiguous chosen names
  /-- It is reported with the candidates among which the table chooses. -/
  candidates {state type : String} {names : List String}
    (reported : .ambiguousTransition state type names ∈ x.issues) {source : SourceId}
    {chosen : Definition} {among : List String}
    (resolves : (RouteTable.build x.directives).resolve source type = .ambiguous chosen among) :
    state = x.name ∧ names = among
  /-- Whether it is listened to or not, what is reported are the targets in their order. -/
  several {state type : String} {names : List String} :
    .ambiguousTransition state type names ∈ x.issues ↔
      state = x.name ∧ names = (x.targets type).map Definition.name ∧ 1 < names.length
  /-- A transition is reported as never taken just if the table matches no event of its type. -/
  unlistened {state type : String} :
    .unlistenedTransition state type ∈ x.issues ↔
      state = x.name ∧ (∃ target, .moveTo type target ∈ x.directives) ∧
        ∀ source, (RouteTable.build x.directives).resolve source type = .unmatched
  /-- A terminal state is reported if it declares transitions, with the event types of them all. -/
  terminal {state : String} {types : List String} :
    .terminalWithTransitions state types ∈ x.issues ↔
      state = x.name ∧ .exit ∈ x.directives ∧
        (∃ type target, .moveTo type target ∈ x.directives) ∧
        FirstDeclared (x.moves.map Prod.fst) types
  /-- Nothing is reported twice. -/
  nodup : x.issues.Nodup
  /-- There are no issues of another kind. -/
  collectable {state reason : String} : .uncollectable state reason ∉ x.issues
  /-- A state passes just if it is terminal without transitions, or each of its transitions is what
  some event is matched with. -/
  passes : x.issues = [] ↔
    (.exit ∈ x.directives → ∀ type target, .moveTo type target ∉ x.directives) ∧
      ∀ type target, .moveTo type target ∈ x.directives →
        ∃ source, (RouteTable.build x.directives).resolve source type = .matched target
  /-- No event is ambiguous in a state that passes. -/
  safe (passes : x.issues = []) (source : SourceId) (type : String) (chosen : Definition)
    (names : List String) :
    (RouteTable.build x.directives).resolve source type ≠ .ambiguous chosen names
  /-- A machine in the state that is about to choose among targets records what was reported. -/
  records {p : Program H} {w : World H} {past : List (Config H)} {c : Config H} {m : MachineId}
    {source : SourceId} {e : Event} {cell : MachineCell H} {a : Activation H}
    (run : p.Run w past c) (routes : c.control = .route m source e)
    (found : c.world.machine? m = some cell) (current : cell.current = some a)
    (state : a.collected = x) (going : .exit ∉ x.directives) {chosen : Definition}
    {names : List String}
    (resolves : (RouteTable.build x.directives).resolve source e.kind = .ambiguous chosen names) :
    ∃ issue ∈ x.issues, issue = .ambiguousTransition x.name e.kind names ∧
      p.step c = some (((c.record p (.ambiguous issue)).push (.collecting (.transition m e.kind))).gather
        (p.collect cell.settings.delegationLimit chosen))
  /-- For any other event it records no ambiguity, and for none if it is terminal. -/
  otherwise {p : Program H} {w : World H} {past : List (Config H)} {c c' : Config H} {m : MachineId}
    {source : SourceId} {e : Event} {cell : MachineCell H} {a : Activation H}
    (run : p.Run w past c) (routes : c.control = .route m source e)
    (found : c.world.machine? m = some cell) (current : cell.current = some a)
    (state : a.collected = x) (step : p.step c = some c')
    (plain : .exit ∈ x.directives ∨ ∀ chosen names,
      (RouteTable.build x.directives).resolve source e.kind ≠ .ambiguous chosen names) :
    c'.host = c.host ∨ c'.host = p.subscriber (.terminalIgnored x.name e.kind) c.host ∨
      c'.host = p.subscriber (.unmatched x.name e.kind) c.host

section Foretold

variable (x : Collected (Entry H)) {type : String}

/-- Some event of a type is ambiguous just if the type is listened to and has several targets. -/
theorem Collected.ambiguous_iff :
    (∃ source chosen names,
        (RouteTable.build x.directives).resolve source type = .ambiguous chosen names) ↔
      (∃ source, (source, type) ∈ listened x.directives) ∧ 1 < (x.targets type).length := by
  constructor
  · rintro ⟨source, chosen, names, resolves⟩
    obtain ⟨s, rfl, mem⟩ := RouteTable.listened_of_resolve (by rw [resolves]; nofun)
    rw [RouteTable.resolve_of_mem mem, Resolution.among_eq_ambiguous_iff] at resolves
    exact ⟨⟨s, mem⟩, resolves.2.2⟩
  · rintro ⟨⟨s, mem⟩, several⟩
    obtain ⟨chosen, first⟩ : ∃ chosen, (x.targets type).head? = some chosen :=
      Option.isSome_iff_exists.1 (by rw [List.isSome_head?]; grind)
    refine ⟨s.id, chosen, (x.targets type).map Definition.name, ?_⟩
    rw [RouteTable.resolve_of_mem mem]
    exact Resolution.among_eq_ambiguous_iff.2 ⟨first, rfl, several⟩

/-- No event of a type is matched just if the type is not listened to, or has no target. -/
theorem Collected.unmatched_iff :
    (∀ source, (RouteTable.build x.directives).resolve source type = .unmatched) ↔
      (∀ source, (source, type) ∉ listened x.directives) ∨ x.targets type = [] := by
  constructor
  · intro unmatched
    by_cases mem : ∃ source, (source, type) ∈ listened x.directives
    · obtain ⟨s, mem⟩ := mem
      have none := unmatched s.id
      rw [RouteTable.resolve_of_mem mem, Resolution.among_eq_unmatched_iff] at none
      exact .inr none
    · exact .inl (not_exists.1 mem)
  · intro never source
    by_contra resolves
    obtain ⟨s, rfl, mem⟩ := RouteTable.listened_of_resolve resolves
    rcases never with silent | none
    · exact silent s mem
    · rw [RouteTable.resolve_of_mem mem] at resolves
      exact resolves (Resolution.among_eq_unmatched_iff.2 none)

/-- Some event of a type is matched with a target just if the type is listened to and has no other
one. -/
theorem Collected.matched_iff {target : Definition} :
    (∃ source, (RouteTable.build x.directives).resolve source type = .matched target) ↔
      (∃ source, (source, type) ∈ listened x.directives) ∧ x.targets type = [target] := by
  constructor
  · rintro ⟨source, resolves⟩
    obtain ⟨s, rfl, mem⟩ := RouteTable.listened_of_resolve (by rw [resolves]; nofun)
    rw [RouteTable.resolve_of_mem mem, Resolution.among_eq_matched_iff] at resolves
    exact ⟨⟨s, mem⟩, resolves⟩
  · rintro ⟨⟨s, mem⟩, only⟩
    exact ⟨s.id, (RouteTable.resolve_of_mem mem).trans (Resolution.among_eq_matched_iff.2 only)⟩

theorem Collected.issues_eq_nil_iff :
    x.issues = [] ↔
      (.exit ∈ x.directives → ∀ type target, .moveTo type target ∉ x.directives) ∧
        ∀ type target, .moveTo type target ∈ x.directives →
          ∃ source, (RouteTable.build x.directives).resolve source type = .matched target := by
  constructor
  · intro none
    have silent (i : Issue) : i ∉ x.issues := by simp [none]
    refine ⟨fun exits type target mem => ?_, fun type target mem => x.matched_iff.2 ⟨?_, ?_⟩⟩
    · exact silent _ (mem_issues_terminal.2
        ⟨rfl, rfl, exits, List.ne_nil_of_mem (mem_movedTypes.2 ⟨target, mem⟩)⟩)
    · by_contra unheard
      exact silent _ (mem_issues_unlistened.2
        ⟨rfl, List.ne_nil_of_mem (mem_targets.2 mem), not_exists.1 unheard⟩)
    · -- there is one target, and no second one
      have one : ¬1 < (x.targets type).length := fun several =>
        silent _ (mem_issues_ambiguous.2 ⟨rfl, rfl, several⟩)
      have inside := mem_targets.2 mem
      rcases targets : x.targets type with _ | ⟨only, _ | _⟩
      · rw [targets] at inside
        cases inside
      · rw [targets, List.mem_singleton] at inside
        rw [inside]
      · rw [targets] at one
        simp at one
  · rintro ⟨exits, matched⟩
    refine List.eq_nil_iff_forall_not_mem.2 fun i mem => ?_
    have one {type : String} (some : x.targets type ≠ []) :
        (∃ source, (source, type) ∈ listened x.directives) ∧ ∃ target, x.targets type = [target] := by
      obtain ⟨target, inside⟩ := List.exists_mem_of_ne_nil _ some
      obtain ⟨heard, only⟩ := x.matched_iff.1 (matched type target (mem_targets.1 inside))
      exact ⟨heard, target, only⟩
    cases i with
    | ambiguousTransition state type names =>
      obtain ⟨_, _, several⟩ := mem_issues_ambiguous.1 mem
      obtain ⟨_, target, only⟩ := one (List.ne_nil_of_length_pos (Nat.lt_of_succ_lt several))
      simp [only] at several
    | unlistenedTransition state type =>
      obtain ⟨_, some, unheard⟩ := mem_issues_unlistened.1 mem
      obtain ⟨⟨source, heard⟩, _⟩ := one some
      exact unheard source heard
    | terminalWithTransitions state types =>
      obtain ⟨_, rfl, exit, some⟩ := mem_issues_terminal.1 mem
      obtain ⟨type, inside⟩ := List.exists_mem_of_ne_nil _ some
      obtain ⟨target, move⟩ := mem_movedTypes.1 inside
      exact exits exit type target move
    | uncollectable => exact not_mem_issues_uncollectable mem

variable {w : World H} {past : List (Config H)} {c : Config H} {source : SourceId} {e : Event}
  {cell : MachineCell H} {a : Activation H}

/-- An event is routed by the directives of the activation that is in place. -/
theorem Program.Run.step_route (run : p.Run w past c) (routes : c.control = .route m source e)
    (found : c.world.machine? m = some cell) (current : cell.current = some a) :
    p.step c = some (
      if a.collected.isTerminal then
        (c.record p (.terminalIgnored a.collected.name e.kind)).deliver (.ok .ignored)
      else
        let collect (target : Definition) (c : Config H) : Config H :=
          (c.push (.collecting (.transition m e.kind))).gather
            (p.collect cell.settings.delegationLimit target)
        match (RouteTable.build a.collected.directives).resolve source e.kind with
        | .unmatched => (c.record p (.unmatched a.collected.name e.kind)).deliver (.ok .ignored)
        | .matched target => collect target c
        | .ambiguous target names =>
          collect target
            (c.record p (.ambiguous (.ambiguousTransition a.collected.name e.kind names)))) := by
  have portrait := run.portrait found
  have depicts := portrait.depicts (portrait.current current)
  have running : cell.status = .running :=
    (((run.poised m).posture found).current (by rw [current]; rfl)).1
  have terminal : cell.terminal = a.collected.isTerminal := by
    rw [Bool.eq_iff_iff, depicts.terminal, Collected.isTerminal_iff]
  obtain ⟨world, host, control, stack⟩ := c
  subst routes
  have built := run.routes_eq found current
  refine congrArg some ?_
  rw [Config.performRoute, found]
  dsimp only
  rw [if_neg (by rw [running]; simp), current]
  dsimp only
  rewrite [terminal, depicts.state, built]
  rfl

/-- The checks of a state foretell what its routing table does with every event, and what a machine
that is in the state records of it. -/
theorem Collected.foretold : x.Foretold := by
  have unlistened {state type : String} :
      .unlistenedTransition state type ∈ x.issues ↔
        state = x.name ∧ (∃ target, .moveTo type target ∈ x.directives) ∧
          ∀ source, (RouteTable.build x.directives).resolve source type = .unmatched := by
    rw [mem_issues_unlistened, unmatched_iff, ← mem_movedTypes, mem_movedTypes_iff_targets]
    refine and_congr_right fun _ => and_congr_right fun some => ?_
    rw [or_iff_left some]
  constructor
  case ambiguous =>
    intro type
    rw [ambiguous_iff]
    constructor
    · rintro ⟨⟨state, names, reported⟩, heard⟩
      obtain ⟨_, _, several⟩ := mem_issues_ambiguous.1 reported
      refine ⟨?_, several⟩
      by_contra silent
      exact heard _ (mem_issues_unlistened.2 ⟨rfl,
        List.ne_nil_of_length_pos (Nat.lt_of_succ_lt several), not_exists.1 silent⟩)
    · rintro ⟨⟨source, heard⟩, several⟩
      exact ⟨⟨_, _, mem_issues_ambiguous.2 ⟨rfl, rfl, several⟩⟩, fun state reported =>
        (mem_issues_unlistened.1 reported).2.2 source heard⟩
  case candidates =>
    intro state type names reported source chosen among resolves
    obtain ⟨rfl, rfl, _⟩ := mem_issues_ambiguous.1 reported
    obtain ⟨s, rfl, mem⟩ := RouteTable.listened_of_resolve (by rw [resolves]; nofun)
    rw [RouteTable.resolve_of_mem mem, Resolution.among_eq_ambiguous_iff] at resolves
    exact ⟨rfl, resolves.2.1.symm⟩
  case several =>
    intro state type names
    rw [mem_issues_ambiguous]
    refine and_congr_right fun _ => and_congr_right fun same => ?_
    rw [same, List.length_map]
  case unlistened => exact unlistened
  case terminal =>
    intro state types
    rw [mem_issues_terminal]
    have first := x.firstDeclared
    constructor
    · rintro ⟨rfl, rfl, exits, some⟩
      obtain ⟨type, inside⟩ := List.exists_mem_of_ne_nil _ some
      exact ⟨rfl, exits, ⟨type, mem_movedTypes.1 inside⟩, first⟩
    · rintro ⟨rfl, exits, ⟨type, move⟩, order⟩
      refine ⟨rfl, order.unique first, exits, ?_⟩
      rw [order.unique first]
      exact List.ne_nil_of_mem (mem_movedTypes.2 move)
  case nodup => exact x.issues_nodup
  case collectable => exact not_mem_issues_uncollectable
  case passes => exact x.issues_eq_nil_iff
  case safe =>
    intro passes source type chosen names resolves
    obtain ⟨_, several⟩ := x.ambiguous_iff.1 ⟨source, chosen, names, resolves⟩
    have reported := mem_issues_ambiguous.2 ⟨rfl, rfl, several⟩
    rw [passes] at reported
    cases reported
  case records =>
    intro p w past c m source e cell a run routes found current state going chosen names resolves
    subst state
    obtain ⟨s, rfl, mem⟩ := RouteTable.listened_of_resolve (by rw [resolves]; nofun)
    have candidates := resolves
    rw [RouteTable.resolve_of_mem mem, Resolution.among_eq_ambiguous_iff] at candidates
    refine ⟨_, mem_issues_ambiguous.2 ⟨rfl, candidates.2.1, candidates.2.2⟩, rfl, ?_⟩
    rw [run.step_route routes found current, if_neg (mt isTerminal_iff.1 going), resolves]
  case otherwise =>
    intro p w past c c' m source e cell a run routes found current state step plain
    subst state
    rw [run.step_route routes found current, Option.some.injEq] at step
    subst step
    split
    · exact .inr (.inl rfl)
    · next going =>
      split
      · exact .inr (.inr rfl)
      · exact .inl rfl
      · next chosen names resolves =>
        exact absurd resolves (plain.resolve_left (mt isTerminal_iff.2 going) chosen names)

end Foretold

end ScopedMachine

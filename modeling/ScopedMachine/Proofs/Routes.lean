import Mathlib.Data.List.Nodup
import ScopedMachine.RouteTable

/-!
# Routing tables list what is listened to

The table of some directives is built route by route. `Tabulates` is what holds of the routes at
every point of the construction: each event type on a source that was listened to so far has one
route, and there are no others.
-/

namespace ScopedMachine

/-- What tells the routes of a table apart: the source by its identity, and the event type. -/
def Route.key (r : Route) : SourceId × String := (r.source.id, r.type)

theorem Route.isFor_iff {source : SourceId} {type : String} {r : Route} :
    r.isFor source type ↔ r.key = (source, type) := by
  simp [Route.isFor, Route.key]

/-- The event types that some directives listen to, each with its source. -/
def listened {E : Type} (directives : List (Directive E)) : List (Source × String) :=
  (directives.filterMap Directive.listened?).flatMap fun l => l.2.toList.map fun type => (l.1, type)

theorem mem_listened {E : Type} {directives : List (Directive E)} {source : Source}
    {type : String} : (source, type) ∈ listened directives ↔
      ∃ types, .listenTo source types ∈ directives ∧ type ∈ types.toList := by
  constructor
  · intro h
    obtain ⟨⟨s, types⟩, hl, ht⟩ := List.mem_flatMap.1 h
    obtain ⟨d, hd, listens⟩ := List.mem_filterMap.1 hl
    obtain ⟨t, mem, same⟩ := List.mem_map.1 ht
    cases same
    cases d with
    | listenTo s' types' =>
      cases listens
      exact ⟨types, hd, mem⟩
    | _ => cases listens
  · rintro ⟨types, hd, mem⟩
    refine List.mem_flatMap.2 ⟨(source, types), List.mem_filterMap.2 ⟨_, hd, rfl⟩, ?_⟩
    exact List.mem_map_of_mem mem

/-- Some routes are those of the given event types on their sources. -/
structure Tabulates (xs : List (Source × String)) (routes : List Route) : Prop where
  nodup : (routes.map Route.key).Nodup
  covers {x : Source × String} (mem : x ∈ xs) : (x.1.id, x.2) ∈ routes.map Route.key
  only {r : Route} (mem : r ∈ routes) : (r.source, r.type) ∈ xs

namespace RouteTable

variable {xs ys : List (Source × String)} {routes : List Route} {moves : List (String × Definition)}

theorem tabulates_add {source : Source} {type : String} (before : Tabulates xs routes) :
    Tabulates (xs ++ [(source, type)]) (add moves source routes type) := by
  unfold add
  split
  · next present =>
    obtain ⟨r, mem, isFor⟩ := List.any_eq_true.1 present
    refine ⟨before.nodup, fun h => ?_, fun h => List.mem_append_left _ (before.only h)⟩
    rcases List.mem_append.1 h with old | added
    · exact before.covers old
    · rw [List.mem_singleton.1 added, ← Route.isFor_iff.1 isFor]
      exact List.mem_map_of_mem mem
  · next absent =>
    have new : (source.id, type) ∉ routes.map Route.key := by
      intro h
      obtain ⟨r, mem, key⟩ := List.mem_map.1 h
      exact absent (List.any_eq_true.2 ⟨r, mem, Route.isFor_iff.2 key⟩)
    rw [Bool.not_eq_true] at absent
    refine ⟨?_, fun h => ?_, fun h => ?_⟩
    · rw [List.map_append, List.map_singleton]
      refine List.nodup_append.2 ⟨before.nodup, List.nodup_singleton _, ?_⟩
      rintro k hk _ hk' rfl
      rw [List.mem_singleton.1 hk'] at hk
      exact new hk
    · rw [List.map_append]
      rcases List.mem_append.1 h with old | added
      · exact List.mem_append_left _ (before.covers old)
      · rw [List.mem_singleton.1 added]
        exact List.mem_append_right _ (List.mem_singleton_self _)
    · rcases List.mem_append.1 h with old | added
      · exact List.mem_append_left _ (before.only old)
      · rw [List.mem_singleton.1 added]
        exact List.mem_append_right _ (List.mem_singleton_self _)

theorem tabulates_foldl (before : Tabulates xs routes) :
    Tabulates (xs ++ ys) (ys.foldl (fun routes x => add moves x.1 routes x.2) routes) := by
  induction ys generalizing xs routes with
  | nil => rwa [List.append_nil]
  | cons y ys ih =>
    rw [List.append_cons, List.foldl_cons]
    exact ih (tabulates_add before)

theorem routes_build {E : Type} (directives : List (Directive E)) :
    (build directives).routes = (listened directives).foldl
      (fun routes x => add (directives.filterMap Directive.move?) x.1 routes x.2) [] := by
  rw [listened, List.foldl_flatMap]
  simp only [List.foldl_map]
  rfl

/-- A table has one route for each event type that is listened to on a source. -/
theorem tabulates_build {E : Type} (directives : List (Directive E)) :
    Tabulates (listened directives) (build directives).routes := by
  have start : Tabulates [] [] := ⟨.nil, fun h => absurd h List.not_mem_nil, fun h => nomatch h⟩
  rw [routes_build, ← List.nil_append (listened directives)]
  exact tabulates_foldl start

/-- The targets that are declared for an event type, in the order of their declaration. -/
def targets (moves : List (String × Definition)) (type : String) : List Definition :=
  (moves.filter (·.1 == type)).map (·.2)

theorem targets_add {source : Source} {type : String}
    (before : ∀ r ∈ routes, r.targets = targets moves r.type) :
    ∀ r ∈ add moves source routes type, r.targets = targets moves r.type := by
  unfold add
  split
  · exact before
  · intro r mem
    rcases List.mem_append.1 mem with old | new
    · exact before r old
    · rw [List.mem_singleton.1 new]
      rfl

/-- A route has the targets that are declared for its event type. -/
theorem targets_of_mem_build {E : Type} {directives : List (Directive E)} {r : Route}
    (mem : r ∈ (build directives).routes) :
    r.targets = targets (directives.filterMap Directive.move?) r.type := by
  rw [routes_build] at mem
  let P (routes : List Route) : Prop :=
    ∀ r ∈ routes, r.targets = targets (directives.filterMap Directive.move?) r.type
  have start : P [] := fun _ none => absurd none List.not_mem_nil
  exact List.foldlRecOn (motive := P) (listened directives) _ start
    (fun _ before _ _ => targets_add before) r mem

end RouteTable

/-! ## How events resolve -/

/-- How an event resolves that has these targets. -/
def Resolution.among : List Definition → Resolution
  | [] => .unmatched
  | [only] => .matched only
  | first :: second :: rest =>
    .ambiguous first ((first :: second :: rest).map Definition.name)

namespace Resolution

variable {targets : List Definition}

theorem among_eq_unmatched_iff : among targets = .unmatched ↔ targets = [] := by
  rcases targets with _ | ⟨_, _ | _⟩ <;> simp [among]

theorem among_eq_matched_iff {target : Definition} :
    among targets = .matched target ↔ targets = [target] := by
  rcases targets with _ | ⟨_, _ | _⟩ <;> simp [among]

theorem among_eq_ambiguous_iff {chosen : Definition} {names : List String} :
    among targets = .ambiguous chosen names ↔
      targets.head? = some chosen ∧ names = targets.map Definition.name ∧ 1 < targets.length := by
  rcases targets with _ | ⟨_, _ | _⟩ <;> simp [among, eq_comm]

end Resolution

namespace RouteTable

variable {E : Type} {x : Collected E} {source : SourceId} {type : String}

/-- An event that is listened to has the targets that are declared for its type. -/
theorem resolve_of_mem {s : Source} (mem : (s, type) ∈ listened x.directives) :
    (build x.directives).resolve s.id type = .among (targets x.moves type) := by
  obtain ⟨r, inside, key⟩ := List.mem_map.1 ((tabulates_build x.directives).covers mem)
  cases found : (build x.directives).routes.find? (Route.isFor s.id type) with
  | none => exact absurd (Route.isFor_iff.2 key) (List.find?_eq_none.1 found r inside)
  | some q =>
    have own := targets_of_mem_build (List.mem_of_find?_eq_some found)
    obtain ⟨_, rfl⟩ := Prod.mk.inj (Route.isFor_iff.1 (List.find?_some found))
    rw [resolve, found, Collected.moves, ← own]
    rcases targets : q.targets with _ | ⟨_, _ | _⟩ <;> simp [targets, Resolution.among]

/-- An event that is not listened to has none. -/
theorem resolve_of_silent (silent : ∀ s : Source, s.id = source → (s, type) ∉ listened x.directives) :
    (build x.directives).resolve source type = .unmatched := by
  cases found : (build x.directives).routes.find? (Route.isFor source type) with
  | none => rw [resolve, found]
  | some r =>
    obtain ⟨id, rfl⟩ := Prod.mk.inj (Route.isFor_iff.1 (List.find?_some found))
    have mem := (tabulates_build x.directives).only (List.mem_of_find?_eq_some found)
    exact absurd mem (silent r.source id)

/-- An event that resolves to something is listened to. -/
theorem listened_of_resolve (resolves : (build x.directives).resolve source type ≠ .unmatched) :
    ∃ s : Source, s.id = source ∧ (s, type) ∈ listened x.directives := by
  by_contra silent
  exact resolves (resolve_of_silent fun s id mem => silent ⟨s, id, mem⟩)

end RouteTable

end ScopedMachine

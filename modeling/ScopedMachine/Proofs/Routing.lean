import Mathlib.Data.List.Induction
import ScopedMachine.Proofs.ByteOrder
import ScopedMachine.Proofs.Routes

/-!
# What a routing table means

The table of some directives is built in two nested loops that read the part of it that is there
already. What it means is said of the directives alone: an event resolves to the targets that are
declared for its type if the type is listened to on its source, and the routes stand in the order in
which they are declared first.

`Laid` is what holds of the routes when the directives were read up to some point. A listening
directive adds the routes of those of its types that are new on its source, behind all others, so a
route that is there never moves.
-/

namespace ScopedMachine

variable {E : Type} {directives : List (Directive E)} {source : SourceId} {type : String}

/-! ## The meaning of the directives -/

namespace Directive

/-- Whether a directive listens to the events of a type from a source. -/
def listensTo (source : SourceId) (type : String) : Directive E → Bool
  | .listenTo s types => s.id == source && types.contains type
  | _ => false

/-- The target that a directive declares for an event type. -/
def target? (type : String) : Directive E → Option Definition
  | .moveTo kind target => if kind = type then some target else none
  | _ => none

theorem listensTo_iff {d : Directive E} :
    d.listensTo source type ↔
      ∃ s types, d = .listenTo s types ∧ s.id = source ∧ type ∈ types.toList := by
  cases d <;> simp [listensTo, TypeSet.contains]

end Directive

/-- Some directives listen to the events of a type from a source. -/
def ListenFor (directives : List (Directive E)) (source : SourceId) (type : String) : Prop :=
  ∃ s types, .listenTo s types ∈ directives ∧ s.id = source ∧ type ∈ types.toList

/-- The targets that some directives declare for an event type, in the order of the declarations. A
transition that is declared again counts again. -/
def targetsOn (directives : List (Directive E)) (type : String) : List Definition :=
  directives.filterMap (Directive.target? type)

/-- The place of the first directive that listens to the event type of a key on its source. -/
def heardAt (directives : List (Directive E)) (key : SourceId × String) : Nat :=
  directives.findIdx (Directive.listensTo key.1 key.2)

/-- One route is declared before another: by an earlier directive, or by the same one for an event
type that comes first in the order of bytes. -/
def Route.Precedes (directives : List (Directive E)) (r r' : Route) : Prop :=
  heardAt directives r.key < heardAt directives r'.key ∨
    heardAt directives r.key = heardAt directives r'.key ∧ bytes r.type < bytes r'.type

/-- A table means what the directives declare. -/
structure RouteTable.Means (directives : List (Directive E)) (table : RouteTable) : Prop where
  /-- An event resolves to nothing if nobody listens for it or nothing moves on it. -/
  unmatched (source : SourceId) (type : String) : table.resolve source type = .unmatched ↔
    ¬ListenFor directives source type ∨ ∀ target, .moveTo type target ∉ directives
  /-- It resolves to the one target that is declared for its type. -/
  matched (source : SourceId) (type : String) (target : Definition) :
    table.resolve source type = .matched target ↔
      ListenFor directives source type ∧ targetsOn directives type = [target]
  /-- Of several targets the first is chosen, and all are named. -/
  ambiguous (source : SourceId) (type : String) (chosen : Definition) (candidates : List String) :
    table.resolve source type = .ambiguous chosen candidates ↔
      ListenFor directives source type ∧ 1 < (targetsOn directives type).length ∧
        (targetsOn directives type).head? = some chosen ∧
          candidates = (targetsOn directives type).map Definition.name
  /-- No two routes are for the same events. -/
  distinct : (table.routes.map Route.key).Nodup
  /-- There are routes for what is listened to, and for nothing else. -/
  covers (source : SourceId) (type : String) :
    (source, type) ∈ table.routes.map Route.key ↔ ListenFor directives source type
  /-- The routes are in the order of their first declarations. -/
  ordered : table.routes.Pairwise (Route.Precedes directives)
  /-- A route has the source of the directive that declared it first. -/
  first {r : Route} (mem : r ∈ table.routes) :
    ∃ types, directives[heardAt directives r.key]? = some (.listenTo r.source types)
  /-- A route has all targets of its event type. -/
  aimed {r : Route} (mem : r ∈ table.routes) : r.targets = targetsOn directives r.type
  /-- Where and how often something is listened to does not matter, nor where it is moved on, as long
  as the targets of an event type are declared in the same order. -/
  alike {directives' : List (Directive E)} (source : SourceId) (type : String)
    (listening : ∀ s types, .listenTo s types ∈ directives ↔ .listenTo s types ∈ directives')
    (targets : targetsOn directives type = targetsOn directives' type) :
    table.resolve source type = (RouteTable.build directives').resolve source type

/-! ## What is listened to and what is moved on -/

theorem listenFor_iff_listened :
    ListenFor directives source type ↔ ∃ s : Source, s.id = source ∧ (s, type) ∈ listened directives := by
  constructor
  · rintro ⟨s, types, mem, id, inside⟩
    exact ⟨s, id, mem_listened.2 ⟨types, mem, inside⟩⟩
  · rintro ⟨s, id, mem⟩
    obtain ⟨types, mem, inside⟩ := mem_listened.1 mem
    exact ⟨s, types, mem, id, inside⟩

theorem listenFor_iff_listensTo :
    ListenFor directives source type ↔ ∃ d ∈ directives, d.listensTo source type := by
  constructor
  · rintro ⟨s, types, mem, heard⟩
    exact ⟨_, mem, Directive.listensTo_iff.2 ⟨s, types, rfl, heard⟩⟩
  · rintro ⟨d, mem, listens⟩
    obtain ⟨s, types, rfl, heard⟩ := Directive.listensTo_iff.1 listens
    exact ⟨s, types, mem, heard⟩

theorem targetsOn_eq :
    targetsOn directives type = RouteTable.targets (directives.filterMap Directive.move?) type := by
  unfold targetsOn RouteTable.targets
  rw [← List.filterMap_eq_filter, List.filterMap_filterMap, List.map_filterMap]
  congr 1
  funext d
  cases d with
  | moveTo kind target =>
    by_cases same : kind = type <;> simp [Directive.target?, Directive.move?, Option.guard, same]
  | _ => rfl

theorem mem_targetsOn {target : Definition} :
    target ∈ targetsOn directives type ↔ .moveTo type target ∈ directives := by
  unfold targetsOn
  rw [List.mem_filterMap]
  constructor
  · rintro ⟨d, mem, declares⟩
    cases d with
    | moveTo kind aim =>
      by_cases same : kind = type
      · simp only [Directive.target?, if_pos same, Option.some.injEq] at declares
        rwa [← same, ← declares]
      · simp [Directive.target?, same] at declares
    | _ => cases declares
  · exact fun mem => ⟨_, mem, by simp [Directive.target?]⟩

/-! ## The order of first declaration -/

section Place

variable {key : SourceId × String} {d : Directive E}

theorem heardAt_append_of_hears (hears : ListenFor directives key.1 key.2) :
    heardAt (directives ++ [d]) key = heardAt directives key := by
  obtain ⟨d', mem, listens⟩ := listenFor_iff_listensTo.1 hears
  unfold heardAt
  rw [List.findIdx_append, if_pos (List.findIdx_lt_length_of_exists ⟨d', mem, listens⟩)]

theorem heardAt_append_of_not_hears (new : ¬ListenFor directives key.1 key.2)
    (listens : d.listensTo key.1 key.2) : heardAt (directives ++ [d]) key = directives.length := by
  have unheard : ∀ d' ∈ directives, ¬d'.listensTo key.1 key.2 := fun d' mem listens =>
    new (listenFor_iff_listensTo.2 ⟨d', mem, listens⟩)
  unfold heardAt
  rw [List.findIdx_append, List.findIdx_eq_length_of_false (by simpa using unheard),
    if_neg (Nat.lt_irrefl _), List.findIdx_cons, listens]
  simp

theorem heardAt_lt (hears : ListenFor directives key.1 key.2) :
    heardAt directives key < directives.length := by
  obtain ⟨d, mem, listens⟩ := listenFor_iff_listensTo.1 hears
  exact List.findIdx_lt_length_of_exists ⟨d, mem, listens⟩

end Place

namespace RouteTable

variable {moves : List (String × Definition)} {routes : List Route} {d : Directive E}

theorem add_eq {s : Source} : add moves s routes type =
    if routes.any (Route.isFor s.id type) then routes
    else routes ++ [⟨s, type, targets moves type⟩] := rfl

/-- The routes of the event types that are new on a source are added behind the others. -/
theorem foldl_add {s : Source} {types : List String} (nodup : types.Nodup) :
    types.foldl (add moves s) routes = routes ++
      (types.filter fun type => !routes.any (Route.isFor s.id type)).map fun type =>
        ⟨s, type, targets moves type⟩ := by
  induction types generalizing routes with
  | nil => simp
  | cons type types ih =>
    obtain ⟨others, nodup⟩ := List.nodup_cons.1 nodup
    rw [List.foldl_cons, ih nodup, add_eq]
    by_cases present : routes.any (Route.isFor s.id type)
    · rw [if_pos present, List.filter_cons_of_neg (by simp [present])]
    · have same : (types.filter fun t =>
            !(routes ++ [(⟨s, type, targets moves type⟩ : Route)]).any (Route.isFor s.id t)) =
          types.filter fun t => !routes.any (Route.isFor s.id t) := by
        refine List.filter_congr fun t mem => ?_
        have other : type ≠ t := fun same => others (same ▸ mem)
        simp [Route.isFor, other]
      rw [if_neg present, same, List.filter_cons_of_pos (by simp [present]), List.map_cons,
        List.append_assoc, List.singleton_append]

/-- The routes of the directives read so far. -/
def tabulate (moves : List (String × Definition)) (directives : List (Directive E)) : List Route :=
  (directives.filterMap Directive.listened?).foldl
    (fun routes l => l.2.toList.foldl (add moves l.1) routes) []

/-- Some routes stand in the order of their first declarations. -/
structure Laid (directives : List (Directive E)) (routes : List Route) : Prop where
  covers {source : SourceId} {type : String} :
    ListenFor directives source type → (source, type) ∈ routes.map Route.key
  first {r : Route} : r ∈ routes → ∃ types, r.type ∈ types.toList ∧
    directives[heardAt directives r.key]? = some (.listenTo r.source types)
  ordered : routes.Pairwise (Route.Precedes directives)

namespace Laid

theorem hears {r : Route} (laid : Laid directives routes) (mem : r ∈ routes) :
    ListenFor directives r.key.1 r.key.2 := by
  obtain ⟨types, inside, first⟩ := laid.first mem
  exact ⟨r.source, types, List.mem_of_getElem? first, rfl, inside⟩

/-- A route keeps its place when another directive is read. -/
theorem heardAt_eq {r : Route} (laid : Laid directives routes) (mem : r ∈ routes) :
    heardAt (directives ++ [d]) r.key = heardAt directives r.key :=
  heardAt_append_of_hears (laid.hears mem)

theorem first_concat {r : Route} (laid : Laid directives routes) (mem : r ∈ routes) :
    ∃ types, r.type ∈ types.toList ∧
      (directives ++ [d])[heardAt (directives ++ [d]) r.key]? = some (.listenTo r.source types) := by
  obtain ⟨types, inside, first⟩ := laid.first mem
  refine ⟨types, inside, ?_⟩
  rw [laid.heardAt_eq mem, List.getElem?_append_left (heardAt_lt (laid.hears mem)), first]

theorem ordered_concat (laid : Laid directives routes) :
    routes.Pairwise (Route.Precedes (directives ++ [d])) := by
  refine laid.ordered.imp_of_mem fun mem mem' precedes => ?_
  rwa [Route.Precedes, laid.heardAt_eq mem, laid.heardAt_eq mem']

/-- A directive that does not listen adds no route. -/
theorem concat_of_not_listens (laid : Laid directives routes) (deaf : d.listened? = none) :
    Laid (directives ++ [d]) routes where
  covers hears := by
    obtain ⟨s, types, mem, id, inside⟩ := hears
    rcases List.mem_append.1 mem with old | new
    · exact laid.covers ⟨s, types, old, id, inside⟩
    · rw [← List.mem_singleton.1 new] at deaf
      cases deaf
  first := laid.first_concat
  ordered := laid.ordered_concat

/-- A directive that listens adds the routes that are new, and they stand last. -/
theorem concat_listenTo {s : Source} {types : TypeSet} (laid : Laid directives routes) :
    Laid (directives ++ [.listenTo s types]) (types.toList.foldl (add moves s) routes) := by
  have nodup : types.toList.Nodup := types.sorted.imp fun less => String.ne_of_lt less
  have new {type : String} (mem : type ∈ types.toList.filter fun type =>
      !routes.any (Route.isFor s.id type)) : type ∈ types.toList ∧
        heardAt (directives ++ [.listenTo s types]) (s.id, type) = directives.length := by
    obtain ⟨inside, absent⟩ := List.mem_filter.1 mem
    refine ⟨inside, heardAt_append_of_not_hears (fun hears => ?_)
      (Directive.listensTo_iff.2 ⟨s, types, rfl, rfl, inside⟩)⟩
    obtain ⟨r, mem, key⟩ := List.mem_map.1 (laid.covers hears)
    rw [List.any_eq_true.2 ⟨r, mem, Route.isFor_iff.2 key⟩] at absent
    cases absent
  rw [foldl_add nodup]
  refine ⟨fun {source type} hears => ?_, fun mem => ?_, ?_⟩
  · rw [List.map_append]
    refine List.mem_append.2 ?_
    by_cases old : (source, type) ∈ routes.map Route.key
    · exact .inl old
    · refine .inr ?_
      obtain ⟨s', types', mem, rfl, inside⟩ := hears
      rcases List.mem_append.1 mem with before | here
      · exact absurd (laid.covers ⟨s', types', before, rfl, inside⟩) old
      · cases List.mem_singleton.1 here
        refine List.mem_map.2 ⟨_, List.mem_map.2 ⟨type, List.mem_filter.2 ⟨inside, ?_⟩, rfl⟩, rfl⟩
        rw [Bool.not_eq_true', ← Bool.not_eq_true, List.any_eq_true]
        exact fun ⟨r, mem, isFor⟩ => old (List.mem_map.2 ⟨r, mem, Route.isFor_iff.1 isFor⟩)
  · rcases List.mem_append.1 mem with old | added
    · exact laid.first_concat old
    · obtain ⟨type, mem', rfl⟩ := List.mem_map.1 added
      obtain ⟨inside, place⟩ := new mem'
      exact ⟨types, inside, by rw [Route.key, place]; simp⟩
  · refine List.pairwise_append.2 ⟨laid.ordered_concat, ?_, fun r mem r' added => ?_⟩
    · refine List.pairwise_map.2 ?_
      refine (types.sorted.sublist List.filter_sublist).imp_of_mem fun mem mem' less => ?_
      exact .inr ⟨(new mem).2.trans (new mem').2.symm, bytes_lt less⟩
    · obtain ⟨type, mem', rfl⟩ := List.mem_map.1 added
      have last := (new mem').2
      refine .inl ?_
      rw [laid.heardAt_eq mem]
      exact last ▸ heardAt_lt (laid.hears mem)

end Laid

theorem laid_tabulate : Laid directives (tabulate moves directives) := by
  induction directives using List.reverseRecOn with
  | nil =>
    exact ⟨fun ⟨_, _, mem, _⟩ => absurd mem List.not_mem_nil,
      fun mem => absurd mem List.not_mem_nil, .nil⟩
  | append_singleton ds d ih =>
    rw [tabulate, List.filterMap_append, List.foldl_append]
    cases d with
    | listenTo s types => exact ih.concat_listenTo
    | _ => exact ih.concat_of_not_listens rfl

theorem laid_build : Laid directives (build directives).routes := laid_tabulate

/-! ## How the events resolve -/

theorem resolve_of_hears (hears : ListenFor directives source type) :
    (build directives).resolve source type = .among (targetsOn directives type) := by
  obtain ⟨s, rfl, mem⟩ := listenFor_iff_listened.1 hears
  rw [targetsOn_eq]
  exact resolve_of_mem (x := ⟨"", [], directives⟩) mem

theorem resolve_of_not_hears (deaf : ¬ListenFor directives source type) :
    (build directives).resolve source type = .unmatched :=
  resolve_of_silent (x := ⟨"", [], directives⟩) fun s id mem =>
    deaf (listenFor_iff_listened.2 ⟨s, id, mem⟩)

/-- What is listened to and which targets are declared for its type decides how an event
resolves. -/
theorem resolve_congr {directives' : List (Directive E)}
    (listening : ListenFor directives source type ↔ ListenFor directives' source type)
    (targets : targetsOn directives type = targetsOn directives' type) :
    (build directives).resolve source type = (build directives').resolve source type := by
  by_cases hears : ListenFor directives source type
  · rw [resolve_of_hears hears, resolve_of_hears (listening.1 hears), targets]
  · rw [resolve_of_not_hears hears, resolve_of_not_hears (mt listening.2 hears)]

theorem targetsOn_eq_nil_iff :
    targetsOn directives type = [] ↔ ∀ target, .moveTo type target ∉ directives := by
  simp only [List.eq_nil_iff_forall_not_mem, mem_targetsOn]

/-- The table that is built of some directives means what they declare. -/
theorem means_build (directives : List (Directive E)) : Means directives (build directives) where
  unmatched source type := by
    by_cases hears : ListenFor directives source type
    · rw [resolve_of_hears hears, Resolution.among_eq_unmatched_iff, targetsOn_eq_nil_iff]
      simp [hears]
    · simp [resolve_of_not_hears hears, hears]
  matched source type target := by
    by_cases hears : ListenFor directives source type
    · rw [resolve_of_hears hears, Resolution.among_eq_matched_iff]
      simp [hears]
    · simp [resolve_of_not_hears hears, hears]
  ambiguous source type chosen candidates := by
    by_cases hears : ListenFor directives source type
    · rw [resolve_of_hears hears, Resolution.among_eq_ambiguous_iff]
      tauto
    · simp [resolve_of_not_hears hears, hears]
  distinct := (tabulates_build directives).nodup
  covers source type := by
    refine ⟨fun mem => ?_, laid_build.covers⟩
    obtain ⟨r, inside, key⟩ := List.mem_map.1 mem
    obtain ⟨rfl, rfl⟩ := Prod.mk.inj key
    exact laid_build.hears inside
  ordered := laid_build.ordered
  first mem := by
    obtain ⟨types, _, first⟩ := laid_build.first mem
    exact ⟨types, first⟩
  aimed mem := by
    rw [targetsOn_eq]
    exact targets_of_mem_build mem
  alike source type listening targets := by
    refine resolve_congr ?_ targets
    simp only [ListenFor, listening]

/-- It matters how often the same target is declared: once it is taken, twice it is ambiguous. -/
theorem ambiguous_of_repeated : ¬∀ (directives : List (Directive Unit)) (type : String)
    (target : Definition), .moveTo type target ∈ directives → ∀ source kind,
      (build (directives ++ [.moveTo type target])).resolve source kind =
        (build directives).resolve source kind := by
  intro claim
  have same := claim [.listenTo ⟨0, ⟨.ofNat 0⟩, "switch"⟩ { toList := ["toggle"] },
    .moveTo "toggle" (.shared "on" "On")] "toggle" (.shared "on" "On") (by simp) ⟨.ofNat 0⟩ "toggle"
  exact absurd same (by decide)

end RouteTable

end ScopedMachine

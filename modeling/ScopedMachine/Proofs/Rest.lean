import ScopedMachine.Proofs.Bodies
import ScopedMachine.Proofs.Teardowns

/-!
# Worlds at rest

When nothing is under way, a scope that a machine made and did not release is that of its current
activation, and so is the token of every listener of the machine, unless it was left over by a panic.
-/

namespace ScopedMachine

variable {H : Type} {p : Program H} {m : MachineId}

/-- A machine runs and somebody holds a handle on it. -/
def World.Runs (m : MachineId) (w : World H) : Prop :=
  ∃ cell, w.machine? m = some cell ∧ cell.status = .running ∧ cell.isAlive

/-- A listener on a source is in the book of the source. -/
theorem World.exists_book_of_entry {w : World H} {slot : Nat} {r : Registration (Listener H)}
    (mem : r ∈ w.entries slot) : ∃ b, w.book? (.source slot) = some b ∧ r.line ∈ b.entries := by
  rw [World.entries] at mem
  cases found : w.source? slot with
  | none =>
    rw [found] at mem
    cases mem
  | some source =>
    rw [found] at mem
    refine ⟨source.registry.book, ?_, List.mem_map_of_mem mem⟩
    rw [World.book?, found]
    rfl

/-! ## Worlds of emitters and timers -/

/-- All sources are emitters or timers, and no two of them have the same identity. -/
structure World.IsOrdinary (w : World H) : Prop where
  plain {slot : Nat} {source : SourceCell H} (found : w.source? slot = some source) :
    source.isHosted = false
  distinct {i j : Nat} {x y : SourceCell H} (hi : w.source? i = some x)
    (hj : w.source? j = some y) (same : x.id = y.id) : i = j

/-- A directive names the sources by their places in the world. -/
def Directive.Refers {E : Type} (w : World H) : Directive E → Prop
  | .listenTo source _ => (w.source? source.slot).map SourceCell.id = some source.id
  | _ => True

/-- When nothing is under way the stack is empty, and nothing is about to be carried out. -/
theorem Config.ended {c : Config H} (rest : c.AtRest ∨ c.IsOver) :
    c.stack = [] ∧ c.control.isPlain := by
  rcases rest with ⟨stack, ⟨s, control⟩ | ⟨a, control⟩⟩ | ⟨stack, ⟨a, control⟩ | ⟨a, control⟩⟩ <;>
    exact ⟨stack, control ▸ rfl⟩

namespace Program.Run

variable {w : World H} {past : List (Config H)} {c : Config H}

theorem emitters (ordinary : w.IsOrdinary) (slot : Nat) (id : SourceId) :
    w.sourceHeader? slot ≠ some (id, true) := by
  intro hosted
  obtain ⟨source, found, header⟩ := Option.map_eq_some_iff.1 hosted
  have isHosted : source.isHosted = true := congrArg Prod.snd header
  rw [ordinary.plain found] at isHosted
  cases isHosted

theorem source?_id (run : p.Run w past c) (slot : Nat) :
    (c.world.source? slot).map SourceCell.id = (w.source? slot).map SourceCell.id := by
  have same := congrArg (Option.map Prod.fst) (run.sourceHeader? slot)
  rwa [World.sourceHeader?, World.sourceHeader?, Option.map_map, Option.map_map] at same

/-- A registration that nothing is about to undo has a live token, or a panic left it over. -/
theorem live_or_lost (run : p.Run w past c) (rest : c.stack = []) {q : Place} {b : Book}
    (found : c.world.book? q = some b) {e : Nat × ScopeId} (mem : e ∈ b.entries) :
    c.world.isCancelled e.2 = false ∨ Lost e.2 past := by
  cases cancelled : c.world.isCancelled e.2 with
  | false => exact .inl rfl
  | true =>
    refine .inr ((run.undoing_of_cancelled found mem cancelled).resolve_left ?_)
    rintro ⟨ts, top, _⟩
    rw [rest] at top
    cases top

theorem live_or_lost_of_entry (run : p.Run w past c) (rest : c.stack = []) {slot : Nat}
    {r : Registration (Listener H)} (mem : r ∈ c.world.entries slot) :
    c.world.isCancelled r.token = false ∨ Lost r.token past := by
  obtain ⟨b, book, line⟩ := World.exists_book_of_entry mem
  exact run.live_or_lost rest book line

/-- At rest a machine that runs has an activation, unless a panic ended the change from one to
another. -/
theorem current_of_runs (run : p.Run w past c) (rest : c.AtRest ∨ c.IsOver)
    (runs : c.world.Runs m) : (∃ a, c.world.current? m = some a) ∨ ∃ y ∈ past, y.Vacates m := by
  by_cases vacated : ∃ y ∈ past, y.Vacates m
  · exact .inr vacated
  · obtain ⟨cell, found, running, alive⟩ := runs
    obtain ⟨empty, plain⟩ := Config.ended rest
    have manned := run.manned vacated found running alive
    rw [empty] at manned
    have go : c.control ≠ .stop m := by
      intro stop
      rw [stop] at plain
      cases plain
    rw [World.current?, found]
    exact .inl (Option.isSome_iff_exists.1 (manned List.not_mem_nil go))

/-- At rest only current activations hold scopes. -/
theorem current_of_mem_grips (rest : c.stack = []) {g : Grip} (held : g ∈ c.grips m) :
    ∃ a, c.world.current? m = some a ∧ g = a.grip := by
  rw [Config.grips, rest] at held
  rcases List.mem_append.1 held with held | none
  · unfold World.current?
    cases found : c.world.machine? m with
    | none =>
      rw [found] at held
      cases held
    | some cell =>
      rw [found] at held
      obtain ⟨a, current, same⟩ := List.mem_map.1 held
      exact ⟨a, Option.mem_toList.1 current, same.symm⟩
  · cases none

theorem mem_grips_of_current {a : Activation H} (current : c.world.current? m = some a) :
    a.grip ∈ c.grips m := by
  obtain ⟨cell, found, current⟩ := Option.bind_eq_some_iff.1 current
  rw [Config.grips, found]
  refine List.mem_append_left _ (List.mem_map_of_mem ?_)
  rw [current]
  exact List.mem_singleton_self a

/-- At rest a live scope of a machine is that of its current activation. -/
theorem current_of_live (run : p.Run w past c) (rest : c.AtRest ∨ c.IsOver) {s : ScopeId}
    (live : c.world.header? s = some (false, some m)) :
    ∃ a, c.world.current? m = some a ∧ a.scope = s := by
  obtain ⟨stack, plain⟩ := Config.ended rest
  rcases (run.holding m).accounted live with ⟨g, held, scope⟩ | control
  · obtain ⟨a, current, same⟩ := current_of_mem_grips stack held
    subst same
    exact ⟨a, current, scope⟩
  · rw [control] at plain
    cases plain

/-- When nothing is under way a machine without an activation has no live scope. -/
theorem header?_of_rest (run : p.Run w past c) (rest : c.AtRest ∨ c.IsOver)
    (none : c.world.current? m = none) (s : ScopeId) : c.world.header? s ≠ some (false, some m) := by
  intro live
  obtain ⟨a, current, _⟩ := run.current_of_live rest live
  rw [none] at current
  cases current

/-- At rest the listeners of a machine hang off the scope of its current activation, but for those
that a panic left over. -/
theorem current_or_lost_of_entry (run : p.Run w past c) (rest : c.AtRest ∨ c.IsOver) {slot : Nat}
    {r : Registration (Listener H)} (mem : r ∈ c.world.entries slot) {source : SourceId}
    (route : r.listener = .route m source) :
    (∃ a, c.world.current? m = some a ∧ a.scope = r.token) ∨ Lost r.token past := by
  obtain ⟨b, header⟩ := (run.holding m).mine mem route
  refine (run.live_or_lost_of_entry (Config.ended rest).1 mem).imp (fun live => ?_) id
  obtain ⟨owner, live⟩ := World.isCancelled_eq_false_iff.1 live
  rw [header] at live
  cases live
  exact run.current_of_live rest header

end Program.Run

end ScopedMachine

import ScopedMachine.Proofs.Course
import ScopedMachine.Proofs.Subscriptions

/-!
# Who counts which scopes

Every machine has a manager of its own, which counts the scopes of its activations. As long as the
host makes no scope with that manager, it counts nothing else.
-/

namespace ScopedMachine

variable {H : Type} {p : Program H}

/-! ## Counts -/

namespace World

variable {w : World H} {i j : ManagerId} {s token : ScopeId}

theorem tally_congr {w' : World H} (managers : w'.managers = w.managers) :
    w'.tally i = w.tally i := by
  rw [tally, tally, managers]

theorem tally_push : ({ w with managers := w.managers.push {} } : World H).tally i = w.tally i := by
  unfold tally
  dsimp only
  rw [Array.getElem?_push]
  split
  · next here =>
    rw [here, Array.getElem?_eq_none (Nat.le_refl _)]
    rfl
  · rfl

theorem tally_modifyManager_of_ne {f : Tally → Tally} (other : i ≠ j) :
    (w.modifyManager j f).tally i = w.tally i := by
  simp only [tally, modifyManager, Array.getElem?_modify, ManagerId.index_inj, if_neg other.symm]

theorem tally_modifyManager {f : Tally → Tally} (bound : i.index < w.managers.size) :
    (w.modifyManager i f).tally i = f (w.tally i) := by
  simp only [tally, modifyManager, Array.getElem?_modify, if_pos, Array.getElem?_eq_getElem bound]
  rfl

theorem managers_addScope {owner : Option MachineId} {manager : Option ManagerId} :
    (w.addScope owner manager).2.managers.size = w.managers.size := by
  cases manager with
  | none => rfl
  | some i => exact Array.size_modify

theorem managers_countRelease : (w.countRelease s).managers.size = w.managers.size := by
  unfold countRelease
  split
  · exact Array.size_modify
  · rfl

theorem holder?_cancel : (w.cancel s).holder? token = w.holder? token :=
  holder?_modifyScope fun _ => ⟨rfl, rfl⟩

/-- The owner of a scope, as the two views of the scope have it. -/
theorem owner_eq {o : Option MachineId} :
    (∃ b, w.header? s = some (b, o)) ↔ ∃ i, w.holder? s = some (o, i) := by
  unfold header? holder?
  cases w.scope? s with
  | none => simp
  | some cell =>
    simp only [Option.map_some, Option.some.injEq, ScopeCell.header, Prod.mk.injEq]
    constructor
    · rintro ⟨b, _, rfl⟩
      exact ⟨_, rfl, rfl⟩
    · rintro ⟨i, rfl, _⟩
      exact ⟨_, rfl, rfl⟩

end World

/-! ## Managers of machines -/

theorem Turn.manager {w : World H} {m : MachineId} {d : Option Deed} {e : Effect H}
    {cell cell' : MachineCell H} {ctl ctl' : Control H} {pops pushes : List (Frame H)}
    (turn : Turn p w m d e ⟨cell, ctl, pops⟩ ⟨cell', ctl', pushes⟩) :
    cell'.manager = cell.manager := by
  cases turn <;> rfl

/-- A machine had the same manager before a step, or it was made with a new one. -/
theorem Move.manager {c c' : Config H} {n : MachineId} {cell' : MachineCell H} (move : Move p c c')
    (found' : c'.world.machine? n = some cell') :
    (∃ cell, c.world.machine? n = some cell ∧ cell'.manager = cell.manager) ∨
      c.world.machine? n = none ∧ cell'.manager = ⟨c.world.managers.size⟩ ∧
        c'.world.managers = c.world.managers.push {} ∧
        ∀ n', n' ≠ n → c'.world.machine? n' = c.world.machine? n' := by
  cases move.outlook n with
  | spared machine => exact .inl ⟨cell', machine ▸ found', rfl⟩
  | start signal new found deed blank control frames counts others =>
    rw [found] at found'
    cases found'
    exact .inr ⟨new, counts.1, counts.2, others⟩
  | turn pops pushes rest found found'' turn =>
    rw [found''] at found'
    cases found'
    exact .inl ⟨_, found, turn.manager⟩

/-- No machine is forgotten. -/
theorem Move.stays {c c' : Config H} {n : MachineId} {cell : MachineCell H} (move : Move p c c')
    (found : c.world.machine? n = some cell) : ∃ cell', c'.world.machine? n = some cell' := by
  cases move.outlook n with
  | spared machine => exact ⟨cell, machine.trans found⟩
  | start signal new found' => exact ⟨_, found'⟩
  | turn pops pushes rest _ found' => exact ⟨_, found'⟩

/-- No manager is forgotten. -/
theorem Course.managers_size {c c' : Config H} (course : Course c c') :
    c.world.managers.size ≤ c'.world.managers.size := by
  cases course with
  | call grows | perform s t ts rest a control stack grows => exact grows.managers ▸ Nat.le_refl _
  | turn f rest stack ended free grows => exact grows.managers ▸ Nat.le_refl _
  | manage running stack managers =>
    rw [managers, Array.size_push]
    exact Nat.le_succ _
  | make manager k control stack world | enter m cell f x stage rest found enters stack stack' world =>
    exact Nat.le_of_eq (by rw [world, World.managers_addScope])
  | begin s control live stack world => exact world ▸ Nat.le_refl _
  | finish s rest a control stack stack' world =>
    exact Nat.le_of_eq (by rw [world, World.managers_countRelease])
  | lose s ts rest message control stack next => exact next ▸ Nat.le_refl _

/-- How a step changes who holds the scopes. -/
inductive Holds (c c' : Config H) : Prop where
  | same (holder : ∀ s, c'.world.holder? s = c.world.holder? s)
  | make (manager : Option ManagerId) (k : Answer → Script H)
      (control : c.control = .run (.call (.newScope manager) k))
      (holder : ∀ s, c'.world.holder? s =
        if s = ⟨c.world.scopes.size⟩ then some (none, manager) else c.world.holder? s)
  | enter (m : MachineId) (cell : MachineCell H) (found : c.world.machine? m = some cell)
      (holder : ∀ s, c'.world.holder? s =
        if s = ⟨c.world.scopes.size⟩ then some (some m, some cell.manager) else c.world.holder? s)

theorem Course.holds {c c' : Config H} (course : Course c c') : Holds c c' := by
  cases course with
  | call grows | perform s t ts rest a control stack grows => exact .same grows.holder
  | turn f rest stack ended free grows => exact .same grows.holder
  | manage running stack managers holder => exact .same holder
  | make manager k control stack world =>
    exact .make manager k control fun s => by rw [world, World.holder?_addScope]
  | enter m cell f x stage rest found enters stack stack' world =>
    exact .enter m cell found fun s => by rw [world, World.holder?_addScope]
  | begin s control live stack world => exact .same fun t => by rw [world, World.holder?_cancel]
  | finish s rest a control stack stack' world =>
    refine .same fun t => ?_
    rw [world, World.countRelease]
    split <;> rfl
  | lose s ts rest message control stack next => exact .same fun t => by rw [next]

theorem World.holder?_size {w : World H} : w.holder? ⟨w.scopes.size⟩ = none := by
  simp [World.holder?, World.scope?]

/-- Who holds a scope does not change. -/
theorem Holds.holder {c c' : Config H} {s : ScopeId} {o : Option MachineId}
    {manager : Option ManagerId} (holds : Holds c c')
    (holder : c.world.holder? s = some (o, manager)) : c'.world.holder? s = some (o, manager) := by
  have known : s ≠ ⟨c.world.scopes.size⟩ := by
    rintro rfl
    rw [World.holder?_size] at holder
    cases holder
  cases holds with
  | same same => rw [same, holder]
  | make manager' k control made => rw [made, if_neg known, holder]
  | enter n cell found made => rw [made, if_neg known, holder]

/-- Every machine has a manager of its own, which counts its scopes. -/
structure Config.Assigned (c : Config H) : Prop where
  bound {n : MachineId} {cell : MachineCell H} (found : c.world.machine? n = some cell) :
    cell.manager.index < c.world.managers.size
  apart {n n' : MachineId} {cell cell' : MachineCell H} (found : c.world.machine? n = some cell)
    (found' : c.world.machine? n' = some cell') (same : cell.manager = cell'.manager) : n = n'
  owned {s : ScopeId} {n : MachineId} {manager : Option ManagerId}
    (holder : c.world.holder? s = some (some n, manager)) :
    ∃ cell, c.world.machine? n = some cell ∧ manager = some cell.manager

theorem Config.Assigned.step {c c' : Config H} (assigned : c.Assigned) (move : Move p c c')
    (course : Course c c') : c'.Assigned where
  bound found' := by
    have size := course.managers_size
    rcases move.manager found' with ⟨cell, found, same⟩ | ⟨_, new, managers, _⟩
    · rw [same]
      exact Nat.lt_of_lt_of_le (assigned.bound found) size
    · rw [new, managers, Array.size_push]
      exact Nat.lt_succ_self _
  apart found₁ found₂ same := by
    rcases move.manager found₁ with ⟨cell₁, old₁, eq₁⟩ | ⟨none₁, new₁, _, others⟩ <;>
      rcases move.manager found₂ with ⟨cell₂, old₂, eq₂⟩ | ⟨none₂, new₂, _⟩
    · exact assigned.apart old₁ old₂ (by rw [← eq₁, ← eq₂, same])
    · have bound := assigned.bound old₁
      rw [← eq₁, same, new₂] at bound
      exact absurd bound (Nat.lt_irrefl _)
    · have bound := assigned.bound old₂
      rw [← eq₂, ← same, new₁] at bound
      exact absurd bound (Nat.lt_irrefl _)
    · -- at most one machine is made in a step
      by_contra other
      rw [others _ (Ne.symm other), none₂] at found₂
      cases found₂
  owned {s n manager} holder := by
    -- machines stay, and so do their managers
    have kept (known : ∃ cell, c.world.machine? n = some cell ∧ manager = some cell.manager) :
        ∃ cell, c'.world.machine? n = some cell ∧ manager = some cell.manager := by
      obtain ⟨cell, found, rfl⟩ := known
      obtain ⟨cell', found'⟩ := move.stays found
      rcases move.manager found' with ⟨cell₀, found₀, same⟩ | ⟨new, _⟩
      · rw [found] at found₀
        cases found₀
        exact ⟨cell', found', by rw [same]⟩
      · rw [found] at new
        cases new
    apply kept
    cases course.holds with
    | same same => exact assigned.owned (same s ▸ holder)
    | make k a control made =>
      rw [made] at holder
      split at holder
      · cases holder
      · exact assigned.owned holder
    | enter m cell found made =>
      rw [made] at holder
      split at holder
      · cases holder
        exact ⟨cell, found, rfl⟩
      · exact assigned.owned holder

theorem Program.Run.assigned {w : World H} {past : List (Config H)} {c : Config H}
    (run : p.Run w past c) : c.Assigned := by
  induction run with
  | begin fresh host s =>
    refine ⟨fun {n _} found => ?_, fun {n _ _ _} found => ?_, fun {s n _} holder => ?_⟩
    · rw [show _ = none from fresh.machine? n] at found
      cases found
    · rw [show _ = none from fresh.machine? n] at found
      cases found
    · obtain ⟨cell, found, header⟩ := Option.map_eq_some_iff.1 holder
      have mine : cell.owner = some n := congrArg Prod.fst header
      rw [(fresh.scope? found).1] at mine
      cases mine
  | step run h ih => exact ih.step (run.move h) (run.course h)
  | resume run ended host s ih => exact ⟨ih.bound, ih.apart, ih.owned⟩

end ScopedMachine

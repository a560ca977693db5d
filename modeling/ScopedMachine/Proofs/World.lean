import ScopedMachine.Engine.Step

/-!
# Reading a world after an edit

A world is edited place by place. These lemmas say what is found at a place after each edit, so that
nothing else has to look into the arrays.
-/

namespace ScopedMachine

variable {H : Type}

namespace MachineId

theorem index_inj {m n : MachineId} : m.index = n.index ↔ m = n := by
  cases m; cases n; simp

end MachineId

namespace ManagerId

theorem index_inj {i j : ManagerId} : i.index = j.index ↔ i = j := by
  cases i; cases j; simp

end ManagerId

namespace ScopeId

theorem index_inj {s t : ScopeId} : s.index = t.index ↔ s = t := by
  cases s; cases t; simp

end ScopeId

namespace World

variable {w : World H}

/-- The scope at a place. -/
def scope? (w : World H) (s : ScopeId) : Option (ScopeCell H) := w.scopes[s.index]?

/-! ## Machines -/

@[simp] theorem machine?_modifyMachine {m n : MachineId} {f : MachineCell H → MachineCell H} :
    (w.modifyMachine m f).machine? n = if n = m then (w.machine? n).map f else w.machine? n := by
  simp only [machine?, modifyMachine, Array.getElem?_modify, MachineId.index_inj, eq_comm]

theorem machine?_modifyMachine_self {m : MachineId} {cell : MachineCell H}
    {f : MachineCell H → MachineCell H} (found : w.machine? m = some cell) :
    (w.modifyMachine m f).machine? m = some (f cell) := by
  rw [machine?_modifyMachine, if_pos rfl, found, Option.map_some]

@[simp] theorem machine?_modifySource {slot : Nat} {f : SourceCell H → SourceCell H}
    {m : MachineId} : (w.modifySource slot f).machine? m = w.machine? m := rfl

@[simp] theorem machine?_modifyScope {s : ScopeId} {f : ScopeCell H → ScopeCell H}
    {m : MachineId} : (w.modifyScope s f).machine? m = w.machine? m := rfl

@[simp] theorem machine?_addScope {owner : Option MachineId} {manager : Option ManagerId}
    {m : MachineId} : (w.addScope owner manager).2.machine? m = w.machine? m := by
  cases manager <;> rfl

@[simp] theorem machine?_register {slot : Nat} {topic : String} {token : ScopeId}
    {l : Listener H} {m : MachineId} :
    (w.register slot topic token l).machine? m = w.machine? m := by
  unfold register
  split
  · rfl
  · split <;> rfl

theorem streams_register {slot : Nat} {topic : String} {token : ScopeId} {l : Listener H} :
    (w.register slot topic token l).streams = w.streams := by
  unfold register
  split
  · rfl
  · split <;> rfl

theorem streams_arm {slot : Nat} {kind : String} {after : Span} {token : ScopeId} :
    (w.arm slot kind after token).streams = w.streams := by
  unfold arm
  split
  · rfl
  · split <;> rfl

theorem streams_addScope {owner : Option MachineId} {manager : Option ManagerId} :
    (w.addScope owner manager).2.streams = w.streams := by
  cases manager <;> rfl

@[simp] theorem machine?_arm {slot : Nat} {kind : String} {after : Span} {token : ScopeId}
    {m : MachineId} : (w.arm slot kind after token).machine? m = w.machine? m := by
  unfold arm
  split
  · rfl
  · split <;> rfl

/-! ## Sources -/

@[simp] theorem source?_modifySource {i j : Nat} {f : SourceCell H → SourceCell H} :
    (w.modifySource i f).source? j = if j = i then (w.source? j).map f else w.source? j := by
  simp only [source?, modifySource, Array.getElem?_modify, eq_comm]

@[simp] theorem source?_modifyMachine {m : MachineId} {f : MachineCell H → MachineCell H}
    {i : Nat} : (w.modifyMachine m f).source? i = w.source? i := rfl

@[simp] theorem source?_modifyScope {s : ScopeId} {f : ScopeCell H → ScopeCell H} {i : Nat} :
    (w.modifyScope s f).source? i = w.source? i := rfl

@[simp] theorem source?_addScope {owner : Option MachineId} {manager : Option ManagerId}
    {i : Nat} : (w.addScope owner manager).2.source? i = w.source? i := by
  cases manager <;> rfl

/-! ## Scopes -/

@[simp] theorem scope?_modifyScope {s t : ScopeId} {f : ScopeCell H → ScopeCell H} :
    (w.modifyScope s f).scope? t = if t = s then (w.scope? t).map f else w.scope? t := by
  simp only [scope?, modifyScope, Array.getElem?_modify, ScopeId.index_inj, eq_comm]

@[simp] theorem scope?_modifyMachine {m : MachineId} {f : MachineCell H → MachineCell H}
    {s : ScopeId} : (w.modifyMachine m f).scope? s = w.scope? s := rfl

@[simp] theorem scope?_modifySource {slot : Nat} {f : SourceCell H → SourceCell H}
    {s : ScopeId} : (w.modifySource slot f).scope? s = w.scope? s := rfl

theorem isCancelled_eq {s : ScopeId} :
    w.isCancelled s = ((w.scope? s).map ScopeCell.released).getD true := by
  unfold isCancelled scope?
  cases w.scopes[s.index]? <;> rfl

end World

end ScopedMachine

import ScopedMachine.Proofs.Posture

/-!
# The life of scopes

A scope is made, released once, and never forgotten. `Scopes` says how a step changes the scopes:
one is made, or the one that is about to be released is released, or all stay as they are. Once a
scope is released nothing hangs off it any more, and what hung off it is run by a frame.
-/

namespace ScopedMachine

variable {H : Type} {p : Program H}

/-- Whether a scope is released, and whose it is. -/
def ScopeCell.header (cell : ScopeCell H) : Bool × Option MachineId := (cell.released, cell.owner)

/-- Whether the scope at a place is released, and whose it is. -/
def World.header? (w : World H) (s : ScopeId) : Option (Bool × Option MachineId) :=
  (w.scope? s).map ScopeCell.header

/-- How a step changes the scopes. -/
inductive Scopes (c c' : Config H) : Prop where
  | same (header : ∀ s, c'.world.header? s = c.world.header? s)
  | acquire (owner : Option MachineId) (s : ScopeId) (new : c.world.header? s = none)
      (entering : ∀ m, owner = some m → ∃ x stage, .activating m x s stage ∈ c'.stack)
      (header : ∀ t, c'.world.header? t = if t = s then some (false, owner) else c.world.header? t)
  | release (s : ScopeId) (owner : Option MachineId) (control : c.control = .release s)
      (live : c.world.header? s = some (false, owner))
      (header : ∀ t, c'.world.header? t = if t = s then some (true, owner) else c.world.header? t)

namespace World

variable {w w' : World H} {s token : ScopeId}

theorem isCancelled_iff : w.isCancelled s ↔ ∀ owner, w.header? s ≠ some (false, owner) := by
  rw [isCancelled_eq, header?]
  cases w.scope? s with
  | none => simp
  | some cell => cases h : cell.released <;> simp [ScopeCell.header, h]

theorem isCancelled_eq_false_iff :
    w.isCancelled s = false ↔ ∃ owner, w.header? s = some (false, owner) := by
  rw [isCancelled_eq, header?]
  cases w.scope? s with
  | none => simp
  | some cell => cases h : cell.released <;> simp [ScopeCell.header, h]

theorem isExternal_iff : w.isExternal s ↔ ∃ released, w.header? s = some (released, none) := by
  unfold isExternal header? scope?
  cases w.scopes[s.index]? with
  | none => simp
  | some cell => cases h : cell.owner <;> simp [ScopeCell.header, h]

theorem header?_congr (scopes : w'.scopes = w.scopes) : w'.header? s = w.header? s := by
  rw [header?, header?, scope?, scope?, scopes]

theorem header?_addTeardown {t : Teardown H} : (w.addTeardown token t).header? s = w.header? s := by
  rw [header?, header?, addTeardown, scope?_modifyScope]
  split
  · rw [Option.map_map]; rfl
  · rfl

theorem header?_addScope {owner : Option MachineId} {manager : Option ManagerId} :
    (w.addScope owner manager).2.header? s =
      if s = ⟨w.scopes.size⟩ then some (false, owner) else w.header? s := by
  have scopes : (w.addScope owner manager).2.scopes = w.scopes.push { owner, manager } := by
    cases manager <;> rfl
  rw [header?, header?, scope?, scope?, scopes, Array.getElem?_push]
  have place : s = ⟨w.scopes.size⟩ ↔ s.index = w.scopes.size := ScopeId.index_inj.symm
  by_cases hs : s.index = w.scopes.size
  · rw [if_pos hs, if_pos (place.2 hs)]
    rfl
  · rw [if_neg hs, if_neg (mt place.1 hs)]

theorem header?_size : w.header? ⟨w.scopes.size⟩ = none := by
  simp [header?, scope?]

theorem header?_cancel {owner : Option MachineId} (live : w.header? token = some (false, owner)) :
    (w.cancel token).header? s = if s = token then some (true, owner) else w.header? s := by
  rw [header?, cancel, scope?_modifyScope]
  split
  · next hs =>
    subst hs
    rw [header?] at live
    cases h : w.scope? s with
    | none => rw [h] at live; cases live
    | some cell =>
      rw [h, Option.map_some, Option.some.injEq, ScopeCell.header, Prod.mk.injEq] at live
      rw [Option.map_some, Option.map_some, ScopeCell.header, live.2]
  · rfl

theorem header?_register {slot : Nat} {topic : String} {l : Listener H} :
    (w.register slot topic token l).header? s = w.header? s := by
  unfold register
  split
  · rfl
  · split
    · rfl
    · exact header?_addTeardown

theorem header?_arm {slot : Nat} {kind : String} {after : Span} :
    (w.arm slot kind after token).header? s = w.header? s := by
  unfold arm
  split
  · rfl
  · split
    · rfl
    · exact header?_addTeardown

end World

theorem Turn.scopes {w w' : World H} {h h' : H} {m : MachineId} {d : Option Deed} {e : Effect H}
    {cell cell' : MachineCell H} {ctl ctl' : Control H} {pops pushes : List (Frame H)}
    {rest : List (Frame H)} (turn : Turn p w m d e ⟨cell, ctl, pops⟩ ⟨cell', ctl', pushes⟩)
    (turned : w.Turned m cell' e w') :
    Scopes ⟨w, h, ctl, pops ++ rest⟩ ⟨w', h', ctl', pushes ++ rest⟩ := by
  have same (effect : ∀ s, (e.apply m w).header? s = w.header? s) :
      Scopes ⟨w, h, ctl, pops ++ rest⟩ ⟨w', h', ctl', pushes ++ rest⟩ :=
    .same fun s => (World.header?_congr turned.scopes).trans (effect s)
  cases turn with
  | @enter _ _ _ x stage enters =>
    refine .acquire (some m) ⟨w.scopes.size⟩ World.header?_size (fun n hn => ?_) fun t => ?_
    · cases hn
      exact ⟨x, stage, List.mem_append_left _ (List.mem_cons_of_mem _ (List.mem_cons_self ..))⟩
    · exact (World.header?_congr turned.scopes).trans World.header?_addScope
  | observe => exact same fun _ => World.header?_addTeardown
  | signal => exact same fun _ => World.header?_addTeardown
  | subscribe => exact same fun _ => World.header?_register
  | _ => exact same fun _ => rfl

theorem Move.scopes {c c' : Config H} (move : Move p c c') : Scopes c c' := by
  cases move with
  | idle pops pushes rest alike => exact .same fun _ => World.header?_congr alike.scopes
  | newScope =>
    exact .acquire none _ World.header?_size nofun fun t => World.header?_addScope
  | hang => exact .same fun _ => World.header?_addTeardown
  | release live =>
    obtain ⟨owner, live⟩ := World.isCancelled_eq_false_iff.1 live
    exact .release _ owner rfl live fun _ => World.header?_cancel live
  | listen => exact .same fun _ => World.header?_register
  | unobserveGone alike => exact .same fun _ => World.header?_congr alike.scopes
  | arm => exact .same fun _ => World.header?_arm
  | start frames new machine scopes => exact .same fun _ => World.header?_congr scopes
  | turn pops pushes rest found turn turned others => exact turn.scopes turned
  | _ => exact .same fun _ => rfl

/-! ## Released scopes -/

namespace World

variable {w w' : World H} {s token : ScopeId}

theorem exists_scope (live : w.isCancelled token = false) :
    ∃ cell, w.scope? token = some cell ∧ cell.released = false := by
  rw [isCancelled_eq] at live
  cases h : w.scope? token with
  | none => simp [h] at live
  | some cell => exact ⟨cell, rfl, by simpa [h] using live⟩

theorem teardowns_eq : w.teardowns s = ((w.scope? s).map ScopeCell.teardowns).getD [] := rfl

theorem teardowns_addTeardown {t : Teardown H} (live : w.isCancelled token = false) :
    (w.addTeardown token t).teardowns s = w.teardowns s ++ if s = token then [t] else [] := by
  obtain ⟨cell, found, _⟩ := exists_scope live
  rw [teardowns_eq, teardowns_eq, addTeardown, scope?_modifyScope]
  by_cases hs : s = token
  · subst hs
    simp [found]
  · simp [hs]

theorem teardowns_addScope {owner : Option MachineId} {manager : Option ManagerId} :
    (w.addScope owner manager).2.teardowns s = w.teardowns s := by
  have scopes : (w.addScope owner manager).2.scopes = w.scopes.push { owner, manager } := by
    cases manager <;> rfl
  rw [teardowns_eq, teardowns_eq, scope?, scope?, scopes, Array.getElem?_push]
  split
  · next h => simp [h]
  · rfl

theorem teardowns_cancel (live : w.isCancelled token = false) :
    (w.cancel token).teardowns s = if s = token then [] else w.teardowns s := by
  obtain ⟨cell, found, _⟩ := exists_scope live
  rw [teardowns_eq, teardowns_eq, cancel, scope?_modifyScope]
  by_cases hs : s = token
  · subst hs
    simp [found]
  · simp [hs]

/-- Nothing hangs off a scope that was released. -/
def Tidy (w : World H) : Prop := ∀ s, w.isCancelled s → w.teardowns s = []

theorem isCancelled_congr (header : w'.header? s = w.header? s) :
    w'.isCancelled s = w.isCancelled s := by
  rw [Bool.eq_iff_iff, isCancelled_iff, isCancelled_iff, header]

theorem Tidy.congr (tidy : w.Tidy) (scopes : w'.scopes = w.scopes) : w'.Tidy := by
  intro s cancelled
  rw [isCancelled_congr (header?_congr scopes)] at cancelled
  rw [teardowns_eq, scope?, scopes]
  exact tidy s cancelled

theorem Tidy.addTeardown (tidy : w.Tidy) {t : Teardown H} (live : w.isCancelled token = false) :
    (w.addTeardown token t).Tidy := by
  intro s cancelled
  rw [isCancelled_congr header?_addTeardown] at cancelled
  have other : s ≠ token := by
    rintro rfl
    rw [live] at cancelled
    cases cancelled
  rw [teardowns_addTeardown live, if_neg other, List.append_nil]
  exact tidy s cancelled

theorem Tidy.addScope (tidy : w.Tidy) {owner : Option MachineId} {manager : Option ManagerId} :
    (w.addScope owner manager).2.Tidy := by
  intro s cancelled
  rw [teardowns_addScope]
  by_cases hs : s = ⟨w.scopes.size⟩
  · rw [isCancelled_iff, header?_addScope, if_pos hs] at cancelled
    exact absurd rfl (cancelled owner)
  · rw [isCancelled_congr (header?_addScope.trans (if_neg hs))] at cancelled
    exact tidy s cancelled

theorem Tidy.cancel (tidy : w.Tidy) (live : w.isCancelled token = false) :
    (w.cancel token).Tidy := by
  intro s cancelled
  rw [teardowns_cancel live]
  split
  · rfl
  · next hs =>
    obtain ⟨owner, live⟩ := isCancelled_eq_false_iff.1 live
    rw [isCancelled_congr ((header?_cancel live).trans (if_neg hs))] at cancelled
    exact tidy s cancelled

theorem Tidy.register (tidy : w.Tidy) {slot : Nat} {topic : String} {l : Listener H} :
    (w.register slot topic token l).Tidy := by
  unfold World.register
  split
  · exact tidy
  · split
    · exact tidy
    · next live =>
      refine Tidy.addTeardown (tidy.congr ?_) (Bool.eq_false_iff.2 live)
      rfl

theorem Tidy.arm (tidy : w.Tidy) {slot : Nat} {kind : String} {after : Span} :
    (w.arm slot kind after token).Tidy := by
  unfold World.arm
  split
  · exact tidy
  · split
    · exact tidy
    · next live =>
      refine Tidy.addTeardown (tidy.congr ?_) (Bool.eq_false_iff.2 live)
      rfl

end World

theorem Turn.tidy {w w' : World H} {m : MachineId} {d : Option Deed} {e : Effect H}
    {cell cell' : MachineCell H} {ctl ctl' : Control H} {pops pushes : List (Frame H)}
    (turn : Turn p w m d e ⟨cell, ctl, pops⟩ ⟨cell', ctl', pushes⟩)
    (turned : w.Turned m cell' e w') (tidy : w.Tidy) : w'.Tidy := by
  suffices effect : (e.apply m w).Tidy from effect.congr turned.scopes
  cases turn with
  | enter => exact tidy.addScope
  | observe live => exact tidy.addTeardown live
  | signal live => exact tidy.addTeardown live
  | subscribe => exact tidy.register
  | _ => exact tidy

theorem Move.tidy {c c' : Config H} (move : Move p c c') (tidy : c.world.Tidy) :
    c'.world.Tidy := by
  cases move with
  | idle pops pushes rest alike => exact tidy.congr alike.scopes
  | newScope => exact tidy.addScope
  | hang frames live => exact tidy.addTeardown live
  | release live => exact tidy.cancel live
  | listen => exact tidy.register
  | unobserveGone alike => exact tidy.congr alike.scopes
  | arm => exact tidy.arm
  | start frames new machine scopes => exact tidy.congr scopes
  | openStream | read => exact tidy.congr rfl
  | turn pops pushes rest found turn turned others => exact turn.tidy turned tidy
  | unlisten | disarm | tick | reached => exact tidy.congr rfl
  | _ => exact tidy

/-! ## Releases under way -/

section Releasing

variable {s : ScopeId} {ts : List (Teardown H)}

theorem releasing_notMem_of_isPlain {fs : List (Frame H)} (plain : ∀ f ∈ fs, f.isPlain) :
    .releasing s ts ∉ fs := by
  intro h
  cases plain _ h

theorem Sheds.releasing {pops pushes : List (Frame H)} (sheds : Sheds pops pushes)
    (h : .releasing s ts ∈ pushes) : ∃ ts', .releasing s ts' ∈ pops := by
  cases sheds with
  | inert hpops hpushes => exact absurd h (releasing_notMem_of_isPlain hpushes)
  | teardown loose =>
    cases List.mem_singleton.1 h
    exact ⟨_, List.mem_singleton_self _⟩

theorem Turn.releasing {w : World H} {m : MachineId} {d : Option Deed} {e : Effect H}
    {cell cell' : MachineCell H} {ctl ctl' : Control H} {pops pushes : List (Frame H)}
    (turn : Turn p w m d e ⟨cell, ctl, pops⟩ ⟨cell', ctl', pushes⟩)
    (h : .releasing s ts ∈ pushes) : ∃ ts', .releasing s ts' ∈ pops := by
  cases turn with
  | pin alive quiet call sheds => exact sheds.releasing (by simpa using h)
  | hold held quiet plain inert => exact absurd h (releasing_notMem_of_isPlain inert)
  | drop held alive quiet plain inert => exact absurd h (releasing_notMem_of_isPlain inert)
  | dropLast held dead quiet inert =>
    have absent : Frame.releasing s ts ∉ _ := releasing_notMem_of_isPlain inert
    exact absurd (by simpa using h) absent
  | observe live held quiet plain inert => exact absurd h (releasing_notMem_of_isPlain inert)
  | unobserve =>
    cases List.mem_singleton.1 h
    exact ⟨_, List.mem_singleton_self _⟩
  | _ => simp at h

/-- A release that is under way after a step was so before, or just began. -/
theorem Move.releasing {c c' : Config H} (move : Move p c c') (h : .releasing s ts ∈ c'.stack) :
    (∃ ts', .releasing s ts' ∈ c.stack) ∨ ∃ owner, c'.world.header? s = some (true, owner) := by
  have rest {pops pushes rest : List (Frame H)}
      (top : .releasing s ts ∈ pushes → ∃ ts', .releasing s ts' ∈ pops)
      (h : .releasing s ts ∈ pushes ++ rest) : ∃ ts', .releasing s ts' ∈ pops ++ rest := by
    rcases List.mem_append.1 h with h | h
    · obtain ⟨ts', h⟩ := top h
      exact ⟨ts', List.mem_append_left _ h⟩
    · exact ⟨ts, List.mem_append_right _ h⟩
  have plainly {frames rest : List (Frame H)} (inert : ∀ f ∈ frames, f.isPlain)
      (h : .releasing s ts ∈ frames ++ rest) : ∃ ts', .releasing s ts' ∈ rest := by
    rcases List.mem_append.1 h with h | h
    · exact absurd h (releasing_notMem_of_isPlain inert)
    · exact ⟨ts, h⟩
  have again {u : ScopeId} {us us' : List (Teardown H)} {rest : List (Frame H)}
      (h : .releasing s ts ∈ .releasing u us' :: rest) :
      ∃ ts', .releasing s ts' ∈ .releasing u us :: rest := by
    rcases List.mem_cons.1 h with h | h
    · cases h
      exact ⟨us, List.mem_cons_self ..⟩
    · exact ⟨ts, List.mem_cons_of_mem _ h⟩
  cases move with
  | idle pops pushes stack alike sheds => exact .inl (rest sheds.releasing h)
  | collect frames inert => exact .inl (plainly inert h)
  | look => exact .inl ⟨ts, h⟩
  | ask => exact .inl ⟨ts, by simpa using h⟩
  | hear => exact .inl ⟨ts, List.mem_cons_of_mem _ h⟩
  | newScope frames plain inert => exact .inl (plainly inert h)
  | hang frames live plain inert => exact .inl (plainly inert h)
  | callRelease frames external inert => exact .inl (plainly inert h)
  | release live =>
    rcases List.mem_cons.1 h with h | h
    · cases h
      obtain ⟨owner, live⟩ := World.isCancelled_eq_false_iff.1 live
      exact .inr ⟨owner, (World.header?_cancel live).trans (if_pos rfl)⟩
    · exact .inl ⟨ts, h⟩
  | lose => exact .inl ⟨ts, List.mem_cons_of_mem _ h⟩
  | listen frames plain inert => exact .inl (plainly inert h)
  | unlisten => exact .inl (again h)
  | unobserveGone => exact .inl (again h)
  | arm frames plain inert => exact .inl (plainly inert h)
  | disarm => exact .inl (again h)
  | tick frames plain inert =>
    obtain ⟨ts', h⟩ := plainly inert h
    exact .inl ⟨ts', List.mem_cons_of_mem _ (by simpa using h)⟩
  | reached => exact .inl ⟨ts, List.mem_cons_of_mem _ h⟩
  | openStream frames plain inert => exact .inl (plainly inert h)
  | read => exact .inl ⟨ts, by simpa using h⟩
  | start frames new machine scopes sources streams blank inert =>
    exact .inl (plainly inert (by simpa using h))
  | turn pops pushes stack found turn turned others => exact .inl (rest turn.releasing h)

/-- A scope that a frame releases is released. -/
def Config.Releases (c : Config H) : Prop :=
  ∀ s ts, .releasing s ts ∈ c.stack → ∃ owner, c.world.header? s = some (true, owner)

/-- What is known of a scope stays known: it stays, its owner stays, and a release is for good. -/
theorem Scopes.header {c c' : Config H} (scopes : Scopes c c') {owner : Option MachineId}
    (h : c.world.header? s = some (true, owner)) : c'.world.header? s = some (true, owner) := by
  cases scopes with
  | same header => rw [header, h]
  | acquire o t new entering header =>
    have other : s ≠ t := by
      rintro rfl
      rw [h] at new
      cases new
    rw [header, if_neg other, h]
  | release t o control live header =>
    have other : s ≠ t := by
      rintro rfl
      rw [h] at live
      cases live
    rw [header, if_neg other, h]

/-- A scope is never forgotten. -/
theorem Scopes.header?_ne_none {c c' : Config H} (scopes : Scopes c c')
    (h : c.world.header? s ≠ none) : c'.world.header? s ≠ none := by
  cases scopes with
  | same header => rw [header]; exact h
  | acquire o t new entering header | release t o control live header =>
    rw [header]
    split
    · nofun
    · exact h

theorem Move.releases {c c' : Config H} (move : Move p c c') (releases : c.Releases) :
    c'.Releases := by
  intro s ts h
  rcases move.releasing h with ⟨ts', h⟩ | done
  · obtain ⟨owner, released⟩ := releases s ts' h
    exact ⟨owner, move.scopes.header released⟩
  · exact done

end Releasing

/-! ## Every instant of a run -/

namespace Program.Run

variable {w : World H} {past : List (Config H)} {c : Config H}

theorem tidy (run : p.Run w past c) : c.world.Tidy := by
  induction run with
  | begin fresh host s =>
    intro t _
    rw [World.teardowns_eq]
    cases found : w.scope? t with
    | none => rfl
    | some cell => exact (fresh.scope? found).2
  | step run h ih => exact (run.move h).tidy ih
  | resume run ended host s ih => exact ih

theorem releases (run : p.Run w past c) : c.Releases := by
  induction run with
  | begin fresh host s => exact fun _ _ h => absurd h List.not_mem_nil
  | step run h ih => exact (run.move h).releases ih
  | resume run ended host s ih => exact ih

end Program.Run

end ScopedMachine

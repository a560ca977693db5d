import Mathlib.Data.List.Nodup
import ScopedMachine.Proofs.Scopes

/-!
# Registrations and the teardowns that undo them

A registration lives in a registry, of a source or of a machine, and the teardown that undoes it
hangs off the scope of its token. `Books` says once how a step changes the two together: it adds both,
or it removes the registration by performing the teardown, or it clears the registry of a machine
that is taken down. That the two never come apart is derived from it.
-/

namespace ScopedMachine

variable {H : Type} {p : Program H}

/-! ## Books -/

/-- Where something can be registered. -/
inductive Place where
  | source (slot : Nat)
  | machine (m : MachineId)
deriving DecidableEq

/-- A registry without what it calls: the next number, and the number and token of each entry. -/
structure Book where
  next : Nat
  entries : List (Nat × ScopeId)

namespace Book

/-- The book with an entry for a token added. -/
def add (token : ScopeId) (b : Book) : Book := ⟨b.next + 1, b.entries ++ [(b.next, token)]⟩

/-- The book without the entry with a number. -/
def remove (number : Nat) (b : Book) : Book :=
  { b with entries := b.entries.filter (·.1 != number) }

/-- The book without entries. -/
def clear (b : Book) : Book := { b with entries := [] }

end Book

/-- What is kept of a registration. -/
def Registration.line {L : Type} (r : Registration L) : Nat × ScopeId := (r.number, r.token)

namespace Registry

variable {L : Type} {r : Registry L}

/-- The book of a registry. -/
def book (r : Registry L) : Book := ⟨r.nextNumber, r.entries.map Registration.line⟩

theorem book_add {topic : String} {token : ScopeId} {l : L} :
    (r.add topic token l).book = r.book.add token := by
  simp [book, add, Book.add, Registration.line]

theorem book_remove {number : Nat} : (r.remove number).book = r.book.remove number := by
  simp only [book, remove, Book.remove, List.filter_map]
  rfl

end Registry

/-- The book of a place. -/
def World.book? (w : World H) : Place → Option Book
  | .source slot => (w.source? slot).map (·.registry.book)
  | .machine m => (w.machine? m).map (·.observers.book)

/-- The registration that a teardown undoes. -/
def Teardown.undoes? : Teardown H → Option (Place × Nat)
  | .unlisten slot number => some (.source slot, number)
  | .unobserve m number => some (.machine m, number)
  | .disarm .. | .stop _ | .run _ => none

/-- The registrations that are yet to be undone by a frame that releases a scope. -/
def Frame.hung (s : ScopeId) : Frame H → List (Place × Nat)
  | .releasing t ts => if t = s then ts.filterMap Teardown.undoes? else []
  | _ => []

/-- The registrations that hang off a scope. -/
def World.hung (s : ScopeId) (w : World H) : List (Place × Nat) :=
  (w.teardowns s).filterMap Teardown.undoes?

/-- The registrations that hang off a scope or are yet to be undone by its release. -/
def Config.hung (s : ScopeId) (c : Config H) : List (Place × Nat) :=
  c.world.hung s ++ c.stack.flatMap (Frame.hung s)

section Hung

variable {s : ScopeId} {fs : List (Frame H)}

theorem flatMap_hung_of_inert (inert : ∀ f ∈ fs, f.isInert) : fs.flatMap (Frame.hung s) = [] := by
  rw [List.flatMap_eq_nil_iff]
  intro f hf
  have inert := inert f hf
  unfold Frame.hung
  split
  · next t ts =>
    cases ts with
    | nil => simp
    | cons t ts => cases inert
  · rfl

theorem isInert_of_isPlain {f : Frame H} (plain : f.isPlain) : f.isInert := by
  cases f <;> simp_all [Frame.isPlain, Frame.isInert]

theorem flatMap_hung_of_isPlain (plain : ∀ f ∈ fs, f.isPlain) :
    fs.flatMap (Frame.hung s) = [] :=
  flatMap_hung_of_inert fun f hf => isInert_of_isPlain (plain f hf)

end Hung

/-- How a step changes the registrations and what hangs off the scopes. -/
inductive Books (c c' : Config H) : Prop where
  | same (book : ∀ q, c'.world.book? q = c.world.book? q)
      (hung : ∀ s e, e ∈ c'.hung s ↔ e ∈ c.hung s)
  /-- Something is registered for a token. -/
  | add (q : Place) (token : ScopeId) (b : Book) (before : c.world.book? q = some b)
      (live : c.world.isCancelled token = false)
      (book : ∀ r, c'.world.book? r = if r = q then some (b.add token) else c.world.book? r)
      (hung : ∀ s e, e ∈ c'.hung s ↔ e ∈ c.hung s ∨ s = token ∧ e = (q, b.next))
  /-- A registration is undone by the release of a scope. -/
  | remove (q : Place) (number : Nat) (s : ScopeId) (ts : List (Teardown H)) (t : Teardown H)
      (top : .releasing s (t :: ts) ∈ c.stack) (undoes : t.undoes? = some (q, number))
      (book : ∀ r, c'.world.book? r =
        if r = q then (c.world.book? r).map (Book.remove number) else c.world.book? r)
      (hung : ∀ u e, e ∈ c'.hung u → e ∈ c.hung u)
      (kept : ∀ u e, e ∈ c.hung u → e ∈ c'.hung u ∨ u = s ∧ e = (q, number))
  /-- The registry of a machine that is taken down is cleared. -/
  | clear (m : MachineId) (top : .dismantling m ∈ c.stack)
      (book : ∀ r, c'.world.book? r =
        if r = .machine m then (c.world.book? r).map Book.clear else c.world.book? r)
      (hung : ∀ s e, e ∈ c'.hung s ↔ e ∈ c.hung s)
  /-- A machine is made. -/
  | make (m : MachineId) (new : c.world.machine? m = none)
      (book : ∀ r, c'.world.book? r = if r = .machine m then some ⟨0, []⟩ else c.world.book? r)
      (hung : ∀ s e, e ∈ c'.hung s ↔ e ∈ c.hung s)
  /-- A panic loses the rest of a release. -/
  | lose (panics : ¬c.IsCalm) (book : ∀ q, c'.world.book? q = c.world.book? q)
      (hung : ∀ s e, e ∈ c'.hung s → e ∈ c.hung s) (s : ScopeId) (ts : List (Teardown H))
      (rest : List (Frame H)) (top : c.stack = .releasing s ts :: rest)
      (kept : ∀ u e, e ∈ c.hung u → e ∈ c'.hung u ∨ u = s)

/-! ## Edits of a world -/

namespace World

variable {w : World H} {s token : ScopeId} {q : Place}

theorem hung_addTeardown {t : Teardown H} (live : w.isCancelled token = false) :
    (w.addTeardown token t).hung s = w.hung s ++ if s = token then t.undoes?.toList else [] := by
  rw [hung, hung, teardowns_addTeardown live]
  split
  · cases h : t.undoes? <;> simp [h]
  · simp

theorem hung_congr {w' : World H} (scopes : w'.scopes = w.scopes) : w'.hung s = w.hung s := by
  rw [hung, hung, teardowns, teardowns, scopes]

theorem book?_modifyScope {f : ScopeCell H → ScopeCell H} :
    (w.modifyScope s f).book? q = w.book? q := by
  cases q <;> rfl

theorem book?_addTeardown {t : Teardown H} : (w.addTeardown s t).book? q = w.book? q :=
  book?_modifyScope

theorem book?_addScope {owner : Option MachineId} {manager : Option ManagerId} :
    (w.addScope owner manager).2.book? q = w.book? q := by
  cases q <;> simp [book?]

theorem book?_modifySource {slot : Nat} {f : SourceCell H → SourceCell H} :
    (w.modifySource slot f).book? q =
      if q = .source slot then (w.source? slot).map fun x => (f x).registry.book else w.book? q := by
  cases q with
  | source i =>
    simp only [book?, source?_modifySource, Place.source.injEq]
    split
    · next h => rw [h, Option.map_map]; rfl
    · rfl
  | machine m => simp [book?]

theorem scopes_modifySource {slot : Nat} {f : SourceCell H → SourceCell H} :
    (w.modifySource slot f).scopes = w.scopes := rfl

theorem book?_modifySource_of_eq {slot : Nat} {f : SourceCell H → SourceCell H}
    (same : ∀ x, (f x).registry = x.registry) : (w.modifySource slot f).book? q = w.book? q := by
  rw [book?_modifySource]
  split
  · next h =>
    rw [h, book?]
    cases w.source? slot with
    | none => rfl
    | some x => simp [same]
  · rfl

theorem registry_modifyClock {f : Clock → Clock} {x : SourceCell H} :
    (x.modifyClock f).registry = x.registry := by
  unfold SourceCell.modifyClock
  split <;> rfl

end World

/-! ## The ways in which books change -/

namespace Books

variable {c c' : Config H}

theorem of_same (book : ∀ q, c'.world.book? q = c.world.book? q)
    (world : ∀ s, c'.world.hung s = c.world.hung s)
    (stack : ∀ s, c'.stack.flatMap (Frame.hung s) = c.stack.flatMap (Frame.hung s)) : Books c c' :=
  .same book fun s e => by rw [Config.hung, Config.hung, world, stack]

theorem of_add {q : Place} {token : ScopeId} {b : Book} (before : c.world.book? q = some b)
    (live : c.world.isCancelled token = false)
    (book : ∀ r, c'.world.book? r = if r = q then some (b.add token) else c.world.book? r)
    (world : ∀ s, c'.world.hung s = c.world.hung s ++ if s = token then [(q, b.next)] else [])
    (stack : ∀ s, c'.stack.flatMap (Frame.hung s) = c.stack.flatMap (Frame.hung s)) :
    Books c c' := by
  refine .add q token b before live book fun s e => ?_
  rw [Config.hung, Config.hung, world, stack]
  by_cases hs : s = token
  · simp only [hs, if_true, List.mem_append, List.mem_singleton, true_and]
    grind
  · simp [hs]

theorem of_register (slot : Nat) (topic : String) (token : ScopeId) (l : Listener H)
    (book : ∀ q, c'.world.book? q = (c.world.register slot topic token l).book? q)
    (world : ∀ s, c'.world.hung s = (c.world.register slot topic token l).hung s)
    (stack : ∀ s, c'.stack.flatMap (Frame.hung s) = c.stack.flatMap (Frame.hung s)) :
    Books c c' := by
  unfold World.register at book world
  split at book
  · next missing =>
    simp only [missing] at world
    exact of_same book world stack
  · next source found =>
    simp only [found] at world
    split at book
    · next cancelled =>
      rw [if_pos cancelled] at world
      exact of_same book world stack
    · next live =>
      rw [if_neg live] at world
      have live : c.world.isCancelled token = false := Bool.eq_false_iff.2 live
      refine of_add (q := .source slot) (b := source.registry.book) ?_ live (fun r => ?_)
        (fun s => ?_) stack
      · rw [World.book?, found]; rfl
      · rw [book, World.book?_addTeardown, World.book?_modifySource, found, Option.map_some,
          Registry.book_add]
      · rw [world]
        exact World.hung_addTeardown live

end Books

theorem Sheds.hung {s : ScopeId} {pops pushes : List (Frame H)} (sheds : Sheds pops pushes) :
    pushes.flatMap (Frame.hung s) = pops.flatMap (Frame.hung s) := by
  cases sheds with
  | inert hpops hpushes => rw [flatMap_hung_of_inert hpops, flatMap_hung_of_isPlain hpushes]
  | @teardown u t rest loose =>
    have none : t.undoes? = Option.none := by cases t <;> first | rfl | cases loose
    simp only [List.flatMap_cons, List.flatMap_nil, List.append_nil, Frame.hung,
      List.filterMap_cons, none]

section Pop

variable {c c' : Config H} {rest : List (Frame H)} {s u : ScopeId} {t : Teardown H}
  {ts : List (Teardown H)} {entry e : Place × Nat}

/-- Performing a teardown takes nothing off the scopes but the registration that it undoes. -/
theorem Config.hung_pop (scopes : c'.world.scopes = c.world.scopes)
    (before : c.stack = .releasing s (t :: ts) :: rest) (after : c'.stack = .releasing s ts :: rest)
    (undoes : t.undoes? = some entry) (he : e ∈ c.hung u) :
    e ∈ c'.hung u ∨ u = s ∧ e = entry := by
  simp only [hung, World.hung_congr scopes, before, after, List.flatMap_cons, Frame.hung,
    List.filterMap_cons, undoes, List.mem_append] at he ⊢
  by_cases hs : s = u
  · simp only [hs, if_true, List.mem_cons, true_and] at he ⊢
    grind
  · simp only [hs, if_false] at he ⊢
    exact .inl he

theorem Config.hung_of_pop (scopes : c'.world.scopes = c.world.scopes)
    (before : c.stack = .releasing s (t :: ts) :: rest) (after : c'.stack = .releasing s ts :: rest)
    (undoes : t.undoes? = some entry) (he : e ∈ c'.hung u) : e ∈ c.hung u := by
  simp only [hung, World.hung_congr scopes, before, after, List.flatMap_cons, Frame.hung,
    List.filterMap_cons, undoes, List.mem_append] at he ⊢
  by_cases hs : s = u
  · simp only [hs, if_true, List.mem_cons] at he ⊢
    grind
  · simp only [hs, if_false] at he ⊢
    exact he

/-- Performing a teardown that undoes no registration takes nothing off the scopes. -/
theorem Frame.hung_releasing_cons (undoes : t.undoes? = none) :
    (Frame.releasing s (t :: ts)).hung u = (Frame.releasing s ts).hung u := by
  simp only [hung, List.filterMap_cons, undoes]

end Pop

/-! ## Steps and books -/

section Book?

variable {w w' : World H} {m : MachineId} {cell : MachineCell H} {e : Effect H} {r : Place}

theorem World.Alike.book? (alike : w.Alike w') : w'.book? r = w.book? r := by
  cases r with
  | source slot => rw [World.book?, World.book?, source?, source?, alike.sources]
  | machine m => rw [World.book?, World.book?, machine?, machine?, alike.machines]

theorem Effect.machine?_apply {n : MachineId} : (e.apply m w).machine? n = w.machine? n := by
  cases e with
  | none => rfl
  | acquire => exact World.machine?_addScope
  | hang | observe | tell => rfl
  | subscribe => exact World.machine?_register

/-- A turn rewrites the book of its machine; its effect rewrites the others. -/
theorem World.Turned.book? (turned : w.Turned m cell e w') :
    w'.book? r = if r = .machine m then some cell.observers.book else (e.apply m w).book? r := by
  cases r with
  | source slot =>
    rw [if_neg nofun, World.book?, World.book?, source?, source?, turned.sources]
  | machine n =>
    rw [World.book?, World.book?, turned.machine, Effect.machine?_apply]
    by_cases hn : n = m
    · rw [if_pos hn, if_pos (by rw [hn]), Option.map_some]
    · rw [if_neg hn, if_neg (by simpa using hn)]

/-- The book of a machine whose observers a turn leaves alone. -/
theorem World.Turned.book?_of_eq {cell' : MachineCell H} (turned : w.Turned m cell' e w')
    (found : w.machine? m = some cell) (observers : cell'.observers = cell.observers) :
    w'.book? r = (e.apply m w).book? r := by
  rw [turned.book?]
  split
  · next hr => rw [hr, World.book?, Effect.machine?_apply, found, Option.map_some, observers]
  · rfl

end Book?

theorem Turn.books {w w' : World H} {h h' : H} {m : MachineId} {d : Option Deed} {e : Effect H}
    {cell cell' : MachineCell H} {ctl ctl' : Control H} {pops pushes rest : List (Frame H)}
    (turn : Turn p w m d e ⟨cell, ctl, pops⟩ ⟨cell', ctl', pushes⟩)
    (found : w.machine? m = some cell) (turned : w.Turned m cell' e w') :
    Books ⟨w, h, ctl, pops ++ rest⟩ ⟨w', h', ctl', pushes ++ rest⟩ := by
  have book : w.book? (.machine m) = some cell.observers.book := by
    rw [World.book?, found, Option.map_some]
  -- a turn that neither touches the observers nor has an effect on a registry
  have same (observers : cell'.observers = cell.observers)
      (effect : ∀ q, (e.apply m w).book? q = w.book? q)
      (hung : ∀ s, (e.apply m w).hung s = w.hung s)
      (frames : ∀ s, pushes.flatMap (Frame.hung s) = pops.flatMap (Frame.hung s)) :
      Books ⟨w, h, ctl, pops ++ rest⟩ ⟨w', h', ctl', pushes ++ rest⟩ := by
    refine .of_same (fun q => ?_) (fun s => ?_) fun s => ?_
    · exact (turned.book?_of_eq found observers).trans (effect q)
    · rw [World.hung_congr turned.scopes, hung]
    · simp [frames]
  cases turn with
  | pin alive quiet call sheds =>
    exact same rfl (fun _ => rfl) (fun _ => rfl) fun _ => by rw [← sheds.hung]; rfl
  | observe live held quiet plain inert =>
    refine .of_add (q := .machine m) book live (fun r => ?_) (fun s => ?_) fun s => ?_
    · rw [turned.book?, Registry.book_add]
      rfl
    · exact (World.hung_congr turned.scopes).trans (World.hung_addTeardown live)
    · rw [List.flatMap_append, List.flatMap_append, flatMap_hung_of_isPlain inert]
      rfl
  | @unobserve _ a ctl' s number ts plain =>
    refine .remove (.machine m) number s ts (.unobserve m number) (List.mem_cons_self ..) rfl
      (fun r => ?_) (fun u e he => ?_) fun u e he => ?_
    · rw [turned.book?]
      split
      · next hr => rw [hr, book, Option.map_some, Registry.book_remove]
      · rfl
    · exact Config.hung_of_pop turned.scopes rfl rfl rfl he
    · exact Config.hung_pop turned.scopes rfl rfl rfl he
  | dismantled quiet plain =>
    refine .clear m (List.mem_cons_self ..) (fun r => ?_) fun s e => ?_
    · rw [turned.book?]
      split
      · next hr => rw [hr, book, Option.map_some]; rfl
      · rfl
    · rw [Config.hung, Config.hung, World.hung_congr turned.scopes]
      rfl
  | @subscribe _ r a route routes stage plain =>
    exact .of_register route.source.slot route.type a.scope (.route m route.source.id)
      (fun q => turned.book?_of_eq found rfl) (fun s => World.hung_congr turned.scopes) fun _ => rfl
  | hold held quiet plain inert =>
    exact same rfl (fun _ => rfl) (fun _ => rfl) fun _ => flatMap_hung_of_isPlain inert
  | drop held alive quiet plain inert =>
    exact same rfl (fun _ => rfl) (fun _ => rfl) fun _ => flatMap_hung_of_isPlain inert
  | dropLast held dead quiet inert =>
    refine same rfl (fun _ => rfl) (fun _ => rfl) fun _ => ?_
    rw [List.flatMap_cons, List.flatMap_cons, flatMap_hung_of_isPlain inert]
    rfl
  | unpin pin => exact same rfl (fun _ => rfl) (fun _ => rfl) fun _ => by cases pin <;> rfl
  | unpinLast pin => exact same rfl (fun _ => rfl) (fun _ => rfl) fun _ => by cases pin <;> rfl
  | enter enters =>
    refine same rfl (fun _ => World.book?_addScope) (fun s => ?_) fun _ => by cases enters <;> rfl
    exact congrArg (List.filterMap Teardown.undoes?) World.teardowns_addScope
  | signal live plain =>
    refine same rfl (fun _ => World.book?_addTeardown) (fun s => ?_) fun _ => rfl
    refine (World.hung_addTeardown live).trans ?_
    simp [Teardown.undoes?]
  | startFailed first =>
    refine same rfl (fun _ => rfl) (fun _ => rfl) fun _ => ?_
    rcases first with rfl | ⟨state, error, rfl⟩ <;> rfl
  | handOver pin =>
    refine same rfl (fun _ => rfl) (fun _ => rfl) fun _ => ?_
    rcases pin with rfl | rfl <;> rfl
  | unwind unwinds =>
    exact same rfl (fun _ => rfl) (fun _ => rfl) fun _ => by cases unwinds <;> rfl
  | unwindScope half =>
    refine same rfl (fun _ => rfl) (fun _ => rfl) fun _ => ?_
    rcases half with ⟨x, stage, rfl⟩ | ⟨a, rest, stage, rfl, _⟩ <;> rfl
  | _ => exact same rfl (fun _ => rfl) (fun _ => rfl) fun _ => rfl

theorem Move.books {c c' : Config H} (move : Move p c c') : Books c c' := by
  cases move with
  | idle pops pushes rest alike sheds quiet plain idle =>
    refine .of_same (fun q => ?_) (fun s => World.hung_congr alike.scopes) fun s => ?_
    · exact alike.book?
    · rw [List.flatMap_append, List.flatMap_append, sheds.hung]
  | collect frames inert =>
    refine .of_same (fun _ => rfl) (fun _ => rfl) fun s => ?_
    rw [List.flatMap_append, flatMap_hung_of_isPlain inert, List.nil_append]
  | look => exact .of_same (fun _ => rfl) (fun _ => rfl) fun _ => rfl
  | ask => exact .of_same (fun _ => rfl) (fun _ => rfl) fun _ => rfl
  | hear => exact .of_same (fun _ => rfl) (fun _ => rfl) fun _ => rfl
  | newScope frames plain inert =>
    refine .of_same (fun _ => World.book?_addScope) (fun s => ?_) fun s => ?_
    · exact congrArg (List.filterMap Teardown.undoes?) World.teardowns_addScope
    · rw [List.flatMap_append, flatMap_hung_of_isPlain inert, List.nil_append]
  | hang frames live plain inert =>
    refine .of_same (fun _ => World.book?_addTeardown) (fun s => ?_) fun s => ?_
    · rw [World.hung_addTeardown live]
      simp [Teardown.undoes?]
    · rw [List.flatMap_append, flatMap_hung_of_isPlain inert, List.nil_append]
  | callRelease frames external inert =>
    refine .of_same (fun _ => rfl) (fun _ => rfl) fun s => ?_
    rw [List.flatMap_append, flatMap_hung_of_isPlain inert, List.nil_append]
  | @release w h u rest live =>
    refine .same (fun _ => World.book?_modifyScope) fun s e => ?_
    simp only [Config.hung, List.flatMap_cons, Frame.hung, World.hung, World.teardowns_cancel live]
    by_cases hs : u = s
    · simp [hs]
    · simp [hs, Ne.symm hs]
  | @lose w h message s ts rest =>
    refine .lose (fun calm => calm _ rfl) (fun _ => rfl) (fun s e he => ?_) s ts rest rfl
      fun u e he => ?_
    · simp only [Config.hung, List.flatMap_cons, List.mem_append] at he ⊢
      exact he.imp_right .inr
    · simp only [Config.hung, List.flatMap_cons, List.mem_append] at he ⊢
      by_cases own : u = s
      · exact .inr own
      · rw [Frame.hung, if_neg (Ne.symm own)] at he
        exact .inl (he.imp_right fun inside => inside.resolve_left List.not_mem_nil)
  | listen frames plain inert =>
    refine .of_register _ _ _ _ (fun _ => rfl) (fun _ => rfl) fun s => ?_
    rw [List.flatMap_append, flatMap_hung_of_isPlain inert, List.nil_append]
  | @unlisten w h a slot number s ts ctl' rest plain =>
    refine .remove (.source slot) number s ts (.unlisten slot number) (List.mem_cons_self ..) rfl
      (fun r => ?_) (fun u e he => ?_) fun u e he => ?_
    · rw [World.book?_modifySource]
      split
      · next hr =>
        rw [hr, World.book?, Option.map_map]
        simp only [Registry.book_remove]
        rfl
      · rfl
    · exact Config.hung_of_pop (World.scopes_modifySource (w := w)) rfl rfl rfl he
    · exact Config.hung_pop (World.scopes_modifySource (w := w)) rfl rfl rfl he
  | @unobserveGone w w' h a m number s ts ctl' rest alike gone plain =>
    refine .remove (.machine m) number s ts (.unobserve m number) (List.mem_cons_self ..) rfl
      (fun r => ?_) (fun u e he => ?_) fun u e he => ?_
    · split
      · next hr => rw [alike.book?, hr, World.book?, gone]; rfl
      · exact alike.book?
    · exact Config.hung_of_pop alike.scopes rfl rfl rfl he
    · exact Config.hung_pop alike.scopes rfl rfl rfl he
  | @arm w h slot kind after token k ctl' rest frames plain inert =>
    have stack (s : ScopeId) :
        (frames ++ rest).flatMap (Frame.hung s) = rest.flatMap (Frame.hung s) := by
      rw [List.flatMap_append, flatMap_hung_of_isPlain inert, List.nil_append]
    unfold World.arm
    split
    · exact .of_same (fun _ => rfl) (fun _ => rfl) stack
    · split
      · exact .of_same (fun _ => rfl) (fun _ => rfl) stack
      · next live =>
        have live : w.isCancelled token = false := Bool.eq_false_iff.2 live
        refine .of_same (fun q => ?_) (fun s => ?_) stack
        · rw [World.book?_addTeardown]
          exact World.book?_modifySource_of_eq fun x => World.registry_modifyClock
        · refine (World.hung_addTeardown live).trans ?_
          simp [Teardown.undoes?]
  | disarm plain =>
    refine .of_same (fun _ => ?_) (fun _ => rfl) fun s => ?_
    · exact World.book?_modifySource_of_eq fun x => World.registry_modifyClock
    · rw [List.flatMap_cons, List.flatMap_cons, Frame.hung_releasing_cons rfl]
  | tick frames plain inert =>
    refine .of_same (fun _ => ?_) (fun _ => rfl) fun s => ?_
    · exact World.book?_modifySource_of_eq fun x => World.registry_modifyClock
    · rw [List.flatMap_append, flatMap_hung_of_isPlain inert]
      rfl
  | reached plain =>
    refine .of_same (fun _ => ?_) (fun _ => rfl) fun s => rfl
    exact World.book?_modifySource_of_eq fun x => World.registry_modifyClock
  | openStream frames plain inert =>
    refine .of_same (fun q => by cases q <;> rfl) (fun _ => rfl) fun s => ?_
    rw [List.flatMap_append, flatMap_hung_of_isPlain inert, List.nil_append]
  | read => exact .of_same (fun q => by cases q <;> rfl) (fun _ => rfl) fun _ => rfl
  | @start w w' h h' s m cell signal d rest frames new machine scopes sources streams blank inert =>
    obtain ⟨settings, manager, rfl⟩ := blank
    refine .make m new (fun r => ?_) fun s e => ?_
    · cases r with
      | source slot =>
        show (w'.source? slot).map _ = (w.source? slot).map _
        rw [World.source?, World.source?, sources]
      | machine n =>
        show (w'.machine? n).map _ = _
        rw [machine n]
        by_cases hn : n = m
        · rw [if_pos hn, if_pos (by rw [hn])]
          rfl
        · rw [if_neg hn, if_neg (by simpa using hn)]
          rfl
    · have stack : (Frame.collecting (.initial m) :: .starting m signal :: (frames ++ rest)).flatMap
          (Frame.hung s) = rest.flatMap (Frame.hung s) := by
        rw [List.flatMap_cons, List.flatMap_cons, List.flatMap_append,
          flatMap_hung_of_isPlain inert]
        rfl
      rw [Config.hung, Config.hung, World.hung_congr scopes, stack]
  | turn pops pushes rest found turn turned others => exact turn.books found turned

/-! ## Registrations and teardowns stay together -/

/-- A book is in order: the numbers of its entries increase, and the next one is still free. -/
structure Book.Ordered (b : Book) : Prop where
  increasing : (b.entries.map Prod.fst).Pairwise (· < ·)
  free {e : Nat × ScopeId} (he : e ∈ b.entries) : e.1 < b.next

namespace Book.Ordered

variable {b : Book}

theorem add (ordered : b.Ordered) {token : ScopeId} : (b.add token).Ordered where
  increasing := by
    simp only [Book.add, List.map_append, List.map_singleton]
    refine List.pairwise_append.2 ⟨ordered.increasing, List.pairwise_singleton .., ?_⟩
    intro n hn k hk
    obtain ⟨e, he, rfl⟩ := List.mem_map.1 hn
    rw [List.mem_singleton.1 hk]
    exact ordered.free he
  free he := by
    simp only [Book.add, List.mem_append, List.mem_singleton] at he ⊢
    rcases he with he | rfl
    · exact Nat.lt_succ_of_lt (ordered.free he)
    · exact Nat.lt_succ_self _

theorem remove (ordered : b.Ordered) {number : Nat} : (b.remove number).Ordered where
  increasing := ordered.increasing.sublist (List.filter_sublist.map _)
  free he := ordered.free (List.mem_filter.1 he).1

/-- A number stands for one entry. -/
theorem eq_of_number (ordered : b.Ordered) {e e' : Nat × ScopeId} (he : e ∈ b.entries)
    (he' : e' ∈ b.entries) (same : e.1 = e'.1) : e = e' :=
  List.inj_on_of_nodup_map (ordered.increasing.imp Nat.ne_of_lt) he he' same

theorem clear : b.clear.Ordered where
  increasing := .nil
  free he := absurd he List.not_mem_nil

end Book.Ordered

/-- Every teardown undoes a registration for its own scope, unless that is undone already. -/
structure Config.Owned (c : Config H) : Prop where
  ordered {q : Place} {b : Book} (found : c.world.book? q = some b) : b.Ordered
  owned {s : ScopeId} {q : Place} {n : Nat} (hung : (q, n) ∈ c.hung s) :
    ∃ b, c.world.book? q = some b ∧ n < b.next ∧ ∀ e ∈ b.entries, e.1 = n → e.2 = s

theorem Books.owned {c c' : Config H} (books : Books c c') (owned : c.Owned) : c'.Owned := by
  obtain ⟨ordered, owned⟩ := owned
  cases books with
  | same book hung =>
    refine ⟨fun found => ordered (book _ ▸ found), fun h => ?_⟩
    rw [book]
    exact owned ((hung _ _).1 h)
  | add q token b before live book hung =>
    refine ⟨fun {r b'} found => ?_, fun {s r n} h => ?_⟩
    · rw [book] at found
      split at found
      · cases found; exact (ordered before).add
      · exact ordered found
    · rw [book]
      rcases (hung _ _).1 h with h | ⟨rfl, h⟩
      · obtain ⟨b', found, lt, only⟩ := owned h
        split
        · next hr =>
          subst hr
          rw [before] at found
          cases found
          refine ⟨_, rfl, Nat.lt_succ_of_lt lt, fun e he hn => ?_⟩
          rcases List.mem_append.1 he with he | he
          · exact only e he hn
          · rw [List.mem_singleton.1 he] at hn
            exact absurd hn (Nat.ne_of_gt lt)
        · exact ⟨b', found, lt, only⟩
      · cases h
        rw [if_pos rfl]
        refine ⟨_, rfl, Nat.lt_succ_self _, fun e he hn => ?_⟩
        rcases List.mem_append.1 he with he | he
        · exact absurd hn (Nat.ne_of_lt ((ordered before).free he))
        · rw [List.mem_singleton.1 he]
  | remove q number s ts t top undoes book hung kept =>
    refine ⟨fun {r b'} found => ?_, fun {u r n} h => ?_⟩
    · rw [book] at found
      split at found
      · obtain ⟨b, hb, rfl⟩ := Option.map_eq_some_iff.1 found
        exact (ordered hb).remove
      · exact ordered found
    · obtain ⟨b, found, lt, only⟩ := owned (hung _ _ h)
      rw [book]
      split
      · exact ⟨b.remove number, by rw [found]; rfl, lt, fun e he => only e (List.mem_filter.1 he).1⟩
      · exact ⟨b, found, lt, only⟩
  | clear m top book hung =>
    refine ⟨fun {r b'} found => ?_, fun {u r n} h => ?_⟩
    · rw [book] at found
      split at found
      · obtain ⟨b, _, rfl⟩ := Option.map_eq_some_iff.1 found
        exact .clear
      · exact ordered found
    · obtain ⟨b, found, lt, only⟩ := owned ((hung _ _).1 h)
      rw [book]
      split
      · exact ⟨b.clear, by rw [found]; rfl, lt, fun e he => absurd he List.not_mem_nil⟩
      · exact ⟨b, found, lt, only⟩
  | make m new book hung =>
    refine ⟨fun {r b'} found => ?_, fun {u r n} h => ?_⟩
    · rw [book] at found
      split at found
      · cases found; exact ⟨.nil, fun he => absurd he List.not_mem_nil⟩
      · exact ordered found
    · obtain ⟨b, found, lt, only⟩ := owned ((hung _ _).1 h)
      have other : r ≠ .machine m := by
        rintro rfl
        rw [World.book?, new] at found
        cases found
      rw [book, if_neg other]
      exact ⟨b, found, lt, only⟩
  | lose panics book hung =>
    refine ⟨fun found => ordered (book _ ▸ found), fun h => ?_⟩
    rw [book]
    exact owned (hung _ _ h)

/-- If a registration that was there before hangs off its scope, it still does, unless a panic ends
the release of the scope. -/
theorem Books.covered_or_lost {c c' : Config H} (books : Books c c') {r : Place} {b' : Book}
    {e : Nat × ScopeId} (found : c'.world.book? r = some b') (he : e ∈ b'.entries)
    (before : ∀ b, c.world.book? r = some b → e ∈ b.entries → (r, e.1) ∈ c.hung e.2) :
    (r, e.1) ∈ c'.hung e.2 ∨
      ¬c.IsCalm ∧ ∃ ts rest, c.stack = .releasing e.2 ts :: rest := by
  cases books with
  | same book hung => exact .inl ((hung _ _).2 (before b' (book _ ▸ found) he))
  | add q token b here live book hung =>
    refine .inl ?_
    rw [book] at found
    rw [hung]
    split at found
    · next hr =>
      cases found
      rcases List.mem_append.1 he with he | he
      · exact .inl (before b (hr ▸ here) he)
      · rw [List.mem_singleton.1 he, hr]
        exact .inr ⟨rfl, rfl⟩
    · exact .inl (before b' found he)
  | remove q number s ts t top undoes book hung kept =>
    refine .inl ?_
    rw [book] at found
    split at found
    · obtain ⟨b, hb, rfl⟩ := Option.map_eq_some_iff.1 found
      obtain ⟨he, other⟩ := List.mem_filter.1 he
      rcases kept _ _ (before b hb he) with h | ⟨_, h⟩
      · exact h
      · cases h
        simp at other
    · next hr =>
      rcases kept _ _ (before b' found he) with h | ⟨_, h⟩
      · exact h
      · cases h
        exact absurd rfl hr
  | clear m top book hung =>
    rw [book] at found
    split at found
    · obtain ⟨b, _, rfl⟩ := Option.map_eq_some_iff.1 found
      exact absurd he List.not_mem_nil
    · exact .inl ((hung _ _).2 (before b' found he))
  | make m new book hung =>
    rw [book] at found
    split at found
    · cases found
      exact absurd he List.not_mem_nil
    · exact .inl ((hung _ _).2 (before b' found he))
  | lose panics book hung s ts rest top kept =>
    refine (kept _ _ (before b' (book r ▸ found) he)).imp id fun own => ?_
    exact ⟨panics, ts, rest, own ▸ top⟩

/-- Without a panic it still does. -/
theorem Books.covered_entry {c c' : Config H} (books : Books c c') (calm : c.IsCalm) {r : Place}
    {b' : Book} {e : Nat × ScopeId} (found : c'.world.book? r = some b') (he : e ∈ b'.entries)
    (before : ∀ b, c.world.book? r = some b → e ∈ b.entries → (r, e.1) ∈ c.hung e.2) :
    (r, e.1) ∈ c'.hung e.2 :=
  (books.covered_or_lost found he before).resolve_right fun lost => lost.1 calm

/-- A registration is made with a token that is known. -/
theorem Books.known {c c' : Config H} (books : Books c c') {r : Place} {b' : Book}
    {e : Nat × ScopeId} (found : c'.world.book? r = some b') (he : e ∈ b'.entries) :
    (∃ b, c.world.book? r = some b ∧ e ∈ b.entries) ∨ c.world.isCancelled e.2 = false := by
  cases books with
  | same book hung => exact .inl ⟨b', book _ ▸ found, he⟩
  | add q token b here live book hung =>
    rw [book] at found
    split at found
    · next hr =>
      cases found
      rcases List.mem_append.1 he with he | he
      · exact .inl ⟨b, hr ▸ here, he⟩
      · rw [List.mem_singleton.1 he]
        exact .inr live
    · exact .inl ⟨b', found, he⟩
  | remove q number s ts t top undoes book hung kept =>
    rw [book] at found
    split at found
    · obtain ⟨b, hb, rfl⟩ := Option.map_eq_some_iff.1 found
      exact .inl ⟨b, hb, (List.mem_filter.1 he).1⟩
    · exact .inl ⟨b', found, he⟩
  | clear m top book hung =>
    rw [book] at found
    split at found
    · obtain ⟨b, _, rfl⟩ := Option.map_eq_some_iff.1 found
      exact absurd he List.not_mem_nil
    · exact .inl ⟨b', found, he⟩
  | make m new book hung =>
    rw [book] at found
    split at found
    · cases found
      exact absurd he List.not_mem_nil
    · exact .inl ⟨b', found, he⟩
  | lose panics book hung => exact .inl ⟨b', book r ▸ found, he⟩

/-! ## Every instant of a run -/

namespace World.IsFresh

variable {w : World H}

theorem book? (fresh : w.IsFresh) {q : Place} {b : Book} (found : w.book? q = some b) :
    b.entries = [] := by
  cases q with
  | source slot =>
    obtain ⟨source, hs, rfl⟩ := Option.map_eq_some_iff.1 found
    rw [Registry.book, fresh.source? hs, List.map_nil]
  | machine m =>
    rw [World.book?, fresh.machine?] at found
    cases found

theorem hung (fresh : w.IsFresh) (s : ScopeId) : w.hung s = [] := by
  rw [World.hung, teardowns_eq]
  cases found : w.scope? s with
  | none => rfl
  | some cell => rw [Option.map_some, Option.getD_some, (fresh.scope? found).2]; rfl

end World.IsFresh

namespace Program.Run

variable {w : World H} {past : List (Config H)} {c : Config H}

theorem owned (run : p.Run w past c) : c.Owned := by
  induction run with
  | begin fresh host s =>
    refine ⟨fun found => ?_, fun hung => ?_⟩
    · have none := fresh.book? found
      exact ⟨by rw [none]; exact .nil, fun he => absurd he (by rw [none]; exact List.not_mem_nil)⟩
    · simp [Config.hung, fresh.hung] at hung
  | step run h ih => exact (run.move h).books.owned ih
  | resume run ended host s ih => exact ⟨ih.ordered, ih.owned⟩

end Program.Run

end ScopedMachine

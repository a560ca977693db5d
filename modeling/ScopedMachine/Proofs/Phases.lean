import Mathlib.Logic.Relation
import ScopedMachine.Proofs.Bodies
import ScopedMachine.Proofs.Nascence

/-!
# Phases that go through

An activity that sets off nothing else runs from its beginning to its end. `Program.Reaches` says from
where a program gets to where. One lemma for each phase of entering a state: its entry actions, its
subscriptions, and the release of the scope that was left, whose teardowns remove listeners.
-/

namespace ScopedMachine

variable {H : Type} {p : Program H}

/-! ## Getting somewhere -/

/-- One configuration leads to another in some number of steps. -/
def Program.Reaches (p : Program H) : Config H → Config H → Prop :=
  Relation.ReflTransGen fun c c' => p.step c = some c'

namespace Program.Reaches

variable {c c' c'' : Config H}

protected theorem refl (c : Config H) : p.Reaches c c := Relation.ReflTransGen.refl

theorem trans (first : p.Reaches c c') (next : p.Reaches c' c'') : p.Reaches c c'' :=
  Relation.ReflTransGen.trans first next

theorem head (step : p.step c = some c') (next : p.Reaches c' c'') : p.Reaches c c'' :=
  Relation.ReflTransGen.head step next

theorem single (step : p.step c = some c') : p.Reaches c c' := Relation.ReflTransGen.single step

end Program.Reaches

/-! ## Modest host code -/

/-- Host code that ends in such a way, and whose only calls register listeners on such sources. -/
inductive Script.Modest (sources : Nat → Prop) (ends : Except Fault Unit → Prop) :
    Script H → Prop where
  | done {r} (h : ends r) : Modest sources ends (.done r)
  | update {f next} (h : next.Modest sources ends) : Modest sources ends (.update f next)
  | look {k} (h : ∀ h v, (k h v).Modest sources ends) : Modest sources ends (.look k)
  | listen {slot kind handler token k} (plain : sources slot) (h : (k .unit).Modest sources ends) :
      Modest sources ends (.call (.listen slot kind handler token) k)

/-- Host code that makes no call and succeeds. -/
def Script.Minds (s : Script H) : Prop := s.Modest (fun _ => False) (· = .ok ())

/-- An entry action succeeds without a call. -/
def Directive.Minds (d : Directive (Entry H)) : Prop := ∀ a token, d = .entry a → (a token).Minds

namespace World

variable {w w' w'' : World H}

/-- Subscriptions to a source are not handed to host code. -/
def IsPlain (w : World H) (slot : Nat) : Prop :=
  ∀ f, (w.source? slot).map SourceCell.kind ≠ some (.hosted f)

/-- What host code does with a subscription is to register listeners. -/
def Minds (w : World H) : Prop :=
  ∀ slot f, (w.source? slot).map SourceCell.kind = some (.hosted f) →
    ∀ handler kind token, (f handler kind token).Modest w.IsPlain fun _ => True

/-- Listeners came or went, and nothing else happened that matters to a machine. -/
structure Rustles (w w' : World H) : Prop where
  machine? (m : MachineId) : w'.machine? m = w.machine? m
  header? (s : ScopeId) : w'.header? s = w.header? s
  kind (slot : Nat) : (w'.source? slot).map SourceCell.kind = (w.source? slot).map SourceCell.kind
  teardowns {s : ScopeId} {t : Teardown H} (mem : t ∈ w'.teardowns s) :
    t ∈ w.teardowns s ∨ ∃ slot number, t = .unlisten slot number

namespace Rustles

theorem refl (w : World H) : w.Rustles w := ⟨fun _ => rfl, fun _ => rfl, fun _ => rfl, .inl⟩

theorem trans (first : w.Rustles w') (next : w'.Rustles w'') : w.Rustles w'' where
  machine? m := (next.machine? m).trans (first.machine? m)
  header? s := (next.header? s).trans (first.header? s)
  kind slot := (next.kind slot).trans (first.kind slot)
  teardowns mem := (next.teardowns mem).elim first.teardowns .inr

theorem register {slot : Nat} {topic : String} {token : ScopeId} {l : Listener H} :
    w.Rustles (w.register slot topic token l) where
  machine? _ := machine?_register
  header? _ := header?_register
  kind i := by
    unfold World.register
    split
    · rfl
    · split
      · rfl
      · next source found live =>
        show ((w.modifySource slot _).source? i).map SourceCell.kind = _
        rw [source?_modifySource]
        split
        · cases w.source? i <;> rfl
        · rfl
  teardowns mem := by
    rcases mem_teardowns_register mem with old | ⟨number, new⟩
    · exact .inl old
    · exact .inr ⟨slot, number, new⟩

theorem unlisten {slot : Nat} {f : Registry (Listener H) → Registry (Listener H)} :
    w.Rustles (w.modifySource slot fun s => { s with registry := f s.registry }) where
  machine? _ := rfl
  header? _ := rfl
  kind i := by
    rw [source?_modifySource]
    split
    · cases w.source? i <;> rfl
    · rfl
  teardowns mem := .inl mem

theorem countRelease {s : ScopeId} : w.Rustles (w.countRelease s) := by
  unfold World.countRelease
  split
  · exact ⟨fun _ => rfl, fun _ => rfl, fun _ => rfl, .inl⟩
  · exact .refl w

theorem isPlain (rustles : w.Rustles w') {slot : Nat} : w'.IsPlain slot ↔ w.IsPlain slot := by
  rw [IsPlain, IsPlain, rustles.kind]

theorem minds (rustles : w.Rustles w') (minds : w.Minds) : w'.Minds := by
  intro slot f hosted handler kind token
  have plain : w'.IsPlain = w.IsPlain := funext fun slot => propext rustles.isPlain
  rw [plain]
  exact minds slot f (rustles.kind slot ▸ hosted) handler kind token

/-- A scope that was just made is live, and only listeners hang off it. -/
theorem acquired {m : MachineId} {manager : ManagerId}
    (rustles : (w.addScope (some m) (some manager)).2.Rustles w') :
    w'.header? ⟨w.scopes.size⟩ = some (false, some m) ∧
      ∀ t ∈ w'.teardowns ⟨w.scopes.size⟩, ∃ slot number, t = .unlisten slot number := by
  constructor
  · rw [rustles.header?, header?_addScope, if_pos rfl]
  · intro t mem
    refine (rustles.teardowns mem).resolve_left fun old => ?_
    rw [teardowns_addScope, teardowns_eq, scope?, Array.getElem?_size] at old
    cases old

end Rustles

end World

/-! ## Phases -/

section Phases

variable {w : World H} {h : H}

/-- Modest host code runs to its end. -/
theorem Script.Modest.reaches {ends : Except Fault Unit → Prop} {s : Script H}
    (modest : s.Modest w.IsPlain ends) :
    ∃ w' h' r, ends r ∧ w.Rustles w' ∧ ∀ rest,
      p.Reaches ⟨w, h, .run s, rest⟩ ⟨w', h', .give (.result r), rest⟩ := by
  generalize same : w.IsPlain = sources at modest
  induction modest generalizing w h with
  | done ends => exact ⟨w, h, _, ends, .refl w, fun rest => .single rfl⟩
  | @update f next _ ih =>
    obtain ⟨w', h', r, ends, rustles, reaches⟩ := ih (h := f h) same
    exact ⟨w', h', r, ends, rustles, fun rest => .head rfl (reaches rest)⟩
  | @look k _ ih =>
    obtain ⟨w', h', r, ends, rustles, reaches⟩ := ih h w.view same
    exact ⟨w', h', r, ends, rustles, fun rest => .head rfl (reaches rest)⟩
  | @listen slot kind handler token k plain _ ih =>
    subst same
    let w₁ := w.register slot kind token (.handler handler)
    have registers : w.Rustles w₁ := .register
    have same : w₁.IsPlain = w.IsPlain := funext fun slot => propext registers.isPlain
    obtain ⟨w', h', r, ends, rustles, reaches⟩ := ih (h := h) same
    refine ⟨w', h', r, ends, registers.trans rustles, fun rest => ?_⟩
    have registered : p.step ⟨w, h, .run (.call (.listen slot kind handler token) k), rest⟩ =
        some ⟨w₁, h, .give .unit, .await k :: rest⟩ := by
      simp only [Program.step, Program.call, Config.push]
      split
      · next f hosted => exact absurd hosted (plain f)
      · rfl
    have answered : p.step ⟨w₁, h, .give .unit, .await k :: rest⟩ =
        some ⟨w₁, h, .run (k .unit), rest⟩ := rfl
    exact .head registered (.head answered (reaches rest))

theorem Script.Modest.mono {sources sources' : Nat → Prop} {ends : Except Fault Unit → Prop}
    {s : Script H} (modest : s.Modest sources ends) (sub : ∀ slot, sources slot → sources' slot) :
    s.Modest sources' ends := by
  induction modest with
  | done ends => exact .done ends
  | update _ ih => exact .update ih
  | look _ ih => exact .look ih
  | listen plain _ ih => exact .listen (sub _ plain) ih

/-- The entry actions of a state run one after the other. -/
theorem Program.Reaches.acting {token : ScopeId} {actions : List (Entry H)}
    (minds : ∀ a ∈ actions, (a token).Minds) :
    ∃ w' h', w.Rustles w' ∧ ∀ state rest,
      p.Reaches ⟨w, h, .give (.result (.ok ())), .acting state token actions :: rest⟩
        ⟨w', h', .give (.entered (.ok ())), rest⟩ := by
  induction actions generalizing w h with
  | nil => exact ⟨w, h, .refl w, fun state rest => .single rfl⟩
  | cons a actions ih =>
    obtain ⟨mind, minds⟩ := List.forall_mem_cons.1 minds
    have modest : (a token).Modest w.IsPlain (· = .ok ()) := mind.mono fun _ none => none.elim
    obtain ⟨w₁, h₁, r, rfl, rustles, runs⟩ := modest.reaches (p := p) (h := h)
    obtain ⟨w', h', rustles', reaches⟩ := ih (w := w₁) (h := h₁) minds
    exact ⟨w', h', rustles.trans rustles', fun state rest =>
      .head rfl ((runs (.acting state token actions :: rest)).trans (reaches state rest))⟩

/-- The routes of an activation are subscribed one after the other. -/
theorem Program.Reaches.subscribing {m : MachineId} {a : Activation H} {routes : List Route}
    {r : Except Fault Unit} (minds : w.Minds) :
    ∃ w' h' r', w.Rustles w' ∧ ∀ stage rest,
      p.Reaches ⟨w, h, .give (.result r), .subscribing m a routes stage :: rest⟩
        ⟨w', h', .give (.result r'), .subscribing m a [] stage :: rest⟩ := by
  induction routes generalizing w h r with
  | nil => exact ⟨w, h, r, .refl w, fun stage rest => .refl _⟩
  | cons route routes ih =>
    by_cases plain : w.IsPlain route.source.slot
    · let w₁ := w.register route.source.slot route.type a.scope (.route m route.source.id)
      have registers : w.Rustles w₁ := .register
      obtain ⟨w', h', r', rustles, reaches⟩ := ih (h := h) (r := .ok ()) (registers.minds minds)
      refine ⟨w', h', r', registers.trans rustles, fun stage rest => .head ?_ (reaches stage rest)⟩
      simp only [Program.step, Program.resume, Config.subscribeNext, Config.push]
      split
      · next f hosted => exact absurd hosted (plain f)
      · rfl
    · obtain ⟨f, hosted⟩ := Classical.not_forall.1 plain
      have hosted := Classical.not_not.1 hosted
      have asks : ∃ handler, ∀ stage rest,
          p.step ⟨w, h, .give (.result r), .subscribing m a (route :: routes) stage :: rest⟩ =
            some ⟨w, h, .run (f handler route.type a.scope),
              .subscribing m a routes stage :: rest⟩ := by
        apply Exists.intro
        intro stage rest
        simp only [Program.step, Program.resume, Config.subscribeNext, Config.push]
        rw [hosted]
        rfl
      obtain ⟨handler, asks⟩ := asks
      have modest := minds _ f hosted handler route.type a.scope
      obtain ⟨w₁, h₁, r₁, _, rustles, runs⟩ := modest.reaches (p := p) (h := h)
      obtain ⟨w', h', r', rustles', reaches⟩ := ih (h := h₁) (r := r₁) (rustles.minds minds)
      refine ⟨w', h', r', rustles.trans rustles', fun stage rest => ?_⟩
      exact .head (asks stage rest)
        ((runs (.subscribing m a routes stage :: rest)).trans (reaches stage rest))

/-- The teardowns of a scope that remove listeners are performed one after the other. -/
theorem Program.Reaches.releasing {s : ScopeId} {ts : List (Teardown H)} {a : Answer}
    (loose : ∀ t ∈ ts, ∃ slot number, t = .unlisten slot number) :
    ∃ w', w.Rustles w' ∧ ∀ rest,
      p.Reaches ⟨w, h, .give a, .releasing s ts :: rest⟩ ⟨w', h, .give .unit, rest⟩ := by
  induction ts generalizing w a with
  | nil => exact ⟨w.countRelease s, .countRelease, fun rest => .single rfl⟩
  | cons t ts ih =>
    obtain ⟨⟨slot, number, rfl⟩, others⟩ := List.forall_mem_cons.1 loose
    obtain ⟨w', rustles, reaches⟩ := ih (a := .unit) others
    exact ⟨w', .trans .unlisten rustles, fun rest => .head rfl (reaches rest)⟩

/-- A scope whose teardowns remove listeners is released. -/
theorem Program.Reaches.release {s : ScopeId} {owner : Option MachineId}
    (live : w.header? s = some (false, owner))
    (loose : ∀ t ∈ w.teardowns s, ∃ slot number, t = .unlisten slot number) :
    ∃ w', (w.cancel s).Rustles w' ∧ ∀ rest,
      p.Reaches ⟨w, h, .release s, rest⟩ ⟨w', h, .give .unit, rest⟩ := by
  obtain ⟨w', rustles, reaches⟩ :=
    Program.Reaches.releasing (p := p) (w := w.cancel s) (h := h) (s := s) (a := .unit) loose
  refine ⟨w', rustles, fun rest => .head ?_ (reaches rest)⟩
  have open_ : w.isCancelled s = false := World.isCancelled_eq_false_iff.2 ⟨owner, live⟩
  simp only [Program.step, Config.performRelease, open_]
  rfl

/-- A state is entered with a new scope, up to where it is installed. -/
theorem Program.Reaches.activate {m : MachineId} {cell : MachineCell H} {x : Collected (Entry H)}
    (found : w.machine? m = some cell) (quiet : w.Minds) (minds : ∀ d ∈ x.directives, d.Minds) :
    ∃ w' h' r, (w.addScope (some m) (some cell.manager)).2.Rustles w' ∧ ∀ stage ctl rest,
      p.Reaches (Config.activate m x stage ⟨w, h, ctl, rest⟩)
        ⟨w', h', .give (.result r), .subscribing m
          ⟨x, .build x.directives, ⟨w.scopes.size⟩⟩ [] stage :: rest⟩ := by
  let w₀ := (w.addScope (some m) (some cell.manager)).2
  let a : Activation H := ⟨x, .build x.directives, ⟨w.scopes.size⟩⟩
  have actions : ∀ action ∈ x.actions, (action ⟨w.scopes.size⟩).Minds := by
    intro action mem
    obtain ⟨d, inside, same⟩ := List.mem_filterMap.1 mem
    cases d with
    | entry action' => cases same; exact minds _ inside action _ rfl
    | _ => cases same
  have quiet₀ : w₀.Minds := quiet
  obtain ⟨w₁, h₁, acts, acting⟩ := Program.Reaches.acting (p := p) (w := w₀) (h := h) actions
  obtain ⟨w', h', r, subscribes, subscribing⟩ :=
    Program.Reaches.subscribing (p := p) (m := m) (a := a) (h := h₁) (r := .ok ())
      (acts.minds quiet₀)
  refine ⟨w', h', r, acts.trans subscribes, fun stage ctl rest => ?_⟩
  rw [Config.activate_eq found]
  exact (acting _ _).trans (.head rfl (subscribing stage rest))

end Phases

end ScopedMachine

import ScopedMachine.Proofs.Phases
import ScopedMachine.Proofs.Rest

/-!
# Private code

The members of a family of machines each have data of their own: `own i` reads those of member `i`
off the host. Code is private to a member if it touches neither the engine nor the data of the
others. What it does is then a function of the member's data, and `Script.Performs` says which.

The lemmas on phases follow a machine whose entry actions and teardowns are private from one phase
of a transition to the next. They say what becomes of the data and of the teardowns, and that
everything that is not the machine's stays as it is.
-/

namespace ScopedMachine

variable {H D ι : Type} {p : Program H} {own : ι → H → D} {i : ι} {m : MachineId}

/-! ## Calm passages -/

/-- One configuration leads to another without a panic. -/
def Program.Leads (p : Program H) : Config H → Config H → Prop :=
  Relation.ReflTransGen fun c c' => c.IsCalm ∧ p.step c = some c'

namespace Program.Leads

variable {c c' c'' : Config H}

protected theorem refl (c : Config H) : p.Leads c c := Relation.ReflTransGen.refl

theorem trans (first : p.Leads c c') (next : p.Leads c' c'') : p.Leads c c'' :=
  Relation.ReflTransGen.trans first next

theorem head (steady : c.control.panics = false) (step : p.step c = some c')
    (next : p.Leads c' c'') : p.Leads c c'' :=
  Relation.ReflTransGen.head ⟨Config.isCalm_of_steady steady, step⟩ next

theorem single (steady : c.control.panics = false) (step : p.step c = some c') : p.Leads c c' :=
  Relation.ReflTransGen.single ⟨Config.isCalm_of_steady steady, step⟩

theorem reaches (leads : p.Leads c c') : p.Reaches c c' :=
  Relation.ReflTransGen.mono (fun _ _ h => h.2) c c' leads

end Program.Leads

/-- A calm passage makes a calm run longer. -/
theorem Program.Run.leads {w : World H} {past : List (Config H)} {c c' : Config H}
    (run : p.Run w past c) (calm : ∀ x ∈ past, x.IsCalm) (leads : p.Leads c c') :
    ∃ past', p.Run w past' c' ∧ ∀ x ∈ past', x.IsCalm := by
  induction leads with
  | refl => exact ⟨past, run, calm⟩
  | @tail x y _ step ih =>
    obtain ⟨past', run', calm'⟩ := ih
    refine ⟨past' ++ [x], run'.step step.2, fun z mem => ?_⟩
    rcases List.mem_append.1 mem with old | new
    · exact calm' z old
    · rw [List.mem_singleton.1 new]
      exact step.1

/-! ## What private code comes to -/

/-- Perform teardowns one after the other. -/
def tearDown (ts : List (D → D)) (d : D) : D := ts.foldl (fun d t => t d) d

/-- What a piece of private code comes to: the data afterwards, the teardowns that it leaves behind,
and how it ends. -/
structure Upshot (D : Type) where
  data : D
  teardowns : List (D → D)
  result : Except Fault Unit

namespace Upshot

/-- The data once the teardowns are over too. -/
def undone (u : Upshot D) : D := tearDown u.teardowns u.data

/-- Go on with other code, unless this one failed. -/
def andThen (u : Upshot D) (k : D → Upshot D) : Upshot D :=
  match u.result with
  | .ok () => { k u.data with teardowns := u.teardowns ++ (k u.data).teardowns }
  | .error _ => u

/-- What some pieces of code come to that run one after the other until one fails. -/
def all : List (D → Upshot D) → D → Upshot D
  | [], d => ⟨d, [], .ok ()⟩
  | act :: acts, d => (act d).andThen (all acts)

end Upshot

/-- Code touches nothing but the data of one member, and this is what it comes to. The token is the
one on which it may hang teardowns. -/
inductive Script.Performs (own : ι → H → D) (i : ι) :
    Option ScopeId → Script H → (D → Upshot D) → Prop where
  | done {token : Option ScopeId} {r : Except Fault Unit} :
      Performs own i token (.done r) fun d => ⟨d, [], r⟩
  | update {token : Option ScopeId} {f : H → H} {g : D → D} {next : Script H} {u : D → Upshot D}
      (mine : ∀ h, own i (f h) = g (own i h)) (others : ∀ h j, j ≠ i → own j (f h) = own j h)
      (goes : Performs own i token next u) :
      Performs own i token (.update f next) fun d => u (g d)
  | look {token : Option ScopeId} {k : H → View → Script H} {u : D → D → Upshot D}
      (goes : ∀ h v, Performs own i token (k h v) (u (own i h))) :
      Performs own i token (.look k) fun d => u d d
  | onCancel {token : ScopeId} {s : Script H} {k : Answer → Script H} {t u : D → Upshot D}
      (teardown : Performs own i none s t) (goes : Performs own i (some token) (k .unit) u) :
      Performs own i (some token) (.call (.onCancel token s) k) fun d =>
        { u d with teardowns := (fun d => (t d).data) :: (u d).teardowns }

/-- The teardowns that hang off a scope do this to the data; besides them there are listeners to be
removed. -/
inductive Tears (own : ι → H → D) (i : ι) : List (Teardown H) → List (D → D) → Prop where
  | nil : Tears own i [] []
  | unlisten {slot number : Nat} {ts : List (Teardown H)} {fs : List (D → D)}
      (rest : Tears own i ts fs) : Tears own i (.unlisten slot number :: ts) fs
  | run {s : Script H} {u : D → Upshot D} {ts : List (Teardown H)} {fs : List (D → D)}
      (performs : s.Performs own i none u) (rest : Tears own i ts fs) :
      Tears own i (.run s :: ts) ((fun d => (u d).data) :: fs)

namespace Tears

variable {ts ts' : List (Teardown H)} {fs fs' : List (D → D)}

theorem append (first : Tears own i ts fs) (next : Tears own i ts' fs') :
    Tears own i (ts ++ ts') (fs ++ fs') := by
  induction first with
  | nil => exact next
  | unlisten _ ih => exact .unlisten ih
  | run performs _ ih => exact .run performs ih

theorem concat_unlisten (tears : Tears own i ts fs) (slot number : Nat) :
    Tears own i (ts ++ [.unlisten slot number]) fs := by
  have last : Tears own i [.unlisten slot number] [] := .unlisten .nil
  rw [← List.append_nil fs]
  exact tears.append last

end Tears

/-! ## What stays as it is -/

/-- The data of one member became `d`, and those of the others stayed. -/
structure Writes (own : ι → H → D) (i : ι) (d : D) (h h' : H) : Prop where
  mine : own i h' = d
  others (j : ι) (other : j ≠ i) : own j h' = own j h

namespace Writes

variable {d d' : D} {h h' h'' : H}

theorem same (mine : own i h = d) : Writes own i d h h := ⟨mine, fun _ _ => rfl⟩

theorem refl (h : H) : Writes own i (own i h) h h := same rfl

theorem trans (first : Writes own i d h h') (next : Writes own i d' h' h'') :
    Writes own i d' h h'' :=
  ⟨next.mine, fun j other => (next.others j other).trans (first.others j other)⟩

end Writes

/-- The records of a program go elsewhere than to the data of the members. -/
def Program.IsMute (p : Program H) (own : ι → H → D) : Prop :=
  ∀ r h j, own j (p.subscriber r h) = own j h

/-- To hear of a record leaves all data as they are. -/
theorem Program.IsMute.writes (mute : p.IsMute own) (r : Record) (h : H) :
    Writes own i (own i h) h (p.subscriber r h) :=
  ⟨mute r h i, fun j _ => mute r h j⟩

theorem Writes.record {d : D} {h h' : H} (writes : Writes own i d h h') (mute : p.IsMute own)
    (r : Record) : Writes own i d h (p.subscriber r h') :=
  ⟨(mute r h' i).trans writes.mine, fun j other => (mute r h' j).trans (writes.others j other)⟩

namespace World

variable {w w' w'' : World H}

/-- Nothing happened but to the scopes of one machine and to its listeners. -/
structure Stirs (m : MachineId) (w w' : World H) : Prop where
  machine? (n : MachineId) : w'.machine? n = w.machine? n
  streams : w'.streams = w.streams
  scope? {s : ScopeId} {cell : ScopeCell H} (known : w.scope? s = some cell)
    (other : cell.owner ≠ some m) : w'.scope? s = some cell
  released {s : ScopeId} {owner : Option MachineId} (known : w.header? s = some (true, owner)) :
    w'.header? s = some (true, owner)
  kind (slot : Nat) : (w'.source? slot).map SourceCell.kind = (w.source? slot).map SourceCell.kind
  entry {slot : Nat} {r : Registration (Listener H)} (mem : r ∈ w'.entries slot) :
    r ∈ w.entries slot ∨ ∃ source, r.listener = .route m source

namespace Stirs

theorem refl (w : World H) : w.Stirs m w :=
  ⟨fun _ => rfl, rfl, fun known _ => known, id, fun _ => rfl, .inl⟩

theorem trans (first : w.Stirs m w') (next : w'.Stirs m w'') : w.Stirs m w'' where
  machine? n := (next.machine? n).trans (first.machine? n)
  streams := next.streams.trans first.streams
  scope? known other := next.scope? (first.scope? known other) other
  released known := next.released (first.released known)
  kind slot := (next.kind slot).trans (first.kind slot)
  entry mem := (next.entry mem).elim first.entry .inr

theorem isPlain (stirs : w.Stirs m w') {slot : Nat} (plain : w.IsPlain slot) : w'.IsPlain slot := by
  intro f
  rw [stirs.kind]
  exact plain f

/-- A scope of the machine changes, which is not undone when it was released. -/
theorem modifyScope {s : ScopeId} {b : Bool} {f : ScopeCell H → ScopeCell H}
    (mine : w.header? s = some (b, some m))
    (lasting : ∀ cell, cell.released = true → (f cell).header = cell.header) :
    w.Stirs m (w.modifyScope s f) where
  machine? _ := rfl
  streams := rfl
  scope? {t cell} known other := by
    rw [scope?_modifyScope, if_neg, known]
    rintro rfl
    rw [header?, known] at mine
    exact other (congrArg Prod.snd (Option.some.inj mine))
  released {t owner} known := by
    obtain ⟨cell, found, header⟩ := Option.map_eq_some_iff.1 known
    rw [header?, scope?_modifyScope]
    split
    · rw [found, Option.map_some, Option.map_some, lasting cell (congrArg Prod.fst header), header]
    · exact known
  kind _ := rfl
  entry mem := .inl mem

theorem addTeardown {s : ScopeId} {b : Bool} {t : Teardown H}
    (mine : w.header? s = some (b, some m)) : w.Stirs m (w.addTeardown s t) :=
  .modifyScope mine fun _ _ => rfl

/-- A scope is made. -/
theorem addScope {owner : Option MachineId} {manager : Option ManagerId} :
    w.Stirs m (w.addScope owner manager).2 where
  machine? _ := machine?_addScope
  streams := streams_addScope
  scope? {s cell} known _ := by
    have old : s.index < w.scopes.size := (Array.getElem?_eq_some_iff.1 known).1
    have same : (w.addScope owner manager).2.scope? s = w.scope? s := by
      cases manager <;>
        exact (Array.getElem?_push_lt old).trans (Array.getElem?_eq_getElem old).symm
    exact same.trans known
  released {s _} known := by
    rw [header?_addScope, if_neg, known]
    rintro rfl
    rw [header?_size] at known
    cases known
  kind _ := by rw [source?_addScope]
  entry mem := by
    refine .inl ?_
    rwa [World.entries, source?_addScope] at mem

/-- A listener is removed. -/
theorem unlisten {slot number : Nat} :
    w.Stirs m (w.modifySource slot fun s => { s with registry := s.registry.remove number }) where
  machine? _ := rfl
  streams := rfl
  scope? known _ := known
  released known := known
  kind i := by
    rw [source?_modifySource]
    split
    · cases w.source? i <;> rfl
    · rfl
  entry {i r} mem := by
    refine .inl ?_
    rw [entries_modifySource] at mem
    split at mem
    · next same =>
      subst same
      rw [World.entries]
      cases found : w.source? i with
      | none =>
        rw [found] at mem
        exact mem
      | some source =>
        rw [found] at mem
        exact List.mem_of_mem_filter mem
    · exact mem

theorem countRelease {s : ScopeId} : w.Stirs m (w.countRelease s) := by
  unfold World.countRelease
  split
  · exact ⟨fun _ => rfl, rfl, fun known _ => known, id, fun _ => rfl, .inl⟩
  · exact .refl w

end Stirs

/-- Hang teardowns on the token, if there is one. -/
def hang (token : Option ScopeId) (ts : List (Teardown H)) (w : World H) : World H :=
  match token with
  | none => w
  | some token => ts.foldl (fun w t => w.addTeardown token t) w

section Hang

variable {token : ScopeId} {ts us : List (Teardown H)}

theorem hang_append :
    w.hang (some token) (ts ++ us) = (w.hang (some token) ts).hang (some token) us :=
  List.foldl_append

theorem header?_hang {s : ScopeId} : (w.hang (some token) ts).header? s = w.header? s := by
  induction ts generalizing w with
  | nil => rfl
  | cons t ts ih => exact ih.trans header?_addTeardown

theorem isCancelled_hang {s : ScopeId} : (w.hang (some token) ts).isCancelled s = w.isCancelled s :=
  isCancelled_congr header?_hang

theorem teardowns_hang (live : w.isCancelled token = false) :
    (w.hang (some token) ts).teardowns token = w.teardowns token ++ ts := by
  induction ts generalizing w with
  | nil => exact (List.append_nil _).symm
  | cons t ts ih =>
    have still : (w.addTeardown token t).isCancelled token = false :=
      (isCancelled_congr header?_addTeardown).trans live
    refine (ih still).trans ?_
    rw [teardowns_addTeardown live, if_pos rfl, List.append_assoc]
    rfl

theorem Stirs.hang {b : Bool} (mine : w.header? token = some (b, some m)) :
    w.Stirs m (w.hang (some token) ts) := by
  induction ts generalizing w with
  | nil => exact .refl w
  | cons t ts ih =>
    exact (Stirs.addTeardown mine).trans (ih (header?_addTeardown.trans mine))

end Hang

end World

/-! ## Phases -/

section Phases

variable {w : World H} {h : H}

/-- Private code runs to its end. -/
theorem Script.Performs.leads {token : Option ScopeId} {s : Script H} {u : D → Upshot D}
    (performs : s.Performs own i token u) (live : ∀ t ∈ token, w.isCancelled t = false) :
    ∃ ts h', Tears own i ts (u (own i h)).teardowns ∧ Writes own i (u (own i h)).data h h' ∧
      ∀ rest, p.Leads ⟨w, h, .run s, rest⟩
        ⟨w.hang token ts, h', .give (.result (u (own i h)).result), rest⟩ := by
  induction performs generalizing w h with
  | @done token r =>
    refine ⟨[], h, .nil, .refl h, fun rest => ?_⟩
    have same : w.hang token [] = w := by cases token <;> rfl
    rw [same]
    exact .single rfl rfl
  | @update token f g next u mine others _ ih =>
    obtain ⟨ts, h', tears, writes, leads⟩ := ih (h := f h) live
    rw [mine] at tears writes leads
    have writes' : Writes own i _ h h' :=
      ⟨writes.mine, fun j other => (writes.others j other).trans (others h j other)⟩
    exact ⟨ts, h', tears, writes', fun rest => .head rfl rfl (leads rest)⟩
  | @look token k u _ ih =>
    obtain ⟨ts, h', tears, writes, leads⟩ := @ih h w.view w h live
    exact ⟨ts, h', tears, writes, fun rest => .head rfl rfl (leads rest)⟩
  | @onCancel token s k t u teardown _ _ ih =>
    have open_ : w.isCancelled token = false := live token rfl
    have live' : ∀ t ∈ some token, (w.addTeardown token (.run s)).isCancelled t = false := by
      intro t mem
      exact (World.isCancelled_congr World.header?_addTeardown).trans (live t mem)
    obtain ⟨ts, h', tears, writes, leads⟩ := ih (h := h) live'
    refine ⟨.run s :: ts, h', .run teardown tears, writes, fun rest => ?_⟩
    have hangs : p.step ⟨w, h, .run (.call (.onCancel token s) k), rest⟩ =
        some ⟨w.addTeardown token (.run s), h, .give .unit,
          .settling (.gave .unit) :: .await k :: rest⟩ := by
      simp only [Program.step, Program.call, Config.push, Config.onCancel, open_]
      rfl
    exact .head rfl hangs (.head rfl rfl (.head rfl rfl (leads rest)))

/-- Private entry actions run one after the other until one fails. -/
theorem Program.Leads.acting {token : ScopeId} {act : Entry H → D → Upshot D}
    {actions : List (Entry H)} (live : w.isCancelled token = false)
    (performs : ∀ a ∈ actions, (a token).Performs own i (some token) (act a)) :
    ∃ ts h', Tears own i ts (Upshot.all (actions.map act) (own i h)).teardowns ∧
      Writes own i (Upshot.all (actions.map act) (own i h)).data h h' ∧ ∀ state rest,
        p.Leads ⟨w, h, .give (.result (.ok ())), .acting state token actions :: rest⟩
          ⟨w.hang (some token) ts, h', .give (.entered
            ((Upshot.all (actions.map act) (own i h)).result.mapError (.entry state))), rest⟩ := by
  induction actions generalizing w h with
  | nil => exact ⟨[], h, .nil, .refl h, fun state rest => .single rfl rfl⟩
  | cons a actions ih =>
    obtain ⟨first, others⟩ := List.forall_mem_cons.1 performs
    obtain ⟨ts₁, h₁, tears₁, writes₁, runs⟩ :=
      first.leads (p := p) (w := w) (h := h) (fun t mem => Option.mem_some.1 mem ▸ live)
    rw [List.map_cons, Upshot.all, Upshot.andThen]
    cases ends : (act a (own i h)).result with
    | error e =>
      refine ⟨ts₁, h₁, tears₁, writes₁, fun state rest => ?_⟩
      rw [ends] at runs ⊢
      exact .head rfl rfl ((runs _).trans (.single rfl rfl))
    | ok =>
      rw [ends] at runs
      have live₁ : (w.hang (some token) ts₁).isCancelled token = false :=
        World.isCancelled_hang.trans live
      obtain ⟨ts₂, h₂, tears₂, writes₂, acts⟩ := ih (h := h₁) live₁ others
      rw [writes₁.mine] at tears₂ writes₂ acts
      refine ⟨ts₁ ++ ts₂, h₂, tears₁.append tears₂, writes₁.trans writes₂, fun state rest => ?_⟩
      rw [World.hang_append]
      exact .head rfl rfl ((runs _).trans (acts state rest))

/-- The teardowns of a scope are performed one after the other. -/
theorem Program.Leads.releasing {s : ScopeId} {ts : List (Teardown H)} {fs : List (D → D)}
    {a : Answer} (tears : Tears own i ts fs) :
    ∃ w' h', w.Stirs m w' ∧ w'.scopes = w.scopes ∧ Writes own i (tearDown fs (own i h)) h h' ∧
      ∀ rest, p.Leads ⟨w, h, .give a, .releasing s ts :: rest⟩ ⟨w', h', .give .unit, rest⟩ := by
  induction tears generalizing w h a with
  | nil =>
    have scopes : (w.countRelease s).scopes = w.scopes := by
      unfold World.countRelease
      split <;> rfl
    exact ⟨w.countRelease s, h, .countRelease, scopes, .refl h, fun rest => .single rfl rfl⟩
  | unlisten _ ih =>
    obtain ⟨w', h', stirs, scopes, writes, leads⟩ := ih (h := h) (a := .unit)
    exact ⟨w', h', .trans .unlisten stirs, scopes, writes, fun rest =>
      .head rfl rfl (leads rest)⟩
  | @run t u ts fs performs _ ih =>
    obtain ⟨_, h₁, _, writes₁, runs⟩ := performs.leads (p := p) (w := w) (h := h)
      fun _ mem => by cases mem
    obtain ⟨w', h', stirs, scopes, writes, leads⟩ := ih (w := w) (h := h₁)
      (a := .result (u (own i h)).result)
    rw [writes₁.mine] at writes
    exact ⟨w', h', stirs, scopes, writes₁.trans writes, fun rest =>
      .head rfl rfl ((runs _).trans (leads rest))⟩

/-- A scope of the machine is released. -/
theorem Program.Leads.release {s : ScopeId} {fs : List (D → D)}
    (live : w.header? s = some (false, some m)) (tears : Tears own i (w.teardowns s) fs) :
    ∃ w' h', w.Stirs m w' ∧ w'.header? s = some (true, some m) ∧
      Writes own i (tearDown fs (own i h)) h h' ∧
      ∀ rest, p.Leads ⟨w, h, .release s, rest⟩ ⟨w', h', .give .unit, rest⟩ := by
  obtain ⟨w', h', stirs, scopes, writes, leads⟩ :=
    Program.Leads.releasing (p := p) (m := m) (w := w.cancel s) (h := h) (s := s) (a := .unit) tears
  have cancels (cell : ScopeCell H) (released : cell.released = true) :
      ({ cell with released := true, teardowns := [] } : ScopeCell H).header = cell.header :=
    Prod.ext released.symm rfl
  refine ⟨w', h', World.Stirs.trans (.modifyScope live cancels) stirs, ?_, writes, fun rest =>
    .head rfl ?_ (leads rest)⟩
  · rw [World.header?_congr scopes, World.header?_cancel live, if_pos rfl]
  · have open_ : w.isCancelled s = false := World.isCancelled_eq_false_iff.2 ⟨_, live⟩
    simp only [Program.step, Config.performRelease, open_]
    rfl

/-- A route of the machine is subscribed to a source. -/
theorem World.Stirs.register {slot : Nat} {topic : String} {token : ScopeId} {source : SourceId}
    {b : Bool} (mine : w.header? token = some (b, some m)) :
    w.Stirs m (w.register slot topic token (.route m source)) where
  machine? _ := World.machine?_register
  streams := World.streams_register
  scope? known other := by
    unfold World.register
    split
    · exact known
    · split
      · exact known
      · exact (World.Stirs.addTeardown (w := w.modifySource slot _) mine).scope? known other
  released known := World.header?_register.trans known
  kind := (World.Rustles.register (w := w)).kind
  entry {j r} mem := by
    rcases World.entries_register with ⟨same, _⟩ | ⟨_, _, _, new⟩
    · exact .inl (same j ▸ mem)
    · rw [new] at mem
      split at mem
      · rcases List.mem_append.1 mem with old | added
        · exact .inl old
        · rw [List.mem_singleton.1 added]
          exact .inr ⟨source, rfl⟩
      · exact .inl mem

theorem Tears.addTeardown {slot number : Nat} {token : ScopeId} {fs : List (D → D)}
    (tears : Tears own i (w.teardowns token) fs) (live : w.isCancelled token = false) :
    Tears own i ((w.addTeardown token (.unlisten slot number)).teardowns token) fs := by
  rw [World.teardowns_addTeardown live, if_pos rfl]
  exact tears.concat_unlisten slot number

theorem Tears.register {slot : Nat} {topic : String} {token : ScopeId} {l : Listener H}
    {fs : List (D → D)} (tears : Tears own i (w.teardowns token) fs) :
    Tears own i ((w.register slot topic token l).teardowns token) fs := by
  unfold World.register
  split
  · exact tears
  · split
    · exact tears
    · next source found live =>
      exact Tears.addTeardown (w := w.modifySource slot _) tears (Bool.eq_false_iff.2 live)

/-- The routes of an activation are subscribed one after the other. -/
theorem Program.Leads.subscribing {a : Activation H} {r : Except Fault Unit} {fs : List (D → D)}
    (routes : List Route) (plain : ∀ slot, w.IsPlain slot)
    (live : w.header? a.scope = some (false, some m))
    (tears : Tears own i (w.teardowns a.scope) fs) :
    ∃ w' r', w.Stirs m w' ∧ w'.header? a.scope = some (false, some m) ∧
      Tears own i (w'.teardowns a.scope) fs ∧ ∀ stage rest,
        p.Leads ⟨w, h, .give (.result r), .subscribing m a routes stage :: rest⟩
          ⟨w', h, .give (.result r'), .subscribing m a [] stage :: rest⟩ := by
  induction routes generalizing w r with
  | nil => exact ⟨w, r, .refl w, live, tears, fun stage rest => .refl _⟩
  | cons route routes ih =>
    let w₁ := w.register route.source.slot route.type a.scope (.route m route.source.id)
    have registers : w.Stirs m w₁ := .register live
    obtain ⟨w', r', stirs, live', tears', leads⟩ := ih (w := w₁) (r := .ok ())
      (fun slot => registers.isPlain (plain slot)) (World.header?_register.trans live)
      tears.register
    refine ⟨w', r', registers.trans stirs, live', tears', fun stage rest =>
      .head rfl ?_ (leads stage rest)⟩
    simp only [Program.step, Program.resume, Config.subscribeNext, Config.push]
    split
    · next f hosted => exact absurd hosted (plain _ f)
    · rfl

/-- A state is entered with a new scope. If all entry actions succeed it is about to be installed.
If one fails the scope has been released. -/
theorem Program.Leads.activate {cell : MachineCell H} {x : Collected (Entry H)}
    {act : Entry H → D → Upshot D} (found : w.machine? m = some cell)
    (plain : ∀ slot, w.IsPlain slot)
    (performs : ∀ a ∈ x.actions, ∀ token, (a token).Performs own i (some token) (act a)) :
    let u := Upshot.all (x.actions.map act) (own i h)
    ∃ w' h', w.Stirs m w' ∧
      ((u.result = .ok () ∧ Writes own i u.data h h' ∧ ∃ a : Activation H, a.collected = x ∧
          a.routes = .build x.directives ∧ w'.header? a.scope = some (false, some m) ∧
          Tears own i (w'.teardowns a.scope) u.teardowns ∧
          ∃ r, ∀ stage ctl rest, p.Leads (Config.activate m x stage ⟨w, h, ctl, rest⟩)
            ⟨w', h', .give (.result r), .subscribing m a [] stage :: rest⟩) ∨
        ∃ e, u.result = .error e ∧ Writes own i u.undone h h' ∧
          ∀ stage ctl rest, p.Leads (Config.activate m x stage ⟨w, h, ctl, rest⟩)
            ⟨w', h', .give .unit, .abandoning m x.name (.entry x.name e) stage :: rest⟩) := by
  intro u
  let s : ScopeId := ⟨w.scopes.size⟩
  let w₀ := (w.addScope (some m) (some cell.manager)).2
  have made : w.Stirs m w₀ := .addScope
  have live₀ : w₀.header? s = some (false, some m) := by rw [World.header?_addScope, if_pos rfl]
  have bare : w₀.teardowns s = [] := by
    rw [World.teardowns_addScope, World.teardowns_eq, World.scope?, Array.getElem?_size]
    rfl
  obtain ⟨ts, h₁, tears, writes, acts⟩ := Program.Leads.acting (p := p) (w := w₀) (h := h)
    (World.isCancelled_eq_false_iff.2 ⟨_, live₀⟩) fun a mem => performs a mem s
  let w₁ := w₀.hang (some s) ts
  have stirs₁ : w.Stirs m w₁ := made.trans (.hang live₀)
  have live₁ : w₁.header? s = some (false, some m) := World.header?_hang.trans live₀
  have hung : w₁.teardowns s = ts := by
    rw [World.teardowns_hang (World.isCancelled_eq_false_iff.2 ⟨_, live₀⟩), bare]
    rfl
  cases ends : u.result with
  | ok =>
    let a : Activation H := ⟨x, .build x.directives, s⟩
    obtain ⟨w', r, subscribes, live', tears', subscribing⟩ :=
      Program.Leads.subscribing (p := p) (w := w₁) (h := h₁) (a := a) (r := .ok ()) a.routes.routes
        (fun slot => stirs₁.isPlain (plain slot)) live₁ (hung.symm ▸ tears)
    refine ⟨w', h₁, stirs₁.trans subscribes, .inl ⟨rfl, writes, a, rfl, rfl, live', tears', r,
      fun stage ctl rest => ?_⟩⟩
    rw [Config.activate_eq found]
    have acted := acts x.name (.activating m x s stage :: rest)
    rw [show (Upshot.all (x.actions.map act) (own i h)).result = .ok () from ends] at acted
    exact acted.trans (.head rfl rfl (subscribing stage rest))
  | error e =>
    obtain ⟨w', h', releases, _, writes', released⟩ :=
      Program.Leads.release (p := p) (h := h₁) live₁ (hung.symm ▸ tears)
    rw [writes.mine] at writes'
    refine ⟨w', h', stirs₁.trans releases, .inr ⟨e, rfl, writes.trans writes',
      fun stage ctl rest => ?_⟩⟩
    rw [Config.activate_eq found]
    have acted := acts x.name (.activating m x s stage :: rest)
    rw [show (Upshot.all (x.actions.map act) (own i h)).result = .error e from ends] at acted
    exact acted.trans (.head rfl rfl (released _))

end Phases

end ScopedMachine

import ScopedMachine.Proofs.Bodies

/-!
# Delegation is inlining

A definition that is continued as yields what it would yield alone, in place: the frames around it
matter only to the search for cycles, and the limit only as far as room is left.
`Program.delegate_within` compares the two collections step by step. It is stated for two programs
whose bodies run alike, and for a collection with more room than the other one has.
-/

namespace ScopedMachine

variable {H : Type}

/-! ## Bodies that run alike -/

/-- Two results are both values, or both errors. -/
inductive Concur {ε α β : Type} (V : α → β → Prop) (E : ε → ε → Prop) :
    Except ε α → Except ε β → Prop where
  | ok {a : α} {b : β} (values : V a b) : Concur V E (.ok a) (.ok b)
  | error {e e' : ε} (errors : E e e') : Concur V E (.error e) (.error e')

/-- Two results that carry no value are both successes, or both errors. -/
abbrev Concurs {ε : Type} (E : ε → ε → Prop) : Except ε Unit → Except ε Unit → Prop :=
  Concur (fun _ _ => True) E

/-- Two bodies yield and continue in the same way, and do nothing else. What the errors of their
delegates say makes no difference but to what their own errors say. -/
inductive Body.Alike (D : Directive (Entry H) → Directive (Entry H) → Prop)
    (E : DefinitionError → DefinitionError → Prop) (F : Fault → Fault → Prop) :
    Body H → Body H → Prop where
  | finish {r r' : Except Fault Unit} (ends : Concurs F r r') : Alike D E F (.finish r) (.finish r')
  | yield {d d' : Directive (Entry H)} {next next' : Body H} (directives : D d d')
      (rest : next.Alike D E F next') : Alike D E F (.yield d next) (.yield d' next')
  | continueAs {target : Definition} {k k' : Except DefinitionError Unit → Body H}
      (answers : ∀ r r', Concurs E r r' → (k r).Alike D E F (k' r')) :
      Alike D E F (.continueAs target k) (.continueAs target k')

/-- A body does nothing but yield and continue, and does not look at what errors say. -/
def Body.IsPure (b : Body H) : Prop := b.Alike Eq (fun _ _ => True) (fun _ _ => True) b

/-- All declared bodies are pure. -/
def Program.IsPure (p : Program H) : Prop := ∀ key, (p.declared key).IsPure

theorem Program.IsPure.body {p : Program H} (pure : p.IsPure) (d : Definition) :
    (p.body d).IsPure := by
  cases d with
  | shared key | fresh key => exact pure key
  | renamed name target =>
    refine .continueAs fun r r' same => .finish ?_
    cases same with
    | ok => exact .ok trivial
    | error => exact .error trivial

theorem Collector.leave_eq {c : Collector H} {parent : BodyFrame} {outer : List BodyFrame}
    (split : c.outer = parent :: outer) (succeeded : Bool) :
    c.leave succeeded = ⟨c.directives,
      { parent with
        delegates :=
          if succeeded then parent.delegates ++ [c.frame.resolve] else parent.delegates }, outer⟩ := by
  rw [leave, split]

theorem Gather.exists_of_bind {α β : Type} {g : Gather H α} {f : α → Gather H β} {b : β}
    (runs : g.bind f = .done b) : ∃ a, g = .done a ∧ f a = .done b := by
  cases g with
  | done a => exact ⟨a, rfl, runs⟩
  | perform | look => cases runs

namespace Program

variable {p : Program H} {limit room : Nat} {d : Definition} {c c' : Collector H}

theorem delegate_of_running (running : c.isRunning d = true) :
    p.delegate limit room d c = .done (c, .error (.cycle (c.names ++ [d.name]))) := by
  unfold delegate
  rw [if_pos running]

theorem delegate_zero (free : c.isRunning d = false) :
    p.delegate limit 0 d c = .done (c, .error (.tooDeep d.name limit)) := by
  unfold delegate
  rw [free]
  rfl

theorem delegate_of_ok (free : c.isRunning d = false)
    (runs : (p.body d).follow (p.delegate limit room) (c.enter d) = .done (c', .ok ())) :
    p.delegate limit (room + 1) d c = .done (c'.leave true, .ok ()) := by
  unfold delegate
  rw [free]
  simp only [Bool.false_eq_true, if_false, runs]
  rfl

theorem delegate_of_error (free : c.isRunning d = false) {f : Fault}
    (runs : (p.body d).follow (p.delegate limit room) (c.enter d) = .done (c', .error f)) :
    p.delegate limit (room + 1) d c = .done (c'.leave false, .error (.ofBody d.name f)) := by
  unfold delegate
  rw [free]
  simp only [Bool.false_eq_true, if_false, runs]
  rfl

/-- A definition that was continued as with success had room, and its body was followed to a
success. -/
theorem exists_of_delegate (runs : p.delegate limit room d c = .done (c', .ok ())) :
    ∃ n c₁, room = n + 1 ∧ c.isRunning d = false ∧
      (p.body d).follow (p.delegate limit n) (c.enter d) = .done (c₁, .ok ()) ∧
      c' = c₁.leave true := by
  cases free : c.isRunning d with
  | true => cases (delegate_of_running free).symm.trans runs
  | false =>
    cases room with
    | zero => cases (delegate_zero free).symm.trans runs
    | succ n =>
      unfold delegate at runs
      rw [free] at runs
      obtain ⟨⟨c₁, r⟩, inside, back⟩ := Gather.exists_of_bind runs
      cases r with
      | error => cases back
      | ok =>
        cases back
        exact ⟨n, c₁, rfl, rfl, inside, rfl⟩

theorem collect_of_ok
    (runs : (p.body d).follow (p.delegate limit limit) (.root d) = .done (c, .ok ())) :
    p.collect limit d = .done (.ok c.finish) :=
  congrArg (Gather.map _) runs

theorem collect_of_error {f : Fault}
    (runs : (p.body d).follow (p.delegate limit limit) (.root d) = .done (c, .error f)) :
    p.collect limit d = .done (.error (.ofBody d.name f)) :=
  congrArg (Gather.map _) runs

/-- A successful collection followed the body to a success. -/
theorem exists_of_collect {x : Collected (Entry H)}
    (collects : p.collect limit d = .done (.ok x)) :
    ∃ i, (p.body d).follow (p.delegate limit limit) (.root d) = .done (i, .ok ()) ∧
      x = i.finish := by
  obtain ⟨⟨i, r⟩, runs, ends⟩ := Gather.exists_of_bind collects
  cases r with
  | ok => cases ends; exact ⟨i, runs, rfl⟩
  | error => cases ends

end Program

/-! ## Collectors within others -/

/-- Whether one of some frames is that of the body of a definition. -/
def Definition.isAmong (fs : List BodyFrame) (d : Definition) : Bool :=
  match d.identity? with
  | none => false
  | some key => fs.any fun f => f.identity? == some key

/-- The collector `c` does what `i` does, inside some frames and after some directives. -/
structure Collector.Within (D : Directive (Entry H) → Directive (Entry H) → Prop)
    (ds : List (Directive (Entry H))) (fs : List BodyFrame) (i c : Collector H) : Prop where
  directives : ∃ own, c.directives = ds ++ own ∧ List.Forall₂ D i.directives own
  frame : c.frame = i.frame
  outer : c.outer = i.outer ++ fs

namespace Collector.Within

variable {D : Directive (Entry H) → Directive (Entry H) → Prop} {ds : List (Directive (Entry H))}
  {fs : List BodyFrame} {i c : Collector H}

/-- A definition that is entered begins as it does alone. -/
theorem enter_root (d : Definition) : Within D c.directives c.frames (.root d) (c.enter d) where
  directives := ⟨[], (List.append_nil _).symm, .nil⟩
  frame := rfl
  outer := rfl

theorem push {d d' : Directive (Entry H)} (within : Within D ds fs i c) (same : D d d') :
    Within D ds fs (i.push d) (c.push d') where
  directives := by
    obtain ⟨own, split, alike⟩ := within.directives
    refine ⟨own ++ [d'], ?_, List.rel_append alike (.cons same .nil)⟩
    rw [Collector.push, split, List.append_assoc]
  frame := by rw [Collector.push, Collector.push, within.frame]
  outer := within.outer

theorem enter (within : Within D ds fs i c) (d : Definition) :
    Within D ds fs (i.enter d) (c.enter d) where
  directives := within.directives
  frame := rfl
  outer := by simp only [Collector.enter, frames, within.frame, within.outer, List.cons_append]

theorem leave (within : Within D ds fs i c) (inner : i.outer ≠ []) (succeeded : Bool) :
    Within D ds fs (i.leave succeeded) (c.leave succeeded) := by
  obtain ⟨directives, frame, outer⟩ := within
  cases split : i.outer with
  | nil => exact absurd split inner
  | cons parent rest =>
    rw [split] at outer
    rw [leave_eq outer, leave_eq split, frame]
    exact ⟨directives, rfl, rfl⟩

theorem isRunning (within : Within D ds fs i c) (d : Definition) :
    c.isRunning d = (i.isRunning d || d.isAmong fs) := by
  have split : c.frames = i.frames ++ fs := by
    rw [frames, frames, within.frame, within.outer, List.cons_append]
  unfold Collector.isRunning Definition.isAmong
  cases d.identity? with
  | none => rfl
  | some key => exact (congrArg (List.any · _) split).trans List.any_append

end Collector.Within

/-! ## What a collection continues as -/

/-- In its course a body continues as a definition, the collector being `c'` then. -/
inductive Body.Asks
    (delegate : Definition → Collector H → Gather H (Collector H × Except DefinitionError Unit)) :
    Body H → Collector H → Definition → Collector H → Prop where
  | here {target : Definition} {k : Except DefinitionError Unit → Body H} {c : Collector H} :
      Asks delegate (.continueAs target k) c target c
  | later {first target : Definition} {k : Except DefinitionError Unit → Body H}
      {c c' : Collector H} {x : Collector H × Except DefinitionError Unit}
      (answered : delegate first c = .done x) (rest : (k x.2).Asks delegate x.1 target c') :
      Asks delegate (.continueAs first k) c target c'
  | yield {d : Directive (Entry H)} {next : Body H} {target : Definition} {c c' : Collector H}
      (rest : next.Asks delegate (c.push d) target c') :
      Asks delegate (.yield d next) c target c'

/-- Continuing as `d` with so much room comes, at any depth, to continuing as `e`, with the collector
`c'` and with `left` of the room. -/
inductive Program.Meets (p : Program H) (limit : Nat) :
    Nat → Definition → Collector H → Nat → Definition → Collector H → Prop where
  | here {room : Nat} {d : Definition} {c : Collector H} : Meets p limit room d c room d c
  | inside {room left : Nat} {d target e : Definition} {c c' c'' : Collector H}
      (free : c.isRunning d = false)
      (asks : (p.body d).Asks (p.delegate limit room) (c.enter d) target c')
      (meets : p.Meets limit room target c' left e c'') :
      Meets p limit (room + 1) d c left e c''

/-! ## The comparison -/

section Within

variable {D : Directive (Entry H) → Directive (Entry H) → Prop}
  {E : DefinitionError → DefinitionError → Prop} {F : Fault → Fault → Prop} {p q : Program H}
  {ds : List (Directive (Entry H))} {fs : List BodyFrame} {limit limit' room gap : Nat}

/-- What is so when `q` continues as `e` with so much room left: none of the frames around is that of
`e`, and the limit is not met where `p`, which has more room, does not meet it. -/
def Program.Alongside (E : DefinitionError → DefinitionError → Prop) (fs : List BodyFrame)
    (limit limit' gap left : Nat) (e : Definition) (c : Collector H) : Prop :=
  e.isAmong fs = false ∧
    (left = 0 → c.isRunning e = false →
      gap = 0 ∧ E (.tooDeep e.name limit) (.tooDeep e.name limit'))

/-- Two computations are over, and they did the same. -/
def Gather.Tallies {ε : Type} (D : Directive (Entry H) → Directive (Entry H) → Prop)
    (R : ε → ε → Prop) (ds : List (Directive (Entry H))) (fs : List BodyFrame)
    (outer : List BodyFrame) (g g' : Gather H (Collector H × Except ε Unit)) : Prop :=
  ∃ x x', g = .done x ∧ g' = .done x' ∧ x.1.Within D ds fs x'.1 ∧ Concurs R x.2 x'.2 ∧
    x.1.outer = outer

/-- Bodies that run alike are followed alike if their delegates are. -/
theorem Body.Alike.follow {b b' : Body H} (alike : b.Alike D E F b') {i c : Collector H}
    (within : i.Within D ds fs c)
    (met : ∀ {target c'}, b'.Asks (q.delegate limit' room) c target c' →
      ∀ {left e c''}, q.Meets limit' room target c' left e c'' →
        Program.Alongside E fs limit limit' gap left e c'')
    (delegates : ∀ {target i c}, i.Within D ds fs c →
      (∀ {left e c'}, q.Meets limit' room target c left e c' →
        Program.Alongside E fs limit limit' gap left e c') →
      Gather.Tallies D E ds fs i.outer (p.delegate limit (room + gap) target i)
        (q.delegate limit' room target c)) :
    Gather.Tallies D F ds fs i.outer (b.follow (p.delegate limit (room + gap)) i)
      (b'.follow (q.delegate limit' room) c) := by
  induction alike generalizing i c with
  | finish ends => exact ⟨_, _, rfl, rfl, within, ends, rfl⟩
  | yield directives rest ih => exact ih (within.push directives) fun asks => met (.yield asks)
  | continueAs answers ih =>
    obtain ⟨⟨i₁, r⟩, ⟨c₁, r'⟩, runs, runs', within₁, agree, outer⟩ :=
      delegates within (met .here)
    rw [Body.follow, Body.follow, runs, runs', ← show i₁.outer = i.outer from outer]
    exact ih r r' agree within₁ fun asks => met (.later runs' asks)

/-- A definition that is continued as does what it does alone, unless it comes to a body that is
running around it, or there is less room where room is needed. -/
theorem Program.delegate_within (alike : ∀ d, (p.body d).Alike D E F (q.body d))
    (cycles : ∀ chain chain', E (.cycle chain) (.cycle chain'))
    (bodies : ∀ name f f', F f f' → E (.ofBody name f) (.ofBody name f')) {d : Definition}
    {i c : Collector H} (within : i.Within D ds fs c)
    (met : ∀ {left e c'}, q.Meets limit' room d c left e c' →
      Alongside E fs limit limit' gap left e c') :
    Gather.Tallies D E ds fs i.outer (p.delegate limit (room + gap) d i)
      (q.delegate limit' room d c) := by
  have running := within.isRunning d
  rw [(met .here).1, Bool.or_false] at running
  induction room generalizing d i c with
  | zero =>
    cases cyclic : i.isRunning d with
    | true =>
      exact ⟨_, _, delegate_of_running cyclic, delegate_of_running (running.trans cyclic), within,
        .error (cycles _ _), rfl⟩
    | false =>
      obtain ⟨rfl, deep⟩ := (met .here).2 rfl (running.trans cyclic)
      exact ⟨_, _, delegate_zero cyclic, delegate_zero (running.trans cyclic), within, .error deep,
        rfl⟩
  | succ room ih =>
    rw [Nat.succ_add]
    cases cyclic : i.isRunning d with
    | true =>
      exact ⟨_, _, delegate_of_running cyclic, delegate_of_running (running.trans cyclic), within,
        .error (cycles _ _), rfl⟩
    | false =>
      have running := running.trans cyclic
      have delegates {target : Definition} {i c : Collector H} (within : i.Within D ds fs c)
          (met : ∀ {left e c'}, q.Meets limit' room target c left e c' →
            Alongside E fs limit limit' gap left e c') :
          Gather.Tallies D E ds fs i.outer (p.delegate limit (room + gap) target i)
            (q.delegate limit' room target c) := by
        have same := within.isRunning target
        rw [(met .here).1, Bool.or_false] at same
        exact ih within met same
      obtain ⟨⟨i', r⟩, ⟨c', r'⟩, runs, runs', within', agree, outer⟩ :=
        (alike d).follow (within.enter d)
          (fun asks _ _ _ meets => met (.inside running asks meets)) delegates
      have outer : i'.outer = i.frame :: i.outer := outer
      have inner : i'.outer ≠ [] := by
        rw [outer]
        exact List.cons_ne_nil _ _
      have back (succeeded : Bool) : (i'.leave succeeded).outer = i.outer := by
        rw [Collector.leave_eq outer]
      cases agree with
      | ok =>
        exact ⟨_, _, delegate_of_ok cyclic runs, delegate_of_ok running runs',
          within'.leave inner true, .ok trivial, back true⟩
      | error faults =>
        exact ⟨_, _, delegate_of_error cyclic runs, delegate_of_error running runs',
          within'.leave inner false, .error (bodies _ _ _ faults), back false⟩

end Within

/-! ## Continuing from any collector -/

theorem Gather.bind_congr {α β : Type} {S : Script H → Prop} {Q : α → Prop} {g : Gather H α}
    {f f' : α → Gather H β} (keeps : g.Keeps S Q) (same : ∀ a, Q a → f a = f' a) :
    g.bind f = g.bind f' := by
  induction g with
  | done a => exact same a keeps
  | perform s k ih => exact congrArg (Gather.perform s) (funext fun r => ih r (keeps.2 r))
  | look k ih => exact congrArg Gather.look (funext fun h => funext fun v => ih h v (keeps h v))

/-- Continue as a definition from a collector, where `limit` continuations may be open. The room that
is left follows from the frames of the collector. -/
def Program.continueAs (p : Program H) (limit : Nat) (target : Definition) (c : Collector H) :
    Gather H (Collector H × Except DefinitionError Unit) :=
  p.delegate limit (limit + 1 - c.frames.length) target c

/-- The running definition took the directives of another one in place, which is its delegate. -/
def Collector.absorb (x : Collected (Entry H)) (c : Collector H) : Collector H :=
  { c with
    directives := c.directives ++ x.directives
    frame := { c.frame with delegates := c.frame.delegates ++ [⟨x.name, x.aliases⟩] } }

section Delegation

variable {p : Program H} {limit room : Nat} {d : Definition} {i c c' : Collector H}
  {ds : List (Directive (Entry H))} {fs : List BodyFrame}

/-- To follow a body leaves as many frames as there were. -/
theorem Body.length_follow
    {delegate : Definition → Collector H → Gather H (Collector H × Except DefinitionError Unit)}
    (delegates : ∀ d c, (delegate d c).Keeps (fun _ => True)
      fun x => x.1.frames.length = c.frames.length) (b : Body H) (c : Collector H) :
    (b.follow delegate c).Keeps (fun _ => True) fun x => x.1.frames.length = c.frames.length := by
  induction b generalizing c with
  | finish r => exact rfl
  | yield d next ih => exact ih (c.push d)
  | continueAs target k ih => exact (delegates target c).bind fun x same => same ▸ ih x.2 x.1
  | perform s k ih => exact ⟨trivial, fun r => ih r c⟩
  | look k ih => exact fun h v => ih h v c

theorem Program.length_delegate (room : Nat) (d : Definition) (c : Collector H) :
    (p.delegate limit room d c).Keeps (fun _ => True)
      fun x => x.1.frames.length = c.frames.length := by
  have back {c c' : Collector H} {d : Definition} (succeeded : Bool)
      (same : c'.frames.length = (c.enter d).frames.length) :
      (c'.leave succeeded).frames.length = c.frames.length := by
    cases split : c'.outer with
    | nil =>
      rw [Collector.frames, split] at same
      cases same
    | cons parent outer =>
      rw [Collector.frames, split] at same
      rw [Collector.leave_eq split]
      exact Nat.succ.inj same
  induction room generalizing d c with
  | zero => unfold Program.delegate; split <;> exact rfl
  | succ room ih =>
    unfold Program.delegate
    split
    · exact rfl
    · refine (Body.length_follow ih _ _).map fun x same => ?_
      split
      · exact back true same
      · exact back false same

theorem Body.follow_continueAs (b : Body H) (left : room + c.frames.length = limit + 1) :
    b.follow (p.delegate limit room) c = b.follow (p.continueAs limit) c := by
  induction b generalizing c with
  | finish r => rfl
  | yield d next ih => exact ih left
  | continueAs target k ih =>
    have same : limit + 1 - c.frames.length = room := Nat.sub_eq_of_eq_add left.symm
    unfold Body.follow Program.continueAs
    rw [same]
    exact Gather.bind_congr (Program.length_delegate room target c) fun x kept =>
      ih x.2 (kept ▸ left)
  | perform s k ih => exact congrArg (Gather.perform s) (funext fun r => ih r left)
  | look k ih => exact congrArg Gather.look (funext fun h => funext fun v => ih h v left)

/-- All continuations of a collection are continuations from the collector that there is then. -/
theorem Program.collect_eq :
    p.collect limit d =
      ((p.body d).follow (p.continueAs limit) (.root d)).map fun x =>
        match x.2 with
        | .ok () => .ok x.1.finish
        | .error fault => .error (.ofBody d.name fault) := by
  have same : (p.body d).follow (p.delegate limit limit) (.root d) =
      (p.body d).follow (p.continueAs limit) (.root d) := Body.follow_continueAs _ rfl
  exact congrArg (Gather.map _) same

/-- Nothing that continuing as a definition comes to has its body among the running ones. -/
def Program.Avoids (p : Program H) (limit : Nat) (d : Definition) (c : Collector H) : Prop :=
  ∀ left e c', p.Meets limit (limit + 1 - c.frames.length) d c left e c' →
    e.isAmong c.frames = false

/-- Continuing as a definition succeeds just when its collection alone does, with the room that is
left. Then it yields the same directives in place and counts as one delegate, under the same name. -/
inductive Program.Inlines (p : Program H) (limit : Nat) (d : Definition) (c : Collector H) :
    Prop where
  | taken {x : Collected (Entry H)}
      (alone : p.collect (limit - c.frames.length) d = .done (.ok x))
      (here : p.continueAs limit d c = .done (c.absorb x, .ok ()))
  | refused {e e' : DefinitionError} {c' : Collector H}
      (alone : p.collect (limit - c.frames.length) d = .done (.error e))
      (here : p.continueAs limit d c = .done (c', .error e')) (frames : c'.frames = c.frames)

theorem Program.IsPure.inlines (pure : p.IsPure) (open_ : c.frames.length ≤ limit)
    (avoids : p.Avoids limit d c) : p.Inlines limit d c := by
  have free : c.isRunning d = false := avoids _ _ _ .here
  have split : limit + 1 - c.frames.length = limit - c.frames.length + 1 := by omega
  have bodies (d : Definition) := pure.body d
  unfold Avoids at avoids
  rw [split] at avoids
  have tallies : Gather.Tallies Eq (fun _ _ => True) c.directives c.frames []
      ((p.body d).follow (p.delegate (limit - c.frames.length) (limit - c.frames.length + 0))
        (.root d))
      ((p.body d).follow (p.delegate limit (limit - c.frames.length)) (c.enter d)) :=
    (bodies d).follow (Collector.Within.enter_root d)
      (fun asks _ _ _ meets =>
        ⟨avoids _ _ _ (.inside free asks meets), fun _ _ => ⟨rfl, trivial⟩⟩)
      (delegate_within bodies (fun _ _ => trivial) fun _ _ _ _ => trivial)
  obtain ⟨⟨i, r⟩, ⟨c', r'⟩, runs, runs', within, agree, root⟩ := tallies
  obtain ⟨⟨own, directives, same⟩, frame, outer⟩ := within
  cases List.forall₂_eq_eq_eq ▸ same
  have root : i.outer = [] := root
  have stack : c'.outer = c.frame :: c.outer := outer.trans (congrArg (· ++ c.frames) root)
  cases agree with
  | ok =>
    refine .taken (collect_of_ok runs) ?_
    rw [Program.continueAs, split, delegate_of_ok free runs', Collector.leave_eq stack, show c'.frame = i.frame from frame,
      show c'.directives = c.directives ++ i.directives from directives]
    rfl
  | error =>
    have here := delegate_of_error free runs'
    rw [← split] at here
    refine .refused (collect_of_error runs) here ?_
    rw [Collector.leave_eq stack]
    rfl

/-! ## Bodies that pass errors on -/

/-- A body ends with a fault whatever happens. -/
def Body.Fails : Body H → Prop
  | .finish r => r ≠ .ok ()
  | .yield _ next => next.Fails
  | .continueAs _ k => ∀ r, (k r).Fails
  | .perform _ k => ∀ r, (k r).Fails
  | .look k => ∀ h v, (k h v).Fails

/-- A body fails when one of its delegates does. -/
def Body.Propagates : Body H → Prop
  | .finish _ => True
  | .yield _ next => next.Propagates
  | .continueAs _ k => (k (.ok ())).Propagates ∧ ∀ e, (k (.error e)).Fails
  | .perform _ k => ∀ r, (k r).Propagates
  | .look k => ∀ h v, (k h v).Propagates

/-- All declared bodies pass the errors of delegates on. -/
def Program.Propagates (p : Program H) : Prop := ∀ key, (p.declared key).Propagates

theorem Program.Propagates.body (propagates : p.Propagates) (d : Definition) :
    (p.body d).Propagates := by
  cases d with
  | shared key | fresh key => exact propagates key
  | renamed name target => exact ⟨trivial, fun e same => nomatch same⟩

theorem Body.Fails.follow {b : Body H} {r : Except Fault Unit}
    {delegate : Definition → Collector H → Gather H (Collector H × Except DefinitionError Unit)}
    (fails : b.Fails) (runs : b.follow delegate c = .done (c', r)) : r ≠ .ok () := by
  induction b generalizing c with
  | finish r => cases runs; exact fails
  | yield d next ih => exact ih fails runs
  | continueAs target k ih =>
    obtain ⟨x, _, rest⟩ := Gather.exists_of_bind runs
    exact ih x.2 (fails x.2) rest
  | perform | look => cases runs

/-- A success inside other frames is a success with fewer of them around. -/
theorem Body.Propagates.follow {b : Body H} {limit' : Nat} (propagates : b.Propagates)
    (within : i.Within Eq ds fs c)
    (runs : b.follow (p.delegate limit' room) c = .done (c', .ok ()))
    (delegates : ∀ {target i c c'}, i.Within Eq ds fs c →
      p.delegate limit' room target c = .done (c', .ok ()) →
      ∃ i', p.delegate limit room target i = .done (i', .ok ()) ∧ i'.Within Eq ds fs c' ∧
        i'.outer = i.outer) :
    ∃ i', b.follow (p.delegate limit room) i = .done (i', .ok ()) ∧ i'.Within Eq ds fs c' ∧
      i'.outer = i.outer := by
  induction b generalizing i c with
  | finish r => cases runs; exact ⟨i, rfl, within, rfl⟩
  | yield d next ih => exact ih propagates (within.push rfl) runs
  | continueAs target k ih =>
    obtain ⟨⟨c₁, r⟩, asked, rest⟩ := Gather.exists_of_bind runs
    cases r with
    | error e => exact absurd rfl ((propagates.2 e).follow rest)
    | ok =>
      obtain ⟨i₁, alone, within₁, outer⟩ := delegates within asked
      rw [Body.follow, alone, ← outer]
      exact ih (.ok ()) propagates.1 within₁ rest
  | perform | look => cases runs

theorem Program.Propagates.delegate (propagates : p.Propagates) {limit' : Nat}
    (within : i.Within Eq ds fs c)
    (runs : p.delegate limit' room d c = .done (c', .ok ())) :
    ∃ i', p.delegate limit room d i = .done (i', .ok ()) ∧ i'.Within Eq ds fs c' ∧
      i'.outer = i.outer := by
  induction room generalizing d i c c' with
  | zero =>
    obtain ⟨n, c₁, none, _⟩ := exists_of_delegate runs
    cases none
  | succ room ih =>
    obtain ⟨n, c₁, same, free, inside, rfl⟩ := exists_of_delegate runs
    cases same
    rw [within.isRunning, Bool.or_eq_false_iff] at free
    obtain ⟨i₁, alone, within₁, outer⟩ := (propagates.body d).follow (within.enter d) inside ih
    have outer : i₁.outer = i.frame :: i.outer := outer
    have inner : i₁.outer ≠ [] := by
      rw [outer]
      exact List.cons_ne_nil _ _
    refine ⟨i₁.leave true, delegate_of_ok free.1 alone, within₁.leave inner true, ?_⟩
    rw [Collector.leave_eq outer]

/-- A body spells out some directives: its own, and in the place of each delegate those of the
delegate, which is collected alone with one continuation less. -/
inductive Program.Spells (p : Program H) : Nat → Body H → List (Directive (Entry H)) → Prop where
  | finish {n : Nat} : Spells p n (.finish (.ok ())) []
  | yield {n : Nat} {d : Directive (Entry H)} {next : Body H} {ds : List (Directive (Entry H))}
      (rest : p.Spells n next ds) : Spells p n (.yield d next) (d :: ds)
  | continueAs {n : Nat} {target : Definition} {k : Except DefinitionError Unit → Body H}
      {x : Collected (Entry H)} {ds : List (Directive (Entry H))}
      (alone : p.collect n target = .done (.ok x)) (inner : p.Spells n (p.body target) x.directives)
      (rest : p.Spells (n + 1) (k (.ok ())) ds) :
      Spells p (n + 1) (.continueAs target k) (x.directives ++ ds)

/-- A body that was followed to a success spelled out what was collected. -/
theorem Program.Propagates.spells_of_follow (propagates : p.Propagates)
    (smaller : ∀ {n d x}, n < limit → p.collect n d = .done (.ok x) →
      p.Spells n (p.body d) x.directives) {b : Body H} (passes : b.Propagates)
    (runs : b.follow (p.delegate limit limit) c = .done (c', .ok ())) :
    ∃ ds, c'.directives = c.directives ++ ds ∧ p.Spells limit b ds := by
  induction b generalizing c with
  | finish r => cases runs; exact ⟨[], (List.append_nil _).symm, .finish⟩
  | yield d next ih =>
    obtain ⟨ds, directives, spells⟩ := ih passes runs
    refine ⟨d :: ds, ?_, .yield spells⟩
    rw [directives, Collector.push, List.append_assoc]
    rfl
  | continueAs target k ih =>
    obtain ⟨⟨c₁, r⟩, asked, rest⟩ := Gather.exists_of_bind runs
    cases r with
    | error e => exact absurd rfl ((passes.2 e).follow rest)
    | ok =>
      obtain ⟨n, c₂, rfl, _, inside, rfl⟩ := exists_of_delegate asked
      obtain ⟨i, alone, ⟨⟨own, split, same⟩, _, outer⟩, root⟩ :=
        (propagates.body target).follow (Collector.Within.enter_root target) inside
          propagates.delegate
      cases List.forall₂_eq_eq_eq ▸ same
      have collects := collect_of_ok alone
      have stack : c₂.outer = c.frame :: c.outer := outer.trans (congrArg (· ++ c.frames) root)
      obtain ⟨ds, directives, spells⟩ := ih (.ok ()) passes.1 rest
      refine ⟨i.directives ++ ds, ?_, .continueAs collects (smaller n.lt_succ_self collects) spells⟩
      rw [directives, Collector.leave_eq stack, ← List.append_assoc]
      exact congrArg (· ++ ds) split
  | perform | look => cases runs

/-- A successful collection is what the body spells out, delegates included. -/
theorem Program.Propagates.spells (propagates : p.Propagates) {x : Collected (Entry H)}
    (collects : p.collect limit d = .done (.ok x)) : p.Spells limit (p.body d) x.directives := by
  induction limit using Nat.strongRecOn generalizing d x with
  | ind limit ih =>
    obtain ⟨i, runs, rfl⟩ := exists_of_collect collects
    obtain ⟨ds, directives, spells⟩ :=
      propagates.spells_of_follow (fun less => ih _ less) (propagates.body d) runs
    rw [show i.finish.directives = ds from directives.trans (List.nil_append ds)]
    exact spells

/-- Delegation is inlining: a definition that is continued as is collected alone and taken in place.
If bodies pass errors on, what a definition yields is spelled out in this way to any depth. -/
theorem Program.IsPure.inlined (pure : p.IsPure) :
    (∀ {limit d} {c : Collector H}, c.frames.length ≤ limit → p.Avoids limit d c →
      p.Inlines limit d c) ∧
    (p.Propagates → ∀ {limit d x}, p.collect limit d = .done (.ok x) →
      p.Spells limit (p.body d) x.directives) :=
  ⟨fun open_ avoids => pure.inlines open_ avoids, fun propagates _ _ _ => propagates.spells⟩

end Delegation

/-! ## The lamp in the evening -/

namespace Lamp

def dusk : Definition := .shared "dusk" "Dusk"

/-- At dusk the lamp has a brightness, and is otherwise as it is when it is off. -/
def evening : Program Unit where
  declared key :=
    if key = "dusk" then
      .yield (.accumulate (.int 40)) <|
        .continueAs off fun r => .finish (r.mapError Fault.definition)
    else program.declared key
  subscriber _ h := h

/-- What is collected at dusk. -/
def duskState : Collected (Entry Unit) :=
  ⟨"Dusk", [],
    [.accumulate (.int 40), .listenTo switch (.ofList ["toggle"]), .moveTo "toggle" on]⟩

/-- A definition runs inside another one, and has yielded a directive. -/
def inside : Collector Unit where
  directives := [.exit]
  frame := { BodyFrame.ofDefinition (.shared "day" "Day") with own := 1 }
  outer := [.ofDefinition (.shared "week" "Week")]

theorem evening_isPure : evening.IsPure := by
  intro key
  unfold evening
  dsimp only
  split
  · refine .yield rfl (.continueAs fun r r' same => .finish ?_)
    cases same with
    | ok => exact .ok trivial
    | error => exact .error trivial
  · exact .yield rfl (.yield rfl (.finish (.ok trivial)))

theorem evening_propagates : evening.Propagates := by
  intro key
  unfold evening
  dsimp only
  split
  · exact ⟨trivial, fun e same => nomatch same⟩
  · trivial

end Lamp

/-- At dusk the lamp comes to two bodies, neither of which is running. -/
theorem Program.IsPure.inlined_evening :
    Lamp.evening.IsPure ∧ Lamp.inside.frames.length ≤ 3 ∧
      Lamp.evening.Avoids 3 Lamp.dusk Lamp.inside ∧
      Lamp.evening.continueAs 3 Lamp.dusk Lamp.inside =
        .done (Lamp.inside.absorb Lamp.duskState, .ok ()) ∧
      Lamp.evening.Inlines 3 Lamp.dusk Lamp.inside ∧ Lamp.evening.Propagates ∧
      Lamp.evening.Spells 1 (Lamp.evening.body Lamp.dusk) Lamp.duskState.directives := by
  have few : Lamp.inside.frames.length ≤ 3 := by decide
  have avoids : Lamp.evening.Avoids 3 Lamp.dusk Lamp.inside := by
    intro left e c' meets
    cases meets with
    | here => rfl
    | inside free asks meets =>
      -- the body of the dusk yields, and then continues as the other one
      cases asks with
      | yield asks =>
        cases asks with
        | later answered rest => cases rest
        | here =>
          cases meets with
          | here => rfl
          | inside free asks meets =>
            cases asks with
            | yield asks =>
              cases asks with
              | yield asks => cases asks
  obtain ⟨inlines, spells⟩ := Program.IsPure.inlined Lamp.evening_isPure
  exact ⟨Lamp.evening_isPure, few, avoids, rfl, inlines few avoids, Lamp.evening_propagates,
    spells Lamp.evening_propagates rfl⟩

end ScopedMachine

import Mathlib.Logic.Relation
import ScopedMachine.Proofs.Delegation

/-!
# A collection step by step

`Program.collect` runs a body and the definitions that it continues as by recursion. Here the
recursion is taken apart: a collection under way has a body that runs next, and what the definitions
around it go on with. Its steps come to an end whatever the bodies are, because a definition that is
continued as has less room than the one around it, and its body is a part of the program that is
finite. At every step the frames are few and those of different bodies, and to continue as a
definition leaves the frames as they were.
-/

namespace ScopedMachine

variable {H : Type}

/-! ## Computations that wait -/

namespace Gather

variable {α β γ : Type}

theorem bind_assoc (g : Gather H α) (f : α → Gather H β) (f' : β → Gather H γ) :
    (g.bind f).bind f' = g.bind fun a => (f a).bind f' := by
  induction g with
  | done a => rfl
  | perform s k ih => exact congrArg (Gather.perform s) (funext ih)
  | look k ih => exact congrArg Gather.look (funext fun h => funext fun v => ih h v)

theorem bind_map (g : Gather H α) (f : α → β) (f' : β → Gather H γ) :
    (g.map f).bind f' = g.bind fun a => f' (f a) := bind_assoc g _ f'

theorem map_bind (g : Gather H α) (f : α → Gather H β) (f' : β → γ) :
    (g.bind f).map f' = g.bind fun a => (f a).map f' := bind_assoc g f _

theorem map_map (g : Gather H α) (f : α → β) (f' : β → γ) :
    (g.map f).map f' = g.map fun a => f' (f a) := bind_map g f _

theorem Keeps.mono {S : Script H → Prop} {Q R : α → Prop} {g : Gather H α} (keeps : g.Keeps S Q)
    (weaker : ∀ a, Q a → R a) : g.Keeps S R := by
  induction g with
  | done a => exact weaker a keeps
  | perform s k ih => exact ⟨keeps.1, fun r => ih r (keeps.2 r)⟩
  | look k ih => exact fun h v => ih h v (keeps h v)

/-- A computation goes on to another one: nothing is waited for, or the host answers. -/
inductive GoesOn : Gather H α → Gather H α → Prop where
  | same (g : Gather H α) : GoesOn g g
  | perform (s : Script H) (k : Except Fault Unit → Gather H α) (r : Except Fault Unit) :
      GoesOn (.perform s k) (k r)
  | look (k : H → View → Gather H α) (h : H) (v : View) : GoesOn (.look k) (k h v)

end Gather

/-! ## The frames -/

/-- Two bodies are not known to be the same. A body that cannot be met again has no key. -/
def Differ (i j : Option String) : Prop := ∀ key, i = some key → j ≠ some key

theorem Definition.isAmong_eq_false_iff {d : Definition} {fs : List BodyFrame} :
    d.isAmong fs = false ↔ ∀ f ∈ fs, Differ d.identity? f.identity? := by
  unfold isAmong Differ
  cases d.identity? with
  | none => simp
  | some key => simp

theorem Definition.isAmong_enter {d e : Definition} {c : Collector H} :
    e.isAmong (c.enter d).frames = false ↔
      Differ e.identity? d.identity? ∧ e.isAmong c.frames = false := by
  rw [isAmong_eq_false_iff, isAmong_eq_false_iff]
  exact List.forall_mem_cons

theorem Differ.symm {i j : Option String} (differ : Differ i j) : Differ j i :=
  fun key same other => differ key other same

/-- A definition ends inside another one: its frame is left, and an error of its body is its own. -/
def Definition.giveBack (d : Definition) (x : Collector H × Except Fault Unit) :
    Collector H × Except DefinitionError Unit :=
  match x.2 with
  | .ok () => (x.1.leave true, .ok ())
  | .error fault => (x.1.leave false, .error (.ofBody d.name fault))

/-- The frames are again what they were when the running definition continued as another one, but
that one counts as a delegate if it succeeded. -/
structure Collector.Balanced (c : Collector H) (x : Collector H × Except DefinitionError Unit) :
    Prop where
  outer : x.1.outer = c.outer
  failed {e : DefinitionError} (error : x.2 = .error e) : x.1.frame = c.frame
  succeeded (ok : x.2 = .ok ()) : ∃ r : Resolved,
    x.1.frame = { c.frame with delegates := c.frame.delegates ++ [r] }

/-- The definition that runs is the same, and so is everything around it. -/
structure Collector.SameStack (c c' : Collector H) : Prop where
  outer : c'.outer = c.outer
  name : c'.frame.name = c.frame.name
  identity? : c'.frame.identity? = c.frame.identity?

namespace Collector.SameStack

variable {c c' c'' : Collector H}

theorem refl : c.SameStack c := ⟨rfl, rfl, rfl⟩

theorem trans (h : c.SameStack c') (h' : c'.SameStack c'') : c.SameStack c'' :=
  ⟨h'.outer.trans h.outer, h'.name.trans h.name, h'.identity?.trans h.identity?⟩

theorem push (d : Directive (Entry H)) : c.SameStack (c.push d) := ⟨rfl, rfl, rfl⟩

end Collector.SameStack

theorem Collector.Balanced.sameStack {c : Collector H}
    {x : Collector H × Except DefinitionError Unit} (balanced : c.Balanced x) :
    c.SameStack x.1 := by
  cases r : x.2 with
  | error e => exact ⟨balanced.outer, by rw [balanced.failed r], by rw [balanced.failed r]⟩
  | ok =>
    obtain ⟨_, frame⟩ := balanced.succeeded r
    exact ⟨balanced.outer, by rw [frame], by rw [frame]⟩

/-- A definition that was entered and has been followed gives the frames back. -/
theorem Definition.balanced_giveBack {d : Definition} {c c' : Collector H}
    (same : (c.enter d).SameStack c') (r : Except Fault Unit) : c.Balanced (d.giveBack (c', r)) := by
  have outer : c'.outer = c.frame :: c.outer := same.outer
  cases r with
  | ok =>
    refine ⟨?_, nofun, fun _ => ⟨c'.frame.resolve, ?_⟩⟩
    · simp only [giveBack, Collector.leave_eq outer]
    · simp only [giveBack, Collector.leave_eq outer, if_true]
  | error f =>
    refine ⟨?_, fun _ => ?_, nofun⟩
    · simp only [giveBack, Collector.leave_eq outer]
    · simp only [giveBack, Collector.leave_eq outer, Bool.false_eq_true, if_false]

section Stack

variable {p : Program H} {limit room : Nat} {d : Definition} {c : Collector H}

/-- To follow a body leaves the frames around it alone, if its delegates do. -/
theorem Body.sameStack_follow
    {delegate : Definition → Collector H → Gather H (Collector H × Except DefinitionError Unit)}
    (delegates : ∀ d c, (delegate d c).Keeps (fun _ => True) c.Balanced) (b : Body H)
    (c : Collector H) : (b.follow delegate c).Keeps (fun _ => True) fun x => c.SameStack x.1 := by
  have onward {c c' : Collector H} (same : c.SameStack c') {b : Body H}
      (rest : (b.follow delegate c').Keeps (fun _ => True) fun x => c'.SameStack x.1) :
      (b.follow delegate c').Keeps (fun _ => True) fun x => c.SameStack x.1 :=
    rest.mono fun _ next => same.trans next
  induction b generalizing c with
  | finish r => exact .refl
  | yield d next ih => exact onward (.push d) (ih (c.push d))
  | continueAs target k ih =>
    exact (delegates target c).bind fun x balanced => onward balanced.sameStack (ih x.2 x.1)
  | perform s k ih => exact ⟨trivial, fun r => ih r c⟩
  | look k ih => exact fun h v => ih h v c

theorem Program.balanced_delegate (room : Nat) (d : Definition) (c : Collector H) :
    (p.delegate limit room d c).Keeps (fun _ => True) c.Balanced := by
  have refused (c : Collector H) (e : DefinitionError) : c.Balanced (c, .error e) :=
    ⟨rfl, fun _ => rfl, nofun⟩
  induction room generalizing d c with
  | zero => unfold Program.delegate; split <;> exact refused _ _
  | succ room ih =>
    unfold Program.delegate
    split
    · exact refused _ _
    · refine (Body.sameStack_follow ih _ _).map fun x same => ?_
      exact Definition.balanced_giveBack same x.2

/-- To continue as a definition leaves the frames as they were, but for a delegate if it succeeds. -/
theorem Program.balanced_continueAs (limit : Nat) (d : Definition) (c : Collector H) :
    (p.continueAs limit d c).Keeps (fun _ => True) c.Balanced := p.balanced_delegate _ d c

/-- A body that is running is not continued as, however much room there is. -/
theorem Program.continueAs_of_running (running : c.isRunning d = true) :
    p.continueAs limit d c = .done (c, .error (.cycle (c.names ++ [d.name]))) :=
  delegate_of_running running

/-- A definition is not continued as when more frames than the limit are there. -/
theorem Program.continueAs_of_full (free : c.isRunning d = false) (full : limit < c.frames.length) :
    p.continueAs limit d c = .done (c, .error (.tooDeep d.name limit)) := by
  have none : limit + 1 - c.frames.length = 0 := Nat.sub_eq_zero_of_le full
  rw [continueAs, none]
  exact delegate_zero free

/-- A definition that is continued as is followed inside the frames that there are, and then ends. -/
theorem Program.continueAs_of_room (free : c.isRunning d = false) (room : c.frames.length ≤ limit) :
    p.continueAs limit d c =
      ((p.body d).follow (p.continueAs limit) (c.enter d)).map d.giveBack := by
  have one : limit + 1 - c.frames.length = limit - c.frames.length + 1 := by omega
  have left : limit - c.frames.length + (c.enter d).frames.length = limit + 1 := by
    have longer : (c.enter d).frames.length = c.frames.length + 1 := rfl
    omega
  rw [continueAs, one, delegate, free, ← Body.follow_continueAs _ left]
  rfl

end Stack

/-! ## Steps -/

/-- A collection under way: the definition that runs, what of its body is left, what was collected so
far, and the definitions around it with what they go on with, innermost first. -/
structure Collecting (H : Type) where
  definition : Definition
  body : Body H
  collector : Collector H
  around : List (Definition × (Except DefinitionError Unit → Body H)) := []

namespace Program

variable (p : Program H) (limit : Nat)

/-- The collection of a definition that nothing continued into begins. -/
def collecting (d : Definition) : Collecting H where
  definition := d
  body := p.body d
  collector := .root d

/-- The steps of a collection. Host code may answer whatever it likes. -/
inductive Proceeds : Collecting H → Collecting H → Prop where
  | yield {d : Definition} {x : Directive (Entry H)} {next : Body H} {c : Collector H}
      {around : List (Definition × (Except DefinitionError Unit → Body H))} :
      Proceeds ⟨d, .yield x next, c, around⟩ ⟨d, next, c.push x, around⟩
  | cycle {d target : Definition} {k : Except DefinitionError Unit → Body H} {c : Collector H}
      {around : List (Definition × (Except DefinitionError Unit → Body H))}
      (running : c.isRunning target = true) :
      Proceeds ⟨d, .continueAs target k, c, around⟩
        ⟨d, k (.error (.cycle (c.names ++ [target.name]))), c, around⟩
  | tooDeep {d target : Definition} {k : Except DefinitionError Unit → Body H} {c : Collector H}
      {around : List (Definition × (Except DefinitionError Unit → Body H))}
      (free : c.isRunning target = false) (full : limit < c.frames.length) :
      Proceeds ⟨d, .continueAs target k, c, around⟩
        ⟨d, k (.error (.tooDeep target.name limit)), c, around⟩
  | enter {d target : Definition} {k : Except DefinitionError Unit → Body H} {c : Collector H}
      {around : List (Definition × (Except DefinitionError Unit → Body H))}
      (free : c.isRunning target = false) (room : c.frames.length ≤ limit) :
      Proceeds ⟨d, .continueAs target k, c, around⟩
        ⟨target, p.body target, c.enter target, (d, k) :: around⟩
  | giveBack {d caller : Definition} {k : Except DefinitionError Unit → Body H} {c : Collector H}
      {r : Except Fault Unit} {around : List (Definition × (Except DefinitionError Unit → Body H))} :
      Proceeds ⟨d, .finish r, c, (caller, k) :: around⟩
        ⟨caller, k (d.giveBack (c, r)).2, (d.giveBack (c, r)).1, around⟩
  | perform {d : Definition} {s : Script H} {k : Except Fault Unit → Body H} {c : Collector H}
      {around : List (Definition × (Except DefinitionError Unit → Body H))} (r : Except Fault Unit) :
      Proceeds ⟨d, .perform s k, c, around⟩ ⟨d, k r, c, around⟩
  | look {d : Definition} {k : H → View → Body H} {c : Collector H}
      {around : List (Definition × (Except DefinitionError Unit → Body H))} (h : H) (v : View) :
      Proceeds ⟨d, .look k, c, around⟩ ⟨d, k h v, c, around⟩

/-- What becomes of a collection when the body of `d` has been followed. -/
def afterwards : Definition → List (Definition × (Except DefinitionError Unit → Body H)) →
    Collector H × Except Fault Unit → Gather H (Except DefinitionError (Collected (Entry H)))
  | d, [], x => .done <|
    match x.2 with
    | .ok () => .ok x.1.finish
    | .error fault => .error (.ofBody d.name fault)
  | d, (caller, k) :: around, x =>
    ((k (d.giveBack x).2).follow (p.continueAs limit) (d.giveBack x).1).bind
      (afterwards caller around)

/-- What is still to come of a collection under way. -/
def remainder (s : Collecting H) : Gather H (Except DefinitionError (Collected (Entry H))) :=
  (s.body.follow (p.continueAs limit) s.collector).bind (p.afterwards limit s.definition s.around)

end Program

section Steps

variable {p : Program H} {limit : Nat} {d : Definition} {s s' : Collecting H}

/-- All of a collection is to come when it begins. -/
theorem Program.remainder_collecting : p.remainder limit (p.collecting d) = p.collect limit d := by
  rw [collect_eq]
  rfl

/-- The steps are those of the collection: what is to come goes on with each of them. -/
theorem Program.Proceeds.goesOn (proceeds : p.Proceeds limit s s') :
    (p.remainder limit s).GoesOn (p.remainder limit s') := by
  have same {g g' : Gather H (Except DefinitionError (Collected (Entry H)))} (eq : g = g') :
      g.GoesOn g' := eq ▸ .same g
  cases proceeds with
  | yield => exact .same _
  | cycle running =>
    refine same ?_
    rw [remainder, Body.follow, continueAs_of_running running]
    rfl
  | tooDeep free full =>
    refine same ?_
    rw [remainder, Body.follow, continueAs_of_full free full]
    rfl
  | enter free room =>
    refine same ?_
    rw [remainder, Body.follow, continueAs_of_room free room, Gather.bind_map, Gather.bind_assoc]
    rfl
  | giveBack => exact .same _
  | perform r => exact .perform _ _ r
  | look h v => exact .look _ h v

/-- A collection that has a host to look at proceeds until it is over. -/
theorem Program.exists_proceeds (host : H) (s : Collecting H) :
    (∃ s', p.Proceeds limit s s') ∨ ∃ r, p.remainder limit s = .done r := by
  obtain ⟨d, body, c, around⟩ := s
  cases body with
  | finish r =>
    cases around with
    | nil => exact .inr ⟨_, rfl⟩
    | cons caller around => exact .inl ⟨_, .giveBack⟩
  | yield x next => exact .inl ⟨_, .yield⟩
  | continueAs target k =>
    cases running : c.isRunning target with
    | true => exact .inl ⟨_, .cycle running⟩
    | false =>
      rcases Nat.lt_or_ge limit c.frames.length with full | room
      · exact .inl ⟨_, .tooDeep running full⟩
      · exact .inl ⟨_, .enter running room⟩
  | perform s k => exact .inl ⟨_, .perform (.ok ())⟩
  | look k =>
    exact .inl ⟨_, .look host ⟨fun _ => false, fun _ => none, fun _ => {}, fun _ => {}⟩⟩

end Steps

/-! ## The steps come to an end -/

section End

variable {p : Program H} {limit : Nat}

/-- From here on a collection comes to an end, whatever the host answers. -/
abbrev Program.Ends (p : Program H) (limit : Nat) (s : Collecting H) : Prop :=
  Acc (fun s' s => p.Proceeds limit s s') s

/-- A definition that ends inside others gives one frame back. -/
theorem Definition.length_giveBack {d : Definition} {c : Collector H} (r : Except Fault Unit)
    (inner : 1 < c.frames.length) : (d.giveBack (c, r)).1.frames.length + 1 = c.frames.length := by
  cases outer : c.outer with
  | nil =>
    rw [Collector.frames, outer] at inner
    exact absurd inner (Nat.lt_irrefl 1)
  | cons parent rest =>
    have length (succeeded : Bool) : (c.leave succeeded).frames.length + 1 = c.frames.length := by
      rw [Collector.leave_eq outer, Collector.frames, Collector.frames, outer]
      rfl
    cases r <;> exact length _

/-- A body that runs comes to its end if what is around it does, once the frames are as the body found
them. The induction is on the room that is left, and then on the body. -/
theorem Program.ends_of_around {around : List (Definition × (Except DefinitionError Unit → Body H))}
    {frames : Nat}
    (back : ∀ d r c, c.frames.length = frames → p.Ends limit ⟨d, .finish r, c, around⟩)
    (d : Definition) (b : Body H) (c : Collector H) (same : c.frames.length = frames) :
    p.Ends limit ⟨d, b, c, around⟩ := by
  generalize left : limit + 1 - frames = room
  induction room using Nat.strongRecOn generalizing frames around d b c with
  | ind room deeper =>
  induction b generalizing c with
  | finish r => exact back d r c same
  | yield x next ih => exact ⟨_, fun s' h => by cases h; exact ih _ same⟩
  | perform s k ih => exact ⟨_, fun s' h => by cases h; exact ih _ _ same⟩
  | look k ih => exact ⟨_, fun s' h => by cases h; exact ih _ _ _ same⟩
  | continueAs target k ih =>
    refine ⟨_, fun s' h => ?_⟩
    cases h with
    | cycle | tooDeep => exact ih _ _ same
    | enter free few =>
      have more : (c.enter target).frames.length = frames + 1 := congrArg (· + 1) same
      have some : 0 < frames := same ▸ Nat.succ_pos _
      refine deeper (limit + 1 - (frames + 1)) (by omega) (fun e r c' same' => ⟨_, fun s' h => ?_⟩)
        _ _ _ more rfl
      cases h
      refine ih _ _ ?_
      have less := e.length_giveBack r (c := c') (by omega)
      omega

/-- Whatever the bodies are, and whatever the host answers, no collection goes on without end. -/
theorem Program.wellFounded_proceeds :
    WellFounded fun s' s : Collecting H => p.Proceeds limit s s' := by
  refine ⟨fun ⟨d, b, c, around⟩ => ?_⟩
  induction around generalizing d b c with
  | nil => exact ends_of_around (fun d r c _ => ⟨_, fun s' h => by cases h⟩) d b c rfl
  | cons caller around ih =>
    refine ends_of_around (fun d r c _ => ⟨_, fun s' h => ?_⟩) d b c rfl
    cases h
    exact ih _ _ _

end End

/-! ## How many frames there are -/

section Few

variable {p : Program H} {limit : Nat} {d : Definition} {s s' : Collecting H}

/-- There are no more frames than the limit and one, and no two of them are of the same body. -/
structure Collector.IsBounded (limit : Nat) (c : Collector H) : Prop where
  few : c.frames.length ≤ limit + 1
  differ : (c.frames.map BodyFrame.identity?).Pairwise Differ

theorem Collector.IsBounded.leave {c : Collector H} (bounded : c.IsBounded limit)
    (succeeded : Bool) : (c.leave succeeded).IsBounded limit := by
  cases outer : c.outer with
  | nil => rwa [Collector.leave, outer]
  | cons parent rest =>
    obtain ⟨few, differ⟩ := bounded
    rw [Collector.frames, outer] at few differ
    rw [Collector.leave_eq outer]
    exact ⟨Nat.le_of_succ_le few, (List.pairwise_cons.1 differ).2⟩

theorem Program.Proceeds.isBounded (proceeds : p.Proceeds limit s s')
    (bounded : s.collector.IsBounded limit) : s'.collector.IsBounded limit := by
  cases proceeds with
  | yield => exact ⟨bounded.few, bounded.differ⟩
  | cycle | tooDeep | perform | look => exact bounded
  | enter free room =>
    refine ⟨Nat.succ_le_succ room, List.pairwise_cons.2 ⟨?_, bounded.differ⟩⟩
    exact List.forall_mem_map.2 (Definition.isAmong_eq_false_iff.1 free)
  | @giveBack d caller k c r around => cases r <;> exact bounded.leave _

/-- Whenever a body runs in a collection, the frames are bounded. -/
theorem Program.isBounded_of_reaches
    (reaches : Relation.ReflTransGen (p.Proceeds limit) (p.collecting d) s) :
    s.collector.IsBounded limit := by
  induction reaches with
  | refl => exact ⟨Nat.le_add_left 1 limit, List.pairwise_singleton ..⟩
  | tail _ step ih => exact step.isBounded ih

end Few

/-! ## Chains of aliases -/

/-- A body does not continue as any definition. -/
def Body.IsFlat : Body H → Prop
  | .finish _ => True
  | .yield _ next => next.IsFlat
  | .continueAs .. => False
  | .perform _ k => ∀ r, (k r).IsFlat
  | .look k => ∀ h v, (k h v).IsFlat

/-- The whole body of a definition continues as another one. -/
def Program.IsAlias (p : Program H) (d target : Definition) : Prop :=
  p.body d = .continueAs target fun r => .finish (r.mapError Fault.definition)

/-- From a definition on, each one is an alias of the next, and the last one is an alias of `base`. -/
inductive Program.AliasChain (p : Program H) (base : Definition) :
    Definition → List Definition → Prop where
  | base : AliasChain p base base []
  | hop {d target : Definition} {as : List Definition} (here : p.IsAlias d target)
      (rest : AliasChain p base target as) : AliasChain p base d (d :: as)

/-- What is collected alone, inside the frames of another collector. -/
def Collector.inside (c i : Collector H) : Collector H where
  directives := c.directives ++ i.directives
  frame := i.frame
  outer := i.outer ++ c.frames

/-- What comes back to a collector when `d`, under some names, was followed alone. -/
def Collector.receive (d : Definition) (names : List String) (c : Collector H)
    (x : Collector H × Except Fault Unit) : Collector H × Except DefinitionError Unit :=
  match x.2 with
  | .ok () => (c.absorb ⟨d.name, names, x.1.directives⟩, .ok ())
  | .error fault =>
    ({ c with directives := c.directives ++ x.1.directives }, .error (.ofBody d.name fault))

section Chain

variable {p : Program H} {limit : Nat} {base d : Definition} {as : List Definition}
  {c : Collector H}

/-- A flat body does the same inside other frames, whatever its delegates would do. -/
theorem Body.IsFlat.follow {b : Body H} (flat : b.IsFlat)
    {delegate delegate' :
      Definition → Collector H → Gather H (Collector H × Except DefinitionError Unit)}
    (i : Collector H) : b.follow delegate (c.inside i) =
      (b.follow delegate' i).map fun x => (c.inside x.1, x.2) := by
  induction b generalizing i with
  | finish r => rfl
  | yield d next ih =>
    have pushed : (c.inside i).push d = c.inside (i.push d) := by
      simp [Collector.inside, Collector.push]
    rw [Body.follow, pushed]
    exact ih flat (i.push d)
  | continueAs => cases flat
  | perform s k ih => exact congrArg (Gather.perform s) (funext fun r => ih r (flat r) i)
  | look k ih =>
    exact congrArg Gather.look (funext fun h => funext fun v => ih h v (flat h v) i)

/-- A flat body has no delegates. -/
theorem Body.IsFlat.delegates {b : Body H} (flat : b.IsFlat)
    {delegate : Definition → Collector H → Gather H (Collector H × Except DefinitionError Unit)}
    (i : Collector H) : (b.follow delegate i).Keeps (fun _ => True) fun x =>
      x.1.outer = i.outer ∧ x.1.frame.name = i.frame.name ∧
        x.1.frame.delegates = i.frame.delegates := by
  induction b generalizing i with
  | finish r => exact ⟨rfl, rfl, rfl⟩
  | yield d next ih => exact ih flat (i.push d)
  | continueAs => cases flat
  | perform s k ih => exact ⟨trivial, fun r => ih r (flat r) i⟩
  | look k ih => exact fun h v => ih h v (flat h v) i

theorem BodyFrame.resolve_of_nil {f : BodyFrame} (none : f.delegates = []) :
    f.resolve = ⟨f.name, []⟩ := by
  unfold resolve
  rw [none]
  split
  · next same => cases same
  · rfl

/-- An alias and the definition that it continues as in the end have different bodies. -/
theorem Program.AliasChain.differ (chain : p.AliasChain base d as) (flat : (p.body base).IsFlat) :
    ∀ a ∈ as, Differ a.identity? base.identity? := by
  induction chain with
  | base => exact List.forall_mem_nil _
  | @hop d target as here rest ih =>
    refine List.forall_mem_cons.2 ⟨fun key one other => ?_, ih⟩
    have same : p.body d = p.body base := by
      cases d <;> cases one
      cases base <;> cases other
      rfl
    rw [← same, here] at flat
    cases flat

/-- When a flat body has been followed inside others, its definition ends without an alias. -/
theorem Definition.giveBack_inside {i : Collector H} (root : i.outer = [])
    (name : i.frame.name = d.name) (none : i.frame.delegates = []) (r : Except Fault Unit) :
    d.giveBack (c.inside i, r) = c.receive d [] (i, r) := by
  have outer : (c.inside i).outer = c.frame :: c.outer := congrArg (· ++ c.frames) root
  have resolved : (c.inside i).frame.resolve = ⟨d.name, []⟩ :=
    name ▸ BodyFrame.resolve_of_nil none
  cases r <;> simp only [giveBack, Collector.receive, Collector.leave_eq outer, resolved] <;> rfl

/-- The first definition of a chain has another body than those after it. -/
theorem Program.AliasChain.differ_head (chain : p.AliasChain base d (d :: as))
    (flat : (p.body base).IsFlat) (differ : ((d :: as).map Definition.identity?).Pairwise Differ) :
    ∀ e ∈ base :: as, Differ e.identity? d.identity? :=
  List.forall_mem_cons.2 ⟨(chain.differ flat d (List.mem_cons_self ..)).symm,
    fun _ mem => ((List.pairwise_cons.1 differ).1 _ (List.mem_map_of_mem mem)).symm⟩

/-- When the first definition of a chain is entered, none of the others is running, if none was. -/
theorem Program.AliasChain.free_enter (chain : p.AliasChain base d (d :: as))
    (flat : (p.body base).IsFlat) (differ : ((d :: as).map Definition.identity?).Pairwise Differ)
    (free : ∀ e ∈ base :: d :: as, e.isAmong c.frames = false) :
    ∀ e ∈ base :: as, e.isAmong (c.enter d).frames = false := fun e mem => by
  refine Definition.isAmong_enter.2 ⟨chain.differ_head flat differ e mem, free e ?_⟩
  exact (List.mem_cons.1 mem).elim (fun same => same ▸ List.mem_cons_self ..)
    fun later => List.mem_cons_of_mem _ (List.mem_cons_of_mem _ later)

/-- A chain of aliases that there is room for takes what its last definition yields alone, which goes
by the names of the chain. -/
theorem Program.AliasChain.continueAs (chain : p.AliasChain base d as) (flat : (p.body base).IsFlat)
    (differ : (as.map Definition.identity?).Pairwise Differ)
    (free : ∀ e ∈ base :: as, e.isAmong c.frames = false)
    (room : c.frames.length + as.length ≤ limit) :
    p.continueAs limit d c =
      ((p.body base).follow (p.continueAs limit) (.root base)).map
        (c.receive base (as.map Definition.name)) := by
  induction chain generalizing c with
  | base =>
    have here : c.enter base = c.inside (.root base) := by
      simp [Collector.enter, Collector.inside, Collector.root]
    have alone : (p.body base).follow (p.continueAs limit) (c.inside (.root base)) =
        ((p.body base).follow (p.continueAs limit) (.root base)).map fun x => (c.inside x.1, x.2) :=
      flat.follow _
    rw [continueAs_of_room (free base (List.mem_cons_self ..)) room, here, alone, Gather.map_map]
    refine Gather.bind_congr (flat.delegates (.root base)) fun x kept => congrArg Gather.done ?_
    obtain ⟨root, name, none⟩ := kept
    exact Definition.giveBack_inside root name none x.2
  | @hop d target as here rest ih =>
    have freeHere := free d (List.mem_cons_of_mem _ (List.mem_cons_self ..))
    have free := free_enter (.hop here rest) flat differ free
    have one : (c.enter d).frames.length = c.frames.length + 1 := rfl
    have inner := ih (List.pairwise_cons.1 differ).2 free (by
      rw [List.length_cons] at room
      omega)
    rw [continueAs_of_room freeHere (Nat.le_of_add_right_le room), here, Body.follow, inner,
      Gather.bind_map, Gather.map_bind]
    refine congrArg (Gather.bind _) (funext fun x => congrArg Gather.done ?_)
    obtain ⟨i, r⟩ := x
    cases r <;> rfl

/-- A chain of aliases that there is no room for fails at the first definition that has none. -/
theorem Program.AliasChain.tooDeep (chain : p.AliasChain base d as) (flat : (p.body base).IsFlat)
    (differ : (as.map Definition.identity?).Pairwise Differ)
    (free : ∀ e ∈ base :: as, e.isAmong c.frames = false) (few : c.frames.length ≤ limit + 1)
    (full : limit < c.frames.length + as.length) :
    ∃ e, (as ++ [base])[limit + 1 - c.frames.length]? = some e ∧
      p.continueAs limit d c = .done (c, .error (.tooDeep e.name limit)) := by
  induction chain generalizing c with
  | base =>
    have here : limit + 1 - c.frames.length = 0 := Nat.sub_eq_zero_of_le full
    exact ⟨base, by rw [here]; rfl, continueAs_of_full (free base (List.mem_cons_self ..)) full⟩
  | @hop d target as here rest ih =>
    have freeHere := free d (List.mem_cons_of_mem _ (List.mem_cons_self ..))
    rcases Nat.lt_or_ge limit c.frames.length with none | room
    · have here : limit + 1 - c.frames.length = 0 := Nat.sub_eq_zero_of_le none
      exact ⟨d, by rw [here]; rfl, continueAs_of_full freeHere none⟩
    · have free := free_enter (.hop here rest) flat differ free
      have one : (c.enter d).frames.length = c.frames.length + 1 := rfl
      obtain ⟨e, place, fails⟩ := ih (List.pairwise_cons.1 differ).2 free (Nat.succ_le_succ room) (by
        rw [List.length_cons] at full
        omega)
      refine ⟨e, ?_, ?_⟩
      · have next : limit + 1 - c.frames.length = limit + 1 - (c.frames.length + 1) + 1 := by omega
        rw [next]
        exact place
      · rw [continueAs_of_room freeHere room, here, Body.follow, fails]
        rfl

/-- In the collection of the first definition of a chain none of the others is running. -/
theorem Program.AliasChain.free_root (chain : p.AliasChain base d (d :: as))
    (flat : (p.body base).IsFlat) (differ : ((d :: as).map Definition.identity?).Pairwise Differ) :
    ∀ e ∈ base :: as, e.isAmong (Collector.root (H := H) d).frames = false := fun e mem =>
  Definition.isAmong_eq_false_iff.2
    (List.forall_mem_singleton.2 (chain.differ_head flat differ e mem))

/-- A chain of aliases that is not longer than the limit is collected as its last definition is, under
the name of that and with the names of the chain. -/
theorem Program.AliasChain.collect_of_le (chain : p.AliasChain base d as)
    (flat : (p.body base).IsFlat) (differ : (as.map Definition.identity?).Pairwise Differ)
    (short : as.length ≤ limit) :
    p.collect limit d = (p.collect limit base).map
      (Except.map fun x => ⟨base.name, as.map Definition.name, x.directives⟩) := by
  rw [collect_eq, collect_eq, Gather.map_map]
  cases chain with
  | base =>
    refine Gather.bind_congr (flat.delegates (.root base)) fun x kept => congrArg Gather.done ?_
    obtain ⟨i, r⟩ := x
    obtain ⟨_, name, none⟩ := kept
    cases r with
    | error f => rfl
    | ok =>
      have resolved : i.frame.resolve = ⟨base.name, []⟩ :=
        (BodyFrame.resolve_of_nil none).trans (congrArg (Resolved.mk · []) name)
      simp only [Collector.finish, resolved]
      rfl
  | @hop d target as here rest =>
    have room : (Collector.root (H := H) d).frames.length + as.length ≤ limit := by
      have one : (Collector.root (H := H) d).frames.length = 1 := rfl
      rw [List.length_cons] at short
      omega
    rw [here, Body.follow, rest.continueAs flat (List.pairwise_cons.1 differ).2
      (free_root (.hop here rest) flat differ) room, Gather.bind_map, Gather.map_bind]
    refine congrArg (Gather.bind _) (funext fun x => congrArg Gather.done ?_)
    obtain ⟨i, r⟩ := x
    cases r <;> rfl

/-- A chain of aliases that is longer than the limit fails at the first definition that has no room. -/
theorem Program.AliasChain.collect_of_lt (chain : p.AliasChain base d as)
    (flat : (p.body base).IsFlat) (differ : (as.map Definition.identity?).Pairwise Differ)
    (long : limit < as.length) : ∃ e, (as ++ [base])[limit + 1]? = some e ∧
      p.collect limit d = .done (.error (.tooDeep e.name limit)) := by
  cases chain with
  | base => exact absurd long (Nat.not_lt_zero _)
  | @hop d target as here rest =>
    have one : (Collector.root (H := H) d).frames.length = 1 := rfl
    obtain ⟨e, place, fails⟩ := rest.tooDeep flat (List.pairwise_cons.1 differ).2
      (free_root (.hop here rest) flat differ) (Nat.le_add_left 1 limit) (by
        rw [List.length_cons] at long
        omega)
    refine ⟨e, place, ?_⟩
    rw [collect_eq, here, Body.follow, fails]
    rfl

end Chain

/-! ## Every collection -/

/-- How far the collections of a program go when `limit` continuations may be open at a time. -/
structure Program.GoesSoFar (p : Program H) (limit : Nat) : Prop where
  /-- No collection goes on without end, whatever the bodies are and whatever the host answers. -/
  ends : WellFounded fun s' s : Collecting H => p.Proceeds limit s s'
  /-- At the beginning all of the collection is to come. -/
  begins (d : Definition) : p.remainder limit (p.collecting d) = p.collect limit d
  /-- With each step, what is to come goes on. -/
  goesOn {s s' : Collecting H} (proceeds : p.Proceeds limit s s') :
    (p.remainder limit s).GoesOn (p.remainder limit s')
  /-- When there is no step, there is a result. -/
  comesToEnd (host : H) (s : Collecting H) :
    (∃ s', p.Proceeds limit s s') ∨ ∃ r, p.remainder limit s = .done r
  /-- Whenever a body runs, there are no more frames than the limit and one, all of different bodies. -/
  bounded {d : Definition} {s : Collecting H}
    (reaches : Relation.ReflTransGen (p.Proceeds limit) (p.collecting d) s) :
    s.collector.frames.length ≤ limit + 1 ∧
      (s.collector.frames.map BodyFrame.identity?).Pairwise Differ
  /-- To continue as a definition leaves the frames as they were, but for the delegate that the running
  one has if that succeeds. -/
  balanced (d : Definition) (c : Collector H) :
    (p.continueAs limit d c).Keeps (fun _ => True) fun x => x.1.outer = c.outer ∧
      ((∃ e, x.2 = .error e) ∧ x.1.frame = c.frame ∨ x.2 = .ok () ∧ ∃ r,
        x.1.frame = { c.frame with delegates := c.frame.delegates ++ [r] })
  /-- A chain of different aliases is collected as its last definition is, with the names of the chain
  outermost first, if it is not longer than the limit. -/
  short {base d : Definition} {as : List Definition} (chain : p.AliasChain base d as)
    (flat : (p.body base).IsFlat) (differ : (as.map Definition.identity?).Pairwise Differ)
    (fits : as.length ≤ limit) : p.collect limit d = (p.collect limit base).map
      (Except.map fun x => ⟨base.name, as.map Definition.name, x.directives⟩)
  /-- A longer one fails, and the error names the definition that had no room. -/
  long {base d : Definition} {as : List Definition} (chain : p.AliasChain base d as)
    (flat : (p.body base).IsFlat) (differ : (as.map Definition.identity?).Pairwise Differ)
    (exceeds : limit < as.length) : ∃ e, (as ++ [base])[limit + 1]? = some e ∧
      p.collect limit d = .done (.error (.tooDeep e.name limit))
  /-- So a chain over a definition that can be collected can be collected just if it is not longer. -/
  collects_iff {base d : Definition} {as : List Definition} {x : Collected (Entry H)}
    (chain : p.AliasChain base d as) (flat : (p.body base).IsFlat)
    (differ : (as.map Definition.identity?).Pairwise Differ)
    (alone : p.collect limit base = .done (.ok x)) :
    (∃ y, p.collect limit d = .done (.ok y)) ↔ as.length ≤ limit

/-- Delegation is bounded, and its bookkeeping is balanced. -/
theorem Program.goesSoFar (p : Program H) (limit : Nat) : p.GoesSoFar limit where
  ends := p.wellFounded_proceeds
  begins _ := p.remainder_collecting
  goesOn proceeds := proceeds.goesOn
  comesToEnd := p.exists_proceeds
  bounded reaches := ⟨(p.isBounded_of_reaches reaches).few, (p.isBounded_of_reaches reaches).differ⟩
  balanced d c := (p.balanced_continueAs limit d c).mono fun x balanced => by
    refine ⟨balanced.outer, ?_⟩
    cases r : x.2 with
    | error e => exact .inl ⟨⟨e, rfl⟩, balanced.failed r⟩
    | ok => exact .inr ⟨rfl, balanced.succeeded r⟩
  short chain flat differ fits := chain.collect_of_le flat differ fits
  long chain flat differ exceeds := chain.collect_of_lt flat differ exceeds
  collects_iff {base d as x} chain flat differ alone := by
    constructor
    · rintro ⟨y, collects⟩
      by_contra exceeds
      obtain ⟨e, _, fails⟩ := chain.collect_of_lt flat differ (Nat.not_le.1 exceeds)
      cases collects.symm.trans fails
    · intro fits
      exact ⟨_, by rw [chain.collect_of_le flat differ fits, alone]; rfl⟩

/-- With one continuation at most, the lamp cannot go by two other names. -/
example : Lamp.program.collect 1 (.renamed "Unlit" (.renamed "Dark" Lamp.off)) =
    .done (.error (.tooDeep "Off" 1)) := rfl

end ScopedMachine

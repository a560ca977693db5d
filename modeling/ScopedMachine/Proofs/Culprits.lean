import ScopedMachine.Proofs.Limits

/-!
# The innermost culprit

When bodies end with the error of a delegate that fails, an error passes through all the definitions
that were continued as, and none of them changes it. `Program.PassesOnBelow.fails_iff` says that a
collection fails with the error that was raised first: by a body that failed on its own, under the
name of its definition, or where a delegation was refused.
-/

namespace ScopedMachine

variable {H : Type}

/-! ## What a computation comes to -/

/-- A computation comes to a result, with some answers of the host. -/
inductive Gather.ComesTo {α : Type} : Gather H α → α → Prop where
  | done (a : α) : ComesTo (.done a) a
  | perform {s : Script H} {k : Except Fault Unit → Gather H α} {a : α} (r : Except Fault Unit)
      (rest : (k r).ComesTo a) : ComesTo (.perform s k) a
  | look {k : H → View → Gather H α} {a : α} (h : H) (v : View) (rest : (k h v).ComesTo a) :
      ComesTo (.look k) a

namespace Gather

variable {α : Type} {g g' : Gather H α} {a : α}

theorem ComesTo.of_keeps {S : Script H → Prop} {Q : α → Prop} (comes : g.ComesTo a)
    (keeps : g.Keeps S Q) : Q a := by
  induction comes with
  | done => exact keeps
  | perform r rest ih => exact ih (keeps.2 r)
  | look h v rest ih => exact ih (keeps h v)

theorem GoesOn.comesTo (goesOn : g.GoesOn g') (comes : g'.ComesTo a) : g.ComesTo a := by
  cases goesOn with
  | same => exact comes
  | perform s k r => exact .perform r comes
  | look k h v => exact .look h v comes

/-- A host that can be looked at lets every computation come to its end. -/
theorem exists_comesTo (host : H) (g : Gather H α) : ∃ a, g.ComesTo a := by
  induction g with
  | done a => exact ⟨a, .done a⟩
  | perform s k ih =>
    obtain ⟨a, comes⟩ := ih (.ok ())
    exact ⟨a, .perform _ comes⟩
  | look k ih =>
    obtain ⟨a, comes⟩ := ih host ⟨fun _ => false, fun _ => none, fun _ => {}, fun _ => {}⟩
    exact ⟨a, .look _ _ comes⟩

end Gather

/-! ## Errors that are raised -/

/-- At this instant of a collection an error is raised. -/
inductive Collecting.Raises (limit : Nat) : Collecting H → DefinitionError → Prop where
  /-- The body that runs fails, and the fault is put down to its definition. -/
  | failure {d : Definition} {f : Fault} {c : Collector H}
      {around : List (Definition × (Except DefinitionError Unit → Body H))}
      (plain : ∀ e, f ≠ .definition e) :
      Raises limit ⟨d, .finish (.error f), c, around⟩ (.failure d.name f)
  /-- The body that runs fails with an error of a definition, whichever that is. -/
  | own {d : Definition} {e : DefinitionError} {c : Collector H}
      {around : List (Definition × (Except DefinitionError Unit → Body H))} :
      Raises limit ⟨d, .finish (.error (.definition e)), c, around⟩ e
  /-- The body that runs continues as one that is running. -/
  | cycle {d target : Definition} {k : Except DefinitionError Unit → Body H} {c : Collector H}
      {around : List (Definition × (Except DefinitionError Unit → Body H))}
      (running : c.isRunning target = true) :
      Raises limit ⟨d, .continueAs target k, c, around⟩ (.cycle (c.names ++ [target.name]))
  /-- The body that runs continues as another one, and too many are running. -/
  | tooDeep {d target : Definition} {k : Except DefinitionError Unit → Body H} {c : Collector H}
      {around : List (Definition × (Except DefinitionError Unit → Body H))}
      (free : c.isRunning target = false) (full : limit < c.frames.length) :
      Raises limit ⟨d, .continueAs target k, c, around⟩ (.tooDeep target.name limit)

/-- A collection goes on from one instant to another, and meanwhile no error is raised. -/
abbrev Program.Unhindered (p : Program H) (limit : Nat) : Collecting H → Collecting H → Prop :=
  Relation.ReflTransGen fun s s' => p.Proceeds limit s s' ∧ ∀ e, ¬s.Raises limit e

/-- The first error of the collection of a definition. -/
structure Program.FirstError (p : Program H) (limit : Nat) (d : Definition) (s : Collecting H)
    (e : DefinitionError) : Prop where
  unhindered : p.Unhindered limit (p.collecting d) s
  raises : s.Raises limit e

/-- A body that was continued from some definition: what it goes on with is a part of it. -/
structure Program.Continues (p : Program H) (root : Definition)
    (x : Definition × (Except DefinitionError Unit → Body H)) : Prop where
  leads : p.LeadsTo root x.1
  part {r : Except DefinitionError Unit} {t : Definition} (mentions : (x.2 r).Mentions t) :
    (p.body x.1).Mentions t
  passes : (x.2 (.ok ())).PassesOn
  ends (e : DefinitionError) : (x.2 (.error e)).EndsIn (.definition e)

/-- What is known at each instant of a collection in which no error was raised. -/
structure Program.IsSmooth (p : Program H) (root : Definition) (s : Collecting H) : Prop where
  leads : p.LeadsTo root s.definition
  part {t : Definition} (mentions : s.body.Mentions t) : (p.body s.definition).Mentions t
  passes : s.body.PassesOn
  around : ∀ x ∈ s.around, p.Continues root x

section Culprits

variable {p : Program H} {limit : Nat} {root d : Definition} {s s' : Collecting H}
  {e e' : DefinitionError}

/-- At one instant one error is raised at most. -/
theorem Collecting.Raises.unique (raises : s.Raises limit e) (raises' : s.Raises limit e') :
    e = e' := by
  cases raises with
  | failure plain =>
    cases raises' with
    | failure => rfl
    | own => exact absurd rfl (plain _)
  | own =>
    cases raises' with
    | failure plain => exact absurd rfl (plain _)
    | own => rfl
  | cycle running =>
    cases raises' with
    | cycle => rfl
    | tooDeep free => cases running.symm.trans free
  | tooDeep free =>
    cases raises' with
    | cycle running => cases running.symm.trans free
    | tooDeep => rfl

theorem Program.PassesOnBelow.isSmooth_collecting (passes : p.PassesOnBelow root) :
    p.IsSmooth root (p.collecting root) where
  leads := .refl
  part mentions := mentions
  passes := passes root .refl
  around := List.forall_mem_nil _

theorem Program.PassesOnBelow.isSmooth_step (passes : p.PassesOnBelow root)
    (smooth : p.IsSmooth root s) (proceeds : p.Proceeds limit s s')
    (silent : ∀ e, ¬s.Raises limit e) : p.IsSmooth root s' := by
  obtain ⟨leads, part, here, around⟩ := smooth
  cases proceeds with
  | yield => exact ⟨leads, part, here, around⟩
  | cycle running => exact absurd (.cycle running) (silent _)
  | tooDeep free full => exact absurd (.tooDeep free full) (silent _)
  | @enter d target k c around' free room =>
    have leads' : p.LeadsTo root target := leads.tail (part (.inl rfl))
    refine ⟨leads', id, passes target leads', List.forall_mem_cons.2 ⟨?_, around⟩⟩
    exact ⟨leads, fun mentions => part (.inr ⟨_, mentions⟩), here.1, here.2⟩
  | @giveBack d caller k c r around' =>
    obtain ⟨first, others⟩ := List.forall_mem_cons.1 around
    cases r with
    | ok => exact ⟨first.leads, first.part, first.passes, others⟩
    | error f =>
      cases f with
      | definition e => exact absurd .own (silent e)
      | plain | build | machine => exact absurd (.failure nofun) (silent _)
  | perform r => exact ⟨leads, fun mentions => part ⟨r, mentions⟩, here r, around⟩
  | look h v => exact ⟨leads, fun mentions => part ⟨h, v, mentions⟩, here h v, around⟩

theorem Program.PassesOnBelow.isSmooth (passes : p.PassesOnBelow root)
    (unhindered : p.Unhindered limit (p.collecting root) s) : p.IsSmooth root s := by
  induction unhindered with
  | refl => exact passes.isSmooth_collecting
  | tail _ step ih => exact passes.isSmooth_step ih step.1 step.2

/-- An error passes through all the definitions around. The induction is on these: each of them ends
with the error that it is given, and that is what the next one is given. -/
theorem Program.keeps_afterwards {around : List (Definition × (Except DefinitionError Unit → Body H))}
    (ends : ∀ x ∈ around, ∀ e, (x.2 (.error e)).EndsIn (.definition e)) (d : Definition)
    (c : Collector H) (f : Fault) :
    (p.afterwards limit d around (c, .error f)).Keeps (fun _ => True)
      (· = .error (.ofBody d.name f)) := by
  induction around generalizing d c f with
  | nil => exact rfl
  | cons x around ih =>
    obtain ⟨caller, k⟩ := x
    obtain ⟨first, others⟩ := List.forall_mem_cons.1 ends
    refine Gather.Keeps.bind ((first (.ofBody d.name f)).follow
      (fun d c => (p.continueAs limit d c).keeps_any) _) ?_
    rintro ⟨c', r⟩ same
    cases same
    exact ih others caller c' (.definition (.ofBody d.name f))

/-- What an error leaves to come is that error. -/
theorem Program.IsSmooth.keeps_remainder (smooth : p.IsSmooth root s)
    (raises : s.Raises limit e) :
    (p.remainder limit s).Keeps (fun _ => True) (· = .error e) := by
  have ends : ∀ x ∈ s.around, ∀ e, (x.2 (.error e)).EndsIn (.definition e) :=
    fun x mem => (smooth.around x mem).ends
  obtain ⟨_, _, here, _⟩ := smooth
  -- a delegation that is refused lets the running body end with the refusal
  have refused {d target : Definition} {k : Except DefinitionError Unit → Body H} {c : Collector H}
      {around : List (Definition × (Except DefinitionError Unit → Body H))} {e : DefinitionError}
      (ends : ∀ x ∈ around, ∀ e, (x.2 (.error e)).EndsIn (.definition e))
      (here : (k (.error e)).EndsIn (.definition e))
      (refuses : p.continueAs limit target c = .done (c, .error e)) :
      (p.remainder limit ⟨d, .continueAs target k, c, around⟩).Keeps (fun _ => True)
        (· = .error e) := by
    rw [remainder, Body.follow, refuses]
    refine Gather.Keeps.bind (here.follow (fun d c => (p.continueAs limit d c).keeps_any) _) ?_
    rintro ⟨c', r⟩ same
    cases same
    exact keeps_afterwards ends d c' (.definition e)
  cases raises with
  | @failure d f c around plain =>
    have tagged : DefinitionError.ofBody d.name f = .failure d.name f := by
      cases f with
      | definition e => exact absurd rfl (plain e)
      | plain | build | machine => rfl
    exact tagged ▸ keeps_afterwards ends d c f
  | @own d e c around => exact keeps_afterwards ends d c (.definition e)
  | cycle running => exact refused ends (here.2 _) (continueAs_of_running running)
  | tooDeep free full => exact refused ends (here.2 _) (continueAs_of_full free full)

/-- At an instant at which no error is raised, a collection goes on or is over with success. -/
theorem Program.exists_smooth_step (silent : ∀ e, ¬s.Raises limit e)
    {r : Except DefinitionError (Collected (Entry H))} (comes : (p.remainder limit s).ComesTo r) :
    (∃ x, r = .ok x) ∨ ∃ s', p.Proceeds limit s s' ∧ (p.remainder limit s').ComesTo r := by
  obtain ⟨d, body, c, around⟩ := s
  -- without an answer of the host what is to come is the same after the step
  have same {s' : Collecting H} (proceeds : p.Proceeds limit ⟨d, body, c, around⟩ s')
      (same : p.remainder limit ⟨d, body, c, around⟩ = p.remainder limit s') :
      ∃ s', p.Proceeds limit ⟨d, body, c, around⟩ s' ∧ (p.remainder limit s').ComesTo r :=
    ⟨s', proceeds, same ▸ comes⟩
  cases body with
  | finish r' =>
    cases around with
    | cons x around => exact .inr (same .giveBack rfl)
    | nil =>
      cases r' with
      | error f =>
        cases f with
        | definition e => exact absurd .own (silent e)
        | plain | build | machine => exact absurd (.failure nofun) (silent _)
      | ok => cases comes; exact .inl ⟨_, rfl⟩
  | yield x next => exact .inr (same .yield rfl)
  | continueAs target k =>
    cases running : c.isRunning target with
    | true => exact absurd (.cycle running) (silent _)
    | false =>
      rcases Nat.lt_or_ge limit c.frames.length with full | room
      · exact absurd (.tooDeep running full) (silent _)
      · refine .inr (same (.enter running room) ?_)
        rw [remainder, Body.follow, continueAs_of_room running room, Gather.bind_map,
          Gather.bind_assoc]
        rfl
  | perform t k => cases comes with | perform a rest => exact .inr ⟨_, .perform a, rest⟩
  | look k => cases comes with | look h v rest => exact .inr ⟨_, .look h v, rest⟩

/-- A collection that comes to an error comes to an instant at which it is raised. -/
theorem Program.PassesOnBelow.exists_raises (passes : p.PassesOnBelow root)
    (smooth : p.IsSmooth root s) (comes : (p.remainder limit s).ComesTo (.error e)) :
    ∃ s', p.Unhindered limit s s' ∧ s'.Raises limit e ∧
      (p.remainder limit s').ComesTo (.error e) := by
  have ends : WellFounded fun s' s : Collecting H => p.Proceeds limit s s' := p.wellFounded_proceeds
  induction s using ends.induction with
  | h s ih =>
    by_cases silent : ∀ e, ¬s.Raises limit e
    · rcases exists_smooth_step silent comes with ⟨x, success⟩ | ⟨s₁, proceeds, rest⟩
      · cases success
      · obtain ⟨s', unhindered, found⟩ :=
          ih s₁ proceeds (passes.isSmooth_step smooth proceeds silent) rest
        exact ⟨s', .head ⟨proceeds, silent⟩ unhindered, found⟩
    · simp only [not_forall, not_not] at silent
      obtain ⟨e', raises⟩ := silent
      cases comes.of_keeps (smooth.keeps_remainder raises)
      exact ⟨s, .refl, raises, comes⟩

/-- A collection that fails does so with the error that was raised first. -/
theorem Program.PassesOnBelow.exists_firstError (passes : p.PassesOnBelow d)
    (comes : (p.collect limit d).ComesTo (.error e)) : ∃ s, p.FirstError limit d s e := by
  rw [← p.remainder_collecting] at comes
  obtain ⟨s, unhindered, raises, _⟩ := passes.exists_raises passes.isSmooth_collecting comes
  exact ⟨s, unhindered, raises⟩

/-- The first error is what is to come of a collection, whatever else happens. -/
theorem Program.FirstError.keeps (first : p.FirstError limit d s e) (passes : p.PassesOnBelow d) :
    (p.remainder limit s).Keeps (fun _ => True) (· = .error e) :=
  (passes.isSmooth first.unhindered).keeps_remainder first.raises

/-- What is to come later was to come before. -/
theorem Program.comesTo_of_unhindered {r : Except DefinitionError (Collected (Entry H))}
    (unhindered : p.Unhindered limit s s') (comes : (p.remainder limit s').ComesTo r) :
    (p.remainder limit s).ComesTo r := by
  induction unhindered with
  | refl => exact comes
  | tail _ step ih => exact ih (step.1.goesOn.comesTo comes)

/-- A collection fails just if an error is raised, and with the one that is raised first. -/
theorem Program.PassesOnBelow.fails_iff (passes : p.PassesOnBelow d) (host : H) :
    (p.collect limit d).ComesTo (.error e) ↔ ∃ s, p.FirstError limit d s e := by
  constructor
  · exact passes.exists_firstError
  · rintro ⟨s, first⟩
    obtain ⟨r, comes⟩ := Gather.exists_comesTo host (p.remainder limit s)
    cases comes.of_keeps (first.keeps passes)
    rw [← p.remainder_collecting]
    exact comesTo_of_unhindered first.unhindered comes

end Culprits

end ScopedMachine

import Mathlib.Logic.Relation
import ScopedMachine.Proofs.Cycles

/-!
# A higher limit

The limit of delegation is a bound on the search, and no part of what is searched for. When bodies
end with the error of a delegate that fails, a collection that comes to the limit anywhere ends with
just that error. `Program.PassesOnBelow.collect_of_le` is the converse: a collection with any other
result has the same result with every higher limit.
-/

namespace ScopedMachine

variable {H : Type}

/-! ## What a body leads to -/

/-- In its course a body may continue as a definition. -/
def Body.Mentions (target : Definition) : Body H → Prop
  | .finish _ => False
  | .yield _ next => next.Mentions target
  | .continueAs first k => first = target ∨ ∃ r, (k r).Mentions target
  | .perform _ k => ∃ r, (k r).Mentions target
  | .look k => ∃ h v, (k h v).Mentions target

/-- A definition is continued as at some level of delegation, or is the one at the top. -/
abbrev Program.LeadsTo (p : Program H) : Definition → Definition → Prop :=
  Relation.ReflTransGen fun d target => (p.body d).Mentions target

/-- A body runs no host code and asks the host nothing. -/
def Body.IsSilent : Body H → Prop
  | .finish _ => True
  | .yield _ next => next.IsSilent
  | .continueAs _ k => ∀ r, (k r).IsSilent
  | .perform .. | .look _ => False

/-- A body ends with the error of a delegate that fails. -/
def Body.PassesOn : Body H → Prop
  | .finish _ => True
  | .yield _ next => next.PassesOn
  | .continueAs _ k => (k (.ok ())).PassesOn ∧ ∀ e, (k (.error e)).EndsIn (.definition e)
  | .perform _ k => ∀ r, (k r).PassesOn
  | .look k => ∀ h v, (k h v).PassesOn

/-- At every level of delegation below a definition, bodies are silent. -/
def Program.IsSilentBelow (p : Program H) (d : Definition) : Prop :=
  ∀ t, p.LeadsTo d t → (p.body t).IsSilent

/-- At every level of delegation below a definition, bodies pass the errors of delegates on. -/
def Program.PassesOnBelow (p : Program H) (d : Definition) : Prop :=
  ∀ t, p.LeadsTo d t → (p.body t).PassesOn

section Below

variable {p : Program H} {d t : Definition}

/-- If all declared bodies are silent, then so are those below a definition. -/
theorem Program.isSilentBelow (silent : ∀ key, (p.declared key).IsSilent) (d : Definition) :
    p.IsSilentBelow d := by
  intro t _
  cases t with
  | shared key | fresh key => exact silent key
  | renamed name target => exact fun _ => trivial

/-- If all declared bodies pass errors on, then so do those below a definition. -/
theorem Program.passesOnBelow (passes : ∀ key, (p.declared key).PassesOn) (d : Definition) :
    p.PassesOnBelow d := by
  intro t _
  cases t with
  | shared key | fresh key => exact passes key
  | renamed name target => exact ⟨trivial, fun _ => rfl⟩

theorem Program.IsSilentBelow.delegate (silent : p.IsSilentBelow d)
    (mentions : (p.body d).Mentions t) : p.IsSilentBelow t :=
  fun t leads => silent t (.head mentions leads)

theorem Program.PassesOnBelow.delegate (passes : p.PassesOnBelow d)
    (mentions : (p.body d).Mentions t) : p.PassesOnBelow t :=
  fun t leads => passes t (.head mentions leads)

end Below

/-! ## Silent bodies -/

section Silent

variable {p : Program H} {limit room : Nat} {d : Definition} {c : Collector H}

/-- To continue as a definition that may be, one follows its body and gives the frame back. -/
theorem Program.delegate_succ (free : c.isRunning d = false) :
    p.delegate limit (room + 1) d c =
      ((p.body d).follow (p.delegate limit room) (c.enter d)).map d.giveBack := by
  rw [delegate, free]
  rfl

/-- A silent body is followed to its end at once, if its delegates are. -/
theorem Body.IsSilent.follow {b : Body H} (silent : b.IsSilent)
    {delegate : Definition → Collector H → Gather H (Collector H × Except DefinitionError Unit)}
    (delegates : ∀ {t}, b.Mentions t → ∀ c, ∃ x, delegate t c = .done x) (c : Collector H) :
    ∃ x, b.follow delegate c = .done x := by
  induction b generalizing c with
  | finish r => exact ⟨_, rfl⟩
  | yield d next ih => exact ih silent delegates (c.push d)
  | continueAs target k ih =>
    obtain ⟨x, first⟩ := delegates (.inl rfl) c
    rw [Body.follow, first]
    exact ih x.2 (silent x.2) (fun mentions => delegates (.inr ⟨x.2, mentions⟩)) x.1
  | perform | look => cases silent

theorem Program.IsSilentBelow.exists_delegate (silent : p.IsSilentBelow d) :
    ∃ x, p.delegate limit room d c = .done x := by
  induction room generalizing d c with
  | zero => unfold Program.delegate; split <;> exact ⟨_, rfl⟩
  | succ room ih =>
    cases free : c.isRunning d with
    | true => exact ⟨_, delegate_of_running free⟩
    | false =>
      have delegates {t : Definition} (mentions : (p.body d).Mentions t) (c : Collector H) :
          ∃ x, p.delegate limit room t c = .done x := ih (silent.delegate mentions)
      obtain ⟨x, inside⟩ := (silent d .refl).follow delegates (c.enter d)
      rw [delegate_succ free, inside]
      exact ⟨_, rfl⟩

/-- The collection of a definition with silent bodies below it is over at once. -/
theorem Program.IsSilentBelow.exists_collect (silent : p.IsSilentBelow d) :
    ∃ r, p.collect limit d = .done r := by
  have delegates {t : Definition} (mentions : (p.body d).Mentions t) (c : Collector H) :
      ∃ x, p.delegate limit limit t c = .done x := (silent.delegate mentions).exists_delegate
  obtain ⟨x, inside⟩ := (silent d .refl).follow delegates (.root d)
  exact ⟨_, congrArg (Gather.map _) inside⟩

end Silent

/-! ## With less room and with more -/

/-- Delegation would nest too deep. -/
def DefinitionError.IsTooDeep (e : DefinitionError) : Prop :=
  ∃ state limit, e = .tooDeep state limit

/-- What a computation comes to with less room, and with more: it comes to the limit with less room,
or it fails with the same error, or it does the same. -/
inductive Decides {ε : Type} (deep : ε → Prop) :
    Collector H × Except ε Unit → Collector H × Except ε Unit → Prop where
  | refused {c : Collector H} {e : ε} {x' : Collector H × Except ε Unit} (limit : deep e) :
      Decides deep (c, .error e) x'
  | failed {c c' : Collector H} {e : ε} : Decides deep (c, .error e) (c', .error e)
  | succeeded {c : Collector H} : Decides deep (c, .ok ()) (c, .ok ())

/-- A fault says that delegation would nest too deep. -/
def Fault.IsTooDeep (f : Fault) : Prop := ∃ e, f = .definition e ∧ e.IsTooDeep

theorem Fault.IsTooDeep.ofBody {f : Fault} (deep : f.IsTooDeep) (name : String) :
    (DefinitionError.ofBody name f).IsTooDeep := by
  obtain ⟨e, rfl, deep⟩ := deep
  exact deep

section Room

variable {p : Program H} {limit limit' room gap : Nat} {d : Definition} {c : Collector H}

theorem Gather.keeps_any {α : Type} (g : Gather H α) :
    g.Keeps (fun _ => True) fun _ => True := by
  induction g with
  | done a => trivial
  | perform s k ih => exact ⟨trivial, ih⟩
  | look k ih => exact ih

/-- A body that ends with a fault whatever happens does so in the end. -/
theorem Body.EndsIn.eq_of_follow {b : Body H} {f : Fault} (ends : b.EndsIn f)
    {delegate : Definition → Collector H → Gather H (Collector H × Except DefinitionError Unit)}
    {x : Collector H × Except Fault Unit} (runs : b.follow delegate c = .done x) :
    ∃ c', x = (c', .error f) := by
  have kept := ends.follow (fun d c => (delegate d c).keeps_any) c
  rw [runs] at kept
  exact ⟨x.1, Prod.ext rfl kept⟩

/-- What a body comes to with less room is decided if it is for its delegates. -/
theorem Body.PassesOn.decides {b : Body H} (passes : b.PassesOn)
    {delegate delegate' :
      Definition → Collector H → Gather H (Collector H × Except DefinitionError Unit)}
    (delegates : ∀ {t}, b.Mentions t → ∀ {c x x'}, delegate t c = .done x →
      delegate' t c = .done x' → Decides DefinitionError.IsTooDeep x x')
    {x x' : Collector H × Except Fault Unit} (runs : b.follow delegate c = .done x)
    (runs' : b.follow delegate' c = .done x') : Decides Fault.IsTooDeep x x' := by
  induction b generalizing c with
  | finish r =>
    cases runs; cases runs'
    cases r with
    | error f => exact .failed
    | ok => exact .succeeded
  | yield d next ih => exact ih passes delegates runs runs'
  | continueAs target k ih =>
    obtain ⟨y, first, rest⟩ := Gather.exists_of_bind runs
    obtain ⟨y', first', rest'⟩ := Gather.exists_of_bind runs'
    cases delegates (.inl rfl) first first' with
    | refused limit =>
      obtain ⟨_, rfl⟩ := (passes.2 _).eq_of_follow rest
      exact .refused ⟨_, rfl, limit⟩
    | failed =>
      obtain ⟨_, rfl⟩ := (passes.2 _).eq_of_follow rest
      obtain ⟨_, rfl⟩ := (passes.2 _).eq_of_follow rest'
      exact .failed
    | succeeded =>
      exact ih (.ok ()) passes.1 (fun mentions => delegates (.inr ⟨_, mentions⟩)) rest rest'
  | perform | look => cases runs

/-- To continue as a definition with more room comes to the same, unless there is too little. -/
theorem Program.PassesOnBelow.decides (passes : p.PassesOnBelow d)
    {x x' : Collector H × Except DefinitionError Unit}
    (runs : p.delegate limit room d c = .done x)
    (runs' : p.delegate limit' (room + gap) d c = .done x') :
    Decides DefinitionError.IsTooDeep x x' := by
  induction room generalizing d c x x' with
  | zero =>
    cases free : c.isRunning d with
    | true =>
      cases (delegate_of_running free).symm.trans runs
      cases (delegate_of_running free).symm.trans runs'
      exact .failed
    | false =>
      cases (delegate_zero free).symm.trans runs
      exact .refused ⟨_, _, rfl⟩
  | succ room ih =>
    cases free : c.isRunning d with
    | true =>
      cases (delegate_of_running free).symm.trans runs
      cases (delegate_of_running free).symm.trans runs'
      exact .failed
    | false =>
      rw [delegate_succ free] at runs
      rw [Nat.succ_add, delegate_succ free] at runs'
      obtain ⟨y, inside, back⟩ := Gather.exists_of_bind runs
      obtain ⟨y', inside', back'⟩ := Gather.exists_of_bind runs'
      cases back; cases back'
      cases (passes d .refl).decides (fun mentions => ih (passes.delegate mentions)) inside inside' with
      | refused limit => exact .refused (limit.ofBody d.name)
      | failed => exact .failed
      | succeeded => exact .succeeded

/-- A collection has the same result with a higher limit, unless it comes to the limit. -/
theorem Program.PassesOnBelow.collect_decides (passes : p.PassesOnBelow d)
    {r r' : Except DefinitionError (Collected (Entry H))} (runs : p.collect limit d = .done r)
    (runs' : p.collect (limit + gap) d = .done r') :
    (∃ e, r = .error e ∧ e.IsTooDeep) ∨ r' = r := by
  obtain ⟨x, inside, ends⟩ := Gather.exists_of_bind runs
  obtain ⟨x', inside', ends'⟩ := Gather.exists_of_bind runs'
  cases ends; cases ends'
  cases (passes d .refl).decides (fun mentions => (passes.delegate mentions).decides) inside inside' with
  | refused limit => exact .inl ⟨_, rfl, limit.ofBody d.name⟩
  | failed => exact .inr rfl
  | succeeded => exact .inr rfl

/-- A collection that does not come to the limit has the same result with every higher limit. -/
theorem Program.PassesOnBelow.collect_of_le (passes : p.PassesOnBelow d)
    (silent : p.IsSilentBelow d) (le : limit ≤ limit')
    {r : Except DefinitionError (Collected (Entry H))} (runs : p.collect limit d = .done r)
    (decided : ∀ e, r = .error e → ¬e.IsTooDeep) : p.collect limit' d = .done r := by
  obtain ⟨gap, rfl⟩ := Nat.exists_eq_add_of_le le
  obtain ⟨r', runs'⟩ := silent.exists_collect
  rcases passes.collect_decides runs runs' with ⟨e, same, deep⟩ | same
  · exact absurd deep (decided e same)
  · rw [runs', same]

end Room

end ScopedMachine

import ScopedMachine.Proofs.Likeness

/-!
# Collections under new names

A definition under new names is collected as it is without them, but for its aliases, which then
begin with the new names. Each new name is one more frame around the others. It has no identity, no
directives of its own, and one delegate, so it resolves to that.
-/

namespace ScopedMachine

variable {H : Type}

/-! ## Room for a collection -/

namespace Program

variable (p : Program H)

/-- To continue as a definition comes to no continuation that the limit refuses. -/
def Admits (limit room : Nat) (d : Definition) (c : Collector H) : Prop :=
  ∀ e c', p.Meets limit room d c 0 e c' → c'.isRunning e = true

/-- A collection does not hit the limit. -/
def HasRoom (limit : Nat) (d : Definition) : Prop :=
  ∀ target c, (p.body d).Asks (p.delegate limit limit) (.root d) target c →
    p.Admits limit limit target c

/-- The body of a new name has one delegate and nothing else. -/
theorem follow_renamed {p : Program H} {name : String} {d : Definition} {c : Collector H}
    {delegate : Definition → Collector H → Gather H (Collector H × Except DefinitionError Unit)}
    {x : Collector H × Except DefinitionError Unit} (here : delegate d c = .done x) :
    (p.body (.renamed name d)).follow delegate c = .done (x.1, x.2.mapError Fault.definition) := by
  rw [Program.body, Body.follow, here]
  rfl

end Program

/-! ## The two programs -/

/-- The declared bodies run alike, and the host makes nothing of what may differ in records. -/
structure Pairing.IsLawful (P : Pairing H) : Prop where
  declared (key : String) : (P.left.declared key).Alike (Directive.Like P (Entry.Like P))
    DefinitionError.Like Fault.Like (P.right.declared key)
  subscriber {r r' : Record} {h h' : H} (records : r.Like r') (hosts : P.host h h') :
    P.host (P.left.subscriber r h) (P.right.subscriber r' h')

namespace Pairing

variable {P : Pairing H} {limit room : Nat} {d : Definition} {hops : List String} {c : Collector H}

theorem IsLawful.body (lawful : P.IsLawful) (d : Definition) :
    (P.left.body d).Alike (Directive.Like P (Entry.Like P)) DefinitionError.Like Fault.Like
      (P.right.body d) := by
  cases d with
  | shared key | fresh key => exact lawful.declared key
  | renamed name target =>
    refine .continueAs fun r r' same => .finish ?_
    cases same with
    | ok => exact .ok trivial
    | error errors => exact .error (.definition errors)

/-- Frames of new names are those of no body. -/
theorem isAmong_of_nameless {fs : List BodyFrame} (nameless : ∀ f ∈ fs, f.identity? = none)
    (d : Definition) : d.isAmong fs = false := by
  unfold Definition.isAmong
  cases d.identity? with
  | none => rfl
  | some key =>
    refine List.any_eq_false.2 fun f mem => ?_
    rw [nameless f mem]
    exact Bool.false_ne_true

/-- The right program follows a body as the left one does, inside frames of new names. -/
theorem IsLawful.follow (lawful : P.IsLawful) (limit room gap : Nat) {i : Collector H}
    {fs : List BodyFrame} {ds : List (Directive (Entry H))}
    (nameless : ∀ f ∈ fs, f.identity? = none)
    (within : i.Within (Directive.Like P (Entry.Like P)) ds fs c)
    (admits : ∀ target c', (P.right.body d).Asks (P.right.delegate limit room) c target c' →
      P.right.Admits limit room target c') :
    Gather.Tallies (Directive.Like P (Entry.Like P)) Fault.Like ds fs i.outer
      ((P.left.body d).follow (P.left.delegate limit (room + gap)) i)
      ((P.right.body d).follow (P.right.delegate limit room) c) := by
  refine (lawful.body d).follow within (fun asks left e c'' meets => ?_)
    (Program.delegate_within lawful.body (fun chain chain' => .cycle chain chain')
      fun name f f' faults => faults.ofBody name)
  refine ⟨isAmong_of_nameless nameless e, ?_⟩
  rintro rfl free
  exact absurd (admits _ _ asks e c'' meets) (Bool.eq_false_iff.1 free)

/-- What comes of continuing as a definition under new names, where the left program collects the
definition alone. -/
inductive Renames (P : Pairing H) (limit room : Nat) (d : Definition) (hops : List String)
    (c : Collector H) : Prop where
  | taken {x x' : Collected (Entry H)} (alone : P.left.collect limit d = .done (.ok x))
      (here : P.right.delegate limit room (d.under hops) c = .done (c.absorb x', .ok ()))
      (name : x.name = x'.name) (first : x'.aliases = hops ++ x.aliases)
      (directives : List.Forall₂ (Directive.Like P (Entry.Like P)) x.directives x'.directives)
  | refused {e e' : DefinitionError} {c' : Collector H}
      (alone : P.left.collect limit d = .done (.error e))
      (here : P.right.delegate limit room (d.under hops) c = .done (c', .error e'))
      (errors : e.Like e')

/-- Without new names, a definition that is continued as inside frames of new names does what it
does alone. -/
theorem IsLawful.renames_nil (lawful : P.IsLawful)
    (nameless : ∀ f ∈ c.frames, f.identity? = none) (less : room < limit)
    (admits : P.right.Admits limit (room + 1) d c) : P.Renames limit (room + 1) d [] c := by
  have free : c.isRunning d = false := isAmong_of_nameless nameless d
  obtain ⟨gap, rfl⟩ := Nat.exists_eq_add_of_le (Nat.le_of_lt less)
  obtain ⟨⟨i, r⟩, ⟨c', r'⟩, runs, runs', within, agree, root⟩ :=
    lawful.follow (room + gap) room gap nameless
      (Collector.Within.enter_root d)
      fun target c' asks e c'' meets => admits e c'' (.inside free asks meets)
  obtain ⟨⟨own, directives, same⟩, frame, outer⟩ := within
  have stack : c'.outer = c.frame :: c.outer := outer.trans (congrArg (· ++ c.frames) root)
  cases agree with
  | ok =>
    have left : c'.leave true = c.absorb ⟨i.finish.name, i.finish.aliases, own⟩ := by
      rw [Collector.leave_eq stack, show c'.frame = i.frame from frame,
        show c'.directives = c.directives ++ own from directives]
      rfl
    have here := Program.delegate_of_ok free runs'
    rw [left] at here
    exact .taken (Program.collect_of_ok runs) here rfl rfl same
  | error faults =>
    exact .refused (Program.collect_of_error runs) (Program.delegate_of_error free runs')
      (faults.ofBody d.name)

/-- A definition that is continued as under new names, inside frames of new names, does what it does
alone. -/
theorem IsLawful.renames (lawful : P.IsLawful) (nameless : ∀ f ∈ c.frames, f.identity? = none)
    (less : room < limit) (admits : P.right.Admits limit (room + 1) (d.under hops) c) :
    P.Renames limit (room + 1) d hops c := by
  induction hops generalizing room c with
  | nil => exact lawful.renames_nil nameless less admits
  | cons n hops ih =>
    let top : Definition := .renamed n (d.under hops)
    have free : c.isRunning top = false := rfl
    have nameless : ∀ f ∈ (c.enter top).frames, f.identity? = none :=
      List.forall_mem_cons.2 ⟨rfl, nameless⟩
    have admits : P.right.Admits limit room (d.under hops) (c.enter top) :=
      fun e c' meets => admits e c' (.inside free .here meets)
    cases room with
    | zero =>
      have running := admits _ _ .here
      rw [show (c.enter top).isRunning _ = false from isAmong_of_nameless nameless _] at running
      cases running
    | succ room =>
      cases ih nameless (by omega) admits with
      | @taken x x' alone here name first directives =>
        have left : ((c.enter top).absorb x').leave true =
            c.absorb ⟨x'.name, n :: x'.aliases, x'.directives⟩ := rfl
        have here := Program.delegate_of_ok free (Program.follow_renamed here)
        rw [left] at here
        exact .taken alone here name (congrArg (n :: ·) first) directives
      | refused alone here errors =>
        exact .refused alone (Program.delegate_of_error free (Program.follow_renamed here)) errors

/-- A reference of the one program and the corresponding one of the other are collected alike; the
names that the other one goes through come first in its aliases. -/
theorem IsLawful.collect (lawful : P.IsLawful) (through : P.Through d hops)
    (room : P.right.HasRoom limit (d.under hops)) :
    ∃ r r', P.left.collect limit d = .done r ∧ P.right.collect limit (d.under hops) = .done r' ∧
      Concur (fun x x' => x.Like P (Entry.Like P) x' ∧ x'.aliases = hops ++ x.aliases)
        DefinitionError.Like r r' := by
  cases hops with
  | nil =>
    have within : (Collector.root d).Within (Directive.Like P (Entry.Like P)) [] [] (.root d) :=
      ⟨⟨[], rfl, .nil⟩, rfl, rfl⟩
    obtain ⟨⟨i, r⟩, ⟨c, r'⟩, runs, runs', ⟨⟨own, directives, same⟩, frame, outer⟩, agree, root⟩ :=
      lawful.follow limit limit 0 (fun f mem => absurd mem List.not_mem_nil) within room
    cases agree with
    | ok =>
      refine ⟨_, _, Program.collect_of_ok runs, Program.collect_of_ok runs', ?_⟩
      have resolved : c.finish = ⟨i.finish.name, i.finish.aliases, own⟩ := by
        rw [Collector.finish, show c.frame = i.frame from frame,
          show c.directives = own from directives]
        rfl
      rw [resolved]
      exact .ok ⟨⟨rfl, .refl _, same⟩, rfl⟩
    | error faults =>
      exact ⟨_, _, Program.collect_of_error runs, Program.collect_of_error runs',
        .error (faults.ofBody d.name)⟩
  | cons n hops =>
    let top : Definition := .renamed n (d.under hops)
    have nameless : ∀ f ∈ (Collector.root top : Collector H).frames, f.identity? = none :=
      fun f mem => List.mem_singleton.1 mem ▸ rfl
    have admits : P.right.Admits limit limit (d.under hops) (.root top) := room _ _ .here
    cases limit with
    | zero =>
      have running := admits _ _ .here
      rw [show (Collector.root top : Collector H).isRunning _ = false from
        isAmong_of_nameless nameless _] at running
      cases running
    | succ limit =>
      cases lawful.renames nameless (Nat.lt_succ_self limit) admits with
      | @taken x x' alone here name first directives =>
        have first : n :: x'.aliases = n :: hops ++ x.aliases := congrArg (n :: ·) first
        refine ⟨_, _, alone, Program.collect_of_ok (Program.follow_renamed here),
          .ok ⟨⟨name, ?_, directives⟩, first⟩⟩
        exact ⟨d, n :: hops, through, first⟩
      | refused alone here errors =>
        exact ⟨_, _, alone, Program.collect_of_error (Program.follow_renamed here), .error errors⟩

end Pairing

end ScopedMachine

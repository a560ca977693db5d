import ScopedMachine.Proofs.Aliases
import ScopedMachine.Proofs.Collecting

/-!
# What a definition that is renamed collects

A definition goes by the name of another one when it yielded nothing itself and continued as exactly
one definition with success. Both are counted in its frame, while its directives are in a list that
all frames share. `Body.exists_of_one` ties the two together: what was yielded on the way of such a
body is what its one delegate yielded, and what delegates that failed had yielded before they did.
From it, by induction on the aliases, the directives are those of the definition whose name is taken.

What that definition yields in place is what it yields alone only if its own delegates do not come
back to a body that is running around it, and only with the room that is left. `Lamp.lookalikes` has
an example of each way in which it can be otherwise.
-/

namespace ScopedMachine

variable {H : Type}

/-! ## Frames that are renamed -/

/-- A frame that has no alias resolves to its own name. -/
theorem BodyFrame.resolve_of_aliases_nil {f : BodyFrame} (none : f.resolve.aliases = []) :
    f.resolve.name = f.name := by
  unfold resolve at none ⊢
  split at none
  · cases none
  · rfl

/-- The first alias of a frame is its own name. It has nothing of its own, and the rest is that of its
one delegate. -/
theorem BodyFrame.exists_of_aliases_cons {f : BodyFrame} {name : String} {names : List String}
    (some : f.resolve.aliases = name :: names) : ∃ r : Resolved, f.own = 0 ∧ f.delegates = [r] ∧
      name = f.name ∧ names = r.aliases ∧ f.resolve.name = r.name := by
  unfold resolve at some ⊢
  split at some
  · next r own one =>
    cases some
    exact ⟨r, own, one, rfl, rfl, rfl⟩
  · cases some

/-! ## Bodies with one delegate -/

/-- Delegates give the frames back. -/
def GivesBack
    (delegate : Definition → Collector H → Gather H (Collector H × Except DefinitionError Unit)) :
    Prop :=
  ∀ d c x, delegate d c = .done x → c.Balanced x

/-- None of the delegates of a body that failed had yielded anything. -/
def Body.FailsClean
    (delegate : Definition → Collector H → Gather H (Collector H × Except DefinitionError Unit))
    (b : Body H) (i : Collector H) : Prop :=
  ∀ t c, b.Asks delegate i t c → ∀ c' e, delegate t c = .done (c', .error e) →
    c'.directives = c.directives

section Counts

variable {delegate : Definition → Collector H → Gather H (Collector H × Except DefinitionError Unit)}
  {b : Body H} {i i' : Collector H} {result : Except Fault Unit} {r : Resolved}

/-- The counts of a frame only go up. -/
theorem Body.counts_of_follow (back : GivesBack delegate)
    (runs : b.follow delegate i = .done (i', result)) :
    i.frame.own ≤ i'.frame.own ∧ i.frame.delegates <+: i'.frame.delegates := by
  induction b generalizing i with
  | finish r => cases runs; exact ⟨Nat.le_refl _, List.prefix_refl _⟩
  | yield d next ih =>
    obtain ⟨own, delegates⟩ := ih runs
    exact ⟨Nat.le_of_succ_le own, delegates⟩
  | continueAs target k ih =>
    obtain ⟨x, asked, rest⟩ := Gather.exists_of_bind runs
    have balanced := back target i x asked
    obtain ⟨own, delegates⟩ := ih x.2 rest
    cases answer : x.2 with
    | error e =>
      rw [balanced.failed answer] at own delegates
      exact ⟨own, delegates⟩
    | ok =>
      obtain ⟨r, frame⟩ := balanced.succeeded answer
      rw [frame] at own delegates
      exact ⟨own, (List.prefix_append _ _).trans delegates⟩
  | perform | look => cases runs

/-- A body that has yielded nothing and counts no delegates has collected nothing, if its delegates
failed clean. -/
theorem Body.directives_of_none (back : GivesBack delegate) (clean : b.FailsClean delegate i)
    (runs : b.follow delegate i = .done (i', result)) (own : i'.frame.own = i.frame.own)
    (none : i'.frame.delegates = i.frame.delegates) : i'.directives = i.directives := by
  induction b generalizing i with
  | finish r => cases runs; rfl
  | yield d next ih =>
    have more := (counts_of_follow back (b := next) runs).1
    rw [own] at more
    exact absurd more (Nat.not_succ_le_self _)
  | continueAs target k ih =>
    obtain ⟨⟨c, answer⟩, asked, rest⟩ := Gather.exists_of_bind runs
    have balanced := back target i _ asked
    cases answer with
    | error e =>
      have same : c.frame = i.frame := balanced.failed rfl
      have nothing : c.directives = i.directives := clean target i .here c e asked
      rw [← nothing]
      exact ih (.error e) (fun t c' asks => clean t c' (.later asked asks)) rest
        (own.trans (congrArg BodyFrame.own same.symm))
        (none.trans (congrArg BodyFrame.delegates same.symm))
    | ok =>
      obtain ⟨r, frame⟩ := balanced.succeeded rfl
      have more := (counts_of_follow back rest).2.length_le
      rw [frame, none, List.length_append] at more
      exact absurd more (Nat.not_succ_le_self _)
  | perform | look => cases runs

/-- A body that has yielded nothing and counts one delegate continued as one definition with success.
If those that failed did so clean, nothing was collected before that and nothing after it. -/
theorem Body.exists_of_one (back : GivesBack delegate)
    (runs : b.follow delegate i = .done (i', result)) (own : i'.frame.own = i.frame.own)
    (one : i'.frame.delegates = i.frame.delegates ++ [r]) :
    ∃ t c c', b.Asks delegate i t c ∧ delegate t c = .done (c', .ok ()) ∧ c.frames = i.frames ∧
      c'.frame.delegates = c.frame.delegates ++ [r] ∧
      (b.FailsClean delegate i → c.directives = i.directives ∧ i'.directives = c'.directives) := by
  induction b generalizing i with
  | finish answer =>
    cases runs
    exact absurd (congrArg List.length one) (by simp)
  | yield d next ih =>
    have more := (counts_of_follow back (b := next) runs).1
    rw [own] at more
    exact absurd more (Nat.not_succ_le_self _)
  | continueAs target k ih =>
    obtain ⟨⟨c, answer⟩, asked, rest⟩ := Gather.exists_of_bind runs
    have balanced := back target i _ asked
    cases answer with
    | error e =>
      have same : c.frame = i.frame := balanced.failed rfl
      have frames : c.frames = i.frames := by
        rw [Collector.frames, same, show c.outer = i.outer from balanced.outer]
        rfl
      obtain ⟨t, c₁, c₂, asks, succeeds, there, counted, directives⟩ :=
        ih (.error e) rest (own.trans (congrArg BodyFrame.own same.symm))
          (one.trans (congrArg (BodyFrame.delegates · ++ [r]) same.symm))
      refine ⟨t, c₁, c₂, .later asked asks, succeeds, there.trans frames, counted, fun clean => ?_⟩
      have nothing : c.directives = i.directives := clean target i .here c e asked
      obtain ⟨before, after⟩ := directives fun t c' asks => clean t c' (.later asked asks)
      exact ⟨before.trans nothing, after⟩
    | ok =>
      obtain ⟨r', frame⟩ := balanced.succeeded rfl
      have frame : c.frame = { i.frame with delegates := i.frame.delegates ++ [r'] } := frame
      have counted := (counts_of_follow back rest).2
      rw [frame, one] at counted
      have same := counted.eq_of_length (by simp)
      have only : c.frame.delegates = i'.frame.delegates := by rw [one, frame, same]
      refine ⟨target, i, c, .here, asked, rfl, by rw [frame, same], fun clean => ⟨rfl, ?_⟩⟩
      refine directives_of_none back (fun t c' asks => clean t c' (.later asked asks)) rest ?_ only.symm
      rw [own, frame]
  | perform | look => cases runs

end Counts

/-! ## Chains -/

theorem Program.givesBack (p : Program H) (limit : Nat) : GivesBack (p.continueAs limit) := by
  intro d c x done
  have balanced := p.balanced_continueAs limit d c
  rw [done] at balanced
  exact balanced

/-- A definition that began to run with a collector continues with success as the next one, and so on,
to a last one: the definitions before that with the collectors that they began with, the last one, and
the collector that it was continued as from. -/
inductive Program.GoesBy (p : Program H) (limit : Nat) : Definition → Collector H →
    List (Definition × Collector H) → Definition → Collector H → Prop where
  | last {d t : Definition} {i c c' : Collector H}
      (asks : (p.body d).Asks (p.continueAs limit) i t c)
      (succeeds : p.continueAs limit t c = .done (c', .ok ())) : GoesBy p limit d i [(d, i)] t c
  | hop {d t n : Definition} {i c c' c'' : Collector H} {hops : List (Definition × Collector H)}
      (asks : (p.body d).Asks (p.continueAs limit) i t c)
      (succeeds : p.continueAs limit t c = .done (c', .ok ()))
      (rest : p.GoesBy limit t (c.enter t) hops n c'') : GoesBy p limit d i ((d, i) :: hops) n c''

section Chain

variable {p : Program H} {limit : Nat} {d : Definition} {c c' i i' : Collector H}

/-- To continue as a definition with success is to follow its body to a success. -/
theorem Program.exists_of_continueAs (succeeds : p.continueAs limit d c = .done (c', .ok ())) :
    ∃ c₁, c.frames.length ≤ limit ∧
      (p.body d).follow (p.continueAs limit) (c.enter d) = .done (c₁, .ok ()) ∧
      c' = c₁.leave true := by
  obtain ⟨n, c₁, room, free, inside, rfl⟩ := exists_of_delegate succeeds
  have left : n + (c.enter d).frames.length = limit + 1 := by
    have longer : (c.enter d).frames.length = c.frames.length + 1 := rfl
    omega
  rw [Body.follow_continueAs _ left] at inside
  exact ⟨c₁, by omega, inside, rfl⟩

/-- A definition that is left counts as what it resolves to. -/
theorem Collector.SameStack.delegates_leave (same : (c.enter d).SameStack c') :
    (c'.leave true).frame.delegates = c.frame.delegates ++ [c'.frame.resolve] ∧
      (c'.leave true).directives = c'.directives := by
  have outer : c'.outer = c.frame :: c.outer := same.outer
  rw [Collector.leave_eq outer]
  exact ⟨rfl, rfl⟩

theorem Program.sameStack_of_follow {b : Body H} {r : Except Fault Unit}
    (runs : b.follow (p.continueAs limit) i = .done (i', r)) : i.SameStack i' := by
  have same := b.sameStack_follow (p.balanced_continueAs limit) i
  rw [runs] at same
  exact same

/-- A definition that is renamed continued as one definition with success, from the frames that it
began with. Its name is the first alias of that one. -/
theorem Program.exists_of_renamed {first : String} {rest : List String}
    (starts : i.frame = .ofDefinition d)
    (runs : (p.body d).follow (p.continueAs limit) i = .done (i', .ok ()))
    (renamed : i'.frame.resolve.aliases = first :: rest) :
    ∃ t c c₁, (p.body d).Asks (p.continueAs limit) i t c ∧
      p.continueAs limit t c = .done (c₁.leave true, .ok ()) ∧ c.frames.length ≤ limit ∧
      (p.body t).follow (p.continueAs limit) (c.enter t) = .done (c₁, .ok ()) ∧
      c.frames = i.frames ∧ first = d.name ∧ c₁.frame.resolve.aliases = rest ∧
      i'.frame.resolve.name = c₁.frame.resolve.name ∧
      ((p.body d).FailsClean (p.continueAs limit) i →
        c.directives = i.directives ∧ i'.directives = c₁.directives) := by
  obtain ⟨r, own, one, rfl, rfl, name⟩ := BodyFrame.exists_of_aliases_cons renamed
  have outermost : i'.frame.name = d.name := by
    rw [(sameStack_of_follow runs).name, starts]
    rfl
  obtain ⟨t, c, c', asks, succeeds, frames, counted, directives⟩ :=
    Body.exists_of_one (r := r) (p.givesBack limit) runs (by rw [own, starts]; rfl)
      (by rw [one, starts]; rfl)
  obtain ⟨c₁, few, inside, rfl⟩ := exists_of_continueAs succeeds
  obtain ⟨leave, taken⟩ := (sameStack_of_follow inside).delegates_leave
  have same : c₁.frame.resolve = r :=
    List.singleton_inj.1 (List.append_cancel_left (leave.symm.trans counted))
  refine ⟨t, c, c₁, asks, succeeds, few, inside, frames, outermost, by rw [same], by rw [same, name],
    fun clean => ?_⟩
  obtain ⟨before, after⟩ := directives clean
  exact ⟨before, after.trans taken⟩

/-- What is yielded inside a definition that is continued as with success is what it yields alone,
unless it comes to a body that runs around it. -/
theorem Program.IsPure.exists_of_inside (pure : p.IsPure) {c₁ : Collector H}
    (few : c.frames.length ≤ limit) (avoids : p.Avoids limit d c)
    (succeeds : p.continueAs limit d c = .done (c₁.leave true, .ok ()))
    (inside : (c.enter d).SameStack c₁) : ∃ own, c₁.directives = c.directives ++ own ∧
      p.collect (limit - c.frames.length) d =
        .done (.ok ⟨c₁.frame.resolve.name, c₁.frame.resolve.aliases, own⟩) := by
  obtain ⟨leave, taken⟩ := inside.delegates_leave
  cases pure.inlines few avoids with
  | refused alone here => cases succeeds.symm.trans here
  | @taken x alone here =>
    have absorbed : c₁.leave true = c.absorb x :=
      congrArg Prod.fst (Gather.done.inj (succeeds.symm.trans here))
    have resolved : c₁.frame.resolve = ⟨x.name, x.aliases⟩ := by
      rw [absorbed] at leave
      exact (List.singleton_inj.1 (List.append_cancel_left leave)).symm
    refine ⟨x.directives, ?_, by rw [resolved]; exact alone⟩
    rw [← taken, absorbed]
    rfl

/-- What is collected when a definition that is renamed is followed: there is a chain from it to the
definition whose name it takes, and its directives are those of that one, if no delegate on the way
left any behind when it failed, and if that one comes to no body that runs around it. The induction is
on the aliases. -/
theorem Program.IsPure.goesBy (pure : p.IsPure) (starts : i.frame = .ofDefinition d)
    (runs : (p.body d).follow (p.continueAs limit) i = .done (i', .ok ()))
    (renamed : i'.frame.resolve.aliases ≠ []) :
    ∃ hops n c, p.GoesBy limit d i hops n c ∧
      i'.frame.resolve.aliases = hops.map (fun hop => hop.1.name) ∧
      i'.frame.resolve.name = n.name ∧ c.frames.length + 1 = i.frames.length + hops.length ∧
      ((∀ hop ∈ hops, (p.body hop.1).FailsClean (p.continueAs limit) hop.2) → p.Avoids limit n c →
        ∃ own, p.collect (limit - c.frames.length) n = .done (.ok ⟨n.name, [], own⟩) ∧
          i'.directives = i.directives ++ own) := by
  generalize names : i'.frame.resolve.aliases = aliases at renamed
  induction aliases generalizing d i i' with
  | nil => exact absurd rfl renamed
  | cons first aliases ih =>
    obtain ⟨t, c, c₁, asks, succeeds, few, inside, frames, rfl, rest, name, directives⟩ :=
      exists_of_renamed starts runs names
    have length : c.frames.length = i.frames.length := congrArg List.length frames
    have same := sameStack_of_follow inside
    cases aliases with
    | nil =>
      have last : c₁.frame.resolve.name = t.name :=
        (BodyFrame.resolve_of_aliases_nil rest).trans same.name
      refine ⟨[(d, i)], t, c, .last asks succeeds, rfl, name.trans last, by rw [length]; rfl, ?_⟩
      intro clean avoids
      obtain ⟨before, after⟩ := directives (clean _ (List.mem_singleton_self _))
      obtain ⟨own, taken, alone⟩ := pure.exists_of_inside few avoids succeeds same
      rw [last, rest] at alone
      exact ⟨own, alone, by rw [after, taken, before]⟩
    | cons second aliases =>
      obtain ⟨hops, n, c₂, leads, names, named, frames, alone⟩ :=
        ih rfl inside rest (List.cons_ne_nil _ _)
      refine ⟨(d, i) :: hops, n, c₂, .hop asks succeeds leads, ?_, name.trans named, ?_, ?_⟩
      · rw [List.map_cons, ← names]
      · rw [frames, ← length]
        exact Nat.succ_add _ _
      · intro clean avoids
        obtain ⟨before, after⟩ := directives (clean _ (List.mem_cons_self ..))
        obtain ⟨own, collects, taken⟩ :=
          alone (fun hop mem => clean hop (List.mem_cons_of_mem _ mem)) avoids
        refine ⟨own, collects, ?_⟩
        rw [after, taken, ← before]
        rfl

/-- A collection that does not come to the limit is the same with a higher one. -/
theorem Program.IsPure.collect_of_le (pure : p.IsPure) {limit' : Nat} {x : Collected (Entry H)}
    (room : p.HasRoom limit d) (more : limit ≤ limit') (collects : p.collect limit d = .done (.ok x)) :
    p.collect limit' d = .done (.ok x) := by
  obtain ⟨gap, rfl⟩ := Nat.exists_eq_add_of_le more
  have tallies : Gather.Tallies Eq (fun _ _ => True) [] [] []
      ((p.body d).follow (p.delegate (limit + gap) (limit + gap)) (.root d))
      ((p.body d).follow (p.delegate limit limit) (.root d)) := by
    refine (pure.body d).follow ⟨⟨[], rfl, .nil⟩, rfl, rfl⟩ (fun asks left e c'' meets => ?_)
      (Program.delegate_within pure.body (fun _ _ => trivial) fun _ _ _ _ => trivial)
    refine ⟨Pairing.isAmong_of_nameless (List.forall_mem_nil _) e, ?_⟩
    rintro rfl free
    exact absurd (room _ _ asks e c'' meets) (Bool.eq_false_iff.1 free)
  obtain ⟨⟨i, r⟩, ⟨c, r'⟩, runs, runs', ⟨⟨own, directives, same⟩, frame, _⟩, agree, _⟩ := tallies
  obtain ⟨c', follows, rfl⟩ := exists_of_collect collects
  cases follows.symm.trans runs'
  cases List.forall₂_eq_eq_eq ▸ same
  cases agree
  rw [collect_of_ok runs, Collector.finish, Collector.finish, show c.frame = i.frame from frame,
    show c.directives = i.directives from directives]

end Chain

/-! ## Pure aliases -/

/-- When the collection of a definition goes by the name of another one, and what it collects then. -/
structure Program.TakesNames (p : Program H) (limit : Nat) (d : Definition) : Prop where
  /-- If there are aliases, there is a chain of definitions that have these names, and after them the
  one whose name is taken. The directives are those that this one yields when it is collected alone
  with the room that is left, and with all of the room if it needs no more; but it must not come to a
  body of the chain, and no delegate of the chain may have yielded anything before it failed. -/
  renamed {x : Collected (Entry H)} (collects : p.collect limit d = .done (.ok x))
    (renamed : x.aliases ≠ []) : ∃ hops n c, p.GoesBy limit d (.root d) hops n c ∧
      x.aliases = hops.map (fun hop => hop.1.name) ∧ x.name = n.name ∧
      ((∀ hop ∈ hops, (p.body hop.1).FailsClean (p.continueAs limit) hop.2) → p.Avoids limit n c →
        p.collect (limit - hops.length) n = .done (.ok ⟨x.name, [], x.directives⟩) ∧
        (p.HasRoom (limit - hops.length) n →
          p.collect limit n = .done (.ok ⟨x.name, [], x.directives⟩)))
  /-- If the body is nothing but one delegation that succeeds, then what is collected is what the
  delegate yields, and the aliases are those of the delegate after the name of the definition. -/
  only {t : Definition} {k : Except DefinitionError Unit → Body H} {c : Collector H}
    (body : p.body d = .continueAs t k) (ends : k (.ok ()) = .finish (.ok ()))
    (succeeds : p.continueAs limit t (.root d) = .done (c, .ok ())) :
    ∃ i, (p.body t).follow (p.continueAs limit) ((Collector.root d).enter t) = .done (i, .ok ()) ∧
      p.collect limit d = .done (.ok ⟨i.finish.name, d.name :: i.finish.aliases, i.finish.directives⟩)

/-- A definition is renamed if it is a pure alias. -/
theorem Program.IsPure.takesNames {p : Program H} (pure : p.IsPure) (limit : Nat) (d : Definition) :
    p.TakesNames limit d where
  renamed {x} collects renamed := by
    obtain ⟨i, runs, rfl⟩ := exists_of_collect collects
    have root : limit + (Collector.root (H := H) d).frames.length = limit + 1 := rfl
    rw [Body.follow_continueAs _ root] at runs
    obtain ⟨hops, n, c, leads, names, name, frames, alone⟩ := pure.goesBy rfl runs renamed
    have length : c.frames.length = hops.length := by
      have one : (Collector.root (H := H) d).frames.length = 1 := rfl
      omega
    refine ⟨hops, n, c, leads, names, name, fun clean avoids => ?_⟩
    obtain ⟨own, collects, taken⟩ := alone clean avoids
    have collects : p.collect (limit - hops.length) n = .done (.ok ⟨n.name, [], own⟩) :=
      length ▸ collects
    have same : (⟨i.finish.name, [], i.finish.directives⟩ : Collected (Entry H)) =
        ⟨n.name, [], own⟩ := by
      rw [Collector.finish, name, taken]
      rfl
    rw [same]
    exact ⟨collects, fun room => pure.collect_of_le room (Nat.sub_le _ _) collects⟩
  only {t k c} body ends succeeds := by
    obtain ⟨i, _, inside, rfl⟩ := exists_of_continueAs succeeds
    refine ⟨i, inside, ?_⟩
    obtain ⟨leave, taken⟩ := (sameStack_of_follow inside).delegates_leave
    have outer : i.outer = (Collector.root (H := H) d).frames := (sameStack_of_follow inside).outer
    rw [collect_eq, body, Body.follow, succeeds, Gather.bind, ends, Collector.leave_eq outer]
    rfl

namespace Lamp

/-- Definitions that are renamed, but are not what they are named after. One ignores a delegate that
has yielded something and then fails. The other one is a delegate of a delegate of the one whose name
it takes. -/
def lookalikes : Program Unit where
  declared key :=
    if key = "broken" then .yield (.accumulate (.int 1)) <| .finish (.error (.plain "broken"))
    else if key = "new" then .yield (.accumulate (.int 2)) <| .finish (.ok ())
    else if key = "old" then
      .continueAs (.shared "broken" "Broken") fun _ =>
        .continueAs (.shared "new" "New") fun r => .finish (r.mapError Fault.definition)
    else if key = "door" then .continueAs (.shared "hall" "Hall") fun _ => .finish (.ok ())
    else if key = "hall" then
      .yield (.accumulate (.int 1)) <|
        .continueAs (.shared "room" "Room") fun _ => .finish (.ok ())
    else
      .continueAs (.shared "door" "Door") fun
        | .ok () => .yield (.accumulate (.int 5)) <| .finish (.ok ())
        | .error e => .finish (.error (.definition e))
  subscriber _ h := h

/-- No definition looks at what errors say. -/
theorem lookalikes_isPure : lookalikes.IsPure := by
  have ends (r r' : Except DefinitionError Unit) (same : Concurs (fun _ _ => True) r r') :
      Concurs (fun _ _ => True) (r.mapError Fault.definition) (r'.mapError Fault.definition) := by
    cases same with
    | ok => exact .ok trivial
    | error => exact .error trivial
  have done : (Body.finish (H := Unit) (.ok ())).IsPure := .finish (.ok trivial)
  intro key
  unfold lookalikes
  dsimp only
  split
  · exact .yield rfl (.finish (.error trivial))
  split
  · exact .yield rfl done
  split
  · exact .continueAs fun _ _ _ => .continueAs fun r r' same => .finish (ends r r' same)
  split
  · exact .continueAs fun _ _ _ => done
  split
  · exact .yield rfl (.continueAs fun _ _ _ => done)
  · refine .continueAs fun r r' same => ?_
    cases same with
    | ok => exact .yield rfl done
    | error => exact .finish (.error trivial)

/-- The old one is renamed and collects more than the new one. The door is renamed and collects less
than the hall, because it is running when the hall comes to it; and so does another name of the hall,
because with that there is less room. -/
theorem lookalikes_collect : lookalikes.IsPure ∧
    (lookalikes.collect 8 (.shared "old" "Old") =
        .done (.ok ⟨"New", ["Old"], [.accumulate (.int 1), .accumulate (.int 2)]⟩) ∧
      lookalikes.collect 7 (.shared "new" "New") =
        .done (.ok ⟨"New", [], [.accumulate (.int 2)]⟩)) ∧
    (lookalikes.collect 8 (.shared "door" "Door") =
        .done (.ok ⟨"Hall", ["Door"], [.accumulate (.int 1)]⟩) ∧
      lookalikes.collect 7 (.shared "hall" "Hall") =
        .done (.ok ⟨"Hall", [], [.accumulate (.int 1), .accumulate (.int 5)]⟩)) ∧
    (lookalikes.collect 2 (.renamed "Front" (.shared "hall" "Hall")) =
        .done (.ok ⟨"Hall", ["Front"], [.accumulate (.int 1)]⟩) ∧
      lookalikes.collect 2 (.shared "hall" "Hall") =
        .done (.ok ⟨"Hall", [], [.accumulate (.int 1), .accumulate (.int 5)]⟩)) :=
  ⟨lookalikes_isPure, ⟨rfl, rfl⟩, ⟨rfl, rfl⟩, rfl, rfl⟩

/-- The dusk under another name. -/
def late : Definition := .renamed "Late" dusk

theorem late_failsClean :
    (evening.body late).FailsClean (evening.continueAs 3) (.root late) := by
  intro t c asks c' e fails
  cases asks with
  | here => cases fails
  | later answered rest => cases rest

theorem avoids_late : evening.Avoids 3 dusk (.root late) := fun _ e _ _ =>
  Pairing.isAmong_of_nameless (List.forall_mem_singleton.2 rfl) e

theorem dusk_hasRoom : evening.HasRoom 2 dusk := by
  intro target c asks e c' meets
  -- the body of the dusk yields, and then continues as the other one
  cases asks with
  | yield asks =>
    cases asks with
    | later answered rest => cases rest
    | here =>
      cases meets with
      | inside free asks meets =>
        cases asks with
        | yield asks =>
          cases asks with
          | yield asks => cases asks

end Lamp

/-- Under another name, the dusk collects what it does alone. -/
theorem Program.IsPure.takesNames_late :
    Lamp.evening.IsPure ∧ Lamp.evening.TakesNames 3 Lamp.late ∧
      Lamp.evening.collect 3 Lamp.late =
        .done (.ok ⟨"Dusk", ["Late"], Lamp.duskState.directives⟩) ∧
      Lamp.evening.GoesBy 3 Lamp.late (.root Lamp.late) [(Lamp.late, .root Lamp.late)] Lamp.dusk
        (.root Lamp.late) ∧
      (Lamp.evening.body Lamp.late).FailsClean (Lamp.evening.continueAs 3) (.root Lamp.late) ∧
      Lamp.evening.Avoids 3 Lamp.dusk (.root Lamp.late) ∧ Lamp.evening.HasRoom 2 Lamp.dusk ∧
      Lamp.evening.collect 2 Lamp.dusk = .done (.ok Lamp.duskState) :=
  ⟨Lamp.evening_isPure, Program.IsPure.takesNames Lamp.evening_isPure 3 Lamp.late, rfl,
    .last .here rfl, Lamp.late_failsClean, Lamp.avoids_late, Lamp.dusk_hasRoom, rfl⟩

end ScopedMachine

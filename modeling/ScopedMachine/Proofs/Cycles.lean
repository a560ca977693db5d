import Mathlib.Data.Finset.Card
import Mathlib.Data.List.Chain
import ScopedMachine.Proofs.Collecting

/-!
# Which delegation is a cycle

Shared definitions that delegate to one another are the vertices of a graph, and a collection is a
depth-first search of it that keeps no list of what was visited.
`Program.Delegates.verdict_collect` says what the search finds: it goes through the walks from its
root in the order of their positions, and the first one that comes back to a running body, or to the
limit, is its result. When the limit is not less than the number of bodies, no walk of different
bodies is longer than it, and the search fails just if it can reach a cycle.
-/

namespace ScopedMachine

variable {H : Type}

/-- Two facts about the result of a computation hold together. -/
theorem Gather.Keeps.and {α : Type} {S : Script H → Prop} {Q R : α → Prop} {g : Gather H α}
    (left : g.Keeps S Q) (right : g.Keeps S R) : g.Keeps S fun a => Q a ∧ R a := by
  induction g with
  | done a => exact ⟨left, right⟩
  | perform s k ih => exact ⟨left.1, fun r => ih r (left.2 r) (right.2 r)⟩
  | look k ih => exact fun h v => ih h v (left h v) (right h v)

/-! ## The graph -/

/-- A shared definition: the key of its body, and the name that it goes by here. -/
structure Reference where
  key : String
  name : String
deriving DecidableEq

namespace Reference

/-- The definition that is referred to. -/
def definition (t : Reference) : Definition := .shared t.key t.name

end Reference

/-- A body ends with a fault, whatever its delegates and the host answer. -/
def Body.EndsIn (f : Fault) : Body H → Prop
  | .finish r => r = .error f
  | .yield _ next => next.EndsIn f
  | .continueAs _ k => ∀ r, (k r).EndsIn f
  | .perform _ k => ∀ r, (k r).EndsIn f
  | .look k => ∀ h v, (k h v).EndsIn f

/-- A body delegates to some definitions one after the other, whatever the host answers. It ends with
the error of a delegate that fails, and succeeds otherwise. What it yields makes no difference. -/
inductive Body.Delegates : Body H → List Reference → Prop where
  | finish : Delegates (.finish (.ok ())) []
  | yield {x : Directive (Entry H)} {next : Body H} {ts : List Reference}
      (rest : next.Delegates ts) : Delegates (.yield x next) ts
  | continueAs {t : Reference} {k : Except DefinitionError Unit → Body H} {ts : List Reference}
      (passes : ∀ e, (k (.error e)).EndsIn (.definition e)) (rest : (k (.ok ())).Delegates ts) :
      Delegates (.continueAs t.definition k) (t :: ts)
  | perform {s : Script H} {k : Except Fault Unit → Body H} {ts : List Reference}
      (rest : ∀ r, (k r).Delegates ts) : Delegates (.perform s k) ts
  | look {k : H → View → Body H} {ts : List Reference} (rest : ∀ h v, (k h v).Delegates ts) :
      Delegates (.look k) ts

/-- The bodies of some keys delegate to one another, and do not fail otherwise. -/
structure Program.Delegates (p : Program H) (keys : Finset String)
    (out : String → List Reference) : Prop where
  body {key : String} (known : key ∈ keys) : (p.declared key).Delegates (out key)
  closed {key : String} (known : key ∈ keys) : ∀ t ∈ out key, t.key ∈ keys

/-- A walk from a definition to one of its delegates, to one of the delegates of that, and so on: the
place of each one among the delegates of the one before it, and the definitions. -/
inductive Walk (out : String → List Reference) :
    Reference → List Nat → List Reference → Prop where
  | here {d : Reference} : Walk out d [] [d]
  | on {d t : Reference} {i : Nat} {is : List Nat} {ds : List Reference}
      (asks : (out d.key)[i]? = some t) (rest : Walk out t is ds) : Walk out d (i :: is) (d :: ds)

/-- The body of one key delegates to that of another. -/
def Joined (out : String → List Reference) (key key' : String) : Prop :=
  ∃ t ∈ out key, t.key = key'

/-- By delegation a body is reached that comes back to itself by delegation. -/
def ReachesCycle (out : String → List Reference) (key : String) : Prop :=
  ∃ key', Relation.ReflTransGen (Joined out) key key' ∧ Relation.TransGen (Joined out) key' key'

/-- The definitions that run one inside the other have different bodies, and the innermost one
delegates back into one of these. -/
structure Reenters (path : List Reference) (t : Reference) : Prop where
  differ : (path.map Reference.key).Nodup
  again : t.key ∈ path.map Reference.key

/-- A delegation is refused: it goes back into a running body, or there are too many frames. -/
structure IsRefused (limit : Nat) (path : List Reference) (t : Reference) : Prop where
  differ : (path.map Reference.key).Nodup
  few : path.length ≤ limit + 1
  ends : t.key ∈ path.map Reference.key ∨ path.length = limit + 1

/-- Bodies delegate in order, and a delegate comes to its end before the next one: of two places in a
search, one comes before the other. -/
abbrev Precedes : List Nat → List Nat → Prop := List.Lex (· < ·)

/-- The error of a delegation that is refused. To go back into a running body is a cycle, even when
there are too many frames. -/
def refusal (limit : Nat) (path : List Reference) (t : Reference) : DefinitionError :=
  if t.key ∈ path.map Reference.key then .cycle (path.map Reference.name ++ [t.name])
  else .tooDeep t.name limit

section Walks

variable {out : String → List Reference} {d t a : Reference} {is : List Nat}
  {ds path : List Reference}

theorem Walk.exists_cons (walk : Walk out d is ds) : ∃ rest, ds = d :: rest := by
  cases walk with
  | here => exact ⟨[], rfl⟩
  | on asks rest => exact ⟨_, rfl⟩

/-- The bodies of a walk are joined one to the next. -/
theorem Walk.isChain (walk : Walk out d is ds) : (ds.map Reference.key).IsChain (Joined out) := by
  induction walk with
  | here => exact .singleton _
  | on asks rest ih =>
    obtain ⟨_, rfl⟩ := rest.exists_cons
    exact .cons_cons ⟨_, List.mem_of_getElem? asks, rfl⟩ ih

/-- A walk goes on to a delegate of its last definition. -/
theorem Walk.snoc {i : Nat} (walk : Walk out d is ds) (last : ds.getLast? = some a)
    (asks : (out a.key)[i]? = some t) : Walk out d (is ++ [i]) (ds ++ [t]) := by
  induction walk with
  | here => cases last; exact .on asks .here
  | on first rest ih =>
    obtain ⟨_, rfl⟩ := rest.exists_cons
    exact .on first (ih last)

theorem Walk.mem_keys {keys : Finset String} (walk : Walk out d is ds)
    (closed : ∀ key ∈ keys, ∀ t ∈ out key, t.key ∈ keys) (known : d.key ∈ keys) :
    ∀ e ∈ ds, e.key ∈ keys := by
  induction walk with
  | here => exact List.forall_mem_singleton.2 known
  | on asks rest ih =>
    exact List.forall_mem_cons.2 ⟨known, ih (closed _ known _ (List.mem_of_getElem? asks))⟩

/-- A body that is not on a path may follow it. -/
theorem nodup_snoc (differ : (path.map Reference.key).Nodup)
    (free : t.key ∉ path.map Reference.key) : ((path ++ [t]).map Reference.key).Nodup := by
  rw [List.map_append, List.map_singleton]
  exact List.nodup_append.2 ⟨differ, List.nodup_singleton _, fun _ mem _ same eq =>
    free (List.mem_singleton.1 same ▸ eq ▸ mem)⟩

/-- There are no more different bodies on a walk than there are bodies. -/
theorem length_le_card {keys : Finset String} (differ : (path.map Reference.key).Nodup)
    (known : ∀ e ∈ path, e.key ∈ keys) : path.length ≤ keys.card := by
  rw [← List.length_map Reference.key, ← List.toFinset_card_of_nodup differ]
  refine Finset.card_le_card fun key mem => ?_
  obtain ⟨e, there, rfl⟩ := List.mem_map.1 (List.mem_toFinset.1 mem)
  exact known e there

/-- A walk that comes back to a running body has reached a cycle. -/
theorem Walk.reachesCycle (walk : Walk out d is (path ++ [t]))
    (again : t.key ∈ path.map Reference.key) : ReachesCycle out d.key := by
  have chain := (walk.isChain.imp fun _ _ => Relation.TransGen.single).pairwise
  rw [List.map_append, List.map_singleton, List.pairwise_append] at chain
  obtain ⟨_, _, onward⟩ := chain
  have cycle := onward _ again _ (List.mem_singleton_self _)
  obtain ⟨rest, split⟩ := walk.exists_cons
  cases path with
  | nil => cases again
  | cons e path =>
    obtain ⟨rfl, -⟩ := List.cons.inj split
    exact ⟨t.key, (onward _ (List.mem_cons_self ..) _ (List.mem_singleton_self _)).to_reflTransGen,
      cycle⟩

/-- From a body that reaches a cycle there is always a delegate that does. -/
theorem ReachesCycle.exists_joined {key : String} (reaches : ReachesCycle out key) :
    ∃ key', Joined out key key' ∧ ReachesCycle out key' := by
  obtain ⟨key', toward, cycle⟩ := reaches
  rcases Relation.ReflTransGen.cases_head toward with rfl | ⟨next, joined, onward⟩
  · obtain ⟨next, joined, back⟩ := Relation.TransGen.head'_iff.1 cycle
    exact ⟨next, joined, key, back, cycle⟩
  · exact ⟨next, joined, key', onward, cycle⟩

/-- A search that can reach a cycle comes back to a running body, or goes as deep as one likes. -/
theorem ReachesCycle.exists_walk (reaches : ReachesCycle out d.key) (n : Nat) :
    (∃ is path t, Walk out d is (path ++ [t]) ∧ Reenters path t) ∨
      ∃ is path a, Walk out d is (path ++ [a]) ∧ ((path ++ [a]).map Reference.key).Nodup ∧
        path.length = n ∧ ReachesCycle out a.key := by
  induction n with
  | zero => exact .inr ⟨[], [], d, .here, List.nodup_singleton _, rfl, reaches⟩
  | succ n ih =>
    rcases ih with found | ⟨is, path, a, walk, differ, length, reaches⟩
    · exact .inl found
    · obtain ⟨_, ⟨t, mem, rfl⟩, onward⟩ := reaches.exists_joined
      obtain ⟨i, asks⟩ := List.getElem?_of_mem mem
      have longer := walk.snoc (List.getLast?_concat ..) asks
      by_cases again : t.key ∈ (path ++ [a]).map Reference.key
      · exact .inl ⟨_, _, t, longer, differ, again⟩
      · refine .inr ⟨_, _, t, longer, nodup_snoc differ again, ?_, onward⟩
        rw [List.length_append, length]
        rfl

/-- When there are finitely many bodies, to reach a cycle is to come back to a running one. -/
theorem reachesCycle_iff {keys : Finset String}
    (closed : ∀ key ∈ keys, ∀ t ∈ out key, t.key ∈ keys) (known : d.key ∈ keys) :
    ReachesCycle out d.key ↔ ∃ is path t, Walk out d is (path ++ [t]) ∧ Reenters path t := by
  constructor
  · intro reaches
    rcases reaches.exists_walk keys.card with found | ⟨is, path, a, walk, differ, length, _⟩
    · exact found
    · have few := length_le_card differ (walk.mem_keys closed known)
      rw [List.length_append, length] at few
      exact absurd few (Nat.not_succ_le_self _)
  · rintro ⟨is, path, t, walk, reenters⟩
    exact walk.reachesCycle reenters.again

end Walks

/-! ## The search -/

/-- What a search comes to that goes through some walks, inside the definitions of a path: it succeeds
if none of the delegations on them is refused, and ends with the error of the first one that is. -/
inductive Verdict (limit : Nat) (path : List Reference)
    (walks : List Nat → List Reference → Prop) : Except DefinitionError Unit → Prop where
  | ok (none : ∀ is mid t, walks is (mid ++ [t]) → ¬IsRefused limit (path ++ mid) t) :
      Verdict limit path walks (.ok ())
  | error (is : List Nat) (mid : List Reference) (t : Reference) (walk : walks is (mid ++ [t]))
      (refused : IsRefused limit (path ++ mid) t)
      (first : ∀ js mid' t', walks js (mid' ++ [t']) → IsRefused limit (path ++ mid') t' →
        ¬Precedes js is) :
      Verdict limit path walks (.error (refusal limit (path ++ mid) t))

/-- The walks that begin with a delegate of a list. -/
def Branch (out : String → List Reference) (ts : List Reference) :
    List Nat → List Reference → Prop
  | [], _ => False
  | i :: is, ds => ∃ t, ts[i]? = some t ∧ Walk out t is ds

/-- The definitions of a path are those that run, one inside the other. -/
structure Collector.Runs (path : List Reference) (c : Collector H) : Prop where
  names : c.frames.map BodyFrame.name = (path.map Reference.name).reverse
  bodies : c.frames.map BodyFrame.identity? = (path.map fun d => some d.key).reverse

section Runs

variable {path : List Reference} {c c' : Collector H} {limit : Nat}

theorem Collector.runs_root (d : Reference) : (Collector.root (H := H) d.definition).Runs [d] :=
  ⟨rfl, rfl⟩

theorem Collector.Runs.enter (runs : c.Runs path) (d : Reference) :
    (c.enter d.definition).Runs (path ++ [d]) where
  names := by
    rw [List.map_append, List.reverse_append, ← runs.names]
    rfl
  bodies := by
    rw [List.map_append, List.reverse_append, ← runs.bodies]
    rfl

theorem Collector.Runs.sameStack (runs : c.Runs path) (same : c.SameStack c') : c'.Runs path := by
  obtain ⟨outer, name, identity⟩ := same
  refine ⟨runs.names ▸ ?_, runs.bodies ▸ ?_⟩
  · simp only [frames, outer, List.map_cons, name]
  · simp only [frames, outer, List.map_cons, identity]

theorem Collector.Runs.length_eq (runs : c.Runs path) : c.frames.length = path.length := by
  have same := congrArg List.length runs.names
  rwa [List.length_map, List.length_reverse, List.length_map] at same

theorem Collector.Runs.names_eq (runs : c.Runs path) : c.names = path.map Reference.name := by
  rw [Collector.names, runs.names, List.reverse_reverse]

theorem Collector.Runs.isRunning_iff (runs : c.Runs path) (d : Reference) :
    c.isRunning d.definition = true ↔ d.key ∈ path.map Reference.key := by
  have split : c.isRunning d.definition = (c.frames.map BodyFrame.identity?).any (· == some d.key) := by
    rw [List.any_map]
    rfl
  rw [split, runs.bodies, List.any_eq_true]
  simp

end Runs

section Verdicts

variable {out : String → List Reference} {limit : Nat} {path ts : List Reference} {d t : Reference}
  {r : Except DefinitionError Unit}

/-- A delegation that is refused is all that there is of its search. -/
theorem Verdict.refused (refused : IsRefused limit path d) :
    Verdict limit path (Walk out d) (.error (refusal limit path d)) := by
  have alone : path ++ [] = path := List.append_nil path
  have verdict : Verdict limit path (Walk out d) (.error (refusal limit (path ++ []) d)) :=
    .error [] [] d Walk.here (alone.symm ▸ refused) fun _ _ _ _ _ before => nomatch before
  rwa [alone] at verdict

/-- The search from a definition that is entered is that from its delegates. -/
theorem Verdict.enter (free : ¬IsRefused limit path d)
    (inside : Verdict limit (path ++ [d]) (Branch out (out d.key)) r) :
    Verdict limit path (Walk out d) r := by
  -- a walk from the definition that does not end there goes through a delegate
  have onward {is : List Nat} {mid : List Reference} {t : Reference}
      (walk : Walk out d is (mid ++ [t])) (refused : IsRefused limit (path ++ mid) t) :
      ∃ mid', mid = d :: mid' ∧ Branch out (out d.key) is (mid' ++ [t]) ∧
        IsRefused limit (path ++ [d] ++ mid') t := by
    obtain ⟨rest, split⟩ := walk.exists_cons
    cases mid with
    | nil =>
      cases split
      rw [List.append_nil] at refused
      exact absurd refused free
    | cons e mid' =>
      obtain ⟨rfl, rfl⟩ := List.cons.inj split
      refine ⟨mid', rfl, ?_, by rwa [List.append_assoc]⟩
      rw [List.cons_append] at walk
      generalize same : mid' ++ [t] = ds at walk
      cases walk with
      | here => cases mid' <;> cases same
      | on asks rest => exact ⟨_, asks, rest⟩
  cases inside with
  | ok none =>
    refine .ok fun is mid t walk refused => ?_
    obtain ⟨mid', rfl, branch, refused⟩ := onward walk refused
    exact none is mid' t branch refused
  | error is mid t branch refused first =>
    rw [List.append_assoc] at refused ⊢
    refine .error is (d :: mid) t ?_ refused fun js mid' t' walk refused => ?_
    · cases is with
      | nil => cases branch
      | cons =>
        obtain ⟨_, place, walk⟩ := branch
        exact .on place walk
    · obtain ⟨mid'', rfl, branch, refused⟩ := onward walk refused
      exact first js mid'' t' branch refused

/-- There is nothing to search without delegates. -/
theorem Verdict.nil : Verdict limit path (Branch out []) (.ok ()) := by
  refine .ok fun is mid t branch => ?_
  cases is with
  | nil => cases branch
  | cons => exact fun _ => nomatch branch

/-- The search from some delegates ends with the first one if that fails. -/
theorem Verdict.head {e : DefinitionError} (first : Verdict limit path (Walk out t) (.error e)) :
    Verdict limit path (Branch out (t :: ts)) (.error e) := by
  cases first with
  | error is mid t' walk refused least =>
    refine .error (0 :: is) mid t' ⟨t, rfl, walk⟩ refused fun js mid' t'' branch refused before => ?_
    cases before with
    | nil => cases branch
    | rel less => cases less
    | cons before =>
      obtain ⟨_, place, walk⟩ := branch
      cases place
      exact least _ mid' t'' walk refused before

/-- The search from some delegates goes on with the others if the first one succeeds. -/
theorem Verdict.tail (first : Verdict limit path (Walk out t) (.ok ()))
    (rest : Verdict limit path (Branch out ts) r) :
    Verdict limit path (Branch out (t :: ts)) r := by
  cases first with
  | ok none =>
  -- what is refused at all is refused under one of the others
  have later {js : List Nat} {mid : List Reference} {t' : Reference}
      (branch : Branch out (t :: ts) js (mid ++ [t'])) (refused : IsRefused limit (path ++ mid) t') :
      ∃ j is, js = (j + 1) :: is ∧ Branch out ts (j :: is) (mid ++ [t']) := by
    cases js with
    | nil => cases branch
    | cons j js =>
      obtain ⟨_, place, walk⟩ := branch
      cases j with
      | zero => cases place; exact absurd refused (none js mid t' walk)
      | succ j => exact ⟨j, js, rfl, _, place, walk⟩
  cases rest with
  | ok others =>
    refine .ok fun js mid t' branch refused => ?_
    obtain ⟨j, is, rfl, branch'⟩ := later branch refused
    exact others _ mid t' branch' refused
  | error is mid t' branch refused least =>
    cases is with
    | nil => cases branch
    | cons i is =>
      refine .error ((i + 1) :: is) mid t' branch refused fun js mid' t'' branch refused before => ?_
      obtain ⟨j, js, rfl, branch'⟩ := later branch refused
      refine least _ mid' t'' branch' refused ?_
      cases before with
      | rel less => exact .rel (Nat.lt_of_succ_lt_succ less)
      | cons before => exact .cons before

end Verdicts

section Search

variable {p : Program H} {keys : Finset String} {out : String → List Reference} {limit : Nat}
  {path ts : List Reference} {c : Collector H} {d : Reference}

/-- A body that ends with a fault whatever happens does so when it is followed. -/
theorem Body.EndsIn.follow {b : Body H} {f : Fault} (ends : b.EndsIn f)
    {delegate : Definition → Collector H → Gather H (Collector H × Except DefinitionError Unit)}
    (delegates : ∀ d c, (delegate d c).Keeps (fun _ => True) fun _ => True) (c : Collector H) :
    (b.follow delegate c).Keeps (fun _ => True) fun x => x.2 = .error f := by
  induction b generalizing c with
  | finish r => exact ends
  | yield d next ih => exact ih ends (c.push d)
  | continueAs target k ih => exact (delegates target c).bind fun x _ => ih x.2 (ends x.2) x.1
  | perform s k ih => exact ⟨trivial, fun r => ih r (ends r) c⟩
  | look k ih => exact fun h v => ih h v (ends h v) c

/-- The result of a body whose only faults are those of delegates. -/
def asFault (r : Except DefinitionError Unit) : Except Fault Unit := r.mapError Fault.definition

/-- What a body comes to follows from what its delegates come to. -/
theorem Body.Delegates.verdict {b : Body H} (delegates : b.Delegates ts) (runs : c.Runs path)
    (verdicts : ∀ t ∈ ts, ∀ c : Collector H, c.Runs path →
      (p.continueAs limit t.definition c).Keeps (fun _ => True)
        fun x => Verdict limit path (Walk out t) x.2) :
    (b.follow (p.continueAs limit) c).Keeps (fun _ => True)
      fun x => ∃ r, x.2 = asFault r ∧ Verdict limit path (Branch out ts) r := by
  induction delegates generalizing c with
  | finish => exact ⟨_, rfl, .nil⟩
  | yield rest ih => exact ih (runs.sameStack (.push _)) verdicts
  | perform rest ih => exact ⟨trivial, fun r => ih r runs verdicts⟩
  | look rest ih => exact fun h v => ih h v runs verdicts
  | @continueAs t k ts passes rest ih =>
    have first := (verdicts t (List.mem_cons_self ..) c runs).and
      (p.balanced_continueAs limit t.definition c)
    refine first.bind fun ⟨c', r⟩ ⟨verdict, balanced⟩ => ?_
    cases r with
    | error e =>
      refine ((passes e).follow (fun d c => ?_) c').mono fun x same => ⟨.error e, same, verdict.head⟩
      exact (p.balanced_continueAs limit d c).mono fun _ _ => trivial
    | ok =>
      have others := ih (runs.sameStack balanced.sameStack)
        fun t mem => verdicts t (List.mem_cons_of_mem _ mem)
      exact others.mono fun x ⟨r, same, later⟩ => ⟨r, same, verdict.tail later⟩

/-- What comes of continuing as a definition. The induction is on the frames that may still be
opened. -/
theorem Program.Delegates.verdict (delegates : p.Delegates keys out) (known : d.key ∈ keys)
    (runs : c.Runs path) (differ : (path.map Reference.key).Nodup) (few : path.length ≤ limit + 1) :
    (p.continueAs limit d.definition c).Keeps (fun _ => True)
      fun x => Verdict limit path (Walk out d) x.2 := by
  generalize left : limit + 1 - path.length = room
  induction room using Nat.strongRecOn generalizing d c path with
  | ind room deeper =>
  cases running : c.isRunning d.definition with
  | true =>
    have again := (runs.isRunning_iff d).1 running
    have verdict : Verdict limit path (Walk out d) _ := .refused ⟨differ, few, .inl again⟩
    rw [refusal, if_pos again, ← runs.names_eq] at verdict
    rw [continueAs_of_running running]
    exact verdict
  | false =>
    have free : d.key ∉ path.map Reference.key := fun again =>
      Bool.false_ne_true (running.symm.trans ((runs.isRunning_iff d).2 again))
    rcases Nat.lt_or_ge limit path.length with full | some
    · have verdict : Verdict limit path (Walk out d) _ :=
        .refused ⟨differ, few, .inr (Nat.le_antisymm few full)⟩
      rw [refusal, if_neg free] at verdict
      rw [continueAs_of_full running (runs.length_eq ▸ full)]
      exact verdict
    · have longer : (path ++ [d]).length = path.length + 1 := List.length_append
      have differ := nodup_snoc differ free
      have inside := (delegates.body known).verdict (runs.enter d) fun t mem c runs =>
        deeper (limit + 1 - (path ++ [d]).length) (by omega) (delegates.closed known t mem) runs
          differ (by omega) rfl
      rw [continueAs_of_room running (runs.length_eq ▸ some)]
      refine inside.map fun ⟨c', r⟩ ⟨r', same, verdict⟩ => ?_
      have verdict := verdict.enter fun refused =>
        refused.ends.elim free fun full => absurd some (full ▸ Nat.not_succ_le_self limit)
      cases same
      cases r' <;> exact verdict

/-- What comes of a collection. -/
theorem Program.Delegates.verdict_collect (delegates : p.Delegates keys out) (known : d.key ∈ keys)
    (limit : Nat) : (p.collect limit d.definition).Keeps (fun _ => True)
      fun r => Verdict limit [] (Walk out d) (r.map fun _ => ()) := by
  have differ : (([] ++ [d]).map Reference.key).Nodup := List.nodup_singleton _
  have inside := (delegates.body known).verdict (Collector.runs_root d) fun t mem c runs =>
    delegates.verdict (delegates.closed known t mem) runs differ (Nat.le_add_left 1 limit)
  rw [collect_eq]
  refine inside.map fun ⟨c', r⟩ ⟨r', same, verdict⟩ => ?_
  have verdict : Verdict limit [] (Walk out d) r' :=
    verdict.enter fun refused => refused.ends.elim nofun nofun
  cases same
  cases r' <;> exact verdict

end Search

/-! ## What is found -/

/-- In execution order, the delegation at the end of a walk is the first one with a property. The
walk is that to its definition, and on to what is delegated to. -/
structure FirstWalk (out : String → List Reference) (d : Reference)
    (P : List Reference → Reference → Prop) (is : List Nat) (path : List Reference)
    (t : Reference) : Prop where
  walk : Walk out d is (path ++ [t])
  holds : P path t
  first : ∀ js path' t', Walk out d js (path' ++ [t']) → P path' t' → ¬Precedes js is

/-- What the collection of a shared definition finds, when `limit` continuations may be open at a
time, and whatever the host answers. -/
structure Program.FindsCycles (p : Program H) (keys : Finset String) (out : String → List Reference)
    (limit : Nat) (d : Reference) : Prop where
  /-- If the limit is not less than the number of bodies, it succeeds just when no cycle can be
  reached. -/
  succeeds_iff (deep : keys.card ≤ limit) : (p.collect limit d.definition).Keeps (fun _ => True)
    fun r => (∃ x, r = .ok x) ↔ ¬ReachesCycle out d.key
  /-- Then it can only fail with a cycle: the names on the way to the first delegation back into a
  running body, and the name that this one is delegated to by. -/
  fails (deep : keys.card ≤ limit) : (p.collect limit d.definition).Keeps (fun _ => True)
    fun r => ∀ e, r = .error e → ∃ is path t, FirstWalk out d Reenters is path t ∧
      e = .cycle (path.map Reference.name ++ [t.name])
  /-- With any limit, it succeeds if no delegation is refused, and fails with the first one that is;
  that is a cycle when it goes back into a running body, however many frames there are. -/
  refused : (p.collect limit d.definition).Keeps (fun _ => True)
    fun r => (∃ x, r = .ok x) ∧ (∀ is path t, Walk out d is (path ++ [t]) → ¬IsRefused limit path t) ∨
      ∃ is path t, FirstWalk out d (IsRefused limit) is path t ∧ r = .error (refusal limit path t)

/-- The search for cycles is exact. -/
theorem Program.Delegates.findsCycles {p : Program H} {keys : Finset String}
    {out : String → List Reference} {d : Reference} (delegates : p.Delegates keys out)
    (known : d.key ∈ keys) (limit : Nat) : p.FindsCycles keys out limit d := by
  have closed : ∀ key ∈ keys, ∀ t ∈ out key, t.key ∈ keys := fun _ known => delegates.closed known
  have verdict := delegates.verdict_collect known limit
  -- in a deep search there are not too many frames before a body is met again
  have few {is : List Nat} {path : List Reference} {t : Reference} (deep : keys.card ≤ limit)
      (walk : Walk out d is (path ++ [t])) (differ : (path.map Reference.key).Nodup) :
      path.length ≤ limit :=
    (length_le_card differ fun e mem => walk.mem_keys closed known e (List.mem_append_left _ mem)).trans
      deep
  have reenters {is : List Nat} {path : List Reference} {t : Reference} (deep : keys.card ≤ limit)
      (walk : Walk out d is (path ++ [t])) : IsRefused limit path t ↔ Reenters path t := by
    constructor
    · rintro ⟨differ, _, again | full⟩
      · exact ⟨differ, again⟩
      · have short := few deep walk differ
        omega
    · rintro ⟨differ, again⟩
      exact ⟨differ, Nat.le_succ_of_le (few deep walk differ), .inl again⟩
  refine ⟨fun deep => verdict.mono fun r verdict => ?_, fun deep => verdict.mono fun r verdict => ?_,
    verdict.mono fun r verdict => ?_⟩
  · rw [reachesCycle_iff closed known]
    cases r with
    | ok x =>
      cases verdict with
      | ok none =>
        refine iff_of_true ⟨x, rfl⟩ ?_
        rintro ⟨is, path, t, walk, again⟩
        exact none is path t walk ((reenters deep walk).2 again)
    | error e =>
      cases verdict with
      | error is path t walk refused first =>
        exact iff_of_false nofun fun none => none ⟨is, path, t, walk, (reenters deep walk).1 refused⟩
  · rintro e rfl
    cases verdict with
    | error is path t walk refused first =>
      have again := (reenters deep walk).1 refused
      refine ⟨is, path, t, ⟨walk, again, fun js path' t' walk again => ?_⟩, if_pos again.again⟩
      exact first js path' t' walk ((reenters deep walk).2 again)
  · cases r with
    | ok x =>
      cases verdict with
      | ok none => exact .inl ⟨⟨x, rfl⟩, none⟩
    | error e =>
      cases verdict with
      | error is path t walk refused first => exact .inr ⟨is, path, t, ⟨walk, refused, first⟩, rfl⟩

/-! ## Every graph -/

/-- A body that delegates to some definitions, and does nothing else. -/
def Body.delegating : List Reference → Body H
  | [] => .finish (.ok ())
  | t :: ts => .continueAs t.definition fun
    | .ok () => delegating ts
    | .error e => .finish (.error (.definition e))

theorem Body.delegates_delegating : ∀ ts : List Reference, (delegating (H := H) ts).Delegates ts
  | [] => .finish
  | _ :: ts => .continueAs (fun _ => rfl) (delegates_delegating ts)

/-- The program with a given graph. -/
def Program.ofGraph (out : String → List Reference) : Program Unit where
  declared key := .delegating (out key)
  subscriber _ h := h

/-- Every graph is the graph of a program. -/
theorem Program.delegates_ofGraph {keys : Finset String} {out : String → List Reference}
    (closed : ∀ key ∈ keys, ∀ t ∈ out key, t.key ∈ keys) : (ofGraph out).Delegates keys out :=
  ⟨fun _ => Body.delegates_delegating _, closed _⟩

namespace Lamp

def ring : Reference := ⟨"ring", "Ring"⟩

/-- The ring comes to the bulb twice, which is no cycle, and then to a wire that leads back to it. -/
def wiring (key : String) : List Reference :=
  if key = "ring" then [⟨"bulb", "Bulb"⟩, ⟨"bulb", "Spare"⟩, ⟨"wire", "Wire"⟩]
  else if key = "wire" then [⟨"ring", "Again"⟩]
  else []

end Lamp

/-- The ring is a cycle of two bodies, and its names are those on the way around. -/
theorem Program.Delegates.findsCycles_ring :
    (ofGraph Lamp.wiring).Delegates {"ring", "bulb", "wire"} Lamp.wiring ∧
      Lamp.ring.key ∈ ({"ring", "bulb", "wire"} : Finset String) ∧
      (ofGraph Lamp.wiring).FindsCycles {"ring", "bulb", "wire"} Lamp.wiring 3 Lamp.ring ∧
      (ofGraph Lamp.wiring).collect 3 Lamp.ring.definition =
        .done (.error (.cycle ["Ring", "Wire", "Again"])) := by
  have delegates : (ofGraph Lamp.wiring).Delegates {"ring", "bulb", "wire"} Lamp.wiring :=
    delegates_ofGraph (by decide)
  have known : Lamp.ring.key ∈ ({"ring", "bulb", "wire"} : Finset String) := by decide
  exact ⟨delegates, known, delegates.findsCycles known 3, rfl⟩

/-- It is still a cycle when there is no room for a frame more. -/
example : (Program.ofGraph Lamp.wiring).collect 1 Lamp.ring.definition =
    .done (.error (.cycle ["Ring", "Wire", "Again"])) := rfl

end ScopedMachine

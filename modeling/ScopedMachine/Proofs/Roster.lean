import ScopedMachine.Proofs.Books

/-!
# Registrations over time

A registration gets the next number of its registry and stands behind those that are there. It stays
until its token is cancelled, or as long as the machine whose registry it is in. `Books` says what one
step does to a registry; `Book.Becomes` is what that comes to between two instants of a run.
-/

namespace ScopedMachine

variable {H : Type} {p : Program H} {m : MachineId} {q : Place}

/-! ## What ends a registration -/

/-- A machine is gone: nobody holds a handle on it any more. -/
def Config.IsGone (m : MachineId) (c : Config H) : Prop :=
  ∃ cell, c.world.machine? m = some cell ∧ cell.isAlive = false

open MachineCell in
/-- A machine that nobody holds stays like that. -/
theorem Turn.isAlive {w : World H} {d : Option Deed} {e : Effect H} {cell cell' : MachineCell H}
    {ctl ctl' : Control H} {pops pushes : List (Frame H)} {rs : List Role}
    (turn : Turn p w m d e ⟨cell, ctl, pops⟩ ⟨cell', ctl', pushes⟩)
    (posture : Posture m cell ctl (roles m pops ++ rs)) (alive : cell'.isAlive) :
    cell.isAlive := by
  cases turn with
  | pin held => exact held
  | hold held => rw [isAlive_iff]; omega
  | drop held => rw [isAlive_iff]; omega
  | dropLast held => rw [isAlive_iff]; omega
  | unpin pin =>
    rw [isAlive_iff] at alive ⊢
    simp only [MachineCell.unpin] at alive
    omega
  | unpinLast pin dead =>
    rw [show cell.unpin.clearCurrent.isAlive = cell.unpin.isAlive from rfl, dead] at alive
    cases alive
  | signalAtOnce cancelled held => exact held
  | handOver pin =>
    rcases pin with rfl | rfl
    · rw [roles_starting] at posture
      exact posture.isAlive_of_cons (by decide)
    · rw [roles_signalled] at posture
      exact posture.isAlive_of_cons (by decide)
  | _ => exact alive

theorem Move.isGone {c c' : Config H} (move : Move p c c') (poised : c.Poised m) (gone : c.IsGone m) :
    c'.IsGone m := by
  obtain ⟨cell, found, dead⟩ := gone
  cases move.outlook m with
  | spared machine => exact ⟨cell, machine.trans found, dead⟩
  | start signal new =>
    rw [found] at new
    cases new
  | @turn before cell' effect pops pushes rest found' found'' turn stack =>
    rw [found] at found'
    cases found'
    refine ⟨cell', found'', Bool.eq_false_iff.2 fun alive => ?_⟩
    have posture := poised.posture found
    rw [stack, roles_append] at posture
    rw [turn.isAlive posture alive] at dead
    cases dead

/-- A scope has been released, or its release is under way. -/
def World.Released (s : ScopeId) (w : World H) : Prop := ∃ owner, w.header? s = some (true, owner)

/-- The registry of a place went with its machine. -/
def Config.Closed (q : Place) (c : Config H) : Prop := ∃ m, q = .machine m ∧ c.IsGone m

theorem World.Released.isCancelled {s : ScopeId} {w : World H} (released : w.Released s) :
    w.isCancelled s = true := by
  obtain ⟨owner, header⟩ := released
  rw [World.isCancelled_iff, header]
  nofun

/-! ## What becomes of a book -/

/-- Some of the entries of a book are left, in their order, and new ones with new numbers stand behind
them. Those that are gone are of tokens that have `ended`. -/
structure Book.Becomes (b b' : Book) (ended : ScopeId → Prop) : Prop where
  next : b.next ≤ b'.next
  entries : ∃ kept added, b'.entries = kept ++ added ∧ kept.Sublist b.entries ∧
    (∀ e ∈ added, b.next ≤ e.1) ∧ ∀ e ∈ b.entries, e ∈ kept ∨ ended e.2

namespace Book.Becomes

variable {b b' : Book} {ended ended' : ScopeId → Prop} {e e' : Nat × ScopeId}

theorem refl (b : Book) : b.Becomes b ended where
  next := Nat.le_refl _
  entries := ⟨b.entries, [], (List.append_nil _).symm, .refl _, List.forall_mem_nil _,
    fun _ mem => .inl mem⟩

theorem mono (becomes : b.Becomes b' ended) (more : ∀ s, ended s → ended' s) :
    b.Becomes b' ended' where
  next := becomes.next
  entries := by
    obtain ⟨kept, added, entries, left, new, gone⟩ := becomes.entries
    exact ⟨kept, added, entries, left, new, fun e mem => (gone e mem).imp id (more e.2)⟩

theorem add (becomes : b.Becomes b' ended) (token : ScopeId) :
    b.Becomes (b'.add token) ended where
  next := Nat.le_succ_of_le becomes.next
  entries := by
    obtain ⟨kept, added, entries, left, new, gone⟩ := becomes.entries
    refine ⟨kept, added ++ [(b'.next, token)], ?_, left, ?_, gone⟩
    · rw [Book.add, entries, List.append_assoc]
    · exact List.forall_mem_append.2 ⟨new, List.forall_mem_singleton.2 becomes.next⟩

theorem remove (becomes : b.Becomes b' ended) {number : Nat}
    (undone : ∀ e ∈ b'.entries, e.1 = number → ended e.2) : b.Becomes (b'.remove number) ended where
  next := becomes.next
  entries := by
    obtain ⟨kept, added, entries, left, new, gone⟩ := becomes.entries
    refine ⟨kept.filter (·.1 != number), added.filter (·.1 != number), ?_,
      List.filter_sublist.trans left, fun e mem => new e (List.mem_filter.1 mem).1, fun e mem => ?_⟩
    · rw [Book.remove, entries, List.filter_append]
    · rcases gone e mem with here | ended
      · by_cases removed : e.1 = number
        · exact .inr (undone e (entries ▸ List.mem_append_left _ here) removed)
        · exact .inl (List.mem_filter.2 ⟨here, by simpa using removed⟩)
      · exact .inr ended

theorem clear (becomes : b.Becomes b' ended) (all : ∀ s, ended s) : b.Becomes b'.clear ended where
  next := becomes.next
  entries := ⟨[], [], rfl, List.nil_sublist _, List.forall_mem_nil _, fun e _ => .inr (all e.2)⟩

/-- A number is not given twice. -/
theorem eq_of_number (becomes : b.Becomes b' ended) (ordered : b.Ordered) (mem : e ∈ b.entries)
    (mem' : e' ∈ b'.entries) (same : e.1 = e'.1) : e = e' := by
  obtain ⟨kept, added, entries, left, new, _⟩ := becomes.entries
  rw [entries] at mem'
  rcases List.mem_append.1 mem' with old | added
  · exact ordered.eq_of_number mem (left.subset old) same
  · exact absurd (ordered.free mem) (Nat.not_lt.2 (same ▸ new e' added))

theorem mem_or (becomes : b.Becomes b' ended) (mem : e ∈ b.entries) :
    e ∈ b'.entries ∨ ended e.2 := by
  obtain ⟨kept, added, entries, _, _, gone⟩ := becomes.entries
  rw [entries]
  exact (gone e mem).imp (List.mem_append_left _) id

end Book.Becomes

section Step

variable {c c' : Config H} {b b' : Book} {ended : ScopeId → Prop}

/-- A teardown that undoes an entry is performed by the release of the scope of its token. -/
theorem Config.released_of_undone {s : ScopeId} {ts : List (Teardown H)} {t : Teardown H}
    {number : Nat} (owned : c.Owned) (releases : c.Releases)
    (top : .releasing s (t :: ts) ∈ c.stack) (undoes : t.undoes? = some (q, number))
    (found : c.world.book? q = some b) :
    ∀ e ∈ b.entries, e.1 = number → c.world.Released e.2 := by
  intro e mem same
  have hung : (q, number) ∈ c.hung s := by
    refine List.mem_append_right _ (List.mem_flatMap.2 ⟨_, top, ?_⟩)
    simp [Frame.hung, undoes]
  obtain ⟨b₀, found₀, _, only⟩ := owned.owned hung
  cases found.symm.trans found₀
  rw [only e mem same]
  exact releases s _ top

/-- How a step goes on with what became of a book. -/
theorem Books.becomes (books : Books c c') (owned : c.Owned) (releases : c.Releases)
    (poised : ∀ m, q = .machine m → c.Poised m) (found : c.world.book? q = some b')
    (becomes : b.Becomes b' ended) (released : ∀ s, c.world.Released s → ended s)
    (closed : c.Closed q → ∀ s, ended s) :
    ∃ b'', c'.world.book? q = some b'' ∧ b.Becomes b'' ended := by
  cases books with
  | same book | lose _ book => exact ⟨b', by rw [book, found], becomes⟩
  | add q₀ token b₀ before live book =>
    by_cases here : q = q₀
    · cases found.symm.trans (here ▸ before)
      exact ⟨_, by rw [book, if_pos here], becomes.add token⟩
    · exact ⟨b', by rw [book, if_neg here, found], becomes⟩
  | remove q₀ number s ts t top undoes book =>
    by_cases here : q = q₀
    · subst here
      refine ⟨_, by rw [book, if_pos rfl, found]; rfl, becomes.remove fun e mem same => ?_⟩
      exact released e.2 (Config.released_of_undone owned releases top undoes found e mem same)
    · exact ⟨b', by rw [book, if_neg here, found], becomes⟩
  | clear m top book =>
    by_cases here : q = .machine m
    · subst here
      obtain ⟨cell, machine, _⟩ := Option.map_eq_some_iff.1 found
      have role : .dismantle ∈ roles m c.stack := by
        refine List.mem_filterMap.2 ⟨_, List.mem_filter.2 ⟨top, ?_⟩, rfl⟩
        rw [Frame.concerns_iff, Frame.machine?_dismantling]
      have gone : c.IsGone m := ⟨cell, machine, ((poised m rfl).posture machine).gone role⟩
      exact ⟨_, by rw [book, if_pos rfl, found]; rfl, becomes.clear (closed ⟨m, rfl, gone⟩)⟩
    · exact ⟨b', by rw [book, if_neg here, found], becomes⟩
  | make m new book =>
    have here : q ≠ .machine m := by
      rintro rfl
      rw [World.book?, new] at found
      cases found
    exact ⟨b', by rw [book, if_neg here, found], becomes⟩

end Step

/-! ## Between two instants of a run -/

namespace Program.Run

variable {w : World H} {before past : List (Config H)} {y c : Config H} {b : Book}

/-- From one instant to a later one, a registration goes only if its token is cancelled, or with its
machine. -/
theorem becomes (run : p.Run w past c) (passed : before ++ [y] <+: past ++ [c])
    (found : y.world.book? q = some b) : ∃ b', c.world.book? q = some b' ∧
      b.Becomes b' fun s => c.world.Released s ∨ c.Closed q := by
  let P (_ : List (Config H)) (c : Config H) : Prop := ∃ b', c.world.book? q = some b' ∧
    b.Becomes b' fun s => c.world.Released s ∨ c.Closed q
  refine run.since (P := P) passed ⟨b, found, .refl b⟩ ?_ ?_
  · rintro past c c' run h ⟨b', found, becomes⟩
    have released (s : ScopeId) : c.world.Released s → c'.world.Released s := fun ⟨owner, header⟩ =>
      ⟨owner, (run.move h).scopes.header header⟩
    have closed : c.Closed q → c'.Closed q := fun ⟨m, here, gone⟩ =>
      ⟨m, here, (run.move h).isGone (run.poised m) gone⟩
    exact (run.move h).books.becomes run.owned run.releases (fun m _ => run.poised m) found
      (becomes.mono fun s => Or.imp (released s) closed) (fun s now => .inl (released s now))
      fun now s => .inr (closed now)
  · exact fun run ended host s kept => kept

end Program.Run

end ScopedMachine

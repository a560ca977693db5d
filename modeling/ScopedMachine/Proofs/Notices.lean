import ScopedMachine.Proofs.Chronicle
import ScopedMachine.Proofs.Roster

/-!
# What observers are told

A publication is a frame that holds the observers yet to be told of a change. `Telling` says how a
turn goes on with it. An observer whose token is live is told of every change committed since it was
registered: each is told, or is being published and its turn is yet to come, or its publication was
cut short by a panic. The invariant that carries this is `Attends`.
-/

namespace ScopedMachine

variable {H : Type} {p : Program H} {m : MachineId}

/-! ## Observers over time -/

/-- The number that the next observer of a machine gets. -/
def World.nextObserver (m : MachineId) (w : World H) : Nat :=
  ((w.book? (.machine m)).map Book.next).getD 0

/-- An observer with this number and token is registered. -/
def Config.Registers (m : MachineId) (e : Nat × ScopeId) (c : Config H) : Prop :=
  ∃ b, c.world.book? (.machine m) = some b ∧ e ∈ b.entries

section Step

variable {c c' : Config H} {e : Nat × ScopeId}

theorem Books.nextObserver_le (books : Books c c') :
    c.world.nextObserver m ≤ c'.world.nextObserver m := by
  unfold World.nextObserver
  cases books with
  | same book | lose _ book => exact Nat.le_of_eq (by rw [book])
  | add q token b before live book hung =>
    rw [book]
    split
    · next hq => rw [hq, before]; exact Nat.le_succ _
    · exact Nat.le_refl _
  | remove q number s ts t top undoes book =>
    rw [book]
    split
    · rw [Option.map_map]; exact Nat.le_refl _
    · exact Nat.le_refl _
  | clear n top book =>
    rw [book]
    split
    · rw [Option.map_map]; exact Nat.le_refl _
    · exact Nat.le_refl _
  | make n new book =>
    rw [book]
    split
    · next hn => rw [hn, World.book?, new]; exact Nat.le_refl _
    · exact Nat.le_refl _

/-- Only one machine at a time gets a new observer. -/
theorem Books.eq_of_nextObserver_ne {n : MachineId} (books : Books c c')
    (hm : c'.world.nextObserver m ≠ c.world.nextObserver m)
    (hn : c'.world.nextObserver n ≠ c.world.nextObserver n) : m = n := by
  unfold World.nextObserver at hm hn
  cases books with
  | same book | lose _ book => exact absurd (by rw [book]) hm
  | add q token b before live book =>
    by_cases hq : .machine m = q
    · by_cases hq' : .machine n = q
      · rw [← hq'] at hq
        cases hq
        rfl
      · exact absurd (by rw [book, if_neg hq']) hn
    · exact absurd (by rw [book, if_neg hq]) hm
  | remove q number s ts t top undoes book =>
    refine absurd ?_ hm
    rw [book]
    split
    · rw [Option.map_map]; rfl
    · rfl
  | clear k top book =>
    refine absurd ?_ hm
    rw [book]
    split
    · rw [Option.map_map]; rfl
    · rfl
  | make k new book =>
    refine absurd ?_ hm
    rw [book]
    split
    · next hk => rw [hk, World.book?, new]; rfl
    · rfl

/-- A registration that is new has the next number and a live token. -/
theorem Books.of_registers (books : Books c c') (h : c'.Registers m e) :
    c.Registers m e ∨ e.1 = c.world.nextObserver m ∧
      c'.world.nextObserver m = c.world.nextObserver m + 1 ∧
      c.world.isCancelled e.2 = false := by
  obtain ⟨b', found, he⟩ := h
  cases books with
  | same book | lose _ book =>
    rw [book] at found
    exact .inl ⟨b', found, he⟩
  | add q token b before live book hung =>
    rw [book] at found
    split at found
    · next hq =>
      cases found
      rw [← hq] at before
      rcases List.mem_append.1 he with he | he
      · exact .inl ⟨b, before, he⟩
      · rw [List.mem_singleton.1 he]
        refine .inr ⟨?_, ?_, live⟩
        · rw [World.nextObserver, before]; rfl
        · rw [World.nextObserver, World.nextObserver, before, book, if_pos hq]; rfl
    · exact .inl ⟨b', found, he⟩
  | remove q number s ts t top undoes book =>
    rw [book] at found
    split at found
    · obtain ⟨b, hb, rfl⟩ := Option.map_eq_some_iff.1 found
      exact .inl ⟨b, hb, (List.mem_filter.1 he).1⟩
    · exact .inl ⟨b', found, he⟩
  | clear n top book =>
    rw [book] at found
    split at found
    · obtain ⟨b, _, rfl⟩ := Option.map_eq_some_iff.1 found
      exact absurd he List.not_mem_nil
    · exact .inl ⟨b', found, he⟩
  | make n new book =>
    rw [book] at found
    split at found
    · cases found
      exact absurd he List.not_mem_nil
    · exact .inl ⟨b', found, he⟩

/-- A registration ends when its token is cancelled, or with the machine. -/
theorem Books.registers (books : Books c c') (owned : c.Owned) (releases : c.Releases)
    (poised : c.Poised m) (h : c.Registers m e) :
    c'.Registers m e ∨ c.world.isCancelled e.2 ∨ c.IsGone m := by
  obtain ⟨b, found, he⟩ := h
  have poised (n : MachineId) (same : Place.machine m = .machine n) : c.Poised n := by
    cases same
    exact poised
  obtain ⟨b', found', becomes⟩ : ∃ b', c'.world.book? (.machine m) = some b' ∧
      b.Becomes b' fun s => c.world.Released s ∨ c.Closed (.machine m) :=
    books.becomes owned releases poised found (.refl b) (fun _ => .inl) fun closed _ => .inr closed
  rcases becomes.mem_or he with here | released | ⟨n, same, gone⟩
  · exact .inl ⟨b', found', here⟩
  · exact .inr (.inl released.isCancelled)
  · cases same
    exact .inr (.inr gone)

theorem Config.Registers.lt (owned : c.Owned) (h : c.Registers m e) :
    e.1 < c.world.nextObserver m := by
  obtain ⟨b, found, he⟩ := h
  rw [World.nextObserver, found]
  exact (owned.ordered found).free he

end Step

/-- An observer with this number and token is or was registered. -/
def Knows (m : MachineId) (e : Nat × ScopeId) (past : List (Config H)) (c : Config H) : Prop :=
  ∃ x ∈ past ++ [c], x.Registers m e

theorem knows_concat {past : List (Config H)} {c c' : Config H} {e : Nat × ScopeId} :
    Knows m e (past ++ [c]) c' ↔ Knows m e past c ∨ c'.Registers m e := by
  simp [Knows, or_and_right, exists_or, or_assoc]

/-- Somebody new has the next number and a live token. -/
theorem Knows.of_concat {past : List (Config H)} {c c' : Config H} {e : Nat × ScopeId}
    (known : Knows m e (past ++ [c]) c') (books : Books c c') :
    Knows m e past c ∨ e.1 = c.world.nextObserver m ∧
      c'.world.nextObserver m = c.world.nextObserver m + 1 ∧ c.world.isCancelled e.2 = false ∧
      c'.Registers m e := by
  rcases knows_concat.1 known with known | registers
  · exact .inl known
  · rcases books.of_registers registers with before | new
    · exact .inl ⟨c, by simp, before⟩
    · exact .inr ⟨new.1, new.2.1, new.2.2, registers⟩

/-- What is known of the observers that a machine ever had. -/
structure Guestbook (m : MachineId) (past : List (Config H)) (c : Config H) : Prop where
  lt {e : Nat × ScopeId} (known : Knows m e past c) : e.1 < c.world.nextObserver m
  unique {e e' : Nat × ScopeId} (known : Knows m e past c) (known' : Knows m e' past c)
    (same : e.1 = e'.1) : e = e'
  scope {e : Nat × ScopeId} (known : Knows m e past c) : c.world.header? e.2 ≠ none
  kept {e : Nat × ScopeId} (known : Knows m e past c) (live : c.world.isCancelled e.2 = false) :
    c.Registers m e ∨ c.IsGone m

namespace Guestbook

variable {past : List (Config H)} {c c' : Config H} {e : Nat × ScopeId}

/-- A token that was registered and is live has been live all the time. -/
theorem live (guests : Guestbook m past c) (scopes : Scopes c c') (known : Knows m e past c)
    (live : c'.world.isCancelled e.2 = false) : c.world.isCancelled e.2 = false := by
  cases h : c.world.header? e.2 with
  | none => exact absurd h (guests.scope known)
  | some header =>
    obtain ⟨released, owner⟩ := header
    cases released with
    | false => exact World.isCancelled_eq_false_iff.2 ⟨owner, h⟩
    | true =>
      obtain ⟨owner', h'⟩ := World.isCancelled_eq_false_iff.1 live
      rw [scopes.header h] at h'
      cases h'

theorem step (guests : Guestbook m past c) (move : Move p c c') (owned : c.Owned)
    (releases : c.Releases) (poised : c.Poised m) : Guestbook m (past ++ [c]) c' := by
  have books := move.books
  have le := books.nextObserver_le (m := m)
  refine ⟨fun known => ?_, fun {e e'} known known' same => ?_, fun known => ?_, fun known live => ?_⟩
  · rcases known.of_concat books with known | ⟨number, next, _⟩
    · exact Nat.lt_of_lt_of_le (guests.lt known) le
    · omega
  · rcases known.of_concat books with known | ⟨number, _, _, b, found, he⟩
    · rcases known'.of_concat books with known' | ⟨number', _⟩
      · exact guests.unique known known' same
      · have := guests.lt known
        omega
    · rcases known'.of_concat books with known' | ⟨number', _, _, b', found', he'⟩
      · have := guests.lt known'
        omega
      · rw [found] at found'
        cases found'
        exact ((books.owned owned).ordered found).eq_of_number he he' same
  · rcases known.of_concat books with known | ⟨_, _, live, _⟩
    · exact move.scopes.header?_ne_none (guests.scope known)
    · obtain ⟨owner, live⟩ := World.isCancelled_eq_false_iff.1 live
      exact move.scopes.header?_ne_none (by rw [live]; nofun)
  · rcases known.of_concat books with known | ⟨_, _, _, registers⟩
    · have before := guests.live move.scopes known live
      rcases guests.kept known before with registers | gone
      · rcases books.registers owned releases poised registers with registers | cancelled | gone
        · exact .inl registers
        · rw [before] at cancelled
          cases cancelled
        · exact .inr (move.isGone poised gone)
      · exact .inr (move.isGone poised gone)
    · exact .inl registers

end Guestbook

theorem Program.Run.guests {w : World H} {past : List (Config H)} {c : Config H}
    (run : p.Run w past c) : Guestbook m past c := by
  induction run with
  | begin fresh host s =>
    have nobody {e : Nat × ScopeId} : ¬Knows m e [] { world := w, host, control := .run s } := by
      rintro ⟨x, hx, b, found, _⟩
      rw [List.mem_singleton.1 hx, World.book?, fresh.machine?] at found
      cases found
    exact ⟨fun h => absurd h nobody, fun h => absurd h nobody, fun h => absurd h nobody,
      fun h => absurd h nobody⟩
  | step run h ih => exact ih.step (run.move h) run.owned run.releases (run.poised m)
  | @resume past c run ended host s ih =>
    have known {e : Nat × ScopeId} (h : Knows m e (past ++ [c]) { c with host, control := .run s }) :
        Knows m e past c := by
      rcases knows_concat.1 h with h | h
      · exact h
      · exact ⟨c, by simp, h⟩
    exact ⟨fun h => ih.lt (known h), fun h h' => ih.unique (known h) (known h'),
      fun h => ih.scope (known h), fun h => ih.kept (known h)⟩

/-! ## Publications -/

/-- A publication: a change with the observers that are yet to be told of it. -/
def Frame.publication? : Frame H → Option (Change × List (Nat × ScopeId))
  | .publishing _ change rest => some (change, rest.map Registration.line)
  | _ => none

/-- The publications of a machine. -/
def publications (m : MachineId) (fs : List (Frame H)) : List (Change × List (Nat × ScopeId)) :=
  (fs.filter (Frame.concerns m)).filterMap Frame.publication?

section Publications

variable {fs gs : List (Frame H)}

@[simp] theorem publications_nil : publications m ([] : List (Frame H)) = [] := rfl

theorem publications_append : publications m (fs ++ gs) = publications m fs ++ publications m gs := by
  simp [publications]

@[simp] theorem publications_publishing {change : Change} {rest : List (Registration (Observer H))} :
    publications m (.publishing m change rest :: fs) =
      (change, rest.map Registration.line) :: publications m fs := by
  simp [publications, Frame.concerns, Frame.publication?]

theorem publications_of_silent (silent : fs.filterMap Frame.publication? = []) :
    publications m fs = [] := by
  rw [List.filterMap_eq_nil_iff] at silent
  exact List.filterMap_eq_nil_iff.2 fun f hf => silent f (List.mem_filter.1 hf).1

theorem publications_of_isPlain (plain : ∀ f ∈ fs, f.isPlain) : publications m fs = [] := by
  rw [publications, filter_concerns_of_isPlain plain, List.filterMap_nil]

theorem mem_publications {x : Change × List (Nat × ScopeId)} :
    x ∈ publications m fs ↔ ∃ rest, .publishing m x.1 rest ∈ fs ∧
      x.2 = rest.map Registration.line := by
  simp only [publications, List.mem_filterMap, List.mem_filter, Frame.concerns_iff]
  constructor
  · rintro ⟨f, ⟨hf, hm⟩, hx⟩
    cases f <;> cases hx
    cases hm
    exact ⟨_, hf, rfl⟩
  · rintro ⟨rest, hf, hx⟩
    exact ⟨_, ⟨hf, rfl⟩, by rw [Frame.publication?, ← hx]⟩

theorem publications_eq_nil_of_roles (none : .publish ∉ roles m fs) : publications m fs = [] := by
  refine List.eq_nil_iff_forall_not_mem.2 fun x hx => none ?_
  obtain ⟨rest, hf, _⟩ := mem_publications.1 hx
  exact List.mem_filterMap.2 ⟨_, List.mem_filter.2 ⟨hf, Frame.concerns_iff.2 rfl⟩, rfl⟩

end Publications

/-- Somebody was told of a change. -/
def Deed.told? : Deed → Option (Nat × Change)
  | .told number change => some (number, change)
  | _ => none

/-- How a turn goes on with the publications of its machine. -/
inductive Telling (m : MachineId) (w : World H) (d : Option Deed) (cell : MachineCell H)
    (ctl : Control H) (pops pushes : List (Frame H)) : Prop where
  | same (committed : d.bind Deed.committed? = none) (told : d.bind Deed.told? = none)
      (same : publications m pushes = publications m pops)
  | commit (change : Change) (deed : d = some (.committed change)) (before : roles m pops = [.shift])
      (after : publications m pushes =
        [(change, (cell.observers.matching Change.topic).map Registration.line)])
  | tell (change : Change) (e : Nat × ScopeId) (rest : List (Nat × ScopeId))
      (live : w.isCancelled e.2 = false) (deed : d = some (.told e.1 change))
      (role : roles m pops = [.publish]) (before : publications m pops = [(change, e :: rest)])
      (after : publications m pushes = [(change, rest)])
  | pass (change : Change) (e : Nat × ScopeId) (rest : List (Nat × ScopeId))
      (cancelled : w.isCancelled e.2) (deed : d = none) (role : roles m pops = [.publish])
      (before : publications m pops = [(change, e :: rest)])
      (after : publications m pushes = [(change, rest)])
  | close (change : Change) (deed : d = none) (role : roles m pops = [.publish])
      (before : publications m pops = [(change, [])]) (after : publications m pushes = [])
  | cut (change : Change) (rest : List (Registration (Observer H))) (message : String)
      (panics : ctl = .panic message) (before : pops = [.publishing m change rest])
      (after : pushes = [])

theorem Turn.telling {w : World H} {d : Option Deed} {e : Effect H} {cell cell' : MachineCell H}
    {ctl ctl' : Control H} {pops pushes : List (Frame H)}
    (turn : Turn p w m d e ⟨cell, ctl, pops⟩ ⟨cell', ctl', pushes⟩) :
    Telling m w d cell ctl pops pushes := by
  have silently (committed : d.bind Deed.committed? = none) (told : d.bind Deed.told? = none)
      (before : pops.filterMap Frame.publication? = [])
      (after : pushes.filterMap Frame.publication? = []) : Telling m w d cell ctl pops pushes :=
    .same committed told ((publications_of_silent after).trans (publications_of_silent before).symm)
  cases turn with
  | @tell _ _ change r rest _ live =>
    exact .tell change r.line (rest.map Registration.line) live rfl roles_publishing
      publications_publishing publications_publishing
  | @passOver _ _ change r rest cancelled =>
    exact .pass change r.line (rest.map Registration.line) cancelled rfl roles_publishing
      publications_publishing publications_publishing
  | @published _ _ change =>
    exact .close change rfl roles_publishing publications_publishing rfl
  | commit => exact .commit _ rfl roles_subscribing publications_publishing
  | unwind unwinds =>
    cases unwinds with
    | publishing => exact .cut _ _ _ rfl rfl rfl
    | _ => exact silently rfl rfl rfl rfl
  | @pin _ _ _ _ pushes alive quiet call sheds =>
    obtain ⟨hpops, hpushes⟩ := sheds.filter (m := m)
    refine .same rfl rfl ?_
    rw [← List.singleton_append, publications_append, publications_of_silent rfl, publications,
      publications, hpops, hpushes]
    rfl
  | hold held quiet plain inert => exact .same rfl rfl (publications_of_isPlain inert)
  | drop held alive quiet plain inert => exact .same rfl rfl (publications_of_isPlain inert)
  | @dropLast _ _ o frames held dead quiet inert =>
    refine .same rfl rfl ?_
    show publications m ([.dismantling m, .settling o] ++ frames) = _
    rw [publications_append, publications_of_isPlain inert, List.append_nil]
    exact publications_of_silent rfl
  | observe live held quiet plain inert => exact .same rfl rfl (publications_of_isPlain inert)
  | unpin pin | unpinLast pin => cases pin <;> exact silently rfl rfl rfl rfl
  | enter enters => cases enters <;> exact silently rfl rfl rfl rfl
  | startFailed first =>
    rcases first with rfl | ⟨state, error, rfl⟩ <;> exact silently rfl rfl rfl rfl
  | handOver pin => rcases pin with rfl | rfl <;> exact silently rfl rfl rfl rfl
  | unwindScope half =>
    rcases half with ⟨x, stage, rfl⟩ | ⟨a, rest, stage, rfl, _⟩ <;>
      exact silently rfl rfl rfl rfl
  | _ => exact silently rfl rfl rfl rfl

end ScopedMachine

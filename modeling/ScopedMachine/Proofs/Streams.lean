import ScopedMachine.Proofs.Hearing

/-!
# What streams carry

A stream of changes belongs to one observer of one machine, which comes with the stream and puts on
it whatever it is told of. What was read off the stream, followed by what is still on it, is
therefore what its observer heard.
-/

namespace ScopedMachine

variable {H : Type} {p : Program H} {m : MachineId}

/-! ## Observers and their streams -/

/-- The stream that an observer feeds. -/
def Observer.stream? : Observer H → Option StreamId
  | .script _ => none
  | .stream s => some s

/-- The number of an observer with the stream that it feeds. -/
def Registration.card (r : Registration (Observer H)) : Nat × Option StreamId :=
  (r.number, r.listener.stream?)

/-- The observers that are yet to be told of a change. -/
def Frame.cards : Frame H → List (Nat × Option StreamId)
  | .publishing _ _ rest => rest.map Registration.card
  | _ => []

/-- The observers of a machine. -/
def MachineCell.cards (cell : MachineCell H) : List (Nat × Option StreamId) :=
  cell.observers.entries.map Registration.card

/-- The observers of a machine, and those that are yet to be told of one of its changes. -/
def Config.cards (m : MachineId) (c : Config H) : List (Nat × Option StreamId) :=
  ((c.world.machine? m).map MachineCell.cards).getD [] ++ (c.frames m).flatMap Frame.cards

/-- The changes that wait on a stream. -/
def World.stream (s : StreamId) (w : World H) : List Change := (w.streams[s.index]?).getD []

/-- The changes that the next step reads off a stream. -/
def Config.reads (s : StreamId) (c : Config H) : List Change :=
  match c.control with
  | .run (.call (.read t) _) => if t = s then c.world.stream s else []
  | _ => []

/-- The changes that were read off a stream. -/
def received (s : StreamId) (past : List (Config H)) : List Change := past.flatMap (Config.reads s)

/-! ## What a step does to observers -/

/-- An observer joins a machine; one that feeds a stream comes with a stream of its own. -/
def Joins (next next' : Nat) (streams streams' : Array (List Change))
    (x : Nat × Option StreamId) : Prop :=
  x.1 = next ∧ next' = next + 1 ∧
    ∀ s, x.2 = some s → s = ⟨streams.size⟩ ∧ streams' = streams.push []

theorem flatMap_cards_of_silent {fs : List (Frame H)} (silent : fs.flatMap Frame.cards = []) :
    (fs.filter (Frame.concerns m)).flatMap Frame.cards = [] := by
  rw [List.flatMap_eq_nil_iff] at silent
  exact List.flatMap_eq_nil_iff.2 fun f hf => silent f (List.mem_filter.1 hf).1

theorem flatMap_cards_of_isPlain {fs : List (Frame H)} (plain : ∀ f ∈ fs, f.isPlain) :
    (fs.filter (Frame.concerns m)).flatMap Frame.cards = [] := by
  rw [filter_concerns_of_isPlain plain, List.flatMap_nil]

/-- The observers after a turn were there before, but for one that joined. -/
theorem Turn.cards {w : World H} {d : Option Deed} {e : Effect H} {cell cell' : MachineCell H}
    {ctl ctl' : Control H} {pops pushes : List (Frame H)}
    (turn : Turn p w m d e ⟨cell, ctl, pops⟩ ⟨cell', ctl', pushes⟩) :
    cell'.cards ++ (pushes.filter (Frame.concerns m)).flatMap Frame.cards ⊆
        cell.cards ++ (pops.filter (Frame.concerns m)).flatMap Frame.cards ∨
      ∃ x, Joins cell.observers.nextNumber cell'.observers.nextNumber w.streams (e.streams w) x ∧
        cell'.cards ++ (pushes.filter (Frame.concerns m)).flatMap Frame.cards ⊆
          cell.cards ++ (pops.filter (Frame.concerns m)).flatMap Frame.cards ++ [x] := by
  have shrinks (cards : cell'.cards ⊆ cell.cards)
      (frames : (pushes.filter (Frame.concerns m)).flatMap Frame.cards ⊆
        cell.cards ++ (pops.filter (Frame.concerns m)).flatMap Frame.cards) :
      cell'.cards ++ (pushes.filter (Frame.concerns m)).flatMap Frame.cards ⊆
        cell.cards ++ (pops.filter (Frame.concerns m)).flatMap Frame.cards :=
    List.append_subset.2 ⟨List.subset_append_of_subset_left _ cards, frames⟩
  have silently (cards : cell'.cards ⊆ cell.cards)
      (silent : (pushes.filter (Frame.concerns m)).flatMap Frame.cards = []) :
      cell'.cards ++ (pushes.filter (Frame.concerns m)).flatMap Frame.cards ⊆
        cell.cards ++ (pops.filter (Frame.concerns m)).flatMap Frame.cards :=
    shrinks cards (by rw [silent]; exact List.nil_subset _)
  have publishing {change : Change} {rest : List (Registration (Observer H))} :
      ([.publishing m change rest].filter (Frame.concerns m)).flatMap Frame.cards =
        rest.map Registration.card := by
    simp [Frame.concerns, Frame.cards]
  have same (l : List (Nat × Option StreamId)) : l ⊆ l := List.Subset.refl l
  cases turn with
  | @observe _ _ _ token observer frames live held quiet plain inert fresh =>
    refine .inr ⟨(cell.observers.nextNumber, observer.stream?), ⟨rfl, rfl, fun s hs => ?_⟩, ?_⟩
    · cases observer with
      | script f => cases hs
      | stream t =>
        cases hs
        exact ⟨fresh _ rfl, rfl⟩
    · rw [flatMap_cards_of_isPlain inert, List.append_nil]
      show (cell.observers.entries ++ [_]).map Registration.card ⊆ _
      rw [List.map_append, List.filter_nil, List.flatMap_nil, List.append_nil]
      exact same _
  | unobserve =>
    exact .inl (silently (List.map_subset _ (List.filter_subset_self _)) (flatMap_cards_of_silent rfl))
  | dismantled => exact .inl (silently (List.nil_subset _) rfl)
  | commit running =>
    refine .inl (shrinks (same _) ?_)
    rw [publishing]
    exact List.subset_append_of_subset_left _ (List.map_subset _ (List.filter_subset_self _))
  | tell | passOver =>
    refine .inl (shrinks (same _) ?_)
    rw [publishing, publishing]
    exact List.subset_append_of_subset_right _ (List.subset_cons_self _ _)
  | hold held quiet plain inert | drop held alive quiet plain inert =>
    exact .inl (silently (same _) (flatMap_cards_of_isPlain inert))
  | @dropLast _ _ o frames held dead quiet inert =>
    refine .inl (silently (same _) ?_)
    show (([Frame.dismantling m, .settling o] ++ frames).filter (Frame.concerns m)).flatMap _ = []
    rw [List.filter_append, List.flatMap_append, flatMap_cards_of_isPlain inert, List.append_nil]
    exact flatMap_cards_of_silent rfl
  | @pin _ _ _ _ pushes alive quiet call sheds =>
    refine .inl (silently (same _) ?_)
    show (([Frame.holding m] ++ pushes).filter (Frame.concerns m)).flatMap _ = []
    rw [List.filter_append, List.flatMap_append, (sheds.filter).2, List.flatMap_nil,
      List.append_nil]
    exact flatMap_cards_of_silent rfl
  | _ => exact .inl (silently (same _) (flatMap_cards_of_silent rfl))

theorem World.nextObserver_eq {w : World H} {cell : MachineCell H}
    (found : w.machine? m = some cell) : w.nextObserver m = cell.observers.nextNumber := by
  rw [nextObserver, book?, found]
  rfl

/-- The observers after a step were there before, but for one that joined. -/
theorem Move.cards {c c' : Config H} (move : Move p c c') (m : MachineId) :
    c'.cards m ⊆ c.cards m ∨
      ∃ x, Joins (c.world.nextObserver m) (c'.world.nextObserver m) c.world.streams c'.world.streams
          x ∧ c'.cards m ⊆ c.cards m ++ [x] := by
  cases move.outlook m with
  | spared machine frames =>
    refine .inl ?_
    rw [Config.cards, Config.cards, machine, frames]
    exact List.Subset.refl _
  | start signal new found deed blank control frames =>
    obtain ⟨settings, manager, rfl⟩ := blank
    refine .inl ?_
    rw [Config.cards, Config.cards, new, found, frames]
    exact List.Subset.refl _
  | @turn cell cell' e pops pushes rest found found' turn before after turned =>
    rw [World.nextObserver_eq found, World.nextObserver_eq found', turned.streams, Config.cards,
      Config.cards, found, found', Config.frames, Config.frames, before, after, List.filter_append,
      List.filter_append, List.flatMap_append, List.flatMap_append, ← List.append_assoc,
      ← List.append_assoc]
    rcases turn.cards with shrinks | ⟨x, joins, grows⟩
    · refine .inl ?_
      exact List.append_subset.2 ⟨List.subset_append_of_subset_left _ shrinks,
        List.subset_append_right ..⟩
    · refine .inr ⟨x, joins, fun y hy => ?_⟩
      rcases List.mem_append.1 hy with hy | hy
      · rcases List.mem_append.1 (grows hy) with hy | hy
        · exact List.mem_append_left _ (List.mem_append_left _ hy)
        · exact List.mem_append_right _ hy
      · exact List.mem_append_left _ (List.mem_append_right _ hy)

/-! ## What a step does to streams -/

/-- The streams after an observer with a card was told of a change. -/
def pour (o : Option StreamId) (change : Change) (streams : Array (List Change)) :
    Array (List Change) :=
  match o with
  | none => streams
  | some s => streams.modify s.index (· ++ [change])

/-- How a step that reads no stream changes the streams. -/
inductive Streams (c c' : Config H) : Prop where
  | same (untold : ∀ m, (c.deed? m).bind Deed.told? = none)
      (streams : c'.world.streams = c.world.streams)
  | opened (untold : ∀ m, (c.deed? m).bind Deed.told? = none)
      (streams : c'.world.streams = c.world.streams.push [])
  | tell (m : MachineId) (number : Nat) (change : Change) (o : Option StreamId)
      (deed : c.deed? m = some (.told number change)) (others : ∀ n, n ≠ m → c.deed? n = none)
      (card : (number, o) ∈ c.cards m)
      (streams : c'.world.streams = pour o change c.world.streams)

theorem Turn.streams {w w' : World H} {h h' : H} {d : Option Deed} {e : Effect H}
    {cell cell' : MachineCell H} {ctl ctl' : Control H} {pops pushes rest : List (Frame H)}
    (turn : Turn p w m d e ⟨cell, ctl, pops⟩ ⟨cell', ctl', pushes⟩)
    (deed : Config.deed? m ⟨w, h, ctl, pops ++ rest⟩ = d)
    (others : ∀ n, n ≠ m → Config.deed? n ⟨w, h, ctl, pops ++ rest⟩ = none)
    (turned : w.Turned m cell' e w') :
    Streams ⟨w, h, ctl, pops ++ rest⟩ ⟨w', h', ctl', pushes ++ rest⟩ := by
  have untold (told : d.bind Deed.told? = none) (n : MachineId) :
      (Config.deed? n ⟨w, h, ctl, pops ++ rest⟩).bind Deed.told? = none := by
    by_cases hn : n = m
    · rw [hn, deed, told]
    · rw [others n hn]
      rfl
  have same (told : d.bind Deed.told? = none) (streams : e.streams w = w.streams) :
      Streams ⟨w, h, ctl, pops ++ rest⟩ ⟨w', h', ctl', pushes ++ rest⟩ :=
    .same (untold told) (turned.streams.trans streams)
  cases turn with
  | @tell _ a change r others' =>
    refine .tell m r.number change r.listener.stream? deed others ?_ ?_
    · refine List.mem_append_right _ (List.mem_flatMap.2 ⟨.publishing m change (r :: others'),
        List.mem_filter.2 ⟨List.mem_cons_self .., Frame.concerns_iff.2 rfl⟩, ?_⟩)
      exact List.mem_cons_self ..
    · refine turned.streams.trans ?_
      cases r.listener <;> rfl
  | @observe _ _ _ _ observer =>
    cases observer with
    | script f => exact same rfl rfl
    | stream s => exact .opened (untold rfl) turned.streams
  | _ => exact same rfl rfl

theorem Move.streams {c c' : Config H} (move : Move p c c')
    (unread : ∀ s k, c.control ≠ .run (.call (.read s) k)) : Streams c c' := by
  have same {w w' : World H} {h h' : H} {ctl ctl' : Control H} {stack stack' : List (Frame H)}
      (quiet : ∀ m, Config.deed? m ⟨w, h, ctl, stack⟩ = none) (streams : w'.streams = w.streams) :
      Streams ⟨w, h, ctl, stack⟩ ⟨w', h', ctl', stack'⟩ :=
    .same (fun m => by rw [quiet m]; rfl) streams
  cases move with
  | idle pops pushes rest alike sheds quiet plain idle => exact same idle alike.streams
  | collect | hang | callRelease => exact same (fun _ => Config.deed?_run) rfl
  | newScope => exact same (fun _ => Config.deed?_run) World.streams_addScope
  | look | ask => exact same (fun _ => Config.deed?_gather) rfl
  | hear => exact same (fun _ => Config.deed?_free rfl) rfl
  | release live => exact same (fun _ => Config.deed?_release) rfl
  | lose => exact same (fun _ => Config.deed?_panic) rfl
  | listen => exact same (fun _ => Config.deed?_run) World.streams_register
  | unlisten | disarm | tick | reached => exact same (fun _ => Config.deed?_free rfl) rfl
  | unobserveGone alike => exact same (fun _ => Config.deed?_free rfl) alike.streams
  | arm => exact same (fun _ => Config.deed?_run) World.streams_arm
  | openStream => exact .opened (fun m => by rw [Config.deed?_run]; rfl) rfl
  | read => exact absurd rfl (unread _ _)
  | start frames new machine scopes sources streams =>
    exact same (fun _ => Config.deed?_run) streams
  | turn pops pushes rest found turn turned others => exact turn.streams rfl others turned

/-! ## Every instant of a run -/

/-- An observer with this number and stream is or was registered. -/
def HasCard (m : MachineId) (x : Nat × Option StreamId) (past : List (Config H)) (c : Config H) :
    Prop :=
  ∃ y ∈ past ++ [c], x ∈ y.cards m

section HasCard

variable {past : List (Config H)} {c c' : Config H} {x : Nat × Option StreamId} {s : StreamId}

theorem hasCard_concat : HasCard m x (past ++ [c]) c' ↔ HasCard m x past c ∨ x ∈ c'.cards m := by
  simp [HasCard, or_and_right, exists_or, or_assoc]

theorem HasCard.of_mem (h : x ∈ c.cards m) : HasCard m x past c := ⟨c, by simp, h⟩

theorem received_concat : received s (past ++ [c]) = received s past ++ c.reads s := by
  simp [received]

theorem Config.reads_of_unread (unread : ∀ s k, c.control ≠ .run (.call (.read s) k)) :
    c.reads s = [] := by
  unfold reads
  split
  · next control => exact absurd control (unread _ _)
  · rfl

theorem World.stream_eq_nil {w : World H} (h : w.streams.size ≤ s.index) : w.stream s = [] := by
  rw [stream, Array.getElem?_eq_none h]
  rfl

theorem Config.reads_eq_nil (h : c.world.streams.size ≤ s.index) : c.reads s = [] := by
  unfold reads
  split
  · split
    · exact World.stream_eq_nil h
    · rfl
  · rfl

/-- What is told of to an observer is put on its stream, and on no other one. -/
theorem getD_pour {o : Option StreamId} {change : Change} {streams : Array (List Change)}
    (h : s.index < streams.size) :
    ((pour o change streams)[s.index]?).getD [] =
      (streams[s.index]?).getD [] ++ if o = some s then [change] else [] := by
  cases o with
  | none => simp [pour]
  | some t =>
    simp only [pour, Array.getElem?_modify, Option.some.injEq]
    by_cases ht : t = s
    · subst ht
      simp [h]
    · have other : t.index ≠ s.index := fun h => ht (by cases t; cases s; cases h; rfl)
      simp [ht, other]

theorem size_pour {o : Option StreamId} {change : Change} {streams : Array (List Change)} :
    (pour o change streams).size = streams.size := by
  cases o <;> simp [pour]

end HasCard

/-- What is known of the observers that feed streams. -/
structure Posted (past : List (Config H)) (c : Config H) : Prop where
  lt {m : MachineId} {x : Nat × Option StreamId} (card : HasCard m x past c) :
    x.1 < c.world.nextObserver m
  size {m : MachineId} {k : Nat} {s : StreamId} (card : HasCard m (k, some s) past c) :
    s.index < c.world.streams.size
  unique {m : MachineId} {k : Nat} {o o' : Option StreamId} (card : HasCard m (k, o) past c)
    (card' : HasCard m (k, o') past c) : o = o'
  owner {m n : MachineId} {k l : Nat} {s : StreamId} (card : HasCard m (k, some s) past c)
    (card' : HasCard n (l, some s) past c) : m = n ∧ k = l
  unborn {s : StreamId} (h : c.world.streams.size ≤ s.index) : received s past = []
  post {m : MachineId} {k : Nat} {s : StreamId} (card : HasCard m (k, some s) past c) :
    received s past ++ c.world.stream s = heard k (deeds m past)

namespace Posted

variable {past : List (Config H)} {c c' : Config H}

/-- What is put on the stream of an observer is what the observer hears. -/
theorem post_step (posted : Posted past c) (streams : Streams c c')
    (unread : ∀ s k, c.control ≠ .run (.call (.read s) k)) {k : Nat} {s : StreamId}
    (card : HasCard m (k, some s) past c) :
    received s (past ++ [c]) ++ c'.world.stream s = heard k (deeds m (past ++ [c])) := by
  have post := posted.post card
  have size := posted.size card
  rw [received_concat, Config.reads_of_unread unread, List.append_nil, deeds_concat]
  cases streams with
  | same untold streams =>
    rw [heard_of_told?_none (untold m), World.stream, streams]
    exact post
  | opened untold streams =>
    rw [heard_of_told?_none (untold m), World.stream, streams,
      Array.getElem?_push_lt size, ← Array.getElem?_eq_getElem size]
    exact post
  | tell n number change o deed others card' streams =>
    rw [World.stream, streams, getD_pour size, ← List.append_assoc]
    by_cases hn : m = n
    · subst hn
      rw [deed]
      refine Eq.trans ?_ heard_told.symm
      by_cases hk : number = k
      · subst hk
        rw [if_pos (posted.unique (.of_mem card') card), if_pos rfl, ← post]
        rfl
      · have other : o ≠ some s := by
          rintro rfl
          exact hk (posted.owner (.of_mem card') card).2
        rw [if_neg other, if_neg hk, ← post]
        rfl
    · have other : o ≠ some s := by
        rintro rfl
        exact hn (posted.owner card (.of_mem card')).1
      rw [if_neg other, others m hn, List.append_nil, Option.toList_none, List.append_nil, ← post]
      rfl

theorem step (posted : Posted past c) (move : Move p c c')
    (le : c.world.streams.size ≤ c'.world.streams.size)
    (heardNothing : ∀ m, heard (c.world.nextObserver m) (deeds m (past ++ [c])) = [])
    (post : ∀ {m k s}, HasCard m (k, some s) past c →
      received s (past ++ [c]) ++ c'.world.stream s = heard k (deeds m (past ++ [c]))) :
    Posted (past ++ [c]) c' := by
  have books := move.books
  have next (m : MachineId) := books.nextObserver_le (m := m)
  have arrives (m : MachineId) :
      (∀ {x}, HasCard m x (past ++ [c]) c' → HasCard m x past c) ∨
        ∃ y, Joins (c.world.nextObserver m) (c'.world.nextObserver m) c.world.streams
            c'.world.streams y ∧
          ∀ {x}, HasCard m x (past ++ [c]) c' → HasCard m x past c ∨ x = y := by
    rcases move.cards m with shrinks | ⟨y, joins, grows⟩
    · refine .inl fun card => ?_
      rcases hasCard_concat.1 card with card | here
      · exact card
      · exact .of_mem (shrinks here)
    · refine .inr ⟨y, joins, fun card => ?_⟩
      rcases hasCard_concat.1 card with card | here
      · exact .inl card
      · rcases List.mem_append.1 (grows here) with here | here
        · exact .inl (.of_mem here)
        · exact .inr (List.mem_singleton.1 here)
  have joined {m : MachineId} {x : Nat × Option StreamId} (card : HasCard m x (past ++ [c]) c') :
      HasCard m x past c ∨ Joins (c.world.nextObserver m) (c'.world.nextObserver m)
        c.world.streams c'.world.streams x := by
    rcases arrives m with stays | ⟨y, joins, grows⟩
    · exact .inl (stays card)
    · rcases grows card with card | rfl
      · exact .inl card
      · exact .inr joins
  have unborn {s : StreamId} (h : c.world.streams.size ≤ s.index) :
      received s (past ++ [c]) = [] := by
    rw [received_concat, posted.unborn h, Config.reads_eq_nil h]
    rfl
  refine ⟨fun {m x} card => ?_, fun {m k s} card => ?_, fun {m k o o'} card card' => ?_,
    fun {m n k l s} card card' => ?_, fun h => unborn (Nat.le_trans le h), fun {m k s} card => ?_⟩
  · rcases joined card with card | ⟨number, grows, _⟩
    · exact Nat.lt_of_lt_of_le (posted.lt card) (next m)
    · omega
  · rcases joined card with card | ⟨_, _, new⟩
    · exact Nat.lt_of_lt_of_le (posted.size card) le
    · obtain ⟨rfl, pushed⟩ := new s rfl
      simp [pushed]
  · rcases arrives m with stays | ⟨y, ⟨number, _⟩, grows⟩
    · exact posted.unique (stays card) (stays card')
    · -- the number of whoever joined belongs to nobody else
      rcases grows card with card | same <;> rcases grows card' with card' | same'
      · exact posted.unique card card'
      · rw [← same'] at number
        have lt : k < c.world.nextObserver m := posted.lt card
        exact absurd number (Nat.ne_of_lt lt)
      · rw [← same] at number
        have lt : k < c.world.nextObserver m := posted.lt card'
        exact absurd number (Nat.ne_of_lt lt)
      · exact congrArg Prod.snd (same.trans same'.symm)
  · rcases joined card with card | ⟨number, grows, new⟩ <;>
      rcases joined card' with card' | ⟨number', grows', new'⟩
    · exact posted.owner card card'
    · obtain ⟨rfl, _⟩ := new' s rfl
      exact absurd (posted.size card) (Nat.lt_irrefl _)
    · obtain ⟨rfl, _⟩ := new s rfl
      exact absurd (posted.size card') (Nat.lt_irrefl _)
    · have same : m = n := books.eq_of_nextObserver_ne (by omega) (by omega)
      subst same
      exact ⟨rfl, number.trans number'.symm⟩
  · rcases joined card with card | ⟨number, _, new⟩
    · exact post card
    · obtain ⟨rfl, pushed⟩ := new s rfl
      have number : k = c.world.nextObserver m := number
      have none : received ⟨c.world.streams.size⟩ (past ++ [c]) = [] := unborn (Nat.le_refl _)
      rw [number, heardNothing, World.stream, pushed, none]
      simp

/-- What is read off a stream does not wait there any more. -/
theorem post_read {t : StreamId} {f : Answer → Script H} (posted : Posted past c)
    (control : c.control = .run (.call (.read t) f))
    (streams : c'.world.streams = c.world.streams.modify t.index fun _ => [])
    {m : MachineId} {k : Nat} {s : StreamId} (card : HasCard m (k, some s) past c) :
    received s (past ++ [c]) ++ c'.world.stream s = heard k (deeds m (past ++ [c])) := by
  have quiet : c.deed? m = none := by
    obtain ⟨w, h, ctl, stack⟩ := c
    cases control
    exact Config.deed?_run
  have post := posted.post card
  have size := posted.size card
  rw [received_concat, Config.reads, control, deeds_concat, quiet, Option.toList_none,
    List.append_nil, List.append_assoc, ← post]
  refine congrArg (received s past ++ ·) ?_
  simp only [World.stream, streams, Array.getElem?_modify]
  by_cases ht : t = s
  · subst ht
    simp [size]
  · have other : t.index ≠ s.index := fun h => ht (by cases t; cases s; cases h; rfl)
    simp [ht, other]

end Posted

theorem Program.Run.posted {w : World H} {past : List (Config H)} {c : Config H}
    (run : p.Run w past c) : Posted past c := by
  induction run with
  | begin fresh host s =>
    have nobody {m : MachineId} {x : Nat × Option StreamId} :
        ¬HasCard m x [] { world := w, host, control := .run s } := by
      rintro ⟨y, hy, hx⟩
      rw [List.mem_singleton.1 hy, Config.cards, fresh.machine?] at hx
      cases hx
    exact ⟨fun h => absurd h nobody, fun h => absurd h nobody, fun h => absurd h nobody,
      fun h => absurd h nobody, fun _ => rfl, fun h => absurd h nobody⟩
  | @step past c c' run h ih =>
    have move := run.move h
    have heardNothing (m : MachineId) :
        heard (c.world.nextObserver m) (deeds m (past ++ [c])) = [] := by
      have order := (run.step h).attends.order (m := m) (c.world.nextObserver m)
      rw [run.attends.due_of_le (Nat.le_refl _)] at order
      exact List.sublist_nil.1 order
    by_cases read : ∃ s k, c.control = .run (.call (.read s) k)
    · obtain ⟨s, k, control⟩ := read
      have streams : c'.world.streams = c.world.streams.modify s.index fun _ => [] := by
        rw [Program.step, control] at h
        cases h
        rfl
      refine ih.step move ?_ heardNothing (ih.post_read control streams)
      exact Nat.le_of_eq (by rw [streams, Array.size_modify])
    · have unread (s : StreamId) (k : Answer → Script H) :
          c.control ≠ .run (.call (.read s) k) := fun h => read ⟨s, k, h⟩
      have streams := move.streams unread
      refine ih.step move ?_ heardNothing (ih.post_step streams unread)
      cases streams with
      | same _ streams => exact Nat.le_of_eq (by rw [streams])
      | opened _ streams => rw [streams, Array.size_push]; exact Nat.le_succ _
      | tell _ _ _ _ _ _ _ streams => exact Nat.le_of_eq (by rw [streams, size_pour])
  | @resume past c run ended host s ih =>
    have card {m : MachineId} {x : Nat × Option StreamId}
        (h : HasCard m x (past ++ [c]) { c with host, control := .run s }) : HasCard m x past c := by
      rcases hasCard_concat.1 h with h | h
      · exact h
      · exact .of_mem h
    have unread (t : StreamId) (k : Answer → Script H) : c.control ≠ .run (.call (.read t) k) := by
      obtain ⟨_, ⟨a, ha⟩ | ⟨message, hm⟩⟩ := ended
      · simp [ha]
      · simp [hm]
    have same (t : StreamId) : received t (past ++ [c]) = received t past := by
      rw [received_concat, Config.reads_of_unread unread]
      exact List.append_nil _
    refine ⟨fun h => ih.lt (card h), fun h => ih.size (card h), fun h h' => ih.unique (card h) (card h'),
      fun h h' => ih.owner (card h) (card h'), fun h => ?_, fun h => ?_⟩
    · rw [same]
      exact ih.unborn h
    · rw [same, deeds_concat, Config.deed?_of_isOver ended, Option.toList_none, List.append_nil]
      exact ih.post (card h)

end ScopedMachine

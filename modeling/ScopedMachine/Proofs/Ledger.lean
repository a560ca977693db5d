import ScopedMachine.Proofs.Run

/-!
# A queue on paper

`Ledger` is what a machine's inbox is meant to be: a queue that numbers the events as they are sent,
hands them out in that order, and forgets the waiting ones when it is told to. It does not know who
sends, or from where. `Ledger.read?` reads what a machine did and fails as soon as that is not what a
queue does, so that whatever is read without failure was routed in order and at most once.
-/

namespace ScopedMachine

namespace Deed

/-- The event that was sent. -/
def sent? : Deed → Option (SourceId × Event)
  | .sent source e => some (source, e)
  | _ => none

/-- The event that was routed. -/
def routed? : Deed → Option (SourceId × Event)
  | .routed source e => some (source, e)
  | _ => none

end Deed

/-- What became of the events sent to a machine. They are numbered in the order of the sends. -/
structure Ledger where
  sent : List (SourceId × Event) := []
  /-- The numbers of the events that were routed, in the order in which that happened. -/
  routed : List Nat := []
  /-- The numbers of the events that were thrown away while they waited. -/
  discarded : List Nat := []
  /-- The numbers of the events that wait, the next one first. -/
  waiting : List Nat := []

namespace Ledger

/-- Enter a deed. An event can only be routed while it is the one that waits longest. -/
def enter? (l : Ledger) : Deed → Option Ledger
  | .sent source e =>
    some { l with sent := l.sent ++ [(source, e)], waiting := l.waiting ++ [l.sent.length] }
  | .routed source e =>
    match l.waiting with
    | [] => none
    | n :: rest =>
      if l.sent[n]? = some (source, e) then
        some { l with routed := l.routed ++ [n], waiting := rest }
      else none
  | .discarded => some { l with discarded := l.discarded ++ l.waiting, waiting := [] }
  | .began _ | .committed _ | .told _ _ => some l

/-- Enter what a machine did, from the first deed on. -/
def read? (ds : List Deed) : Option Ledger := ds.foldlM enter? {}

variable {l l' : Ledger} {ds : List Deed} {d : Deed}

theorem read?_concat : read? (ds ++ [d]) = (read? ds).bind (enter? · d) := by
  unfold read?
  rw [List.foldlM_append]
  cases h : ds.foldlM enter? ({} : Ledger) with
  | none => rfl
  | some l => simp

/-- Everything sent is in one place, and the order of the sends is kept. -/
structure Sound (l : Ledger) : Prop where
  ordered : (l.routed ++ l.waiting).Pairwise (· < ·)
  complete : (l.routed ++ l.discarded ++ l.waiting).Perm (List.range l.sent.length)

theorem Sound.lt_length (sound : l.Sound) {n : Nat} (hn : n ∈ l.routed ++ l.waiting) :
    n < l.sent.length := by
  rw [← List.mem_range, ← sound.complete.mem_iff]
  simp only [List.mem_append] at hn ⊢
  rcases hn with hn | hn
  · exact .inl (.inl hn)
  · exact .inr hn

theorem Sound.enter (sound : l.Sound) (h : l.enter? d = some l') : l'.Sound := by
  cases d with
  | sent source e =>
    cases h
    constructor
    · rw [← List.append_assoc]
      refine List.pairwise_append.2 ⟨sound.ordered, List.pairwise_singleton .., ?_⟩
      intro n hn k hk
      rw [List.mem_singleton.1 hk]
      exact sound.lt_length hn
    · simp only [List.length_append, List.length_singleton, List.range_succ]
      rw [← List.append_assoc]
      exact sound.complete.append_right _
  | routed source e =>
    simp only [enter?] at h
    split at h
    · cases h
    · next n rest hw =>
      split at h
      · cases h
        obtain ⟨ordered, complete⟩ := sound
        rw [hw] at ordered complete
        constructor
        · simpa using ordered
        · refine .trans ?_ complete
          simp only [List.append_assoc, List.singleton_append]
          exact .append_left _ List.perm_middle.symm
      · cases h
  | discarded =>
    cases h
    obtain ⟨ordered, complete⟩ := sound
    constructor
    · rw [List.append_nil]
      exact (List.pairwise_append.1 ordered).1
    · simpa using complete
  | began state => cases h; exact sound
  | committed change => cases h; exact sound
  | told number change => cases h; exact sound

theorem Sound.foldlM (sound : l.Sound) (h : ds.foldlM enter? l = some l') : l'.Sound := by
  induction ds generalizing l with
  | nil => cases h; exact sound
  | cons d ds ih =>
    rw [List.foldlM_cons] at h
    cases hd : l.enter? d with
    | none => rw [hd] at h; cases h
    | some l₁ =>
      rw [hd] at h
      exact ih (sound.enter hd) h

/-- A ledger that was read is sound. -/
theorem sound_of_read? (h : read? ds = some l) : l.Sound :=
  Sound.foldlM ⟨.nil, .refl _⟩ h

theorem sent_of_enter? (h : l.enter? d = some l') : l'.sent = l.sent ++ d.sent?.toList := by
  cases d with
  | sent source e => cases h; rfl
  | routed source e =>
    simp only [enter?] at h
    split at h
    · cases h
    · split at h <;> cases h
      exact (List.append_nil _).symm
  | discarded => cases h; exact (List.append_nil _).symm
  | began state => cases h; exact (List.append_nil _).symm
  | committed change => cases h; exact (List.append_nil _).symm
  | told number change => cases h; exact (List.append_nil _).symm

/-- The events that were routed, in the order in which that happened. -/
def routedEvents (l : Ledger) : List (Option (SourceId × Event)) := l.routed.map (l.sent[·]?)

theorem routedEvents_of_enter? (sound : l.Sound) (h : l.enter? d = some l') :
    l'.routedEvents = l.routedEvents ++ d.routed?.toList.map some := by
  cases d with
  | sent source e =>
    cases h
    simp only [routedEvents, Deed.routed?, Option.toList_none, List.map_nil, List.append_nil]
    apply List.map_congr_left
    intro n hn
    exact List.getElem?_append_left (sound.lt_length (List.mem_append_left _ hn))
  | routed source e =>
    simp only [enter?] at h
    split at h
    · cases h
    · next n rest hw =>
      split at h
      · next here =>
        cases h
        simp [routedEvents, Deed.routed?, here]
      · cases h
  | discarded => cases h; exact (List.append_nil _).symm
  | began state => cases h; exact (List.append_nil _).symm
  | committed change => cases h; exact (List.append_nil _).symm
  | told number change => cases h; exact (List.append_nil _).symm

theorem events_of_foldlM (sound : l.Sound) (h : ds.foldlM enter? l = some l') :
    l'.sent = l.sent ++ ds.filterMap Deed.sent? ∧
      l'.routedEvents = l.routedEvents ++ (ds.filterMap Deed.routed?).map some := by
  induction ds generalizing l with
  | nil => cases h; exact ⟨(List.append_nil _).symm, (List.append_nil _).symm⟩
  | cons d ds ih =>
    rw [List.foldlM_cons] at h
    cases hd : l.enter? d with
    | none => rw [hd] at h; cases h
    | some l₁ =>
      rw [hd] at h
      obtain ⟨sent, routed⟩ := ih (sound.enter hd) h
      rw [sent, routed, sent_of_enter? hd, routedEvents_of_enter? sound hd, List.append_assoc,
        List.append_assoc]
      cases hs : d.sent? <;> cases hr : d.routed? <;> simp [hs, hr]

/-- A ledger keeps the events in the order in which they were sent, and in that in which they were
routed. -/
theorem events_of_read? (h : read? ds = some l) :
    l.sent = ds.filterMap Deed.sent? ∧
      l.routedEvents = (ds.filterMap Deed.routed?).map some := by
  simpa [routedEvents] using events_of_foldlM ⟨.nil, .refl _⟩ h

end Ledger

end ScopedMachine

import ScopedMachine.Proofs.Outlook

/-!
# The posture of a machine

What is under way for one machine is a stack of activities, and only a few stacks are possible: a
transition goes on directly above the drain of the inbox, a drain directly above the call that began
it, and so on. `Role` names the activities, `Nested` says which stack up, and `Posture` ties the
stack to the cell of the machine. From this follow the facts that everything else rests on: a machine
drains its inbox at most once at a time, and it is in at most one transition at a time.
-/

namespace ScopedMachine

variable {H : Type} {p : Program H}

/-! ## Roles -/

/-- What a frame does for its machine. -/
inductive Role where
  /-- A call holds a handle. -/
  | hold
  /-- The machine is being started. -/
  | start
  /-- The machine was started and is handed over. -/
  | signal
  /-- The first state is being entered. -/
  | first
  /-- Events are being handled. -/
  | drain
  /-- The target of an event is collected; the current activation is in place. -/
  | collect
  /-- One activation is left for another. -/
  | shift
  /-- Observers are told of a change. -/
  | publish
  | stop
  | dismantle
deriving DecidableEq

namespace Role

/-- Whether the role comes with a handle of its own. -/
def isPin : Role → Bool
  | .hold | .start | .signal => true
  | _ => false

/-- Whether an event is being handled in this role. -/
def isTransit : Role → Bool
  | .collect | .shift | .publish => true
  | _ => false

/-- Whether a role can stand directly above another one, or at the bottom. -/
def sits (below : Option Role) : Role → Prop
  | .collect | .shift | .publish => below = some .drain
  | .drain => below = some .hold
  | .first => below = some .start
  | .stop => below = some .hold ∨ below = some .drain
  | .hold => below ≠ some .dismantle
  | .start | .signal | .dismantle => below = none

end Role

/-- The role in which an activation is entered. -/
def Stage.role : Stage H → Role
  | .initial => .first
  | .commit .. | .restore .. => .shift

namespace Stage

variable {stage : Stage H}

theorem isPin_role : stage.role.isPin = false := by cases stage <;> rfl

theorem role_ne_drain : stage.role ≠ .drain := by cases stage <;> nofun

theorem role_eq_shift (later : stage ≠ .initial) : stage.role = .shift := by
  cases stage with
  | initial => exact absurd rfl later
  | commit | restore => rfl

end Stage

/-- The role of a frame that works for a machine. -/
def Frame.role? : Frame H → Option Role
  | .holding _ => some .hold
  | .starting .. => some .start
  | .signalled _ => some .signal
  | .collecting (.initial _) => some .first
  | .draining .. => some .drain
  | .collecting (.transition ..) => some .collect
  | .leaving .. => some .shift
  | .activating _ _ _ stage | .subscribing _ _ _ stage | .abandoning _ _ _ stage => some stage.role
  | .publishing .. => some .publish
  | .stopping _ => some .stop
  | .dismantling _ => some .dismantle
  | _ => none

/-- The roles of the frames that work for a machine, innermost first. -/
def roles (m : MachineId) (fs : List (Frame H)) : List Role :=
  (fs.filter (Frame.concerns m)).filterMap Frame.role?

section Roles

variable {m : MachineId} {fs gs : List (Frame H)}

@[simp] theorem roles_nil : roles m ([] : List (Frame H)) = [] := rfl

theorem roles_cons {f : Frame H} :
    roles m (f :: fs) =
      if f.machine? = some m then f.role?.toList ++ roles m fs else roles m fs := by
  by_cases hf : f.machine? = some m
  · cases hr : f.role? <;> simp [roles, Frame.concerns, hf, hr]
  · simp [roles, Frame.concerns, hf]

theorem roles_of_role {f : Frame H} {r : Role} (hf : f.machine? = some m)
    (hr : f.role? = some r) : roles m (f :: fs) = r :: roles m fs := by
  rw [roles_cons, if_pos hf, hr]
  rfl

theorem roles_of_free {f : Frame H} (hf : f.machine? = none) : roles m (f :: fs) = roles m fs := by
  simp [roles_cons, hf]

@[simp] theorem roles_holding : roles m (.holding m :: fs) = .hold :: roles m fs :=
  roles_of_role rfl rfl

@[simp] theorem roles_starting {signal : Option ScopeId} :
    roles m (.starting m signal :: fs) = .start :: roles m fs :=
  roles_of_role rfl rfl

@[simp] theorem roles_signalled : roles m (.signalled m :: fs) = .signal :: roles m fs :=
  roles_of_role rfl rfl

@[simp] theorem roles_initial : roles m (.collecting (.initial m) :: fs) = .first :: roles m fs :=
  roles_of_role rfl rfl

@[simp] theorem roles_transition {kind : String} :
    roles m (.collecting (.transition m kind) :: fs) = .collect :: roles m fs :=
  roles_of_role rfl rfl

@[simp] theorem roles_draining {kind : String} {first : Option (Except MachineError Delivery)} :
    roles m (.draining m kind first :: fs) = .drain :: roles m fs :=
  roles_of_role rfl rfl

@[simp] theorem roles_leaving {x y : Collected (Entry H)} {event : String} :
    roles m (.leaving m x y event :: fs) = .shift :: roles m fs :=
  roles_of_role rfl rfl

@[simp] theorem roles_activating {x : Collected (Entry H)} {scope : ScopeId} {stage : Stage H} :
    roles m (.activating m x scope stage :: fs) = stage.role :: roles m fs :=
  roles_of_role rfl rfl

@[simp] theorem roles_subscribing {a : Activation H} {rest : List Route} {stage : Stage H} :
    roles m (.subscribing m a rest stage :: fs) = stage.role :: roles m fs :=
  roles_of_role rfl rfl

@[simp] theorem roles_abandoning {state : String} {error : DefinitionError} {stage : Stage H} :
    roles m (.abandoning m state error stage :: fs) = stage.role :: roles m fs :=
  roles_of_role rfl rfl

@[simp] theorem roles_publishing {change : Change} {rest : List (Registration (Observer H))} :
    roles m (.publishing m change rest :: fs) = .publish :: roles m fs :=
  roles_of_role rfl rfl

@[simp] theorem roles_stopping : roles m (.stopping m :: fs) = .stop :: roles m fs :=
  roles_of_role rfl rfl

@[simp] theorem roles_dismantling : roles m (.dismantling m :: fs) = .dismantle :: roles m fs :=
  roles_of_role rfl rfl

@[simp] theorem roles_acting {state : String} {scope : ScopeId} {rest : List (Entry H)} :
    roles m (.acting state scope rest :: fs) = roles m fs :=
  roles_of_free rfl

@[simp] theorem roles_releasing {scope : ScopeId} {rest : List (Teardown H)} :
    roles m (.releasing scope rest :: fs) = roles m fs :=
  roles_of_free rfl

@[simp] theorem roles_settling {o : Outcome} : roles m (.settling o :: fs) = roles m fs :=
  roles_of_free rfl

theorem roles_of_pins {f : Frame H} (pin : Pins m f) :
    ∃ r : Role, r.isPin ∧ roles m [f] = [r] := by
  cases pin with
  | holding => exact ⟨.hold, rfl, roles_holding⟩
  | starting => exact ⟨.start, rfl, roles_starting⟩
  | signalled => exact ⟨.signal, rfl, roles_signalled⟩

theorem roles_append : roles m (fs ++ gs) = roles m fs ++ roles m gs := by
  simp [roles]

/-- A frame has one role at most. -/
theorem roles_eq_of_mem {f : Frame H} {r : Role} (mem : r ∈ roles m [f]) : roles m [f] = [r] := by
  rw [roles_cons, roles_nil, List.append_nil] at mem ⊢
  split at mem
  · next mine =>
    rw [if_pos mine, Option.mem_toList.1 mem]
    rfl
  · cases mem

theorem roles_of_isPlain (plain : ∀ f ∈ fs, f.isPlain) : roles m fs = [] := by
  rw [roles, filter_concerns_of_isPlain plain, List.filterMap_nil]

end Roles

/-! ## How roles stack up -/

/-- Every role stands on one that it can stand on. -/
def Nested : List Role → Prop
  | [] => True
  | r :: rs => r.sits rs.head? ∧ Nested rs

section Nested

variable {rs : List Role}

theorem Nested.tail {r : Role} (nested : Nested (r :: rs)) : Nested rs := nested.2

/-- Every transition stands on a drain of its own. -/
theorem Nested.countP_isTransit_le (nested : Nested rs) :
    rs.countP Role.isTransit ≤ rs.tail.count .drain := by
  induction rs with
  | nil => simp
  | cons r rs ih =>
    have ih := ih nested.tail
    have sits := nested.1
    simp only [List.tail_cons, List.countP_cons]
    cases rs with
    | nil => cases r <;> simp_all [Role.sits, Role.isTransit]
    | cons q rs =>
      simp only [List.tail_cons] at ih
      have split : (q :: rs).count .drain = rs.count .drain + if q = .drain then 1 else 0 := by
        simp [List.count_cons]
      by_cases transit : r.isTransit
      · have drain : q = .drain := by cases r <;> simp_all [Role.sits, Role.isTransit]
        simp only [transit, drain, if_true] at split ⊢
        rw [drain] at ih
        omega
      · simp only [transit, Bool.false_eq_true, if_false]
        omega

/-- Nothing else is under way for a machine that is taken down. -/
theorem Nested.eq_of_mem_dismantle (nested : Nested rs) (h : .dismantle ∈ rs) :
    rs = [.dismantle] := by
  induction rs with
  | nil => simp at h
  | cons r rs ih =>
    cases rs with
    | nil => rw [List.mem_singleton.1 h]
    | cons q rs =>
      have sits := nested.1
      rcases List.mem_cons.1 h with rfl | h
      · simp [Role.sits] at sits
      · have hq := ih nested.tail h
        simp only [List.cons.injEq] at hq
        obtain ⟨rfl, rfl⟩ := hq
        cases r <;> simp [Role.sits] at sits

/-- Nothing is under way for a machine that no call holds, unless it is taken down. -/
theorem Nested.eq_nil (nested : Nested rs) (pins : rs.countP Role.isPin = 0)
    (h : .dismantle ∉ rs) : rs = [] := by
  induction rs with
  | nil => rfl
  | cons r rs ih =>
    simp only [List.mem_cons, not_or] at h
    have none : rs = [] := by
      apply ih nested.tail _ h.2
      rw [List.countP_cons] at pins
      omega
    subst none
    have sits := nested.1
    cases r <;> simp_all [Role.sits, Role.isPin]

/-- The start of a machine is the first thing under way for it. -/
theorem Nested.eq_of_head?_start (nested : Nested rs) (h : rs.head? = some .start) :
    rs = [.start] := by
  cases rs with
  | nil => simp at h
  | cons r rs =>
    simp only [List.head?_cons, Option.some.injEq] at h
    subst h
    rw [List.head?_eq_none_iff.1 nested.1]

end Nested

/-! ## Postures -/

namespace MachineCell

variable {cell : MachineCell H}

theorem isAlive_iff : cell.isAlive ↔ 0 < cell.handles + cell.pins := by simp [isAlive]

theorem isAlive_eq_false_iff : cell.isAlive = false ↔ cell.handles = 0 ∧ cell.pins = 0 := by
  simp [isAlive]

end MachineCell

/-- Whether an operation on a machine stands on a role that it can stand on. -/
def Control.fits (m : MachineId) (below : Option Role) : Control H → Prop
  | .send n .. => n = m → below = some .hold
  | .route n .. => n = m → below = some .drain
  | .stop n => n = m → below = some .hold ∨ below = some .drain
  | _ => True

/-- What is under way for a machine agrees with the cell of the machine. -/
structure Posture (m : MachineId) (cell : MachineCell H) (ctl : Control H) (rs : List Role) :
    Prop where
  nested : Nested rs
  fits : ctl.fits m rs.head?
  pins : cell.pins = rs.countP Role.isPin
  drains : rs.count .drain = cell.inbox.draining.toNat
  pending : cell.inbox.pending ≠ [] → cell.inbox.draining
  first : .first ∈ rs → cell.status ≠ .running ∧ ∀ r ∈ rs, r.isTransit = false
  shift : .shift ∈ rs → cell.current = none
  current : cell.current.isSome → cell.status = .running ∧ cell.isAlive
  gone : .dismantle ∈ rs → cell.isAlive = false

namespace Control

variable {m : MachineId} {below : Option Role} {ctl : Control H}

theorem fits_of_isPlain (plain : ctl.isPlain) : ctl.fits m below := by
  cases ctl <;> simp_all [isPlain, fits]

theorem fits_ofRelease {a : Option (Activation H)} : (ofRelease a).fits m below := by
  cases a <;> trivial

end Control

namespace Posture

variable {m : MachineId} {cell cell' : MachineCell H} {ctl ctl' : Control H} {rs : List Role}
  {r : Role}

/-- At most one drain of the inbox is under way. -/
theorem count_drain_le (posture : Posture m cell ctl rs) : rs.count .drain ≤ 1 := by
  rw [posture.drains]
  cases cell.inbox.draining <;> simp

/-- At most one event is being handled. -/
theorem countP_isTransit_le (posture : Posture m cell ctl rs) : rs.countP Role.isTransit ≤ 1 := by
  have transits := posture.nested.countP_isTransit_le
  have drains := posture.count_drain_le
  have tail : rs.tail.count .drain ≤ rs.count .drain := (List.tail_sublist rs).count_le _
  omega

/-- While an inbox is drained, nothing is handled below the drain. -/
theorem isTransit_eq_false_of_drain (posture : Posture m cell ctl (.drain :: rs)) {q : Role}
    (hq : q ∈ rs) : q.isTransit = false := by
  have drains := posture.count_drain_le
  rw [List.count_cons_self] at drains
  have transits := posture.nested.tail.countP_isTransit_le
  have tail : rs.tail.count .drain ≤ rs.count .drain := (List.tail_sublist rs).count_le _
  have none : rs.countP Role.isTransit = 0 := by omega
  simpa using List.countP_eq_zero.1 none q hq

/-- While an event is handled no other one is. -/
theorem isTransit_eq_false (posture : Posture m cell ctl (r :: rs)) (hr : r.isTransit) {q : Role}
    (hq : q ∈ rs) : q.isTransit = false := by
  have transits := posture.countP_isTransit_le
  rw [List.countP_cons, if_pos hr] at transits
  have none : rs.countP Role.isTransit = 0 := by omega
  simpa using List.countP_eq_zero.1 none q hq

/-- An activity is over that held neither a handle nor the inbox. -/
theorem pop (posture : Posture m cell ctl (r :: rs)) (hpin : r.isPin = false) (hdrain : r ≠ .drain)
    (fits : ctl'.fits m rs.head?) : Posture m cell ctl' rs where
  nested := posture.nested.tail
  fits := fits
  pins := by simpa [hpin] using posture.pins
  drains := by simpa [hdrain] using posture.drains
  pending := posture.pending
  first h := by
    obtain ⟨status, transit⟩ := posture.first (List.mem_cons_of_mem _ h)
    exact ⟨status, fun q hq => transit q (List.mem_cons_of_mem _ hq)⟩
  shift h := posture.shift (List.mem_cons_of_mem _ h)
  current := posture.current
  gone h := posture.gone (List.mem_cons_of_mem _ h)

/-- The handling of an event goes on in another role. -/
theorem swap {q : Role} (posture : Posture m cell ctl (r :: rs)) (hr : r.isTransit)
    (hq : q.isTransit) (shift : q = .shift → cell.current = none) (fits : ctl'.fits m (some q)) :
    Posture m cell ctl' (q :: rs) where
  nested := by
    refine ⟨?_, posture.nested.tail⟩
    have sits := posture.nested.1
    cases r <;> cases q <;> simp_all [Role.sits, Role.isTransit]
  fits := fits
  pins := by
    have pins := posture.pins
    cases r <;> cases q <;> simp_all [Role.isPin, Role.isTransit]
  drains := by
    have drains := posture.drains
    cases r <;> cases q <;> simp_all [Role.isTransit]
  pending := posture.pending
  first h := by
    have h : .first ∈ r :: rs := by
      rcases List.mem_cons.1 h with h | h
      · subst h; cases hq
      · exact List.mem_cons_of_mem _ h
    have none := (posture.first h).2 r (List.mem_cons_self ..)
    rw [hr] at none
    cases none
  shift h := by
    rcases List.mem_cons.1 h with h | h
    · exact shift h.symm
    · exact posture.shift (List.mem_cons_of_mem _ h)
  current := posture.current
  gone h := by
    rcases List.mem_cons.1 h with h | h
    · subst h; cases hq
    · exact posture.gone (List.mem_cons_of_mem _ h)

/-- The cell changes in what the posture does not depend on, or loses its activation. -/
theorem edit (posture : Posture m cell ctl rs) (fits : ctl'.fits m rs.head?)
    (pins : cell'.pins = cell.pins) (inbox : cell'.inbox = cell.inbox)
    (status : cell'.status = .running → cell.status = .running)
    (current : cell'.current = none ∨
      cell'.current = cell.current ∧ cell'.status = cell.status ∧ cell'.isAlive)
    (gone : cell.isAlive = false → cell'.isAlive = false) : Posture m cell' ctl' rs where
  nested := posture.nested
  fits := fits
  pins := pins.trans posture.pins
  drains := by rw [inbox]; exact posture.drains
  pending := by rw [inbox]; exact posture.pending
  first h := by
    obtain ⟨hs, transit⟩ := posture.first h
    exact ⟨fun running => hs (status running), transit⟩
  shift h := by
    rcases current with none | ⟨same, _⟩
    · exact none
    · rw [same]; exact posture.shift h
  current h := by
    rcases current with none | ⟨same, hs, alive⟩
    · simp [none] at h
    · rw [same] at h
      exact ⟨hs.trans (posture.current h).1, alive⟩
  gone h := gone (posture.gone h)

/-- Only the control changes. -/
theorem go (posture : Posture m cell ctl rs) (fits : ctl'.fits m rs.head?) :
    Posture m cell ctl' rs :=
  { posture with fits }

/-- A machine whose last handle is gone has nothing else under way. -/
theorem eq_nil_of_dead (posture : Posture m cell ctl rs) (hr : .dismantle ∉ rs)
    (dead : cell.pins = 0) : rs = [] := by
  apply posture.nested.eq_nil _ hr
  rw [← posture.pins]
  exact dead

/-- A call begins on a machine. -/
theorem pin (posture : Posture m cell ctl rs) (alive : cell.isAlive) (call : ctl'.isCallOn m) :
    Posture m cell.pin ctl' (.hold :: rs) where
  nested := by
    refine ⟨fun head => ?_, posture.nested⟩
    have gone := posture.gone (List.mem_of_head? head)
    rw [alive] at gone
    cases gone
  fits := by cases ctl' <;> simp_all [Control.isCallOn, Control.fits]
  pins := by rw [List.countP_cons_of_pos rfl, ← posture.pins]; rfl
  drains := by simpa [MachineCell.pin] using posture.drains
  pending := posture.pending
  first h := by simpa [Role.isTransit, MachineCell.pin] using posture.first (by simpa using h)
  shift h := posture.shift (by simpa using h)
  current h := by
    refine ⟨(posture.current h).1, ?_⟩
    simp only [MachineCell.isAlive_iff, MachineCell.pin]
    omega
  gone h := by
    have gone := posture.gone (by simpa using h)
    rw [alive] at gone
    cases gone

/-- A call gives its handle back, and it was not the last one. -/
theorem unpin (posture : Posture m cell ctl (r :: rs)) (hr : r.isPin)
    (pins : cell'.pins = cell.pins - 1) (inbox : cell'.inbox = cell.inbox)
    (status : cell'.status = cell.status) (current : cell'.current = cell.current)
    (alive : cell'.isAlive) (fits : ctl'.fits m rs.head?) : Posture m cell' ctl' rs where
  nested := posture.nested.tail
  fits := fits
  pins := by
    have before := posture.pins
    rw [List.countP_cons, if_pos hr] at before
    omega
  drains := by
    rw [inbox, ← posture.drains, List.count_cons_of_ne]
    rintro rfl
    cases hr
  pending := by rw [inbox]; exact posture.pending
  first h := by
    obtain ⟨idle, none⟩ := posture.first (List.mem_cons_of_mem _ h)
    exact ⟨by rw [status]; exact idle, fun q hq => none q (List.mem_cons_of_mem _ hq)⟩
  shift h := by rw [current]; exact posture.shift (List.mem_cons_of_mem _ h)
  current h := by
    rw [current] at h
    exact ⟨status.trans (posture.current h).1, alive⟩
  gone h := by
    have all := posture.nested.eq_of_mem_dismantle (List.mem_cons_of_mem _ h)
    simp only [List.cons.injEq] at all
    rw [all.2] at h
    cases h

/-- While no drain is under way the inbox is empty. -/
theorem inbox_eq (posture : Posture m cell ctl rs) (h : .drain ∉ rs) : cell.inbox = {} := by
  have drains := posture.drains
  have pending := posture.pending
  rw [List.count_eq_zero.2 h] at drains
  cases hi : cell.inbox with
  | mk waiting draining =>
    rw [hi] at drains pending
    cases draining with
    | false => simpa using pending
    | true => simp at drains

/-- The last handle was given back. -/
theorem takenDown (pins : cell.pins = 0) (handles : cell.handles = 0) (none : cell.current = none)
    (inbox : cell.inbox = {}) (fits : ctl.fits m (some .dismantle)) :
    Posture m cell ctl [.dismantle] where
  nested := ⟨rfl, trivial⟩
  fits := fits
  pins := by rw [pins]; rfl
  drains := by rw [inbox]; rfl
  pending := by rw [inbox]; nofun
  first h := by simp at h
  shift h := by simp at h
  current h := by simp [none] at h
  gone _ := by rw [MachineCell.isAlive_eq_false_iff]; exact ⟨handles, pins⟩

/-- A machine that nobody holds has no activation. -/
theorem current_of_dead (posture : Posture m cell ctl rs) (dead : cell.isAlive = false) :
    cell.current = none := by
  cases hc : cell.current with
  | none => rfl
  | some a =>
    have alive := (posture.current (by rw [hc]; rfl)).2
    rw [dead] at alive
    cases alive

/-- An event is taken out of the inbox, or put in while others are handled. -/
theorem queue (posture : Posture m cell ctl rs) {waiting : List (SourceId × Event)}
    (busy : waiting ≠ [] → cell.inbox.draining) (fits : ctl'.fits m rs.head?) :
    Posture m { cell with inbox := { cell.inbox with pending := waiting } } ctl' rs :=
  { posture with fits, pending := busy }

/-- A call takes the inbox. -/
theorem claim (posture : Posture m cell ctl rs) (idle : cell.inbox.draining = false)
    (head : rs.head? = some .hold) (fits : ctl'.fits m (some .drain)) :
    Posture m cell.beginDraining ctl' (.drain :: rs) where
  nested := ⟨head, posture.nested⟩
  fits := fits
  pins := by simpa [Role.isPin, MachineCell.beginDraining] using posture.pins
  drains := by
    have drains := posture.drains
    rw [idle] at drains
    simpa [MachineCell.beginDraining] using drains
  pending _ := rfl
  first h := by
    simpa [Role.isTransit, MachineCell.beginDraining] using posture.first (by simpa using h)
  shift h := posture.shift (by simpa using h)
  current := posture.current
  gone h := posture.gone (by simpa using h)

/-- A call gives the inbox back, and nothing waits in it. -/
theorem finish (posture : Posture m cell ctl (.drain :: rs)) {inbox : Inbox} (empty : inbox = {})
    (fits : ctl'.fits m rs.head?) : Posture m { cell with inbox } ctl' rs where
  nested := posture.nested.tail
  fits := fits
  pins := by simpa [Role.isPin] using posture.pins
  drains := by
    have drains := posture.drains
    rw [List.count_cons_self] at drains
    rw [empty]
    cases hd : cell.inbox.draining <;> simp_all
  pending := by rw [empty]; nofun
  first h := by
    obtain ⟨status, transit⟩ := posture.first (List.mem_cons_of_mem _ h)
    exact ⟨status, fun q hq => transit q (List.mem_cons_of_mem _ hq)⟩
  shift h := posture.shift (List.mem_cons_of_mem _ h)
  current := posture.current
  gone h := posture.gone (List.mem_cons_of_mem _ h)

/-- A machine is held by the call that anything is under way for. -/
theorem isAlive_of_cons (posture : Posture m cell ctl (r :: rs)) (hr : r ≠ .dismantle) :
    cell.isAlive := by
  have some : (r :: rs).countP Role.isPin ≠ 0 := by
    intro none
    have empty := posture.nested.eq_nil none fun h => by
      have all := posture.nested.eq_of_mem_dismantle h
      exact hr (List.cons.inj all).1
    cases empty
  rw [MachineCell.isAlive_iff, posture.pins]
  omega

/-- The target of an event is collected. -/
theorem look (posture : Posture m cell ctl rs) (running : cell.status = .running)
    (head : rs.head? = some .drain)
    (fits : ctl'.fits m (some .collect)) : Posture m cell ctl' (.collect :: rs) where
  nested := ⟨head, posture.nested⟩
  fits := fits
  pins := by simpa [Role.isPin] using posture.pins
  drains := by simpa using posture.drains
  pending := posture.pending
  first h := absurd running (posture.first (by simpa using h)).1
  shift h := posture.shift (by simpa using h)
  current := posture.current
  gone h := posture.gone (by simpa using h)

/-- The machine is stopped. -/
theorem stop (posture : Posture m cell ctl rs)
    (head : rs.head? = some .hold ∨ rs.head? = some .drain) (fits : ctl'.fits m (some .stop)) :
    Posture m cell.stop ctl' (.stop :: rs) where
  nested := ⟨head, posture.nested⟩
  fits := fits
  pins := by simpa [Role.isPin, MachineCell.stop] using posture.pins
  drains := by simpa [MachineCell.stop] using posture.drains
  pending := posture.pending
  first h := by
    refine ⟨nofun, ?_⟩
    simpa [Role.isTransit] using (posture.first (by simpa using h)).2
  shift _ := rfl
  current := nofun
  gone h := posture.gone (by simpa using h)

/-- A machine that was started waits for its signal to be set up. -/
theorem signal (posture : Posture m cell ctl (.start :: rs)) (fits : ctl'.fits m (some .signal)) :
    Posture m cell ctl' (.signal :: rs) where
  nested := ⟨posture.nested.1, posture.nested.tail⟩
  fits := fits
  pins := posture.pins
  drains := by simpa using posture.drains
  pending := posture.pending
  first h := by simpa [Role.isTransit] using posture.first (by simpa using h)
  shift h := posture.shift (by simpa using h)
  current := posture.current
  gone h := posture.gone (by simpa using h)

/-- An activation becomes the current one at the end of its activity. -/
theorem install (posture : Posture m cell ctl rs) (first : .first ∉ rs) (shift : .shift ∉ rs)
    (fits : ctl'.fits m rs.head?) (pins : cell'.pins = cell.pins)
    (inbox : cell'.inbox = cell.inbox) (running : cell'.status = .running) (alive : cell'.isAlive)
    (gone : cell'.isAlive = cell.isAlive) : Posture m cell' ctl' rs where
  nested := posture.nested
  fits := fits
  pins := pins.trans posture.pins
  drains := by rw [inbox]; exact posture.drains
  pending := by rw [inbox]; exact posture.pending
  first h := absurd h first
  shift h := absurd h shift
  current _ := ⟨running, alive⟩
  gone h := by rw [gone]; exact posture.gone h

end Posture

open MachineCell in
theorem Posture.turn {w : World H} {m : MachineId} {d : Option Deed} {e : Effect H}
    {cell cell' : MachineCell H} {ctl ctl' : Control H} {pops pushes : List (Frame H)}
    {rs : List Role} (posture : Posture m cell ctl (roles m pops ++ rs))
    (turn : Turn p w m d e ⟨cell, ctl, pops⟩ ⟨cell', ctl', pushes⟩) :
    Posture m cell' ctl' (roles m pushes ++ rs) := by
  have fits {below : Option Role} (plain : ctl'.isPlain) : ctl'.fits m below :=
    Control.fits_of_isPlain plain
  cases turn with
  | @pin _ _ _ _ pushes alive quiet call sheds =>
    obtain ⟨hpops, hpushes⟩ := sheds.filter (m := m)
    rw [roles, hpops, List.filterMap_nil, List.nil_append] at posture
    rw [roles_holding, roles, hpushes]
    exact posture.pin alive call
  | hold held quiet plain inert =>
    rw [roles_of_isPlain inert]
    refine posture.edit (fits plain) rfl rfl id (.inr ⟨rfl, rfl, ?_⟩) fun dead => ?_
    · simp only [isAlive_iff, MachineCell.hold]; omega
    · rw [isAlive_eq_false_iff] at dead; omega
  | drop held alive quiet plain inert =>
    rw [roles_of_isPlain inert]
    refine posture.edit (fits plain) rfl rfl id (.inr ⟨rfl, rfl, alive⟩) fun dead => ?_
    rw [isAlive_eq_false_iff] at dead
    omega
  | dropLast held dead quiet inert =>
    rw [roles_dismantling, roles_settling, roles_of_isPlain inert]
    simp only [isAlive_eq_false_iff, dropHandle] at dead
    have none : rs = [] := by
      apply posture.eq_nil_of_dead _ dead.2
      intro h
      have gone := posture.gone h
      rw [isAlive_eq_false_iff] at gone
      omega
    subst none
    exact .takenDown dead.2 dead.1 rfl (posture.inbox_eq nofun) Control.fits_ofRelease
  | unpin pin alive quiet plain =>
    obtain ⟨r, hr, hf⟩ := roles_of_pins pin
    rw [hf, List.singleton_append] at posture
    exact posture.unpin hr rfl rfl rfl rfl alive (fits plain)
  | unpinLast pin dead quiet =>
    obtain ⟨r, hr, hf⟩ := roles_of_pins pin
    rw [hf, List.singleton_append] at posture
    have none : rs = [] := by
      simp only [isAlive_eq_false_iff, MachineCell.unpin] at dead
      have pins := posture.pins
      rw [List.countP_cons, if_pos hr] at pins
      apply posture.nested.tail.eq_nil
      · omega
      · intro h
        have all := posture.nested.eq_of_mem_dismantle (List.mem_cons_of_mem _ h)
        simp only [List.cons.injEq] at all
        rw [all.2] at h
        cases h
    subst none
    rw [roles_dismantling, roles_settling]
    simp only [isAlive_eq_false_iff, MachineCell.unpin] at dead
    refine .takenDown dead.2 dead.1 rfl (posture.inbox_eq ?_) Control.fits_ofRelease
    intro h
    rw [← List.mem_singleton.1 h] at hr
    cases hr
  | enter enters =>
    cases enters with
    | initial =>
      rw [roles_initial] at posture
      rw [roles_acting, roles_activating]
      exact posture.go trivial
    | next =>
      rw [roles_leaving] at posture
      rw [roles_acting, roles_activating]
      exact posture.go trivial
    | again =>
      rw [roles_abandoning] at posture
      rw [roles_acting, roles_activating]
      exact posture.go trivial
  | startFailed first quiet plain =>
    rcases first with rfl | ⟨state, error, rfl⟩
    · rw [roles_initial] at posture
      exact posture.pop rfl nofun (fits plain)
    · rw [roles_abandoning] at posture
      exact posture.pop rfl nofun (fits plain)
  | handOver pin plain =>
    have alive : cell.unpin.hold.isAlive := by
      simp only [isAlive_iff, MachineCell.hold]
      omega
    rcases pin with rfl | rfl
    · rw [roles_starting] at posture
      exact posture.unpin rfl rfl rfl rfl rfl alive (fits plain)
    · rw [roles_signalled] at posture
      exact posture.unpin rfl rfl rfl rfl rfl alive (fits plain)
  | unwind unwinds =>
    cases unwinds with
    | initial => rw [roles_initial] at posture; exact posture.pop rfl nofun trivial
    | transition => rw [roles_transition] at posture; exact posture.pop rfl nofun trivial
    | abandoning =>
      rw [roles_abandoning] at posture
      exact posture.pop Stage.isPin_role Stage.role_ne_drain trivial
    | leaving => rw [roles_leaving] at posture; exact posture.pop rfl nofun trivial
    | publishing => rw [roles_publishing] at posture; exact posture.pop rfl nofun trivial
    | stopping => rw [roles_stopping] at posture; exact posture.pop rfl nofun trivial
  | unwindScope half =>
    rw [roles_settling]
    rcases half with ⟨x, stage, rfl⟩ | ⟨a, rest, stage, rfl, _⟩
    · rw [roles_activating] at posture
      exact posture.pop Stage.isPin_role Stage.role_ne_drain trivial
    · rw [roles_subscribing] at posture
      exact posture.pop Stage.isPin_role Stage.role_ne_drain trivial
  | dismantled quiet plain =>
    rw [roles_dismantling] at posture
    have none := posture.current_of_dead (posture.gone (List.mem_cons_self ..))
    have ended : Posture m cell ctl' rs := posture.pop rfl nofun (fits plain)
    exact ended.edit (fits plain) rfl rfl id (.inl none) id
  | enqueue busy plain =>
    exact posture.queue (fun _ => busy) (fits plain)
  | claim idle =>
    rw [roles_draining]
    exact posture.claim idle (posture.fits rfl) fun _ => rfl
  | next head =>
    rw [roles_draining] at posture
    rw [roles_draining]
    refine posture.queue (fun rest => posture.pending ?_) fun _ => rfl
    intro none
    simp [none] at head
  | finish empty plain =>
    rw [roles_draining] at posture
    refine posture.finish ?_ (fits plain)
    simp only [List.head?_eq_none_iff.1 empty]
  | unwindDraining =>
    rw [roles_draining] at posture
    exact posture.finish rfl trivial
  | ignore plain => exact posture.go (fits plain)
  | look running current terminal resolves =>
    rw [roles_transition]
    exact posture.look running (posture.fits rfl) trivial
  | giveUp plain =>
    rw [roles_transition] at posture
    exact posture.pop rfl nofun (fits plain)
  | leave running current =>
    rw [roles_transition] at posture
    rw [roles_leaving]
    have left : Posture m cell.clearCurrent (.give .unit) (.collect :: rs) :=
      posture.edit trivial rfl rfl id (.inl rfl) id
    exact left.swap rfl rfl (fun _ => rfl) trivial
  | entered =>
    rw [roles_activating] at posture
    rw [roles_subscribing]
    exact posture.go trivial
  | fail =>
    rw [roles_activating] at posture
    rw [roles_abandoning]
    exact posture.go trivial
  | subscribe plain =>
    rw [roles_subscribing] at posture
    rw [roles_subscribing]
    exact posture.go trivial
  | subscribeHosted hosted =>
    rw [roles_subscribing] at posture
    rw [roles_subscribing]
    exact posture.go trivial
  | begin idle =>
    rw [roles_subscribing] at posture
    have start : rs = [.start] := posture.nested.tail.eq_of_head?_start posture.nested.1
    have alive := posture.isAlive_of_cons nofun
    have ended : Posture m cell (.give .unit) rs := posture.pop rfl nofun trivial
    exact ended.install (by rw [start]; nofun) (by rw [start]; nofun) trivial rfl rfl rfl alive rfl
  | beginStopped stopped =>
    rw [roles_subscribing] at posture
    rw [roles_settling]
    have ended : Posture m cell (.give .unit) rs := posture.pop rfl nofun trivial
    exact ended.edit trivial rfl rfl id (.inl rfl) id
  | commit running =>
    rw [roles_subscribing] at posture
    rw [roles_publishing]
    have alive := posture.isAlive_of_cons nofun
    have next : Posture m cell (.give .unit) (.publish :: rs) := posture.swap rfl rfl nofun trivial
    refine next.install (fun h => (next.first h).1 running) ?_ trivial rfl rfl running alive rfl
    intro h
    rcases List.mem_cons.1 h with h | h
    · cases h
    · cases posture.isTransit_eq_false rfl h
  | restore running =>
    rw [roles_subscribing] at posture
    have alive := posture.isAlive_of_cons nofun
    have ended : Posture m cell (.give .unit) rs := posture.pop rfl nofun trivial
    refine ended.install (fun h => (ended.first h).1 running) ?_ trivial rfl rfl running alive rfl
    intro h
    cases posture.isTransit_eq_false rfl h
  | orphan stopped later =>
    rw [roles_subscribing] at posture
    rw [roles_settling]
    exact posture.pop Stage.isPin_role Stage.role_ne_drain trivial
  | restoreFailed =>
    rw [roles_abandoning] at posture
    rw [roles_settling]
    exact posture.pop rfl nofun fun _ => .inr posture.nested.1
  | tell live plain =>
    rw [roles_publishing] at posture
    rw [roles_publishing]
    exact posture.go (fits plain)
  | passOver cancelled =>
    rw [roles_publishing] at posture
    rw [roles_publishing]
    exact posture.go trivial
  | published =>
    rw [roles_publishing] at posture
    exact posture.pop rfl nofun trivial
  | observe live held quiet plain inert =>
    rw [roles_of_isPlain inert]
    have alive : cell.isAlive := by rw [isAlive_iff]; omega
    exact posture.edit (fits plain) rfl rfl id (.inr ⟨rfl, rfl, alive⟩) id
  | unobserve plain =>
    rw [roles_releasing] at posture
    rw [roles_releasing]
    exact { posture with fits := fits plain }
  | stop running =>
    rw [roles_stopping]
    exact posture.stop (posture.fits rfl) Control.fits_ofRelease
  | stopIgnored stopped plain =>
    exact posture.go (fits plain)
  | stopped plain =>
    rw [roles_stopping] at posture
    have ended : Posture m cell ctl' rs := posture.pop rfl nofun (fits plain)
    exact ended.queue nofun (fits plain)
  | signal live plain =>
    rw [roles_starting] at posture
    rw [roles_signalled]
    exact posture.signal (fits plain)
  | signalAtOnce cancelled alive =>
    rw [roles_starting] at posture
    rw [roles_holding, roles_signalled]
    have signal : Posture m cell (.give .unit) (.signal :: rs) := posture.signal trivial
    exact signal.pin alive Config.isCallOn_stop
  | signalGone cancelled dead plain =>
    rw [roles_starting] at posture
    rw [roles_signalled]
    exact posture.signal (fits plain)

/-! ## Every instant of a run -/

/-- What is under way for a machine agrees with its cell; nothing is for one that does not exist. -/
def Config.Poised (m : MachineId) (c : Config H) : Prop :=
  match c.world.machine? m with
  | some cell => Posture m cell c.control (roles m c.stack)
  | none => c.frames m = [] ∧ c.control.machine? ≠ some m

section Poised

variable {m : MachineId} {c c' : Config H}

theorem Config.Poised.posture {cell : MachineCell H} (poised : c.Poised m)
    (found : c.world.machine? m = some cell) : Posture m cell c.control (roles m c.stack) := by
  simpa only [Config.Poised, found] using poised

theorem Control.fits_of_ne {ctl : Control H} {below : Option Role} (h : ctl.machine? ≠ some m) :
    ctl.fits m below := by
  cases ctl <;> simp_all [fits]

/-- The posture of a machine that was just made. -/
theorem Posture.blank {settings : Settings} {manager : ManagerId} {ctl : Control H}
    (fits : ctl.fits m (some .first)) :
    Posture m { uuid := Uuid.ofNat m.index, settings, manager, pins := 1 } ctl
      [.first, .start] where
  nested := ⟨rfl, rfl, trivial⟩
  fits := fits
  pins := rfl
  drains := rfl
  pending := nofun
  first _ := ⟨nofun, by simp [Role.isTransit]⟩
  shift _ := rfl
  current := nofun
  gone h := by simp at h

theorem Move.poised (move : Move p c c') (poised : c.Poised m) : c'.Poised m := by
  cases move.outlook m with
  | spared machine frames deed control control' =>
    have same : roles m c'.stack = roles m c.stack := congrArg (List.filterMap Frame.role?) frames
    unfold Config.Poised
    rw [machine]
    split
    · next cell found =>
      rw [same]
      exact (poised.posture found).go (Control.fits_of_ne control')
    · next missing =>
      simp only [Config.Poised, missing] at poised
      exact ⟨frames.trans poised.1, control'⟩
  | start signal new found deed blank control frames =>
    simp only [Config.Poised, new] at poised
    obtain ⟨settings, manager, rfl⟩ := blank
    rw [poised.1] at frames
    have started : roles m c'.stack = [.first, .start] :=
      congrArg (List.filterMap Frame.role?) frames
    simp only [Config.Poised, found, started]
    exact .blank (Control.fits_of_ne (by rw [control]; nofun))
  | turn pops pushes rest found found' turn before after =>
    have posture := poised.posture found
    rw [before, roles_append] at posture
    simp only [Config.Poised, found', after, roles_append]
    exact posture.turn turn

theorem Config.grounded_of_poised (poised : ∀ m, c.Poised m) : c.Grounded where
  frame {f m} hf hm := by
    have poised := poised m
    unfold Config.Poised at poised
    split at poised
    · next cell found => exact ⟨cell, found⟩
    · have here : f ∈ c.frames m := List.mem_filter.2 ⟨hf, Frame.concerns_iff.2 hm⟩
      rw [poised.1] at here
      cases here
  control {m} hm := by
    have poised := poised m
    unfold Config.Poised at poised
    split at poised
    · next cell found => exact ⟨cell, found⟩
    · exact absurd hm poised.2

end Poised

namespace Program.Run

variable {w : World H} {past : List (Config H)} {c : Config H}

/-- At every instant of a run every machine has a posture. -/
theorem poised (run : p.Run w past c) (m : MachineId) : c.Poised m := by
  induction run generalizing m with
  | begin fresh host s =>
    simp only [Config.Poised, fresh.machine? m]
    exact ⟨rfl, nofun⟩
  | step run h ih => exact (move_of_step (Config.grounded_of_poised ih) h).poised (ih m)
  | @resume past c run ended host s ih =>
    have poised := ih m
    unfold Config.Poised at poised ⊢
    split
    · next cell found =>
      simp only [found] at poised
      exact poised.go trivial
    · next missing =>
      simp only [missing] at poised
      exact ⟨poised.1, nofun⟩

theorem grounded (run : p.Run w past c) : c.Grounded :=
  Config.grounded_of_poised run.poised

/-- Every step of a run is a move. -/
theorem move {c' : Config H} (run : p.Run w past c) (step : p.step c = some c') : Move p c c' :=
  move_of_step run.grounded step

end Program.Run

/-! ## Machines that run -/

/-- A panic is about to end the change from one activation of a machine to another. -/
def Config.Vacates (m : MachineId) (c : Config H) : Prop :=
  (∃ message, c.control = .panic message) ∧ ∃ f rest, c.stack = f :: rest ∧ roles m [f] = [.shift]

/-- A machine that runs has an activation, unless it is between two or about to be stopped. -/
def Manned (m : MachineId) (cell : MachineCell H) (ctl : Control H) (rs : List Role) : Prop :=
  cell.status = .running → cell.isAlive → .shift ∉ rs → ctl ≠ .stop m → cell.current.isSome

open MachineCell in
theorem Turn.manned {w : World H} {m : MachineId} {d : Option Deed} {e : Effect H}
    {cell cell' : MachineCell H} {ctl ctl' : Control H} {pops pushes : List (Frame H)}
    {rs : List Role} (turn : Turn p w m d e ⟨cell, ctl, pops⟩ ⟨cell', ctl', pushes⟩)
    (kept : ∀ {message f}, ctl = .panic message → pops = [f] → roles m [f] ≠ [.shift])
    (posture : Posture m cell ctl (roles m pops ++ rs))
    (manned : Manned m cell ctl (roles m pops ++ rs)) :
    Manned m cell' ctl' (roles m pushes ++ rs) := by
  have quietly {ctl : Control H} (quiet : ctl.isQuiet) : ctl ≠ .stop m := by
    rintro rfl
    cases quiet
  intro running alive shift go
  have keep (status : cell'.status = cell.status) (current : cell'.current = cell.current)
      (alive : cell.isAlive) (shift : .shift ∉ roles m pops ++ rs) (go : ctl ≠ .stop m) :
      cell'.current.isSome := by
    rw [current]
    exact manned (status ▸ running) alive shift go
  cases turn with
  | @pin _ _ _ _ pushes held quiet call sheds =>
    obtain ⟨hpops, hpushes⟩ := sheds.filter (m := m)
    rw [roles_holding, roles, hpushes] at shift
    refine keep rfl rfl held ?_ (quietly quiet)
    rw [roles, hpops]
    exact fun h => shift (List.mem_cons_of_mem _ h)
  | hold held quiet plain inert =>
    rw [roles_of_isPlain inert] at shift
    exact keep rfl rfl (by rw [isAlive_iff]; omega) shift (quietly quiet)
  | drop held alive quiet plain inert =>
    rw [roles_of_isPlain inert] at shift
    exact keep rfl rfl (by rw [isAlive_iff]; omega) shift (quietly quiet)
  | dropLast held dead quiet inert =>
    rw [show cell.dropHandle.clearCurrent.isAlive = cell.dropHandle.isAlive from rfl, dead] at alive
    cases alive
  | unpin pin _ quiet plain =>
    obtain ⟨r, hr, hf⟩ := roles_of_pins pin
    rw [hf] at posture keep
    refine keep rfl rfl (posture.isAlive_of_cons ?_) ?_ (quietly quiet)
    · rintro rfl; cases hr
    · intro h
      rcases List.mem_cons.1 h with h | h
      · rw [← h] at hr; cases hr
      · exact shift h
  | unpinLast pin dead quiet =>
    rw [show cell.unpin.clearCurrent.isAlive = cell.unpin.isAlive from rfl, dead] at alive
    cases alive
  | dismantled quiet plain =>
    rw [roles_dismantling] at posture
    have gone := posture.gone (List.mem_cons_self ..)
    rw [show cell.clearObservers.isAlive = cell.isAlive from rfl, gone] at alive
    cases alive
  | enqueue busy plain => exact keep rfl rfl alive shift nofun
  | claim idle => exact keep rfl rfl alive (by simpa using shift) nofun
  | next head => exact keep rfl rfl alive (by simpa using shift) nofun
  | finish empty plain => exact keep rfl rfl alive (by simpa using shift) nofun
  | ignore plain => exact keep rfl rfl alive shift nofun
  | look => exact keep rfl rfl alive (by simpa using shift) nofun
  | giveUp plain => exact keep rfl rfl alive (by simpa using shift) nofun
  | leave => simp at shift
  | enter enters =>
    cases enters with
    | initial => exact keep rfl rfl alive (by simpa [Stage.role] using shift) nofun
    | next => simp [Stage.role] at shift
    | again => simp [Stage.role] at shift
  | entered => exact keep rfl rfl alive (by simpa using shift) nofun
  | fail => exact keep rfl rfl alive (by simpa using shift) nofun
  | subscribe plain => exact keep rfl rfl alive (by simpa using shift) nofun
  | subscribeHosted hosted => exact keep rfl rfl alive (by simpa using shift) nofun
  | begin | commit | restore => rfl
  | beginStopped stopped =>
    have status : cell.status = .running := running
    rw [stopped] at status
    cases status
  | orphan stopped later => exact absurd running stopped
  | startFailed first quiet plain =>
    rcases first with rfl | ⟨state, error, rfl⟩
    · exact keep rfl rfl alive (by simpa using shift) (quietly quiet)
    · exact keep rfl rfl alive (by simpa [Stage.role] using shift) (quietly quiet)
  | restoreFailed => exact absurd rfl go
  | tell live plain => exact keep rfl rfl alive (by simpa using shift) nofun
  | passOver cancelled => exact keep rfl rfl alive (by simpa using shift) nofun
  | published => exact keep rfl rfl alive (by simpa using shift) nofun
  | observe live held quiet plain inert =>
    rw [roles_of_isPlain inert] at shift
    exact keep rfl rfl alive shift (quietly quiet)
  | unobserve plain => exact keep rfl rfl alive (by simpa using shift) nofun
  | stop => cases running
  | stopIgnored stopped plain =>
    rw [stopped] at running
    cases running
  | stopped plain => exact keep rfl rfl alive (by simpa using shift) nofun
  | signal live plain => exact keep rfl rfl alive (by simpa using shift) nofun
  | signalAtOnce cancelled alive => exact absurd rfl go
  | signalGone cancelled dead plain => exact keep rfl rfl alive (by simpa using shift) nofun
  | @handOver _ a ctl' f pin plain =>
    have pinned : .shift ∉ roles m [f] ++ rs ∧ cell.isAlive := by
      rcases pin with rfl | rfl
      · rw [roles_starting] at posture
        exact ⟨by simpa using shift, posture.isAlive_of_cons nofun⟩
      · rw [roles_signalled] at posture
        exact ⟨by simpa using shift, posture.isAlive_of_cons nofun⟩
    exact keep rfl rfl pinned.2 pinned.1 nofun
  | @unwind _ _ f | @unwindScope _ _ f =>
    -- what the panic ends is no change of activation
    have other : .shift ∉ roles m [f] := fun mem => kept rfl rfl (roles_eq_of_mem mem)
    refine keep rfl rfl alive (fun mem => ?_) nofun
    exact (List.mem_append.1 mem).elim other (by simpa using shift)
  | unwindDraining => exact keep rfl rfl alive (by simpa using shift) nofun

theorem Move.manned {c c' : Config H} {m : MachineId} {cell' : MachineCell H}
    (move : Move p c c') (kept : ¬c.Vacates m) (poised : c.Poised m)
    (manned : ∀ cell, c.world.machine? m = some cell →
      Manned m cell c.control (roles m c.stack))
    (found' : c'.world.machine? m = some cell') :
    Manned m cell' c'.control (roles m c'.stack) := by
  cases move.outlook m with
  | spared machine frames deed control control' =>
    have same : roles m c'.stack = roles m c.stack := congrArg (List.filterMap Frame.role?) frames
    rw [same]
    intro running alive shift _
    refine manned cell' (machine ▸ found') running alive shift fun stop => control ?_
    rw [stop]
    rfl
  | start signal new found deed blank control frames =>
    rw [found] at found'
    obtain ⟨settings, manager, rfl⟩ := blank
    cases found'
    nofun
  | turn pops pushes rest found found'' turn before after =>
    rw [found''] at found'
    cases found'
    have posture := poised.posture found
    have manned := manned _ found
    rw [before, roles_append] at posture manned
    rw [after, roles_append]
    refine turn.manned (fun {message f} panics alone shift => kept ?_) posture manned
    exact ⟨⟨message, panics⟩, f, rest, by rw [before, alone]; rfl, shift⟩

/-- A machine that runs has an activation at every instant, unless it is between two or about to be
stopped, or a panic ended the change from one to another. -/
theorem Program.Run.manned {w : World H} {past : List (Config H)} {c : Config H} {m : MachineId}
    {cell : MachineCell H} (run : p.Run w past c) (kept : ¬∃ x ∈ past, x.Vacates m)
    (found : c.world.machine? m = some cell) : Manned m cell c.control (roles m c.stack) := by
  induction run generalizing cell with
  | begin fresh host s =>
    rw [show _ = none from fresh.machine? m] at found
    cases found
  | step run h ih =>
    refine (run.move h).manned (fun now => kept ⟨_, by simp, now⟩) (run.poised m) ?_ found
    intro cell found
    exact ih (fun ⟨x, hx, lost⟩ => kept ⟨x, List.mem_append_left _ hx, lost⟩) found
  | resume run ended host s ih =>
    intro running alive shift go
    refine ih (fun ⟨x, hx, lost⟩ => kept ⟨x, List.mem_append_left _ hx, lost⟩) found running alive
      shift ?_
    obtain ⟨_, ⟨a, ha⟩ | ⟨message, hm⟩⟩ := ended
    · rw [ha]; nofun
    · rw [hm]; nofun

end ScopedMachine

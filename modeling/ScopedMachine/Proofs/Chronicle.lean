import ScopedMachine.Proofs.Posture

/-!
# What a machine records

A machine keeps four records of its transitions: a sequence number, a history, the state it shows,
and what it tells its observers. Only entering the first state and committing a transition touch
them; `Turn.face` says so once, and everything here follows by counting those two.
-/

namespace ScopedMachine

variable {H : Type} {p : Program H} {m : MachineId}

/-! ## Transitions and states, read off the deeds -/

namespace Deed

/-- The change that was committed. -/
def committed? : Deed → Option Change
  | .committed change => some change
  | _ => none

/-- The first state, which was entered. -/
def began? : Deed → Option String
  | .began state => some state
  | _ => none

/-- The state that was entered to stay. -/
def visited? : Deed → Option String
  | .began state => some state
  | .committed change => some change.state
  | _ => none

end Deed

/-- The transitions committed, in order. -/
def commits (ds : List Deed) : List Change := ds.filterMap Deed.committed?

/-- The first states that were entered. -/
def begins (ds : List Deed) : List String := ds.filterMap Deed.began?

/-- The states that a machine was in, in order. -/
def visits (ds : List Deed) : List String := ds.filterMap Deed.visited?

/-- What a transition and the notification of it have in common. -/
def Transition.facts (t : Transition) : String × String × Option String :=
  (t.source, t.target, t.event)

/-- What a transition and the notification of it have in common. -/
def Change.facts (change : Change) : String × String × Option String :=
  (change.previous, change.state, change.event)

/-! ## What a machine shows -/

/-- What a machine shows of itself, apart from whether it runs. -/
structure Face where
  uuid : Uuid
  settings : Settings
  state : String
  aliases : List String
  terminal : Bool
  accumulator : Option Value
  history : History
  sequence : Nat

/-- What a machine shows of itself. -/
def MachineCell.face (cell : MachineCell H) : Face :=
  { cell with }

/-- The face of a machine changes when its first state is entered and when a transition is
committed, and at no other time. -/
inductive Faces (m : MachineId) (d : Option Deed) (cell cell' : MachineCell H)
    (pops pushes : List (Frame H)) : Prop where
  | same (face : cell'.face = cell.face) (visited : d.bind Deed.visited? = none)
      (running : cell'.status = .running → cell.status = .running)
      (first : .first ∈ roles m pushes → .first ∈ roles m pops)
  | begin (a : Activation H) (deed : d = some (.began a.collected.name))
      (face : cell'.face = (cell.install a).face) (before : roles m pops = [.first])
      (after : roles m pushes = [])
  | commit (a : Activation H) (event : String) (time : Moment) (running : cell.status = .running)
      (deed : d = some (.committed ((cell.commit a event time).change cell.state event)))
      (cell : cell' = cell.commit a event time) (before : roles m pops = [.shift])
      (after : roles m pushes = [.publish])

theorem Turn.faces {w : World H} {d : Option Deed} {e : Effect H} {cell cell' : MachineCell H}
    {ctl ctl' : Control H} {pops pushes : List (Frame H)}
    (turn : Turn p w m d e ⟨cell, ctl, pops⟩ ⟨cell', ctl', pushes⟩) :
    Faces m d cell cell' pops pushes := by
  cases turn with
  | begin idle => exact .begin _ rfl rfl (by simp [Stage.role]) rfl
  | beginStopped stopped => exact .begin _ rfl rfl (by simp [Stage.role]) (by simp)
  | commit running => exact .commit _ _ _ running rfl rfl (by simp [Stage.role]) (by simp)
  | @pin _ _ _ _ pushes alive quiet call sheds =>
    obtain ⟨_, hpushes⟩ := sheds.filter (m := m)
    refine .same rfl rfl id ?_
    rw [roles_holding, roles, hpushes]
    simp
  | hold held quiet plain inert => exact .same rfl rfl id (by simp [roles_of_isPlain inert])
  | drop held alive quiet plain inert =>
    exact .same rfl rfl id (by simp [roles_of_isPlain inert])
  | dropLast held dead quiet inert => exact .same rfl rfl id (by simp [roles_of_isPlain inert])
  | observe live held quiet plain inert =>
    exact .same rfl rfl id (by simp [roles_of_isPlain inert])
  | enter enters => cases enters <;> exact .same rfl rfl id (by simp [Stage.role])
  | stop =>
    refine .same rfl rfl ?_ (by simp)
    intro running
    cases running
  | _ => exact .same rfl rfl id (by simp)

/-! ## The records agree -/

/-- The records of a machine agree with what it did. -/
structure Chronicle (face : Face) (ds : List Deed) : Prop where
  /-- The sequence number counts the transitions. -/
  sequence : face.sequence = (commits ds).length
  /-- The notifications are numbered from 1. -/
  numbers : (commits ds).map Change.sequence = List.range' 1 (commits ds).length
  /-- The history, if it is kept, has one record for each transition and says the same of it. -/
  history : face.history.transitions.map Transition.facts =
    if face.settings.recordHistory then (commits ds).map Change.facts else []
  /-- One state was entered first; each other one was reached by a transition. -/
  entered : begins ds = [] ∧ commits ds = [] ∧ visits ds = [] ∨
    ∃ first, begins ds = [first] ∧ visits ds = first :: (commits ds).map Change.state
  /-- Each transition leads from the state before it. -/
  previous : (commits ds).map Change.previous = (visits ds).dropLast
  /-- The state shown is the last one that was entered. -/
  state : face.state = (visits ds).getLast?.getD ""

variable {cell cell' : MachineCell H} {ds : List Deed}

theorem commits_concat {d : Option Deed} :
    commits (ds ++ d.toList) = commits ds ++ (d.bind Deed.committed?).toList := by
  cases d with
  | none => simp [commits]
  | some d => cases h : d.committed? <;> simp [commits, h]

theorem visits_concat {d : Option Deed} :
    visits (ds ++ d.toList) = visits ds ++ (d.bind Deed.visited?).toList := by
  cases d with
  | none => simp [visits]
  | some d => cases h : d.visited? <;> simp [visits, h]

theorem begins_concat {d : Option Deed} :
    begins (ds ++ d.toList) = begins ds ++ (d.bind Deed.began?).toList := by
  cases d with
  | none => simp [begins]
  | some d => cases h : d.began? <;> simp [begins, h]

theorem began?_of_visited? {d : Option Deed} (h : d.bind Deed.visited? = none) :
    d.bind Deed.began? = none := by
  cases d with
  | none => rfl
  | some d => cases d <;> simp_all [Deed.visited?, Deed.began?]

theorem committed?_of_visited? {d : Option Deed} (h : d.bind Deed.visited? = none) :
    d.bind Deed.committed? = none := by
  cases d with
  | none => rfl
  | some d => cases d <;> simp_all [Deed.visited?, Deed.committed?]

namespace Chronicle

/-- Nothing that is recorded happens. -/
theorem same {face : Face} {d : Option Deed} (chronicle : Chronicle face ds)
    (visited : d.bind Deed.visited? = none) : Chronicle face (ds ++ d.toList) := by
  have hc : commits (ds ++ d.toList) = commits ds := by
    rw [commits_concat, committed?_of_visited? visited]
    exact List.append_nil _
  have hv : visits (ds ++ d.toList) = visits ds := by
    rw [visits_concat, visited]
    exact List.append_nil _
  have hb : begins (ds ++ d.toList) = begins ds := by
    rw [begins_concat, began?_of_visited? visited]
    exact List.append_nil _
  obtain ⟨sequence, numbers, history, entered, previous, state⟩ := chronicle
  constructor <;> simp only [hc, hv, hb] <;> assumption

/-- The first state is entered. -/
theorem begin (chronicle : Chronicle cell.face ds) (none : visits ds = []) (a : Activation H) :
    Chronicle (cell.install a).face (ds ++ [.began a.collected.name]) := by
  have hc : commits (ds ++ [.began a.collected.name]) = commits ds := by
    simp [commits, Deed.committed?]
  have hb : begins (ds ++ [.began a.collected.name]) = begins ds ++ [a.collected.name] := by
    simp [begins, Deed.began?]
  have hv : visits (ds ++ [.began a.collected.name]) = [a.collected.name] := by
    show visits (ds ++ (some (Deed.began a.collected.name)).toList) = _
    rw [visits_concat, none]
    rfl
  obtain ⟨sequence, numbers, history, entered, previous, state⟩ := chronicle
  constructor
  · rw [hc]; exact sequence
  · rw [hc]; exact numbers
  · rw [hc]; exact history
  · rcases entered with ⟨noBegin, noCommit, _⟩ | ⟨first, _, visited⟩
    · exact .inr ⟨a.collected.name, by rw [hb, noBegin]; rfl, by rw [hv, hc, noCommit]; rfl⟩
    · rw [none] at visited
      cases visited
  · rw [hc, hv, previous, none]; rfl
  · rw [hv]; rfl

/-- A transition is committed. -/
theorem commit (chronicle : Chronicle cell.face ds) (some : visits ds ≠ []) (a : Activation H)
    (event : String) (time : Moment) :
    Chronicle (cell.commit a event time).face
      (ds ++ [.committed ((cell.commit a event time).change cell.state event)]) := by
  let change := (cell.commit a event time).change cell.state event
  have hc : commits (ds ++ [.committed change]) = commits ds ++ [change] := by
    simp [commits, Deed.committed?]
  have hv : visits (ds ++ [.committed change]) = visits ds ++ [change.state] := by
    simp [visits, Deed.visited?]
  have hb : begins (ds ++ [.committed change]) = begins ds := by simp [begins, Deed.began?]
  have shown : cell.state = (visits ds).getLast some := by
    have state : cell.state = _ := chronicle.state
    rw [state, List.getLast?_eq_some_getLast some]
    rfl
  have number : change.sequence = (commits ds).length + 1 := congrArg (· + 1) chronicle.sequence
  constructor
  · rw [hc, List.length_append]
    exact number
  · rw [hc, List.map_append, chronicle.numbers, List.length_append, List.length_singleton,
      List.range'_concat, List.map_singleton, number]
    simp [Nat.add_comm]
  · have history : cell.history.transitions.map Transition.facts =
        if cell.settings.recordHistory then (commits ds).map Change.facts else [] :=
      chronicle.history
    show (cell.commit a event time).history.transitions.map Transition.facts =
      if cell.settings.recordHistory then _ else []
    rw [hc, MachineCell.commit]
    cases records : cell.settings.recordHistory with
    | true =>
      rw [records, if_pos rfl] at history
      simp only [if_true, History.record, List.map_append, history]
      rfl
    | false =>
      rw [records, if_neg nofun] at history
      simpa using history
  · rcases chronicle.entered with ⟨_, _, none⟩ | ⟨first, begun, visited⟩
    · exact absurd none some
    · exact .inr ⟨first, by rw [hb, begun], by rw [hv, hc, visited, List.map_append]; rfl⟩
  · rw [hc, hv, List.dropLast_concat, List.map_append, chronicle.previous]
    show _ ++ [cell.state] = _
    rw [shown, List.dropLast_concat_getLast]
  · rw [hv, List.getLast?_concat]
    rfl

end Chronicle

/-! ## Every instant of a run -/

/-- The records of a machine agree with what it did, and it did nothing before it was made. -/
def Config.Recorded (m : MachineId) (c : Config H) (ds : List Deed) : Prop :=
  match c.world.machine? m with
  | some cell => Chronicle cell.face ds ∧ (.first ∈ roles m c.stack → visits ds = []) ∧
      (cell.status = .running → visits ds ≠ [])
  | none => ds = []

theorem Chronicle.blank {settings : Settings} {manager : ManagerId} :
    Chronicle
      ({ uuid := Uuid.ofNat m.index, settings, manager, pins := 1 } : MachineCell H).face [] where
  sequence := rfl
  numbers := rfl
  history := by simp [MachineCell.face, commits]
  entered := .inl ⟨rfl, rfl, rfl⟩
  previous := rfl
  state := rfl

theorem Move.recorded {c c' : Config H} (move : Move p c c') (poised : c.Poised m)
    (recorded : c.Recorded m ds) : c'.Recorded m (ds ++ (c.deed? m).toList) := by
  cases move.outlook m with
  | spared machine frames deed control control' =>
    have same : roles m c'.stack = roles m c.stack := congrArg (List.filterMap Frame.role?) frames
    unfold Config.Recorded at recorded ⊢
    rw [machine, same, deed, Option.toList_none, List.append_nil]
    exact recorded
  | start signal new found deed blank control frames =>
    obtain ⟨settings, manager, rfl⟩ := blank
    simp only [Config.Recorded, new] at recorded
    subst recorded
    simp only [Config.Recorded, found, deed, Option.toList_none, List.append_nil]
    exact ⟨.blank, fun _ => rfl, nofun⟩
  | @turn cell cell' e pops pushes rest found found' turn before after =>
    simp only [Config.Recorded, found, before, roles_append] at recorded
    simp only [Config.Recorded, found', after, roles_append]
    obtain ⟨chronicle, first, running⟩ := recorded
    cases turn.faces with
    | same face visited status init =>
      have hv : visits (ds ++ (c.deed? m).toList) = visits ds := by
        rw [visits_concat, visited]
        exact List.append_nil _
      rw [face, hv]
      refine ⟨chronicle.same visited, fun h => first ?_, fun h => running (status h)⟩
      rcases List.mem_append.1 h with h | h
      · exact List.mem_append_left _ (init h)
      · exact List.mem_append_right _ h
    | begin a deed face hpops hpushes =>
      have none : visits ds = [] := first (by rw [hpops]; exact List.mem_cons_self ..)
      rw [deed, face, Option.toList_some, hpushes]
      refine ⟨chronicle.begin none a, fun h => ?_, ?_⟩
      · -- below the first state there is only the start of the machine
        have posture := poised.posture found
        rw [before, roles_append, hpops] at posture
        have start : roles m rest = [.start] :=
          posture.nested.tail.eq_of_head?_start posture.nested.1
        rw [List.nil_append, start] at h
        simp at h
      · simp [visits, Deed.visited?]
    | commit a event time status deed hcell hpops hpushes =>
      have some := running status
      rw [deed, hcell, Option.toList_some, hpushes]
      refine ⟨chronicle.commit some a event time, fun h => ?_, ?_⟩
      · have posture := poised.posture found
        rw [before, roles_append, hpops] at posture
        refine absurd status (posture.first ?_).1
        rcases List.mem_append.1 h with h | h
        · simp at h
        · exact List.mem_append_right _ h
      · simp [visits, Deed.visited?]

theorem Program.Run.recorded {w : World H} {past : List (Config H)} {c : Config H}
    (run : p.Run w past c) : c.Recorded m (deeds m past) := by
  induction run with
  | begin fresh host s =>
    simp only [Config.Recorded, fresh.machine? m]
    rfl
  | step run h ih =>
    rw [deeds_concat]
    exact (run.move h).recorded (run.poised m) ih
  | resume run ended host s ih =>
    rw [deeds_concat, Config.deed?_of_isOver ended, Option.toList_none, List.append_nil]
    exact ih

end ScopedMachine

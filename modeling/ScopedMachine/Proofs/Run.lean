import ScopedMachine.Proofs.World

/-!
# Runs

A run begins in a world in which nothing has happened, with host code about to run. It goes on step
by step; when the host code is over and nothing is under way, the host may go on with more code and
any state of its own. `Program.Run p w past c` keeps the configurations passed so far, oldest first,
so that claims about "what happened" are claims about `past`.

`Config.deed?` reads off a configuration what its next step does to a machine, as far as anybody
keeps count of it.
-/

namespace ScopedMachine

variable {H : Type}

/-! ## Deeds -/

/-- Something that a machine did or had done to it. -/
inductive Deed where
  /-- A send call was made. -/
  | sent (source : SourceId) (event : Event)
  /-- An event was routed against the current state. -/
  | routed (source : SourceId) (event : Event)
  /-- The events that waited were forgotten, because the machine was stopped. -/
  | discarded
  /-- The first state was entered. -/
  | began (state : String)
  | committed (change : Change)
  /-- The observer with this number was called. -/
  | told (number : Nat) (change : Change)
deriving DecidableEq

/-- What installing an activation amounts to. -/
def MachineCell.installing? (a : Activation H) (time : Moment) (cell : MachineCell H) :
    Stage H → Option Deed
  | .initial => some (.began a.collected.name)
  | .commit event _ =>
    if cell.status = .running then
      some (.committed ((cell.commit a event time).change cell.state event))
    else none
  | .restore .. => none

/-- Is a panic under way? -/
def Control.panics : Control H → Bool
  | .panic _ => true
  | _ => false

namespace Config

/-- What the next step does to a machine. -/
def deed? (m : MachineId) (c : Config H) : Option Deed :=
  match c.world.machine? m with
  | none => none
  | some cell =>
    match c.control, c.stack with
    | .send n source e, _ => if n = m then some (.sent source e) else none
    | .route n source e, _ => if n = m then some (.routed source e) else none
    | .give .unit, .stopping n :: _ => if n = m then some .discarded else none
    | .give (.result _), .subscribing n a [] stage :: _ =>
      if n = m then cell.installing? a (c.world.wallClock c.world.readings) stage else none
    | .give (.result _), .publishing n change (r :: _) :: _ =>
      if n = m ∧ c.world.isCancelled r.token = false then some (.told r.number change) else none
    | _, _ => none

/-- No panic is under way. -/
def IsCalm (c : Config H) : Prop := ∀ message, c.control ≠ .panic message

instance (c : Config H) : Decidable c.IsCalm :=
  match h : c.control with
  | .panic message => isFalse fun calm => calm message h
  | .run _ | .gather _ | .release _ | .stop _ | .send .. | .route .. | .give _ =>
    isTrue fun message panics => by rw [h] at panics; cases panics

theorem isCalm_of_steady {c : Config H} (steady : c.control.panics = false) : c.IsCalm := by
  intro message panic
  rw [panic] at steady
  cases steady

/-- Nothing is under way: host code is about to go on, or is over. -/
def AtRest (c : Config H) : Prop :=
  c.stack = [] ∧ ((∃ s, c.control = .run s) ∨ ∃ a, c.control = .give a)

/-- The host code is over, in one way or the other. -/
def IsOver (c : Config H) : Prop :=
  c.stack = [] ∧ ((∃ a, c.control = .give a) ∨ ∃ message, c.control = .panic message)

end Config

/-! ## Runs -/

/-- A world in which nothing has happened: there are no machines, all scopes are the host's and
nothing hangs off them, and nobody listens to a source. -/
structure World.IsFresh (w : World H) : Prop where
  machine? (m : MachineId) : w.machine? m = none
  scope? {s : ScopeId} {cell : ScopeCell H} (h : w.scope? s = some cell) :
    cell.owner = none ∧ cell.teardowns = []
  source? {slot : Nat} {source : SourceCell H} (h : w.source? slot = some source) :
    source.registry.entries = []

/-- The runs of a program from a world, with the configurations passed. -/
inductive Program.Run (p : Program H) (w : World H) : List (Config H) → Config H → Prop where
  | begin (fresh : w.IsFresh) (host : H) (s : Script H) :
      p.Run w [] { world := w, host, control := .run s }
  | step {past : List (Config H)} {c c' : Config H} (run : p.Run w past c)
      (h : p.step c = some c') : p.Run w (past ++ [c]) c'
  | resume {past : List (Config H)} {c : Config H} (run : p.Run w past c) (ended : c.IsOver)
      (host : H) (s : Script H) : p.Run w (past ++ [c]) { c with host, control := .run s }

/-- What a machine did in the steps from the given configurations. -/
def deeds (m : MachineId) (past : List (Config H)) : List Deed := past.filterMap (Config.deed? m)

/-! ## Earlier instants -/

namespace Program.Run

variable {p : Program H} {w : World H} {before past : List (Config H)} {x c : Config H}

/-- What had been passed at an earlier instant was passed. -/
theorem prefix_of_passed (passed : before ++ [x] <+: past ++ [c]) : before <+: past := by
  rcases List.prefix_concat_iff.1 passed with same | passed
  · exact (List.append_inj' same rfl).1 ▸ List.prefix_rfl
  · exact (List.prefix_append before [x]).trans passed

/-- Every instant that a run passed was reached by a run. -/
theorem earlier (run : p.Run w past c) (passed : before ++ [x] <+: past ++ [c]) :
    p.Run w before x := by
  have last {past : List (Config H)} {c : Config H} (run : p.Run w past c)
      (same : before ++ [x] = past ++ [c]) : p.Run w before x := by
    obtain ⟨rfl, here⟩ := List.append_inj' same rfl
    cases here
    exact run
  induction run with
  | begin fresh host s =>
    rcases List.prefix_concat_iff.1 passed with same | none
    · exact last (.begin fresh host s) same
    · simp at none
  | step run h ih =>
    rcases List.prefix_concat_iff.1 passed with same | passed
    · exact last (run.step h) same
    · exact ih passed
  | resume run ended host s ih =>
    rcases List.prefix_concat_iff.1 passed with same | passed
    · exact last (run.resume ended host s) same
    · exact ih passed

/-- What holds at one instant and is kept by every step holds from then on. -/
theorem since {P : List (Config H) → Config H → Prop} (run : p.Run w past c)
    (passed : before ++ [x] <+: past ++ [c]) (base : P before x)
    (step : ∀ {past c c'}, p.Run w past c → p.step c = some c' → P past c → P (past ++ [c]) c')
    (resume : ∀ {past c}, p.Run w past c → c.IsOver → ∀ host s, P past c →
      P (past ++ [c]) { c with host, control := .run s }) : P past c := by
  have last {past : List (Config H)} {c : Config H} (same : before ++ [x] = past ++ [c]) :
      P past c := by
    obtain ⟨rfl, here⟩ := List.append_inj' same rfl
    cases here
    exact base
  induction run with
  | begin fresh host s =>
    rcases List.prefix_concat_iff.1 passed with same | none
    · exact last same
    · simp at none
  | step run h ih =>
    rcases List.prefix_concat_iff.1 passed with same | passed
    · exact last same
    · exact step run h (ih passed)
  | resume run ended host s ih =>
    rcases List.prefix_concat_iff.1 passed with same | passed
    · exact last same
    · exact resume run ended host s (ih passed)

end Program.Run

/-! ## Driving a run -/

theorem Program.run_succ {p : Program H} {c c' : Config H} (h : p.step c = some c') (n : Nat) :
    p.run (n + 1) c = p.run n c' := by
  rw [Program.run, h]

theorem Program.run_of_stuck {p : Program H} {c : Config H} (stuck : p.step c = none) (n : Nat) :
    p.run n c = c := by
  cases n with
  | zero => rfl
  | succ n => rw [Program.run, stuck]

/-- The configurations passed in up to a number of steps. -/
def Program.trail (p : Program H) : Nat → Config H → List (Config H)
  | 0, _ => []
  | n + 1, c =>
    match p.step c with
    | none => []
    | some c' => c :: p.trail n c'

/-- To run is to make a run. -/
theorem Program.Run.trail {p : Program H} {w : World H} {past : List (Config H)} {c : Config H}
    (run : p.Run w past c) (n : Nat) : p.Run w (past ++ p.trail n c) (p.run n c) := by
  induction n generalizing past c with
  | zero => simpa [Program.trail, Program.run] using run
  | succ n ih =>
    unfold Program.trail Program.run
    cases h : p.step c with
    | none => simpa using run
    | some c' => simpa using ih (run.step h)

/-- A shorter drive is the beginning of a longer one. -/
theorem Program.trail_prefix {p : Program H} (n k : Nat) (c : Config H) :
    p.trail n c ++ [p.run n c] <+: p.trail (n + k) c ++ [p.run (n + k) c] := by
  induction n generalizing c with
  | zero =>
    rw [Nat.zero_add, Program.trail, Program.run, List.nil_append]
    cases k with
    | zero => exact List.prefix_rfl
    | succ k =>
      unfold Program.trail Program.run
      cases p.step c with
      | none => exact List.prefix_rfl
      | some c' => exact List.prefix_append [c] _
  | succ n ih =>
    rw [Nat.succ_add]
    unfold Program.trail Program.run
    cases p.step c with
    | none => exact List.prefix_rfl
    | some c' => exact (List.prefix_cons_inj c).2 (ih c')

/-! ## A lamp

A lamp has a switch and two states, each of which leads to the other one. It serves as the example
wherever a theorem about all runs is to be seen at work.
-/

namespace Lamp

def switch : Source := ⟨0, ⟨Uuid.ofNat 0⟩, "switch"⟩

def off : Definition := .shared "off" "Off"

def on : Definition := .shared "on" "On"

/-- The switch leads from each state to the other. -/
def program : Program Unit where
  declared key :=
    .yield (.listenTo switch (.ofList ["toggle"])) <|
      .yield (.moveTo "toggle" (if key = "off" then on else off)) <|
        .finish (.ok ())
  subscriber _ h := h

def noon : Moment where
  date := ⟨2024, 2, 29, by decide, by decide, by decide⟩
  second := 43200
  nano := 1
  second_lt := by decide
  nano_lt := by decide

/-- There is the switch, and nobody listens to it. -/
def world : World Unit where
  sources := #[{ id := switch.id, label := switch.label, kind := .emitter }]
  wallClock _ := noon

theorem world_isFresh : world.IsFresh where
  machine? _ := rfl
  scope? h := nomatch h
  source? := by
    intro slot source h
    cases slot with
    | zero => cases h; rfl
    | succ slot => cases h

/-- Start the lamp, watch it in two ways, and operate the switch twice. -/
def main : Script Unit :=
  .call (.start off {} none) fun _ =>
    .call (.newScope none) fun
      | .scope s =>
        .call (.observe ⟨0⟩ (fun _ => .ok) s) fun _ =>
          .call (.stream ⟨0⟩ s) fun _ =>
            .call (.emit 0 { kind := "toggle" }) fun _ =>
              .call (.emit 0 { kind := "toggle" }) fun _ => .ok
      | _ => .ok

/-- Where the run of the lamp begins. -/
def start : Config Unit := { world, host := (), control := .run main }

/-- The lamp runs. -/
theorem run (n : Nat) : program.Run world (program.trail n start) (program.run n start) :=
  (Program.Run.begin world_isFresh () main).trail n

end Lamp

end ScopedMachine

import ScopedMachine.View

/-!
# Virtual clocks

A clock holds timers that are armed and not yet fired. Timers fire in the order of their due times,
those due together in the order in which they were armed. A timer whose due time lies past the end
of the clock never fires.
-/

namespace ScopedMachine

/-- An armed timer. -/
structure Timer where
  number : Nat
  /-- When the timer fires, if it ever does. -/
  due : Option Span
  kind : String
  token : ScopeId
deriving DecidableEq

/-- A virtual clock with its armed timers, in the order in which they were armed. -/
structure Clock where
  now : Span := Span.zero
  nextNumber : Nat := 0
  pending : List Timer := []
deriving DecidableEq

/-- A timer that has come due. -/
structure DueTimer where
  timer : Timer
  due : Span
deriving DecidableEq

namespace Clock

/-- Arm a timer. -/
def arm (kind : String) (after : Span) (token : ScopeId) (c : Clock) : Clock :=
  { c with
    nextNumber := c.nextNumber + 1
    pending := c.pending ++ [⟨c.nextNumber, c.now.add? after, kind, token⟩] }

/-- Disarm the timer with a number. -/
def disarm (number : Nat) (c : Clock) : Clock :=
  { c with pending := c.pending.filter (·.number != number) }

/-- The timer together with its due time, if it is due by `target`. -/
def dueBy (target : Span) (t : Timer) : Option DueTimer :=
  match t.due with
  | some due => if due ≤ target then some ⟨t, due⟩ else none
  | none => none

/-- Whether `a` fires before `b`. -/
def firesBefore (a b : DueTimer) : Bool :=
  a.due < b.due || (a.due == b.due && a.timer.number < b.timer.number)

/-- The earlier of two timers; the first one if both would fire at once. -/
def earlier (best : Option DueTimer) (d : DueTimer) : Option DueTimer :=
  match best with
  | none => some d
  | some b => if firesBefore d b then some d else some b

/-- The timer that fires next, if one is due by `target`. -/
def next? (target : Span) (c : Clock) : Option DueTimer :=
  (c.pending.filterMap (dueBy target)).foldl earlier none

/-- Take the next timer off the clock and move the clock to its due time. -/
def take? (target : Span) (c : Clock) : Option (DueTimer × Clock) :=
  (c.next? target).map fun d => (d, { c.disarm d.timer.number with now := d.due })

end Clock

end ScopedMachine

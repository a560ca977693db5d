import ScopedMachine.Moment
import ScopedMachine.Span

/-!
# Transition history

A history only grows: `record` answers a longer history and leaves the one it was asked on as it is.
-/

namespace ScopedMachine

/-- One completed transition. -/
structure Transition where
  source : String
  target : String
  event : Option String
  time : Moment
deriving DecidableEq

/-- The completed transitions in order. -/
structure History where
  transitions : List Transition := []
deriving DecidableEq

namespace History

/-- The history without transitions. -/
def empty : History := {}

/-- The history with one more transition at its end. -/
def record (h : History) (t : Transition) : History := ⟨h.transitions ++ [t]⟩

/-- The number of transitions. -/
def size (h : History) : Nat := h.transitions.length

/-- The states passed through: where the first transition started, then where each one led. -/
def path (h : History) : List String :=
  (h.transitions.head?.map Transition.source).toList ++ h.transitions.map Transition.target

/-- The time from the first transition to the last; there is none when it would be negative. -/
def duration? (h : History) : Option Span := do
  let first ← h.transitions.head?
  let last ← h.transitions.getLast?
  let n := Moment.nanosBetween first.time last.time
  if n < 0 then none else some (Span.ofNanos n.toNat)

end History

end ScopedMachine

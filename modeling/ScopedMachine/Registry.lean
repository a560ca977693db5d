import ScopedMachine.View

/-!
# Registries of listeners

A registry holds listeners under topics, each until its token is cancelled. Registrations are
numbered, so that the teardown of one removes exactly that one. `L` is the type of the listeners.
-/

namespace ScopedMachine

/-- A listener under a topic. -/
structure Registration (L : Type) where
  number : Nat
  topic : String
  token : ScopeId
  listener : L

/-- Listeners in registration order. -/
structure Registry (L : Type) where
  nextNumber : Nat := 0
  entries : List (Registration L) := []

namespace Registry

variable {L : Type}

/-- Add a listener at the end. -/
def add (topic : String) (token : ScopeId) (listener : L) (r : Registry L) : Registry L where
  nextNumber := r.nextNumber + 1
  entries := r.entries ++ [⟨r.nextNumber, topic, token, listener⟩]

/-- Remove the registration with a number. -/
def remove (number : Nat) (r : Registry L) : Registry L :=
  { r with entries := r.entries.filter (·.number != number) }

/-- Remove all registrations. -/
def clear (r : Registry L) : Registry L := { r with entries := [] }

/-- The registrations under a topic. -/
def matching (topic : String) (r : Registry L) : List (Registration L) :=
  r.entries.filter (·.topic == topic)

/-- The topics of all registrations. -/
def topics (r : Registry L) : List String := r.entries.map Registration.topic

end Registry

end ScopedMachine

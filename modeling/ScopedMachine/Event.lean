import ScopedMachine.Uuid
import ScopedMachine.Value

/-!
# Events and their sources
-/

namespace ScopedMachine

/-- The identity of an event source. -/
structure SourceId where
  uuid : Uuid
deriving DecidableEq

/-- A named event with a payload. -/
structure Event where
  kind : String
  detail : Value := .null
deriving DecidableEq

/-- An event source as a definition refers to it: its place in the world, identity and label. -/
structure Source where
  slot : Nat
  id : SourceId
  label : String
deriving DecidableEq

end ScopedMachine

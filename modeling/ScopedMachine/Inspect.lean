import ScopedMachine.Text.Quoted
import ScopedMachine.View
import ScopedMachine.Directive

/-!
# Inspecting definitions and machines

The texts by which collected directives and machines show up in diagnostics.
-/

namespace ScopedMachine

variable {E : Type}

/-- The text of a directive; entry actions are opaque. -/
def Directive.inspect : Directive E → String
  | .entry _ => "Entry(..)"
  | .listenTo source types =>
    Text.record "ListenTo"
      [("source", Text.quote source.label),
        ("event_types", Text.enclose "\x7b" (types.toList.map Text.quote) "\x7d")]
  | .moveTo type target =>
    Text.record "On" [("event_type", Text.quote type), ("target", Text.quote target.name)]
  | .accumulate value => Text.enclose "Accumulate(" [value.inspect] ")"
  | .exit => "Exit"

/-- The text of collected directives. -/
def Collected.inspect (c : Collected E) : String :=
  Text.record "Collected"
    [("name", Text.quote c.name),
      ("aliases", Text.enclose "[" (c.aliases.map Text.quote) "]"),
      ("directives", Text.enclose "[" (c.directives.map Directive.inspect) "]")]

/-- The text of a machine, its identity written as given. -/
def MachineView.inspect (id : String) (m : MachineView) : String :=
  Text.record "Machine"
    [("id", id), ("label", Text.quote m.label), ("state", Text.quote m.snapshot.state),
      ("status", m.snapshot.status.name)]

end ScopedMachine

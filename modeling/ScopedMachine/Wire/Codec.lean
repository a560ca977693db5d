import ScopedMachine.Moment.Text
import ScopedMachine.Script
import ScopedMachine.Wire.Decode

/-!
# The written forms of events, machines and histories

Each type has an `encode` and a `decode`. What is encoded decodes to what it was.
-/

namespace ScopedMachine

open Wire

/-- Something that may be absent, written as null. -/
def Wire.encodeOption {α : Type} (encode : α → Value) : Option α → Value
  | none => .null
  | some a => encode a

/-- A list of texts. -/
def Wire.encodeStrings (xs : List String) : Value := .array (xs.map .string)

/-- A whole number. -/
def Wire.encodeNat (n : Nat) : Value := .int n

namespace Uuid

/-- An identifier is written as its text. -/
def encode (u : Uuid) : Value := .string u.toString

/-- Read an identifier. -/
def decode : Decoder Uuid := .formatted ofString? "a formatted UUID string"

end Uuid

namespace SourceId

/-- The identity of a source is written as its identifier. -/
def encode (s : SourceId) : Value := s.uuid.encode

/-- Read the identity of a source. -/
def decode : Decoder SourceId := fun v => (Uuid.decode v).map SourceId.mk

end SourceId

namespace Moment

/-- A moment is written as its timestamp. -/
def encode (m : Moment) : Value := .string m.toString

/-- Read a moment. -/
def decode : Decoder Moment :=
  .formatted ofString? "an RFC 3339 formatted date and time string"

end Moment

namespace Event

/-- The written form of an event. -/
def encode (e : Event) : Value := .object [("detail", e.detail), ("kind", .string e.kind)]

/-- Read an event; the detail may be missing. -/
def decode : Decoder Event :=
  .structure "Event" [("kind", Decoder.string.check), ("detail", Decoder.any.check)] fun f => do
    let kind ← f.required 0 "kind" .string
    let detail ← f.withDefault .null 1 "detail" .any
    return { kind, detail }

end Event

namespace Status

/-- A status is written as its word. -/
def encode (s : Status) : Value := .string s.name

/-- The status with a name. -/
def ofName? (name : String) : Option Status :=
  [.idle, .running, .stopped].find? fun s => s.name == name

/-- Read a status: its word, or an object with its word as the only key and null as the value. -/
def decode : Decoder Status
  | .string s => (ofName? s).elim (.error .malformed) .ok
  | .object [(name, .null)] => (ofName? name).elim (.error .malformed) .ok
  | .object _ => .error .malformed
  | v => .error (.unexpected v "string or map")

end Status

namespace Transition

/-- The written form of a transition. -/
def encode (t : Transition) : Value :=
  .object [("event", encodeOption .string t.event), ("from", .string t.source),
    ("timestamp", t.time.encode), ("to", .string t.target)]

/-- Read a transition. -/
def decode : Decoder Transition :=
  .structure "StateTransition"
    [("from", Decoder.string.check), ("to", Decoder.string.check),
      ("event", Decoder.string.nullable.check), ("timestamp", Moment.decode.check)] fun f => do
    let source ← f.required 0 "from" .string
    let target ← f.required 1 "to" .string
    let event ← f.optional 2 "event" .string
    let time ← f.required 3 "timestamp" Moment.decode
    return { source, target, event, time }

end Transition

namespace History

/-- The written form of a history. -/
def encode (h : History) : Value :=
  .object [("transitions", .array (h.transitions.map Transition.encode))]

/-- Read a history. -/
def decode : Decoder History :=
  .structure "StateHistory" [("transitions", (Decoder.list Transition.decode).check)] fun f => do
    let transitions ← f.required 0 "transitions" (.list Transition.decode)
    return { transitions }

end History

namespace Settings

/-- The written form of settings. -/
def encode (s : Settings) : Value :=
  .object [("label", .string s.label), ("max_delegation_depth", encodeNat s.delegationLimit),
    ("record_history", .bool s.recordHistory)]

/-- Read settings; each of them may be missing and then has its default. -/
def decode : Decoder Settings :=
  .structure "MachineConfig"
    [("label", Decoder.string.check), ("max_delegation_depth", (Decoder.word "usize").check),
      ("record_history", Decoder.bool.check)] fun f => do
    let standard : Settings := {}
    let label ← f.withDefault standard.label 0 "label" .string
    let delegationLimit ←
      f.withDefault standard.delegationLimit 1 "max_delegation_depth" (.word "usize")
    let recordHistory ← f.withDefault standard.recordHistory 2 "record_history" .bool
    return { label, delegationLimit, recordHistory }

end Settings

namespace Setup

/-- Only the settings are written; the signal belongs to the running host. -/
def encode (s : Setup) : Value := s.settings.encode

/-- Read settings; a signal can only be attached afterwards. -/
def decode : Decoder Setup := fun v => (Settings.decode v).map fun settings => { settings }

end Setup

namespace Snapshot

/-- The written form of a snapshot. -/
def encode (s : Snapshot) : Value :=
  .object [("accumulator", encodeOption id s.accumulator), ("aliases", encodeStrings s.aliases),
    ("machine", s.machine.encode), ("state", .string s.state), ("status", s.status.encode),
    ("terminal", .bool s.terminal), ("transitions", encodeNat s.transitions)]

/-- Read a snapshot. -/
def decode : Decoder Snapshot :=
  .structure "Snapshot"
    [("machine", Uuid.decode.check), ("state", Decoder.string.check),
      ("aliases", (Decoder.list .string).check), ("status", Status.decode.check),
      ("terminal", Decoder.bool.check), ("accumulator", Decoder.any.nullable.check),
      ("transitions", (Decoder.word "u64").check)] fun f => do
    let machine ← f.required 0 "machine" Uuid.decode
    let state ← f.required 1 "state" .string
    let aliases ← f.required 2 "aliases" (.list .string)
    let status ← f.required 3 "status" Status.decode
    let terminal ← f.required 4 "terminal" .bool
    let accumulator ← f.optional 5 "accumulator" .any
    let transitions ← f.required 6 "transitions" (.word "u64")
    return { machine, state, aliases, status, terminal, accumulator, transitions }

end Snapshot

namespace Change

/-- The written form of a change. -/
def encode (c : Change) : Value :=
  .object [("accumulator", encodeOption id c.accumulator), ("aliases", encodeStrings c.aliases),
    ("event", encodeOption .string c.event), ("machine", c.machine.encode),
    ("previous", .string c.previous), ("sequence", encodeNat c.sequence),
    ("state", .string c.state)]

/-- Read a change. -/
def decode : Decoder Change :=
  .structure "StateChanged"
    [("machine", Uuid.decode.check), ("sequence", (Decoder.word "u64").check),
      ("previous", Decoder.string.check), ("state", Decoder.string.check),
      ("aliases", (Decoder.list .string).check), ("event", Decoder.string.nullable.check),
      ("accumulator", Decoder.any.nullable.check)] fun f => do
    let machine ← f.required 0 "machine" Uuid.decode
    let sequence ← f.required 1 "sequence" (.word "u64")
    let previous ← f.required 2 "previous" .string
    let state ← f.required 3 "state" .string
    let aliases ← f.required 4 "aliases" (.list .string)
    let event ← f.optional 5 "event" .string
    let accumulator ← f.optional 6 "accumulator" .any
    return { machine, sequence, previous, state, aliases, event, accumulator }

end Change

end ScopedMachine

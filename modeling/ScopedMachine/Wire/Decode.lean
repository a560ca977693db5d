import ScopedMachine.Text.Quoted
import ScopedMachine.Value

/-!
# Reading structured values

A decoder reads a value of a type from a structured value. A structure is read from an object, whose
unknown fields are ignored, or from the array of its fields in declaration order. In an object the
given fields are read first, in the order of their keys; only then is a missing field noticed, the
first one declared.
-/

namespace ScopedMachine.Wire

/-- Why a value could not be read. -/
inductive DecodeError where
  | missingField (name : String)
  /-- A value of another kind was expected. -/
  | unexpected (got : Value) (expected : String)
  /-- The kind was right and the content was not. -/
  | malformed
deriving DecidableEq

/-- The kind of a value, with its content if that is short. -/
def kindText? : Value → Option String
  | .null => some "null"
  | .bool b => some (if b then "boolean `true`" else "boolean `false`")
  | .number n 0 => some s!"integer `{n}`"
  | .number _ _ => none
  | .string s => some ("string " ++ Text.quote s)
  | .array _ => some "sequence"
  | .object _ => some "map"

/-- The text of a decoding error, if it has a fixed one. -/
def DecodeError.message? : DecodeError → Option String
  | .missingField name => some s!"missing field `{name}`"
  | .unexpected got expected =>
    (kindText? got).map fun kind => s!"invalid type: {kind}, expected {expected}"
  | .malformed => none

/-- Reads an `α` from a structured value. -/
abbrev Decoder (α : Type) := Value → Except DecodeError α

namespace Decoder

variable {α : Type}

/-- Any value at all. -/
def any : Decoder Value := .ok

/-- A text. -/
def string : Decoder String
  | .string s => .ok s
  | v => .error (.unexpected v "a string")

/-- A truth value. -/
def bool : Decoder Bool
  | .bool b => .ok b
  | v => .error (.unexpected v "a boolean")

/-- A number that fits into an unsigned word of 64 bits. -/
def word (expected : String) : Decoder Nat
  | .number n 0 => if 0 ≤ n ∧ n < 18446744073709551616 then .ok n.toNat else .error .malformed
  | v => .error (.unexpected v expected)

/-- A sequence. -/
def list (d : Decoder α) : Decoder (List α)
  | .array items => items.mapM d
  | v => .error (.unexpected v "a sequence")

/-- A value, or nothing written as null. -/
def nullable (d : Decoder α) : Decoder (Option α)
  | .null => .ok none
  | v => (d v).map some

/-- A text in a format that not every text has. -/
def formatted (read : String → Option α) (expected : String) : Decoder α
  | .string s => (read s).elim (.error .malformed) .ok
  | v => .error (.unexpected v expected)

/-- Read a value only to see whether that works. -/
def check (d : Decoder α) : Decoder Unit := fun v => (d v).map fun _ => ()

end Decoder

/-- The fields of a structure as they are given. -/
inductive Fields where
  | named (fields : List (String × Value))
  | listed (items : List Value)

namespace Fields

variable {α : Type}

/-- The value of the field at a place. -/
def get? (place : Nat) (name : String) : Fields → Option Value
  | .named fields => Value.field? name fields
  | .listed items => items[place]?

/-- The error of a field that is not given. -/
def missing (name : String) : Fields → DecodeError
  | .named _ => .missingField name
  | .listed _ => .malformed

/-- A field that has to be given. -/
def required (place : Nat) (name : String) (d : Decoder α) (f : Fields) : Except DecodeError α :=
  match f.get? place name with
  | some v => d v
  | none => .error (f.missing name)

/-- A field that may be missing from an object, or null. -/
def optional (place : Nat) (name : String) (d : Decoder α) (f : Fields) :
    Except DecodeError (Option α) :=
  match f, f.get? place name with
  | _, some v => d.nullable v
  | .named _, none => .ok none
  | .listed _, none => .error .malformed

/-- A field with a default. -/
def withDefault (default : α) (place : Nat) (name : String) (d : Decoder α) (f : Fields) :
    Except DecodeError α :=
  match f.get? place name with
  | some v => d v
  | none => .ok default

end Fields

/-- Read the structure `name` with the given fields, each with the check of its value. -/
def Decoder.structure {α : Type} (name : String) (fields : List (String × Decoder Unit))
    (build : Fields → Except DecodeError α) : Decoder α
  | .object given => do
    given.forM fun f => (fields.lookup f.1).elim (.ok ()) fun d => d f.2
    build (.named given)
  | .array items => do
    let a ← build (.listed items)
    if fields.length < items.length then .error .malformed else .ok a
  | v => .error (.unexpected v ("struct " ++ name))

end ScopedMachine.Wire

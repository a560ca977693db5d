import ScopedMachine.Text.Invisible
import ScopedMachine.Value

/-!
# Quoted text

`quote` writes text between double quotes so that every character can be seen: quotes and
backslashes are escaped, line breaks and tabs have names, and invisible characters are spelled out
by number. `Value.inspect` writes a structured value with its strings quoted.
-/

namespace ScopedMachine

namespace Text

/-- The characters that stand for `c` between quotes. -/
def escape (c : Char) : List Char :=
  if c = '"' then ['\\', '"']
  else if c = '\\' then ['\\', '\\']
  else if c = '\n' then ['\\', 'n']
  else if c = '\r' then ['\\', 'r']
  else if c = '\t' then ['\\', 't']
  else if c.toNat = 0 then ['\\', '0']
  else if isInvisible c then
    ['\\', 'u', '\x7b'] ++ Nat.toDigits 16 c.toNat ++ ['\x7d']
  else [c]

/-- The text between double quotes. -/
def quote (text : String) : String :=
  String.ofList ('"' :: text.toList.flatMap escape ++ ['"'])

/-- Items between an opening and a closing mark, separated by commas. -/
def enclose (opening : String) (items : List String) (closing : String) : String :=
  opening ++ ", ".intercalate items ++ closing

/-- A name followed by named fields in braces. -/
def record (name : String) (fields : List (String × String)) : String :=
  name ++ enclose " \x7b " (fields.map fun f => f.1 ++ ": " ++ f.2) " \x7d"

/-- A number with `exponent` digits after the point. -/
def decimal (mantissa : Int) (exponent : Nat) : String :=
  let digits := mantissa.natAbs.repr
  let body :=
    if exponent = 0 then digits
    else
      let padded := "".pushn '0' (exponent + 1 - digits.length) ++ digits
      let cs := padded.toList
      String.ofList (cs.take (cs.length - exponent)) ++ "." ++
        String.ofList (cs.drop (cs.length - exponent))
  if mantissa < 0 then "-" ++ body else body

end Text

namespace Value

mutual

/-- The text of a value, with the kind of each part. -/
def inspect : Value → String
  | .null => "Null"
  | .bool b => Text.enclose "Bool(" [if b then "true" else "false"] ")"
  | .number m e => Text.enclose "Number(" [Text.decimal m e] ")"
  | .string s => Text.enclose "String(" [Text.quote s] ")"
  | .array items => Text.enclose "Array [" (inspectItems items) "]"
  | .object fields => Text.enclose "Object \x7b" (inspectFields fields) "\x7d"

/-- The texts of the items of an array. -/
def inspectItems : List Value → List String
  | [] => []
  | v :: vs => inspect v :: inspectItems vs

/-- The texts of the fields of an object. -/
def inspectFields : List (String × Value) → List String
  | [] => []
  | (k, v) :: rest => (Text.quote k ++ ": " ++ inspect v) :: inspectFields rest

end

end Value

end ScopedMachine

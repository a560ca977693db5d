/-!
# Structured values

`Value` is the payload carried by events and accumulators. Object fields are kept in the order of
their keys, so two values are equal exactly when they hold the same data.
-/

namespace ScopedMachine

/-- A structured payload; the number `m / 10 ^ e` is `number m e`. -/
inductive Value where
  | null
  | bool (b : Bool)
  | number (mantissa : Int) (exponent : Nat)
  | string (text : String)
  | array (items : List Value)
  | object (fields : List (String × Value))
deriving Inhabited

namespace Value

/-- A whole number. -/
abbrev int (n : Int) : Value := .number n 0

/-- The last field named `key`. -/
def field? (key : String) (fields : List (String × Value)) : Option Value :=
  (fields.reverse.find? (·.1 == key)).map (·.2)

mutual

/-- Equality of values is decided part by part. -/
def decEq : (a b : Value) → Decidable (a = b)
  | .null, .null => isTrue rfl
  | .bool a, .bool b => if h : a = b then isTrue (by rw [h]) else isFalse (by simp [h])
  | .number m e, .number m' e' =>
    if h : m = m' ∧ e = e' then isTrue (by rw [h.1, h.2]) else isFalse (by simpa using h)
  | .string s, .string t => if h : s = t then isTrue (by rw [h]) else isFalse (by simp [h])
  | .array xs, .array ys =>
    match decEqItems xs ys with
    | isTrue h => isTrue (by rw [h])
    | isFalse h => isFalse (by simp [h])
  | .object xs, .object ys =>
    match decEqFields xs ys with
    | isTrue h => isTrue (by rw [h])
    | isFalse h => isFalse (by simp [h])
  | .null, .bool _ | .null, .number .. | .null, .string _ | .null, .array _ | .null, .object _
  | .bool _, .null | .bool _, .number .. | .bool _, .string _ | .bool _, .array _
  | .bool _, .object _ | .number .., .null | .number .., .bool _ | .number .., .string _
  | .number .., .array _ | .number .., .object _ | .string _, .null | .string _, .bool _
  | .string _, .number .. | .string _, .array _ | .string _, .object _ | .array _, .null
  | .array _, .bool _ | .array _, .number .. | .array _, .string _ | .array _, .object _
  | .object _, .null | .object _, .bool _ | .object _, .number .. | .object _, .string _
  | .object _, .array _ => isFalse (by simp)

/-- Lists of values are compared item by item. -/
def decEqItems : (xs ys : List Value) → Decidable (xs = ys)
  | [], [] => isTrue rfl
  | [], _ :: _ | _ :: _, [] => isFalse (by simp)
  | x :: xs, y :: ys =>
    match decEq x y, decEqItems xs ys with
    | isTrue h, isTrue h' => isTrue (by rw [h, h'])
    | isFalse h, _ => isFalse (by simp [h])
    | _, isFalse h => isFalse (by simp [h])

/-- Fields are compared by key and value, in order. -/
def decEqFields : (xs ys : List (String × Value)) → Decidable (xs = ys)
  | [], [] => isTrue rfl
  | [], _ :: _ | _ :: _, [] => isFalse (by simp)
  | (k, x) :: xs, (l, y) :: ys =>
    if hk : k = l then
      match decEq x y, decEqFields xs ys with
      | isTrue h, isTrue h' => isTrue (by rw [hk, h, h'])
      | isFalse h, _ => isFalse (by simp [h])
      | _, isFalse h => isFalse (by simp [h])
    else isFalse (by simp [hk])

end

instance : DecidableEq Value := decEq

end Value

end ScopedMachine

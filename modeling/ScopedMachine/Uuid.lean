/-!
# Universally unique identifiers

An identifier is 32 hexadecimal digits. It is written in lower case with hyphens after the 8th,
12th, 16th and 20th digit. Reading also takes capitals, bare digits, surrounding braces, and the
`urn:uuid:` scheme in front.
-/

namespace ScopedMachine

/-- A 128 bit identifier, as its hexadecimal digits from the most significant one. -/
structure Uuid where
  digits : List (Fin 16)
  length_eq : digits.length = 32 := by decide
deriving DecidableEq

namespace Uuid

/-- The identifier with a given number, modulo 2 ^ 128. -/
def ofNat (n : Nat) : Uuid where
  digits := (List.range 32).map fun i => Fin.ofNat 16 (n / Nat.pow 16 (31 - i))
  length_eq := by simp

/-- The lower case spelling of a digit. -/
def digitChar (d : Fin 16) : Char :=
  if d.val < 10 then Char.ofNat (48 + d.val) else Char.ofNat (87 + d.val)

/-- The digit that a character spells. -/
def digit? (c : Char) : Option (Fin 16) :=
  if '0' ≤ c ∧ c ≤ '9' then some (Fin.ofNat 16 (c.toNat - 48))
  else if 'a' ≤ c ∧ c ≤ 'f' then some (Fin.ofNat 16 (c.toNat - 87))
  else if 'A' ≤ c ∧ c ≤ 'F' then some (Fin.ofNat 16 (c.toNat - 55))
  else none

/-- The hyphenated lower case text. -/
def toString (u : Uuid) : String :=
  let cs := u.digits.map digitChar
  String.ofList (cs.take 8 ++ '-' :: (cs.drop 8).take 4 ++ '-' :: (cs.drop 12).take 4 ++
    '-' :: (cs.drop 16).take 4 ++ '-' :: cs.drop 20)

instance : ToString Uuid := ⟨toString⟩

/-- Read 32 digits. -/
def ofDigits? (cs : List Char) : Option Uuid := do
  let ds ← cs.mapM digit?
  if h : ds.length = 32 then some ⟨ds, h⟩ else none

/-- Read digits in groups of 8, 4, 4, 4 and 12, with hyphens between the groups. -/
def ofHyphenated? (cs : List Char) : Option Uuid :=
  if cs.length = 36 ∧ (cs.drop 8).head? = some '-' ∧ (cs.drop 13).head? = some '-' ∧
      (cs.drop 18).head? = some '-' ∧ (cs.drop 23).head? = some '-' then
    ofDigits? (cs.take 8 ++ (cs.drop 9).take 4 ++ (cs.drop 14).take 4 ++ (cs.drop 19).take 4 ++
      cs.drop 24)
  else none

/-- Read an identifier in any accepted form. -/
def ofString? (text : String) : Option Uuid :=
  let cs := text.toList
  let scheme := "urn:uuid:".toList
  if cs.length = 32 then ofDigits? cs
  else if cs.length = 36 then ofHyphenated? cs
  else if cs.length = 38 ∧ cs.head? = some '\x7b' ∧ cs.getLast? = some '\x7d' then
    ofHyphenated? (cs.drop 1).dropLast
  else if cs.length = 45 ∧ scheme.isPrefixOf cs then ofHyphenated? (cs.drop scheme.length)
  else none

/-- The order of identifiers is that of their digits, the first difference deciding. -/
def compare (u v : Uuid) : Ordering :=
  if u = v then .eq else if u.digits < v.digits then .lt else .gt

end Uuid

end ScopedMachine

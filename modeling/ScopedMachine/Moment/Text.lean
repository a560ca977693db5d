import ScopedMachine.Moment

/-!
# The text of a moment

A moment is written as an RFC 3339 timestamp in coordinated universal time, with the fewest of 0, 3,
6 or 9 fraction digits that lose nothing. Years outside 0 to 9999 carry a sign. Reading takes any
offset from universal time, blanks around the parts, and a blank in place of the `T`.
-/

namespace ScopedMachine.Moment

/-! ## Writing -/

/-- A number with at least `width` digits. -/
def padded (width n : Nat) : List Char :=
  let ds := Nat.toDigits 10 n
  List.replicate (width - ds.length) '0' ++ ds

/-- The year, with a sign unless it has four digits. -/
def yearText (y : Int) : List Char :=
  if 0 ≤ y ∧ y ≤ 9999 then padded 4 y.toNat
  else (if y < 0 then '-' else '+') :: padded 4 y.natAbs

/-- The fraction of a second, in as many groups of three digits as it needs. -/
def fractionText (nano : Nat) : List Char :=
  if nano = 0 then []
  else if nano % 1000000 = 0 then '.' :: padded 3 (nano / 1000000)
  else if nano % 1000 = 0 then '.' :: padded 6 (nano / 1000)
  else '.' :: padded 9 nano

/-- The timestamp of a moment. -/
def toString (m : Moment) : String :=
  let leap := 1000000000 ≤ m.nano
  let second := m.second % 60 + (if leap then 1 else 0)
  let nano := if leap then m.nano - 1000000000 else m.nano
  String.ofList (yearText m.date.year ++ '-' :: padded 2 m.date.month ++
    '-' :: padded 2 m.date.day ++ 'T' :: padded 2 (m.second / 3600) ++
    ':' :: padded 2 (m.second / 60 % 60) ++ ':' :: padded 2 second ++ fractionText nano ++ ['Z'])

instance : ToString Moment := ⟨toString⟩

/-! ## Reading -/

/-- Whether a character is white space. -/
def isBlank (c : Char) : Bool :=
  let n := c.toNat
  (9 ≤ n && n ≤ 13) || n == 0x20 || n == 0x85 || n == 0xa0 || n == 0x1680 ||
    (0x2000 ≤ n && n ≤ 0x200a) || n == 0x2028 || n == 0x2029 || n == 0x202f || n == 0x205f ||
    n == 0x3000

/-- Skip white space. -/
def skipBlanks (cs : List Char) : List Char := cs.dropWhile isBlank

/-- The number that digits spell. -/
def ofDigits (cs : List Char) : Nat := cs.foldl (fun n c => n * 10 + (c.toNat - 48)) 0

/-- Read a number of at least one and at most `width` digits. -/
def readNumber (width : Nat) (cs : List Char) : Option (Nat × List Char) :=
  let ds := (cs.take width).takeWhile Char.isDigit
  if ds.isEmpty then none else some (ofDigits ds, cs.drop ds.length)

/-- Read a year: four digits, or any number of digits after a sign. -/
def readYear (cs : List Char) : Option (Int × List Char) :=
  match skipBlanks cs with
  | '-' :: rest => (readNumber rest.length rest).map fun x => (-(x.1 : Int), x.2)
  | '+' :: rest => (readNumber rest.length rest).map fun x => ((x.1 : Int), x.2)
  | rest => (readNumber 4 rest).map fun x => ((x.1 : Int), x.2)

/-- Read a number of one or two digits after blanks. -/
def readPair (cs : List Char) : Option (Nat × List Char) := readNumber 2 (skipBlanks cs)

/-- Read one given character after blanks. -/
def readMark (mark : Char) (cs : List Char) : Option (List Char) :=
  match skipBlanks cs with
  | c :: rest => if c = mark then some rest else none
  | [] => none

/-- Read the fraction of a second; digits beyond the ninth are dropped. -/
def readFraction (cs : List Char) : Option (Nat × List Char) :=
  match cs with
  | '.' :: rest =>
    let ds := (rest.take 9).takeWhile Char.isDigit
    if ds.isEmpty then none
    else some (ofDigits ds * Nat.pow 10 (9 - ds.length), (rest.drop ds.length).dropWhile Char.isDigit)
  | _ => some (0, cs)

/-- Read the two digits of a part of an offset. -/
def readOffsetPart (cs : List Char) : Option (Nat × List Char) :=
  match cs with
  | a :: b :: rest =>
    if a.isDigit && b.isDigit then some (ofDigits [a, b], rest) else none
  | _ => none

/-- Read an offset from universal time in minutes. -/
def readOffset (cs : List Char) : Option (Int × List Char) :=
  let signed (sign : Int) (rest : List Char) : Option (Int × List Char) := do
    let (hours, rest) ← readOffsetPart rest
    let (minutes, rest) ← readOffsetPart (rest.dropWhile fun c => c = ':' || isBlank c)
    if minutes < 60 ∧ hours < 24 then some (sign * (hours * 60 + minutes), rest) else none
  match cs with
  | 'Z' :: rest | 'z' :: rest => some (0, rest)
  | '+' :: rest => signed 1 rest
  | '-' :: rest | '−' :: rest => signed (-1) rest
  | u :: t :: c :: rest =>
    if [u, t, c].map Char.toUpper = ['U', 'T', 'C'] then some (0, rest) else none
  | _ => none

/-- Read a timestamp. -/
def ofString? (text : String) : Option Moment := do
  let (year, cs) ← readYear text.toList
  let (month, cs) ← readPair (← readMark '-' cs)
  let (day, cs) ← readPair (← readMark '-' cs)
  let cs ← match cs with
    | c :: rest => if c = 'T' ∨ c = 't' ∨ c = ' ' then some rest else none
    | [] => none
  let (hour, cs) ← readPair cs
  let (minute, cs) ← readPair (← readMark ':' cs)
  let (second, cs) ← readPair (← readMark ':' cs)
  let (nano, cs) ← readFraction cs
  let (offset, cs) ← readOffset (skipBlanks cs)
  if (skipBlanks cs).isEmpty then
    let date ← Date.ofFields? year month day
    let moment ← Moment.ofFields? date hour minute second nano
    moment.backMinutes? offset
  else none

end ScopedMachine.Moment

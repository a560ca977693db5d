/-!
# Moments of calendar time

A moment is a civil date with a time of day in coordinated universal time, to the nanosecond. The
second in which a leap second is inserted goes on for another `10 ^ 9` nanoseconds. Keeping civil
fields rather than a day count makes the written form immediate; `nanosBetween` is the only place
where days are counted.
-/

namespace ScopedMachine

/-- Whether a year has a 29th of February. -/
def isLeapYear (year : Int) : Bool :=
  year % 4 == 0 && (year % 100 != 0 || year % 400 == 0)

/-- The number of days in a month. -/
def daysInMonth (year : Int) (month : Nat) : Nat :=
  if month = 2 then (if isLeapYear year then 29 else 28)
  else if month = 4 ∨ month = 6 ∨ month = 9 ∨ month = 11 then 30 else 31

/-- The first year of the calendar. -/
abbrev Date.minYear : Int := -262143

/-- The last year of the calendar. -/
abbrev Date.maxYear : Int := 262142

/-- A civil date. -/
structure Date where
  year : Int
  month : Nat
  day : Nat
  year_mem : Date.minYear ≤ year ∧ year ≤ Date.maxYear
  month_mem : 1 ≤ month ∧ month ≤ 12
  day_mem : 1 ≤ day ∧ day ≤ daysInMonth year month
deriving DecidableEq

namespace Date

/-- The date with given fields, if there is one. -/
def ofFields? (year : Int) (month day : Nat) : Option Date :=
  if hy : minYear ≤ year ∧ year ≤ maxYear then
    if hm : 1 ≤ month ∧ month ≤ 12 then
      if hd : 1 ≤ day ∧ day ≤ daysInMonth year month then some ⟨year, month, day, hy, hm, hd⟩
      else none
    else none
  else none

/-- The day after. -/
def next? (d : Date) : Option Date :=
  if d.day < daysInMonth d.year d.month then ofFields? d.year d.month (d.day + 1)
  else if d.month < 12 then ofFields? d.year (d.month + 1) 1
  else ofFields? (d.year + 1) 1 1

/-- The day before. -/
def previous? (d : Date) : Option Date :=
  if 1 < d.day then ofFields? d.year d.month (d.day - 1)
  else if 1 < d.month then ofFields? d.year (d.month - 1) (daysInMonth d.year (d.month - 1))
  else ofFields? (d.year - 1) 12 31

/-- The days of the months of a year before a given one. -/
def daysBeforeMonth (year : Int) (month : Nat) : Nat :=
  (List.range (month - 1)).foldl (fun days m => days + daysInMonth year (m + 1)) 0

/-- The days before a year, counted from the first day of year 1. -/
def daysBeforeYear (year : Int) : Int :=
  let y := year - 1
  365 * y + y.fdiv 4 - y.fdiv 100 + y.fdiv 400

/-- The number of a date in a day count. -/
def number (d : Date) : Int :=
  daysBeforeYear d.year + daysBeforeMonth d.year d.month + d.day

end Date

/-- A date and a time of day in coordinated universal time. -/
structure Moment where
  date : Date
  second : Nat
  nano : Nat
  second_lt : second < 86400
  nano_lt : nano < 1000000000 ∨ nano < 2000000000 ∧ second % 60 = 59
deriving DecidableEq

namespace Moment

/-- The moment with given fields, if there is one; a second field of 60 is a leap second. -/
def ofFields? (date : Date) (hour minute second nano : Nat) : Option Moment :=
  if hour < 24 ∧ minute < 60 ∧ second ≤ 60 ∧ nano < 1000000000 then
    let leap := second = 60
    let s := hour * 3600 + minute * 60 + (if leap then 59 else second)
    let n := if leap then 1000000000 + nano else nano
    if hs : s < 86400 then
      if hn : n < 1000000000 ∨ n < 2000000000 ∧ s % 60 = 59 then some ⟨date, s, n, hs, hn⟩ else none
    else none
  else none

/-- The moment `minutes` earlier; less than a day is taken. -/
def backMinutes? (m : Moment) (minutes : Int) : Option Moment := do
  let s : Int := m.second - minutes * 60
  let date ← if s < 0 then m.date.previous? else if 86400 ≤ s then m.date.next? else some m.date
  let second := (s % 86400).toNat
  if hs : second < 86400 then
    if hn : m.nano < 1000000000 ∨ m.nano < 2000000000 ∧ second % 60 = 59 then
      some ⟨date, second, m.nano, hs, hn⟩
    else none
  else none

/-- The nanoseconds from `a` to `b`; a leap second between the two times of day counts. -/
def nanosBetween (a b : Moment) : Int :=
  let adjust : Int :=
    if a.second < b.second then (if 1000000000 ≤ a.nano then 1 else 0)
    else if b.second < a.second then (if 1000000000 ≤ b.nano then -1 else 0)
    else 0
  ((b.date.number - a.date.number) * 86400 + b.second - a.second + adjust) * 1000000000 +
    b.nano - a.nano

end Moment

end ScopedMachine

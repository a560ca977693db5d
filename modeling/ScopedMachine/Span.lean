/-!
# Spans of virtual time

A span is a length of time in nanoseconds. The longest span holds `2 ^ 64 - 1` seconds and
`10 ^ 9 - 1` nanoseconds; sums beyond it are refused by `add?` and cut off by `addSaturating`.
-/

namespace ScopedMachine

/-- The length of the longest span in nanoseconds. -/
abbrev Span.maxNanos : Nat := 18446744073709551615999999999

/-- A length of time. -/
structure Span where
  nanos : Nat
  le_max : nanos ≤ Span.maxNanos := by decide
deriving DecidableEq

namespace Span

/-- No time at all. -/
def zero : Span where
  nanos := 0

/-- The longest span. -/
def max : Span where
  nanos := maxNanos

instance : LE Span := ⟨fun a b => a.nanos ≤ b.nanos⟩

instance : LT Span := ⟨fun a b => a.nanos < b.nanos⟩

instance (a b : Span) : Decidable (a ≤ b) := inferInstanceAs (Decidable (a.nanos ≤ b.nanos))

instance (a b : Span) : Decidable (a < b) := inferInstanceAs (Decidable (a.nanos < b.nanos))

/-- The span of that many nanoseconds, or the longest one. -/
def ofNanos (n : Nat) : Span where
  nanos := min n maxNanos
  le_max := Nat.min_le_right _ _

/-- The span of that many milliseconds, or the longest one. -/
def ofMillis (n : Nat) : Span := ofNanos (n * 1000000)

/-- The sum, unless it is longer than the longest span. -/
def add? (a b : Span) : Option Span :=
  if h : a.nanos + b.nanos ≤ maxNanos then some ⟨a.nanos + b.nanos, h⟩ else none

/-- The sum, cut off at the longest span. -/
def addSaturating (a b : Span) : Span := ofNanos (a.nanos + b.nanos)

/-- The whole seconds of a span. -/
def seconds (a : Span) : Nat := a.nanos / 1000000000

/-- The nanoseconds beyond the whole seconds of a span. -/
def subsecond (a : Span) : Nat := a.nanos % 1000000000

/-- The whole milliseconds of a span, at most `2 ^ 64 - 1`. -/
def millis (a : Span) : Nat := min (a.nanos / 1000000) 18446744073709551615

end Span

end ScopedMachine

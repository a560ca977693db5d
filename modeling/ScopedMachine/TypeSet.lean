/-!
# Sets of event types

A listener names a set of event types. The set is kept as its strictly increasing list, ordered by
code points, so two sets are equal exactly when they have the same members.
-/

namespace ScopedMachine

/-- A finite set of event types. -/
structure TypeSet where
  toList : List String
  sorted : toList.Pairwise (· < ·) := by decide
deriving DecidableEq

namespace TypeSet

/-- Strings are linearly ordered. -/
theorem lt_of_ne_of_not_lt {x y : String} (hne : x ≠ y) (h : ¬x < y) : y < x :=
  Decidable.byContradiction fun hyx =>
    hne (String.le_antisymm (String.not_lt.1 hyx) (String.not_lt.1 h))

/-- Put `x` in its place in an increasing list, unless it is there already. -/
def insertSorted (x : String) : List String → List String
  | [] => [x]
  | y :: ys => if x = y then y :: ys else if x < y then x :: y :: ys else y :: insertSorted x ys

/-- Putting `x` in its place adds `x` and nothing else. -/
theorem mem_insertSorted {x z : String} {ys : List String} :
    z ∈ insertSorted x ys ↔ z = x ∨ z ∈ ys := by
  induction ys with
  | nil => simp [insertSorted]
  | cons y ys ih => grind [insertSorted]

/-- Putting `x` in its place keeps the list increasing. -/
theorem pairwise_insertSorted {x : String} {ys : List String} (h : ys.Pairwise (· < ·)) :
    (insertSorted x ys).Pairwise (· < ·) := by
  induction ys with
  | nil => simp [insertSorted]
  | cons y ys ih =>
    have ⟨hy, hys⟩ := List.pairwise_cons.1 h
    unfold insertSorted
    split
    · exact h
    · next hne =>
      split
      · next hlt =>
        refine List.pairwise_cons.2 ⟨fun z hz => ?_, h⟩
        rcases List.mem_cons.1 hz with rfl | hz
        · exact hlt
        · exact String.lt_trans hlt (hy z hz)
      · next hlt =>
        refine List.pairwise_cons.2 ⟨fun z hz => ?_, ih hys⟩
        rcases mem_insertSorted.1 hz with rfl | hz
        · exact lt_of_ne_of_not_lt hne hlt
        · exact hy z hz

/-- The set without members. -/
def empty : TypeSet where
  toList := []

/-- Add a member. -/
def insert (x : String) (s : TypeSet) : TypeSet where
  toList := insertSorted x s.toList
  sorted := pairwise_insertSorted s.sorted

/-- The set of the members of a list. -/
def ofList (xs : List String) : TypeSet := xs.foldl (fun s x => s.insert x) empty

/-- All members of either set. -/
def union (s t : TypeSet) : TypeSet := t.toList.foldl (fun s x => s.insert x) s

/-- Whether `x` is a member. -/
def contains (x : String) (s : TypeSet) : Bool := s.toList.contains x

end TypeSet

end ScopedMachine

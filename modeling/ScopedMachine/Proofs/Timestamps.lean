import Mathlib.Algebra.Group.Nat.Defs
import Mathlib.Data.List.Basic
import ScopedMachine.Moment.Text

/-!
# A written timestamp reads back

The parts of a timestamp are not told apart by their widths alone: a year with a sign may have any
number of digits, and a fraction may have three, six or nine of them or be absent. What keeps them
apart is that a number is followed by a character that is no digit, or already has as many digits as
are read at most. Each reader below takes its own part off the front of a text and leaves the rest.
-/

namespace ScopedMachine.Moment

/-! ## Digits -/

theorem ofDigits_eq (cs : List Char) : ofDigits cs = Nat.ofDigitChars 10 cs 0 := by
  simp only [ofDigits, Nat.ofDigitChars_eq_foldl, Nat.mul_comm]
  rfl

@[simp] theorem ofDigits_padded (width n : Nat) : ofDigits (padded width n) = n := by
  simp [ofDigits_eq, padded, Nat.ofDigitChars_append, Nat.ofDigitChars_replicate_zero,
    Nat.ofDigitChars_ten_toDigits]

theorem isDigit_of_mem_padded {width n : Nat} {c : Char} (h : c ∈ padded width n) :
    c.isDigit = true := by
  rcases List.mem_append.mp h with h | h
  · rw [List.eq_of_mem_replicate h]
    rfl
  · exact Nat.isDigit_of_mem_toDigits (by decide) (by decide) h

theorem padded_ne_nil (width n : Nat) : padded width n ≠ [] := by
  simp [padded, Nat.toDigits_ne_nil]

theorem length_padded {width n : Nat} (hw : 0 < width) (hn : n < 10 ^ width) :
    (padded width n).length = width := by
  have hle := (Nat.length_toDigits_le_iff (b := 10) (by decide) hw).mpr hn
  simp only [padded, List.length_append, List.length_replicate]
  omega

/-- A text that does not go on with a digit. -/
def NoDigit (cs : List Char) : Prop := ∀ c ∈ cs.head?, c.isDigit = false

theorem NoDigit.takeWhile_take {cs : List Char} (h : NoDigit cs) (n : Nat) :
    (cs.take n).takeWhile Char.isDigit = [] := by
  cases cs with
  | nil => simp
  | cons c cs =>
    cases n with
    | zero => simp
    | succ n => simp [h c rfl]

theorem NoDigit.dropWhile {cs : List Char} (h : NoDigit cs) : cs.dropWhile Char.isDigit = cs := by
  cases cs with
  | nil => rfl
  | cons c cs => simp [h c rfl]

/-- Digits are told from what follows by a character that is no digit, or by how many are read. -/
theorem takeWhile_take_append {ds rest : List Char} {width : Nat}
    (hds : ∀ c ∈ ds, c.isDigit = true) (hle : ds.length ≤ width)
    (hend : ds.length = width ∨ NoDigit rest) :
    ((ds ++ rest).take width).takeWhile Char.isDigit = ds := by
  rw [List.take_append, List.take_of_length_le hle, List.takeWhile_append_of_pos hds]
  rcases hend with rfl | hend
  · simp
  · rw [hend.takeWhile_take, List.append_nil]

theorem readNumber_padded {limit width n : Nat} {rest : List Char}
    (hle : (padded width n).length ≤ limit)
    (hend : (padded width n).length = limit ∨ NoDigit rest) :
    readNumber limit (padded width n ++ rest) = some (n, rest) := by
  simp [readNumber, takeWhile_take_append (fun _ => isDigit_of_mem_padded) hle hend,
    padded_ne_nil]

/-! ## Blanks and marks -/

theorem isBlank_eq_false_of_isDigit {c : Char} (h : c.isDigit = true) : isBlank c = false := by
  simp only [Char.isDigit, ge_iff_le, Bool.and_eq_true, decide_eq_true_eq,
    UInt32.le_iff_toNat_le] at h
  have hc : 48 ≤ c.toNat ∧ c.toNat ≤ 57 := h
  simp only [isBlank, Bool.or_eq_false_iff, Bool.and_eq_false_iff, decide_eq_false_iff_not,
    beq_eq_false_iff_ne]
  omega

theorem skipBlanks_cons {c : Char} (h : isBlank c = false) (cs : List Char) :
    skipBlanks (c :: cs) = c :: cs := by
  simp [skipBlanks, h]

/-- A number starts with a digit. -/
theorem padded_append_eq_cons (width n : Nat) (rest : List Char) :
    ∃ c cs, padded width n ++ rest = c :: cs ∧ c.isDigit = true := by
  obtain ⟨c, cs, h⟩ := List.exists_cons_of_ne_nil (padded_ne_nil width n)
  have hmem : c ∈ padded width n := by simp [h]
  exact ⟨c, cs ++ rest, by rw [h, List.cons_append], isDigit_of_mem_padded hmem⟩

@[simp] theorem skipBlanks_padded (width n : Nat) (rest : List Char) :
    skipBlanks (padded width n ++ rest) = padded width n ++ rest := by
  obtain ⟨c, cs, h, hc⟩ := padded_append_eq_cons width n rest
  rw [h, skipBlanks_cons (isBlank_eq_false_of_isDigit hc)]

theorem readMark_cons {c : Char} (h : isBlank c = false) (cs : List Char) :
    readMark c (c :: cs) = some cs := by
  simp [readMark, skipBlanks_cons h]

/-! ## The parts of a timestamp -/

theorem readPair_padded {n : Nat} (h : n < 100) (rest : List Char) :
    readPair (padded 2 n ++ rest) = some (n, rest) := by
  have hlen : (padded 2 n).length = 2 := length_padded (by decide) h
  rw [readPair, skipBlanks_padded, readNumber_padded (Nat.le_of_eq hlen) (.inl hlen)]

/-- After a sign the digits go on up to the hyphen. -/
theorem readNumber_signed (n : Nat) {rest : List Char} (h : NoDigit rest) :
    readNumber (padded 4 n ++ rest).length (padded 4 n ++ rest) = some (n, rest) :=
  readNumber_padded (by simp) (.inr h)

theorem readYear_yearText (y : Int) {rest : List Char} (h : NoDigit rest) :
    readYear (yearText y ++ rest) = some (y, rest) := by
  by_cases hy : 0 ≤ y ∧ y ≤ 9999
  · have hlen : (padded 4 y.toNat).length = 4 := length_padded (by decide) (by omega)
    have hread : readNumber 4 (padded 4 y.toNat ++ rest) = some (y.toNat, rest) :=
      readNumber_padded (Nat.le_of_eq hlen) (.inl hlen)
    obtain ⟨c, cs, hc, hdigit⟩ := padded_append_eq_cons 4 y.toNat rest
    rw [yearText, if_pos hy, readYear, skipBlanks_padded]
    rw [hc] at hread ⊢
    -- a year without a sign starts with a digit
    have hminus : c ≠ '-' := by rintro rfl; revert hdigit; decide
    have hplus : c ≠ '+' := by rintro rfl; revert hdigit; decide
    simp [hminus, hplus, hread, Int.toNat_of_nonneg hy.1]
  · by_cases hneg : y < 0
    · rw [yearText, if_neg hy, if_pos hneg, List.cons_append, readYear,
        skipBlanks_cons (by decide)]
      simp only [readNumber_signed y.natAbs h, Option.map_some]
      congr 2
      omega
    · rw [yearText, if_neg hy, if_neg hneg, List.cons_append, readYear,
        skipBlanks_cons (by decide)]
      simp only [readNumber_signed y.natAbs h, Option.map_some]
      congr 2
      omega

theorem readFraction_point {width n : Nat} {rest : List Char} (hw : 0 < width) (hle : width ≤ 9)
    (hn : n < 10 ^ width) (hrest : NoDigit rest) :
    readFraction ('.' :: padded width n ++ rest) = some (n * 10 ^ (9 - width), rest) := by
  have hlen := length_padded hw hn
  have hds : ((padded width n ++ rest).take 9).takeWhile Char.isDigit = padded width n :=
    takeWhile_take_append (fun _ => isDigit_of_mem_padded) (by omega) (.inr hrest)
  simp [readFraction, hds, padded_ne_nil, hlen, hrest.dropWhile]

/-- However many digits a fraction is written with, it is read in nanoseconds. -/
theorem readFraction_fractionText {nano : Nat} (h : nano < 1000000000) {rest : List Char}
    (hrest : NoDigit rest) (hpoint : rest.head? ≠ some '.') :
    readFraction (fractionText nano ++ rest) = some (nano, rest) := by
  unfold fractionText
  split_ifs with h0 h3 h6
  · subst h0
    cases rest with
    | nil => rfl
    | cons c cs =>
      have hc : c ≠ '.' := fun hc => hpoint (by rw [hc]; rfl)
      simp [readFraction, hc]
  · rw [readFraction_point (by decide) (by decide) (by omega) hrest]
    congr 2
    omega
  · rw [readFraction_point (by decide) (by decide) (by omega) hrest]
    congr 2
    omega
  · rw [readFraction_point (by decide) (by decide) h hrest, Nat.sub_self, Nat.pow_zero, Nat.mul_one]

/-! ## The whole timestamp -/

theorem ofFields?_date (d : Date) : Date.ofFields? d.year d.month d.day = some d := by
  simp [Date.ofFields?, d.year_mem, d.month_mem, d.day_mem]

/-- The fields that a timestamp shows make up the moment; a leap second shows as a 60th second. -/
theorem ofFields?_shown (m : Moment) :
    ofFields? m.date (m.second / 3600) (m.second / 60 % 60)
      (m.second % 60 + (if 1000000000 ≤ m.nano then 1 else 0))
      (if 1000000000 ≤ m.nano then m.nano - 1000000000 else m.nano) = some m := by
  obtain ⟨date, second, nano, hsecond, hnano⟩ := m
  by_cases hleap : 1000000000 ≤ nano
  · obtain ⟨hlt, hlast⟩ := hnano.resolve_left (by omega)
    have hs : second / 3600 * 3600 + second / 60 % 60 * 60 + 59 = second := by omega
    have hn : 1000000000 + (nano - 1000000000) = nano := by omega
    have hfields : second / 3600 < 24 ∧ second / 60 % 60 < 60 ∧ nano - 1000000000 < 1000000000 := by
      omega
    simp [ofFields?, hleap, hlast, hs, hn, hfields, hsecond, hlt]
  · have hs : second / 3600 * 3600 + second / 60 % 60 * 60 + second % 60 = second := by omega
    have hfields : second / 3600 < 24 ∧ second / 60 % 60 < 60 ∧ second % 60 ≤ 60 ∧
        nano < 1000000000 := by omega
    have hlast : second % 60 ≠ 60 := by omega
    simp [ofFields?, hleap, hlast, hs, hfields, hsecond]

theorem backMinutes?_zero (m : Moment) : m.backMinutes? 0 = some m := by
  obtain ⟨date, second, nano, hsecond, hnano⟩ := m
  have hneg : ¬ (second : Int) < 0 := by omega
  have hday : ¬ (86400 : Int) ≤ second := by omega
  have hmod : ((second : Int) % 86400).toNat = second := by omega
  simp [backMinutes?, hneg, hday, hmod, hsecond, hnano]

/-- Every moment, in any year, with or without a fraction and in a leap second too, is the one that
its timestamp reads as. -/
theorem ofString?_toString (m : Moment) : ofString? m.toString = some m := by
  have hmonth : m.date.month < 100 := by have := m.date.month_mem; omega
  have hday : m.date.day < 100 := by
    have hmem := m.date.day_mem.2
    unfold daysInMonth at hmem
    split_ifs at hmem <;> omega
  have hsecond := m.second_lt
  have hhour : m.second / 3600 < 100 := by omega
  have hminute : m.second / 60 % 60 < 100 := by omega
  have hshown : m.second % 60 + (if 1000000000 ≤ m.nano then 1 else 0) < 100 := by
    split_ifs <;> omega
  have hnano : (if 1000000000 ≤ m.nano then m.nano - 1000000000 else m.nano) < 1000000000 := by
    have := m.nano_lt
    split_ifs <;> omega
  have hZ : NoDigit ['Z'] := by simp [NoDigit]
  have hyear (cs : List Char) : NoDigit ('-' :: cs) := by simp [NoDigit]
  have hyphen : isBlank '-' = false := by decide
  have colon : isBlank ':' = false := by decide
  have hoffset : readOffset (skipBlanks ['Z']) = some (0, []) := by decide
  simp only [toString, List.append_assoc, List.cons_append]
  rw [ofString?, String.toList_ofList]
  -- each reader takes its own part off the front
  refine Option.bind_eq_some_iff.2 ⟨_, readYear_yearText _ (hyear _), ?_⟩
  refine Option.bind_eq_some_iff.2 ⟨_, readMark_cons hyphen _, ?_⟩
  refine Option.bind_eq_some_iff.2 ⟨_, readPair_padded hmonth _, ?_⟩
  refine Option.bind_eq_some_iff.2 ⟨_, readMark_cons hyphen _, ?_⟩
  refine Option.bind_eq_some_iff.2 ⟨_, readPair_padded hday _, ?_⟩
  refine Option.bind_eq_some_iff.2 ⟨_, readPair_padded hhour _, ?_⟩
  refine Option.bind_eq_some_iff.2 ⟨_, readMark_cons colon _, ?_⟩
  refine Option.bind_eq_some_iff.2 ⟨_, readPair_padded hminute _, ?_⟩
  refine Option.bind_eq_some_iff.2 ⟨_, readMark_cons colon _, ?_⟩
  refine Option.bind_eq_some_iff.2 ⟨_, readPair_padded hshown _, ?_⟩
  refine Option.bind_eq_some_iff.2 ⟨_, readFraction_fractionText hnano hZ (by decide), ?_⟩
  refine Option.bind_eq_some_iff.2 ⟨_, hoffset, ?_⟩
  refine Option.bind_eq_some_iff.2 ⟨_, ofFields?_date _, ?_⟩
  exact Option.bind_eq_some_iff.2 ⟨_, ofFields?_shown m, backMinutes?_zero m⟩

end ScopedMachine.Moment

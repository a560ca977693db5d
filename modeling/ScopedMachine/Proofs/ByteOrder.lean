import Mathlib.Data.List.Lex
import Mathlib.Order.Basic

/-!
# The order of bytes

Texts are ordered by their code points, and a set of event types lists its members in that order. It
is the order of the bytes that the texts are encoded in: the code points of a shorter encoding come
before those of a longer one and begin with a smaller byte, and within one length the bytes are the
digits of the code point to the base 64.
-/

namespace ScopedMachine

/-- The bytes of a text. -/
def bytes (s : String) : List UInt8 := s.toByteArray.data.toList

theorem bytes_eq (s : String) : bytes s = s.toList.flatMap String.utf8EncodeChar := by
  rw [bytes]
  conv_lhs => rw [← String.ofList_toList (s := s)]
  rw [String.toByteArray_ofList, List.utf8Encode, List.toList_data_toByteArray]

/-- Some bytes differ from others at a place that both have, and are smaller at the first one. -/
def Undercuts : List UInt8 → List UInt8 → Prop
  | a :: as, b :: bs => a.toNat < b.toNat ∨ a.toNat = b.toNat ∧ Undercuts as bs
  | _, _ => False

/-- What follows does not change the order. -/
theorem Undercuts.append_lt {as bs xs ys : List UInt8} (smaller : Undercuts as bs) :
    as ++ xs < bs ++ ys := by
  induction as generalizing bs with
  | nil => cases smaller
  | cons a as ih =>
    cases bs with
    | nil => cases smaller
    | cons b bs =>
      rcases smaller with smaller | ⟨same, smaller⟩
      · exact List.cons_lt_cons_iff.2 (.inl (UInt8.lt_iff_toNat_lt.2 smaller))
      · exact List.cons_lt_cons_iff.2 (.inr ⟨UInt8.toNat_inj.1 same, ih smaller⟩)

/-- Numbers are compared by their digits to the base 64, from the first of four. -/
theorem digits_lt {v u : Nat} (less : v < u) :
    v / 262144 < u / 262144 ∨ v / 262144 = u / 262144 ∧
      (v / 4096 % 64 < u / 4096 % 64 ∨ v / 4096 % 64 = u / 4096 % 64 ∧
        (v / 64 % 64 < u / 64 % 64 ∨ v / 64 % 64 = u / 64 % 64 ∧ v % 64 < u % 64)) := by
  have digit {v u : Nat} (less : v < u) :
      v / 64 < u / 64 ∨ v / 64 = u / 64 ∧ v % 64 < u % 64 := by omega
  have second (less : v / 64 < u / 64) := digit less
  have third (less : v / 64 / 64 < u / 64 / 64) := digit less
  simp only [Nat.div_div_eq_div_mul, Nat.reduceMul] at second third
  rcases digit less with higher | ⟨same, last⟩
  · rcases second higher with higher | ⟨same, last⟩
    · rcases third higher with higher | ⟨same, last⟩
      · exact .inl higher
      · exact .inr ⟨same, .inl last⟩
    · exact .inr ⟨by omega, .inr ⟨by omega, .inl last⟩⟩
  · exact .inr ⟨by omega, .inr ⟨by omega, .inr ⟨by rw [same], last⟩⟩⟩

theorem undercuts_utf8EncodeChar {c d : Char} (less : c < d) :
    Undercuts (String.utf8EncodeChar c) (String.utf8EncodeChar d) := by
  have less : c.val.toNat < d.val.toNat := less
  have bound : d.val.toNat < 1114112 := by
    rcases d.valid with low | ⟨_, high⟩
    · exact Nat.lt_trans low (by decide)
    · exact high
  unfold String.utf8EncodeChar
  generalize c.val.toNat = v at *
  generalize d.val.toNat = u at *
  have digits := digits_lt less
  -- no byte is cut off
  have two (n : Nat) : (n % 32 + 192) % 2 ^ 8 = n % 32 + 192 := by omega
  have three (n : Nat) : (n % 16 + 224) % 2 ^ 8 = n % 16 + 224 := by omega
  have four {n : Nat} (small : n < 1114112) :
      (n / 262144 % 8 + 240) % 2 ^ 8 = n / 262144 + 240 := by omega
  have next (n : Nat) : (n % 64 + 128) % 2 ^ 8 = n % 64 + 128 := by omega
  dsimp only
  split_ifs <;> simp only [Undercuts, UInt8.toNat_ofNat', two, three, four bound,
    four (Nat.lt_trans less bound), next, and_false, or_false, Nat.add_lt_add_iff_right,
    Nat.add_right_cancel_iff] <;> first | exact digits | omega

theorem bytes_lt {s t : String} (less : s < t) : bytes s < bytes t := by
  rw [bytes_eq, bytes_eq]
  have less : s.toList < t.toList := less
  generalize s.toList = cs at *
  generalize t.toList = ds at *
  induction cs generalizing ds with
  | nil =>
    cases ds with
    | nil => cases less
    | cons d ds =>
      obtain ⟨b, bs, encoded⟩ := List.exists_cons_of_ne_nil (String.utf8EncodeChar_ne_nil (c := d))
      rw [List.flatMap_nil, List.flatMap_cons, encoded]
      exact List.nil_lt_cons _ _
  | cons c cs ih =>
    cases ds with
    | nil => cases less
    | cons d ds =>
      rw [List.flatMap_cons, List.flatMap_cons]
      rcases List.cons_lt_cons_iff.1 less with first | ⟨rfl, rest⟩
      · exact (undercuts_utf8EncodeChar first).append_lt
      · exact List.append_left_lt (ih _ rest)

end ScopedMachine

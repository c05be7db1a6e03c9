import Mathlib.Data.Int.Order.Units
import Throned.Library.Text

/-!
# Integers as texts and as doubles

An integer that is written reads back.  A double holds 53 binary digits, so an integer becomes the
nearest multiple of a power of two, and stays itself just where it is one.
-/

set_option autoImplicit false

namespace Throned.Library

/-- A decimal number with its sign. -/
def integer (n : ℤ) : Text := if n < 0 then '-' :: decimal n.natAbs else decimal n.natAbs

/-- A decimal number with a sign or none, between white space. -/
def parseInteger (text : Text) : Option ℤ :=
  match trimSpace text with
  | '-' :: digits => (parseDecimal digits).map fun n : ℕ => -(n : ℤ)
  | '+' :: digits => (parseDecimal digits).map fun n : ℕ => (n : ℤ)
  | digits => (parseDecimal digits).map fun n : ℕ => (n : ℤ)

/-- An integer of `w` bits. -/
def parseSigned (w : ℕ) (text : Text) : Option ℤ :=
  (parseInteger text).filter fun n => -2 ^ (w - 1) ≤ n ∧ n < 2 ^ (w - 1)

/-- What a digit is not. -/
theorem plain_of_decimalDigit {c : Char} (h : (decimalDigit c).isSome) :
    isSpace c = false ∧ c ≠ '-' ∧ c ≠ '+' := by
  have hrange : '0' ≤ c ∧ c ≤ '9' := by
    unfold decimalDigit at h
    split at h
    · assumption
    · cases h
  have hlow : (48 : ℕ) ≤ c.val.toNat := hrange.1
  have hhigh : c.val.toNat ≤ 57 := hrange.2
  refine ⟨?_, ?_, ?_⟩
  · unfold isSpace
    simp only [Bool.or_eq_false_iff, Bool.and_eq_false_iff, beq_eq_false_iff_ne,
      decide_eq_false_iff_not, UInt32.le_iff_toNat_le, ne_eq, ← UInt32.toNat_inj]
    simp only [UInt32.reduceToNat]
    omega
  · rintro rfl
    revert hlow
    decide
  · rintro rfl
    revert hlow
    decide

theorem parseInteger_decimal (n : ℕ) : parseInteger (decimal n) = some (n : ℤ) := by
  have hplain : ∀ c ∈ decimal n, isSpace c = false ∧ c ≠ '-' ∧ c ≠ '+' := fun c hc =>
    plain_of_decimalDigit (decimalDigit_of_mem_decimal hc)
  unfold parseInteger
  rw [trimSpace_eq_self fun c hc => (hplain c hc).1]
  split
  · rename_i heq
    exact absurd rfl (hplain '-' (heq ▸ List.mem_cons_self)).2.1
  · rename_i heq
    exact absurd rfl (hplain '+' (heq ▸ List.mem_cons_self)).2.2
  · rw [parseDecimal_decimal, Option.map_some]

/-- **An integer that is written reads back.** -/
theorem parseSigned_integer {w : ℕ} {n : ℤ} (hn : 0 ≤ n) (hw : n < 2 ^ (w - 1)) :
    parseSigned w (integer n) = some n := by
  have hpow : (0 : ℤ) ≤ 2 ^ (w - 1) := by positivity
  unfold parseSigned integer
  rw [if_neg (by omega), parseInteger_decimal, Int.natAbs_of_nonneg hn]
  exact Option.filter_eq_some_iff.mpr ⟨rfl, by simp only [decide_eq_true_eq]; omega⟩

/-! ## Doubles -/

/-- The last binary digit that a double has for a number. -/
def ulp (m : ℕ) : ℕ := 2 ^ (m.log2 - 52)

/-- To the nearest, and of two to the even one. -/
def roundNat (m : ℕ) : ℕ :=
  let quotient := m / ulp m
  let rest := m % ulp m
  (if ulp m < 2 * rest ∨ (2 * rest = ulp m ∧ quotient % 2 = 1) then quotient + 1 else quotient) *
    ulp m

/-- An integer as a double. -/
def toDouble (n : ℤ) : ℤ := n.sign * roundNat n.natAbs

/-- A number is its own double just where its last binary digit is one the double has. -/
theorem roundNat_eq_self_iff (m : ℕ) : roundNat m = m ↔ ulp m ∣ m := by
  have hpos : 0 < ulp m := Nat.two_pow_pos _
  constructor
  · intro h
    exact ⟨_, h.symm.trans (Nat.mul_comm _ _)⟩
  · intro h
    have hrest : m % ulp m = 0 := Nat.mod_eq_zero_of_dvd h
    unfold roundNat
    dsimp only
    rw [hrest, if_neg (by omega), Nat.div_mul_cancel h]

theorem toDouble_eq_self_iff (n : ℤ) : toDouble n = n ↔ ulp n.natAbs ∣ n.natAbs := by
  rw [← roundNat_eq_self_iff]
  constructor
  · intro h
    rcases eq_or_ne n 0 with rfl | hn
    · rfl
    · have hsign := congrArg Int.natAbs h
      rwa [toDouble, Int.natAbs_mul, Int.natAbs_sign_of_ne_zero hn, Nat.one_mul,
        Int.natAbs_natCast] at hsign
  · intro h
    rw [toDouble, h, Int.sign_mul_natAbs]

/-- Integers of 53 binary digits are their own doubles. -/
theorem toDouble_of_small {n : ℤ} (h : n.natAbs < 2 ^ 53) : toDouble n = n := by
  rw [toDouble_eq_self_iff]
  have hlog : n.natAbs.log2 - 52 = 0 := by
    rcases Nat.eq_zero_or_pos n.natAbs with hzero | hpos
    · rw [hzero]
      rfl
    · have := (Nat.log2_lt hpos.ne').mpr h
      omega
  rw [ulp, hlog]
  exact one_dvd _

end Throned.Library

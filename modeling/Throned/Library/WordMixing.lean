import Mathlib.Data.Set.Card
import Mathlib.Data.Nat.ModEq
import Mathlib.Data.Nat.Prime.Basic

/-!
# Invertible steps on the low bits of a word

On `lowWords n w`, the `n`-bit words below `2 ^ w`, three steps are permutations:
adding a constant modulo `2 ^ w`, xoring a word with itself shifted right by at least
one bit, and multiplying by an odd constant modulo `2 ^ w`.  The reduction is written
as the bit mask `2 ^ w - 1`, which is how programs write it.
-/

set_option autoImplicit false

namespace Throned.Library

variable {n w : ℕ}

/-- The `n`-bit words that use only their lowest `w` bits. -/
def lowWords (n w : ℕ) : Set (BitVec n) := {x | x.toNat < 2 ^ w}

theorem mem_lowWords {x : BitVec n} : x ∈ lowWords n w ↔ x.toNat < 2 ^ w := Iff.rfl

theorem mapsTo_range : Set.MapsTo BitVec.toNat (lowWords n w) (Finset.range (2 ^ w) : Set ℕ) := by
  intro x hx
  simpa [mem_lowWords] using hx

theorem lowWords_finite : (lowWords n w).Finite :=
  Set.Finite.of_injOn mapsTo_range (fun _ _ _ _ h => BitVec.eq_of_toNat_eq h)
    (Finset.finite_toSet _)

/-- There are at most `2 ^ w` of them. -/
theorem ncard_lowWords_le : (lowWords n w).ncard ≤ 2 ^ w := by
  calc (lowWords n w).ncard ≤ (Finset.range (2 ^ w) : Set ℕ).ncard :=
        Set.ncard_le_ncard_of_injOn _ mapsTo_range (fun _ _ _ _ h => BitVec.eq_of_toNat_eq h)
          (Finset.finite_toSet _)
    _ = 2 ^ w := by rw [Set.ncard_coe_finset, Finset.card_range]

/-- An injective self-map of the low words is a permutation of them. -/
theorem bijOn_lowWords {f : BitVec n → BitVec n}
    (hmaps : ∀ x, x.toNat < 2 ^ w → (f x).toNat < 2 ^ w)
    (hinj : ∀ x y, x.toNat < 2 ^ w → y.toNat < 2 ^ w → f x = f y → x = y) :
    Set.BijOn f (lowWords n w) (lowWords n w) :=
  (lowWords_finite.injOn_iff_bijOn_of_mapsTo hmaps).mp
    fun x hx y hy h => hinj x y hx hy h

/-- Masking with `2 ^ w - 1` is reduction modulo `2 ^ w`. -/
theorem toNat_and_mask {mask : BitVec n} (hmask : mask.toNat = 2 ^ w - 1) (x : BitVec n) :
    (x &&& mask).toNat = x.toNat % 2 ^ w := by
  rw [BitVec.toNat_and, hmask, Nat.and_two_pow_sub_one_eq_mod]

/-- Adding a constant modulo `2 ^ w`. -/
theorem add_mask_bijOn {mask : BitVec n} (hmask : mask.toNat = 2 ^ w - 1) (hw : w ≤ n)
    (a : BitVec n) :
    Set.BijOn (fun x => (x + a) &&& mask) (lowWords n w) (lowWords n w) := by
  have hdvd : 2 ^ w ∣ 2 ^ n := pow_dvd_pow 2 hw
  have hval : ∀ x : BitVec n, ((x + a) &&& mask).toNat = (x.toNat + a.toNat) % 2 ^ w := by
    intro x
    rw [toNat_and_mask hmask, BitVec.toNat_add, Nat.mod_mod_of_dvd _ hdvd]
  apply bijOn_lowWords
  · intro x _
    rw [hval]
    exact Nat.mod_lt _ (Nat.two_pow_pos w)
  · intro x y hx hy h
    have hmod : x.toNat + a.toNat ≡ y.toNat + a.toNat [MOD 2 ^ w] := by
      rw [Nat.ModEq, ← hval, ← hval, h]
    have := Nat.ModEq.add_right_cancel' a.toNat hmod
    exact BitVec.eq_of_toNat_eq (Nat.ModEq.eq_of_lt_of_lt this hx hy)

/-- Multiplying by an odd constant modulo `2 ^ w`. -/
theorem mul_mask_bijOn {mask : BitVec n} (hmask : mask.toNat = 2 ^ w - 1) (hw : w ≤ n)
    {m : BitVec n} (hm : m.toNat % 2 = 1) :
    Set.BijOn (fun x => (x * m) &&& mask) (lowWords n w) (lowWords n w) := by
  have hdvd : 2 ^ w ∣ 2 ^ n := pow_dvd_pow 2 hw
  have hval : ∀ x : BitVec n, ((x * m) &&& mask).toNat = x.toNat * m.toNat % 2 ^ w := by
    intro x
    rw [toNat_and_mask hmask, BitVec.toNat_mul, Nat.mod_mod_of_dvd _ hdvd]
  apply bijOn_lowWords
  · intro x _
    rw [hval]
    exact Nat.mod_lt _ (Nat.two_pow_pos w)
  · intro x y hx hy h
    have hmod : x.toNat * m.toNat ≡ y.toNat * m.toNat [MOD 2 ^ w] := by
      rw [Nat.ModEq, ← hval, ← hval, h]
    have hodd : Nat.gcd (2 ^ w) m.toNat = 1 :=
      Nat.Coprime.pow_left w (Nat.coprime_two_left.mpr (Nat.odd_iff.mpr hm))
    have := Nat.ModEq.cancel_right_of_coprime hodd hmod
    exact BitVec.eq_of_toNat_eq (Nat.ModEq.eq_of_lt_of_lt this hx hy)

/-- A number is determined by its xor with itself shifted right by `s ≥ 1` bits: the
bits are recovered from the top down. -/
theorem xor_shiftRight_cancel {s : ℕ} (hs : 0 < s) (x y : ℕ)
    (h : x ^^^ (x >>> s) = y ^^^ (y >>> s)) : x = y := by
  obtain ⟨b, hx, hy⟩ : ∃ b, x < 2 ^ b ∧ y < 2 ^ b := by
    refine ⟨x + y, ?_, ?_⟩
    · exact lt_of_lt_of_le Nat.lt_two_pow_self (Nat.pow_le_pow_right (by omega) (by omega))
    · exact lt_of_lt_of_le Nat.lt_two_pow_self (Nat.pow_le_pow_right (by omega) (by omega))
  have hbit : ∀ d i, b ≤ i + d → x.testBit i = y.testBit i := by
    intro d
    induction d with
    | zero =>
      intro i hi
      have hle : (2 : ℕ) ^ b ≤ 2 ^ i := Nat.pow_le_pow_right (by omega) (by omega)
      rw [Nat.testBit_lt_two_pow (lt_of_lt_of_le hx hle),
        Nat.testBit_lt_two_pow (lt_of_lt_of_le hy hle)]
    | succ d ih =>
      intro i hi
      have hhigh : x.testBit (s + i) = y.testBit (s + i) := ih (s + i) (by omega)
      have hxor := congrArg (Nat.testBit · i) h
      simp only [Nat.testBit_xor, Nat.testBit_shiftRight, hhigh] at hxor
      exact (Bool.xor_left_inj).mp hxor
  exact Nat.eq_of_testBit_eq fun i => hbit b i (by omega)

/-- Xoring a word with itself shifted right by at least one bit. -/
theorem xor_shiftRight_bijOn {s : ℕ} (hs : 0 < s) :
    Set.BijOn (fun x : BitVec n => x ^^^ (x >>> s)) (lowWords n w) (lowWords n w) := by
  apply bijOn_lowWords
  · intro x hx
    rw [BitVec.toNat_xor, BitVec.toNat_ushiftRight]
    apply Nat.xor_lt_two_pow hx
    exact lt_of_le_of_lt (Nat.shiftRight_le _ _) hx
  · intro x y _ _ h
    apply BitVec.eq_of_toNat_eq
    apply xor_shiftRight_cancel hs
    have := congrArg BitVec.toNat h
    simpa using this

end Throned.Library

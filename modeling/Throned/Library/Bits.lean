import Mathlib.Data.List.Flatten
import Mathlib.Data.Nat.Bitwise

/-!
# Groups of bits

A text of digits and a string of bytes are the same bits, cut into groups of different widths.
The bits determine the groups, up to a rest that is no whole group.
-/

set_option autoImplicit false

namespace Throned.Library

/-- The `w` low bits of a number, the highest first. -/
def bits : ℕ → ℕ → List Bool
  | 0, _ => []
  | w + 1, n => n.testBit w :: bits w n

@[simp] theorem length_bits (w n : ℕ) : (bits w n).length = w := by
  induction w with
  | zero => rfl
  | succ w ih => rw [bits, List.length_cons, ih]

theorem bits_congr {w m n : ℕ} (h : ∀ i < w, m.testBit i = n.testBit i) : bits w m = bits w n := by
  induction w with
  | zero => rfl
  | succ w ih => rw [bits, bits, h w (by omega), ih fun i hi => h i (by omega)]

theorem testBit_of_bits {w m n : ℕ} (h : bits w m = bits w n) :
    ∀ i < w, m.testBit i = n.testBit i := by
  induction w with
  | zero => exact fun i hi => absurd hi (Nat.not_lt_zero i)
  | succ w ih =>
    obtain ⟨hhigh, hlow⟩ := List.cons.inj h
    intro i hi
    obtain hi | rfl := Nat.lt_succ_iff_lt_or_eq.mp hi
    · exact ih hlow i hi
    · exact hhigh

/-- A number is its bits. -/
theorem bits_inj {w m n : ℕ} (hm : m < 2 ^ w) (hn : n < 2 ^ w) (h : bits w m = bits w n) :
    m = n := by
  apply Nat.eq_of_testBit_eq
  intro i
  rcases Nat.lt_or_ge i w with hi | hi
  · exact testBit_of_bits h i hi
  · have hpow : 2 ^ w ≤ 2 ^ i := Nat.pow_le_pow_right (by omega) hi
    rw [Nat.testBit_lt_two_pow (hm.trans_le hpow), Nat.testBit_lt_two_pow (hn.trans_le hpow)]

theorem bits_add (v w n : ℕ) : bits (v + w) n = bits v (n >>> w) ++ bits w n := by
  induction v with
  | zero => rw [Nat.zero_add]; rfl
  | succ v ih =>
    rw [Nat.succ_add, bits, bits, ih, List.cons_append, Nat.testBit_shiftRight, Nat.add_comm w v]

theorem bits_mod (w n : ℕ) : bits w (n % 2 ^ w) = bits w n := by
  apply bits_congr
  intro i hi
  rw [Nat.testBit_mod_two_pow]
  simp [hi]

/-- **The groups are determined by the bits.** -/
theorem groups_unique {α : Type} {w : ℕ} {group : α → List Bool} (hlength : ∀ x, (group x).length = w)
    (hinj : ∀ x y, group x = group y → x = y) {r s : List Bool} (hr : r.length < w)
    (hs : s.length < w) {xs : List α} :
    ∀ {ys : List α}, xs.flatMap group ++ r = ys.flatMap group ++ s → xs = ys ∧ r = s := by
  induction xs with
  | nil =>
    rintro (_ | ⟨y, ys⟩) h
    · exact ⟨rfl, h⟩
    · have hlen := congrArg List.length h
      simp only [List.flatMap_nil, List.nil_append, List.flatMap_cons, List.append_assoc,
        List.length_append, hlength] at hlen
      omega
  | cons x xs ih =>
    rintro (_ | ⟨y, ys⟩) h
    · have hlen := congrArg List.length h
      simp only [List.flatMap_nil, List.nil_append, List.flatMap_cons, List.append_assoc,
        List.length_append, hlength] at hlen
      omega
    · rw [List.flatMap_cons, List.flatMap_cons, List.append_assoc, List.append_assoc] at h
      obtain ⟨hhead, htail⟩ := List.append_inj h (by rw [hlength, hlength])
      obtain ⟨rfl, rfl⟩ := ih htail
      exact ⟨by rw [hinj x y hhead], rfl⟩

/-! ## A 32-bit buffer -/

/-- New bits are shifted in from below. -/
theorem bits_shiftIn {k w : ℕ} (hkw : k + w ≤ 32) (hw : w < 32) (buffer value : UInt32)
    (hvalue : value.toNat < 2 ^ w) :
    bits (k + w) ((buffer <<< UInt32.ofNat w) ||| value).toNat =
      bits k buffer.toNat ++ bits w value.toNat := by
  have hshift : (UInt32.ofNat w).toNat % 32 = w := by
    rw [UInt32.toNat_ofNat']
    omega
  rw [bits_add]
  congr 1
  · apply bits_congr
    intro i hi
    have hhigh : value.toNat.testBit (w + i) = false :=
      Nat.testBit_lt_two_pow (hvalue.trans_le (Nat.pow_le_pow_right (by omega) (by omega)))
    simp only [Nat.testBit_shiftRight, UInt32.toNat_or, UInt32.toNat_shiftLeft, hshift,
      Nat.testBit_or, Nat.testBit_mod_two_pow, Nat.testBit_shiftLeft, hhigh]
    simp [show w + i < 32 by omega]
  · apply bits_congr
    intro i hi
    simp only [UInt32.toNat_or, UInt32.toNat_shiftLeft, hshift, Nat.testBit_or,
      Nat.testBit_mod_two_pow, Nat.testBit_shiftLeft]
    simp [show ¬w ≤ i by omega]

/-- The bits above the lowest `k` are shifted out. -/
theorem bits_shiftOut {k w : ℕ} (hk : k < 32) (buffer : UInt32) :
    bits (w + k) buffer.toNat =
      bits w (buffer >>> UInt32.ofNat k).toNat ++ bits k buffer.toNat := by
  have hshift : (UInt32.ofNat k).toNat % 32 = k := by
    rw [UInt32.toNat_ofNat']
    omega
  rw [bits_add, UInt32.toNat_shiftRight, hshift]

end Throned.Library

import Mathlib.Data.List.Induction
import Throned.Library.Netip

/-!
# Big-endian bytes

Numbers as rows of bytes, the highest one first, and the bytes of an address.
-/

set_option autoImplicit false

namespace Throned.Library

abbrev Bytes := List UInt8

/-- The number of big-endian bytes. -/
def beNat : Bytes → ℕ := List.foldl (fun n b => 256 * n + b.toNat) 0

/-- The last `k` bytes of a number. -/
def beBytes : ℕ → ℕ → Bytes
  | 0, _ => []
  | k + 1, n => beBytes k (n / 256) ++ [UInt8.ofNat n]

@[simp] theorem length_beBytes (k n : ℕ) : (beBytes k n).length = k := by
  induction k generalizing n with
  | zero => rfl
  | succ k ih => simp [beBytes, ih]

theorem beNat_append_singleton (bytes : Bytes) (b : UInt8) :
    beNat (bytes ++ [b]) = 256 * beNat bytes + b.toNat := by
  simp [beNat]

theorem beNat_beBytes {k n : ℕ} (h : n < 256 ^ k) : beNat (beBytes k n) = n := by
  induction k generalizing n with
  | zero =>
    rw [Nat.pow_zero] at h
    have hzero : n = 0 := by omega
    rw [hzero]
    rfl
  | succ k ih =>
    rw [Nat.pow_succ] at h
    have hbyte : (UInt8.ofNat n).toNat = n % 256 := UInt8.toNat_ofNat'
    rw [beBytes, beNat_append_singleton, ih (by omega), hbyte]
    omega

theorem beNat_lt (bytes : Bytes) : beNat bytes < 256 ^ bytes.length := by
  induction bytes using List.reverseRecOn with
  | nil => exact Nat.one_pos
  | append_singleton bytes b ih =>
    have hbyte : b.toNat < 256 := b.toNat_lt
    rw [beNat_append_singleton, List.length_append, List.length_singleton, Nat.pow_succ]
    omega

/-- Rows of one length are equal when their numbers are. -/
theorem beNat_inj {a b : Bytes} (hlength : a.length = b.length) (h : beNat a = beNat b) :
    a = b := by
  induction a using List.reverseRecOn generalizing b with
  | nil => exact (List.length_eq_zero_iff.mp hlength.symm).symm
  | append_singleton a x ih =>
    cases b using List.reverseRecOn with
    | nil => exact absurd hlength (by simp)
    | append_singleton b y =>
      rw [beNat_append_singleton, beNat_append_singleton] at h
      have hx : x.toNat < 256 := x.toNat_lt
      have hy : y.toNat < 256 := y.toNat_lt
      have hbyte : x = y := UInt8.toNat_inj.mp (by omega)
      rw [ih (by simpa using hlength) (by omega), hbyte]

/-- `netip.Addr.AsSlice`. -/
def Addr.asSlice (a : Addr) : Bytes := beBytes (a.bitLen / 8) a.toNat

theorem Addr.lt_pow_asSlice (a : Addr) : a.toNat < 256 ^ (a.bitLen / 8) := by
  have hbits : a.bitLen = 8 * (a.bitLen / 8) := by
    cases a with
    | v4 value => simp [bitLen]
    | v6 high low => simp [bitLen]
  have hpow : 2 ^ (8 * (a.bitLen / 8)) = 256 ^ (a.bitLen / 8) := Nat.pow_mul 2 8 _
  rw [← hpow, ← hbits]
  exact a.toNat_lt

@[simp] theorem Addr.length_asSlice (a : Addr) : a.asSlice.length = a.bitLen / 8 :=
  length_beBytes _ _

@[simp] theorem Addr.beNat_asSlice (a : Addr) : beNat a.asSlice = a.toNat :=
  beNat_beBytes a.lt_pow_asSlice

end Throned.Library

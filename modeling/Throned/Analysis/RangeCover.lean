import Throned.Analysis.NetworkText
import Throned.Library.DyadicCover

/-!
# The cover of a range

The loop of `ipListParseCoverRange` computes the greedy cover of its range: the next
block is the largest aligned one that fits, found by counting trailing zeros and by the
bit width of what is left, both over two 64-bit halves.
-/

set_option autoImplicit false

namespace Throned.Scanner

open Throned.Library

namespace IpListParseAddr

/-- The address of a number. -/
def ofNat (v6 : Bool) (n : ℕ) : IpListParseAddr :=
  ⟨v6, BitVec.ofNat 64 (n / 2 ^ 64), BitVec.ofNat 64 n⟩

theorem ofNat_toNat (a : IpListParseAddr) : ofNat a.v6 a.toNat = a := by
  obtain ⟨v6, hi, lo⟩ := a
  have hhi := hi.isLt
  have hlo := lo.isLt
  simp only [ofNat, toNat, mk.injEq, true_and]
  constructor
  · apply BitVec.eq_of_toNat_eq
    rw [BitVec.toNat_ofNat]
    omega
  · apply BitVec.eq_of_toNat_eq
    rw [BitVec.toNat_ofNat]
    omega

theorem toNat_ofNat {v6 : Bool} {n : ℕ} (h : n < 2 ^ 128) : (ofNat v6 n).toNat = n := by
  simp only [ofNat, toNat, BitVec.toNat_ofNat]
  omega

theorem valid_ofNat {v6 : Bool} {n : ℕ} (h : n < 2 ^ if v6 then 128 else 32) :
    (ofNat v6 n).Valid := by
  rintro hv6
  change v6 = false at hv6
  subst hv6
  simp only [Bool.false_eq_true, if_false] at h
  refine ⟨?_, ?_⟩
  · show BitVec.ofNat 64 (n / 2 ^ 64) = 0
    rw [Nat.div_eq_of_lt (by omega)]
    rfl
  · show (BitVec.ofNat 64 n).toNat < 2 ^ 32
    rw [BitVec.toNat_ofNat]
    omega

/-- Addresses of one family are their numbers. -/
theorem eq_of_toNat {a b : IpListParseAddr} (hv6 : a.v6 = b.v6) (h : a.toNat = b.toNat) : a = b := by
  rw [← ofNat_toNat a, ← ofNat_toNat b, hv6, h]

end IpListParseAddr

/-! ## The size of the next block -/

theorem pow_countrZero_dvd (fuel : ℕ) : ∀ n, 2 ^ countrZero fuel n ∣ n := by
  induction fuel with
  | zero => simp [countrZero]
  | succ fuel ih =>
    intro n
    rw [countrZero]
    split
    · simp
    · have heven : n / 2 * 2 = n := by omega
      have hdvd := Nat.mul_dvd_mul_right (ih (n / 2)) 2
      rwa [heven] at hdvd

theorem le_countrZero {fuel : ℕ} :
    ∀ {n j : ℕ}, n ≠ 0 → n < 2 ^ fuel → 2 ^ j ∣ n → j ≤ countrZero fuel n := by
  induction fuel with
  | zero =>
    intro n j hne hlt _
    rw [Nat.pow_zero] at hlt
    omega
  | succ fuel ih =>
    intro n j hne hlt hdvd
    cases j with
    | zero => exact Nat.zero_le _
    | succ j =>
      obtain ⟨c, hc⟩ := hdvd
      rw [Nat.pow_succ, Nat.mul_right_comm] at hc
      rw [Nat.pow_succ] at hlt
      rw [countrZero, if_neg (by omega)]
      have hhalf : n / 2 = 2 ^ j * c := by omega
      exact Nat.succ_le_succ (ih (by omega) (by omega) ⟨c, hhalf⟩)

/-- The alignment of an address, over its two halves. -/
def alignment (a : IpListParseAddr) : ℕ :=
  if a.lo ≠ 0 then countrZero 64 a.lo.toNat
  else if a.hi ≠ 0 then 64 + countrZero 64 a.hi.toNat else 128

theorem toNat_ne_zero {x : Word64} (h : x ≠ 0) : x.toNat ≠ 0 := fun hx =>
  h (BitVec.eq_of_toNat_eq (by rw [hx]; rfl))

theorem le_alignment_iff {a : IpListParseAddr} {j : ℕ} (hj : j ≤ 128) :
    j ≤ alignment a ↔ 2 ^ j ∣ a.toNat := by
  obtain ⟨v6, hi, lo⟩ := a
  have hhi := hi.isLt
  have hlo := lo.isLt
  simp only [alignment, IpListParseAddr.toNat]
  by_cases hzero : lo = 0
  · subst hzero
    rw [if_neg (by simp), show (0 : Word64).toNat = 0 from rfl, Nat.add_zero]
    by_cases hhigh : hi = 0
    · subst hhigh
      simp [hj]
    · rw [if_pos hhigh]
      rcases Nat.le_total j 64 with hle | hge
      · have : 2 ^ j ∣ hi.toNat * 2 ^ 64 := Dvd.dvd.mul_left (Nat.pow_dvd_pow 2 hle) _
        simp only [this, iff_true]
        omega
      · obtain ⟨i, rfl⟩ : ∃ i, j = 64 + i := ⟨j - 64, by omega⟩
        rw [Nat.pow_add, Nat.mul_comm (2 ^ 64), Nat.mul_dvd_mul_iff_right (Nat.two_pow_pos 64)]
        refine ⟨fun h => ?_, fun h => ?_⟩
        · exact dvd_trans (Nat.pow_dvd_pow 2 (by omega)) (pow_countrZero_dvd 64 _)
        · have := le_countrZero (toNat_ne_zero hhigh) hhi h
          omega
  · rw [if_pos hzero]
    have hne := toNat_ne_zero hzero
    have hcount : 2 ^ countrZero 64 lo.toNat ∣ lo.toNat := pow_countrZero_dvd 64 _
    have hlt : countrZero 64 lo.toNat < 64 := by
      have := Nat.le_of_dvd (Nat.pos_of_ne_zero hne) hcount
      exact (Nat.pow_lt_pow_iff_right (by omega)).mp (lt_of_le_of_lt this hlo)
    have hword : ∀ {j}, j ≤ 64 → (2 ^ j ∣ hi.toNat * 2 ^ 64 + lo.toNat ↔ 2 ^ j ∣ lo.toNat) :=
      fun hj => (Nat.dvd_add_right (Dvd.dvd.mul_left (Nat.pow_dvd_pow 2 hj) _))
    constructor
    · intro h
      rw [hword (by omega)]
      exact dvd_trans (Nat.pow_dvd_pow 2 h) hcount
    · intro h
      rcases Nat.le_total j 64 with hle | hge
      · exact le_countrZero hne hlo ((hword hle).mp h)
      · have h64 := (hword (Nat.le_refl 64)).mp (dvd_trans (Nat.pow_dvd_pow 2 hge) h)
        have := Nat.le_of_dvd (Nat.pos_of_ne_zero hne) h64
        omega

/-- The number of addresses from `first` to `last`, in two halves. -/
def rangeSize (first last : IpListParseAddr) : Word64 × Word64 :=
  let diffHi := last.hi - first.hi - (if last.lo < first.lo then 1 else 0)
  let sizeLo := last.lo - first.lo + 1
  (diffHi + (if sizeLo = 0 then 1 else 0), sizeLo)

theorem toNat_rangeSize {first last : IpListParseAddr} (hle : first.toNat ≤ last.toNat)
    (hsize : last.toNat - first.toNat + 1 < 2 ^ 128) :
    (rangeSize first last).1.toNat * 2 ^ 64 + (rangeSize first last).2.toNat =
      last.toNat - first.toNat + 1 := by
  obtain ⟨v6, hi, lo⟩ := first
  obtain ⟨v6', hi', lo'⟩ := last
  have h1 := hi.isLt
  have h2 := lo.isLt
  have h3 := hi'.isLt
  have h4 := lo'.isLt
  have hone : (1 : Word64).toNat = 1 := rfl
  have hzero : (0 : Word64).toNat = 0 := rfl
  simp only [IpListParseAddr.toNat] at hle hsize ⊢
  simp only [rangeSize]
  have hcarry : lo' - lo + 1 = 0 ↔ (lo' - lo + 1).toNat = 0 := by
    rw [← BitVec.toNat_inj, hzero]
  have hborrow : lo' < lo ↔ lo'.toNat < lo.toNat := Iff.rfl
  simp only [hcarry, hborrow]
  have hlow : (lo' - lo + 1).toNat = (2 ^ 64 - lo.toNat + lo'.toNat + 1) % 2 ^ 64 := by
    rw [BitVec.toNat_add, BitVec.toNat_sub, hone, Nat.mod_add_mod]
  rw [hlow]
  by_cases hb : lo'.toNat < lo.toNat
  · rw [if_pos hb]
    by_cases hc : (2 ^ 64 - lo.toNat + lo'.toNat + 1) % 2 ^ 64 = 0
    · rw [if_pos hc, BitVec.toNat_add, BitVec.toNat_sub, BitVec.toNat_sub, hone]
      omega
    · rw [if_neg hc, BitVec.toNat_add, BitVec.toNat_sub, BitVec.toNat_sub, hone, hzero]
      omega
  · rw [if_neg hb]
    by_cases hc : (2 ^ 64 - lo.toNat + lo'.toNat + 1) % 2 ^ 64 = 0
    · rw [if_pos hc, BitVec.toNat_add, BitVec.toNat_sub, BitVec.toNat_sub, hone, hzero]
      omega
    · rw [if_neg hc, BitVec.toNat_add, BitVec.toNat_sub, BitVec.toNat_sub, hzero]
      omega

/-- The exponent of the largest power of two in a two-word number. -/
def sizeExponent (size : Word64 × Word64) : ℕ :=
  if size.1 ≠ 0 then 64 + bitWidth size.1 - 1 else bitWidth size.2 - 1

theorem le_sizeExponent_iff {size : Word64 × Word64} {n j : ℕ}
    (hn : size.1.toNat * 2 ^ 64 + size.2.toNat = n) (hpos : 0 < n) :
    j ≤ sizeExponent size ↔ 2 ^ j ≤ n := by
  obtain ⟨hi, lo⟩ := size
  have hlo := lo.isLt
  simp only at hn
  simp only [sizeExponent, bitWidth]
  by_cases hhi : hi = 0
  · subst hhi
    rw [show (0 : Word64).toNat = 0 from rfl, Nat.zero_mul, Nat.zero_add] at hn
    have hne : lo ≠ 0 := by
      rintro rfl
      rw [show (0 : Word64).toNat = 0 from rfl] at hn
      omega
    rw [if_neg (by simp), if_neg hne, Nat.add_sub_cancel, hn, Nat.le_log2 (by omega)]
  · have hne := toNat_ne_zero hhi
    rw [if_pos hhi, if_neg hhi, ← Nat.add_assoc, Nat.add_sub_cancel]
    rcases Nat.le_total j 64 with hle | hge
    · have : 2 ^ j ≤ 2 ^ 64 := Nat.pow_le_pow_right (by omega) hle
      have : j ≤ 64 + hi.toNat.log2 := by omega
      simp only [this, true_iff]
      omega
    · obtain ⟨i, rfl⟩ : ∃ i, j = 64 + i := ⟨j - 64, by omega⟩
      rw [Nat.add_le_add_iff_left, Nat.le_log2 hne, Nat.pow_add]
      have hpow := Nat.two_pow_pos i
      generalize 2 ^ i = p at hpow ⊢
      omega

theorem coverBits_eq (bits : ℕ) (first last : IpListParseAddr) :
    coverBits bits first last =
      min (min (alignment first) bits) (sizeExponent (rangeSize first last)) := rfl

/-- **The next block is the largest aligned one that fits.** -/
theorem largestBlock_coverBits {bits : ℕ} {first last : IpListParseAddr} (hbits : bits ≤ 128)
    (hle : first.toNat ≤ last.toNat) (hsize : last.toNat - first.toNat + 1 < 2 ^ 128) :
    LargestBlock bits first.toNat last.toNat (coverBits bits first last) := by
  have hfit : ∀ j, j ≤ sizeExponent (rangeSize first last) ↔
      2 ^ j ≤ last.toNat - first.toNat + 1 := fun j =>
    le_sizeExponent_iff (toNat_rangeSize hle hsize) (by omega)
  have hbits' : coverBits bits first last ≤ bits :=
    le_trans (min_le_left _ _) (min_le_right _ _)
  rw [coverBits_eq] at hbits' ⊢
  refine ⟨hbits', ?_, ?_, ?_⟩
  · exact (le_alignment_iff (by omega)).mp (le_trans (min_le_left _ _) (min_le_left _ _))
  · have := (hfit _).mp (min_le_right (min (alignment first) bits) _)
    omega
  · intro j hj hdvd hend
    exact le_min (le_min ((le_alignment_iff (by omega)).mpr hdvd) hj) ((hfit j).mpr (by omega))

/-! ## The end of a block -/

/-- Filling the low bits of a multiple of `2 ^ k`. -/
theorem toNat_or_low {x : Word64} {k : ℕ} (hk : k < 64) (hx : 2 ^ k ∣ x.toNat) :
    (x ||| (((1 : Word64) <<< k) - 1)).toNat = x.toNat + (2 ^ k - 1) := by
  have hpow : 2 ^ k < 2 ^ 64 := Nat.pow_lt_pow_right (by omega) hk
  have hpos := Nat.two_pow_pos k
  have hmask : (((1 : Word64) <<< k) - 1).toNat = 2 ^ k - 1 := by
    rw [BitVec.toNat_sub, BitVec.toNat_shiftLeft, show (1 : Word64).toNat = 1 from rfl,
      Nat.one_shiftLeft, Nat.mod_eq_of_lt hpow]
    omega
  obtain ⟨c, hc⟩ := hx
  rw [BitVec.toNat_or, hmask, hc, ← Nat.two_pow_add_eq_or_of_lt (by omega)]

theorem toNat_coverEnd {a : IpListParseAddr} {k : ℕ} (hk : k < 128) (ha : 2 ^ k ∣ a.toNat) :
    (coverEnd a k).toNat = a.toNat + (2 ^ k - 1) := by
  obtain ⟨v6, hi, lo⟩ := a
  have hlo := lo.isLt
  simp only [IpListParseAddr.toNat] at ha ⊢
  by_cases hk64 : k ≥ 64
  · -- the low half is clear, so the block is made of whole low halves
    have hlow : 2 ^ 64 ∣ lo.toNat := by
      have := dvd_trans (Nat.pow_dvd_pow 2 hk64) ha
      exact (Nat.dvd_add_right (Nat.dvd_mul_left _ _)).mp this
    have hzero : lo.toNat = 0 := Nat.eq_zero_of_dvd_of_lt hlow hlo
    obtain ⟨i, rfl⟩ : ∃ i, k = 64 + i := ⟨k - 64, by omega⟩
    rw [hzero, Nat.add_zero, Nat.pow_add, Nat.mul_comm (2 ^ 64),
      Nat.mul_dvd_mul_iff_right (Nat.two_pow_pos 64)] at ha
    have hones : (BitVec.allOnes 64).toNat = 2 ^ 64 - 1 := BitVec.toNat_allOnes
    have hpos := Nat.two_pow_pos i
    simp only [coverEnd, if_pos hk64, hones, hzero, Nat.pow_add, Nat.add_sub_cancel_left]
    by_cases hi0 : i = 0
    · subst hi0
      simp
    · rw [if_pos (by omega), toNat_or_low (by omega) ha]
      generalize 2 ^ i = p at hpos
      omega
  · by_cases hk0 : k = 0
    · subst hk0
      simp [coverEnd]
    · have hlow : 2 ^ k ∣ lo.toNat :=
        (Nat.dvd_add_right (Dvd.dvd.mul_left (Nat.pow_dvd_pow 2 (by omega)) _)).mp ha
      simp only [coverEnd, if_neg hk64, if_pos (Nat.pos_of_ne_zero hk0)]
      rw [toNat_or_low (by omega) hlow, Nat.add_assoc]

theorem v6_coverEnd (a : IpListParseAddr) (k : ℕ) : (coverEnd a k).v6 = a.v6 := by
  unfold coverEnd
  split
  · rfl
  · split <;> rfl

/-- The address after `a`. -/
def nextAddr (a : IpListParseAddr) : IpListParseAddr :=
  let lo := a.lo + 1
  { a with hi := a.hi + (if lo = 0 then 1 else 0), lo }

theorem toNat_nextAddr {a : IpListParseAddr} (h : a.toNat + 1 < 2 ^ 128) :
    (nextAddr a).toNat = a.toNat + 1 := by
  obtain ⟨v6, hi, lo⟩ := a
  have hhi := hi.isLt
  have hlo := lo.isLt
  have hone : (1 : Word64).toNat = 1 := rfl
  simp only [IpListParseAddr.toNat] at h ⊢
  have hcarry : lo + 1 = 0 ↔ (lo + 1).toNat = 0 := by
    rw [← BitVec.toNat_inj, show (0 : Word64).toNat = 0 from rfl]
  simp only [nextAddr, hcarry, BitVec.toNat_add, hone]
  split
  · rw [hone]
    omega
  · rw [show (0 : Word64).toNat = 0 from rfl]
    omega

/-! ## The loop -/

/-- The text of a block. -/
def blockCidr (v6 : Bool) (block : ℕ × ℕ) : Text :=
  ipListParseCidr (.ofNat v6 block.1) ((if v6 then 128 else 32) - block.2)

theorem coverLoop_succ (bits : ℕ) (last first : IpListParseAddr) (fuel : ℕ) :
    coverLoop bits last (fuel + 1) first =
      if (coverEnd first (coverBits bits first last)).toNat = last.toNat then
        some [ipListParseCidr first (bits - coverBits bits first last)]
      else (coverLoop bits last fuel
        { nextAddr (coverEnd first (coverBits bits first last)) with v6 := first.v6 }).map
          (ipListParseCidr first (bits - coverBits bits first last) :: ·) := by
  have hsame : ∀ a b : IpListParseAddr, (a.hi = b.hi ∧ a.lo = b.lo) ↔ a.toNat = b.toNat := by
    intro a b
    have h1 := a.lo.isLt
    have h2 := b.lo.isLt
    rw [← BitVec.toNat_inj, ← BitVec.toNat_inj]
    simp only [IpListParseAddr.toNat]
    omega
  rw [coverLoop]
  simp only [hsame]
  rfl

/-- **The loop writes the greedy cover**, with a round for every block. -/
theorem coverLoop_spec {v6 : Bool} {last : IpListParseAddr} (hlast : last.Valid) :
    ∀ {fuel : ℕ} {first : IpListParseAddr}, first.v6 = v6 → first.toNat ≤ last.toNat →
      last.toNat - first.toNat + 1 < 2 ^ (if v6 then 128 else 32) →
      last.toNat - first.toNat < fuel →
      ∃ blocks, Cover (if v6 then 128 else 32) last.toNat first.toNat blocks ∧
        coverLoop (if v6 then 128 else 32) last fuel first = some (blocks.map (blockCidr v6)) := by
  have hbits : (if v6 then 128 else 32) ≤ 128 := by
    split <;> omega
  have hlast128 : last.toNat < 2 ^ 128 := by
    have := IpListParseAddr.toNat_lt hlast
    unfold ipListParseBits at this
    split at this <;> omega
  intro fuel
  induction fuel with
  | zero => exact fun _ _ _ h => absurd h (Nat.not_lt_zero _)
  | succ fuel ih =>
    intro first hfirst hle hsize hfuel
    have hsize128 : last.toNat - first.toNat + 1 < 2 ^ 128 :=
      lt_of_lt_of_le hsize (Nat.pow_le_pow_right (by omega) hbits)
    have hblock := largestBlock_coverBits hbits hle hsize128
    rw [coverLoop_succ]
    revert hblock
    generalize coverBits (if v6 then 128 else 32) first last = k
    intro hblock
    have hpos := Nat.two_pow_pos k
    have hk : k < 128 := by
      have : 2 ^ k < 2 ^ 128 := by
        have := hblock.fits
        omega
      exact (Nat.pow_lt_pow_iff_right (by omega)).mp this
    have hend := toNat_coverEnd hk hblock.aligned
    have hcidr : ipListParseCidr first ((if v6 then 128 else 32) - k) =
        blockCidr v6 (first.toNat, k) := by
      unfold blockCidr
      rw [← hfirst, IpListParseAddr.ofNat_toNat]
    have hfits := hblock.fits
    by_cases heq : (coverEnd first k).toNat = last.toNat
    · rw [if_pos heq, hcidr]
      exact ⟨[(first.toNat, k)], .last hblock (by omega), rfl⟩
    · rw [if_neg heq, hcidr]
      have hnext := toNat_nextAddr (a := coverEnd first k) (by omega)
      obtain ⟨blocks, hcover, hloop⟩ := @ih { nextAddr (coverEnd first k) with v6 := first.v6 } hfirst
        (by change (nextAddr (coverEnd first k)).toNat ≤ _; omega)
        (by change last.toNat - (nextAddr (coverEnd first k)).toNat + 1 < _; omega)
        (by change last.toNat - (nextAddr (coverEnd first k)).toNat < _; omega)
      change Cover _ _ (nextAddr (coverEnd first k)).toNat blocks at hcover
      have hstart : (nextAddr (coverEnd first k)).toNat = first.toNat + 2 ^ k := by omega
      rw [hstart] at hcover
      exact ⟨(first.toNat, k) :: blocks, .cons hblock hcover, by rw [hloop]; rfl⟩

/-- **A range that is not the whole space is covered.** -/
theorem ipListParseCoverRange_spec {first last : IpListParseAddr} (hlast : last.Valid)
    (hv6 : last.v6 = first.v6) (hle : first.toNat ≤ last.toNat)
    {cidrs : List Text} (h : ipListParseCoverRange first last = some cidrs) :
    last.toNat - first.toNat + 1 < 2 ^ ipListParseBits first ∧
      ∃ blocks, Cover (ipListParseBits first) last.toNat first.toNat blocks ∧
        cidrs = blocks.map (blockCidr first.v6) := by
  have hsize : last.toNat - first.toNat + 1 < 2 ^ ipListParseBits first := by
    by_contra hge
    have hlastlt := IpListParseAddr.toNat_lt hlast
    rw [show ipListParseBits last = ipListParseBits first by unfold ipListParseBits; rw [hv6]]
      at hlastlt
    have hzero : first.toNat = 0 := by omega
    have htop : last.toNat = 2 ^ ipListParseBits first - 1 := by omega
    have hhalves : ∀ {a b : IpListParseAddr}, a.toNat = b.toNat → a.hi = b.hi ∧ a.lo = b.lo := by
      intro a b hab
      have h1 := a.lo.isLt
      have h2 := b.lo.isLt
      rw [← BitVec.toNat_inj, ← BitVec.toNat_inj]
      simp only [IpListParseAddr.toNat] at hab
      omega
    have hlow := hhalves (a := first) (b := ⟨false, 0, 0⟩) hzero
    rw [ipListParseCoverRange] at h
    simp only at h hlow
    cases hfam : first.v6 with
    | false =>
      simp only [ipListParseBits, hfam, Bool.false_eq_true, if_false] at htop h
      have hhigh := hhalves (a := last) (b := ⟨false, 0, 0xffffffff⟩) htop
      rw [if_pos ⟨hlow.1, hlow.2, hhigh.1, hhigh.2⟩] at h
      cases h
    | true =>
      simp only [ipListParseBits, hfam, if_true] at htop h
      have hhigh := hhalves (a := last) (b := ⟨false, BitVec.allOnes 64, BitVec.allOnes 64⟩) htop
      rw [if_pos ⟨hlow.1, hlow.2, hhigh.1, hhigh.2⟩] at h
      cases h
  refine ⟨hsize, ?_⟩
  obtain ⟨blocks, hcover, hloop⟩ := coverLoop_spec hlast rfl hle hsize
    (Nat.lt_succ_self (last.toNat - first.toNat))
  refine ⟨blocks, hcover, ?_⟩
  simp only [ipListParseCoverRange, Option.ite_none_left_eq_some] at h
  exact (Option.some.inj (hloop.symm.trans h.2)).symm

end Throned.Scanner

import Mathlib.Data.Nat.Bitwise
import Mathlib.Data.Nat.Find
import Mathlib.Tactic.Push
import Throned.Library.Netip

/-!
# Addresses bit by bit

The bits of an address from the highest one on.  A prefix fixes its first bits; of two prefixes
one covers the other or they are disjoint; and what a prefix holds beyond one it covers is cut
into the siblings along the way down.
-/

set_option autoImplicit false

namespace Throned.Library

namespace Addr

/-- Bit `i` of an address, counted from the highest. -/
def bit (a : Addr) (i : ℕ) : Bool := a.toNat.testBit (a.bitLen - 1 - i)

/-- The address of a family with a number. -/
def ofNat (is4 : Bool) (n : ℕ) : Addr :=
  if is4 then .v4 (BitVec.ofNat 32 n) else .v6 (BitVec.ofNat 64 (n / 2 ^ 64)) (BitVec.ofNat 64 n)

theorem bitLen_pos (a : Addr) : 0 < a.bitLen := by
  cases a with
  | v4 value => exact Nat.succ_pos _
  | v6 high low => exact Nat.succ_pos _

@[simp] theorem is4_ofNat (is4 : Bool) (n : ℕ) : (ofNat is4 n).is4 = is4 := by
  cases is4 with
  | true => rfl
  | false => rfl

theorem toNat_ofNat {is4 : Bool} {n : ℕ} (h : n < 2 ^ (ofNat is4 n).bitLen) :
    (ofNat is4 n).toNat = n := by
  cases is4 with
  | true =>
    show (BitVec.ofNat 32 n).toNat = n
    rw [BitVec.toNat_ofNat]
    exact Nat.mod_eq_of_lt h
  | false =>
    have hlt : n < 2 ^ 128 := h
    show (BitVec.ofNat 64 (n / 2 ^ 64)).toNat * 2 ^ 64 + (BitVec.ofNat 64 n).toNat = n
    rw [BitVec.toNat_ofNat, BitVec.toNat_ofNat,
      Nat.mod_eq_of_lt (Nat.div_lt_of_lt_mul (by rw [← Nat.pow_add]; exact hlt))]
    exact Nat.div_add_mod' n (2 ^ 64)

/-- The address of a family with given bits. -/
theorem exists_bits (a : Addr) (f : ℕ → Bool) :
    ∃ b : Addr, b.is4 = a.is4 ∧ ∀ i < a.bitLen, b.bit i = f i := by
  have hn : (Nat.ofBits fun j : Fin a.bitLen => f (a.bitLen - 1 - j)) < 2 ^ a.bitLen :=
    Nat.ofBits_lt_two_pow _
  generalize hnum : Nat.ofBits (fun j : Fin a.bitLen => f (a.bitLen - 1 - j)) = n at hn
  have hlen : (ofNat a.is4 n).bitLen = a.bitLen := bitLen_congr (is4_ofNat _ _)
  refine ⟨ofNat a.is4 n, is4_ofNat _ _, fun i hi => ?_⟩
  unfold bit
  rw [hlen, toNat_ofNat (by rw [hlen]; exact hn), ← hnum, Nat.testBit_ofBits_lt _ _ (by omega)]
  congr 1
  simp only
  omega

theorem eq_of_bits {a b : Addr} (hfamily : a.is4 = b.is4) (h : ∀ i < a.bitLen, a.bit i = b.bit i) :
    a = b := by
  have hlen := bitLen_congr hfamily
  apply eq_of_toNat_eq hfamily
  apply Nat.eq_of_testBit_eq
  intro j
  by_cases hj : j < a.bitLen
  · have hbit := h (a.bitLen - 1 - j) (by omega)
    unfold bit at hbit
    rw [← hlen, show a.bitLen - 1 - (a.bitLen - 1 - j) = j by omega] at hbit
    exact hbit
  · have hwide : 2 ^ a.bitLen ≤ 2 ^ j := Nat.pow_le_pow_right (by omega) (by omega)
    rw [Nat.testBit_lt_two_pow (a.toNat_lt.trans_le hwide),
      Nat.testBit_lt_two_pow ((hlen ▸ b.toNat_lt).trans_le hwide)]

end Addr

namespace Prefix

variable {p q : Prefix} {a : Addr}

/-- **A prefix holds the addresses that start with its bits.** -/
theorem mem_hosts_iff_bit :
    a ∈ p.hosts ↔ a.is4 = p.addr.is4 ∧ ∀ i < p.bits, a.bit i = p.addr.bit i := by
  rw [mem_hosts]
  refine and_congr_right fun hfamily => ?_
  have hlen := Addr.bitLen_congr hfamily
  have hbits := p.bits_le
  constructor
  · intro h i hi
    have hbit := congrArg (fun n => n.testBit (p.bits - 1 - i)) h
    simp only [Nat.testBit_div_two_pow, hostBits] at hbit
    unfold Addr.bit
    rw [hlen]
    rw [show p.bits - 1 - i + (p.addr.bitLen - p.bits) = p.addr.bitLen - 1 - i by omega] at hbit
    exact hbit
  · intro h
    apply Nat.eq_of_testBit_eq
    intro j
    rw [Nat.testBit_div_two_pow, Nat.testBit_div_two_pow]
    unfold hostBits
    by_cases hj : j < p.bits
    · have hbit := h (p.bits - 1 - j) (by omega)
      unfold Addr.bit at hbit
      rw [hlen, show p.addr.bitLen - 1 - (p.bits - 1 - j) = j + (p.addr.bitLen - p.bits) by omega]
        at hbit
      exact hbit
    · have hwide : 2 ^ p.addr.bitLen ≤ 2 ^ (j + (p.addr.bitLen - p.bits)) :=
        Nat.pow_le_pow_right (by omega) (by omega)
      rw [Nat.testBit_lt_two_pow ((hlen ▸ a.toNat_lt).trans_le hwide),
        Nat.testBit_lt_two_pow (p.addr.toNat_lt.trans_le hwide)]

theorem addr_mem_hosts (p : Prefix) : p.addr ∈ p.hosts := ⟨rfl, rfl⟩

/-- The first prefix is no longer than the second and agrees with it. -/
structure Covers (p q : Prefix) : Prop where
  family : p.addr.is4 = q.addr.is4
  bits_le : p.bits ≤ q.bits
  agree : ∀ i < p.bits, p.addr.bit i = q.addr.bit i

/-- **To cover is to hold all the addresses.** -/
theorem covers_iff_subset : p.Covers q ↔ q.hosts ⊆ p.hosts := by
  constructor
  · intro h a ha
    rw [mem_hosts_iff_bit] at ha ⊢
    exact ⟨ha.1.trans h.family.symm, fun i hi =>
      (ha.2 i (hi.trans_le h.bits_le)).trans (h.agree i hi).symm⟩
  · intro h
    have hown := mem_hosts_iff_bit.mp (h q.addr_mem_hosts)
    refine ⟨hown.1.symm, ?_, fun i hi => (hown.2 i hi).symm⟩
    by_contra hlong
    push Not at hlong
    -- an address that leaves the longer prefix at its first bit beyond the shorter one
    obtain ⟨a, hfamily, hbits⟩ :=
      q.addr.exists_bits fun i => if i = q.bits then !p.addr.bit i else q.addr.bit i
    have hp := p.bits_le
    have hlen := Addr.bitLen_congr hown.1
    have ha : a ∈ q.hosts := by
      rw [mem_hosts_iff_bit]
      refine ⟨hfamily, fun i hi => ?_⟩
      rw [hbits i (by omega), if_neg (by omega)]
    have hbit := (mem_hosts_iff_bit.mp (h ha)).2 q.bits hlong
    rw [hbits q.bits (by omega), if_pos rfl] at hbit
    cases hpq : p.addr.bit q.bits <;> simp [hpq] at hbit

/-- Of two prefixes one covers the other, or no address is in both. -/
theorem disjoint_of_not_covers (hpq : ¬p.Covers q) (hqp : ¬q.Covers p) : p.Disjoint q := by
  intro a hap haq
  rw [mem_hosts_iff_bit] at hap haq
  have hfamily := hap.1.symm.trans haq.1
  rcases Nat.le_total p.bits q.bits with hle | hle
  · exact hpq ⟨hfamily, hle, fun i hi => (hap.2 i hi).symm.trans (haq.2 i (hi.trans_le hle))⟩
  · exact hqp ⟨hfamily.symm, hle, fun i hi => (haq.2 i hi).symm.trans (hap.2 i (hi.trans_le hle))⟩

theorem not_disjoint_of_covers (h : p.Covers q) : ¬p.Disjoint q := fun hdisjoint =>
  hdisjoint q.addr (covers_iff_subset.mp h q.addr_mem_hosts) q.addr_mem_hosts

/-- A prefix without host bits is masked. -/
theorem masked_eq_self (h : ∀ i, p.bits ≤ i → i < p.addr.bitLen → p.addr.bit i = false) :
    p.masked = p := by
  have hbits := p.bits_le
  refine Prefix.ext (Addr.eq_of_toNat_eq p.is4_masked ?_) rfl
  show p.maskedAddr.toNat = p.addr.toNat
  rw [toNat_maskedAddr]
  refine Nat.div_mul_cancel (Nat.dvd_of_mod_eq_zero ?_)
  apply Nat.eq_of_testBit_eq
  intro j
  rw [Nat.testBit_mod_two_pow, Nat.zero_testBit]
  by_cases hj : j < p.hostBits
  · have hlow := h (p.addr.bitLen - 1 - j) (by unfold hostBits at hj; omega)
      (by have := p.addr.bitLen_pos; omega)
    unfold Addr.bit at hlow
    unfold hostBits at hj
    rw [show p.addr.bitLen - 1 - (p.addr.bitLen - 1 - j) = j by omega] at hlow
    rw [hlow, Bool.and_false]
  · rw [decide_eq_false hj, Bool.false_and]

/-! ## Siblings -/

/-- The prefix of length `k` that leaves another one at its last bit. -/
structure IsSibling (cut s : Prefix) (k : ℕ) : Prop where
  bits_eq : s.bits = k
  pos : 0 < k
  le : k ≤ cut.bits
  family : s.addr.is4 = cut.addr.is4
  above : ∀ i, i + 1 < k → s.addr.bit i = cut.addr.bit i
  flipped : s.addr.bit (k - 1) = !cut.addr.bit (k - 1)
  below : ∀ i, k ≤ i → i < s.addr.bitLen → s.addr.bit i = false

variable {cut : Prefix} {s : Prefix} {k : ℕ}

theorem IsSibling.mem_hosts_iff (h : IsSibling cut s k) :
    a ∈ s.hosts ↔ a.is4 = cut.addr.is4 ∧ (∀ i, i + 1 < k → a.bit i = cut.addr.bit i) ∧
      a.bit (k - 1) = !cut.addr.bit (k - 1) := by
  have hpos := h.pos
  rw [mem_hosts_iff_bit, h.family, h.bits_eq]
  refine and_congr_right fun _ => ⟨fun hall => ⟨fun i hi => ?_, ?_⟩, fun hall i hi => ?_⟩
  · rw [hall i (by omega), h.above i hi]
  · rw [hall (k - 1) (by omega), h.flipped]
  · by_cases hlast : i + 1 < k
    · rw [hall.1 i hlast, h.above i hlast]
    · rw [show i = k - 1 by omega, hall.2, h.flipped]

theorem IsSibling.masked_eq (h : IsSibling cut s k) : s.masked = s :=
  masked_eq_self fun i hi hlen => h.below i (h.bits_eq ▸ hi) hlen

theorem IsSibling.disjoint {t : Prefix} {j : ℕ} (h : IsSibling cut s k) (ht : IsSibling cut t j)
    (hne : k ≠ j) : s.Disjoint t := by
  have key : ∀ {s t : Prefix} {k j : ℕ}, IsSibling cut s k → IsSibling cut t j → k < j →
      s.Disjoint t := by
    intro s t k j hs ht hlt a has hat
    have hpos := hs.pos
    have hflip := (hs.mem_hosts_iff.mp has).2.2
    have hsame := (ht.mem_hosts_iff.mp hat).2.1 (k - 1) (by omega)
    rw [hsame] at hflip
    cases hcut : cut.addr.bit (k - 1) <;> simp [hcut] at hflip
  rcases Nat.lt_or_gt_of_ne hne with hlt | hgt
  · exact key h ht hlt
  · exact fun a has hat => key ht h hgt a hat has

/-- **What a prefix holds beyond one it covers is what the siblings hold** between the two
lengths. -/
theorem mem_diff_iff {range : Prefix} (hcovers : range.Covers cut) {sibling : ℕ → Prefix}
    (hsibling : ∀ k, range.bits < k → k ≤ cut.bits → IsSibling cut (sibling k) k) :
    a ∈ range.hosts ∧ a ∉ cut.hosts ↔
      ∃ k, range.bits < k ∧ k ≤ cut.bits ∧ a ∈ (sibling k).hosts := by
  constructor
  · rintro ⟨hrange, hcut⟩
    rw [mem_hosts_iff_bit] at hrange
    have hfamily := hrange.1.trans hcovers.family
    have hdiffer : ∃ i, i < cut.bits ∧ a.bit i ≠ cut.addr.bit i := by
      by_contra hnone
      push Not at hnone
      exact hcut (mem_hosts_iff_bit.mpr ⟨hfamily, hnone⟩)
    -- the first bit at which the address leaves the smaller prefix
    obtain ⟨hlt, hne⟩ := Nat.find_spec hdiffer
    have hfirst : ∀ j < Nat.find hdiffer, a.bit j = cut.addr.bit j := by
      intro j hj
      by_contra hbit
      exact Nat.find_min hdiffer hj ⟨hj.trans hlt, hbit⟩
    have hbeyond : range.bits ≤ Nat.find hdiffer := by
      by_contra hinside
      push Not at hinside
      exact hne ((hrange.2 _ hinside).trans (hcovers.agree _ hinside))
    refine ⟨Nat.find hdiffer + 1, by omega, by omega, ?_⟩
    rw [(hsibling _ (by omega) (by omega)).mem_hosts_iff, Nat.add_sub_cancel]
    refine ⟨hfamily, fun i hi => hfirst i (by omega), ?_⟩
    cases hbit : a.bit (Nat.find hdiffer) <;> cases hcutbit : cut.addr.bit (Nat.find hdiffer) <;>
      simp_all
  · rintro ⟨k, hlt, hle, hmem⟩
    obtain ⟨hfamily, habove, hflip⟩ := (hsibling k hlt hle).mem_hosts_iff.mp hmem
    constructor
    · rw [mem_hosts_iff_bit]
      refine ⟨hfamily.trans hcovers.family.symm, fun i hi => ?_⟩
      rw [habove i (by omega), hcovers.agree i hi]
    · intro hcut
      rw [(mem_hosts_iff_bit.mp hcut).2 (k - 1) (by omega)] at hflip
      cases hbit : cut.addr.bit (k - 1) <;> simp [hbit] at hflip

end Prefix

end Throned.Library

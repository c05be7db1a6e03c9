import Mathlib.Algebra.Group.Nat.Defs
import Mathlib.Data.Set.Basic

/-!
# Internet addresses and prefixes

The value types of Go's `net/netip` without zones: an address is an IPv4 word or the
two halves of an IPv6 word, a prefix an address with a length that fits its family.
`Prefix.hosts` is the set of addresses a prefix stands for; `masked_hosts` says that
clearing the host bits does not change it, and `mem_hosts_masked` reads membership of a
masked prefix off as an offset from its base.
-/

set_option autoImplicit false

namespace Throned.Library

/-- A 64-bit machine word. -/
abbrev Word64 := BitVec 64

/-- `netip.Addr` without a zone. -/
inductive Addr where
  | v4 (value : BitVec 32)
  | v6 (high low : Word64)
  deriving DecidableEq, Repr

namespace Addr

def is4 : Addr → Bool
  | v4 _ => true
  | v6 _ _ => false

/-- IPv4-mapped IPv6 addresses count as IPv6. -/
def is6 (a : Addr) : Bool := !a.is4

def bitLen : Addr → ℕ
  | v4 _ => 32
  | v6 _ _ => 128

theorem bitLen_le (a : Addr) : a.bitLen ≤ a.bitLen := Nat.le_refl _

/-- The address as a number of `bitLen` bits. -/
def toNat : Addr → ℕ
  | v4 value => value.toNat
  | v6 high low => high.toNat * 2 ^ 64 + low.toNat

/-- `::ffff:0:0/96`, the IPv6 range that stands for the IPv4 addresses. -/
def is4In6 : Addr → Bool
  | v4 _ => false
  | v6 high low => high == 0 && low >>> 32 == 0xffff

/-- An IPv4-mapped IPv6 address becomes its IPv4 address; others are kept. -/
def unmap : Addr → Addr
  | v4 value => v4 value
  | v6 high low => if is4In6 (v6 high low) then v4 (low.setWidth 32) else v6 high low

theorem unmap_unmap (a : Addr) : a.unmap.unmap = a.unmap := by
  cases a with
  | v4 value => rfl
  | v6 high low =>
    rw [unmap]
    split
    · rfl
    · rename_i h
      rw [unmap, if_neg h]

theorem toNat_lt (a : Addr) : a.toNat < 2 ^ a.bitLen := by
  cases a with
  | v4 value => exact value.isLt
  | v6 high low =>
    have hh := high.isLt
    have hl := low.isLt
    simp only [toNat, bitLen]
    omega

/-- Within one family an address is its number. -/
theorem eq_of_toNat_eq {a b : Addr} (hfamily : a.is4 = b.is4) (h : a.toNat = b.toNat) :
    a = b := by
  cases a with
  | v4 x =>
    cases b with
    | v4 y => exact congrArg v4 (BitVec.eq_of_toNat_eq h)
    | v6 high low => simp [is4] at hfamily
  | v6 high low =>
    cases b with
    | v4 y => simp [is4] at hfamily
    | v6 high' low' =>
      simp only [toNat] at h
      have hl := low.isLt
      have hl' := low'.isLt
      have h1 : high = high' := BitVec.eq_of_toNat_eq (by omega)
      have h2 : low = low' := BitVec.eq_of_toNat_eq (by omega)
      rw [h1, h2]

theorem bitLen_congr {a b : Addr} (hfamily : a.is4 = b.is4) : a.bitLen = b.bitLen := by
  cases a <;> cases b <;> simp_all [is4, bitLen]

end Addr

/-- `netip.Prefix`: a valid one carries a length between 0 and the family's width. -/
@[ext] structure Prefix where
  addr : Addr
  bits : ℕ
  bits_le : bits ≤ addr.bitLen
  deriving DecidableEq, Repr

/-! ## Clearing host bits -/

/-- The word with its lowest `k` bits cleared. -/
def clearLow {n : ℕ} (x : BitVec n) (k : ℕ) : BitVec n := x &&& (BitVec.allOnes n <<< k)

/-- Clearing the low bits rounds down to a multiple of `2 ^ k`. -/
theorem toNat_clearLow {n : ℕ} (x : BitVec n) (k : ℕ) :
    (clearLow x k).toNat = x.toNat / 2 ^ k * 2 ^ k := by
  have hshift : clearLow x k = (x >>> k) <<< k := by
    apply BitVec.eq_of_getLsbD_eq
    intro i hi
    simp only [clearLow, BitVec.getLsbD_and, BitVec.getLsbD_shiftLeft, BitVec.getLsbD_allOnes,
      BitVec.getLsbD_ushiftRight, hi, decide_true, Bool.true_and]
    by_cases hk : i < k
    · simp [hk]
    · have hlt : i - k < n := by omega
      simp [hk, hlt, show k + (i - k) = i by omega]
  have hle : x.toNat / 2 ^ k * 2 ^ k ≤ x.toNat := Nat.div_mul_le_self _ _
  rw [hshift, BitVec.toNat_shiftLeft, BitVec.toNat_ushiftRight, Nat.shiftLeft_eq,
    Nat.shiftRight_eq_div_pow, Nat.mod_eq_of_lt (lt_of_le_of_lt hle x.isLt)]

/-- Dividing a two-word number by more than a word keeps only the high word. -/
theorem two_words_div_high {m l : ℕ} (h k : ℕ) (hl : l < 2 ^ m) :
    (h * 2 ^ m + l) / 2 ^ (m + k) = h / 2 ^ k := by
  rw [Nat.pow_add, ← Nat.div_div_eq_div_mul, Nat.mul_comm h,
    Nat.mul_add_div (Nat.two_pow_pos m), Nat.div_eq_of_lt hl, Nat.add_zero]

/-- Dividing a two-word number by at most a word divides the low word. -/
theorem two_words_div_low {m k : ℕ} (h l : ℕ) (hk : k ≤ m) :
    (h * 2 ^ m + l) / 2 ^ k = h * 2 ^ (m - k) + l / 2 ^ k := by
  have hsplit : (2 : ℕ) ^ m = 2 ^ (m - k) * 2 ^ k := by
    rw [← Nat.pow_add, Nat.sub_add_cancel hk]
  rw [hsplit, ← Nat.mul_assoc, Nat.mul_comm _ (2 ^ k), Nat.mul_add_div (Nat.two_pow_pos k)]

namespace Prefix

/-- How many low bits a prefix leaves free. -/
def hostBits (p : Prefix) : ℕ := p.addr.bitLen - p.bits

/-- The address of a prefix with its host bits cleared. -/
def maskedAddr (p : Prefix) : Addr :=
  match p.addr with
  | .v4 value => .v4 (clearLow value (32 - p.bits))
  | .v6 high low => .v6 (clearLow high (64 - p.bits)) (clearLow low (128 - p.bits))

@[simp] theorem is4_maskedAddr (p : Prefix) : p.maskedAddr.is4 = p.addr.is4 := by
  unfold maskedAddr
  cases p.addr <;> rfl

@[simp] theorem bitLen_maskedAddr (p : Prefix) : p.maskedAddr.bitLen = p.addr.bitLen :=
  Addr.bitLen_congr p.is4_maskedAddr

/-- `Prefix.Masked`. -/
def masked (p : Prefix) : Prefix where
  addr := p.maskedAddr
  bits := p.bits
  bits_le := by rw [bitLen_maskedAddr]; exact p.bits_le

@[simp] theorem hostBits_masked (p : Prefix) : p.masked.hostBits = p.hostBits := by
  simp [hostBits, masked]

@[simp] theorem is4_masked (p : Prefix) : p.masked.addr.is4 = p.addr.is4 := p.is4_maskedAddr

/-- The masked address is the address rounded down to a multiple of the block size. -/
theorem toNat_maskedAddr (p : Prefix) :
    p.maskedAddr.toNat = p.addr.toNat / 2 ^ p.hostBits * 2 ^ p.hostBits := by
  obtain ⟨addr, bits, hbits⟩ := p
  cases addr with
  | v4 value => simp only [maskedAddr, Addr.toNat, hostBits, Addr.bitLen, toNat_clearLow]
  | v6 high low =>
    simp only [Addr.bitLen] at hbits
    simp only [maskedAddr, Addr.toNat, hostBits, Addr.bitLen, toNat_clearLow]
    have hl := low.isLt
    rcases Nat.le_total bits 64 with hle | hle
    · -- the low half is cleared whole, the high half in part
      obtain ⟨k, hk⟩ : ∃ k, 64 - bits = k := ⟨_, rfl⟩
      have hbits' : 128 - bits = 64 + k := by omega
      rw [hk, hbits', two_words_div_high _ _ hl, Nat.div_eq_of_lt
        (lt_of_lt_of_le hl (Nat.pow_le_pow_right (by omega) (by omega))), Nat.zero_mul,
        Nat.add_zero, Nat.mul_assoc, ← Nat.pow_add, Nat.add_comm k]
    · obtain ⟨k, hk⟩ : ∃ k, 128 - bits = k := ⟨_, rfl⟩
      have hbits' : 64 - bits = 0 := by omega
      have hk64 : k ≤ 64 := by omega
      rw [hk, hbits', two_words_div_low _ _ hk64, Nat.add_mul, Nat.pow_zero, Nat.div_one,
        Nat.mul_one, Nat.mul_assoc high.toNat, ← Nat.pow_add, Nat.sub_add_cancel hk64]

/-- The addresses a prefix stands for: those of its family that agree with it above the
host bits. -/
def hosts (p : Prefix) : Set Addr :=
  {a | a.is4 = p.addr.is4 ∧ a.toNat / 2 ^ p.hostBits = p.addr.toNat / 2 ^ p.hostBits}

theorem mem_hosts {p : Prefix} {a : Addr} :
    a ∈ p.hosts ↔
      a.is4 = p.addr.is4 ∧ a.toNat / 2 ^ p.hostBits = p.addr.toNat / 2 ^ p.hostBits :=
  Iff.rfl

instance (p : Prefix) (a : Addr) : Decidable (a ∈ p.hosts) :=
  inferInstanceAs (Decidable (_ ∧ _))

/-- Two prefixes are disjoint when no address is in both. -/
def Disjoint (p q : Prefix) : Prop := ∀ a, a ∈ p.hosts → a ∉ q.hosts

/-- Two prefixes of one family that differ above the larger of their host bits. -/
theorem disjoint_of_div_ne {p q : Prefix} {h : ℕ} (hp : p.hostBits ≤ h) (hq : q.hostBits ≤ h)
    (hne : p.addr.toNat / 2 ^ h ≠ q.addr.toNat / 2 ^ h) : p.Disjoint q := by
  have hcoarse : ∀ {r : Prefix} {a : Addr}, r.hostBits ≤ h → a ∈ r.hosts →
      a.toNat / 2 ^ h = r.addr.toNat / 2 ^ h := by
    intro r a hr ha
    rw [← Nat.add_sub_cancel' hr, Nat.pow_add, ← Nat.div_div_eq_div_mul,
      ← Nat.div_div_eq_div_mul, (mem_hosts.mp ha).2]
  intro a hap haq
  exact hne ((hcoarse hp hap).symm.trans (hcoarse hq haq))

/-- Prefixes of different families have no address in common. -/
theorem disjoint_of_is4_ne {p q : Prefix} (hne : p.addr.is4 ≠ q.addr.is4) : p.Disjoint q :=
  fun _ hap haq => hne ((mem_hosts.mp hap).1.symm.trans (mem_hosts.mp haq).1)

/-- Clearing the host bits keeps the set of addresses. -/
theorem masked_hosts (p : Prefix) : p.masked.hosts = p.hosts := by
  ext a
  rw [mem_hosts, mem_hosts, is4_masked, hostBits_masked]
  have heq : p.masked.addr.toNat / 2 ^ p.hostBits = p.addr.toNat / 2 ^ p.hostBits := by
    rw [show p.masked.addr = p.maskedAddr from rfl, toNat_maskedAddr,
      Nat.mul_div_cancel _ (Nat.two_pow_pos _)]
  rw [heq]

/-- Membership in a masked prefix is an offset from the base below the block size. -/
theorem mem_hosts_masked {p : Prefix} {a : Addr} :
    a ∈ p.masked.hosts ↔
      a.is4 = p.addr.is4 ∧
        ∃ d < 2 ^ p.hostBits, a.toNat = p.masked.addr.toNat + d := by
  have hpos : 0 < 2 ^ p.hostBits := Nat.two_pow_pos _
  rw [mem_hosts, is4_masked, hostBits_masked, show p.masked.addr = p.maskedAddr from rfl,
    toNat_maskedAddr, Nat.mul_div_cancel _ hpos]
  refine and_congr_right fun _ => ⟨fun h => ?_, ?_⟩
  · refine ⟨a.toNat % 2 ^ p.hostBits, Nat.mod_lt _ hpos, ?_⟩
    rw [← h]
    exact (Nat.div_add_mod' _ _).symm
  · rintro ⟨d, hd, heq⟩
    rw [heq, Nat.mul_comm, Nat.mul_add_div hpos, Nat.div_eq_of_lt hd, Nat.add_zero]

/-- Clearing the host bits twice is clearing them once. -/
theorem masked_masked (p : Prefix) : p.masked.masked = p.masked := by
  apply Prefix.ext
  · show p.masked.maskedAddr = p.maskedAddr
    apply Addr.eq_of_toNat_eq (p.masked.is4_maskedAddr)
    rw [toNat_maskedAddr, hostBits_masked, show p.masked.addr = p.maskedAddr from rfl,
      toNat_maskedAddr, Nat.mul_div_cancel _ (Nat.two_pow_pos _)]
  · rfl

/-- The base of a masked prefix is a multiple of the block size. -/
theorem dvd_toNat_masked (p : Prefix) : 2 ^ p.hostBits ∣ p.masked.addr.toNat :=
  ⟨p.addr.toNat / 2 ^ p.hostBits, by
    rw [show p.masked.addr = p.maskedAddr from rfl, toNat_maskedAddr, Nat.mul_comm]⟩

/-- The prefix of a single address. -/
def host (a : Addr) : Prefix := ⟨a, a.bitLen, a.bitLen_le⟩

theorem hostBits_host (a : Addr) : (host a).hostBits = 0 := Nat.sub_self _

theorem mem_hosts_host {a b : Addr} : b ∈ (host a).hosts ↔ b = a := by
  rw [mem_hosts, hostBits_host, Nat.pow_zero, Nat.div_one, Nat.div_one]
  constructor
  · rintro ⟨hfamily, hnat⟩
    exact Addr.eq_of_toNat_eq hfamily hnat
  · rintro rfl
    exact ⟨rfl, rfl⟩

theorem masked_host (a : Addr) : (host a).masked = host a := by
  have hnat := toNat_maskedAddr (host a)
  rw [hostBits_host, Nat.pow_zero, Nat.div_one, Nat.mul_one] at hnat
  exact Prefix.ext (Addr.eq_of_toNat_eq (is4_maskedAddr _) hnat) rfl

end Prefix

end Throned.Library

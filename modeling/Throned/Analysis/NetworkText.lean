import Throned.Analysis.AddressFormat
import Throned.Model.Targets

/-!
# Reading and writing networks

A network that the parser accepts is canonical: masked, and IPv4 wherever an IPv4-mapped
one would do.  A canonical network reads back as itself, and the core reads the same
prefix.
-/

set_option autoImplicit false

namespace Throned.Scanner

open Throned.Library Throned.Library.Netip
open Throned.Scan (parseTargetPrefix unmapPrefix)

namespace IpListParseAddr

theorem bitLen_toAddr (a : IpListParseAddr) : a.toAddr.bitLen = ipListParseBits a := by
  unfold toAddr ipListParseBits
  split <;> rfl

theorem is4_toAddr (a : IpListParseAddr) : a.toAddr.is4 = !a.v6 := by
  unfold toAddr
  cases a.v6 <;> rfl

theorem toNat_toAddr {a : IpListParseAddr} (ha : a.Valid) : a.toAddr.toNat = a.toNat := by
  obtain ⟨v6, hi, lo⟩ := a
  cases v6 with
  | false =>
    obtain ⟨hhi, hlo⟩ := ha rfl
    simp only at hhi hlo
    simp only [toAddr, Bool.false_eq_true, if_false, Addr.toNat, BitVec.toNat_setWidth, toNat, hhi,
      Nat.mod_eq_of_lt hlo]
    rw [show (0 : Word64).toNat = 0 from rfl, Nat.zero_mul, Nat.zero_add]
  | true => rfl

/-- A valid address is determined by what `netip` sees of it. -/
theorem toAddr_injective {a b : IpListParseAddr} (ha : a.Valid) (hb : b.Valid)
    (h : a.toAddr = b.toAddr) : a = b := by
  have hfamily : a.v6 = b.v6 := by
    have := congrArg Addr.is4 h
    rw [is4_toAddr, is4_toAddr] at this
    exact Bool.not_inj this
  have hnat : a.toNat = b.toNat := by rw [← toNat_toAddr ha, ← toNat_toAddr hb, h]
  obtain ⟨v6, hi, lo⟩ := a
  obtain ⟨v6', hi', lo'⟩ := b
  have hlo := lo.isLt
  have hlo' := lo'.isLt
  simp only [toNat] at hnat hfamily
  rw [hfamily, BitVec.eq_of_toNat_eq (x := hi) (y := hi') (by omega),
    BitVec.eq_of_toNat_eq (x := lo) (y := lo') (by omega)]

theorem toNat_lt {a : IpListParseAddr} (ha : a.Valid) : a.toNat < 2 ^ ipListParseBits a := by
  rw [← toNat_toAddr ha, ← bitLen_toAddr]
  exact a.toAddr.toNat_lt

end IpListParseAddr

/-! ## Masks -/

theorem clearLow_zero {n : ℕ} (x : BitVec n) : clearLow x 0 = x := by
  apply BitVec.eq_of_toNat_eq
  rw [toNat_clearLow]
  simp

theorem clearLow_of_le {n k : ℕ} (x : BitVec n) (h : n ≤ k) : clearLow x k = 0 := by
  apply BitVec.eq_of_toNat_eq
  rw [toNat_clearLow, Nat.div_eq_of_lt (lt_of_lt_of_le x.isLt (Nat.pow_le_pow_right (by omega) h))]
  simp

theorem v6_ipListParseMask (a : IpListParseAddr) (length : ℕ) :
    (ipListParseMask a length).v6 = a.v6 := by
  unfold ipListParseMask
  split
  · rfl
  · split
    · rfl
    · split
      · rfl
      · split <;> rfl

theorem setWidth_mask_v4 (x : Word64) (k : ℕ) :
    (x &&& (((0xffffffff : Word64) <<< k) &&& 0xffffffff)).setWidth 32 =
      clearLow (x.setWidth 32) k := by
  have hones : (0xffffffff : Word64) = (BitVec.allOnes 32).setWidth 64 := by decide
  apply BitVec.eq_of_getLsbD_eq
  intro i hi
  simp only [hones, clearLow, BitVec.getLsbD_setWidth, BitVec.getLsbD_and,
    BitVec.getLsbD_shiftLeft, BitVec.getLsbD_allOnes, hi, decide_true, Bool.true_and]
  have h64 : i < 64 := by omega
  have h64' : i - k < 64 := by omega
  have h32 : i - k < 32 := by omega
  simp [h64, h64', h32]

/-- Clearing the host bits is what `Prefix.Masked` does. -/
theorem toAddr_ipListParseMask (a : IpListParseAddr) {length : ℕ} (hpos : 0 < length)
    (hle : length ≤ a.toAddr.bitLen) :
    (ipListParseMask a length).toAddr = (⟨a.toAddr, length, hle⟩ : Prefix).maskedAddr := by
  obtain ⟨v6, hi, lo⟩ := a
  cases v6 with
  | false =>
    simp only [ipListParseMask, IpListParseAddr.toAddr, Prefix.maskedAddr, Bool.not_false, if_true,
      Bool.false_eq_true, if_false]
    rw [setWidth_mask_v4]
  | true =>
    have hbits : length ≤ 128 := hle
    have hmask : ipListParseMask ⟨true, hi, lo⟩ length =
        ⟨true, clearLow hi (64 - length), clearLow lo (128 - length)⟩ := by
      rw [ipListParseMask, if_neg (by simp)]
      rcases Nat.lt_trichotomy length 64 with h | h | h
      · rw [if_pos h, if_neg (by omega), clearLow_of_le lo (by omega)]
        rfl
      · subst h
        rw [if_neg (by omega), if_pos rfl, clearLow_of_le lo (by omega), clearLow_zero]
      · rw [if_neg (by omega), if_neg (by omega), show 64 - length = 0 by omega, clearLow_zero]
        split
        · rfl
        · rw [show 128 - length = 0 by omega, clearLow_zero]
    rw [hmask]
    rfl

theorem valid_ipListParseMask {a : IpListParseAddr} (ha : a.Valid) (length : ℕ) :
    (ipListParseMask a length).Valid := by
  intro hv6
  rw [v6_ipListParseMask] at hv6
  obtain ⟨hhi, hlo⟩ := ha hv6
  unfold ipListParseMask
  rw [if_pos (by simp [hv6])]
  refine ⟨hhi, lt_of_le_of_lt ?_ hlo⟩
  rw [BitVec.toNat_and]
  exact Nat.and_le_left

/-- An address is masked when its number is a multiple of the block size. -/
theorem ipListParseMask_eq_self {a : IpListParseAddr} (ha : a.Valid) {length : ℕ}
    (hpos : 0 < length) (hle : length ≤ ipListParseBits a) :
    ipListParseMask a length = a ↔ 2 ^ (ipListParseBits a - length) ∣ a.toNat := by
  have hle' : length ≤ a.toAddr.bitLen := by rwa [IpListParseAddr.bitLen_toAddr]
  have hmask := valid_ipListParseMask ha length
  have hnat := congrArg Addr.toNat (toAddr_ipListParseMask a hpos hle')
  rw [Prefix.toNat_maskedAddr, IpListParseAddr.toNat_toAddr ha,
    IpListParseAddr.toNat_toAddr hmask, Prefix.hostBits, IpListParseAddr.bitLen_toAddr] at hnat
  constructor
  · intro h
    rw [h] at hnat
    exact ⟨_, by rw [Nat.mul_comm]; exact hnat⟩
  · intro h
    apply IpListParseAddr.toAddr_injective hmask ha
    apply Addr.eq_of_toNat_eq
    · rw [IpListParseAddr.is4_toAddr, IpListParseAddr.is4_toAddr, v6_ipListParseMask]
    · rw [IpListParseAddr.toNat_toAddr hmask, IpListParseAddr.toNat_toAddr ha, hnat,
        Nat.div_mul_cancel h]

/-! ## Canonical networks -/

/-- A network the parser can answer with. -/
structure Canonical (a : IpListParseAddr) (length : ℕ) : Prop where
  valid : a.Valid
  pos : 0 < length
  le : length ≤ ipListParseBits a
  masked : ipListParseMask a length = a
  unmapped : 96 ≤ length → ipListParseIsMapped a = false

namespace Canonical

variable {a : IpListParseAddr} {length : ℕ}

theorem le_bitLen (h : Canonical a length) : length ≤ a.toAddr.bitLen := by
  rw [IpListParseAddr.bitLen_toAddr]
  exact h.le

/-- The prefix of a canonical network. -/
def toPrefix (h : Canonical a length) : Prefix := ⟨a.toAddr, length, h.le_bitLen⟩

theorem masked_toPrefix (h : Canonical a length) : h.toPrefix.masked = h.toPrefix := by
  apply Prefix.ext
  · show h.toPrefix.maskedAddr = a.toAddr
    rw [← congrArg IpListParseAddr.toAddr h.masked]
    exact (toAddr_ipListParseMask a h.pos h.le_bitLen).symm
  · rfl

end Canonical

theorem is4In6_toAddr (a : IpListParseAddr) : a.toAddr.is4In6 = ipListParseIsMapped a := by
  obtain ⟨v6, hi, lo⟩ := a
  cases v6 <;> rfl

theorem valid_ipListParseUnmap (a : IpListParseAddr) : (ipListParseUnmap a).Valid := by
  intro _
  refine ⟨rfl, ?_⟩
  show (a.lo &&& 0xffffffff).toNat < 2 ^ 32
  rw [BitVec.toNat_and]
  exact lt_of_le_of_lt Nat.and_le_right (by decide)

theorem toAddr_ipListParseUnmap (a : IpListParseAddr) :
    (ipListParseUnmap a).toAddr = .v4 (a.lo.setWidth 32) := by
  have hones : (0xffffffff : Word64) = (BitVec.allOnes 32).setWidth 64 := by decide
  show Addr.v4 ((a.lo &&& 0xffffffff).setWidth 32) = _
  congr 1
  apply BitVec.eq_of_getLsbD_eq
  intro i hi
  have h64 : i < 64 := by omega
  simp only [hones, BitVec.getLsbD_setWidth, BitVec.getLsbD_and, BitVec.getLsbD_allOnes]
  simp [hi, h64]

/-- Masking below an address's top 96 bits cannot make it IPv4-mapped. -/
theorem ipListParseIsMapped_mask {a : IpListParseAddr} {length : ℕ} (hlen : 96 ≤ length) :
    ipListParseIsMapped (ipListParseMask a length) = ipListParseIsMapped a := by
  unfold ipListParseIsMapped
  rw [v6_ipListParseMask]
  cases hv6 : a.v6 with
  | false => rfl
  | true =>
    unfold ipListParseMask
    rw [if_neg (by simp [hv6]), if_neg (by omega), if_neg (by omega)]
    split
    · rename_i h128
      simp only [Bool.true_and]
      congr 2
      apply BitVec.eq_of_getLsbD_eq
      intro i hi
      simp only [BitVec.getLsbD_ushiftRight, BitVec.getLsbD_and, BitVec.getLsbD_shiftLeft,
        BitVec.getLsbD_allOnes]
      by_cases h : 32 + i < 64
      · have h1 : ¬ 32 + i < 128 - length := by omega
        have h2 : 32 + i - (128 - length) < 64 := by omega
        simp [h, h1, h2]
      · rw [BitVec.getLsbD_of_ge _ _ (by omega)]
        simp
    · rfl

/-! ## Reading a network -/

/-- The prefix a network text stands for: its address as `netip` reads it without the
zone, an IPv4-mapped one as IPv4. -/
def networkDenotes (text : Text) : Option Prefix :=
  match splitNetwork text with
  | none => none
  | some (body, lengthText) =>
    match parseAddr (body.takeWhile (· ≠ '%')) with
    | none => none
    | some (addr, _) =>
      match lengthText with
      | none => some (unmapPrefix ⟨addr, addr.bitLen, addr.bitLen_le⟩)
      | some text =>
        match parseDecimal text with
        | none => none
        | some length =>
          if h : length ≤ addr.bitLen then some (unmapPrefix ⟨addr, length, h⟩) else none

/-- The rest of `ipListParseNetwork` once the address and the length have been read. -/
def finishNetwork (addr : IpListParseAddr) (length : ℕ) : Option (IpListParseAddr × ℕ) :=
  let network := if ipListParseIsMapped addr ∧ length ≥ 96 then
    (ipListParseUnmap addr, length - 96) else (addr, length)
  if network.2 = 0 then none else some (ipListParseMask network.1 network.2, network.2)

theorem ipListParseNetwork_eq (text : Text) :
    ipListParseNetwork text =
      (splitNetwork text).bind fun parts =>
        (ipListParseAddress parts.1).bind fun addr =>
          (match parts.2 with
            | none => some (ipListParseBits addr)
            | some text => (ipListParseDecimal text 3).filter (· ≤ ipListParseBits addr)).bind
          fun length => finishNetwork addr length := by
  unfold ipListParseNetwork
  cases splitNetwork text with
  | none => rfl
  | some parts =>
    obtain ⟨body, lengthText⟩ := parts
    simp only [Option.bind_some]
    cases ipListParseAddress body with
    | none => rfl
    | some addr =>
      simp only [Option.bind_some]
      cases lengthText with
      | none => rfl
      | some text =>
        simp only
        cases Option.filter _ (ipListParseDecimal text 3) <;> rfl

theorem unmapPrefix_eq_self {b : Addr} {length : ℕ} (hle : length ≤ b.bitLen)
    (h : ¬(b.is4In6 = true ∧ length ≥ 96)) : unmapPrefix ⟨b, length, hle⟩ = ⟨b, length, hle⟩ := by
  cases b with
  | v4 value => rfl
  | v6 high low => exact dif_neg h

/-- What is left of an accepted network is canonical and has the hosts of its prefix. -/
theorem finishNetwork_spec {addr a : IpListParseAddr} {length len : ℕ} (ha : addr.Valid)
    (hle : length ≤ addr.toAddr.bitLen) (h : finishNetwork addr length = some (a, len)) :
    ∃ hc : Canonical a len, hc.toPrefix = (unmapPrefix ⟨addr.toAddr, length, hle⟩).masked := by
  -- masking a valid network that is not a mapped one
  have hmask : ∀ {b : IpListParseAddr} {k : ℕ} (hb : b.Valid) (hk : 0 < k)
      (hkle : k ≤ b.toAddr.bitLen), (96 ≤ k → ipListParseIsMapped b = false) →
      ∃ hc : Canonical (ipListParseMask b k) k,
        hc.toPrefix = (⟨b.toAddr, k, hkle⟩ : Prefix).masked := by
    intro b k hb hk hkle hmapped
    have hbits : ipListParseBits (ipListParseMask b k) = ipListParseBits b := by
      unfold ipListParseBits
      rw [v6_ipListParseMask]
    have hto := toAddr_ipListParseMask b hk hkle
    refine ⟨⟨valid_ipListParseMask hb k, hk, ?_, ?_, ?_⟩, Prefix.ext hto rfl⟩
    · rwa [hbits, ← IpListParseAddr.bitLen_toAddr]
    · apply (ipListParseMask_eq_self (valid_ipListParseMask hb k) hk
        (by rwa [hbits, ← IpListParseAddr.bitLen_toAddr])).mpr
      rw [hbits, ← IpListParseAddr.toNat_toAddr (valid_ipListParseMask hb k), hto,
        Prefix.toNat_maskedAddr, Prefix.hostBits, IpListParseAddr.bitLen_toAddr]
      exact Dvd.intro_left _ rfl
    · intro hk96
      rw [ipListParseIsMapped_mask hk96]
      exact hmapped hk96
  unfold finishNetwork at h
  by_cases hmapped : ipListParseIsMapped addr = true ∧ length ≥ 96
  · simp only [if_pos hmapped] at h
    split at h
    · cases h
    · rename_i hne
      simp only [Option.some.injEq, Prod.mk.injEq] at h
      obtain ⟨rfl, rfl⟩ := h
      have hv6 : addr.toAddr = .v6 addr.hi addr.lo := by
        have hv : addr.v6 = true := by
          have := hmapped.1
          simp only [ipListParseIsMapped, Bool.and_eq_true] at this
          exact this.1.1
        simp [IpListParseAddr.toAddr, hv]
      have hle4 : length - 96 ≤ (ipListParseUnmap addr).toAddr.bitLen := by
        rw [hv6] at hle
        have : length ≤ 128 := hle
        show length - 96 ≤ 32
        omega
      obtain ⟨hc, heq⟩ := hmask (valid_ipListParseUnmap addr) (by omega) hle4
        (fun _ => by simp [ipListParseIsMapped, ipListParseUnmap])
      refine ⟨hc, heq.trans ?_⟩
      congr 1
      have his4 : Addr.is4In6 (.v6 addr.hi addr.lo) = true := by
        rw [← hv6, is4In6_toAddr]
        exact hmapped.1
      apply Prefix.ext
      · simp only [hv6, unmapPrefix, his4, hmapped.2, and_self, dif_pos]
        exact toAddr_ipListParseUnmap addr
      · simp only [hv6, unmapPrefix, his4, hmapped.2, and_self, dif_pos]
  · simp only [if_neg hmapped] at h
    split at h
    · cases h
    · rename_i hne
      simp only [Option.some.injEq, Prod.mk.injEq] at h
      obtain ⟨rfl, rfl⟩ := h
      obtain ⟨hc, heq⟩ := hmask ha (by omega) hle fun h96 => by simpa [h96] using hmapped
      refine ⟨hc, heq.trans ?_⟩
      congr 1
      rw [← is4In6_toAddr] at hmapped
      exact (unmapPrefix_eq_self hle hmapped).symm

/-- **An accepted network is canonical, and stands for the addresses of its text.** -/
theorem ipListParseNetwork_spec {text : Text} {a : IpListParseAddr} {length : ℕ}
    (h : ipListParseNetwork text = some (a, length)) :
    ∃ hc : Canonical a length, ∃ p, networkDenotes text = some p ∧ hc.toPrefix = p.masked := by
  rw [ipListParseNetwork_eq] at h
  obtain ⟨⟨body, lengthText⟩, hsplit, h⟩ := Option.bind_eq_some_iff.mp h
  obtain ⟨addr, haddr, h⟩ := Option.bind_eq_some_iff.mp h
  obtain ⟨len, hlen, h⟩ := Option.bind_eq_some_iff.mp h
  obtain ⟨hvalid, hnetip⟩ := ipListParseAddress_spec haddr
  have hread : ∃ hle : len ≤ addr.toAddr.bitLen,
      networkDenotes text = some (unmapPrefix ⟨addr.toAddr, len, hle⟩) := by
    unfold networkDenotes
    rw [hsplit]
    simp only [hnetip]
    cases lengthText with
    | none =>
      simp only [Option.some.injEq] at hlen
      subst hlen
      refine ⟨by rw [IpListParseAddr.bitLen_toAddr], ?_⟩
      simp only [IpListParseAddr.bitLen_toAddr]
    | some digits =>
      simp only at hlen ⊢
      obtain ⟨hdec, hle⟩ := Option.filter_eq_some_iff.mp hlen
      simp only [decide_eq_true_eq] at hle
      rw [← IpListParseAddr.bitLen_toAddr] at hle
      rw [(ipListParseDecimal_eq_some.mp hdec).1]
      exact ⟨hle, dif_pos hle⟩
  obtain ⟨hle, hdenotes⟩ := hread
  obtain ⟨hc, heq⟩ := finishNetwork_spec hvalid hle h
  exact ⟨hc, _, hdenotes, heq⟩

/-! ## Writing a network -/

theorem addrChar_ne {c d : Char} (hc : IsAddrChar c) (hd : ¬IsAddrChar d) : c ≠ d := by
  rintro rfl
  exact hd hc

theorem isSpace_of_isAddrChar {c : Char} (h : IsAddrChar c) : isSpace c = false := by
  have hbounds : 46 ≤ c.val.toNat ∧ c.val.toNat ≤ 102 := by
    rcases h with h | rfl | rfl
    · obtain ⟨d, hd⟩ := Option.isSome_iff_exists.mp h
      have := (hexDigit_bounds hd).2
      change 46 ≤ c.toNat ∧ c.toNat ≤ 102
      omega
    · decide
    · decide
  simp only [isSpace, Bool.or_eq_false_iff, Bool.and_eq_false_iff, beq_eq_false_iff_ne, ne_eq,
    decide_eq_false_iff_not, UInt32.le_iff_toNat_le, ← UInt32.toNat_inj]
  simp only [UInt32.reduceToNat]
  omega

theorem addrChar_decimal (n : ℕ) : ∀ x ∈ decimal n, IsAddrChar x := fun _ hx =>
  Or.inl (hexDigit_isSome_of_decimalDigit (decimalDigit_of_mem_decimal hx))

theorem addrChar_ipListParseCidr (a : IpListParseAddr) (length : ℕ) :
    ∀ x ∈ ipListParseCidr a length, IsAddrChar x ∨ x = '/' := by
  intro x hx
  simp only [ipListParseCidr] at hx
  split at hx
  · exact Or.inl (addrChar_format a x hx)
  · simp only [List.append_assoc, List.mem_append, List.mem_singleton] at hx
    rcases hx with hx | hx | hx
    · exact Or.inl (addrChar_format a x hx)
    · exact Or.inr hx
    · exact Or.inl (addrChar_decimal length x hx)

theorem not_mem_format (a : IpListParseAddr) {c : Char} (hc : ¬IsAddrChar c) :
    c ∉ ipListParseFormat a := fun h => hc (addrChar_format a c h)

theorem isSpace_of_mem_cidr {a : IpListParseAddr} {length : ℕ} {x : Char}
    (h : x ∈ ipListParseCidr a length) : isSpace x = false := by
  rcases addrChar_ipListParseCidr a length x h with h | rfl
  · exact isSpace_of_isAddrChar h
  · decide

theorem not_mem_cidr {a : IpListParseAddr} {length : ℕ} {c : Char} (hc : ¬IsAddrChar c)
    (hslash : c ≠ '/') : c ∉ ipListParseCidr a length := fun h =>
  (addrChar_ipListParseCidr a length c h).elim hc hslash

/-- A written network splits into what it was written from. -/
theorem splitNetwork_cidr (a : IpListParseAddr) (length : ℕ) :
    splitNetwork (ipListParseCidr a length) =
      some (ipListParseFormat a,
        if length ≥ ipListParseBits a then none else some (decimal length)) := by
  have hslash : '/' ∉ ipListParseFormat a := not_mem_format a (by decide)
  unfold splitNetwork
  rw [trimSpace_eq_self fun _ hx => isSpace_of_mem_cidr hx]
  have hbracket : (ipListParseCidr a length).head? ≠ some '[' := fun h =>
    not_mem_cidr (by decide) (by decide) (List.mem_of_head? h)
  simp only [if_neg hbracket]
  unfold ipListParseCidr
  by_cases hfull : length ≥ ipListParseBits a
  · simp only [if_pos hfull, cut_eq_none hslash]
  · simp only [if_neg hfull, List.append_assoc, List.singleton_append, cut_append hslash]

namespace Canonical

variable {a : IpListParseAddr} {length : ℕ}

theorem finishNetwork_self (h : Canonical a length) : finishNetwork a length = some (a, length) := by
  have hmapped : ¬(ipListParseIsMapped a = true ∧ length ≥ 96) := by
    rintro ⟨hmapped, hlen⟩
    rw [h.unmapped hlen] at hmapped
    cases hmapped
  unfold finishNetwork
  simp only [if_neg hmapped, h.masked]
  rw [if_neg (by have := h.pos; omega)]

theorem length_le_128 (h : Canonical a length) : length ≤ 128 := by
  have := h.le
  unfold ipListParseBits at this
  split at this <;> omega

/-- **A canonical network reads back.** -/
theorem ipListParseNetwork_cidr (h : Canonical a length) :
    ipListParseNetwork (ipListParseCidr a length) = some (a, length) := by
  rw [ipListParseNetwork_eq, splitNetwork_cidr]
  simp only [Option.bind_some]
  rw [(ipListParseFormat_spec h.valid).1, Option.bind_some]
  by_cases hfull : length ≥ ipListParseBits a
  · rw [if_pos hfull]
    simp only [Option.bind_some]
    rw [← Nat.le_antisymm h.le hfull]
    exact h.finishNetwork_self
  · rw [if_neg hfull]
    have hdec : ipListParseDecimal (decimal length) 3 = some length :=
      ipListParseDecimal_eq_some.mpr ⟨parseDecimal_decimal length,
        (length_decimal_le (by omega)).mpr (by have := h.length_le_128; omega)⟩
    simp only [hdec]
    rw [Option.filter_some_pos (by simpa using h.le), Option.bind_some]
    exact h.finishNetwork_self

/-- **`NormalizeCidr` keeps a canonical text.** -/
theorem normalizeCidr_cidr (h : Canonical a length) :
    normalizeCidr (ipListParseCidr a length) = some (ipListParseCidr a length) := by
  unfold normalizeCidr
  rw [h.ipListParseNetwork_cidr]
  rfl

/-- **The core reads a canonical text as its prefix.** -/
theorem parseTargetPrefix_cidr (h : Canonical a length) :
    parseTargetPrefix (ipListParseCidr a length) = some h.toPrefix := by
  have hnetip := (ipListParseFormat_spec h.valid).2
  have hunmap : unmapPrefix h.toPrefix = h.toPrefix := by
    apply unmapPrefix_eq_self
    rintro ⟨hmapped, hlen⟩
    rw [is4In6_toAddr, h.unmapped hlen] at hmapped
    cases hmapped
  unfold parseTargetPrefix
  rw [trimSpace_eq_self fun _ hx => isSpace_of_mem_cidr hx]
  unfold ipListParseCidr
  by_cases hfull : length ≥ ipListParseBits a
  · have hslash : '/' ∉ ipListParseFormat a := not_mem_format a (by decide)
    have hbits : a.toAddr.bitLen = length := by
      rw [IpListParseAddr.bitLen_toAddr]
      exact Nat.le_antisymm hfull h.le
    have hstarts : (⟨a.toAddr, a.toAddr.bitLen, Nat.le_refl _⟩ : Prefix) = h.toPrefix :=
      Prefix.ext rfl hbits
    simp only [if_pos hfull, parsePrefix_eq_none hslash, hnetip, Option.map_some, hstarts, hunmap,
      h.masked_toPrefix]
  · have hdigits : '/' ∉ decimal length := fun hx =>
      absurd (addrChar_decimal length _ hx) (by decide)
    have hstarts : parsePrefix (ipListParseFormat a ++ '/' :: decimal length) = some h.toPrefix :=
      parsePrefix_append hdigits hnetip (parseBits_decimal h.le_bitLen) h.le_bitLen
    simp only [if_neg hfull, List.append_assoc, List.singleton_append, hstarts, Option.map_some,
      hunmap, h.masked_toPrefix]

end Canonical

/-- **`NormalizeCidr` is idempotent.** -/
theorem normalizeCidr_idempotent {text cidr : Text} (h : normalizeCidr text = some cidr) :
    normalizeCidr cidr = some cidr := by
  unfold normalizeCidr at h
  obtain ⟨⟨a, length⟩, hnetwork, rfl⟩ := Option.map_eq_some_iff.mp h
  obtain ⟨hc, -⟩ := ipListParseNetwork_spec hnetwork
  exact hc.normalizeCidr_cidr

end Throned.Scanner

import Throned.Analysis.RangeCover

/-!
# What a token stands for

A token of the list is an address, a prefix or a range.  `tokenDenotes` is the set of
addresses it stands for, by `netip`'s reading of its parts, and `readBack` the set the
core reads out of the CIDRs it was turned into.  The two agree, and the CIDRs are fixed
points of `NormalizeCidr`, unless the token is a range of IPv6 addresses whose cover has
`::ffff:0:0/96` as a block of its own: that text is read as all of IPv4 by the core and
refused by `NormalizeCidr`.
-/

set_option autoImplicit false

namespace Throned.Scanner

open Throned.Library Throned.Library.Netip
open Throned.Scan (parseTargetPrefix)

/-! ## Denotations -/

/-- The address an end of a range stands for, an IPv4-mapped one as IPv4. -/
def rangeEndDenotes (text : Text) : Option Addr :=
  let text := if text.head? = some '[' ∧ text.getLast? = some ']' then
    (text.drop 1).take (text.length - 2) else text
  if '/' ∈ text then none
  else (parseAddr (text.takeWhile (· ≠ '%'))).map fun (addr, _) => addr.unmap

/-- The two ends of a range; after an IPv4 address a decimal end is its last octet. -/
def rangeDenotes (left right : Text) : Option (Addr × Addr) :=
  match rangeEndDenotes left with
  | none => none
  | some (.v6 high low) => (rangeEndDenotes right).map fun last => (.v6 high low, last)
  | some (.v4 value) =>
    match ipListParseDecimal right 3 with
    | some octet => some (.v4 value, .v4 (BitVec.ofNat 32 (value.toNat / 256 * 256 + octet)))
    | none => (rangeEndDenotes right).map fun last => (.v4 value, last)

/-- The addresses of a family between two ends, in either order. -/
def between (a b : Addr) : Set Addr :=
  {x | x.is4 = a.is4 ∧ min a.toNat b.toNat ≤ x.toNat ∧ x.toNat ≤ max a.toNat b.toNat}

/-- The addresses a token stands for. -/
def tokenDenotes (token : Text) : Set Addr :=
  {x | ∃ left right end' port a b, cut '-' token = some (left, right) ∧
      splitRangePort right = some (end', port) ∧ rangeDenotes left end' = some (a, b) ∧
      x ∈ between a b} ∪
    {x | '-' ∉ token ∧ ∃ network port p, splitTokenPort token = some (network, port) ∧
      networkDenotes network = some p ∧ x ∈ p.hosts}

/-- The addresses the core reads out of CIDRs. -/
def readBack (cidrs : List Text) : Set Addr :=
  {x | ∃ cidr ∈ cidrs, ∃ p, parseTargetPrefix cidr = some p ∧ x ∈ p.hosts}

/-- The ends of a range token, in order. -/
def tokenRange (token : Text) : Option (IpListParseAddr × IpListParseAddr) :=
  (cut '-' token).bind fun (left, right) =>
    (splitRangePort right).bind fun (end', _) => rangeEnds left end'

/-- `::ffff:0:0`, the first IPv4-mapped address. -/
def mappedBase : ℕ := 0xffff * 2 ^ 32

/-- The token is an IPv6 range from after `::fffe:0:0` and before `::ffff:0:0` to
beyond the IPv4-mapped addresses. -/
def StraddlesMapped (token : Text) : Prop :=
  ∃ first last, tokenRange token = some (first, last) ∧ first.v6 = true ∧
    mappedBase - 2 ^ 32 < first.toNat ∧ first.toNat < mappedBase ∧
    mappedBase + 2 ^ 32 ≤ last.toNat

/-! ## The ends of a range -/

theorem toAddr_unmap (a : IpListParseAddr) :
    (if ipListParseIsMapped a then ipListParseUnmap a else a).toAddr = a.toAddr.unmap := by
  obtain ⟨v6, hi, lo⟩ := a
  cases v6 with
  | false => rfl
  | true =>
    have hmapped := is4In6_toAddr ⟨true, hi, lo⟩
    simp only [IpListParseAddr.toAddr, if_true] at hmapped ⊢
    rw [Addr.unmap, hmapped]
    split
    · exact toAddr_ipListParseUnmap _
    · rfl

theorem ipListParseRangeEnd_spec {text : Text} {a : IpListParseAddr}
    (h : ipListParseRangeEnd text = some a) :
    a.Valid ∧ ipListParseIsMapped a = false ∧ rangeEndDenotes text = some a.toAddr := by
  simp only [ipListParseRangeEnd, Option.ite_none_left_eq_some] at h
  obtain ⟨hslash, h⟩ := h
  obtain ⟨b, hb, rfl⟩ := Option.map_eq_some_iff.mp h
  obtain ⟨hvalid, hnetip⟩ := ipListParseAddress_spec hb
  refine ⟨?_, ?_, ?_⟩
  · split
    · exact valid_ipListParseUnmap b
    · exact hvalid
  · split
    · rfl
    · rename_i hmapped
      simpa using hmapped
  · simp only [rangeEndDenotes]
    rw [if_neg hslash, hnetip, Option.map_some, toAddr_unmap]

theorem ipListParseLess_iff (a b : IpListParseAddr) :
    ipListParseLess a b = true ↔ a.toNat < b.toNat := by
  have h1 := a.lo.isLt
  have h2 := b.lo.isLt
  simp only [ipListParseLess, IpListParseAddr.toNat]
  by_cases hhi : a.hi = b.hi
  · rw [if_neg (by simpa using hhi), hhi, decide_eq_true_iff, BitVec.lt_def]
    omega
  · have hne : a.hi.toNat ≠ b.hi.toNat := fun h => hhi (BitVec.eq_of_toNat_eq h)
    rw [if_pos hhi, decide_eq_true_iff, BitVec.lt_def]
    omega

/-- Replacing the last octet of an IPv4 address. -/
theorem lastOctet_spec {a : IpListParseAddr} (ha : a.Valid) (hv4 : a.v6 = false) {octet : ℕ}
    (ho : octet ≤ 255) :
    let b : IpListParseAddr := ⟨false, a.hi, a.lo &&& ~~~0xff ||| BitVec.ofNat 64 octet⟩
    b.Valid ∧ b.toAddr = .v4 (BitVec.ofNat 32 ((a.lo.setWidth 32).toNat / 256 * 256 + octet)) := by
  obtain ⟨v6, hi, lo⟩ := a
  obtain ⟨hhi, hlo⟩ := ha hv4
  simp only at hv4 hhi hlo
  subst hv4
  have hclear : (lo &&& ~~~0xff).toNat = lo.toNat / 2 ^ 8 * 2 ^ 8 := by
    have := toNat_clearLow lo 8
    rwa [clearLow, show BitVec.allOnes 64 <<< 8 = ~~~(0xff : Word64) from rfl] at this
  have hor : (lo &&& ~~~0xff ||| BitVec.ofNat 64 octet).toNat = lo.toNat / 2 ^ 8 * 2 ^ 8 + octet := by
    rw [BitVec.toNat_or, hclear, BitVec.toNat_ofNat, Nat.mod_eq_of_lt (by omega), Nat.mul_comm,
      ← Nat.two_pow_add_eq_or_of_lt (by omega)]
  refine ⟨fun _ => ⟨hhi, ?_⟩, ?_⟩
  · simp only [hor]
    omega
  · simp only [IpListParseAddr.toAddr, Bool.false_eq_true, if_false, Addr.v4.injEq]
    apply BitVec.eq_of_toNat_eq
    rw [BitVec.toNat_setWidth, hor, BitVec.toNat_ofNat, BitVec.toNat_setWidth,
      Nat.mod_eq_of_lt hlo, show (2 : ℕ) ^ 8 = 256 from rfl]

/-- What the parser takes for a range, in order, is what its ends denote. -/
theorem rangeEnds_spec {left right : Text} {first last : IpListParseAddr}
    (h : rangeEnds left right = some (first, last)) :
    first.Valid ∧ last.Valid ∧ last.v6 = first.v6 ∧ first.toNat ≤ last.toNat ∧
      ipListParseIsMapped first = false ∧ ipListParseIsMapped last = false ∧
      ∃ a b, rangeDenotes left right = some (a, b) ∧
        (a = first.toAddr ∧ b = last.toAddr ∨ a = last.toAddr ∧ b = first.toAddr) := by
  unfold rangeEnds at h
  cases hleft : ipListParseRangeEnd left with
  | none => simp [hleft] at h
  | some x =>
    rw [hleft] at h
    obtain ⟨hx, hxmapped, hxdenotes⟩ := ipListParseRangeEnd_spec hleft
    obtain ⟨y, hy, hsort⟩ := Option.map_eq_some_iff.mp h
    -- the second end is valid, of the same family, and denotes itself
    have hyspec : y.Valid ∧ y.v6 = x.v6 ∧ ipListParseIsMapped y = false ∧
        rangeDenotes left right = some (x.toAddr, y.toAddr) := by
      unfold rangeDenotes
      rw [hxdenotes]
      have hright : (ipListParseRangeEnd right).filter (·.v6 = x.v6) = some y →
          y.Valid ∧ y.v6 = x.v6 ∧ ipListParseIsMapped y = false ∧
            rangeEndDenotes right = some y.toAddr := by
        intro hfilter
        obtain ⟨hend, hfam⟩ := Option.filter_eq_some_iff.mp hfilter
        obtain ⟨hyv, hym, hyd⟩ := ipListParseRangeEnd_spec hend
        exact ⟨hyv, by simpa using hfam, hym, hyd⟩
      cases hv6 : x.v6 with
      | true =>
        have hxa : x.toAddr = .v6 x.hi x.lo := by simp [IpListParseAddr.toAddr, hv6]
        simp only [hv6, if_true] at hy
        rw [← hv6] at hy
        obtain ⟨hyv, hfam, hym, hyd⟩ := hright hy
        rw [hxa]
        simp only [hyd, Option.map_some]
        exact ⟨hyv, hfam.trans hv6, hym, trivial⟩
      | false =>
        have hxa : x.toAddr = .v4 (x.lo.setWidth 32) := by simp [IpListParseAddr.toAddr, hv6]
        simp only [hv6, Bool.false_eq_true, if_false] at hy
        rw [hxa]
        cases hoctet : ipListParseDecimal right 3 with
        | none =>
          rw [hoctet] at hy
          rw [← hv6] at hy
          obtain ⟨hyv, hfam, hym, hyd⟩ := hright hy
          simp only [hyd, Option.map_some]
          exact ⟨hyv, hfam.trans hv6, hym, trivial⟩
        | some octet =>
          rw [hoctet] at hy
          simp only at hy
          split at hy
          · cases hy
          · rename_i hrange
            simp only [Option.some.injEq] at hy
            subst hy
            obtain ⟨hval, haddr⟩ := @lastOctet_spec _ hx hv6 octet (by omega)
            exact ⟨hval, rfl, rfl, by rw [haddr]⟩
    obtain ⟨hyv, hfam, hym, hdenotes⟩ := hyspec
    split at hsort
    · rename_i hless
      have := (ipListParseLess_iff y x).mp hless
      simp only [Prod.mk.injEq] at hsort
      obtain ⟨rfl, rfl⟩ := hsort
      exact ⟨hyv, hx, hfam.symm, by omega, hym, hxmapped, _, _, hdenotes, Or.inr ⟨rfl, rfl⟩⟩
    · rename_i hless
      rw [ipListParseLess_iff] at hless
      simp only [Prod.mk.injEq] at hsort
      obtain ⟨rfl, rfl⟩ := hsort
      exact ⟨hx, hyv, hfam, by omega, hxmapped, hym, _, _, hdenotes, Or.inl ⟨rfl, rfl⟩⟩

/-! ## Blocks -/

/-- The number is in `::ffff:0:0/96`. -/
theorem ipListParseIsMapped_iff (a : IpListParseAddr) :
    ipListParseIsMapped a = true ↔ a.v6 = true ∧ a.toNat / 2 ^ 32 = 0xffff := by
  obtain ⟨v6, hi, lo⟩ := a
  have hlo := lo.isLt
  have hshift : lo >>> 32 = 0xffff ↔ lo.toNat / 2 ^ 32 = 0xffff := by
    rw [← BitVec.toNat_inj, BitVec.toNat_ushiftRight, Nat.shiftRight_eq_div_pow]
    rfl
  have hzero : hi = 0 ↔ hi.toNat = 0 := by
    rw [← BitVec.toNat_inj]
    rfl
  simp only [ipListParseIsMapped, Bool.and_eq_true, beq_iff_eq, IpListParseAddr.toNat, hshift, hzero]
  constructor
  · rintro ⟨⟨hv6, hhi⟩, hlow⟩
    exact ⟨hv6, by omega⟩
  · rintro ⟨hv6, h⟩
    exact ⟨⟨hv6, by omega⟩, by omega⟩

section Blocks

variable {first last : IpListParseAddr} {blocks : List (ℕ × ℕ)}

/-- The block that is not canonical: a small block of IPv4-mapped addresses. -/
def MappedBlock (v6 : Bool) (block : ℕ × ℕ) : Prop :=
  v6 = true ∧ block.2 ≤ 32 ∧ block.1 / 2 ^ 32 = 0xffff

theorem ipListParseBits_ofNat (v6 : Bool) (n : ℕ) :
    ipListParseBits (.ofNat v6 n) = if v6 then 128 else 32 := rfl

/-- Any other block of a cover is canonical, and stands for its numbers. -/
theorem canonical_block (hlast : last.Valid) (hv6 : last.v6 = first.v6)
    (hsize : last.toNat - first.toNat + 1 < 2 ^ ipListParseBits first)
    (hcover : Cover (ipListParseBits first) last.toNat first.toNat blocks) {block : ℕ × ℕ}
    (hblock : block ∈ blocks) (hmapped : ¬MappedBlock first.v6 block) :
    ∃ hc : Canonical (.ofNat first.v6 block.1) ((if first.v6 then 128 else 32) - block.2),
      ∀ x, x ∈ hc.toPrefix.hosts ↔
        x.is4 = (!first.v6) ∧ block.1 ≤ x.toNat ∧ x.toNat < block.1 + 2 ^ block.2 := by
  obtain ⟨m, k⟩ := block
  obtain ⟨hkbits, haligned⟩ := hcover.aligned _ hblock
  have hbounds := hcover.tiles.mem_bounds hblock
  have hlastlt := IpListParseAddr.toNat_lt hlast
  rw [show ipListParseBits last = ipListParseBits first by unfold ipListParseBits; rw [hv6]] at hlastlt
  simp only at hkbits haligned hbounds
  unfold ipListParseBits at *
  have hpow := Nat.two_pow_pos k
  have hk : k < if first.v6 then 128 else 32 :=
    (Nat.pow_lt_pow_iff_right (by omega : 1 < 2)).mp (by omega)
  have hm : m < 2 ^ if first.v6 then 128 else 32 := by omega
  have hm128 : m < 2 ^ 128 := by
    split at hm <;> omega
  have hvalid := IpListParseAddr.valid_ofNat hm
  have hnat := @IpListParseAddr.toNat_ofNat first.v6 _ hm128
  have hc : Canonical (.ofNat first.v6 m) ((if first.v6 then 128 else 32) - k) := by
    have hpos : 0 < (if first.v6 then 128 else 32) - k := by omega
    refine ⟨hvalid, hpos, Nat.sub_le _ _, ?_, fun h96 => ?_⟩
    · apply (ipListParseMask_eq_self hvalid hpos (Nat.sub_le _ _)).mpr
      rw [hnat, ipListParseBits_ofNat, Nat.sub_sub_self hkbits]
      exact haligned
    · rw [Bool.eq_false_iff, ne_eq, ipListParseIsMapped_iff, hnat]
      rintro ⟨hfam, hbase⟩
      change first.v6 = true at hfam
      rw [hfam, if_pos rfl] at h96
      exact hmapped ⟨hfam, by simp only; omega, hbase⟩
  refine ⟨hc, fun x => ?_⟩
  have hhost : hc.toPrefix.hostBits = k := by
    show (IpListParseAddr.ofNat first.v6 m).toAddr.bitLen -
      ((if first.v6 then 128 else 32) - k) = k
    rw [IpListParseAddr.bitLen_toAddr, ipListParseBits_ofNat, Nat.sub_sub_self hkbits]
  have haddr : hc.toPrefix.addr.toNat = m := by
    show (IpListParseAddr.ofNat first.v6 m).toAddr.toNat = m
    rw [IpListParseAddr.toNat_toAddr hvalid, hnat]
  have hfam : hc.toPrefix.addr.is4 = !first.v6 := by
    show (IpListParseAddr.ofNat first.v6 m).toAddr.is4 = _
    rw [IpListParseAddr.is4_toAddr]
    rfl
  simp only
  rw [Prefix.mem_hosts, hhost, haddr, hfam]
  refine and_congr_right fun _ => ?_
  obtain ⟨c, rfl⟩ := haligned
  rw [Nat.mul_div_cancel_left _ hpow, Nat.div_eq_iff hpow, Nat.mul_comm (2 ^ k)]
  omega

/-- The range runs past the IPv4-mapped addresses from shortly before them. -/
def Straddles (first last : IpListParseAddr) : Prop :=
  first.v6 = true ∧ mappedBase - 2 ^ 32 < first.toNat ∧ first.toNat < mappedBase ∧
    mappedBase + 2 ^ 32 ≤ last.toNat

/-- A range that straddles the IPv4-mapped addresses has them as a block of their own. -/
theorem mappedBase_mem_of_straddles (h : Straddles first last)
    (hcover : Cover (ipListParseBits first) last.toNat first.toNat blocks) :
    (mappedBase, 32) ∈ blocks := by
  obtain ⟨hv6, hlow, hhigh, hlast⟩ := h
  have hbits : ipListParseBits first = 128 := if_pos hv6
  rw [hbits] at hcover
  obtain ⟨⟨m, k⟩, hb, hbm, hbe⟩ := hcover.exists_superset (m := mappedBase) (j := 32) (by decide)
    (Nat.dvd_mul_left _ _) hhigh.le (Nat.le_succ_of_le hlast)
  have hbound := (hcover.tiles.mem_bounds hb).1
  obtain ⟨-, c, hc⟩ := hcover.aligned _ hb
  simp only at hbm hbe hbound hc
  unfold mappedBase at *
  have hk : k ≤ 32 := by
    by_contra hk
    -- no multiple of `2 ^ 33` lies between `::fffe:0:0` and `::ffff:0:0`
    obtain ⟨d, hd⟩ : 2 ^ 33 ∣ m := dvd_trans (Nat.pow_dvd_pow 2 (by omega)) ⟨c, hc⟩
    omega
  have hpow : 2 ^ k ≤ 2 ^ 32 := Nat.pow_le_pow_right (by omega) hk
  have hm : m = 0xffff * 2 ^ 32 := by omega
  have hk32 : k = 32 := by
    have : 2 ^ 32 ≤ 2 ^ k := by omega
    have := (Nat.pow_le_pow_iff_right (by omega)).mp this
    omega
  rwa [hm, hk32] at hb

/-- Only a range that straddles the IPv4-mapped addresses has a block among them. -/
theorem straddles_of_mappedBlock (hfirst : ipListParseIsMapped first = false)
    (hlast : ipListParseIsMapped last = false) (hv6 : last.v6 = first.v6)
    (hcover : Cover (ipListParseBits first) last.toNat first.toNat blocks) {block : ℕ × ℕ}
    (hblock : block ∈ blocks) (hmapped : MappedBlock first.v6 block) : Straddles first last := by
  obtain ⟨m, k⟩ := block
  obtain ⟨hfam, hk, hm⟩ := hmapped
  have hbits : ipListParseBits first = 128 := if_pos hfam
  rw [hbits] at hcover
  have hbounds := hcover.tiles.mem_bounds hblock
  have hpow := Nat.two_pow_pos k
  rw [Bool.eq_false_iff, ne_eq, ipListParseIsMapped_iff] at hfirst hlast
  have hfirst' : first.toNat / 2 ^ 32 ≠ 0xffff := fun h => hfirst ⟨hfam, h⟩
  have hlast' : last.toNat / 2 ^ 32 ≠ 0xffff := fun h => hlast ⟨hv6.trans hfam, h⟩
  simp only at hk hm hbounds
  refine ⟨hfam, ?_, by unfold mappedBase; omega, by unfold mappedBase; omega⟩
  by_contra hlow
  -- otherwise the block of twice the size is inside the range, and within a block
  unfold mappedBase at hlow
  obtain ⟨b, hb, hbm, hbe⟩ := hcover.exists_superset (m := 0xfffe * 2 ^ 32) (j := 33) (by omega)
    (by decide) (by omega) (by omega)
  have hsame := hcover.tiles.eq_of_mem (g := m) hblock hb (Nat.le_refl _) (by simp only; omega)
    (by omega) (by omega)
  rw [← hsame] at hbm
  simp only at hbm
  omega

/-- `::ffff:0:0/96` is refused. -/
theorem normalizeCidr_mappedBase : normalizeCidr (blockCidr true (mappedBase, 32)) = none := by
  decide

/-- **A covered range is read back as itself, unless it straddles.** -/
theorem cover_faithful_iff (hlastv : last.Valid) (hv6 : last.v6 = first.v6)
    (hfirst : ipListParseIsMapped first = false) (hlast : ipListParseIsMapped last = false)
    (hsize : last.toNat - first.toNat + 1 < 2 ^ ipListParseBits first)
    (hcover : Cover (ipListParseBits first) last.toNat first.toNat blocks) :
    ((∀ cidr ∈ blocks.map (blockCidr first.v6), normalizeCidr cidr = some cidr) ∧
        readBack (blocks.map (blockCidr first.v6)) =
          {x | x.is4 = (!first.v6) ∧ first.toNat ≤ x.toNat ∧ x.toNat ≤ last.toNat}) ↔
      ¬Straddles first last := by
  constructor
  · rintro ⟨hfixed, -⟩ hstraddles
    have hmem := mappedBase_mem_of_straddles hstraddles hcover
    have := hfixed _ (List.mem_map_of_mem hmem)
    rw [hstraddles.1, normalizeCidr_mappedBase] at this
    cases this
  · intro hstraddles
    have hblocks : ∀ block ∈ blocks, ¬MappedBlock first.v6 block := fun block hb hmapped =>
      hstraddles (straddles_of_mappedBlock hfirst hlast hv6 hcover hb hmapped)
    constructor
    · intro cidr hcidr
      obtain ⟨block, hb, rfl⟩ := List.mem_map.mp hcidr
      obtain ⟨hc, -⟩ := canonical_block hlastv hv6 hsize hcover hb (hblocks block hb)
      exact hc.normalizeCidr_cidr
    · ext x
      simp only [readBack, List.mem_map, Set.mem_ofPred_eq, hcover.mem_iff]
      constructor
      · rintro ⟨_, ⟨block, hb, rfl⟩, p, hp, hx⟩
        obtain ⟨hc, hhosts⟩ := canonical_block hlastv hv6 hsize hcover hb (hblocks block hb)
        have hread := hc.parseTargetPrefix_cidr
        rw [show parseTargetPrefix (blockCidr first.v6 block) = _ from hread] at hp
        obtain rfl := Option.some.inj hp
        obtain ⟨hfam, hlow, hhigh⟩ := (hhosts x).mp hx
        exact ⟨hfam, block, hb, hlow, hhigh⟩
      · rintro ⟨hfam, block, hb, hlow, hhigh⟩
        obtain ⟨hc, hhosts⟩ := canonical_block hlastv hv6 hsize hcover hb (hblocks block hb)
        exact ⟨_, ⟨block, hb, rfl⟩, _, hc.parseTargetPrefix_cidr, (hhosts x).mpr ⟨hfam, hlow, hhigh⟩⟩

end Blocks

/-! ## Tokens -/

theorem straddlesMapped_iff (token : Text) :
    StraddlesMapped token ↔
      ∃ first last, tokenRange token = some (first, last) ∧ Straddles first last := Iff.rfl

theorem hyphen_mem_of_cut {token left right : Text} (h : cut '-' token = some (left, right)) :
    '-' ∈ token := by
  rw [(eq_append_of_cut h).1]
  simp

theorem tokenDenotes_range {token left right end' : Text} {port : Int} {a b : Addr}
    (hcut : cut '-' token = some (left, right))
    (hport : splitRangePort right = some (end', port)) (hends : rangeDenotes left end' = some (a, b)) :
    tokenDenotes token = between a b := by
  ext x
  simp only [tokenDenotes, Set.mem_union, Set.mem_ofPred_eq]
  constructor
  · rintro (⟨left', right', end'', port', a', b', hcut', hport', hends', hx⟩ | ⟨hhyphen, -⟩)
    · rw [hcut] at hcut'
      obtain ⟨rfl, rfl⟩ := Prod.mk.inj (Option.some.inj hcut')
      rw [hport] at hport'
      obtain ⟨rfl, rfl⟩ := Prod.mk.inj (Option.some.inj hport')
      rw [hends] at hends'
      obtain ⟨rfl, rfl⟩ := Prod.mk.inj (Option.some.inj hends')
      exact hx
    · exact absurd (hyphen_mem_of_cut hcut) hhyphen
  · exact fun hx => Or.inl ⟨left, right, end', port, a, b, hcut, hport, hends, hx⟩

theorem tokenDenotes_network {token network : Text} {port : Int} {p : Prefix} (hhyphen : '-' ∉ token)
    (hport : splitTokenPort token = some (network, port)) (hp : networkDenotes network = some p) :
    tokenDenotes token = p.hosts := by
  ext x
  simp only [tokenDenotes, Set.mem_union, Set.mem_ofPred_eq]
  constructor
  · rintro (⟨left', right', _, _, _, _, hcut, _⟩ | ⟨-, network', port', p', hport', hp', hx⟩)
    · exact absurd (hyphen_mem_of_cut hcut) hhyphen
    · rw [hport] at hport'
      obtain ⟨rfl, rfl⟩ := Prod.mk.inj (Option.some.inj hport')
      rw [hp] at hp'
      obtain rfl := Option.some.inj hp'
      exact hx
  · exact fun hx => Or.inr ⟨hhyphen, network, port, p, hport, hp, hx⟩

/-- **A token is read back as what it stands for exactly when it does not straddle the
IPv4-mapped addresses.** -/
theorem token_faithful_iff {token : Text} {cidrs : List Text} {port : Int}
    (h : ipListParseAddressToken token = some (cidrs, port)) :
    ((∀ cidr ∈ cidrs, normalizeCidr cidr = some cidr) ∧ readBack cidrs = tokenDenotes token) ↔
      ¬StraddlesMapped token := by
  unfold ipListParseAddressToken at h
  split at h
  · cases h
  · split at h
    · -- a range
      unfold ipListParseRangeToken at h
      cases hcut : cut '-' token with
      | none => simp [hcut] at h
      | some parts =>
        obtain ⟨left, right⟩ := parts
        rw [hcut] at h
        simp only at h
        cases hport : splitRangePort right with
        | none => simp [hport] at h
        | some parts =>
          obtain ⟨end', port'⟩ := parts
          rw [hport] at h
          simp only at h
          cases hends : rangeEnds left end' with
          | none => simp [hends] at h
          | some ends =>
            obtain ⟨first, last⟩ := ends
            rw [hends] at h
            obtain ⟨cidrs', hcover, heq⟩ := Option.map_eq_some_iff.mp h
            obtain ⟨rfl, -⟩ := Prod.mk.inj heq
            obtain ⟨hfirst, hlast, hv6, hle, hfm, hlm, a, b, hdenotes, hab⟩ := rangeEnds_spec hends
            obtain ⟨hsize, blocks, hblocks, rfl⟩ := ipListParseCoverRange_spec hlast hv6 hle hcover
            have hrange : tokenRange token = some (first, last) := by
              simp only [tokenRange, hcut, hport, hends, Option.bind_some]
            have hset : tokenDenotes token =
                {x | x.is4 = (!first.v6) ∧ first.toNat ≤ x.toNat ∧ x.toNat ≤ last.toNat} := by
              rw [tokenDenotes_range hcut hport hdenotes]
              ext x
              have hfam : a.is4 = !first.v6 := by
                rcases hab with ⟨rfl, rfl⟩ | ⟨rfl, rfl⟩ <;> rw [IpListParseAddr.is4_toAddr]
                rw [hv6]
              have hfn := IpListParseAddr.toNat_toAddr hfirst
              have hln := IpListParseAddr.toNat_toAddr hlast
              simp only [between, Set.mem_ofPred_eq, hfam]
              refine and_congr_right fun _ => ?_
              rcases hab with ⟨rfl, rfl⟩ | ⟨rfl, rfl⟩ <;> rw [hfn, hln] <;> omega
            rw [hset, cover_faithful_iff hlast hv6 hfm hlm hsize hblocks, straddlesMapped_iff]
            refine not_congr ⟨fun h => ⟨first, last, hrange, h⟩, ?_⟩
            rintro ⟨first', last', hrange', h⟩
            rw [hrange] at hrange'
            obtain ⟨rfl, rfl⟩ := Prod.mk.inj (Option.some.inj hrange')
            exact h
    · -- an address or a prefix
      rename_i hhyphen
      cases hport : splitTokenPort token with
      | none => simp [hport] at h
      | some parts =>
        obtain ⟨network, port'⟩ := parts
        rw [hport] at h
        obtain ⟨⟨addr, length⟩, hnetwork, heq⟩ := Option.map_eq_some_iff.mp h
        obtain ⟨rfl, -⟩ := Prod.mk.inj heq
        obtain ⟨hc, p, hp, hmasked⟩ := ipListParseNetwork_spec hnetwork
        have hstraddles : ¬StraddlesMapped token := by
          rintro ⟨first, last, hrange, -⟩
          unfold tokenRange at hrange
          rw [cut_eq_none hhyphen] at hrange
          cases hrange
        refine iff_of_true ⟨?_, ?_⟩ hstraddles
        · intro cidr hcidr
          obtain rfl := List.mem_singleton.mp hcidr
          exact hc.normalizeCidr_cidr
        · rw [tokenDenotes_network hhyphen hport hp]
          ext x
          simp only [readBack, List.mem_singleton, Set.mem_ofPred_eq, exists_eq_left,
            hc.parseTargetPrefix_cidr, Option.some.injEq, exists_eq_left']
          rw [← Prefix.masked_hosts p, ← hmasked]

end Throned.Scanner

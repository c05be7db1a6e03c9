import Throned.Analysis.TargetOrder

/-!
# One range of targets

The hosts of a range are offsets from its base: enumerated they are `0, 1, 2, …`,
sampled they are drawn by the range's own mixer, with the subnet bits above the low
word taken from a hash.  `address_mem_hosts` says that every address lies in the
prefix, `address_injOn` that distinct host indexes give distinct addresses, and
`range_target_spec` and `range_target_surjOn` carry this over to (address, port) pairs.
-/

set_option autoImplicit false

namespace Throned.Scan

open Throned.Library

/-! ## How many hosts an entry has -/

/-- **What `entryHosts` decides**: a range that is not sampled has all its hosts, a
sampled one at least one and at most as many as the sampler can tell apart. -/
theorem entryHosts_spec {limit hosts : Word64} {hostBits : ℕ} {sampled : Bool}
    (h : entryHosts limit hostBits = (hosts, sampled)) :
    0 < hosts.toNat ∧
      (sampled = false → hostBits < 64 ∧ hosts.toNat = 2 ^ hostBits) ∧
      (sampled = true → 0 < hostBits ∧ hosts.toNat ≤ 2 ^ min hostBits 64) := by
  unfold entryHosts at h
  generalize hlim : (if limit = 0 ∧ hostBits > maxEnumeratedBits then defaultSampleSize
    else limit) = entryLimit at h
  generalize hall : (if hostBits < 64 then (1 : Word64) <<< hostBits else 0) = all at h
  have hallval : hostBits < 64 → all.toNat = 2 ^ hostBits := by
    intro hlt
    rw [← hall, if_pos hlt, toNat_one_shiftLeft hlt]
  simp only [gt_iff_lt, BitVec.lt_def] at h
  split at h
  · rename_i hcond
    obtain ⟨hpos, hwide⟩ := hcond
    simp only [Prod.mk.injEq] at h
    obtain ⟨rfl, rfl⟩ := h
    refine ⟨hpos, fun h => absurd h (by simp), fun _ => ?_⟩
    rcases Nat.lt_or_ge hostBits 64 with hlt | hge
    · have hbelow : entryLimit.toNat < all.toNat := hwide.resolve_left (by omega)
      rw [hallval hlt] at hbelow
      rw [min_eq_left (by omega)]
      refine ⟨?_, by omega⟩
      rcases Nat.eq_zero_or_pos hostBits with rfl | hb
      · simp only [BitVec.ofNat_eq_ofNat, BitVec.toNat_ofNat, Nat.zero_mod] at hpos
        omega
      · exact hb
    · rw [min_eq_right hge]
      exact ⟨by omega, entryLimit.isLt.le⟩
  · rename_i hcond
    simp only [Prod.mk.injEq] at h
    obtain ⟨rfl, rfl⟩ := h
    have hlt : hostBits < 64 := by
      by_contra hge
      have hzero : ¬ (0 : Word64).toNat < entryLimit.toNat := fun h => hcond ⟨h, Or.inl (by omega)⟩
      have hlimit : limit = 0 ∧ hostBits > maxEnumeratedBits ∨ limit.toNat = 0 := by
        rcases Nat.eq_zero_or_pos limit.toNat with hz | hp
        · exact Or.inr hz
        · refine absurd ?_ hzero
          rw [← hlim, if_neg]
          · exact hp
          · rintro ⟨rfl, -⟩
            exact absurd hp (by simp)
      have hsample : entryLimit = defaultSampleSize := by
        rw [← hlim, if_pos]
        rcases hlimit with h | h
        · exact h
        · exact ⟨BitVec.eq_of_toNat_eq h, by unfold maxEnumeratedBits; omega⟩
      rw [hsample] at hzero
      exact hzero (by decide)
    refine ⟨?_, fun _ => ⟨hlt, hallval hlt⟩, fun h => absurd h (by simp)⟩
    rw [hallval hlt]
    exact Nat.two_pow_pos _

/-! ## Addresses -/

/-- The offset from the base that `address` adds: the low word and the subnet bits. -/
def TargetRange.offset (r : TargetRange) (hostIndex : Word64) : Word64 × Word64 :=
  let low := if r.sampled then r.sampler.mix hostIndex else hostIndex
  let high :=
    if r.sampled ∧ r.hostBits > 64 then
      (splitmix64 (hostIndex ^^^ r.highKey)).2 &&& bitMask (r.hostBits - 64)
    else 0
  (high, low)

/-- The offset as a number. -/
def TargetRange.offsetNat (r : TargetRange) (hostIndex : Word64) : ℕ :=
  (r.offset hostIndex).1.toNat * 2 ^ 64 + (r.offset hostIndex).2.toNat

/-- A range as `newRange` makes it from a masked prefix, with `hosts` hosts. -/
structure RangeOf (r : TargetRange) (p : Prefix) (hosts : ℕ) : Prop where
  base : r.base = p.masked.addr
  hostBits : r.hostBits = p.hostBits
  ports_ne : r.ports ≠ []
  ports_nodup : r.ports.Nodup
  ports_length : r.ports.length < 2 ^ 64
  enumerated : r.sampled = false → p.hostBits < 64 ∧ hosts = 2 ^ p.hostBits
  drawn : r.sampled = true →
    0 < p.hostBits ∧ hosts ≤ 2 ^ min p.hostBits 64 ∧ MixesWidth r.sampler (min p.hostBits 64)

section Range

variable {r : TargetRange} {p : Prefix} {hosts : ℕ}

theorem hosts_le (hr : RangeOf r p hosts) : hosts ≤ 2 ^ min p.hostBits 64 := by
  cases hs : r.sampled with
  | false =>
    obtain ⟨hlt, rfl⟩ := hr.enumerated hs
    rw [min_eq_left hlt.le]
  | true => exact (hr.drawn hs).2.1

/-- The low word of an offset stays below the block size and tells the indexes apart. -/
theorem offset_low (hr : RangeOf r p hosts) {i : Word64} (hi : i.toNat < hosts) :
    (r.offset i).2.toNat < 2 ^ min p.hostBits 64 := by
  cases hs : r.sampled with
  | false =>
    simp only [TargetRange.offset, hs, Bool.false_eq_true, if_false]
    exact lt_of_lt_of_le hi (hosts_le hr)
  | true =>
    obtain ⟨-, hle, hmix⟩ := hr.drawn hs
    simp only [TargetRange.offset, hs, if_true]
    exact (mix_bijOn (min_le_right _ _) hmix).mapsTo (lt_of_lt_of_le hi hle)

theorem offset_low_injective (hr : RangeOf r p hosts) {i j : Word64} (hi : i.toNat < hosts)
    (hj : j.toNat < hosts) (h : (r.offset i).2 = (r.offset j).2) : i = j := by
  cases hs : r.sampled with
  | false => simpa [TargetRange.offset, hs] using h
  | true =>
    obtain ⟨-, hle, hmix⟩ := hr.drawn hs
    simp only [TargetRange.offset, hs, if_true] at h
    exact (mix_bijOn (min_le_right _ _) hmix).injOn (lt_of_lt_of_le hi hle)
      (lt_of_lt_of_le hj hle) h

/-- Only a range wider than a word uses the high word, and then only its own bits. -/
theorem offset_high (hr : RangeOf r p hosts) (hwidth : p.hostBits ≤ 128) (i : Word64) :
    (r.offset i).1.toNat < 2 ^ (p.hostBits - 64) := by
  simp only [TargetRange.offset]
  split
  · rename_i hcond
    rw [hr.hostBits, toNat_and_mask (toNat_bitMask (by omega))]
    exact Nat.mod_lt _ (Nat.two_pow_pos _)
  · exact Nat.two_pow_pos _

theorem hostBits_le_bitLen (p : Prefix) : p.hostBits ≤ p.addr.bitLen := Nat.sub_le _ _

theorem bitLen_le (a : Addr) : a.bitLen ≤ 128 := by
  cases a <;> simp [Addr.bitLen]

theorem offsetNat_lt (hr : RangeOf r p hosts) {i : Word64} (hi : i.toNat < hosts) :
    r.offsetNat i < 2 ^ p.hostBits := by
  have hlow := offset_low hr hi
  have hhigh := offset_high hr ((hostBits_le_bitLen p).trans (bitLen_le _)) i
  unfold TargetRange.offsetNat
  rcases Nat.le_total p.hostBits 64 with hle | hge
  · rw [min_eq_left hle] at hlow
    have hzero : (r.offset i).1.toNat = 0 := by
      rw [Nat.sub_eq_zero_of_le hle, Nat.pow_zero] at hhigh
      omega
    rw [hzero]
    omega
  · rw [min_eq_right hge] at hlow
    have hsplit : (2 : ℕ) ^ p.hostBits = 2 ^ (p.hostBits - 64) * 2 ^ 64 := by
      rw [← Nat.pow_add, Nat.sub_add_cancel hge]
    rw [hsplit]
    calc (r.offset i).1.toNat * 2 ^ 64 + (r.offset i).2.toNat
        < ((r.offset i).1.toNat + 1) * 2 ^ 64 := by omega
      _ ≤ 2 ^ (p.hostBits - 64) * 2 ^ 64 := Nat.mul_le_mul_right _ hhigh

/-- A block that starts at a multiple of its size ends within the family's width. -/
theorem base_add_lt {d : ℕ} (p : Prefix) (hd : d < 2 ^ p.hostBits) :
    p.masked.addr.toNat + d < 2 ^ p.addr.bitLen := by
  obtain ⟨k, hk⟩ := p.dvd_toNat_masked
  have hlt : p.masked.addr.toNat < 2 ^ p.addr.bitLen := by
    have := p.masked.addr.toNat_lt
    rwa [show p.masked.addr = p.maskedAddr from rfl, p.bitLen_maskedAddr] at this
  have hsplit : (2 : ℕ) ^ p.addr.bitLen =
      2 ^ p.hostBits * 2 ^ (p.addr.bitLen - p.hostBits) := by
    rw [← Nat.pow_add, Nat.add_sub_cancel' (hostBits_le_bitLen p)]
  rw [hk, hsplit] at hlt ⊢
  have hkk : k + 1 ≤ 2 ^ (p.addr.bitLen - p.hostBits) := Nat.lt_of_mul_lt_mul_left hlt
  calc 2 ^ p.hostBits * k + d < 2 ^ p.hostBits * (k + 1) := by rw [Nat.mul_succ]; omega
    _ ≤ 2 ^ p.hostBits * 2 ^ (p.addr.bitLen - p.hostBits) := Nat.mul_le_mul_left _ hkk

/-- **`address` adds the offset to the base without a carry out.** -/
theorem address_spec (hr : RangeOf r p hosts) {i : Word64} (hi : i.toNat < hosts) :
    (r.address i).is4 = p.addr.is4 ∧
      (r.address i).toNat = p.masked.addr.toNat + r.offsetNat i := by
  have hsum := base_add_lt p (offsetNat_lt hr hi)
  have hlow := offset_low hr hi
  have hhigh := offset_high hr ((hostBits_le_bitLen p).trans (bitLen_le _)) i
  have hfamily : p.masked.addr.is4 = p.addr.is4 := p.is4_masked
  unfold TargetRange.offsetNat at hsum ⊢
  simp only [TargetRange.offset] at hsum hlow hhigh ⊢
  generalize hlo : (if r.sampled = true then r.sampler.mix i else i) = low at *
  generalize hhi : (if r.sampled = true ∧ r.hostBits > 64 then
    (splitmix64 (i ^^^ r.highKey)).2 &&& bitMask (r.hostBits - 64) else 0) = high at *
  simp only [TargetRange.address, hlo, hhi, hr.base]
  rw [← hfamily]
  cases hbase : p.masked.addr with
  | v4 value =>
    have hbits : p.addr.bitLen = 32 := by
      rw [← p.bitLen_maskedAddr, show p.maskedAddr = p.masked.addr from rfl, hbase]
      rfl
    have hle := hostBits_le_bitLen p
    rw [hbits] at hle hsum
    rw [Nat.sub_eq_zero_of_le (by omega), Nat.pow_zero] at hhigh
    simp only [hbase, Addr.toNat] at hsum ⊢
    refine ⟨rfl, ?_⟩
    have hlow32 : low.toNat < 2 ^ 32 := by omega
    rw [BitVec.toNat_add, BitVec.toNat_setWidth, Nat.mod_eq_of_lt hlow32,
      Nat.mod_eq_of_lt (by omega)]
    omega
  | v6 baseHigh baseLow =>
    have hbits : p.addr.bitLen = 128 := by
      rw [← p.bitLen_maskedAddr, show p.maskedAddr = p.masked.addr from rfl, hbase]
      rfl
    rw [hbits] at hsum
    simp only [hbase, Addr.toNat] at hsum ⊢
    refine ⟨rfl, ?_⟩
    have h1 := baseHigh.isLt
    have h2 := baseLow.isLt
    have h3 := low.isLt
    have h0 : (0 : Word64).toNat = 0 := rfl
    simp only [add64, BitVec.toNat_ofNat, h0]
    omega

theorem address_mem_hosts (hr : RangeOf r p hosts) {i : Word64} (hi : i.toNat < hosts) :
    r.address i ∈ p.hosts := by
  obtain ⟨hfamily, hval⟩ := address_spec hr hi
  rw [← p.masked_hosts]
  exact Prefix.mem_hosts_masked.mpr ⟨hfamily, r.offsetNat i, offsetNat_lt hr hi, hval⟩

/-- Distinct host indexes give distinct addresses: they already differ in the low word. -/
theorem address_injOn (hr : RangeOf r p hosts) {i j : Word64} (hi : i.toNat < hosts)
    (hj : j.toNat < hosts) (h : r.address i = r.address j) : i = j := by
  have hoff : r.offsetNat i = r.offsetNat j := by
    have h1 := (address_spec hr hi).2
    have h2 := (address_spec hr hj).2
    rw [h] at h1
    omega
  apply offset_low_injective hr hi hj
  unfold TargetRange.offsetNat at hoff
  have h1 := (r.offset i).2.isLt
  have h2 := (r.offset j).2.isLt
  exact BitVec.eq_of_toNat_eq (by omega)

/-- A range that is not sampled reaches every host of its prefix. -/
theorem address_surjOn (hr : RangeOf r p hosts) (hs : r.sampled = false) {a : Addr}
    (ha : a ∈ p.hosts) : ∃ i : Word64, i.toNat < hosts ∧ r.address i = a := by
  obtain ⟨hlt, hhosts⟩ := hr.enumerated hs
  rw [← p.masked_hosts] at ha
  obtain ⟨hfamily, d, hd, hval⟩ := Prefix.mem_hosts_masked.mp ha
  have hd64 : d < 2 ^ 64 := lt_trans hd (Nat.pow_lt_pow_right (by omega) hlt)
  have hi : (BitVec.ofNat 64 d).toNat = d := by rw [BitVec.toNat_ofNat, Nat.mod_eq_of_lt hd64]
  refine ⟨BitVec.ofNat 64 d, by rw [hi, hhosts]; exact hd, ?_⟩
  obtain ⟨h1, h2⟩ := address_spec hr (i := BitVec.ofNat 64 d) (by rw [hi, hhosts]; exact hd)
  apply Addr.eq_of_toNat_eq (h1.trans hfamily.symm)
  rw [h2, hval]
  simp [TargetRange.offsetNat, TargetRange.offset, hs, hi]

/-! ## Targets: an address and a port -/

theorem toNat_portCount (hr : RangeOf r p hosts) :
    (BitVec.ofNat 64 r.ports.length).toNat = r.ports.length := by
  rw [BitVec.toNat_ofNat, Nat.mod_eq_of_lt hr.ports_length]

theorem length_ports_pos (hr : RangeOf r p hosts) : 0 < r.ports.length :=
  List.length_pos_iff.mpr hr.ports_ne

/-- A place of the range is a host index and a port index. -/
theorem target_eq (hr : RangeOf r p hosts) (loc : Word64) :
    ∃ h : loc.toNat % r.ports.length < r.ports.length,
      (loc / BitVec.ofNat 64 r.ports.length).toNat = loc.toNat / r.ports.length ∧
        r.target loc = some
          { addr := r.address (loc / BitVec.ofNat 64 r.ports.length)
            port := r.ports.get ⟨loc.toNat % r.ports.length, h⟩ } := by
  have hpos := length_ports_pos hr
  have hcount := toNat_portCount hr
  have hne : BitVec.ofNat 64 r.ports.length ≠ 0 := by
    intro h
    rw [h, show (0 : Word64).toNat = 0 from rfl] at hcount
    omega
  refine ⟨Nat.mod_lt _ hpos, by rw [BitVec.toNat_udiv, hcount], ?_⟩
  simp only [TargetRange.target, if_neg hne, BitVec.toNat_umod, hcount]
  rw [List.getElem?_eq_getElem (Nat.mod_lt _ hpos)]
  rfl

theorem hostIndex_lt {loc : Word64} (hloc : loc.toNat < hosts * r.ports.length) :
    loc.toNat / r.ports.length < hosts :=
  Nat.div_lt_of_lt_mul (by rwa [Nat.mul_comm])

/-- **Every place of a range gives a target**: a host of the prefix with one of the
range's ports. -/
theorem range_target_spec (hr : RangeOf r p hosts) {loc : Word64}
    (hloc : loc.toNat < hosts * r.ports.length) :
    ∃ x, r.target loc = some x ∧ x.addr ∈ p.hosts ∧ x.port ∈ r.ports := by
  obtain ⟨h, hindex, htarget⟩ := target_eq hr loc
  refine ⟨_, htarget, ?_, List.get_mem _ _⟩
  exact address_mem_hosts hr (by rw [hindex]; exact hostIndex_lt hloc)

/-- Two places of a range with the same target are the same place. -/
theorem range_target_injOn (hr : RangeOf r p hosts) {loc loc' : Word64}
    (hloc : loc.toNat < hosts * r.ports.length) (hloc' : loc'.toNat < hosts * r.ports.length)
    (heq : r.target loc = r.target loc') : loc = loc' := by
  obtain ⟨h, hindex, htarget⟩ := target_eq hr loc
  obtain ⟨h', hindex', htarget'⟩ := target_eq hr loc'
  rw [htarget, htarget', Option.some.injEq, Target.mk.injEq] at heq
  obtain ⟨haddr, hport⟩ := heq
  have hhost : loc.toNat / r.ports.length = loc'.toNat / r.ports.length := by
    have := address_injOn hr (by rw [hindex]; exact hostIndex_lt hloc)
      (by rw [hindex']; exact hostIndex_lt hloc') haddr
    rw [← hindex, ← hindex', this]
  have hmod : loc.toNat % r.ports.length = loc'.toNat % r.ports.length :=
    congrArg Fin.val (hr.ports_nodup.injective_get hport)
  apply BitVec.eq_of_toNat_eq
  rw [← Nat.div_add_mod loc.toNat r.ports.length, hhost, hmod, Nat.div_add_mod]

/-- A range that is not sampled reaches every pair of a host and a port. -/
theorem range_target_surjOn (hr : RangeOf r p hosts) (hs : r.sampled = false)
    (hsmall : hosts * r.ports.length ≤ 2 ^ 64) {x : Target} (haddr : x.addr ∈ p.hosts)
    (hport : x.port ∈ r.ports) :
    ∃ loc : Word64, loc.toNat < hosts * r.ports.length ∧ r.target loc = some x := by
  obtain ⟨i, hi, hai⟩ := address_surjOn hr hs haddr
  obtain ⟨⟨k, hk⟩, hpk⟩ := List.mem_iff_get.mp hport
  have hpos := length_ports_pos hr
  have hlt : i.toNat * r.ports.length + k < hosts * r.ports.length := by
    calc i.toNat * r.ports.length + k < (i.toNat + 1) * r.ports.length := by
          rw [Nat.succ_mul]; omega
      _ ≤ hosts * r.ports.length := Nat.mul_le_mul_right _ hi
  have hval : (BitVec.ofNat 64 (i.toNat * r.ports.length + k)).toNat =
      i.toNat * r.ports.length + k := by
    rw [BitVec.toNat_ofNat, Nat.mod_eq_of_lt (lt_of_lt_of_le hlt hsmall)]
  refine ⟨BitVec.ofNat 64 (i.toNat * r.ports.length + k), by rw [hval]; exact hlt, ?_⟩
  obtain ⟨h, hindex, htarget⟩ := target_eq hr (BitVec.ofNat 64 (i.toNat * r.ports.length + k))
  have hdiv : (i.toNat * r.ports.length + k) / r.ports.length = i.toNat := by
    rw [Nat.mul_comm, Nat.mul_add_div hpos, Nat.div_eq_of_lt hk, Nat.add_zero]
  have hmod : (i.toNat * r.ports.length + k) % r.ports.length = k := by
    rw [Nat.mul_comm, Nat.mul_add_mod, Nat.mod_eq_of_lt hk]
  have hhost : BitVec.ofNat 64 (i.toNat * r.ports.length + k) /
      BitVec.ofNat 64 r.ports.length = i :=
    BitVec.eq_of_toNat_eq (by rw [hindex, hval, hdiv])
  rw [htarget, hhost, hai]
  simp only [hval, hmod, hpk]

end Range

end Throned.Scan

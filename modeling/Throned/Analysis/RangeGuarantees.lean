import Throned.Analysis.RangeCover

/-!
# The blocks of a range

What a range comes to in `ipListParseCoverRange`: the blocks, how few they are, and the
arithmetic over two 64-bit words of every round.
-/

set_option autoImplicit false

namespace Throned.Scanner

open Throned.Library

/-- The addresses at which the rounds of the loop start. -/
def coverRounds (bits : ℕ) (last : IpListParseAddr) :
    ℕ → IpListParseAddr → Option (List IpListParseAddr)
  | 0, _ => none
  | fuel + 1, first =>
    let blockEnd := coverEnd first (coverBits bits first last)
    if blockEnd.hi = last.hi ∧ blockEnd.lo = last.lo then some [first]
    else
      (coverRounds bits last fuel { nextAddr blockEnd with v6 := first.v6 }).map (first :: ·)

theorem coverLoop_eq_rounds (bits : ℕ) (last : IpListParseAddr) (fuel : ℕ) :
    ∀ first, coverLoop bits last fuel first = (coverRounds bits last fuel first).map
      (List.map fun first => ipListParseCidr first (bits - coverBits bits first last)) := by
  induction fuel with
  | zero => exact fun _ => rfl
  | succ fuel ih =>
    intro first
    rw [coverLoop, coverRounds]
    simp only
    split
    · rfl
    · rw [Option.map_map]
      refine (congrArg _ (ih { nextAddr (coverEnd first (coverBits bits first last)) with
        v6 := first.v6 })).trans ?_
      rw [Option.map_map]
      rfl

/-- The arithmetic of a round is that of the numbers. -/
structure RoundExact (bits : ℕ) (last first : IpListParseAddr) : Prop where
  /-- A shift of the high word; those of the low word are by less than 64 as they stand. -/
  shift : 64 < coverBits bits first last → coverBits bits first last - 64 < 64
  size : (rangeSize first last).1.toNat * 2 ^ 64 + (rangeSize first last).2.toNat =
    last.toNat - first.toNat + 1
  blockEnd : (coverEnd first (coverBits bits first last)).toNat + 1 =
    first.toNat + 2 ^ coverBits bits first last
  next : (coverEnd first (coverBits bits first last)).toNat < last.toNat →
    (nextAddr (coverEnd first (coverBits bits first last))).toNat =
      first.toNat + 2 ^ coverBits bits first last

theorem roundExact {bits : ℕ} {first last : IpListParseAddr} (hbits : bits ≤ 128)
    (hlast : last.toNat < 2 ^ 128) (hle : first.toNat ≤ last.toNat)
    (hsize : last.toNat - first.toNat + 1 < 2 ^ 128) : RoundExact bits last first := by
  have hblock := largestBlock_coverBits hbits hle hsize
  have hfits := hblock.fits
  have hpos := Nat.two_pow_pos (coverBits bits first last)
  have hk : coverBits bits first last < 128 := by
    refine (Nat.pow_lt_pow_iff_right (Nat.one_lt_two)).mp (lt_of_le_of_lt ?_ hsize)
    omega
  have hend := toNat_coverEnd hk hblock.aligned
  constructor
  · omega
  · exact toNat_rangeSize hle hsize
  · omega
  · intro hlt
    rw [toNat_nextAddr (by omega)]
    omega

/-- The rounds start where the blocks of the greedy cover do. -/
theorem coverRounds_of_cover {v6 : Bool} {last : IpListParseAddr} (hlast : last.toNat < 2 ^ 128)
    {start : ℕ} {blocks : List (ℕ × ℕ)}
    (h : Cover (if v6 then 128 else 32) last.toNat start blocks) :
    ∀ {fuel : ℕ} {first : IpListParseAddr}, first.v6 = v6 → first.toNat = start →
      last.toNat - start + 1 < 2 ^ 128 → last.toNat - start < fuel →
      coverRounds (if v6 then 128 else 32) last fuel first =
          some (blocks.map fun b => .ofNat v6 b.1) ∧
        ∀ b ∈ blocks, RoundExact (if v6 then 128 else 32) last (.ofNat v6 b.1) := by
  have hbits : (if v6 then 128 else 32) ≤ 128 := by
    split <;> omega
  have hsame : ∀ a : IpListParseAddr, (a.hi = last.hi ∧ a.lo = last.lo) ↔ a.toNat = last.toNat := by
    intro a
    have h1 := a.lo.isLt
    have h2 := last.lo.isLt
    rw [← BitVec.toNat_inj, ← BitVec.toNat_inj]
    simp only [IpListParseAddr.toNat]
    omega
  -- One round: its block is the one of the cover, and it is exact.
  have hround {first : IpListParseAddr} {k : ℕ} (hv6 : first.v6 = v6)
      (hblock : LargestBlock (if v6 then 128 else 32) first.toNat last.toNat k)
      (hsize : last.toNat - first.toNat + 1 < 2 ^ 128) :
      coverBits (if v6 then 128 else 32) first last = k ∧
        RoundExact (if v6 then 128 else 32) last (.ofNat v6 first.toNat) := by
    have hfits := hblock.fits
    have hpos := Nat.two_pow_pos k
    have hle : first.toNat ≤ last.toNat := by omega
    have hown := largestBlock_coverBits hbits hle hsize
    constructor
    · exact Nat.le_antisymm (hblock.largest _ hown.le_bits hown.aligned hown.fits)
        (hown.largest _ hblock.le_bits hblock.aligned hblock.fits)
    · rw [← hv6, IpListParseAddr.ofNat_toNat, hv6]
      exact roundExact hbits hlast hle hsize
  induction h with
  | @last start k hblock hend =>
    rintro fuel first hv6 rfl hsize hfuel
    obtain ⟨fuel, rfl⟩ : ∃ n, fuel = n + 1 := ⟨fuel - 1, by omega⟩
    obtain ⟨hk, hexact⟩ := hround hv6 hblock hsize
    have hle : first.toNat ≤ last.toNat := by
      have := Nat.two_pow_pos k
      omega
    have hat := (roundExact hbits hlast hle hsize).blockEnd
    constructor
    · rw [coverRounds]
      simp only [hsame]
      rw [if_pos (by rw [hk] at hat ⊢; omega), List.map_singleton, ← hv6,
        IpListParseAddr.ofNat_toNat]
    · intro b hb
      rw [List.mem_singleton.mp hb]
      exact hexact
  | @cons start k blocks hblock hrest ih =>
    rintro fuel first hv6 rfl hsize hfuel
    obtain ⟨fuel, rfl⟩ : ∃ n, fuel = n + 1 := ⟨fuel - 1, by omega⟩
    obtain ⟨hk, hexact⟩ := hround hv6 hblock hsize
    have hpos := Nat.two_pow_pos k
    have hfits := hblock.fits
    have hafter : first.toNat + 2 ^ k ≤ last.toNat := by
      have hne : blocks ≠ [] := by
        rintro rfl
        cases hrest
      obtain ⟨b, later, rfl⟩ := List.exists_cons_of_ne_nil hne
      have hbounds := hrest.tiles.mem_bounds List.mem_cons_self
      have := Nat.two_pow_pos b.2
      omega
    have hround := roundExact hbits hlast (by omega : first.toNat ≤ last.toNat) hsize
    have hat := hround.blockEnd
    have hnext := hround.next
    rw [hk] at hat hnext
    obtain ⟨hrounds, hexacts⟩ := @ih fuel
      { nextAddr (coverEnd first k) with v6 := first.v6 } hv6 (hnext (by omega)) (by omega)
      (by omega)
    constructor
    · rw [coverRounds]
      simp only [hsame, hk]
      rw [if_neg (by omega), hrounds, Option.map_some, List.map_cons]
      congr 2
      rw [← hv6, IpListParseAddr.ofNat_toNat]
    · intro b hb
      rcases List.mem_cons.mp hb with rfl | hb
      · exact hexact
      · exact hexacts b hb

/-- **The blocks of a range.** -/
structure CoversRange (first last : IpListParseAddr) (blocks : List (ℕ × ℕ)) : Prop where
  /-- The loop ends, with the texts of the blocks. -/
  texts : ipListParseCoverRange first last = some (blocks.map (blockCidr first.v6))
  /-- In ascending order, and so disjoint. -/
  ascending : blocks.Pairwise fun a b => a.1 + 2 ^ a.2 ≤ b.1
  aligned : ∀ b ∈ blocks, 2 ^ b.2 ∣ b.1
  /-- None is the whole address space. -/
  notWhole : ∀ b ∈ blocks, b.2 < ipListParseBits first
  union : ∀ x, (first.toNat ≤ x ∧ x ≤ last.toNat) ↔ ∃ b ∈ blocks, b.1 ≤ x ∧ x < b.1 + 2 ^ b.2
  fewest : ∀ others : List (ℕ × ℕ),
    (∀ b ∈ others, b.2 ≤ ipListParseBits first ∧ 2 ^ b.2 ∣ b.1) →
    (∀ x, (first.toNat ≤ x ∧ x ≤ last.toNat) ↔ ∃ b ∈ others, b.1 ≤ x ∧ x < b.1 + 2 ^ b.2) →
    blocks.length ≤ others.length
  /-- A round for every block, and each round is exact. -/
  rounds : coverRounds (ipListParseBits first) last (last.toNat - first.toNat + 1) first =
    some (blocks.map fun b => .ofNat first.v6 b.1)
  exact_ : ∀ b ∈ blocks, RoundExact (ipListParseBits first) last (.ofNat first.v6 b.1)

theorem ipListParseCoverRange_covers (first last : IpListParseAddr) (hlast : last.Valid)
    (hfamily : last.v6 = first.v6) (hle : first.toNat ≤ last.toNat)
    (hpart : ¬ (first.toNat = 0 ∧ last.toNat + 1 = 2 ^ ipListParseBits first)) :
    ∃ blocks, CoversRange first last blocks := by
  have hsame : ipListParseBits last = ipListParseBits first := by
    unfold ipListParseBits
    rw [hfamily]
  have hbits : ipListParseBits first ≤ 128 := by
    unfold ipListParseBits
    split <;> omega
  have hlastlt := IpListParseAddr.toNat_lt hlast
  rw [hsame] at hlastlt
  have hpow : 2 ^ ipListParseBits first ≤ 2 ^ 128 := Nat.pow_le_pow_right Nat.two_pos hbits
  have hsize : last.toNat - first.toNat + 1 < 2 ^ ipListParseBits first := by omega
  obtain ⟨blocks, hcover, hloop⟩ := coverLoop_spec hlast rfl hle hsize
    (Nat.lt_succ_self (last.toNat - first.toNat))
  obtain ⟨hrounds, hexact⟩ := coverRounds_of_cover (by omega) hcover rfl rfl (by omega)
    (Nat.lt_succ_self (last.toNat - first.toNat))
  have htop : ¬ (first.hi = 0 ∧ first.lo = 0 ∧
      last.hi = (if first.v6 then BitVec.allOnes 64 else 0) ∧
      last.lo = if first.v6 then BitVec.allOnes 64 else 0xffffffff) := by
    rintro ⟨hhi, hlo, hhi', hlo'⟩
    apply hpart
    unfold IpListParseAddr.toNat ipListParseBits
    rw [hhi, hlo, hhi', hlo']
    cases first.v6 <;> decide
  refine ⟨blocks, ?_⟩
  constructor
  · rw [ipListParseCoverRange, if_neg htop]
    exact hloop
  · exact hcover.tiles.pairwise
  · exact fun b hb => (hcover.aligned b hb).2
  · intro b hb
    have hbounds := hcover.tiles.mem_bounds hb
    refine (Nat.pow_lt_pow_iff_right Nat.one_lt_two).mp (lt_of_le_of_lt ?_ hsize)
    omega
  · exact hcover.mem_iff
  · exact fun others haligned hmem => hcover.length_le haligned hmem
  · exact hrounds
  · exact hexact

/-- A range that crosses the low word: from `::1` to `::2:0:0:0:0`. -/
theorem ipListParseCoverRange_crossing :
    ∃ blocks, CoversRange ⟨true, 0, 1⟩ ⟨true, 2, 0⟩ blocks :=
  ipListParseCoverRange_covers ⟨true, 0, 1⟩ ⟨true, 2, 0⟩ nofun rfl (by decide) (by decide)

end Throned.Scanner

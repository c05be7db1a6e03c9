import Throned.Library.WordMixing
import Throned.Model.Targets

/-!
# The order of the targets is a permutation

`newMixer width key` permutes the words below `2 ^ width` whatever the key
(`mix_bijOn`), and cycle walking over the mixer of the enclosing power of two permutes
the positions below the total (`permute_bijOn`); the walk always ends.
-/

set_option autoImplicit false

namespace Throned.Scan

open Throned.Library

theorem toNat_one_shiftLeft {k : ℕ} (hk : k < 64) : ((1 : Word64) <<< k).toNat = 2 ^ k := by
  have hpow : (2 : ℕ) ^ k < 2 ^ 64 := Nat.pow_lt_pow_right (by omega) hk
  rw [BitVec.toNat_shiftLeft, Nat.shiftLeft_eq, show (1 : Word64).toNat = 1 from rfl,
    Nat.one_mul, Nat.mod_eq_of_lt hpow]

theorem toNat_bitMask {width : ℕ} (hw : width ≤ 64) : (bitMask width).toNat = 2 ^ width - 1 := by
  unfold bitMask
  rcases Nat.lt_or_ge width 64 with hlt | hge
  · have hpow : (2 : ℕ) ^ width < 2 ^ 64 := Nat.pow_lt_pow_right (by omega) hlt
    have hpos := Nat.two_pow_pos width
    rw [if_neg (by omega), BitVec.toNat_sub, toNat_one_shiftLeft hlt,
      show (1 : Word64).toNat = 1 from rfl]
    omega
  · have heq : width = 64 := by omega
    rw [if_pos hge, heq, BitVec.toNat_allOnes]

/-- What a mixer needs to be a permutation: the mask of its width, a real shift, odd
multipliers. -/
structure MixesWidth (m : Mixer) (width : ℕ) : Prop where
  mask : m.mask.toNat = 2 ^ width - 1
  shift : 0 < m.shift
  odd : ∀ round ∈ m.rounds, round.2.toNat % 2 = 1

/-- The multipliers are made odd before they are masked, which keeps their lowest bit. -/
theorem mixerConstants_odd {mask : Word64} {width : ℕ} (hw : 0 < width)
    (hmask : mask.toNat = 2 ^ width - 1) (n : ℕ) (state : Word64) :
    ∀ round ∈ mixerConstants mask n state, round.2.toNat % 2 = 1 := by
  induction n generalizing state with
  | zero => simp [mixerConstants]
  | succ n ih =>
    intro round hround
    simp only [mixerConstants, List.mem_cons] at hround
    rcases hround with rfl | hround
    · have hdvd : 2 ∣ 2 ^ width := dvd_pow_self 2 (by omega)
      rw [toNat_and_mask hmask, Nat.mod_mod_of_dvd _ hdvd, BitVec.toNat_or]
      exact Nat.or_mod_two_eq_one.mpr (Or.inr rfl)
    · exact ih _ round hround

theorem newMixer_mixesWidth {width : ℕ} (hpos : 0 < width) (hw : width ≤ 64) (key : Word64) :
    MixesWidth (newMixer width key) width where
  mask := toNat_bitMask hw
  shift := lt_of_lt_of_le Nat.one_pos (le_max_left _ _)
  odd := mixerConstants_odd hpos (toNat_bitMask hw) _ _

/-- **The mixer is a permutation** of the words below `2 ^ width`. -/
theorem mix_bijOn {m : Mixer} {width : ℕ} (hw : width ≤ 64) (hm : MixesWidth m width) :
    Set.BijOn m.mix (lowWords 64 width) (lowWords 64 width) := by
  obtain ⟨hmask, hshift, hodd⟩ := hm
  have hround : ∀ round ∈ m.rounds,
      Set.BijOn (fun x => mixRound m.mask m.shift x round) (lowWords 64 width)
        (lowWords 64 width) := by
    intro round hmem
    exact (mul_mask_bijOn hmask hw (hodd round hmem)).comp
      ((xor_shiftRight_bijOn hshift).comp (add_mask_bijOn hmask hw round.1))
  have hfold : ∀ rounds : List (Word64 × Word64), (∀ round ∈ rounds, round ∈ m.rounds) →
      Set.BijOn (fun x => rounds.foldl (mixRound m.mask m.shift) x) (lowWords 64 width)
        (lowWords 64 width) := by
    intro rounds
    induction rounds with
    | nil => exact fun _ => Set.bijOn_id _
    | cons round rounds ih =>
      intro hall
      exact (ih fun r hr => hall r (List.mem_cons_of_mem _ hr)).comp
        (hround round (hall round List.mem_cons_self))
  exact hfold m.rounds fun _ h => h

/-! ## Cycle walking below the total -/

/-- A total above one needs at least one bit and fits the width of its order. -/
theorem len64_pred {total : Word64} (h : 1 < total.toNat) :
    0 < len64 (total - 1) ∧ len64 (total - 1) ≤ 64 ∧
      total.toNat ≤ 2 ^ len64 (total - 1) := by
  have hpred : (total - 1).toNat = total.toNat - 1 := by
    rw [BitVec.toNat_sub_of_le]
    · rfl
    · rw [BitVec.le_def]
      exact h.le
  have hlt := total.isLt
  have hne : total - 1 ≠ 0 := by
    intro heq
    rw [heq] at hpred
    simp only [BitVec.ofNat_eq_ofNat, BitVec.toNat_ofNat, Nat.zero_mod] at hpred
    omega
  have hlog : (total.toNat - 1).log2 < 64 := (Nat.log2_lt (by omega)).mpr (by omega)
  have hsize := Nat.lt_log2_self (n := total.toNat - 1)
  unfold len64
  rw [if_neg hne, hpred]
  exact ⟨by omega, by omega, by omega⟩

/-- The words below a total. -/
def positions (total : Word64) : Set Word64 := {p | p < total}

theorem mem_positions {total p : Word64} : p ∈ positions total ↔ p.toNat < total.toNat := by
  simp [positions, BitVec.lt_def]

/-- Where the mixer permutes an enclosing power of two, the walk ends and permutes the
positions. -/
theorem walk_bijOn {m : Mixer} {width : ℕ} {total : Word64} (hw : width ≤ 64)
    (hm : MixesWidth m width) (htotal : total.toNat ≤ 2 ^ width) :
    ∃ order : Word64 → Word64,
      (∀ p ∈ positions total,
        cycleWalk m.mix (fun y => decide (y < total)) walkBound p = some (order p)) ∧
      Set.BijOn order (positions total) (positions total) := by
  have hmix := mix_bijOn hw hm
  have hlow : ∀ p ∈ positions total, p ∈ lowWords 64 width :=
    fun p hp => lt_of_lt_of_le (mem_positions.mp hp) htotal
  have hends : ∀ p ∈ positions total, ∃ y,
      cycleWalk m.mix (fun y => decide (y < total)) walkBound p = some y := by
    intro p hp
    refine cycleWalk_isSome lowWords_finite hmix (hlow p hp) (decide_eq_true (show p < total from hp)) ?_
    exact ncard_lowWords_le.trans (Nat.pow_le_pow_right (by omega) hw)
  choose! order horder using hends
  refine ⟨order, horder, ?_⟩
  have hset : positions total =
      {x | x ∈ lowWords 64 width ∧ decide (x < total) = true} := by
    ext x
    exact ⟨fun hx => ⟨hlow x hx, decide_eq_true (show x < total from hx)⟩,
      fun hx => show x < total from of_decide_eq_true hx.2⟩
  have := cycleWalk_bijOn (g := order) lowWords_finite hmix (p := fun y => decide (y < total))
    (n := walkBound) (fun x _ hp => horder x (show x < total from of_decide_eq_true hp))
  rwa [← hset] at this

/-- **`permute` is total and a bijection** of the positions below the total. -/
theorem permute_bijOn (t : Targets)
    (horder : 1 < t.total.toNat → MixesWidth t.order (len64 (t.total - 1))) :
    ∃ order : Word64 → Word64, (∀ p ∈ positions t.total, t.permute p = some (order p)) ∧
      Set.BijOn order (positions t.total) (positions t.total) := by
  by_cases hone : t.total ≤ 1
  · -- at most one position, and it stays
    have hval : t.total.toNat ≤ 1 := BitVec.le_def.mp hone
    have hzero : ∀ p ∈ positions t.total, p = 0 := by
      intro p hp
      have hlt := mem_positions.mp hp
      exact BitVec.eq_of_toNat_eq (by rw [show (0 : Word64).toNat = 0 from rfl]; omega)
    refine ⟨id, fun p hp => ?_, Set.bijOn_id _⟩
    rw [hzero p hp, Targets.permute, if_pos hone, id]
  · have hlt : 1 < t.total.toNat := by
      have := mt BitVec.le_def.mpr hone
      simpa using this
    obtain ⟨-, hw, htotal⟩ := len64_pred hlt
    obtain ⟨order, hwalk, hbij⟩ := walk_bijOn hw (horder hlt) htotal
    refine ⟨order, fun p hp => ?_, hbij⟩
    rw [Targets.permute, if_neg hone, hwalk p hp]

end Throned.Scan

import Mathlib.Tactic.Abel
import Throned.Model.TrafficStats

/-!
# The rollup of the traffic statistics

A minute row that moves to its hour stays in what a query sums, where the query cannot tell
the minute from the hour.
-/

set_option autoImplicit false

namespace Throned.Stats

open Throned.Library

namespace Tiers

variable {κ : Type} [DecidableEq κ] {t : Tiers κ} {p : Int × κ → Bool} {olderThanSecs : Int}

/-- A condition does not tell the minute rows before a cut-off from the rows of their hours. -/
def Blind (t : Tiers κ) (olderThanSecs : Int) (p : Int × κ → Bool) : Prop :=
  ∀ key ∈ t.minute.keys, key.1 < olderThanSecs → p (hourKey key) = p key

/-- **A rollup keeps the bytes under every such condition.** -/
theorem sum_rollup (h : t.Blind olderThanSecs p) : (t.rollup olderThanSecs).sum p = t.sum p := by
  unfold sum rollup
  simp only
  have hmoved : sumIf p (regroup hourKey
      (t.minute.keep fun key => decide (key.1 < olderThanSecs)).rows) =
        (t.minute.keep fun key => decide (key.1 < olderThanSecs)).total p := by
    rw [sumIf_regroup]
    refine sumIf_congr fun entry hentry => ?_
    obtain ⟨hrow, hold⟩ := List.mem_filter.mp hentry
    exact h entry.1 (List.mem_map_of_mem hrow) (of_decide_eq_true hold)
  rw [Ledger.total_addAll, hmoved, ← t.minute.total_keep_add p
    (fun key => decide (key.1 < olderThanSecs))]
  abel

theorem mem_hour_rollup {key : Int × κ} :
    key ∈ (t.rollup olderThanSecs).hour.keys ↔ key ∈ t.hour.keys ∨
      ∃ old ∈ t.minute.keys, old.1 < olderThanSecs ∧ hourKey old = key := by
  unfold rollup
  simp only
  rw [Ledger.mem_keys_addAll, keys_regroup, List.mem_dedup]
  refine or_congr_right ?_
  constructor
  · intro hmem
    obtain ⟨entry, hentry, rfl⟩ := List.mem_map.mp hmem
    have hkey := Ledger.mem_keys_keep.mp (List.mem_map_of_mem (f := Prod.fst) hentry)
    exact ⟨entry.1, hkey.1, of_decide_eq_true hkey.2, rfl⟩
  · rintro ⟨old, hold, hlt, rfl⟩
    have hkey := (Ledger.mem_keys_keep (t := t.minute)
      (p := fun key => decide (key.1 < olderThanSecs))).mpr ⟨hold, decide_eq_true hlt⟩
    obtain ⟨entry, hentry, rfl⟩ := List.mem_map.mp hkey
    exact List.mem_map_of_mem (f := fun entry : (Int × κ) × Amount => hourKey entry.1) hentry

theorem mem_minute_rollup {key : Int × κ} :
    key ∈ (t.rollup olderThanSecs).minute.keys ↔ key ∈ t.minute.keys ∧ ¬ key.1 < olderThanSecs := by
  unfold rollup
  simp only
  rw [Ledger.mem_keys_keep, Bool.not_eq_true', decide_eq_false_iff_not]

omit [DecidableEq κ] in
theorem hasRow_iff : t.hasRow p = true ↔
    (∃ key ∈ t.minute.keys, p key = true) ∨ ∃ key ∈ t.hour.keys, p key = true := by
  unfold hasRow
  rw [Bool.or_eq_true, List.any_eq_true, List.any_eq_true]

/-- A rollup neither makes nor loses a row of the answer. -/
theorem hasRow_rollup (h : t.Blind olderThanSecs p) :
    (t.rollup olderThanSecs).hasRow p = t.hasRow p := by
  rw [Bool.eq_iff_iff, hasRow_iff, hasRow_iff]
  constructor
  · rintro (⟨key, hkey, hp⟩ | ⟨key, hkey, hp⟩)
    · exact Or.inl ⟨key, (mem_minute_rollup.mp hkey).1, hp⟩
    · rcases mem_hour_rollup.mp hkey with hkey | ⟨old, hold, hlt, rfl⟩
      · exact Or.inr ⟨key, hkey, hp⟩
      · exact Or.inl ⟨old, hold, (h old hold hlt).symm.trans hp⟩
  · rintro (⟨key, hkey, hp⟩ | ⟨key, hkey, hp⟩)
    · by_cases hlt : key.1 < olderThanSecs
      · exact Or.inr ⟨hourKey key, mem_hour_rollup.mpr (Or.inr ⟨key, hkey, hlt, rfl⟩),
          (h key hkey hlt).trans hp⟩
      · exact Or.inl ⟨key, mem_minute_rollup.mpr ⟨hkey, hlt⟩, hp⟩
    · exact Or.inr ⟨key, mem_hour_rollup.mpr (Or.inl hkey), hp⟩

end Tiers

/-! ## What cannot tell a minute from its hour -/

variable {κ : Type}

theorem alignHour_of_nonneg {bucket : Int} (h : 0 ≤ bucket) :
    alignHour bucket = bucket / 3600 * 3600 := by
  unfold alignHour
  rw [Int.tdiv_eq_ediv_of_nonneg h]

theorem alignHour_of_dvd {bucket : Int} (h : 3600 ∣ bucket) : alignHour bucket = bucket :=
  Int.tdiv_mul_cancel h

/-- The division of a bucket, shifted to the zone of a query, takes it to the hour below. -/
def Floors (bucket utcOffsetSecs : Int) : Prop := 0 ≤ bucket + utcOffsetSecs ∨ 3600 ∣ bucket

/-- A range of whole hours. -/
theorem inRange_hourKey {fromSecs toSecs : Int} (hfrom : 3600 ∣ fromSecs) (hto : 3600 ∣ toSecs)
    {key : Int × κ} (hkey : Floors key.1 0) :
    inRange fromSecs toSecs (Tiers.hourKey key) = inRange fromSecs toSecs key := by
  unfold inRange Tiers.hourKey
  simp only
  rcases hkey with hkey | hkey
  · rw [add_zero] at hkey
    rw [alignHour_of_nonneg hkey]
    obtain ⟨m, rfl⟩ := hfrom
    obtain ⟨n, rfl⟩ := hto
    congr 1
    · rw [decide_eq_decide]
      omega
    · rw [decide_eq_decide]
      omega
  · rw [alignHour_of_dvd hkey]

/-- Buckets of whole hours, in a zone of whole hours. -/
theorem bucketExpr_alignHour {bucketSecs utcOffsetSecs bucket : Int} (hsecs : 3600 ∣ bucketSecs)
    (hoffset : 3600 ∣ utcOffsetSecs) (hbucket : Floors bucket 0) (h : Floors bucket utcOffsetSecs) :
    bucketExpr bucketSecs utcOffsetSecs (alignHour bucket) =
      bucketExpr bucketSecs utcOffsetSecs bucket := by
  by_cases hdvd : 3600 ∣ bucket
  · rw [alignHour_of_dvd hdvd]
  · have hlow : 0 ≤ bucket := by
      have := hbucket.resolve_right hdvd
      omega
    have hshift : 0 ≤ bucket + utcOffsetSecs := h.resolve_right hdvd
    obtain ⟨s, rfl⟩ := hsecs
    obtain ⟨m, rfl⟩ := hoffset
    have hlo : 0 ≤ bucket / 3600 * 3600 + 3600 * m := by omega
    have hdiv : (bucket / 3600 * 3600 + 3600 * m) / 3600 = (bucket + 3600 * m) / 3600 := by omega
    unfold bucketExpr
    rw [alignHour_of_nonneg hlow, Int.tdiv_eq_ediv_of_nonneg hlo,
      Int.tdiv_eq_ediv_of_nonneg hshift, ← Int.ediv_ediv_of_nonneg (by decide),
      ← Int.ediv_ediv_of_nonneg (by decide), hdiv]

end Throned.Stats

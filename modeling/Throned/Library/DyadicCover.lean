import Mathlib.Data.Finset.Card
import Mathlib.Data.Set.Lattice
import Mathlib.Tactic.Ring
import Throned.Library.Tiling

/-!
# Covering an interval with aligned blocks

A block `(m, k)` is the numbers from `m` to `m + 2 ^ k - 1`; it is aligned when `2 ^ k`
divides `m`.  `Cover` walks an interval from its first number, each time taking the
largest aligned block that still fits.  The blocks tile the interval, and every aligned
block inside the interval lies within one of them (`Cover.exists_superset`), so no cover by
aligned blocks has fewer (`Cover.length_le`).
-/

set_option autoImplicit false

namespace Throned.Library

/-- The largest aligned block at `first` that ends by `last`, among those of at most
`2 ^ bits` numbers, has `2 ^ k` numbers. -/
structure LargestBlock (bits first last k : ℕ) : Prop where
  le_bits : k ≤ bits
  aligned : 2 ^ k ∣ first
  fits : first + 2 ^ k ≤ last + 1
  largest : ∀ j ≤ bits, 2 ^ j ∣ first → first + 2 ^ j ≤ last + 1 → j ≤ k

/-- The greedy cover of the numbers from `first` to `last`. -/
inductive Cover (bits last : ℕ) : ℕ → List (ℕ × ℕ) → Prop where
  | last {first k : ℕ} (h : LargestBlock bits first last k) (hlast : first + 2 ^ k = last + 1) :
      Cover bits last first [(first, k)]
  | cons {first k : ℕ} {blocks : List (ℕ × ℕ)} (h : LargestBlock bits first last k)
      (hrest : Cover bits last (first + 2 ^ k) blocks) : Cover bits last first ((first, k) :: blocks)

namespace Cover

variable {bits first last : ℕ} {blocks : List (ℕ × ℕ)}

theorem tiles (h : Cover bits last first blocks) :
    Tiles Prod.fst (fun b : ℕ × ℕ => 2 ^ b.2) first blocks (last + 1) := by
  induction h with
  | last _ hlast => exact ⟨rfl, Nat.two_pow_pos _, hlast⟩
  | cons _ _ ih => exact ⟨rfl, Nat.two_pow_pos _, ih⟩

theorem aligned (h : Cover bits last first blocks) :
    ∀ b ∈ blocks, b.2 ≤ bits ∧ 2 ^ b.2 ∣ b.1 := by
  induction h with
  | last h _ =>
    intro b hb
    obtain rfl := List.mem_singleton.mp hb
    exact ⟨h.le_bits, h.aligned⟩
  | cons h _ ih =>
    intro b hb
    rcases List.mem_cons.mp hb with rfl | hb
    · exact ⟨h.le_bits, h.aligned⟩
    · exact ih b hb

/-- A number is in the interval when it is in a block. -/
theorem mem_iff (h : Cover bits last first blocks) (x : ℕ) :
    (first ≤ x ∧ x ≤ last) ↔ ∃ b ∈ blocks, b.1 ≤ x ∧ x < b.1 + 2 ^ b.2 := by
  constructor
  · rintro ⟨hfirst, hlast⟩
    obtain ⟨i, hi, hx⟩ := h.tiles.exists_index hfirst (Nat.lt_succ_of_le hlast)
    exact ⟨blocks[i], List.getElem_mem hi, hx⟩
  · rintro ⟨b, hb, hx⟩
    have := h.tiles.mem_bounds hb
    omega

/-- Two aligned blocks that meet: the smaller lies within the larger. -/
theorem block_le_of_aligned {m n j k : ℕ} (hm : 2 ^ j ∣ m) (hn : 2 ^ k ∣ n) (hjk : j ≤ k)
    (hlow : n ≤ m) (hmeet : m < n + 2 ^ k) : m + 2 ^ j ≤ n + 2 ^ k := by
  obtain ⟨a, rfl⟩ := hm
  obtain ⟨b, hb⟩ : 2 ^ j ∣ n + 2 ^ k :=
    Nat.dvd_add (dvd_trans (Nat.pow_dvd_pow 2 hjk) hn) (Nat.pow_dvd_pow 2 hjk)
  rw [hb] at hmeet ⊢
  have hlt : a < b := Nat.lt_of_mul_lt_mul_left hmeet
  calc 2 ^ j * a + 2 ^ j = 2 ^ j * (a + 1) := by ring
    _ ≤ 2 ^ j * b := Nat.mul_le_mul_left _ hlt

/-- **Every aligned block inside the interval lies within a block of the cover.** -/
theorem exists_superset (h : Cover bits last first blocks) {m j : ℕ} (hj : j ≤ bits)
    (hm : 2 ^ j ∣ m) (hlow : first ≤ m) (hhigh : m + 2 ^ j ≤ last + 1) :
    ∃ b ∈ blocks, b.1 ≤ m ∧ m + 2 ^ j ≤ b.1 + 2 ^ b.2 := by
  have hpos : 0 < 2 ^ j := Nat.two_pow_pos j
  -- the block at the start of the interval covers `m`, or ends before it
  have hstep : ∀ {first k : ℕ}, LargestBlock bits first last k → first ≤ m → m < first + 2 ^ k →
      m + 2 ^ j ≤ first + 2 ^ k := by
    intro first k hblock hlow hmeet
    rcases Nat.le_total j k with hjk | hkj
    · exact block_le_of_aligned hm hblock.aligned hjk hlow hmeet
    · -- a larger block would have been taken
      have hsame : first = m := by
        by_contra hne
        have hlt : first < m := lt_of_le_of_ne hlow hne
        obtain ⟨c, hc⟩ := hblock.aligned
        obtain ⟨d, hd⟩ := dvd_trans (Nat.pow_dvd_pow 2 hkj) hm
        rw [hc, hd] at hlt hmeet
        have hcd : c < d := Nat.lt_of_mul_lt_mul_left hlt
        have hle : 2 ^ k * (c + 1) ≤ 2 ^ k * d := Nat.mul_le_mul_left _ hcd
        rw [Nat.mul_add, Nat.mul_one] at hle
        omega
      subst hsame
      have := hblock.largest j hj hm hhigh
      rw [Nat.le_antisymm hkj this]
  induction h with
  | @last first k hblock hlast =>
    exact ⟨_, List.mem_singleton_self _, hlow, hstep hblock hlow (by simp only; omega)⟩
  | @cons first k blocks hblock hrest ih =>
    rcases Nat.lt_or_ge m (first + 2 ^ k) with hlt | hge
    · exact ⟨_, List.mem_cons_self .., hlow, hstep hblock hlow hlt⟩
    · obtain ⟨b, hb, hbounds⟩ := ih hge
      exact ⟨b, List.mem_cons_of_mem _ hb, hbounds⟩

theorem nodup (h : Cover bits last first blocks) : blocks.Nodup := by
  refine h.tiles.pairwise.imp ?_
  rintro a b hab rfl
  have := Nat.two_pow_pos a.2
  omega

/-- **No cover by aligned blocks has fewer.**  The block of the other cover at the start of a
block lies within that block, so it belongs to no other. -/
theorem length_le (h : Cover bits last first blocks) {others : List (ℕ × ℕ)}
    (haligned : ∀ b ∈ others, b.2 ≤ bits ∧ 2 ^ b.2 ∣ b.1)
    (hmem : ∀ x, (first ≤ x ∧ x ≤ last) ↔ ∃ b ∈ others, b.1 ≤ x ∧ x < b.1 + 2 ^ b.2) :
    blocks.length ≤ others.length := by
  have hstart : ∀ b ∈ blocks, ∃ o ∈ others, o.1 ≤ b.1 ∧ b.1 < o.1 + 2 ^ o.2 := by
    intro b hb
    have hpos := Nat.two_pow_pos b.2
    exact (hmem b.1).mp ((h.mem_iff b.1).mpr ⟨b, hb, Nat.le_refl _, by omega⟩)
  choose! at_ hother hlow hhigh using hstart
  have hinj : ∀ a ∈ blocks, ∀ b ∈ blocks, at_ a = at_ b → a = b := by
    intro a ha b hb heq
    have hpos := Nat.two_pow_pos (at_ a).2
    have hfirst := (hmem (at_ a).1).mpr ⟨_, hother a ha, Nat.le_refl _, by omega⟩
    have hlast := (hmem ((at_ a).1 + 2 ^ (at_ a).2 - 1)).mpr ⟨_, hother a ha, by omega, by omega⟩
    obtain ⟨c, hc, hclow, hchigh⟩ := h.exists_superset (haligned _ (hother a ha)).1
      (haligned _ (hother a ha)).2 hfirst.1 (by omega)
    have hwithin : ∀ d ∈ blocks, at_ d = at_ a → d = c := by
      intro d hd hsame
      have hlow := hlow d hd
      have hhigh := hhigh d hd
      have hpos := Nat.two_pow_pos d.2
      rw [hsame] at hlow hhigh
      exact h.tiles.eq_of_mem hd hc (Nat.le_refl _) (by omega) (by omega) (by omega)
    rw [hwithin a ha rfl, hwithin b hb heq.symm]
  calc blocks.length = blocks.toFinset.card := (List.toFinset_card_of_nodup h.nodup).symm
    _ ≤ others.toFinset.card := by
        refine Finset.card_le_card_of_injOn at_ (fun b hb => ?_) fun a ha b hb heq => ?_
        · rw [Finset.mem_coe, List.mem_toFinset] at hb ⊢
          exact hother b hb
        · rw [Finset.mem_coe, List.mem_toFinset] at ha hb
          exact hinj a ha b hb heq
    _ ≤ others.length := List.toFinset_card_le others

end Cover

end Throned.Library

import Mathlib.Data.List.Basic
import Throned.Library.BinarySearch

/-!
# Consecutive intervals and their lookup

A list of items tiles the numbers from `lo` to `hi` when each item starts where the one
before it ends and covers at least one number.  Every number in between then belongs to
exactly one item, and binary search for the first item that starts above the number
finds the place after it (`search_tiles`).
-/

set_option autoImplicit false

namespace Throned.Library

variable {α : Type} {start count : α → ℕ}

/-- The items cover `lo ≤ g < hi` without gaps or overlaps, none of them empty. -/
def Tiles (start count : α → ℕ) : ℕ → List α → ℕ → Prop
  | lo, [], hi => lo = hi
  | lo, x :: xs, hi => start x = lo ∧ 0 < count x ∧ Tiles start count (lo + count x) xs hi

theorem Tiles.le {lo hi : ℕ} {xs : List α} (h : Tiles start count lo xs hi) : lo ≤ hi := by
  induction xs generalizing lo with
  | nil => exact Nat.le_of_eq h
  | cons x xs ih =>
    have := ih h.2.2
    omega

/-- Every item lies between the two ends. -/
theorem Tiles.mem_bounds {lo hi : ℕ} {xs : List α} (h : Tiles start count lo xs hi) {x : α}
    (hx : x ∈ xs) : lo ≤ start x ∧ start x + count x ≤ hi := by
  induction xs generalizing lo with
  | nil => simp at hx
  | cons y ys ih =>
    obtain ⟨hstart, hpos, hrest⟩ := h
    rcases List.mem_cons.mp hx with rfl | hmem
    · have := hrest.le
      omega
    · have := ih hrest hmem
      omega

/-- An item ends before a later one starts. -/
theorem Tiles.pairwise {lo hi : ℕ} {xs : List α} (h : Tiles start count lo xs hi) :
    xs.Pairwise fun x y => start x + count x ≤ start y := by
  induction xs generalizing lo with
  | nil => exact List.Pairwise.nil
  | cons x xs ih =>
    obtain ⟨hstart, hpos, hrest⟩ := h
    refine List.Pairwise.cons (fun y hy => ?_) (ih hrest)
    have := (hrest.mem_bounds hy).1
    omega

/-- Every number between the ends belongs to an item. -/
theorem Tiles.exists_index {lo hi g : ℕ} {xs : List α} (h : Tiles start count lo xs hi)
    (hlo : lo ≤ g) (hhi : g < hi) :
    ∃ i, ∃ h : i < xs.length, start xs[i] ≤ g ∧ g < start xs[i] + count xs[i] := by
  induction xs generalizing lo with
  | nil =>
    simp only [Tiles] at h
    omega
  | cons x xs ih =>
    obtain ⟨hstart, hpos, hrest⟩ := h
    rcases Nat.lt_or_ge g (lo + count x) with hlt | hge
    · exact ⟨0, by simp, by simp only [List.getElem_cons_zero]; omega⟩
    · obtain ⟨i, hi', hbounds⟩ := ih hrest hge
      exact ⟨i + 1, by simpa using hi', by simpa using hbounds⟩

/-- A number belongs to one item only. -/
theorem Tiles.index_unique {lo hi g i j : ℕ} {xs : List α} (h : Tiles start count lo xs hi)
    (hi : i < xs.length) (hj : j < xs.length) (hgi : start xs[i] ≤ g)
    (hgi' : g < start xs[i] + count xs[i]) (hgj : start xs[j] ≤ g)
    (hgj' : g < start xs[j] + count xs[j]) : i = j := by
  have hpw := List.pairwise_iff_getElem.mp h.pairwise
  rcases Nat.lt_trichotomy i j with hlt | heq | hgt
  · have := hpw i j hi hj hlt
    omega
  · exact heq
  · have := hpw j i hj hi hgt
    omega

/-- Two items that share a number are the same. -/
theorem Tiles.eq_of_mem {lo hi g : ℕ} {xs : List α} (h : Tiles start count lo xs hi) {x y : α}
    (hx : x ∈ xs) (hy : y ∈ xs) (hgx : start x ≤ g) (hgx' : g < start x + count x)
    (hgy : start y ≤ g) (hgy' : g < start y + count y) : x = y := by
  obtain ⟨i, hi, rfl⟩ := List.getElem_of_mem hx
  obtain ⟨j, hj, rfl⟩ := List.getElem_of_mem hy
  have hij := h.index_unique hi hj hgx hgx' hgy hgy'
  subst hij
  rfl

/-- **The lookup**: the first item that starts above `g` stands right after the item
`g` belongs to. -/
theorem search_tiles {lo hi g : ℕ} {xs : List α} (h : Tiles start count lo xs hi)
    (hlo : lo ≤ g) (hhi : g < hi) {f : ℕ → Bool}
    (hf : ∀ i (hi : i < xs.length), f i = decide (g < start xs[i])) :
    ∃ i, ∃ hi : i < xs.length, search xs.length f = i + 1 ∧ start xs[i] ≤ g ∧
      g < start xs[i] + count xs[i] := by
  have hsorted : ∀ i j (hi : i < xs.length) (hj : j < xs.length), i < j →
      start xs[i] + count xs[i] ≤ start xs[j] := fun i j hi hj hij =>
    List.pairwise_iff_getElem.mp h.pairwise i j hi hj hij
  have hmono : ∀ i j, i ≤ j → j < xs.length → f i = true → f j = true := by
    intro i j hij hj hfi
    rw [hf i (by omega), decide_eq_true_iff] at hfi
    rw [hf j hj, decide_eq_true_iff]
    rcases Nat.lt_or_eq_of_le hij with hlt | rfl
    · have := hsorted i j (by omega) hj hlt
      omega
    · exact hfi
  obtain ⟨hle, hbelow, hat⟩ := search_spec xs.length f hmono
  obtain ⟨i, hi', hstart, hend⟩ := h.exists_index hlo hhi
  refine ⟨i, hi', ?_, hstart, hend⟩
  have hfi : f i = false := by
    rw [hf i hi', decide_eq_false_iff_not]
    omega
  have hafter : i < search xs.length f := by
    by_contra hge
    have := hmono _ i (by omega) hi' (hat (by omega))
    rw [hfi] at this
    exact absurd this (by simp)
  by_contra hne
  have hlt : i + 1 < xs.length := by omega
  have hnext := hbelow (i + 1) (by omega)
  rw [hf (i + 1) hlt, decide_eq_false_iff_not] at hnext
  have := hsorted i (i + 1) hi' hlt (by omega)
  omega

end Throned.Library

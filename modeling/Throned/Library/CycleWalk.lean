import Mathlib.Data.Set.Finite.Basic
import Mathlib.Data.Set.Card
import Mathlib.Logic.Function.Iterate

/-!
# Cycle walking

A permutation of a finite set `S` is turned into a permutation of a subset by stepping
until the value falls into the subset again.  `cycleWalk` is the executable walk, with
a bound on the number of steps; `cycleWalk_isSome` says that as many steps as `S` has
elements suffice, and `cycleWalk_bijOn` that the walk is a bijection of the subset.
-/

set_option autoImplicit false

namespace Throned.Library

variable {α : Type}

/-- Step `f` at least once and stop at the first value that satisfies `p`; `none` when
the step bound runs out. -/
def cycleWalk (f : α → α) (p : α → Bool) : ℕ → α → Option α
  | 0, _ => none
  | n + 1, x => if p (f x) then some (f x) else cycleWalk f p n (f x)

/-- What a finished walk has done: `k` steps, the values strictly between outside `p`. -/
theorem cycleWalk_eq_some_iff (f : α → α) (p : α → Bool) (n : ℕ) (x y : α) :
    cycleWalk f p n x = some y ↔
      ∃ k, 0 < k ∧ k ≤ n ∧ f^[k] x = y ∧ p y = true ∧
        ∀ j, 0 < j → j < k → p (f^[j] x) = false := by
  induction n generalizing x with
  | zero =>
    simp only [cycleWalk, reduceCtorEq, false_iff]
    rintro ⟨k, hk, hle, -⟩
    omega
  | succ n ih =>
    by_cases hp : p (f x) = true
    · simp only [cycleWalk, hp, if_true, Option.some.injEq]
      constructor
      · rintro rfl
        exact ⟨1, by omega, by omega, rfl, hp, fun j hj hlt => by omega⟩
      · rintro ⟨k, hk, -, rfl, -, hout⟩
        have hone : k = 1 := by
          by_contra hne
          have := hout 1 (by omega) (by omega)
          simp [hp] at this
        subst hone
        rfl
    · simp only [cycleWalk, hp, Bool.false_eq_true, if_false, ih]
      constructor
      · rintro ⟨k, hk, hle, rfl, hy, hout⟩
        refine ⟨k + 1, by omega, by omega, Function.iterate_succ_apply f k x, hy, ?_⟩
        intro j hj hlt
        obtain ⟨i, rfl⟩ : ∃ i, j = i + 1 := ⟨j - 1, by omega⟩
        rw [Function.iterate_succ_apply]
        rcases Nat.eq_zero_or_pos i with rfl | hi
        · simpa using hp
        · exact hout i hi (by omega)
      · rintro ⟨k, hk, hle, rfl, hy, hout⟩
        obtain ⟨i, rfl⟩ : ∃ i, k = i + 1 := ⟨k - 1, by omega⟩
        rw [Function.iterate_succ_apply] at hy ⊢
        have hi : 0 < i := by
          rcases Nat.eq_zero_or_pos i with rfl | hi
          · exact absurd hy hp
          · exact hi
        refine ⟨i, hi, by omega, rfl, hy, fun j hj hlt => ?_⟩
        simpa [Function.iterate_succ_apply] using hout (j + 1) (by omega) (by omega)

section Permutation

variable {f : α → α} {p : α → Bool} {S : Set α}

/-- Iterates of an injective self-map of `S` can be cancelled on `S`. -/
theorem iterate_cancel (hf : Set.BijOn f S S) {x y : α} (hx : x ∈ S) (hy : y ∈ S) (n : ℕ)
    (h : f^[n] x = f^[n] y) : x = y := by
  exact hf.injOn.iterate hf.mapsTo n hx hy h

/-- Every element of `S` comes back to itself within `S.ncard` steps. -/
theorem exists_return (hS : S.Finite) (hf : Set.BijOn f S S) {x : α} (hx : x ∈ S) :
    ∃ k, 0 < k ∧ k ≤ S.ncard ∧ f^[k] x = x := by
  have hmaps : ∀ i ∈ Finset.range (S.ncard + 1), f^[i] x ∈ hS.toFinset := by
    intro i _
    exact hS.mem_toFinset.mpr (hf.mapsTo.iterate i hx)
  have hcard : hS.toFinset.card < (Finset.range (S.ncard + 1)).card := by
    rw [Finset.card_range, ← Set.ncard_eq_toFinset_card S hS]
    omega
  obtain ⟨i, hi, j, hj, hne, heq⟩ :=
    Finset.exists_ne_map_eq_of_card_lt_of_maps_to hcard hmaps
  rw [Finset.mem_range] at hi hj
  wlog hlt : i < j generalizing i j
  · exact this j hj i hi (Ne.symm hne) heq.symm (by omega)
  refine ⟨j - i, by omega, by omega, ?_⟩
  apply iterate_cancel hf (hf.mapsTo.iterate _ hx) hx i
  rw [← Function.iterate_add_apply, show i + (j - i) = j by omega]
  exact heq.symm

/-- **The walk ends**: from a value of `S` inside `p`, `S.ncard` steps are enough. -/
theorem cycleWalk_isSome (hS : S.Finite) (hf : Set.BijOn f S S) {x : α} (hx : x ∈ S)
    (hp : p x = true) {n : ℕ} (hn : S.ncard ≤ n) :
    ∃ y, cycleWalk f p n x = some y := by
  classical
  obtain ⟨k, hk, hle, hret⟩ := exists_return hS hf hx
  have hex : ∃ k, 0 < k ∧ p (f^[k] x) = true := ⟨k, hk, by rw [hret]; exact hp⟩
  have hmin := Nat.find_min' hex ⟨hk, by rw [hret]; exact hp⟩
  obtain ⟨hpos, hfound⟩ := Nat.find_spec hex
  refine ⟨f^[Nat.find hex] x, (cycleWalk_eq_some_iff f p n x _).mpr
    ⟨Nat.find hex, hpos, by omega, rfl, hfound, ?_⟩⟩
  intro j hj hlt
  have := Nat.find_min hex hlt
  simpa [hj] using this

/-- A finished walk ends in `S`, inside `p`. -/
theorem cycleWalk_mem (hf : Set.BijOn f S S) {x y : α} (hx : x ∈ S) {n : ℕ}
    (h : cycleWalk f p n x = some y) : y ∈ S ∧ p y = true := by
  obtain ⟨k, -, -, rfl, hy, -⟩ := (cycleWalk_eq_some_iff f p n x y).mp h
  exact ⟨hf.mapsTo.iterate k hx, hy⟩

/-- Two walks that start inside `p` and end at one value started at one value: the
longer one would have stopped where the shorter one began. -/
theorem cycleWalk_injOn (hf : Set.BijOn f S S) {x y z : α} (hx : x ∈ S) (hy : y ∈ S)
    (hpx : p x = true) (hpy : p y = true) {n m : ℕ} (h₁ : cycleWalk f p n x = some z)
    (h₂ : cycleWalk f p m y = some z) : x = y := by
  obtain ⟨k, hk, -, hkz, -, hkout⟩ := (cycleWalk_eq_some_iff f p n x z).mp h₁
  obtain ⟨l, hl, -, hlz, -, hlout⟩ := (cycleWalk_eq_some_iff f p m y z).mp h₂
  wlog hle : k ≤ l generalizing x y n m k l
  · exact (this hy hx hpy hpx h₂ h₁ l hl hlz hlout k hk hkz hkout (by omega)).symm
  have heq : x = f^[l - k] y := by
    apply iterate_cancel hf hx (hf.mapsTo.iterate _ hy) k
    rw [← Function.iterate_add_apply, show k + (l - k) = l by omega, hkz, hlz]
  rcases Nat.eq_zero_or_pos (l - k) with hzero | hpos
  · simpa [hzero] using heq
  · have hout := hlout (l - k) hpos (by omega)
    rw [← heq, hpx] at hout
    exact absurd hout (by simp)

/-- **Cycle walking is a bijection** of the part of `S` that satisfies `p`: the total
function `g` that returns the walk's result permutes it. -/
theorem cycleWalk_bijOn (hS : S.Finite) (hf : Set.BijOn f S S) {n : ℕ} {g : α → α}
    (hg : ∀ x ∈ S, p x = true → cycleWalk f p n x = some (g x)) :
    Set.BijOn g {x | x ∈ S ∧ p x = true} {x | x ∈ S ∧ p x = true} := by
  have hfin : {x | x ∈ S ∧ p x = true}.Finite := hS.subset fun x hx => hx.1
  have hmaps : Set.MapsTo g {x | x ∈ S ∧ p x = true} {x | x ∈ S ∧ p x = true} :=
    fun x hx => cycleWalk_mem hf hx.1 (hg x hx.1 hx.2)
  refine (hfin.injOn_iff_bijOn_of_mapsTo hmaps).mp fun x hx y hy h => ?_
  have hgy := hg y hy.1 hy.2
  rw [← h] at hgy
  exact cycleWalk_injOn hf hx.1 hy.1 hx.2 hy.2 (hg x hx.1 hx.2) hgy

end Permutation

end Throned.Library

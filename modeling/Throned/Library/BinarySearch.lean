import Mathlib.Order.Basic

/-!
# Binary search over an index range

`search n f` is the loop of Go's `sort.Search`: for a predicate that stays true once it
is true, it returns the least index below `n` at which `f` holds, or `n`.
-/

set_option autoImplicit false

namespace Throned.Library

/-- The loop on the half-open index range from `i` to `j`; the first argument bounds
the number of rounds and `j - i` of them suffice. -/
def searchLoop (f : ℕ → Bool) : ℕ → ℕ → ℕ → ℕ
  | 0, i, _ => i
  | k + 1, i, j =>
    if i < j then
      let h := (i + j) / 2
      if !f h then searchLoop f k (h + 1) j else searchLoop f k i h
    else i

/-- `sort.Search`. -/
def search (n : ℕ) (f : ℕ → Bool) : ℕ := searchLoop f n 0 n

/-- The loop keeps "false everywhere below `i`, true from `j` on" and ends at the
boundary. -/
theorem searchLoop_spec (f : ℕ → Bool) (n : ℕ)
    (hmono : ∀ i j, i ≤ j → j < n → f i = true → f j = true) (k i j : ℕ) (hk : j ≤ i + k)
    (hij : i ≤ j) (hjn : j ≤ n) (hlow : ∀ l < i, f l = false) (hhigh : j < n → f j = true) :
    i ≤ searchLoop f k i j ∧ searchLoop f k i j ≤ j ∧
      (∀ l < searchLoop f k i j, f l = false) ∧
      (searchLoop f k i j < n → f (searchLoop f k i j) = true) := by
  induction k generalizing i j with
  | zero =>
    have heq : i = j := by omega
    subst heq
    exact ⟨Nat.le_refl _, Nat.le_refl _, hlow, hhigh⟩
  | succ k ih =>
    by_cases hlt : i < j
    · simp only [searchLoop, hlt, if_true]
      by_cases hf : f ((i + j) / 2) = true
      · simp only [hf, Bool.not_true, Bool.false_eq_true, if_false]
        obtain ⟨h1, h2, h3, h4⟩ :=
          ih i ((i + j) / 2) (by omega) (by omega) (by omega) hlow fun _ => hf
        exact ⟨h1, by omega, h3, h4⟩
      · simp only [hf, Bool.not_false, if_true]
        have hbelow : ∀ l < (i + j) / 2 + 1, f l = false := by
          intro l hl
          by_contra hne
          exact hf (hmono l ((i + j) / 2) (by omega) (by omega) (by simpa using hne))
        obtain ⟨h1, h2, h3, h4⟩ :=
          ih ((i + j) / 2 + 1) j (by omega) (by omega) hjn hbelow hhigh
        exact ⟨by omega, h2, h3, h4⟩
    · have heq : i = j := by omega
      subst heq
      simp only [searchLoop, Nat.lt_irrefl, if_false]
      exact ⟨Nat.le_refl _, Nat.le_refl _, hlow, hhigh⟩

/-- **`sort.Search` finds the boundary** of a predicate that stays true once it is. -/
theorem search_spec (n : ℕ) (f : ℕ → Bool)
    (hmono : ∀ i j, i ≤ j → j < n → f i = true → f j = true) :
    search n f ≤ n ∧ (∀ l < search n f, f l = false) ∧
      (search n f < n → f (search n f) = true) := by
  obtain ⟨-, h2, h3, h4⟩ := searchLoop_spec f n hmono n 0 n (by omega) (by omega) (Nat.le_refl _)
    (fun l hl => by omega) (fun h => by omega)
  exact ⟨h2, h3, h4⟩

end Throned.Library

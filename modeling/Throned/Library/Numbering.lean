import Mathlib.Data.List.Basic
import Mathlib.Tactic.TypeStar

/-!
# Numbered entries

A list whose entries carry consecutive numbers: what its parts are numbered, and which part
lies beyond a number.
-/

set_option autoImplicit false

namespace Throned.Library

variable {α : Type*} {key : α → ℕ} {start : ℕ} {l : List α}

/-- The entries are numbered `start`, `start + 1` and so on. -/
def NumberedFrom (key : α → ℕ) (start : ℕ) (l : List α) : Prop :=
  l.map key = List.range' start l.length

namespace NumberedFrom

theorem nil : NumberedFrom key start [] := rfl

theorem mem_iff (h : NumberedFrom key start l) {n : ℕ} :
    n ∈ l.map key ↔ start ≤ n ∧ n < start + l.length := by
  rw [h, List.mem_range'_1]

theorem pairwise (h : NumberedFrom key start l) : (l.map key).Pairwise (· < ·) := by
  rw [h]
  exact List.pairwise_lt_range'

theorem head? (h : NumberedFrom key start l) (hne : l ≠ []) : l.head?.map key = some start := by
  rw [← List.head?_map, h, List.head?_range', if_neg (by simpa using hne)]

theorem getLast? (h : NumberedFrom key start l) :
    l.getLast?.map key = if l.length = 0 then none else some (start + l.length - 1) := by
  rw [← List.getLast?_map, h, List.getLast?_range']

theorem drop (h : NumberedFrom key start l) (k : ℕ) : NumberedFrom key (start + k) (l.drop k) := by
  unfold NumberedFrom at h ⊢
  rw [List.map_drop, h, List.drop_range', Nat.mul_one, List.length_drop]

theorem take (h : NumberedFrom key start l) (k : ℕ) : NumberedFrom key start (l.take k) := by
  unfold NumberedFrom at h ⊢
  rw [List.map_take, h, List.length_take]
  by_cases hk : k ≤ l.length
  · rw [List.take_range'_of_length_ge hk, Nat.min_eq_left hk]
  · rw [List.take_range'_of_length_le (by omega), Nat.min_eq_right (by omega)]

theorem append {m : List α} (h : NumberedFrom key start l)
    (hm : NumberedFrom key (start + l.length) m) : NumberedFrom key start (l ++ m) := by
  unfold NumberedFrom at h hm ⊢
  rw [List.map_append, h, hm, List.range'_append_1, List.length_append]

theorem tail {a : α} (h : NumberedFrom key start (a :: l)) :
    key a = start ∧ NumberedFrom key (start + 1) l := by
  unfold NumberedFrom at h ⊢
  rw [List.map_cons, List.length_cons, List.range'_succ] at h
  exact ⟨(List.cons.inj h).1, (List.cons.inj h).2⟩

/-- **What lies beyond a number** is what remains once the entries up to it are dropped. -/
theorem filter_lt (after : ℕ) : ∀ {start : ℕ} {l : List α}, NumberedFrom key start l →
    l.filter (fun a => after < key a) = l.drop (after + 1 - start) := by
  intro start l
  induction l generalizing start with
  | nil => exact fun _ => List.drop_nil.symm
  | cons a l ih =>
    intro h
    obtain ⟨ha, hl⟩ := h.tail
    have hrest := ih hl
    by_cases hafter : after < start
    · rw [List.filter_cons_of_pos (by simpa [ha] using hafter), hrest,
        show after + 1 - (start + 1) = 0 by omega, show after + 1 - start = 0 by omega]
      rfl
    · rw [List.filter_cons_of_neg (by simpa [ha] using hafter), hrest,
        show after + 1 - start = (after + 1 - (start + 1)) + 1 by omega]
      rfl

end NumberedFrom

end Throned.Library

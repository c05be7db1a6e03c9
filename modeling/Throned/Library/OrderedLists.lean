import Mathlib.Data.List.Perm.Basic
import Throned.Library.BinarySearch

/-!
# Lists in order under a comparison

A strict comparison orders up to ties.  `upperBound` is `std::upper_bound`: in a list in order it
finds the place behind all that is not greater, and a new element is in order there.
-/

set_option autoImplicit false

namespace Throned.Library

variable {α : Type*} {lt : α → α → Bool}

/-- A strict weak order. -/
structure WeakOrder (lt : α → α → Bool) : Prop where
  asymm : ∀ {a b}, lt a b = true → lt b a = false
  trans : ∀ {a b c}, lt b a = false → lt c b = false → lt c a = false

/-- Nothing stands before something less. -/
def InOrder (lt : α → α → Bool) (l : List α) : Prop := l.Pairwise fun a b => lt b a = false

instance (l : List α) : Decidable (InOrder lt l) := inferInstanceAs (Decidable (l.Pairwise _))

/-- `std::stable_sort`. -/
def stableSort (lt : α → α → Bool) (l : List α) : List α := l.mergeSort fun a b => !lt b a

/-- `std::upper_bound`, as an index. -/
def upperBound (lt : α → α → Bool) (x : α) (l : List α) : ℕ :=
  search l.length fun i => l[i]?.any (lt x)

/-- A new element is put at its upper bound. -/
def insertSorted (lt : α → α → Bool) (l : List α) (x : α) : List α :=
  l.take (upperBound lt x l) ++ x :: l.drop (upperBound lt x l)

/-- A list in order that is another one rearranged, where only what is less overtakes. -/
structure StablyOrdered (lt : α → α → Bool) (l ordered : List α) : Prop where
  perm : ordered.Perm l
  inOrder : InOrder lt ordered
  stable : ∀ {a b}, [a, b].Sublist l → lt b a = false → [a, b].Sublist ordered

theorem searchLoop_le (f : ℕ → Bool) (k i j : ℕ) (h : i ≤ j) : searchLoop f k i j ≤ j := by
  induction k generalizing i j with
  | zero => exact h
  | succ k ih =>
    unfold searchLoop
    split
    · rename_i hlt
      dsimp only
      split
      · exact ih _ _ (by omega)
      · have hhalf := ih i ((i + j) / 2) (by omega)
        omega
    · exact h

theorem insertSorted_perm (l : List α) (x : α) : (insertSorted lt l x).Perm (x :: l) := by
  have hmiddle : (insertSorted lt l x).Perm
      (x :: (l.take (upperBound lt x l) ++ l.drop (upperBound lt x l))) := List.perm_middle
  rwa [List.take_append_drop] at hmiddle

/-- What an insertion leaves of the others. -/
theorem filter_insertSorted {p : α → Bool} (l : List α) {x : α} (hx : p x = false) :
    (insertSorted lt l x).filter p = l.filter p := by
  rw [insertSorted, List.filter_append, List.filter_cons, hx, if_neg Bool.false_ne_true,
    ← List.filter_append, List.take_append_drop]

theorem foldl_insertSorted_perm (xs : List α) :
    ∀ l : List α, (xs.foldl (insertSorted lt) l).Perm (xs ++ l) := by
  induction xs with
  | nil => exact fun l => List.Perm.refl l
  | cons x xs ih =>
    intro l
    calc (xs.foldl (insertSorted lt) (insertSorted lt l x)).Perm (xs ++ insertSorted lt l x) := ih _
      _ |>.Perm (xs ++ x :: l) := (insertSorted_perm l x).append_left xs
      _ |>.Perm (x :: (xs ++ l)) := List.perm_middle

theorem filter_foldl_insertSorted {p : α → Bool} {xs : List α} (hxs : ∀ x ∈ xs, p x = false) :
    ∀ l : List α, (xs.foldl (insertSorted lt) l).filter p = l.filter p := by
  induction xs with
  | nil => exact fun l => rfl
  | cons x xs ih =>
    intro l
    rw [List.foldl_cons, ih (fun y hy => hxs y (List.mem_cons_of_mem x hy)),
      filter_insertSorted l (hxs x List.mem_cons_self)]

namespace WeakOrder

variable (h : WeakOrder lt)

include h

/-- What is less than something stays less than what is not before it. -/
theorem lt_of_lt_of_not {a b c : α} (hab : lt a b = true) (hbc : lt c b = false) :
    lt a c = true := by
  cases hac : lt a c with
  | true => rfl
  | false =>
    have hcontra := h.trans hbc hac
    rw [hab] at hcontra
    cases hcontra

/-- **Neighbours decide.** -/
theorem inOrder_of_neighbours {l : List α} (hl : l.IsChain fun a b => lt b a = false) :
    InOrder lt l := by
  have htrans : Trans (fun a b => lt b a = false) (fun a b => lt b a = false)
      fun a b => lt b a = false := ⟨fun hab hbc => h.trans hab hbc⟩
  exact List.isChain_iff_pairwise.mp hl

/-- The upper bound parts a list in order. -/
theorem upperBound_parts {l : List α} (hl : InOrder lt l) (x : α) :
    (∀ y ∈ l.take (upperBound lt x l), lt x y = false) ∧
      ∀ y ∈ l.drop (upperBound lt x l), lt x y = true := by
  have hmono : ∀ i j, i ≤ j → j < l.length → l[i]?.any (lt x) = true →
      l[j]?.any (lt x) = true := by
    intro i j hij hj hi
    rcases Nat.eq_or_lt_of_le hij with rfl | hlt
    · exact hi
    · rw [List.getElem?_eq_getElem (by omega), Option.any_some] at hi ⊢
      exact h.lt_of_lt_of_not hi (List.pairwise_iff_getElem.mp hl i j (by omega) hj hlt)
  obtain ⟨-, hbelow, habove⟩ := search_spec l.length (fun i => l[i]?.any (lt x)) hmono
  constructor
  · intro y hy
    obtain ⟨i, hi, rfl⟩ := List.mem_take_iff_getElem.mp hy
    have hfalse := hbelow i (by unfold upperBound at hi; omega)
    rwa [List.getElem?_eq_getElem (by omega), Option.any_some] at hfalse
  · intro y hy
    obtain ⟨i, hi, rfl⟩ := List.mem_drop_iff_getElem.mp hy
    have hstart : l[upperBound lt x l]?.any (lt x) = true := by
      apply habove
      unfold upperBound at hi
      omega
    have htrue := hmono _ (upperBound lt x l + i) (Nat.le_add_right _ _) (by omega) hstart
    rwa [List.getElem?_eq_getElem (by omega), Option.any_some] at htrue

/-- **An insertion at the upper bound keeps the order.** -/
theorem insertSorted_inOrder {l : List α} (hl : InOrder lt l) (x : α) :
    InOrder lt (insertSorted lt l x) := by
  obtain ⟨hbelow, habove⟩ := h.upperBound_parts hl x
  refine List.pairwise_append.mpr ⟨hl.sublist (List.take_sublist _ _),
    List.pairwise_cons.mpr ⟨fun y hy => h.asymm (habove y hy), hl.sublist (List.drop_sublist _ _)⟩,
    fun y hy z hz => ?_⟩
  obtain rfl | hz := List.mem_cons.mp hz
  · exact hbelow y hy
  · exact h.trans (hbelow y hy) (h.asymm (habove z hz))

theorem foldl_insertSorted_inOrder (xs : List α) :
    ∀ {l : List α}, InOrder lt l → InOrder lt (xs.foldl (insertSorted lt) l) := by
  induction xs with
  | nil => exact fun hl => hl
  | cons x xs ih => exact fun hl => ih (h.insertSorted_inOrder hl x)

theorem total (a b : α) : (!lt b a || !lt a b) = true := by
  cases hab : lt a b with
  | false => simp
  | true => simp [h.asymm hab]

theorem stableSort_inOrder (l : List α) : InOrder lt (stableSort lt l) := by
  have hsorted := @List.pairwise_mergeSort α (fun a b => !lt b a)
    (fun a b c hab hbc => by simpa using h.trans (by simpa using hab) (by simpa using hbc))
    h.total l
  exact hsorted.imp fun hab => by simpa using hab

omit h in
/-- A list in order is left as it is. -/
theorem stableSort_of_inOrder {l : List α} (hl : InOrder lt l) : stableSort lt l = l :=
  List.mergeSort_of_pairwise (hl.imp fun hab => by simpa using hab)

/-- **Stability.**  What is in order already keeps its order. -/
theorem filter_stableSort {p : α → Bool} {l : List α} (hl : InOrder lt (l.filter p)) :
    (stableSort lt l).filter p = l.filter p := by
  have hsub : (l.filter p).Sublist (stableSort lt l) :=
    List.sublist_mergeSort
      (fun a b c hab hbc => by simpa using h.trans (by simpa using hab) (by simpa using hbc))
      h.total (hl.imp fun hab => by simpa using hab) List.filter_sublist
  have hkept := hsub.filter p
  rw [List.filter_filter] at hkept
  simp only [Bool.and_self] at hkept
  have hlength : ((stableSort lt l).filter p).length = (l.filter p).length :=
    ((List.mergeSort_perm l _).filter p).length_eq
  exact (hkept.eq_of_length hlength.symm).symm

/-- **A stable sort** orders stably. -/
theorem stablyOrdered_stableSort (l : List α) : StablyOrdered lt l (stableSort lt l) where
  perm := List.mergeSort_perm l _
  inOrder := h.stableSort_inOrder l
  stable := by
    intro a b hsub hab
    have htrans : ∀ x y z, (!lt y x) = true → (!lt z y) = true → (!lt z x) = true := by
      intro x y z hxy hyz
      simpa using h.trans (by simpa using hxy) (by simpa using hyz)
    exact List.pair_sublist_mergeSort htrans h.total (by simpa using hab) hsub

/-- An order of what is read off the items. -/
theorem comap {β : Type*} (f : β → α) : WeakOrder fun a b => lt (f a) (f b) where
  asymm := h.asymm
  trans := h.trans

end WeakOrder

end Throned.Library

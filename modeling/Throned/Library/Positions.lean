import Mathlib.Data.List.Basic
import Mathlib.Data.List.Nodup
import Mathlib.Data.List.Range
import Mathlib.Tactic.Common

/-!
# Where a list has a property

The positions of the elements with a property, in order: the `n`-th of them is the one
that has `n` such elements before it.
-/

set_option autoImplicit false

namespace Throned.Library

variable {α : Type*} {p : α → Bool}

def positions (p : α → Bool) (l : List α) : List ℕ := (l.zipIdx.filter fun x => p x.1).map Prod.snd

theorem positions_append (l m : List α) :
    positions p (l ++ m) = positions p l ++ (positions p m).map (· + l.length) := by
  have hshift : m.zipIdx l.length = m.zipIdx.map fun x => (x.1, x.2 + l.length) := by
    rw [List.zipIdx_eq_map_add]
    simp [Nat.add_comm]
  unfold positions
  rw [List.zipIdx_append, List.filter_append, List.map_append, Nat.zero_add, hshift,
    List.filter_map, List.map_map, List.map_map]
  rfl

theorem positions_concat (l : List α) (a : α) :
    positions p (l ++ [a]) = positions p l ++ if p a then [l.length] else [] := by
  rw [positions_append]
  cases h : p a <;> simp [positions, h]

theorem length_positions (l : List α) : (positions p l).length = l.countP p := by
  induction l using List.reverseRecOn with
  | nil => rfl
  | append_singleton l a ih =>
    rw [positions_concat, List.length_append, ih, List.countP_append]
    cases h : p a <;> simp [h]

theorem mem_positions {l : List α} {j : ℕ} :
    j ∈ positions p l ↔ ∃ a, l[j]? = some a ∧ p a = true := by
  unfold positions
  rw [List.mem_map]
  constructor
  · rintro ⟨⟨a, i⟩, hx, rfl⟩
    obtain ⟨hmem, hp⟩ := List.mem_filter.mp hx
    exact ⟨a, List.mem_zipIdx_iff_getElem?.mp hmem, hp⟩
  · rintro ⟨a, ha, hp⟩
    exact ⟨(a, j), List.mem_filter.mpr ⟨List.mem_zipIdx_iff_getElem?.mpr ha, hp⟩, rfl⟩

theorem nodup_positions (l : List α) : (positions p l).Nodup := by
  have hsub : (positions p l).Sublist (l.zipIdx.map Prod.snd) := List.filter_sublist.map Prod.snd
  rw [List.zipIdx_map_snd] at hsub
  exact hsub.nodup List.nodup_range'

/-- Counting in a prefix is counting its places. -/
theorem countP_take (l : List α) (k : ℕ) :
    (l.take k).countP p = (List.range k).countP fun j => (l[j]?).any p := by
  induction k with
  | zero => rfl
  | succ k ih =>
    rw [List.take_add_one, List.countP_append, ih, List.range_succ, List.countP_append,
      List.countP_singleton]
    cases l[k]? <;> simp

/-- The elements with the property stand at these positions. -/
theorem getElem?_filter (l : List α) (n : ℕ) :
    (l.filter p)[n]? = ((positions p l)[n]?).bind fun j => l[j]? := by
  have hfilter : l.filter p = (l.zipIdx.filter fun x => p x.1).map Prod.fst := by
    conv_lhs => rw [← List.zipIdx_map_fst 0 l, List.filter_map]
    rfl
  unfold positions
  rw [hfilter, List.getElem?_map, List.getElem?_map]
  cases hx : (l.zipIdx.filter fun x => p x.1)[n]? with
  | none => rfl
  | some x =>
    have hmem := (List.mem_filter.mp (List.mem_of_getElem? hx)).1
    exact (List.mem_zipIdx_iff_getElem?.mp hmem).symm

/-- Lists that agree on the property have it at the same positions. -/
theorem positions_congr {l m : List α} (h : l.map p = m.map p) :
    positions p l = positions p m := by
  have hmap : ∀ l : List α, positions p l = positions id (l.map p) := by
    intro l
    induction l using List.reverseRecOn with
    | nil => rfl
    | append_singleton l a ih =>
      rw [List.map_append, List.map_singleton, positions_concat, positions_concat, ih,
        List.length_map]
      rfl
  rw [hmap l, hmap m, h]

/-- **The element with `n` such elements before it is at the `n`-th position.** -/
theorem getElem?_positions {l : List α} {j : ℕ} {a : α} (ha : l[j]? = some a) (hp : p a = true) :
    (positions p l)[(l.take j).countP p]? = some j := by
  obtain ⟨hlt, hget⟩ := List.getElem?_eq_some_iff.mp ha
  have hsplit : l = l.take j ++ (a :: l.drop (j + 1)) := by
    rw [← hget, List.getElem_cons_drop, List.take_append_drop]
  have hlength : (l.take j).length = j := by
    rw [List.length_take]
    omega
  have hhead : positions p (a :: l.drop (j + 1)) =
      0 :: (positions p (l.drop (j + 1))).map (· + 1) := by
    have := positions_append (p := p) [a] (l.drop (j + 1))
    simpa [positions, hp] using this
  conv_lhs => rw [hsplit, positions_append, hhead]
  rw [← length_positions, ← hsplit, List.getElem?_append_right (le_refl _)]
  simp [hlength]

/-- The position of the `n`-th such element has `n` of them before it. -/
theorem countP_take_of_getElem? {l : List α} {j n : ℕ} (h : (positions p l)[n]? = some j) :
    (l.take j).countP p = n := by
  obtain ⟨a, ha, hp⟩ := mem_positions.mp (List.mem_of_getElem? h)
  have hj := getElem?_positions ha hp
  obtain ⟨hn, hgetn⟩ := List.getElem?_eq_some_iff.mp h
  obtain ⟨hm, hgetm⟩ := List.getElem?_eq_some_iff.mp hj
  exact (nodup_positions l).getElem_inj_iff.mp (hgetm.trans hgetn.symm)

end Throned.Library

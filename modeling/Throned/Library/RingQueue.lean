import Mathlib.Data.List.Basic
import Mathlib.Data.List.Nodup
import Mathlib.Tactic.TypeStar

/-!
# Queues kept in a ring

A ring of a fixed number of places, filled one after the other, the next one over the oldest entry.
Read from the next place on it is empty places and then a queue, which gives up its oldest entry
once it has as many as there are places.
-/

set_option autoImplicit false

namespace Throned.Library

variable {α : Type*}

/-- A new entry of a queue of bounded length. -/
def enqueue (capacity : ℕ) (queue : List α) (a : α) : List α :=
  (if queue.length = capacity then queue.tail else queue) ++ [a]

theorem nodup_enqueue {queue : List α} {a : α} (h : queue.Nodup) (ha : a ∉ queue) (capacity : ℕ) :
    (enqueue capacity queue a).Nodup := by
  unfold enqueue
  split
  next =>
    refine List.nodup_append.mpr ⟨h.tail, List.nodup_singleton a, ?_⟩
    rintro b hb c hc rfl
    exact ha (List.mem_singleton.mp hc ▸ List.mem_of_mem_tail hb)
  next =>
    refine List.nodup_append.mpr ⟨h, List.nodup_singleton a, ?_⟩
    rintro b hb c hc rfl
    exact ha (List.mem_singleton.mp hc ▸ hb)

/-- A ring read from its next place on. -/
def rotated (ring : List α) (next : ℕ) : List α := ring.drop next ++ ring.take next

theorem rotated_perm (ring : List α) (next : ℕ) : (rotated ring next).Perm ring :=
  List.perm_append_comm.trans (by rw [List.take_append_drop])

/-- A ring holds a queue. -/
structure HoldsQueue (empty : α) (capacity : ℕ) (ring : List α) (next : ℕ) (queue : List α) :
    Prop where
  places : ring.length = capacity
  next_lt : next < capacity
  length_le : queue.length ≤ capacity
  nonempty : empty ∉ queue
  read : rotated ring next = List.replicate (capacity - queue.length) empty ++ queue

namespace HoldsQueue

variable {empty a : α} {capacity next : ℕ} {ring queue : List α}

theorem start (empty : α) (h : 0 < capacity) :
    HoldsQueue empty capacity (List.replicate capacity empty) 0 [] where
  places := List.length_replicate
  next_lt := h
  length_le := Nat.zero_le _
  nonempty := by simp
  read := by simp [rotated]

/-- What the next entry is written over. -/
theorem oldest (h : HoldsQueue empty capacity ring next queue) :
    ring[next]? = some (if queue.length = capacity then queue.head?.getD empty else empty) := by
  have hnext : next < ring.length := h.places ▸ h.next_lt
  have hhead : (rotated ring next).head? = ring[next]? := by
    rw [rotated, List.drop_eq_getElem_cons hnext, List.cons_append, List.head?_cons,
      List.getElem?_eq_getElem hnext]
  rw [← hhead, h.read]
  by_cases hfull : queue.length = capacity
  · rw [if_pos hfull, hfull, Nat.sub_self, List.replicate_zero, List.nil_append]
    cases queue with
    | nil => exact absurd (hfull ▸ h.next_lt) (by simp)
    | cons b queue => rfl
  · obtain ⟨n, hn⟩ : ∃ n, capacity - queue.length = n + 1 :=
      ⟨capacity - queue.length - 1, by have hle := h.length_le; omega⟩
    rw [if_neg hfull, hn, List.replicate_succ, List.cons_append, List.head?_cons]

/-- The ring read again once its next place is filled. -/
theorem rotated_set (hlt : next < ring.length) (a : α) :
    rotated (ring.set next a) ((next + 1) % ring.length) = (rotated ring next).tail ++ [a] := by
  have hdrop : ring.drop next = ring[next] :: ring.drop (next + 1) := List.drop_eq_getElem_cons hlt
  have htake : (ring.set next a).take (next + 1) = ring.take next ++ [a] := by
    rw [List.take_add_one, List.take_set_of_le (Nat.le_refl next), List.getElem?_set_self hlt]
    rfl
  have hset : (ring.set next a).drop (next + 1) = ring.drop (next + 1) :=
    List.drop_set_of_lt (Nat.lt_succ_self next)
  have hrotated : (rotated ring next).tail ++ [a] =
      ring.drop (next + 1) ++ (ring.take next ++ [a]) := by
    rw [rotated, hdrop, List.cons_append, List.tail_cons, List.append_assoc]
  rw [hrotated]
  by_cases hlast : next + 1 = ring.length
  · rw [hlast, Nat.mod_self, rotated, List.drop_zero, List.take_zero, List.append_nil,
      List.drop_length, List.nil_append, ← htake, hlast, List.take_of_length_le (by simp)]
  · rw [Nat.mod_eq_of_lt (by omega), rotated, htake, hset]

/-- **A new entry of the ring** is a new entry of the queue. -/
theorem enqueue (h : HoldsQueue empty capacity ring next queue) (ha : a ≠ empty) :
    HoldsQueue empty capacity (ring.set next a) ((next + 1) % capacity)
      (enqueue capacity queue a) := by
  have hpos : 0 < capacity := Nat.lt_of_le_of_lt (Nat.zero_le _) h.next_lt
  have hlt : next < ring.length := h.places ▸ h.next_lt
  have hset := rotated_set hlt a
  rw [h.places, h.read] at hset
  have hle := h.length_le
  by_cases hfull : queue.length = capacity
  · have hqueue : Library.enqueue capacity queue a = queue.tail ++ [a] := by
      rw [Library.enqueue, if_pos hfull]
    have hlength : (queue.tail ++ [a]).length = capacity := by
      rw [List.length_append, List.length_tail, List.length_singleton]
      omega
    rw [hfull, Nat.sub_self, List.replicate_zero, List.nil_append] at hset
    refine ⟨by rw [List.length_set, h.places], Nat.mod_lt _ hpos, ?_, ?_, ?_⟩
    · rw [hqueue]
      exact Nat.le_of_eq hlength
    · rw [hqueue]
      intro hmem
      rcases List.mem_append.mp hmem with hold | hnew
      · exact h.nonempty (List.mem_of_mem_tail hold)
      · exact ha (List.mem_singleton.mp hnew).symm
    · rw [hqueue, hset, hlength, Nat.sub_self, List.replicate_zero, List.nil_append]
  · have hqueue : Library.enqueue capacity queue a = queue ++ [a] := by
      rw [Library.enqueue, if_neg hfull]
    have hlength : (queue ++ [a]).length = queue.length + 1 := by simp
    obtain ⟨n, hn⟩ : ∃ n, capacity - queue.length = n + 1 :=
      ⟨capacity - queue.length - 1, by omega⟩
    rw [hn, List.replicate_succ, List.cons_append, List.tail_cons, List.append_assoc] at hset
    refine ⟨by rw [List.length_set, h.places], Nat.mod_lt _ hpos, ?_, ?_, ?_⟩
    · rw [hqueue, hlength]
      omega
    · rw [hqueue]
      intro hmem
      rcases List.mem_append.mp hmem with hold | hnew
      · exact h.nonempty hold
      · exact ha (List.mem_singleton.mp hnew).symm
    · rw [hqueue, hset, hlength, show capacity - (queue.length + 1) = n by omega]

/-- What is admitted takes the place of what the ring has next. -/
theorem mem_enqueue_iff (h : HoldsQueue empty capacity ring next queue) (hnodup : queue.Nodup)
    (a b : α) :
    b ∈ Library.enqueue capacity queue a ↔ b = a ∨ (b ∈ queue ∧ b ≠ ring[next]?.getD empty) := by
  rw [h.oldest, Option.getD_some]
  unfold Library.enqueue
  by_cases hfull : queue.length = capacity
  · rw [if_pos hfull, if_pos hfull]
    cases queue with
    | nil => exact absurd (hfull ▸ h.next_lt) (by simp)
    | cons c queue =>
      have hc := (List.nodup_cons.mp hnodup).1
      rw [List.tail_cons, List.mem_append, List.mem_singleton, List.head?_cons, Option.getD_some,
        List.mem_cons]
      constructor
      · rintro (hb | hb)
        · exact Or.inr ⟨Or.inr hb, fun heq => hc (heq ▸ hb)⟩
        · exact Or.inl hb
      · rintro (hb | ⟨heq | hb, hne⟩)
        · exact Or.inr hb
        · exact absurd heq hne
        · exact Or.inl hb
  · rw [if_neg hfull, if_neg hfull, List.mem_append, List.mem_singleton]
    constructor
    · rintro (hb | hb)
      · exact Or.inr ⟨hb, fun heq => h.nonempty (heq ▸ hb)⟩
      · exact Or.inl hb
    · rintro (hb | ⟨hb, -⟩)
      · exact Or.inr hb
      · exact Or.inl hb

/-- The queue is what the ring holds beside empty places. -/
theorem filter_eq [DecidableEq α] (h : HoldsQueue empty capacity ring next queue) :
    (rotated ring next).filter (· ≠ empty) = queue := by
  rw [h.read, List.filter_append, List.filter_replicate, if_neg (by simp), List.nil_append]
  rw [List.filter_eq_self]
  intro b hb
  exact decide_eq_true fun heq => h.nonempty (heq ▸ hb)

theorem perm (h : HoldsQueue empty capacity ring next queue) :
    ring.Perm (List.replicate (capacity - queue.length) empty ++ queue) := by
  rw [← h.read]
  exact (rotated_perm ring next).symm

theorem mem_iff (h : HoldsQueue empty capacity ring next queue) (b : α) :
    b ∈ queue ↔ b ∈ ring ∧ b ≠ empty := by
  rw [h.perm.mem_iff, List.mem_append, List.mem_replicate]
  constructor
  · exact fun hb => ⟨Or.inr hb, fun heq => h.nonempty (heq ▸ hb)⟩
  · rintro ⟨⟨-, heq⟩ | hb, hne⟩
    · exact absurd heq hne
    · exact hb

end HoldsQueue

end Throned.Library

import Mathlib.Data.List.Basic
import Mathlib.Tactic.Common

/-!
# A list of actors

The states of the actors of a system are kept in a list, and a step replaces the state of
one of them.
-/

set_option autoImplicit false

namespace Throned.Library

variable {α : Type*} {actors : List α} {k : ℕ} {a b : α}

/-- An actor after a step is the one that stepped, or is as before. -/
theorem getElem?_set_cases {j : ℕ} {c : α} (h : (actors.set k b)[j]? = some c) :
    (j = k ∧ c = b) ∨ (j ≠ k ∧ actors[j]? = some c) := by
  rw [List.getElem?_set] at h
  split at h
  · rename_i heq
    split at h
    · exact Or.inl ⟨heq.symm, (Option.some.inj h).symm⟩
    · cases h
  · rename_i hne
    exact Or.inr ⟨fun heq => hne heq.symm, h⟩

/-- An actor before a step is still there, unless it is the one that stepped. -/
theorem mem_set_or_eq {c : α} (hk : actors[k]? = some a) (hc : c ∈ actors) :
    c ∈ actors.set k b ∨ c = a := by
  obtain ⟨j, hj⟩ := List.mem_iff_getElem?.mp hc
  by_cases heq : j = k
  · rw [heq, hk] at hj
    exact Or.inr (Option.some.inj hj).symm
  · left
    apply List.mem_iff_getElem?.mpr
    refine ⟨j, ?_⟩
    rw [List.getElem?_set_ne (fun h => heq h.symm)]
    exact hj

theorem mem_set_self (hk : actors[k]? = some a) : b ∈ actors.set k b := by
  obtain ⟨hlt, -⟩ := List.getElem?_eq_some_iff.mp hk
  exact List.mem_set hlt b

/-- How a step changes the number of actors with a property. -/
theorem countP_step (p : α → Bool) (hk : actors[k]? = some a) :
    (actors.set k b).countP p + (if p a then 1 else 0) =
      actors.countP p + (if p b then 1 else 0) := by
  obtain ⟨hlt, hget⟩ := List.getElem?_eq_some_iff.mp hk
  rw [List.countP_set hlt, hget]
  have hpos : (if p a then 1 else 0) ≤ actors.countP p := by
    split
    · rename_i hp
      exact List.countP_pos_iff.mpr ⟨a, List.mem_of_getElem? hk, hp⟩
    · exact Nat.zero_le _
  omega

/-- An actor that comes counts for itself. -/
theorem countP_concat (p : α → Bool) :
    (actors ++ [a]).countP p = actors.countP p + (p a).toNat := by
  rw [List.countP_append, List.countP_singleton]
  cases p a <;> rfl

/-- How a step changes the number of actors, as numbers. -/
theorem countP_set_toNat (p : α → Bool) (hk : actors[k]? = some a) :
    (actors.set k b).countP p + (p a).toNat = actors.countP p + (p b).toNat := by
  have hstep := countP_step (b := b) p hk
  cases hpa : p a <;> cases hpb : p b <;> simpa [hpa, hpb] using hstep

/-- An actor that goes takes what it counted for with it. -/
theorem countP_eraseIdx (p : α → Bool) (hk : actors[k]? = some a) :
    (actors.eraseIdx k).countP p + (p a).toNat = actors.countP p := by
  induction actors generalizing k with
  | nil => cases hk
  | cons first later ih =>
    cases k with
    | zero =>
      cases hk
      rw [List.eraseIdx_cons_zero, List.countP_cons]
      cases p a <;> rfl
    | succ k =>
      rw [List.eraseIdx_cons_succ, List.countP_cons, List.countP_cons, ← ih hk]
      omega

/-- An actor is an old one, or the new one at the end. -/
theorem getElem?_concat_cases {j : ℕ} {c : α} (h : (actors ++ [b])[j]? = some c) :
    actors[j]? = some c ∨ (j = actors.length ∧ c = b) := by
  rw [List.getElem?_append] at h
  split at h
  · exact Or.inl h
  · rename_i hge
    obtain ⟨hlt, hget⟩ := List.getElem?_eq_some_iff.mp h
    have hlength : j - actors.length < 1 := hlt
    refine Or.inr ⟨by omega, ?_⟩
    rw [← hget]
    exact List.getElem_singleton _

/-- An actor is an old one or the new one. -/
theorem getElem?_append_cases {j : ℕ} {c : α} (h : (actors ++ [b])[j]? = some c) :
    actors[j]? = some c ∨ c = b :=
  (getElem?_concat_cases h).imp_right And.right

end Throned.Library

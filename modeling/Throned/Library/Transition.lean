import Mathlib.Logic.Relation

/-!
# Transition systems

A system is given by where it may start and by its step relation; the states it can
reach are those of its runs of any length.  An invariant holds at the start and is kept
by every step from a reachable state, so earlier invariants may be used to prove later
ones.
-/

set_option autoImplicit false

namespace Throned.Library

variable {σ : Type*}

structure System (σ : Type*) where
  init : σ → Prop
  step : σ → σ → Prop

namespace System

variable (S : System σ)

/-- The states of the runs. -/
def Reachable (s : σ) : Prop := ∃ s₀, S.init s₀ ∧ Relation.ReflTransGen S.step s₀ s

variable {S}

theorem Reachable.init {s : σ} (h : S.init s) : S.Reachable s := ⟨s, h, .refl⟩

theorem Reachable.step {s t : σ} (hs : S.Reachable s) (h : S.step s t) : S.Reachable t := by
  obtain ⟨s₀, h₀, hrun⟩ := hs
  exact ⟨s₀, h₀, hrun.tail h⟩

/-- A run from a reachable state stays in the reachable states. -/
theorem Reachable.run {s t : σ} (hs : S.Reachable s) (h : Relation.ReflTransGen S.step s t) :
    S.Reachable t := by
  obtain ⟨s₀, h₀, hrun⟩ := hs
  exact ⟨s₀, h₀, hrun.trans h⟩

/-- **The invariant rule.** -/
theorem Reachable.invariant {I : σ → Prop} (hinit : ∀ s, S.init s → I s)
    (hstep : ∀ s t, S.Reachable s → I s → S.step s t → I t) {s : σ} (hs : S.Reachable s) :
    I s := by
  obtain ⟨s₀, h₀, hrun⟩ := hs
  induction hrun with
  | refl => exact hinit s₀ h₀
  | tail hrun h ih => exact hstep _ _ ⟨s₀, h₀, hrun⟩ ih h

end System

end Throned.Library

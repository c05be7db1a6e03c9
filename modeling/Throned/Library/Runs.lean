import Mathlib.Tactic.TypeStar

/-!
# Runs of events

A deterministic system takes one event after another.  What every step keeps holds after every
run, where each step meets what is asked of it in the state in which it is taken.
-/

set_option autoImplicit false

namespace Throned.Library

variable {σ ε : Type*} (step : σ → ε → σ)

def runAll (s : σ) (events : List ε) : σ := events.foldl step s

/-- Every step of a run meets a condition where it is taken. -/
def Throughout (P : σ → ε → Prop) : σ → List ε → Prop
  | _, [] => True
  | s, ev :: later => P s ev ∧ Throughout P (step s ev) later

instance Throughout.decidable (P : σ → ε → Prop) [∀ s ev, Decidable (P s ev)] :
    ∀ s later, Decidable (Throughout step P s later)
  | _, [] => inferInstanceAs (Decidable True)
  | s, ev :: later =>
    have := Throughout.decidable P (step s ev) later
    inferInstanceAs (Decidable (_ ∧ _))

variable {step}

/-- What every step keeps. -/
theorem runAll_invariant {I : σ → Prop} (hstep : ∀ s ev, I s → I (step s ev)) {s : σ} (h : I s)
    (later : List ε) : I (runAll step s later) := by
  induction later generalizing s with
  | nil => exact h
  | cons ev later ih => exact ih (hstep s ev h)

/-- **The rule for runs.** -/
theorem Throughout.invariant {P : σ → ε → Prop} {I : σ → Prop}
    (hstep : ∀ s ev, P s ev → I s → I (step s ev)) {later : List ε} {s : σ}
    (hP : Throughout step P s later) (h : I s) : I (runAll step s later) := by
  induction later generalizing s with
  | nil => exact h
  | cons ev later ih => exact ih hP.2 (hstep s ev hP.1 h)

theorem Throughout.take {P : σ → ε → Prop} {later : List ε} {s : σ} (h : Throughout step P s later)
    (n : Nat) : Throughout step P s (later.take n) := by
  induction later generalizing s n with
  | nil =>
    rw [List.take_nil]
    exact h
  | cons ev later ih =>
    cases n with
    | zero => trivial
    | succ n => exact ⟨h.1, ih h.2 n⟩

/-- **Runs that keep an invariant.**  Where a condition says exactly which steps keep it, a run
keeps it all along just when its steps meet the condition. -/
theorem throughout_iff {P : σ → ε → Prop} {I J : σ → Prop} (hJ : ∀ s ev, J s → J (step s ev))
    (hstep : ∀ s ev, J s → I s → (I (step s ev) ↔ P s ev)) {later : List ε} {s : σ} (hs : J s)
    (h : I s) : Throughout step P s later ↔ ∀ n, I (runAll step s (later.take n)) := by
  induction later generalizing s with
  | nil =>
    refine ⟨fun _ n => ?_, fun _ => trivial⟩
    rw [List.take_nil]
    exact h
  | cons ev later ih =>
    constructor
    · rintro ⟨hev, hlater⟩ n
      have hnext := (hstep s ev hs h).mpr hev
      cases n with
      | zero => exact h
      | succ n => exact (ih (hJ s ev hs) hnext).mp hlater n
    · intro hall
      have hnext : I (step s ev) := hall 1
      exact ⟨(hstep s ev hs h).mp hnext, (ih (hJ s ev hs) hnext).mpr fun n => hall (n + 1)⟩

end Throned.Library

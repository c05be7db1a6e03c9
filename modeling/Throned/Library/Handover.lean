import Mathlib.Data.Option.Basic
import Mathlib.Tactic.TypeStar

/-!
# One in use and one that takes over

Of the things that a manager starts, one is in use and at most one is to take its place.  The
two slots are sound where they are different and open, and what is in use was ready.  Each rule
asks only that the things outside the slots it names are as before.
-/

set_option autoImplicit false

namespace Throned.Library

variable {ι : Type*}

structure Handover (active pending : Option ι) (closed ready : ι → Bool) : Prop where
  activeOpen : ∀ i, active = some i → closed i = false
  pendingOpen : ∀ i, pending = some i → closed i = false
  apart : ∀ i, active = some i → pending ≠ some i
  activeReady : ∀ i, active = some i → ready i = true

namespace Handover

variable {active pending : Option ι} {closed closed' ready ready' : ι → Bool}

theorem empty : Handover none none closed ready where
  activeOpen := nofun
  pendingOpen := nofun
  apart := nofun
  activeReady := nofun

/-- A new one is to take over; the one before it is given up. -/
theorem renew (h : Handover active pending closed ready) {i : ι} (hnew : active ≠ some i)
    (hopen : closed' i = false) (hclosed : ∀ j, j ≠ i → pending ≠ some j → closed' j = closed j)
    (hready : ∀ j, j ≠ i → ready' j = ready j) :
    Handover active (some i) closed' ready' := by
  have hne {j : ι} (hj : active = some j) : j ≠ i := by
    rintro rfl
    exact hnew hj
  constructor
  · intro j hj
    rw [hclosed j (hne hj) (h.apart j hj)]
    exact h.activeOpen j hj
  · intro j hj
    rw [← Option.some.inj hj]
    exact hopen
  · intro j hj heq
    exact hne hj (Option.some.inj heq).symm
  · intro j hj
    rw [hready j (hne hj)]
    exact h.activeReady j hj

/-- The one that is to take over does; the one before it may be closed. -/
theorem takeOver (h : Handover active pending closed ready) {i : ι} (hpending : pending = some i)
    (hclosed : ∀ j, active ≠ some j → closed' j = closed j) (hready : ready' i = true) :
    Handover (some i) none closed' ready' := by
  constructor
  · intro j hj
    rw [← Option.some.inj hj, hclosed i fun hactive => h.apart i hactive hpending]
    exact h.pendingOpen i hpending
  · exact nofun
  · exact nofun
  · intro j hj
    rw [← Option.some.inj hj]
    exact hready

/-- One of them is gone, from whatever slot. -/
theorem lose [DecidableEq ι] (h : Handover active pending closed ready) {i : ι}
    (hclosed : ∀ j, j ≠ i → closed' j = closed j) (hready : ∀ j, j ≠ i → ready' j = ready j) :
    Handover (if active = some i then none else active)
      (if pending = some i then none else pending) closed' ready' := by
  have hslot {slot : Option ι} {j : ι} (hj : (if slot = some i then none else slot) = some j) :
      slot = some j ∧ j ≠ i := by
    split at hj
    · cases hj
    · rename_i hne
      refine ⟨hj, ?_⟩
      rintro rfl
      exact hne hj
  constructor
  · intro j hj
    rw [hclosed j (hslot hj).2]
    exact h.activeOpen j (hslot hj).1
  · intro j hj
    rw [hclosed j (hslot hj).2]
    exact h.pendingOpen j (hslot hj).1
  · intro j hj heq
    exact h.apart j (hslot hj).1 (hslot heq).1
  · intro j hj
    rw [hready j (hslot hj).2]
    exact h.activeReady j (hslot hj).1

/-- The one that was to take over is given up. -/
theorem giveUp (h : Handover active pending closed ready)
    (hclosed : ∀ j, pending ≠ some j → closed' j = closed j) :
    Handover active none closed' ready := by
  constructor
  · intro j hj
    rw [hclosed j (h.apart j hj)]
    exact h.activeOpen j hj
  · exact nofun
  · exact nofun
  · exact h.activeReady

end Handover

end Throned.Library

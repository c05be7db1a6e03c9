import Throned.Analysis.SpeedCredits

/-!
# What a session of speed tests is credited with

Between two probes the books have grown by the final counters of the profiles' own probes, in
every run whose credits fit.  Baselines outlive their probe, and the tags of a batch are those of
the batch before; so the next probe may lose its first bytes to the last one, and a tick that
comes after the final answer is credited again.
-/

set_option autoImplicit false

namespace Throned.Engine.Tests.SpeedTests

open Throned.Library

/-- The runner as it is constructed. -/
def launched (profiles : List ℤ) (config traffic : Ledger ℤ Bytes) (app : Ledger Text Bytes)
    (saved : ℤ → Bytes) : SpeedTests :=
  { profiles, config, traffic, app, saved }

section Launched

variable (profiles : List ℤ) (config traffic : Ledger ℤ Bytes) (app : Ledger Text Bytes)
  (saved : ℤ → Bytes)

theorem counting_launched : (launched profiles config traffic app saved).Counting {} where
  nonneg _ := le_rfl
  gens _ hp := absurd hp List.not_mem_nil
  fresh _ hm := absurd hm List.not_mem_nil
  shown _ hm := absurd hm List.not_mem_nil
  below _ _ := le_rfl
  current _ hp := absurd hp List.not_mem_nil
  carried _ hp := absurd hp List.not_mem_nil
  late _ hp := absurd hp List.not_mem_nil
  settled _ hm := absurd hm List.not_mem_nil
  probing _ _ hw := nomatch hw
  counted _ _ _ hw := nomatch hw
  distinct _ _ _ hw := nomatch hw
  pending _ _ _ hw := nomatch hw

theorem exact_launched :
    Exact (launched profiles config traffic app saved)
      (launched profiles config traffic app saved, {}) where
  credited :=
    { config := fun _ => (add_zero _).symm
      traffic := fun _ => (add_zero _).symm
      app := (add_zero _).symm }
  reported _ hm := absurd hm List.not_mem_nil

/-- The audit of a run. -/
def auditedRun (events : List Event) : SpeedTests × Audit :=
  runAll auditedStep (launched profiles config traffic app saved, {}) events

theorem counting_auditedRun (events : List Event) :
    let x := auditedRun profiles config traffic app saved events
    x.1.Counting x.2 := by
  have hstep : ∀ (x : SpeedTests × Audit) ev, x.1.Counting x.2 →
      (auditedStep x ev).1.Counting (auditedStep x ev).2 := fun x ev hx => hx.step ev
  exact runAll_invariant hstep (counting_launched profiles config traffic app saved) events

end Launched

/-! ## Runs of two profiles -/

def firstTag : Text := hopTag (hopTag testChainPrefix 1) 0

/-- A probe of one tag whose download reaches `down`, without a tick. -/
def probeEvents (down : ℕ) : List Event :=
  [.startProbe, .moveBytes firstTag 0 down, .answer [firstTag], .creditResult, .creditResult]

/-- Two profiles, in a batch each. -/
def twoBatches (first second : ℕ) : List Event :=
  [.runSpeedTests [⟨1, .chain⟩, ⟨2, .chain⟩] false, .clearCredits] ++ probeEvents first ++
    probeEvents second ++ [.endSession]

/-- One profile; a tick that was checked before the final answer is credited after it. -/
def lateTick : List Event :=
  [.runSpeedTests [⟨1, .chain⟩] false, .clearCredits, .startProbe, .moveBytes firstTag 0 60,
    .poll 0 firstTag, .checkTick 0, .moveBytes firstTag 0 40, .answer [firstTag], .creditResult,
    .creditTick 0, .creditResult, .endSession]

def newRunner : SpeedTests := launched [1, 2] .empty .empty .empty fun _ => (0, 0)

def newRun (events : List Event) : SpeedTests × Audit :=
  auditedRun [1, 2] .empty .empty .empty (fun _ => (0, 0)) events

end Throned.Engine.Tests.SpeedTests

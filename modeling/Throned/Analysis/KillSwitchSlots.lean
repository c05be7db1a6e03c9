import Throned.Library.Handover
import Throned.Model.KillSwitch

/-!
# The two guards of the kill switch

The active guard reported that it is ready, the pending one is another, and neither is closing:
each handler follows the rules for one in use and one that takes over.
-/

set_option autoImplicit false

namespace Throned.Sys.KillSwitch

open Throned.Library

def Ran (phase : ProcessPhase) : Prop := phase = .running ∨ phase = .finished

structure SlotsOf (active pending : Option ℕ) (guards : ℕ → GuardProcess) (spawned : ℕ) :
    Prop where
  handover : Handover active pending (fun g => (guards g).closing) (fun g => (guards g).ready)
  below : ∀ g, active = some g ∨ pending = some g → g < spawned
  /-- What reported did run. -/
  ran : ∀ g, (guards g).ready = true → Ran (guards g).phase

/-- The slots of a state. -/
def Slots (s : KillSwitch) : Prop := SlotsOf s.active s.pending s.guards s.spawned

/-! ## Guards -/

theorem close_ready (guard : GuardProcess) : guard.close.ready = guard.ready := by
  unfold GuardProcess.close
  split <;> rfl

theorem close_phase (guard : GuardProcess) : guard.close.phase = guard.phase := by
  unfold GuardProcess.close
  split <;> rfl

theorem closeGuard_of_ne {closed : Option ℕ} {g : ℕ} (h : closed ≠ some g) (s : KillSwitch) :
    (closeGuard closed s).guards g = s.guards g := if_neg h

theorem closeGuard_ready (closed : Option ℕ) (g : ℕ) (s : KillSwitch) :
    ((closeGuard closed s).guards g).ready = (s.guards g).ready := by
  unfold closeGuard
  simp only
  split
  · exact close_ready _
  · rfl

theorem closeGuard_phase (closed : Option ℕ) (g : ℕ) (s : KillSwitch) :
    ((closeGuard closed s).guards g).phase = (s.guards g).phase := by
  unfold closeGuard
  simp only
  split
  · exact close_phase _
  · rfl

theorem setGuard_self (guard : ℕ) (process : GuardProcess) (s : KillSwitch) :
    (setGuard guard process s).guards guard = process := Function.update_self ..

theorem setGuard_of_ne {guard g : ℕ} (h : g ≠ guard) (process : GuardProcess) (s : KillSwitch) :
    (setGuard guard process s).guards g = s.guards g := Function.update_of_ne h ..

/-- A change to one guard that keeps what the slots ask of it. -/
theorem Slots.setGuard {s : KillSwitch} (h : Slots s) {guard : ℕ} {process : GuardProcess}
    (hclosing : process.closing = (s.guards guard).closing)
    (hready : process.ready = (s.guards guard).ready)
    (hran : process.ready = true → Ran process.phase) : Slots (setGuard guard process s) := by
  have hclosed : (fun g => ((KillSwitch.setGuard guard process s).guards g).closing) =
      fun g => (s.guards g).closing := by
    funext g
    by_cases hg : g = guard
    · rw [hg, setGuard_self, hclosing]
    · rw [setGuard_of_ne hg]
  have hreadies : (fun g => ((KillSwitch.setGuard guard process s).guards g).ready) =
      fun g => (s.guards g).ready := by
    funext g
    by_cases hg : g = guard
    · rw [hg, setGuard_self, hready]
    · rw [setGuard_of_ne hg]
  refine ⟨?_, h.below, fun g => ?_⟩
  · rw [hclosed, hreadies]
    exact h.handover
  · by_cases hg : g = guard
    · rw [hg, setGuard_self]
      exact hran
    · rw [setGuard_of_ne hg]
      exact h.ran g

/-! ## Parts of the handlers -/

theorem Slots.giveUpPending {s : KillSwitch} (h : Slots s) :
    Slots { closeGuard s.pending s with pending := none } := by
  refine ⟨?_, fun g hg => h.below g (hg.imp_right nofun), fun g hready => ?_⟩
  · have hreadies : (fun g => ((closeGuard s.pending s).guards g).ready) =
        fun g => (s.guards g).ready := funext fun g => closeGuard_ready s.pending g s
    rw [hreadies]
    exact h.handover.giveUp fun g hg => congrArg GuardProcess.closing (closeGuard_of_ne hg s)
  · rw [closeGuard_phase]
    rw [closeGuard_ready] at hready
    exact h.ran g hready

theorem Slots.closeGuards {s : KillSwitch} (h : Slots s) : Slots (closeGuards s) := by
  refine ⟨Handover.empty, fun g hg => ?_, fun g hready => ?_⟩
  · rcases hg with hg | hg <;> cases hg
  · change Ran ((closeGuard s.active (closeGuard s.pending s)).guards g).phase
    change ((closeGuard s.active (closeGuard s.pending s)).guards g).ready = true at hready
    rw [closeGuard_phase, closeGuard_phase]
    rw [closeGuard_ready, closeGuard_ready] at hready
    exact h.ran g hready

theorem Slots.fail {s : KillSwitch} (h : Slots s) (code message : Text) :
    Slots (fail code message s) := h

theorem Slots.failIdentity {s : KillSwitch} (h : Slots s) : Slots (failIdentity s) := by
  unfold KillSwitch.failIdentity
  simp only
  split <;> exact h

theorem Slots.spawn {s : KillSwitch} (h : Slots s) (config : GuardConfig) :
    Slots (spawn config s) := by
  have hfresh : s.active ≠ some s.spawned := fun hactive =>
    absurd (h.below _ (.inl hactive)) (lt_irrefl _)
  have hslots : SlotsOf s.active (some s.spawned)
      (Function.update (closeGuard s.pending s).guards s.spawned
        ⟨config, s.active.isSome, false, false, false, .unstarted⟩) (s.spawned + 1) := by
    refine ⟨h.handover.renew hfresh (by simp) (fun g hg hpending => ?_) fun g hg => ?_,
      fun g hg => ?_, fun g hready => ?_⟩
    · rw [Function.update_of_ne hg, closeGuard_of_ne hpending]
    · rw [Function.update_of_ne hg, closeGuard_ready]
    · rcases hg with hg | hg
      · exact Nat.lt_succ_of_lt (h.below g (.inl hg))
      · rw [← Option.some.inj hg]
        exact Nat.lt_succ_self _
    · by_cases hg : g = s.spawned
      · rw [hg, Function.update_self] at hready
        cases hready
      · rw [Function.update_of_ne hg, closeGuard_ready] at hready
        rw [Function.update_of_ne hg, closeGuard_phase]
        exact h.ran g hready
  unfold KillSwitch.spawn
  simp only
  split <;> exact hslots

theorem Slots.start {s : KillSwitch} (h : Slots s) (guard : ℕ) : Slots (start guard s) := by
  refine h.setGuard rfl rfl fun hready => ?_
  have hran := h.ran guard hready
  rw [if_neg]
  · exact hran
  · intro hphase
    unfold Ran at hran
    rw [hphase] at hran
    rcases hran with hran | hran <;> cases hran

/-- The end of a guard, whatever slot it had. -/
theorem Slots.lose {s : KillSwitch} (h : Slots s) {guard : ℕ} {guards : ℕ → GuardProcess}
    (hothers : ∀ g, g ≠ guard → guards g = s.guards g)
    (hready : (guards guard).ready = (s.guards guard).ready)
    (hran : Ran (s.guards guard).phase → Ran (guards guard).phase) :
    Slots { forget guard s with guards := guards } := by
  refine ⟨h.handover.lose (fun g hg => ?_) (fun g hg => ?_), fun g hg => ?_, fun g hg => ?_⟩
  · exact congrArg GuardProcess.closing (hothers g hg)
  · exact congrArg GuardProcess.ready (hothers g hg)
  · refine h.below g (hg.imp (fun hactive => ?_) fun hpending => ?_)
    · unfold forget at hactive
      simp only at hactive
      split at hactive
      · cases hactive
      · exact hactive
    · unfold forget at hpending
      simp only at hpending
      split at hpending
      · cases hpending
      · exact hpending
  · change Ran (guards g).phase
    change (guards g).ready = true at hg
    by_cases hne : g = guard
    · subst hne
      rw [hready] at hg
      exact hran (h.ran g hg)
    · rw [hothers g hne] at hg ⊢
      exact h.ran g hg

/-! ## Handlers -/

theorem Slots.applyRest {s : KillSwitch} (h : Slots s) (host : Host) :
    Slots (applyRest host s) := by
  unfold KillSwitch.applyRest
  simp only
  split
  · exact h
  · split
    · split
      · exact h.giveUpPending
      · exact h
    · exact h.spawn _

theorem Slots.apply {s : KillSwitch} (h : Slots s) (host : Host) : Slots (apply host s) := by
  unfold KillSwitch.apply
  split
  · exact h
  · split
    · exact h.closeGuards
    · split
      · simp only
        split
        · exact h.closeGuards
        · exact h.closeGuards
      · split
        · exact Slots.failIdentity (s := push .applyRest s) h
        · exact h.applyRest host

theorem Slots.armFailed {s : KillSwitch} (h : Slots s) (code message : Text) :
    Slots (armFailed code message s) := by
  unfold KillSwitch.armFailed
  split <;> exact h

theorem Slots.protectionLost {s : KillSwitch} (h : Slots s) (host : Host)
    (code message : Text) : Slots (protectionLost host code message s) := by
  unfold KillSwitch.protectionLost
  split
  · exact h
  · split
    · exact h.apply host
    · split
      · split <;> exact h
      · split
        · exact Slots.spawn (s := { s with lastRespawn := some s.now }) h _
        · exact h

theorem Slots.lost {s : KillSwitch} (h : Slots s) (host : Host) (guard : ℕ)
    (code activeMessage pendingMessage : Text) (before : KillSwitch) :
    Slots (lost host guard code activeMessage pendingMessage before s) := by
  unfold KillSwitch.lost
  split
  · exact h.protectionLost host _ _
  · split
    · exact h.armFailed _ _
    · exact h

theorem Slots.onReady {s : KillSwitch} (h : Slots s) {guard : ℕ}
    (hran : Ran (s.guards guard).phase) : Slots (onReady guard s) := by
  unfold KillSwitch.onReady
  split
  · exact h
  · rename_i hnot
    obtain ⟨hpending, -⟩ := not_or.mp hnot
    have hpending := of_not_not hpending
    have hslots : Slots (closeGuard s.active
        (KillSwitch.setGuard guard { s.guards guard with ready := true, readyTimer := false }
          { s with active := some guard, pending := none })) := by
      refine ⟨h.handover.takeOver hpending (fun g hg => ?_) ?_, fun g hg => ?_,
        fun g hready => ?_⟩
      · rw [closeGuard_of_ne hg]
        by_cases hne : g = guard
        · rw [hne, setGuard_self]
        · rw [setGuard_of_ne hne]
      · rw [closeGuard_ready, setGuard_self]
      · rcases hg with hg | hg
        · exact h.below g (.inr (hpending.trans hg))
        · cases hg
      · rw [closeGuard_phase]
        rw [closeGuard_ready] at hready
        by_cases hne : g = guard
        · rw [hne, setGuard_self]
          exact hran
        · rw [setGuard_of_ne hne] at hready ⊢
          exact h.ran g hready
    simp only
    split
    · exact hslots.failIdentity
    · exact hslots

theorem Slots.handleLine {s : KillSwitch} (h : Slots s) (host : Host) {guard : ℕ} (line : Text)
    (hran : Ran (s.guards guard).phase) : Slots (handleLine host guard line s) := by
  unfold KillSwitch.handleLine
  simp only
  split
  · exact h
  · split
    · exact h.onReady hran
    · split
      · exact h
      · split
        · exact h
        · refine Slots.lost (h.lose (fun g hg => ?_) ?_ fun hphase => ?_) host guard _ _ _ s
          · exact closeGuard_of_ne (fun heq => hg (Option.some.inj heq).symm) _
          · exact closeGuard_ready (some guard) guard (forget guard s)
          · exact (closeGuard_phase (some guard) guard (forget guard s)) ▸ hphase

theorem Slots.onReadyTimeout {s : KillSwitch} (h : Slots s) (guard : ℕ) :
    Slots (onReadyTimeout guard s) := by
  unfold KillSwitch.onReadyTimeout
  split
  · exact h
  · rename_i hnot
    have hpending : s.pending = some guard := of_not_not (not_or.mp hnot).1
    refine Slots.armFailed ?_ _ _
    rw [← hpending]
    exact h.giveUpPending

/-- A guard whose start failed was never the active one. -/
theorem Slots.onStartFailed {s : KillSwitch} (h : Slots s) {guard : ℕ}
    (hactive : s.active ≠ some guard) (program errorString : Text) :
    Slots (onStartFailed guard program errorString s) := by
  have hslots : Slots { forget guard s with
      guards := Function.update s.guards guard
        { s.guards guard with readyTimer := false, closing := true } } :=
    h.lose (fun g hg => Function.update_of_ne hg _ _) (by rw [Function.update_self])
      (by rw [Function.update_self]; exact id)
  unfold Slots forget at hslots
  simp only [if_neg hactive] at hslots
  unfold KillSwitch.onStartFailed
  by_cases hpending : s.pending = some guard
  · have hopen := h.handover.pendingOpen guard hpending
    simp only [hpending, if_true] at hslots
    simp only [hpending, hopen, Bool.not_false, true_and, if_true]
    refine Slots.armFailed ?_ _ _
    exact hslots
  · simp only [hpending, if_false] at hslots
    simp only [hpending, and_false, if_false]
    exact hslots

theorem Slots.onFinished {s : KillSwitch} (h : Slots s) (host : Host) (guard : ℕ)
    (exitCode : ℤ) (crashed : Bool) : Slots (onFinished host guard exitCode crashed s) := by
  have hslots : Slots { forget guard s with
      guards := Function.update s.guards guard
        { s.guards guard with readyTimer := false, closing := true } } :=
    h.lose (fun g hg => Function.update_of_ne hg _ _) (by rw [Function.update_self])
      (by rw [Function.update_self]; exact id)
  unfold KillSwitch.onFinished
  simp only
  split
  · rename_i hclosing
    exact h.setGuard hclosing.symm rfl (h.ran guard)
  · exact Slots.lost hslots host guard _ _ _ s

theorem Slots.settleRest {s : KillSwitch} (h : Slots s) (waiting : List Waiter) :
    Slots (settleRest waiting s) := by
  unfold KillSwitch.settleRest
  split
  · exact h
  · split
    · exact h
    · split <;> exact h

theorem Slots.shutdownAll {s : KillSwitch} (h : Slots s) : Slots (shutdownAll s) := by
  unfold KillSwitch.shutdownAll
  split
  · exact h
  · refine ⟨Handover.empty, fun g hg => ?_, h.ran⟩
    rcases hg with hg | hg <;> cases hg

end Throned.Sys.KillSwitch

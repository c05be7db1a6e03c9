import Throned.Analysis.SupervisorSteps

/-!
# The restarts of the core

A restart waits in the backoff only, nothing leaves the shutdown, and a core that keeps
failing is given up after a bounded number of restarts.
-/

set_option autoImplicit false

namespace Throned.Engine

namespace CoreSupervisor

variable {windows : Bool} {s : CoreSupervisor}

/-! ## Shutting down -/

/-- **Nothing leaves the shutdown**, and no restart is posted in it. -/
theorem step_shuttingDown (h : s.state = .ShuttingDown) (ev : Event) :
    (s.step windows ev).state = .ShuttingDown ∧
      (s.step windows ev).restartCount = s.restartCount ∧
      (s.step windows ev).cores.count .restart ≤ s.cores.count .restart := by
  have hexit : s.exiting = true := by simp [exiting, h]
  have hcan : s.canStartCore = false := by simp [canStartCore, h]
  cases ev with
  | start id => simp [step, start, h]
  | shutdown => simp [step, shutdown, setState_eq, post]
  | killForExit => simp [step, killForExit, setState_eq, post]
  | resetCore => simp [step, resetCore, hcan, h]
  | restartNotListening id => simp [step, restartNotListening, hcan, h]
  | restartForGuard => simp [step, restartForGuard, hcan, h]
  | killForPrivilegeChange => simp [step, killForPrivilegeChange, h]
  | deadCorePosted =>
    simp only [step, deadCorePosted, restartDeadCore]
    split
    · exact ⟨h, rfl, le_rfl⟩
    · rw [if_pos (by simp [h])]
      exact ⟨h, rfl, le_rfl⟩
  | setStartWhenUp id =>
    simp only [step, setStartWhenUp]
    split
    · exact ⟨h, rfl, le_rfl⟩
    · exact ⟨h, rfl, le_rfl⟩
  | cancelResume => exact ⟨h, rfl, le_rfl⟩
  | newConnection peer =>
    have hexit' : (s.emit .rpcConnected).exiting = true := hexit
    simp only [step, onNewConnection, hexit', if_true]
    split
    · exact ⟨h, rfl, le_rfl⟩
    · split
      · exact ⟨h, rfl, le_rfl⟩
      · exact ⟨h, rfl, le_rfl⟩
  | privilegeProbed gen ok attempt isConnected => simp [step, onPrivilegeProbed, h]
  | coreSpawned gen => simp [step, onCoreSpawned, h]
  | coreExited gen failedToStart exitCode =>
    simp only [step, onCoreExited]
    split
    · exact ⟨h, rfl, le_rfl⟩
    · unfold actOnExit
      simp only
      rw [if_pos (by simp [exiting, h])]
      exact ⟨h, rfl, le_rfl⟩
  | restartTimeout =>
    simp only [step, restartTimeout, postRestart]
    split
    · rw [if_pos (by simp [h])]
      exact ⟨h, rfl, le_rfl⟩
    · exact ⟨h, rfl, le_rfl⟩
  | connectTimeout =>
    simp only [step, connectTimeout, onConnectTimeout, timesOut]
    split
    · rw [if_pos (by simp [h])]
      exact ⟨h, rfl, le_rfl⟩
    · exact ⟨h, rfl, le_rfl⟩
  | runNext =>
    simp only [step, runNext]
    split
    · exact ⟨h, rfl, le_rfl⟩
    · rename_i task rest heq
      rw [heq]
      obtain ⟨generation, expected, started, htask⟩ := runTask_eq { s with cores := rest } task
      rw [htask]
      refine ⟨h, rfl, ?_⟩
      rw [List.count_cons]
      exact Nat.le_add_right _ _
  | elapse ms => exact ⟨h, rfl, le_rfl⟩
  | setStartedId id => exact ⟨h, rfl, le_rfl⟩
  | prepareExit => exact ⟨h, rfl, le_rfl⟩

/-! ## The backoff -/

/-- A restart waits in the backoff, unless the exit is being prepared. -/
def Armed (s : CoreSupervisor) : Prop :=
  s.state = .Backoff → s.restartTimer.isSome = true ∨ s.prepare_exit = true

theorem armed_of_ne (h : s.state ≠ .Backoff) : s.Armed := fun hstate => absurd hstate h

theorem armed_scheduleRestart (delayMs : ℕ) : (s.scheduleRestart delayMs).Armed :=
  fun _ => Or.inl rfl

theorem state_beginRestart : s.beginRestart.state = .Starting := by
  unfold beginRestart
  rw [setState_eq]

theorem armed_postProcessRestart (h : s.state ≠ .Backoff) : s.postProcessRestart.Armed :=
  armed_of_ne h

theorem armed_actOnExit (h : s.Armed) (gen : ℕ) (failedToStart : Bool) (exitCode : Int) :
    (s.actOnExit gen failedToStart exitCode).Armed := by
  unfold actOnExit
  simp only
  split
  · exact h
  · split
    · exact armed_scheduleRestart _
    · split
      · exact armed_scheduleRestart _
      · unfold onUnexpectedExit
        simp only
        split
        · refine armed_of_ne ?_
          unfold giveUp
          rw [setState_eq]
          exact CoreState.noConfusion
        · exact armed_scheduleRestart _

theorem armed_step (h : s.Armed) (ev : Event) : (s.step windows ev).Armed := by
  have hbegin : s.beginRestart.state ≠ .Backoff := by
    rw [state_beginRestart]
    exact CoreState.noConfusion
  cases ev with
  | start id =>
    simp only [step, start]
    split
    · exact h
    · refine armed_of_ne ?_
      simp [post, setState_eq]
  | shutdown =>
    refine armed_of_ne ?_
    simp [step, shutdown, post, setState_eq]
  | killForExit =>
    refine armed_of_ne ?_
    simp [step, killForExit, post, setState_eq]
  | resetCore =>
    simp only [step, resetCore]
    split
    · exact h
    · split
      · exact armed_of_ne hbegin
      · exact armed_of_ne hbegin
  | restartNotListening id =>
    simp only [step, restartNotListening]
    split
    · exact h
    · exact armed_of_ne hbegin
  | restartForGuard =>
    simp only [step, restartForGuard]
    split
    · exact h
    · exact armed_of_ne hbegin
  | killForPrivilegeChange =>
    simp only [step, killForPrivilegeChange]
    split
    · exact h
    · split
      · exact h
      · exact h
  | deadCorePosted =>
    simp only [step, deadCorePosted, restartDeadCore]
    split
    · exact h
    · split
      · exact h
      · refine armed_of_ne ?_
        simp [postProcessRestart, post, state_beginRestart]
  | setStartWhenUp id =>
    simp only [step, setStartWhenUp]
    split
    · exact h
    · exact h
  | cancelResume => exact h
  | newConnection peer =>
    simp only [step, onNewConnection]
    split
    · exact h
    · split
      · exact h
      · split
        · exact h
        · refine armed_of_ne ?_
          split
          · simp [emitCoreStarted, emit, setState_eq]
          · simp [setState_eq]
  | privilegeProbed gen ok attempt isConnected =>
    simp only [step, onPrivilegeProbed]
    split
    · exact h
    · split
      · exact h
      · split
        · exact h
        · exact h
  | coreSpawned gen =>
    simp only [step, onCoreSpawned]
    split
    · exact h
    · exact h
  | coreExited gen failedToStart exitCode =>
    simp only [step, onCoreExited]
    split
    · exact h
    · exact armed_actOnExit h gen failedToStart exitCode
  | restartTimeout =>
    simp only [step, restartTimeout, postRestart]
    split
    · split
      · rename_i hskip
        intro hstate
        refine Or.inr ?_
        rcases hskip with hne | hexit
        · exact absurd hstate hne
        · have hstate' : s.state = .Backoff := hstate
          simpa [exiting, hstate'] using hexit
      · refine armed_of_ne ?_
        simp [postProcessRestart, post, setState_eq]
    · exact h
  | connectTimeout =>
    simp only [step, connectTimeout, onConnectTimeout]
    split
    · split
      · exact h
      · exact h
    · exact h
  | runNext =>
    simp only [step, runNext]
    split
    · exact h
    · rename_i task rest _
      obtain ⟨generation, expected, started, htask⟩ := runTask_eq { s with cores := rest } task
      rw [htask]
      exact h
  | elapse ms => exact h
  | setStartedId id => exact h
  | prepareExit => exact fun _ => Or.inr rfl

/-- A timer that is left over restarts nothing. -/
theorem restartTimeout_of_ne (h : s.state ≠ .Backoff) :
    s.restartTimeout.restartCount = s.restartCount ∧ s.restartTimeout.cores = s.cores := by
  unfold restartTimeout
  split
  · rw [postRestart, if_pos (Or.inl h)]
    exact ⟨rfl, rfl⟩
  · exact ⟨rfl, rfl⟩

end CoreSupervisor

end Throned.Engine

import Mathlib.Order.Nat
import Mathlib.Tactic.Common
import Throned.Model.CoreSupervisor

/-!
# The generations of the core

The counters of the supervisor are compared with the generation of the process only.  Every
step does to them one of a few things, from which their order and their growth follow.
-/

set_option autoImplicit false

namespace Throned.Engine

namespace CoreSupervisor

variable {windows : Bool} {s : CoreSupervisor}

theorem setState_eq (s : CoreSupervisor) (state : CoreState) :
    s.setState state =
      { s with
        state := state
        signals := s.signals ++ if s.state = state then [] else [.stateChanged state] } := by
  unfold setState emit
  split
  · rename_i heq
    rw [List.append_nil, ← heq]
  · rfl

/-- All that a task of the thread of the process can change. -/
theorem runTask_eq (s : CoreSupervisor) (task : Task) :
    ∃ generation expected started, s.runTask task =
      { s with generation := generation, expectedExitGen := expected, started_id := started } := by
  cases task with
  | start => exact ⟨_, _, _, rfl⟩
  | restart =>
    simp only [runTask]
    split
    · exact ⟨s.generation, s.expectedExitGen, s.started_id, rfl⟩
    · exact ⟨_, _, _, rfl⟩
  | resetKill =>
    simp only [runTask]
    split
    · exact ⟨s.generation, s.expectedExitGen, s.started_id, rfl⟩
    · exact ⟨_, _, _, rfl⟩
  | privilegeKill =>
    simp only [runTask]
    split
    · exact ⟨s.generation, s.expectedExitGen, s.started_id, rfl⟩
    · exact ⟨_, _, _, rfl⟩
  | killGeneration gen => exact ⟨s.generation, s.expectedExitGen, s.started_id, rfl⟩
  | kill => exact ⟨s.generation, s.expectedExitGen, s.started_id, rfl⟩

/-! ## The counters -/

/-- The counters that hold generations. -/
structure Gens where
  handled : ℕ
  accepted : ℕ
  timedOut : ℕ
  expected : ℕ
  generation : ℕ

def gens (s : CoreSupervisor) : Gens :=
  ⟨s.handledExitGen, s.acceptedGen, s.timedOutGen, s.expectedExitGen, s.generation⟩

/-- What a step does to the counters. -/
inductive Gens.Step (g : Gens) : Gens → Prop where
  | same : g.Step g
  | superseded : g.Step { g with handled := max g.handled g.generation }
  | handled (gen : ℕ) (h : g.handled < gen) : g.Step { g with handled := gen }
  | accepted (h : g.accepted < g.generation) : g.Step { g with accepted := g.generation }
  | timedOut : g.Step { g with timedOut := g.generation }
  | expected : g.Step { g with expected := g.generation }
  | advanced : g.Step { g with generation := g.generation + 1 }

/-- No counter is ahead of the process. -/
structure Gens.Behind (g : Gens) : Prop where
  accepted : g.accepted ≤ g.generation
  timedOut : g.timedOut ≤ g.generation
  expected : g.expected ≤ g.generation

/-- The counters of a later state. -/
structure Gens.Le (g g' : Gens) : Prop where
  handled : g.handled ≤ g'.handled
  timedOut : g.timedOut ≤ g'.timedOut
  generation : g.generation ≤ g'.generation

theorem Gens.Le.trans {g g' g'' : Gens} (h : g.Le g') (h' : g'.Le g'') : g.Le g'' :=
  ⟨h.handled.trans h'.handled, h.timedOut.trans h'.timedOut, h.generation.trans h'.generation⟩

theorem Gens.Behind.step {g g' : Gens} (h : g.Behind) (hstep : g.Step g') : g'.Behind := by
  obtain ⟨ha, ht, he⟩ := h
  cases hstep with
  | same => exact ⟨ha, ht, he⟩
  | superseded => exact ⟨ha, ht, he⟩
  | handled gen _ => exact ⟨ha, ht, he⟩
  | accepted _ => exact ⟨le_rfl, ht, he⟩
  | timedOut => exact ⟨ha, le_rfl, he⟩
  | expected => exact ⟨ha, ht, le_rfl⟩
  | advanced => exact ⟨ha.trans (Nat.le_succ _), ht.trans (Nat.le_succ _), he.trans (Nat.le_succ _)⟩

theorem Gens.Behind.le {g g' : Gens} (h : g.Behind) (hstep : g.Step g') : g.Le g' := by
  cases hstep with
  | same => exact ⟨le_rfl, le_rfl, le_rfl⟩
  | superseded => exact ⟨le_max_left _ _, le_rfl, le_rfl⟩
  | handled gen hgen => exact ⟨hgen.le, le_rfl, le_rfl⟩
  | accepted _ => exact ⟨le_rfl, le_rfl, le_rfl⟩
  | timedOut => exact ⟨le_rfl, h.timedOut, le_rfl⟩
  | expected => exact ⟨le_rfl, le_rfl, le_rfl⟩
  | advanced => exact ⟨le_rfl, le_rfl, Nat.le_succ _⟩

/-! ## The counters and the handlers -/

@[simp] theorem gens_emit (signal : Signal) : (s.emit signal).gens = s.gens := rfl

@[simp] theorem gens_post (task : Task) : (s.post task).gens = s.gens := rfl

@[simp] theorem gens_setState (state : CoreState) : (s.setState state).gens = s.gens := by
  rw [setState_eq]
  rfl

@[simp] theorem gens_beginRestart : s.beginRestart.gens = s.gens := by
  unfold beginRestart
  rw [gens_setState]
  rfl

@[simp] theorem gens_scheduleRestart (delayMs : ℕ) : (s.scheduleRestart delayMs).gens = s.gens := by
  unfold scheduleRestart
  rw [setState_eq]
  rfl

@[simp] theorem gens_emitCoreStarted : s.emitCoreStarted.gens = s.gens := rfl

@[simp] theorem gens_countFailure (connected : Bool) : (s.countFailure connected).gens = s.gens :=
  rfl

@[simp] theorem gens_resumeAfter (connected : Bool) : (s.resumeAfter connected).gens = s.gens := by
  unfold resumeAfter
  cases connected with
  | false =>
    simp only [Bool.false_eq_true, if_false, Bool.false_and, false_or, false_and]
    split
    · rfl
    · rfl
  | true =>
    simp only [if_true, true_or]
    split
    · rfl
    · rfl

@[simp] theorem gens_giveUp : s.giveUp.gens = s.gens := by
  unfold giveUp
  rw [gens_emit, gens_setState]
  rfl

@[simp] theorem gens_onUnexpectedExit (connected : Bool) :
    (s.onUnexpectedExit connected).gens = s.gens := by
  unfold onUnexpectedExit
  simp only
  split
  · simp only [gens_giveUp, gens_emit, gens_resumeAfter, gens_countFailure]
  · simp only [gens_scheduleRestart, gens_emit, gens_resumeAfter, gens_countFailure]

/-- A restart is posted. -/
theorem gens_postProcessRestart :
    s.postProcessRestart.gens = { s.gens with handled := max s.gens.handled s.gens.generation } :=
  rfl

theorem gens_actOnExit (gen : ℕ) (failedToStart : Bool) (exitCode : Int) :
    (s.actOnExit gen failedToStart exitCode).gens = { s.gens with handled := gen } := by
  unfold actOnExit
  simp only
  split
  · rfl
  · split
    · unfold onExpectedExit
      rw [gens_scheduleRestart]
      rfl
    · split
      · rw [gens_scheduleRestart]
        rfl
      · rw [gens_onUnexpectedExit]
        rfl

theorem gens_onNewConnection (peer : Option ℕ) :
    s.gens.Step (s.onNewConnection windows peer).gens := by
  unfold onNewConnection
  simp only
  split
  · exact .same
  · split
    · exact .same
    · split
      · exact .same
      · have hconnected : ∀ t : CoreSupervisor,
            (if windows = true then (t.setState .Connected).emitCoreStarted
              else { t.setState .Connected with probing := true }).gens = t.gens := by
          intro t
          split
          · rw [gens_emitCoreStarted, gens_setState]
          · exact gens_setState .Connected
        rw [hconnected]
        split
        · rename_i hlt
          exact .accepted hlt
        · exact .same

theorem gens_runTask (task : Task) : s.gens.Step (s.runTask task).gens := by
  cases task with
  | start => exact .advanced
  | restart =>
    unfold runTask
    simp only
    split
    · exact .same
    · exact .advanced
  | resetKill =>
    unfold runTask
    simp only
    split
    · exact .same
    · exact .expected
  | privilegeKill =>
    unfold runTask
    simp only
    split
    · exact .same
    · exact .expected
  | killGeneration gen => exact .same
  | kill => exact .same

/-- The generation that times out is that of the process. -/
theorem timesOut_eq {gen : ℕ} (h : s.timesOut = some gen) :
    gen = s.generation ∧ s.state = .Starting := by
  unfold timesOut at h
  split at h
  · cases h
  · rename_i hstarting
    push Not at hstarting
    split at h
    · cases h
    · rename_i hgen
      push Not at hgen
      exact ⟨(Option.some.inj h).symm.trans hgen.2, hstarting.1⟩

/-- **What a step does to the counters.** -/
theorem gens_step (ev : Event) : s.gens.Step (s.step windows ev).gens := by
  cases ev with
  | start id =>
    simp only [step, start]
    split
    · exact .same
    · rw [gens_post, gens_setState]
      split
      · exact .same
      · exact .same
  | shutdown =>
    simp only [step, shutdown, gens_post, setState_eq]
    exact .same
  | killForExit =>
    simp only [step, killForExit, gens_post, setState_eq]
    exact .same
  | resetCore =>
    simp only [step, resetCore]
    split
    · exact .same
    · split
      · rw [gens_postProcessRestart]
        have hgens : CoreSupervisor.gens { s.beginRestart with
            startWhenUp := -1, started_id := NoProfileId } = s.gens := gens_beginRestart
        rw [hgens]
        exact .superseded
      · rw [gens_post, gens_beginRestart]
        exact .same
  | restartNotListening id =>
    simp only [step, restartNotListening]
    split
    · exact .same
    · rw [gens_postProcessRestart]
      have hgens : CoreSupervisor.gens { s.beginRestart with startWhenUp := id } = s.gens :=
        gens_beginRestart
      rw [hgens]
      exact .superseded
  | restartForGuard =>
    simp only [step, restartForGuard]
    split
    · exact .same
    · rw [gens_postProcessRestart, gens_beginRestart]
      exact .superseded
  | killForPrivilegeChange =>
    simp only [step, killForPrivilegeChange]
    split
    · exact .same
    · split
      · exact .same
      · exact .same
  | deadCorePosted =>
    simp only [step, deadCorePosted]
    split
    · exact .same
    · unfold restartDeadCore
      split
      · exact .same
      · rw [gens_postProcessRestart]
        have hgens : ∀ t : CoreSupervisor,
            CoreSupervisor.gens { t.beginRestart with startWhenUp := s.started_id } = t.gens :=
          fun _ => gens_beginRestart
        rw [hgens]
        exact .superseded
  | setStartWhenUp id =>
    simp only [step, setStartWhenUp]
    split
    · exact .same
    · exact .same
  | cancelResume => exact .same
  | newConnection peer => exact gens_onNewConnection peer
  | privilegeProbed gen ok attempt isConnected =>
    simp only [step, onPrivilegeProbed]
    split
    · exact .same
    · split
      · exact .same
      · split
        · exact .same
        · exact .same
  | coreSpawned gen =>
    simp only [step, onCoreSpawned]
    split
    · exact .same
    · exact .same
  | coreExited gen failedToStart exitCode =>
    simp only [step, onCoreExited]
    split
    · exact .same
    · rename_i hgen
      rw [gens_actOnExit]
      exact .handled gen (Nat.lt_of_not_le hgen)
  | restartTimeout =>
    simp only [step, restartTimeout]
    split
    · unfold postRestart
      split
      · exact .same
      · rw [gens_postProcessRestart, gens_setState]
        exact .superseded
    · exact .same
  | connectTimeout =>
    simp only [step, connectTimeout]
    split
    · unfold onConnectTimeout
      split
      · exact .same
      · rename_i gen hgen
        rw [(timesOut_eq hgen).1]
        exact .timedOut
    · exact .same
  | runNext =>
    simp only [step, runNext]
    split
    · exact .same
    · rename_i task rest _
      exact gens_runTask (s := { s with cores := rest }) task
  | elapse ms => exact .same
  | setStartedId id => exact .same
  | prepareExit => exact .same

end CoreSupervisor

end Throned.Engine

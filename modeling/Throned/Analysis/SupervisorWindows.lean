import Mathlib.Data.List.Basic
import Throned.Analysis.SupervisorRestarts

/-!
# Restarts between two starts of the core

While nobody asks for a restart, each one that the timer does is paid for by an exit: by one
that the counts still forgive, by the one of a missing guard identity, or by whatever ended
the core before the first restart.  After that restart every earlier generation is handled.
-/

set_option autoImplicit false

namespace Throned.Engine

namespace CoreSupervisor

variable {windows : Bool} {s : CoreSupervisor} {base : ℕ}

/-- The profiles of the `coreStarted` signals so far. -/
def starts (s : CoreSupervisor) : List Int :=
  s.signals.filterMap fun
    | .coreStarted profileId => some profileId
    | _ => none

/-- The explicit requests for a restart or for the end. -/
def Event.requests : Event → Bool
  | .shutdown => true
  | .killForExit => true
  | .resetCore => true
  | .restartNotListening _ => true
  | .restartForGuard => true
  | .killForPrivilegeChange => true
  | _ => false

/-- A step carries out an earlier request: it marks an exit as expected, or restarts a dead
core. -/
def carriesOut (s : CoreSupervisor) : Event → Bool
  | .deadCorePosted => true
  | .runNext => s.cores.head? = some .resetKill || s.cores.head? = some .privilegeKill
  | _ => false

/-- No request is made or carried out, and no `coreStarted` is sent. -/
structure Calm (windows : Bool) (s : CoreSupervisor) (ev : Event) : Prop where
  asked : ev.requests = false
  marked : s.carriesOut ev = false
  started : (s.step windows ev).starts = s.starts

/-- The restart that the backoff is waiting for. -/
def pending (s : CoreSupervisor) : ℕ := if s.state = .Backoff then 1 else 0

/-- What the exits have paid for. -/
def paid (s : CoreSupervisor) : ℕ :=
  min s.startFailures (kGiveUpAfter - 1) + if s.identityUnsupported = true then 1 else 0

/-- The restarts since a count. -/
def Bounded (base : ℕ) (s : CoreSupervisor) : Prop :=
  s.restartCount = base ∨
    (s.expectedExitGen ≤ s.handledExitGen ∧
      (s.probing = true ∨ s.acceptedGen ≤ s.handledExitGen) ∧
      s.restartCount + s.pending ≤ base + 1 + s.paid)

theorem Bounded.restartCount_le (h : s.Bounded base) : s.restartCount ≤ base + kGiveUpAfter + 1 := by
  rcases h with heq | ⟨-, -, hle⟩
  · rw [heq]
    exact (Nat.le_add_right _ _).trans (Nat.le_add_right _ _)
  · have hpaid : s.paid ≤ kGiveUpAfter := by
      unfold paid kGiveUpAfter
      split
      · omega
      · omega
    omega

/-- The restart that the timer does. -/
theorem bounded_postRestart (hgens : s.gens.Behind) (h : s.Bounded base) :
    s.postRestart.Bounded base := by
  unfold postRestart
  split
  · exact h
  · rename_i hgo
    push Not at hgo
    have hafter : (s.setState .Starting).postProcessRestart.Bounded base ↔
        s.restartCount + 1 = base ∨
          (s.expectedExitGen ≤ max s.handledExitGen s.generation ∧
            (s.probing = true ∨ s.acceptedGen ≤ max s.handledExitGen s.generation) ∧
            s.restartCount + 1 ≤ base + 1 + s.paid) := by
      unfold Bounded postProcessRestart post pending paid
      rw [setState_eq]
      simp
    rw [hafter]
    refine Or.inr ⟨hgens.expected.trans (le_max_right _ _),
      Or.inr (hgens.accepted.trans (le_max_right _ _)), ?_⟩
    rcases h with heq | ⟨-, -, hle⟩
    · omega
    · rw [pending, if_pos hgo.1] at hle
      exact hle

/-! ## Exits -/

theorem resumeAfter_false (s : CoreSupervisor) :
    s.resumeAfter false =
      { s with startWhenUp := if s.startWhenUp < 0 then s.started_id else s.startWhenUp } := by
  simp only [resumeAfter, Bool.false_eq_true, if_false, Bool.false_and, false_or, false_and]
  split
  · rfl
  · rfl

theorem restartCount_scheduleRestart (delayMs : ℕ) :
    (s.scheduleRestart delayMs).restartCount = s.restartCount := by
  unfold scheduleRestart
  rw [setState_eq]

theorem restartCount_resumeAfter (connected : Bool) :
    (s.resumeAfter connected).restartCount = s.restartCount := by
  unfold resumeAfter
  cases connected with
  | false =>
    simp only [Bool.false_eq_true, if_false, Bool.false_and, false_or, false_and]
    split
    · rfl
    · rfl
  | true =>
    simp only [if_true, true_or]
    split
    · rfl
    · rfl

theorem restartCount_actOnExit (gen : ℕ) (failedToStart : Bool) (exitCode : Int) :
    (s.actOnExit gen failedToStart exitCode).restartCount = s.restartCount := by
  unfold actOnExit
  simp only
  split
  · rfl
  · split
    · exact restartCount_scheduleRestart _
    · split
      · exact restartCount_scheduleRestart _
      · unfold onUnexpectedExit
        simp only
        split
        · unfold giveUp emit
          rw [setState_eq]
          exact restartCount_resumeAfter _
        · rw [restartCount_scheduleRestart]
          exact restartCount_resumeAfter _

theorem onUnexpectedExit_false (s : CoreSupervisor) :
    ∃ failures waiting signals, s.onUnexpectedExit false =
      if CoreSupervisor.givesUp { s with
          failures := failures, startFailures := s.startFailures + 1, startWhenUp := waiting,
          signals := signals } false = true then
        CoreSupervisor.giveUp { s with
          failures := failures, startFailures := s.startFailures + 1, startWhenUp := waiting,
          signals := signals }
      else
        CoreSupervisor.scheduleRestart { s with
          failures := failures, startFailures := s.startFailures + 1, startWhenUp := waiting,
          signals := signals } (backoffMs failures) := by
  unfold onUnexpectedExit
  rw [resumeAfter_false]
  exact ⟨_, _, _, rfl⟩

/-- An exit of a core that never connected is paid for by its count, or ends the restarts. -/
theorem bounded_onUnexpectedExit
    (h : s.expectedExitGen ≤ s.handledExitGen ∧
      (s.probing = true ∨ s.acceptedGen ≤ s.handledExitGen) ∧
      s.restartCount ≤ base + 1 + s.paid) :
    (s.onUnexpectedExit false).Bounded base := by
  obtain ⟨hexpected, haccepted, hle⟩ := h
  obtain ⟨failures, waiting, signals, hshape⟩ := onUnexpectedExit_false s
  rw [hshape]
  refine Or.inr ?_
  split
  · unfold giveUp emit
    simp only [setState_eq]
    refine ⟨hexpected, haccepted, ?_⟩
    unfold paid at hle ⊢
    simp only [pending, reduceCtorEq, if_false, Nat.add_zero]
    omega
  · rename_i hup
    have hfew : s.startFailures + 1 < kGiveUpAfter := by
      simp only [givesUp, Bool.or_eq_true, Bool.not_false, Bool.true_and, decide_eq_true_eq] at hup
      push Not at hup
      exact hup.2
    unfold scheduleRestart
    simp only [setState_eq]
    refine ⟨hexpected, haccepted, ?_⟩
    unfold paid kGiveUpAfter at *
    simp only [pending, if_true]
    omega

/-- **An exit that is acted on.** -/
theorem bounded_actOnExit (h : s.Bounded base) {gen : ℕ} (hgen : s.handledExitGen < gen)
    (failedToStart : Bool) (exitCode : Int) :
    (s.actOnExit gen failedToStart exitCode).Bounded base := by
  rcases h with heq | ⟨hexpected, haccepted, hle⟩
  · exact Or.inl ((restartCount_actOnExit gen failedToStart exitCode).trans heq)
  · have hconnected : s.wasConnected gen failedToStart = false := by
      rw [wasConnected]
      rcases haccepted with hprobing | hhandled
      · simp [hprobing]
      · have hne : gen ≠ s.acceptedGen := by omega
        simp [hne]
    have haccepted' : (s.probing && !(s.probing && decide (gen = s.acceptedGen))) = true ∨
        s.acceptedGen ≤ gen := by
      by_cases heq : gen = s.acceptedGen
      · exact Or.inr heq.ge
      · refine haccepted.imp (fun hprobing => ?_) fun hhandled => hhandled.trans hgen.le
        simp [hprobing, heq]
    have hlast : s.restartCount ≤ base + 1 + s.paid := (Nat.le_add_right _ _).trans hle
    unfold actOnExit
    simp only [hconnected]
    split
    · exact Or.inr ⟨hexpected.trans hgen.le, haccepted', hle⟩
    · split
      · rename_i hmark
        exact absurd hmark (Nat.ne_of_lt (hexpected.trans_lt hgen))
      · split
        · rename_i hidentity
          refine Or.inr ?_
          unfold scheduleRestart
          simp only [setState_eq]
          refine ⟨hexpected.trans hgen.le, haccepted', ?_⟩
          simp only [paid, hidentity.2.2, Bool.false_eq_true, if_false] at hlast
          simp only [pending, paid, if_true]
          omega
        · exact bounded_onUnexpectedExit ⟨hexpected.trans hgen.le, haccepted', hlast⟩

/-! ## Every calm step -/

theorem starts_emit (signal : Signal) : (s.emit signal).starts =
    s.starts ++ [signal].filterMap fun
      | .coreStarted profileId => some profileId
      | _ => none := by
  unfold starts emit
  rw [List.filterMap_append]

theorem starts_setState (state : CoreState) : (s.setState state).starts = s.starts := by
  unfold setState
  split
  · rfl
  · rw [starts_emit]
    exact List.append_nil _

theorem starts_emitCoreStarted : s.emitCoreStarted.starts = s.starts ++ [s.startWhenUp] := by
  unfold emitCoreStarted
  rw [starts_emit]
  rfl

theorem starts_emitCoreStarted_ne {t : CoreSupervisor} (h : t.starts = s.starts) :
    t.emitCoreStarted.starts ≠ s.starts := by
  rw [starts_emitCoreStarted, h]
  intro heq
  have hlength := congrArg List.length heq
  rw [List.length_append, List.length_singleton] at hlength
  omega

/-- An accepted connection starts the probe, or the core. -/
theorem bounded_onNewConnection (h : s.Bounded base) (peer : Option ℕ)
    (hstarts : (s.onNewConnection windows peer).starts = s.starts) :
    (s.onNewConnection windows peer).Bounded base := by
  revert hstarts
  unfold onNewConnection
  simp only
  split
  · exact fun _ => h
  · split
    · exact fun _ => h
    · split
      · exact fun _ => h
      · cases windows with
        | true =>
          intro hstarts
          refine absurd hstarts (starts_emitCoreStarted_ne ?_)
          rw [starts_setState]
          have hsignal : (s.emit .rpcConnected).starts = s.starts := by
            rw [starts_emit]
            exact List.append_nil _
          refine Eq.trans ?_ hsignal
          split
          · rfl
          · rfl
        | false =>
          intro _
          have hkeep : ∀ (accepted : ℕ) (since : Option ℕ) (signals : List Signal),
              Bounded base { s with
                state := .Connected, acceptedGen := accepted, connectedAt := since,
                connectTimer := none, signals := signals, probing := true } := by
            intro accepted since signals
            refine h.imp id fun hbound => ⟨hbound.1, Or.inl rfl, ?_⟩
            exact (Nat.add_le_add_left (Nat.zero_le _) _).trans hbound.2.2
          simp only [setState_eq, Bool.false_eq_true, if_false]
          split
          · exact hkeep _ _ _
          · exact hkeep _ _ _

/-- **A calm step keeps the bound.** -/
theorem bounded_step {ev : Event} (hgens : s.gens.Behind) (hcalm : Calm windows s ev)
    (h : s.Bounded base) : (s.step windows ev).Bounded base := by
  obtain ⟨hasked, hmarked, hstarts⟩ := hcalm
  cases ev with
  | start id =>
    simp only [step, start]
    split
    · exact h
    · rename_i hnew
      simp only [setState_eq, post]
      refine h.imp (fun heq => ?_) fun hbound => ?_
      · split
        · exact heq
        · exact heq
      · refine ⟨?_, ?_, ?_⟩
        · split
          · exact hbound.1
          · exact hbound.1
        · split
          · exact hbound.2.1
          · exact hbound.2.1
        · have hlast : s.restartCount ≤ base + 1 + s.paid :=
            (Nat.le_add_right _ _).trans hbound.2.2
          split
          · exact hlast
          · exact hlast
  | shutdown => cases hasked
  | killForExit => cases hasked
  | resetCore => cases hasked
  | restartNotListening id => cases hasked
  | restartForGuard => cases hasked
  | killForPrivilegeChange => cases hasked
  | deadCorePosted => cases hmarked
  | setStartWhenUp id =>
    simp only [step, setStartWhenUp]
    split
    · exact h
    · exact h
  | cancelResume => exact h
  | newConnection peer => exact bounded_onNewConnection h peer hstarts
  | privilegeProbed gen ok attempt isConnected =>
    revert hstarts
    simp only [step, onPrivilegeProbed]
    split
    · exact fun _ => h
    · split
      · exact fun _ => h
      · split
        · exact fun _ => h
        · intro hstarts
          exact absurd hstarts (starts_emitCoreStarted_ne rfl)
  | coreSpawned gen =>
    simp only [step, onCoreSpawned]
    split
    · exact h
    · exact h
  | coreExited gen failedToStart exitCode =>
    simp only [step, onCoreExited]
    split
    · exact h
    · rename_i hgen
      exact bounded_actOnExit h (Nat.lt_of_not_le hgen) failedToStart exitCode
  | restartTimeout =>
    simp only [step, restartTimeout]
    split
    · exact bounded_postRestart (s := { s with restartTimer := none }) hgens h
    · exact h
  | connectTimeout =>
    simp only [step, connectTimeout, onConnectTimeout]
    split
    · split
      · exact h
      · exact h
    · exact h
  | runNext =>
    revert hmarked
    simp only [step, runNext, carriesOut]
    split
    · exact fun _ => h
    · rename_i task rest heq
      intro hmarked
      cases task with
      | start => exact h
      | restart =>
        simp only [runTask]
        split
        · exact h
        · exact h
      | resetKill => simp [heq] at hmarked
      | privilegeKill => simp [heq] at hmarked
      | killGeneration gen => exact h
      | kill => exact h
  | elapse ms => exact h
  | setStartedId id => exact h
  | prepareExit => exact h

end CoreSupervisor

end Throned.Engine

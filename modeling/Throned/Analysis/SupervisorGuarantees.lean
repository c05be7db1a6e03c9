import Throned.Analysis.SupervisorWindows

/-!
# What the core supervisor guarantees

The profile that waits for the core is delivered once or decided about; with the counters, the
shutdown, the backoff and the bound on restarts this gives what holds of every run.
-/

set_option autoImplicit false

namespace Throned.Engine

namespace CoreSupervisor

variable {windows : Bool} {s t : CoreSupervisor}

/-! ## The waiting profile -/

/-- The profiles that a `coreStarted` has delivered. -/
def delivered (s : CoreSupervisor) : List Int := s.starts.filter (0 ≤ ·)

/-- A step decides anew which profile waits: a request, or an exit after which the started
profile is resumed or nothing is. -/
def decides (s : CoreSupervisor) : Event → Bool
  | .start _ => true
  | .resetCore => true
  | .restartNotListening _ => true
  | .deadCorePosted => true
  | .setStartWhenUp _ => true
  | .cancelResume => true
  | .coreExited gen failedToStart _ =>
    s.handledExitGen < gen &&
      (s.expectedExitGen = gen || s.wasConnected gen failedToStart || s.startWhenUp < 0 ||
        kGiveUpAfter ≤ s.startFailures + 1)
  | _ => false

/-- The waiting profile still waits, or was delivered exactly once. -/
def Settles (s t : CoreSupervisor) : Prop :=
  (t.startWhenUp = s.startWhenUp ∧ t.delivered = s.delivered) ∨
    (t.startWhenUp = -1 ∧ t.delivered = s.delivered ++ [s.startWhenUp].filter (0 ≤ ·))

theorem Settles.trans {u : CoreSupervisor} (h : s.Settles t) (h' : t.Settles u) : s.Settles u := by
  rcases h with ⟨hwaits, hsame⟩ | ⟨hnone, hsent⟩
  · rcases h' with ⟨hwaits', hsame'⟩ | ⟨hnone', hsent'⟩
    · exact Or.inl ⟨hwaits'.trans hwaits, hsame'.trans hsame⟩
    · refine Or.inr ⟨hnone', ?_⟩
      rw [hsent', hsame, hwaits]
  · rcases h' with ⟨hwaits', hsame'⟩ | ⟨hnone', hsent'⟩
    · exact Or.inr ⟨hwaits'.trans hnone, hsame'.trans hsent⟩
    · refine Or.inr ⟨hnone', ?_⟩
      rw [hsent', hsent, hnone]
      exact List.append_nil _

theorem settles_of_eq (hwaits : t.startWhenUp = s.startWhenUp) (hstarts : t.starts = s.starts) :
    s.Settles t := by
  refine Or.inl ⟨hwaits, ?_⟩
  unfold delivered
  rw [hstarts]

theorem settles_self : s.Settles s := settles_of_eq rfl rfl

theorem settles_emitCoreStarted (hwaits : t.startWhenUp = s.startWhenUp)
    (hstarts : t.starts = s.starts) : s.Settles t.emitCoreStarted := by
  refine Or.inr ⟨rfl, ?_⟩
  unfold delivered
  rw [starts_emitCoreStarted, List.filter_append, hwaits, hstarts]

theorem settles_scheduleRestart (delayMs : ℕ) (h : s.Settles t) :
    s.Settles (t.scheduleRestart delayMs) := by
  have hstarts : (t.scheduleRestart delayMs).starts = t.starts := starts_setState (s := t) .Backoff
  have hwaits : (t.scheduleRestart delayMs).startWhenUp = t.startWhenUp := by
    unfold scheduleRestart
    rw [setState_eq]
  exact h.trans (settles_of_eq hwaits hstarts)

theorem settles_beginRestart : s.Settles s.beginRestart := by
  unfold beginRestart
  refine settles_of_eq ?_ (starts_setState _)
  rw [setState_eq]

/-- An exit of a core that never connected leaves the waiting profile to the next core. -/
theorem settles_onUnexpectedExit (hwaiting : ¬ s.startWhenUp < 0)
    (hfew : s.startFailures + 1 < kGiveUpAfter) : s.Settles (s.onUnexpectedExit false) := by
  have hgo : (((s.countFailure false).resumeAfter false).emit (.coreExited false)).givesUp false =
      false := by
    rw [resumeAfter_false]
    simp only [countFailure, givesUp, emit, hwaiting, if_false, Bool.not_false, Bool.true_and,
      Bool.or_eq_false_iff, Bool.false_eq_true, decide_false, Bool.and_false, decide_eq_false_iff_not,
      true_and]
    omega
  unfold onUnexpectedExit
  simp only [hgo, Bool.false_eq_true, if_false]
  refine settles_scheduleRestart _ (settles_of_eq ?_ ?_)
  · rw [resumeAfter_false]
    exact if_neg hwaiting
  · rw [starts_emit, resumeAfter_false]
    exact List.append_nil _

theorem settles_coreExited {gen : ℕ} {failedToStart : Bool} {exitCode : Int}
    (h : s.decides (.coreExited gen failedToStart exitCode) = false) :
    s.Settles (s.onCoreExited gen failedToStart exitCode) := by
  unfold onCoreExited
  split
  · exact settles_self
  · rename_i hgen
    simp only [decides, decide_eq_true (Nat.lt_of_not_le hgen), Bool.true_and,
      Bool.or_eq_false_iff, decide_eq_false_iff_not, not_le] at h
    obtain ⟨⟨⟨hmark, hconnected⟩, hwaiting⟩, hfew⟩ := h
    unfold actOnExit
    simp only [hconnected]
    split
    · exact settles_of_eq rfl rfl
    · split
      · exact settles_scheduleRestart _ (settles_of_eq rfl rfl)
      · exact settles_onUnexpectedExit hwaiting hfew

/-- **A step that decides nothing** keeps the waiting profile, or delivers it. -/
theorem settles_step {ev : Event} (h : s.decides ev = false) : s.Settles (s.step windows ev) := by
  cases ev with
  | start id => cases h
  | shutdown =>
    refine settles_of_eq ?_ ?_
    · simp [step, shutdown, post, setState_eq]
    · exact starts_setState (s := s) .ShuttingDown
  | killForExit =>
    refine settles_of_eq ?_ ?_
    · simp [step, killForExit, post, setState_eq]
    · exact starts_setState (s := s) .ShuttingDown
  | resetCore => cases h
  | restartNotListening id => cases h
  | restartForGuard =>
    simp only [step, restartForGuard]
    split
    · exact settles_self
    · exact settles_beginRestart.trans (settles_of_eq rfl rfl)
  | killForPrivilegeChange =>
    simp only [step, killForPrivilegeChange]
    split
    · exact settles_self
    · split
      · exact settles_of_eq rfl rfl
      · exact settles_of_eq rfl rfl
  | deadCorePosted => cases h
  | setStartWhenUp id => cases h
  | cancelResume => cases h
  | newConnection peer =>
    have hsignal : (s.emit .rpcConnected).starts = s.starts := by
      rw [starts_emit]
      exact List.append_nil _
    simp only [step, onNewConnection]
    split
    · exact settles_self
    · split
      · exact settles_self
      · split
        · exact settles_of_eq rfl hsignal
        · have hkeep : ∀ u : CoreSupervisor, u.startWhenUp = s.startWhenUp → u.starts = s.starts →
              s.Settles (if windows = true then (u.setState .Connected).emitCoreStarted
                else { u.setState .Connected with probing := true }) := by
            intro u hwaits hstarts
            have hwaits' : (u.setState .Connected).startWhenUp = s.startWhenUp := by
              rw [setState_eq]
              exact hwaits
            have hstarts' : (u.setState .Connected).starts = s.starts :=
              (starts_setState .Connected).trans hstarts
            split
            · exact settles_emitCoreStarted hwaits' hstarts'
            · exact settles_of_eq hwaits' hstarts'
          refine hkeep _ ?_ ?_
          · split
            · rfl
            · rfl
          · refine Eq.trans ?_ hsignal
            split
            · rfl
            · rfl
  | privilegeProbed gen ok attempt isConnected =>
    simp only [step, onPrivilegeProbed]
    split
    · exact settles_self
    · split
      · exact settles_self
      · split
        · exact settles_self
        · exact settles_emitCoreStarted rfl rfl
  | coreSpawned gen =>
    simp only [step, onCoreSpawned]
    split
    · exact settles_self
    · exact settles_of_eq rfl rfl
  | coreExited gen failedToStart exitCode => exact settles_coreExited h
  | restartTimeout =>
    simp only [step, restartTimeout, postRestart]
    split
    · split
      · exact settles_of_eq rfl rfl
      · refine settles_of_eq ?_ ?_
        · simp [postProcessRestart, post, setState_eq]
        · exact starts_setState (s := { s with restartTimer := none }) .Starting
    · exact settles_self
  | connectTimeout =>
    simp only [step, connectTimeout, onConnectTimeout]
    split
    · split
      · exact settles_of_eq rfl rfl
      · exact settles_of_eq rfl rfl
    · exact settles_self
  | runNext =>
    simp only [step, runNext]
    split
    · exact settles_self
    · rename_i task rest _
      obtain ⟨generation, expected, started, htask⟩ := runTask_eq { s with cores := rest } task
      rw [htask]
      exact settles_of_eq rfl rfl
  | elapse ms => exact settles_of_eq rfl rfl
  | setStartedId id => exact settles_of_eq rfl rfl
  | prepareExit => exact settles_of_eq rfl rfl

/-! ## Runs -/

/-- Every step of a run meets a condition where it is taken. -/
def Throughout (P : CoreSupervisor → Event → Prop) (windows : Bool) :
    CoreSupervisor → List Event → Prop
  | _, [] => True
  | s, ev :: later => P s ev ∧ Throughout P windows (s.step windows ev) later

instance Throughout.decidable (P : CoreSupervisor → Event → Prop) [∀ s ev, Decidable (P s ev)]
    (windows : Bool) : ∀ s later, Decidable (Throughout P windows s later)
  | _, [] => inferInstanceAs (Decidable True)
  | s, ev :: later =>
    have := Throughout.decidable P windows (s.step windows ev) later
    inferInstanceAs (Decidable (_ ∧ _))

/-- **The rule for runs.** -/
theorem run_invariant {P : CoreSupervisor → Event → Prop} {I : CoreSupervisor → Prop}
    (hstep : ∀ s ev, P s ev → I s → I (s.step windows ev)) {later : List Event} {s : CoreSupervisor}
    (hP : Throughout P windows s later) (h : I s) : I (s.run windows later) := by
  induction later generalizing s with
  | nil => exact h
  | cons ev later ih => exact ih hP.2 (hstep s ev hP.1 h)

theorem throughout_true (s : CoreSupervisor) (later : List Event) :
    Throughout (fun _ _ => True) windows s later := by
  induction later generalizing s with
  | nil => trivial
  | cons ev later ih => exact ⟨trivial, ih _⟩

/-- What holds of the counters in every state reached. -/
theorem behind_run (h : s.gens.Behind) (later : List Event) :
    (s.run windows later).gens.Behind ∧ s.gens.Le (s.run windows later).gens := by
  refine run_invariant (I := fun t => t.gens.Behind ∧ s.gens.Le t.gens) (fun t ev _ ht => ?_)
    (throughout_true s later) ⟨h, ⟨le_rfl, le_rfl, le_rfl⟩⟩
  exact ⟨ht.1.step (gens_step ev), ht.2.trans (ht.1.le (gens_step ev))⟩

theorem coreExited_of_le {gen : ℕ} (h : gen ≤ s.handledExitGen) (failedToStart : Bool)
    (exitCode : Int) : s.step windows (.coreExited gen failedToStart exitCode) = s :=
  if_pos h

theorem newConnection_of_le {gen : ℕ} (h : gen ≤ s.handledExitGen ∨ gen ≤ s.timedOutGen) :
    s.step windows (.newConnection (some gen)) = s := by
  simp only [step, onNewConnection]
  split
  · rfl
  · rename_i hgen
    push Not at hgen
    have heq : gen = s.generation := Option.some.inj hgen.2
    rw [← heq, if_pos h]

/-- A generation whose exit was reported is handled. -/
theorem le_handled_coreExited (s : CoreSupervisor) (gen : ℕ) (failedToStart : Bool)
    (exitCode : Int) :
    gen ≤ (s.step windows (.coreExited gen failedToStart exitCode)).handledExitGen := by
  simp only [step, onCoreExited]
  split
  · rename_i hgen
    exact hgen
  · have hgens := congrArg Gens.handled (gens_actOnExit (s := s) gen failedToStart exitCode)
    exact hgens.ge

/-- What holds in a state that a run has reached. -/
structure Supervised (windows : Bool) (s : CoreSupervisor) : Prop where
  exitOnce : ∀ gen failedToStart exitCode later failedToStart' exitCode',
    let t := (s.step windows (.coreExited gen failedToStart exitCode)).run windows later
    t.step windows (.coreExited gen failedToStart' exitCode') = t
  handledRefused : ∀ gen failedToStart exitCode later,
    let t := (s.step windows (.coreExited gen failedToStart exitCode)).run windows later
    t.step windows (.newConnection (some gen)) = t
  timedOutRefused : ∀ gen later, s.timesOut = some gen → s.connectTimer.any (· ≤ s.now) = true →
    let t := (s.step windows .connectTimeout).run windows later
    t.step windows (.newConnection (some gen)) = t
  shuttingDown : s.state = .ShuttingDown → ∀ later,
    (s.run windows later).state = .ShuttingDown ∧
      (s.run windows later).restartCount = s.restartCount ∧
      (s.run windows later).cores.count .restart ≤ s.cores.count .restart
  /-- A restart waits in the backoff, unless the exit is being prepared. -/
  backoff : s.Armed
  /-- What is left of the timer elsewhere restarts nothing. -/
  leftover : s.state ≠ .Backoff →
    (s.step windows .restartTimeout).restartCount = s.restartCount ∧
      (s.step windows .restartTimeout).cores = s.cores
  restarts : ∀ later, Throughout (Calm windows) windows s later →
    (s.run windows later).restartCount ≤ s.restartCount + kGiveUpAfter + 1
  delivery : ∀ later, Throughout (fun s ev => s.decides ev = false) windows s later →
    s.Settles (s.run windows later)

/-- No request is made and no `coreStarted` is sent. -/
def Unasked (windows : Bool) (s : CoreSupervisor) (ev : Event) : Prop :=
  ev.requests = false ∧ (s.step windows ev).starts = s.starts

instance (windows : Bool) (s : CoreSupervisor) (ev : Event) : Decidable (Unasked windows s ev) :=
  inferInstanceAs (Decidable (_ ∧ _))

def booted : List Event :=
  [.start (-1), .runNext, .newConnection (some 1), .privilegeProbed 1 true 0 true]

/-- Two restarts are under way; the core of the first fails, that of the second connects. -/
def overtaken : List Event :=
  booted ++ [.restartNotListening 5, .restartNotListening 5, .runNext, .coreExited 2 true (-1),
    .runNext, .newConnection (some 3)]

/-- Requests that the thread of the process has not come to. -/
def delayed : List Event :=
  booted ++ [.restartForGuard, .restartForGuard, .restartForGuard, .restartForGuard, .resetCore,
    .runNext, .newConnection (some 2), .privilegeProbed 2 true 0 true]

def failing (gen : ℕ) : List Event :=
  [.runNext, .coreExited gen true (-1), .elapse kBackoffCapMs, .restartTimeout]

/-- The mark of the reset comes to the fifth generation, and its exit resets the counts. -/
def forgiven : List Event :=
  failing 3 ++ failing 4 ++ .runNext :: failing 5 ++ failing 6 ++ failing 7 ++ failing 8 ++ failing 9

end CoreSupervisor

end Throned.Engine

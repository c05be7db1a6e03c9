import Throned.Analysis.KillSwitchSlots

/-!
# The state that the kill switch shows

What the state says about the two guards, wherever a handler lets others in.  A waiter stays in
the queue while a guard is pending or while the handler still has to settle.
-/

set_option autoImplicit false

namespace Throned.Sys.KillSwitch

open Throned.Library

/-- What the state promises, apart from what a report of an identity failure changes. -/
structure VisibleOf (shutdown : Bool) (state : State) (identityUnsupported : Bool)
    (active pending : Option ℕ) (waiters : List Waiter) (todo : List Todo) : Prop where
  armed : shutdown = false → state = .Armed → active ≠ none
  arming : shutdown = false → state = .Arming → active = none ∧ pending ≠ none
  disabled : state = .Disabled → identityUnsupported = false → active = none ∧ pending = none
  queued : shutdown = false → waiters ≠ [] → pending ≠ none ∨ .settle ∈ todo

def Visible (s : KillSwitch) : Prop :=
  VisibleOf s.shutdown s.state s.identityUnsupported s.active s.pending s.waiters s.todo

/-- An armed switch knows of no identity failure. -/
def Identified (s : KillSwitch) : Prop :=
  s.shutdown = false → s.state = .Armed → s.identityUnsupported = false

structure Shown (s : KillSwitch) : Prop where
  visible : Visible s
  identified : Identified s

theorem Visible.push {s : KillSwitch} (h : Visible s) (t : Todo) : Visible (push t s) where
  armed := h.armed
  arming := h.arming
  disabled := h.disabled
  queued hrunning hwaiters := (h.queued hrunning hwaiters).imp_right (List.mem_cons_of_mem t)

/-! ## Parts of the handlers -/

theorem mem_todo_setState (state : State) (s : KillSwitch) :
    .settle ∈ (setState state (push .settle s)).todo := by
  unfold setState push
  simp only
  split
  · exact List.mem_cons_self
  · exact List.mem_cons_of_mem _ List.mem_cons_self

/-- A state that is shown and then settled, with what it promises. -/
theorem shown_setState {s : KillSwitch} {state : State}
    (harmed : state = .Armed → s.active ≠ none ∧ s.identityUnsupported = false)
    (harming : state = .Arming → s.active = none ∧ s.pending ≠ none)
    (hdisabled : state = .Disabled → s.active = none ∧ s.pending = none) :
    Shown (setState state (push .settle s)) where
  visible :=
    { armed := fun _ hstate => (harmed hstate).1
      arming := fun _ hstate => harming hstate
      disabled := fun hstate _ => hdisabled hstate
      queued := fun _ _ => .inr (mem_todo_setState state s) }
  identified _ hstate := (harmed hstate).2

theorem shown_fail (code message : Text) (s : KillSwitch) : Shown (fail code message s) :=
  shown_setState nofun nofun nofun

theorem shown_settleFailed {s : KillSwitch} (h : s.state = .Failed) : Shown (push .settle s) where
  visible :=
    { armed := fun _ hstate => State.noConfusion (h.symm.trans hstate)
      arming := fun _ hstate => State.noConfusion (h.symm.trans hstate)
      disabled := fun hstate => State.noConfusion (h.symm.trans hstate)
      queued := fun _ _ => .inr List.mem_cons_self }
  identified _ hstate := State.noConfusion (h.symm.trans hstate)

theorem shown_failIdentity (s : KillSwitch) : Shown (failIdentity s) := by
  unfold failIdentity
  simp only
  split
  · exact shown_setState nofun nofun nofun
  · rename_i hnot
    exact shown_settleFailed (of_not_not (not_or.mp hnot).1)

/-- A new guard shows `Arming` where none is active, the identity failure apart. -/
theorem shown_spawn {s : KillSwitch} (hidentified : Identified s)
    (harming : s.shutdown = false → s.state = .Arming → s.active = none)
    (hdisabled : s.state = .Disabled → s.identityUnsupported = false → s.active = none)
    (config : GuardConfig) : Shown (spawn config s) := by
  unfold spawn
  simp only
  split
  · rename_i hnone
    constructor
    · constructor
      · exact nofun
      · exact fun _ _ => ⟨hnone.1, nofun⟩
      · exact nofun
      · exact fun _ _ => .inl nofun
    · exact nofun
  · rename_i hsome
    -- The state stays: a guard is active, or the identity failure keeps it.
    have hkept : s.active = none → s.identityUnsupported = true := by
      intro hactive
      by_contra hidentity
      rw [Bool.not_eq_true] at hidentity
      exact hsome ⟨hactive, congrArg (! ·) hidentity⟩
    constructor
    · constructor
      · intro hrunning hstate hactive
        have hidentity := hkept hactive
        rw [hidentified hrunning hstate] at hidentity
        cases hidentity
      · exact fun hrunning hstate => ⟨harming hrunning hstate, nofun⟩
      · intro hstate hidentity
        have hset := hkept (hdisabled hstate hidentity)
        rw [show s.identityUnsupported = false from hidentity] at hset
        cases hset
      · exact fun _ _ => .inl nofun
    · exact hidentified

/-! ## Handlers -/

theorem Shown.applyRest {s : KillSwitch} (h : Shown s) (host : Host) :
    Shown (applyRest host s) := by
  unfold KillSwitch.applyRest
  simp only
  split
  · exact h
  · split
    · rename_i hactive
      have hsome : s.active ≠ none := by
        intro hnone
        rw [hnone] at hactive
        cases hactive
      split
      · constructor
        · constructor
          · exact fun _ _ => hsome
          · exact fun hrunning hstate => absurd (h.visible.arming hrunning hstate).1 hsome
          · exact fun hstate hidentity =>
              absurd (h.visible.disabled hstate hidentity).1 hsome
          · exact fun _ _ => .inr List.mem_cons_self
        · exact h.identified
      · exact h
    · exact shown_spawn h.identified (fun hrunning hstate => (h.visible.arming hrunning hstate).1)
        (fun hstate hidentity => (h.visible.disabled hstate hidentity).1) _

theorem shown_applyOff {s : KillSwitch} (hrunning : s.shutdown = false)
    (hoff : s.settings.kill_switch = false) (host : Host) : Shown (apply host s) := by
  unfold apply
  rw [if_neg (by rw [hrunning]; exact Bool.false_ne_true), if_pos (by rw [hoff]; rfl)]
  exact shown_setState nofun nofun fun _ => ⟨rfl, rfl⟩

/-- `apply` is what reports an identity failure that the state does not show yet. -/
theorem Visible.apply {s : KillSwitch} (h : Visible s)
    (hshutdown : s.shutdown = true → Identified s) (host : Host) : Shown (apply host s) := by
  unfold KillSwitch.apply
  split
  · rename_i hended
    exact ⟨h, hshutdown hended⟩
  · split
    · exact shown_setState nofun nofun fun _ => ⟨rfl, rfl⟩
    · split
      · simp only
        split
        · rename_i hfailed
          exact shown_settleFailed hfailed.1
        · exact shown_fail _ _ _
      · split
        · exact shown_failIdentity _
        · rename_i hnot
          refine Shown.applyRest ⟨h, fun _ hstate => ?_⟩ host
          exact eq_false_of_ne_true fun hidentity => hnot ⟨hidentity, hstate⟩

theorem Shown.apply {s : KillSwitch} (h : Shown s) (host : Host) : Shown (apply host s) :=
  h.visible.apply (fun _ => h.identified) host

theorem Shown.noteIdentityUnsupported {s : KillSwitch} (h : Shown s) (host : Host)
    (detail : Text) : Shown (noteIdentityUnsupported host detail s) := by
  refine Visible.apply (s := { s with identityDetail := detail, identityUnsupported := true })
    ⟨h.visible.armed, h.visible.arming, nofun, h.visible.queued⟩ ?_ host
  exact fun hended hrunning => Bool.noConfusion (hended.symm.trans hrunning)

theorem Shown.apiPortChanged {s : KillSwitch} (h : Shown s) (host : Host) :
    Shown (apiPortChanged host s) := by
  unfold KillSwitch.apiPortChanged
  split
  · exact h
  · split
    · exact h
    · exact h.apply host

theorem Shown.respawnTimeout {s : KillSwitch} (h : Shown s) (host : Host) :
    Shown (respawnTimeout host s) := by
  unfold KillSwitch.respawnTimeout
  split
  · exact h
  · split
    · exact h
    · exact h.apply host

/-- The pending guard is gone: its waiters are settled, and without an active guard it failed. -/
theorem Shown.armFailed {s before : KillSwitch} (h : Shown before)
    (hstate : s.state = before.state) (hshutdown : s.shutdown = before.shutdown)
    (hidentity : s.identityUnsupported = before.identityUnsupported)
    (hactive : s.active = before.active) (code message : Text) :
    Shown (armFailed code message s) := by
  unfold KillSwitch.armFailed
  split
  · rename_i hsome
    rw [hactive] at hsome
    constructor
    · constructor
      · exact fun _ _ hnone => hsome (hactive ▸ hnone)
      · intro hrunning hnow
        exact absurd (h.visible.arming (hshutdown ▸ hrunning) (hstate ▸ hnow)).1 hsome
      · intro hnow hnone
        exact absurd (h.visible.disabled (hstate ▸ hnow) (hidentity ▸ hnone)).1 hsome
      · exact fun _ _ => .inr List.mem_cons_self
    · intro hrunning hnow
      exact hidentity ▸ h.identified (hshutdown ▸ hrunning) (hstate ▸ hnow)
  · exact shown_fail _ _ _

/-- The active guard is gone. -/
theorem Shown.protectionLost {s before : KillSwitch} (h : Shown before)
    (hlost : before.active ≠ none) (hstate : s.state = before.state)
    (hidentity : s.identityUnsupported = before.identityUnsupported)
    (hactive : s.active = none) (hrunning : s.shutdown = before.shutdown) (host : Host)
    (code message : Text) :
    Shown (protectionLost host code message s) := by
  have harmed (hnow : s.shutdown = false) : s.state = .Armed → s.identityUnsupported = false := by
    rw [hidentity, hstate]
    exact h.identified (hrunning ▸ hnow)
  have harming (hnow : s.shutdown = false) : s.state ≠ .Arming := by
    rw [hstate]
    exact fun heq => hlost (h.visible.arming (hrunning ▸ hnow) heq).1
  have hdisabled : s.state = .Disabled → s.identityUnsupported = true := by
    rw [hidentity, hstate]
    intro heq
    by_contra hno
    exact hlost (h.visible.disabled heq (eq_false_of_ne_true hno)).1
  unfold KillSwitch.protectionLost
  split
  · rename_i hended
    have hclosed : s.shutdown ≠ false := ne_false_of_eq_true hended
    constructor
    · constructor
      · exact fun hnow => absurd hnow hclosed
      · exact fun hnow => absurd hnow hclosed
      · intro hnow hclear
        rw [hdisabled hnow] at hclear
        cases hclear
      · exact fun hnow => absurd hnow hclosed
    · exact fun hnow => absurd hnow hclosed
  · rename_i hopen
    have hopen := eq_false_of_ne_true hopen
    split
    · rename_i hoff
      exact shown_applyOff hopen (by simpa using hoff) host
    · split
      · rename_i hpending
        split
        · rename_i hset
          constructor
          · constructor
            · intro _ hnow
              have hclear := harmed hopen hnow
              rw [hset] at hclear
              cases hclear
            · exact fun _ hnow => absurd hnow (harming hopen)
            · intro hnow hclear
              have hclear : s.identityUnsupported = false := hclear
              rw [hset] at hclear
              cases hclear
            · exact fun _ _ => .inr List.mem_cons_self
          · intro _ hnow
            exact harmed hopen hnow
        · exact shown_setState nofun (fun _ => ⟨hactive, hpending⟩) nofun
      · split
        · exact shown_spawn (s := { s with lastRespawn := some s.now }) harmed
            (fun _ _ => hactive) (fun _ _ => hactive) _
        · exact shown_fail _ _ _

/-- The loss of a guard, with the guards as it leaves them. -/
theorem Shown.lost {s : KillSwitch} (h : Shown s) (host : Host) (guard : ℕ)
    (guards : ℕ → GuardProcess) (code activeMessage pendingMessage : Text) :
    Shown (lost host guard code activeMessage pendingMessage s
      { forget guard s with guards := guards }) := by
  unfold KillSwitch.lost
  split
  · rename_i hactive
    have hsome : s.active ≠ none := by
      rw [hactive]
      exact nofun
    apply h.protectionLost hsome
    · rfl
    · rfl
    · exact if_pos hactive
    · rfl
  · rename_i hactive
    split
    · apply h.armFailed
      · rfl
      · rfl
      · rfl
      · exact if_neg hactive
    · rename_i hpending
      unfold forget
      simp only [if_neg hactive, if_neg hpending]
      exact ⟨h.visible, h.identified⟩

theorem Shown.onReady {s : KillSwitch} (h : Shown s) (guard : ℕ) : Shown (onReady guard s) := by
  unfold KillSwitch.onReady
  split
  · exact h
  · simp only
    split
    · exact shown_failIdentity _
    · rename_i hidentity
      exact shown_setState (fun _ => ⟨nofun, eq_false_of_ne_true hidentity⟩) nofun nofun

theorem Shown.handleLine {s : KillSwitch} (h : Shown s) (host : Host) (guard : ℕ) (line : Text) :
    Shown (handleLine host guard line s) := by
  unfold KillSwitch.handleLine
  simp only
  split
  · exact h
  · split
    · exact h.onReady guard
    · split
      · exact h
      · split
        · exact h
        · exact h.lost host guard _ _ _ _

theorem Shown.onReadyTimeout {s : KillSwitch} (h : Shown s) (guard : ℕ) :
    Shown (onReadyTimeout guard s) := by
  unfold KillSwitch.onReadyTimeout
  split
  · exact h
  · apply h.armFailed <;> rfl

theorem Shown.onStartFailed {s : KillSwitch} (h : Shown s) (guard : ℕ)
    (program errorString : Text) : Shown (onStartFailed guard program errorString s) := by
  unfold KillSwitch.onStartFailed
  simp only
  split
  · apply h.armFailed <;> rfl
  · exact ⟨h.visible, h.identified⟩

theorem Shown.onFinished {s : KillSwitch} (h : Shown s) (host : Host) (guard : ℕ)
    (exitCode : ℤ) (crashed : Bool) : Shown (onFinished host guard exitCode crashed s) := by
  unfold KillSwitch.onFinished
  simp only
  split
  · exact ⟨h.visible, h.identified⟩
  · exact h.lost host guard _ _ _ _

theorem Shown.call {s : KillSwitch} (h : Shown s) (waiter : Waiter) : Shown (call waiter s) :=
  ⟨h.visible.push .others, h.identified⟩

/-- A waiter joins the queue where a guard is pending. -/
theorem Shown.enqueue {s : KillSwitch} (h : Shown s) {waiter : Waiter}
    (hwaits : s.shutdown = false → s.pending ≠ none) :
    Shown { s with waiters := s.waiters ++ [waiter] } where
  visible :=
    { armed := h.visible.armed
      arming := h.visible.arming
      disabled := h.visible.disabled
      queued := fun hrunning _ => .inl (hwaits hrunning) }
  identified := h.identified

theorem Shown.whenSettled {s : KillSwitch} (h : Shown s) (context : Option ℕ) :
    Shown (whenSettled context s) := by
  unfold KillSwitch.whenSettled
  simp only
  split
  · exact Shown.call (s := { s with registered := s.registered + 1 }) ⟨h.visible, h.identified⟩ _
  · rename_i harming
    refine Shown.enqueue (s := { s with registered := s.registered + 1 })
      ⟨h.visible, h.identified⟩ fun hrunning => ?_
    exact (h.visible.arming hrunning (of_not_not harming)).2

theorem Shown.whenIdle {s : KillSwitch} (h : Shown s) : Shown (whenIdle s) := by
  unfold KillSwitch.whenIdle
  simp only
  split
  · exact Shown.call (s := { s with registered := s.registered + 1 }) ⟨h.visible, h.identified⟩ _
  · rename_i hpending
    exact Shown.enqueue (s := { s with registered := s.registered + 1 })
      ⟨h.visible, h.identified⟩ fun _ => hpending

theorem Shown.settleRest {s : KillSwitch} (h : Shown s) (waiting : List Waiter) :
    Shown (settleRest waiting s) := by
  unfold KillSwitch.settleRest
  split
  · exact h
  · rename_i waiter waiting
    split
    · rename_i hwaits
      have hpending : s.shutdown = false → s.pending ≠ none := by
        intro hrunning
        unfold waits at hwaits
        split at hwaits
        · exact of_decide_eq_true hwaits
        · exact (h.visible.arming hrunning (of_decide_eq_true hwaits)).2
      have hqueued : Shown { s with waiters := s.waiters ++ [waiter] } := h.enqueue hpending
      exact ⟨hqueued.visible.push _, hqueued.identified⟩
    · split
      · exact ⟨h.visible.push _, h.identified⟩
      · exact Shown.call (s := push (.settleRest waiting) s) ⟨h.visible.push _, h.identified⟩ _

theorem Shown.shutdownAll {s : KillSwitch} (h : Shown s) : Shown (shutdownAll s) := by
  unfold KillSwitch.shutdownAll
  split
  · exact h
  · constructor
    · constructor
      · exact nofun
      · exact nofun
      · exact fun _ _ => ⟨rfl, rfl⟩
      · exact nofun
    · exact nofun

end Throned.Sys.KillSwitch

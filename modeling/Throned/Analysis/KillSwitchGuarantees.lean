import Throned.Analysis.KillSwitchStates
import Mathlib.Data.List.Perm.Basic

/-!
# What the kill switch guarantees

The callbacks are counted over all places where a waiter can be.  An active guard is only given
up where a guard reports; with that, and with what the states show, every run is covered.
-/

set_option autoImplicit false

namespace Throned.Sys.KillSwitch

open Throned.Library

/-! ## Callbacks -/

def Todo.waiting : Todo → List ℕ
  | .settleRest waiting => waiting.map Waiter.id
  | _ => []

/-- The waiters that were called, that are queued and that are being settled. -/
def places (called : List (ℕ × Bool)) (waiters : List Waiter) (todo : List Todo) : List ℕ :=
  called.map Prod.fst ++ (waiters.map Waiter.id ++ todo.flatMap Todo.waiting)

structure OnceOf (places : List ℕ) (registered : ℕ) : Prop where
  nodup : places.Nodup
  below : ∀ id ∈ places, id < registered

/-- Every waiter is at one place. -/
def Once (s : KillSwitch) : Prop := OnceOf (places s.called s.waiters s.todo) s.registered

theorem OnceOf.sublist {before after : List ℕ} {registered : ℕ} (h : OnceOf before registered)
    (hsub : after.Sublist before) : OnceOf after registered :=
  ⟨h.nodup.sublist hsub, fun id hid => h.below id (hsub.subset hid)⟩

theorem OnceOf.perm {before after : List ℕ} {registered : ℕ} (h : OnceOf before registered)
    (hperm : before.Perm after) : OnceOf after registered :=
  ⟨hperm.nodup_iff.mp h.nodup, fun id hid => h.below id (hperm.mem_iff.mpr hid)⟩

theorem OnceOf.register {ids : List ℕ} {registered : ℕ} (h : OnceOf ids registered) :
    OnceOf (registered :: ids) (registered + 1) := by
  constructor
  · exact List.nodup_cons.mpr ⟨fun hid => lt_irrefl _ (h.below _ hid), h.nodup⟩
  · intro id hid
    rcases List.mem_cons.mp hid with heq | hid
    · rw [heq]
      exact Nat.lt_succ_self _
    · exact Nat.lt_succ_of_lt (h.below id hid)

theorem Once.setState {s : KillSwitch} (h : Once s) (state : State) : Once (setState state s) := by
  unfold KillSwitch.setState Once
  simp only
  split
  · exact h
  · exact h

theorem Once.fail {s : KillSwitch} (h : Once s) (code message : Text) :
    Once (fail code message s) := by
  apply Once.setState
  exact h

theorem Once.failIdentity {s : KillSwitch} (h : Once s) : Once (failIdentity s) := by
  unfold KillSwitch.failIdentity
  simp only
  split
  · apply Once.setState
    exact h
  · exact h

theorem Once.spawn {s : KillSwitch} (h : Once s) (config : GuardConfig) :
    Once (spawn config s) := by
  unfold KillSwitch.spawn
  simp only
  split
  · apply Once.setState
    exact h
  · exact h

theorem Once.applyRest {s : KillSwitch} (h : Once s) (host : Host) : Once (applyRest host s) := by
  unfold KillSwitch.applyRest
  simp only
  split
  · exact h
  · split
    · split <;> exact h
    · exact h.spawn _

theorem Once.apply {s : KillSwitch} (h : Once s) (host : Host) : Once (apply host s) := by
  unfold KillSwitch.apply
  split
  · exact h
  · split
    · apply Once.setState
      exact h
    · split
      · simp only
        split
        · exact h
        · apply Once.fail
          exact h
      · split
        · apply Once.failIdentity
          exact h
        · exact h.applyRest host

theorem Once.armFailed {s : KillSwitch} (h : Once s) (code message : Text) :
    Once (armFailed code message s) := by
  unfold KillSwitch.armFailed
  split
  · exact h
  · exact h.fail _ _

theorem Once.lost {s : KillSwitch} (h : Once s) (host : Host) (guard : ℕ)
    (code activeMessage pendingMessage : Text) (before : KillSwitch) :
    Once (lost host guard code activeMessage pendingMessage before s) := by
  unfold KillSwitch.lost
  split
  · unfold protectionLost
    split
    · exact h
    · split
      · exact h.apply host
      · split
        · split
          · exact h
          · apply Once.setState
            exact h
        · split
          · apply Once.spawn
            exact h
          · exact h.fail _ _
  · split
    · exact h.armFailed _ _
    · exact h

theorem Once.handleLine {s : KillSwitch} (h : Once s) (host : Host) (guard : ℕ) (line : Text) :
    Once (handleLine host guard line s) := by
  unfold KillSwitch.handleLine
  simp only
  split
  · exact h
  · split
    · unfold onReady
      split
      · exact h
      · simp only
        split
        · apply Once.failIdentity
          exact h
        · apply Once.setState
          exact h
    · split
      · exact h
      · split
        · exact h
        · apply Once.lost
          exact h

theorem Once.onFinished {s : KillSwitch} (h : Once s) (host : Host) (guard : ℕ)
    (exitCode : ℤ) (crashed : Bool) : Once (onFinished host guard exitCode crashed s) := by
  unfold KillSwitch.onFinished
  simp only
  split
  · exact h
  · apply Once.lost
    exact h

/-- The callback of a waiter that stood at no other place. -/
theorem Once.call {s : KillSwitch} {waiter : Waiter}
    (h : OnceOf (waiter.id :: places s.called s.waiters s.todo) s.registered) :
    Once (call waiter s) := by
  refine h.perm ?_
  unfold places
  simp only [KillSwitch.call, push, List.map_append, List.append_assoc]
  exact List.perm_middle.symm

/-- A new waiter, called or queued. -/
theorem Once.whenCalled {s : KillSwitch} (h : Once s) (c : Prop) [Decidable c]
    (context : Option ℕ) (idle : Bool) :
    Once (if c then KillSwitch.call ⟨s.registered, context, idle⟩ { s with registered := s.registered + 1 }
      else
        { s with
          registered := s.registered + 1
          waiters := s.waiters ++ [⟨s.registered, context, idle⟩] }) := by
  have hnew := OnceOf.register h
  split
  · apply Once.call
    exact hnew
  · refine hnew.perm ?_
    unfold places
    simp only [List.map_append, List.append_assoc]
    rw [← List.append_assoc, ← List.append_assoc]
    exact List.perm_middle.symm

theorem Once.settleRest {s : KillSwitch} {waiting : List Waiter}
    (h : Once (push (.settleRest waiting) s)) : Once (settleRest waiting s) := by
  unfold KillSwitch.settleRest
  split
  · exact h
  · rename_i waiter waiting
    split
    · refine OnceOf.perm h (List.Perm.of_eq ?_)
      simp [places, push, Todo.waiting]
    · split
      · refine OnceOf.sublist h ?_
        simp only [places, push, List.flatMap_cons, Todo.waiting, List.map_cons]
        exact (List.Sublist.refl _).append ((List.Sublist.refl _).append
          (List.sublist_cons_self _ _))
      · refine Once.call (OnceOf.perm h ?_)
        simp only [places, push, List.flatMap_cons, Todo.waiting, List.map_cons,
          List.cons_append]
        rw [← List.append_assoc, ← List.append_assoc]
        exact List.perm_middle

theorem Once.shutdownAll {s : KillSwitch} (h : Once s) : Once (shutdownAll s) := by
  unfold KillSwitch.shutdownAll
  split
  · exact h
  · refine OnceOf.sublist h ?_
    exact (List.Sublist.refl _).append (List.sublist_append_right _ _)

/-! ## The active guard -/

inductive Report where
  | ready
  | failed
  | ended
  deriving DecidableEq, Repr

def lineReport (line : Text) : Option Report :=
  if firstWord line = verbReady then some .ready
  else if firstWord line = verbError ∨ firstWord line = verbFail then some .failed
  else none

/-- What a guard reports with this. -/
def report : Todo → Option (ℕ × Report)
  | .op (.readOutput guard line) => (lineReport line).map (guard, ·)
  | .line guard line => (lineReport line).map (guard, ·)
  | .exited guard _ _ => some (guard, .ended)
  | _ => none

/-- The guard reports its failure or its end, or another reports that it is ready. -/
def ReportsAgainst (guard : ℕ) (pending : Option ℕ) (t : Todo) : Prop :=
  report t = some (guard, .failed) ∨ report t = some (guard, .ended) ∨
    ∃ other, other ≠ guard ∧ pending = some other ∧ report t = some (other, .ready)

theorem active_spawn (config : GuardConfig) (s : KillSwitch) :
    (spawn config s).active = s.active := by
  unfold spawn
  simp only
  split <;> rfl

theorem active_failIdentity (s : KillSwitch) : (failIdentity s).active = s.active := by
  unfold failIdentity
  simp only
  split <;> rfl

theorem active_applyRest (host : Host) (s : KillSwitch) :
    (applyRest host s).active = s.active := by
  unfold applyRest
  simp only
  split
  · rfl
  · split
    · split <;> rfl
    · exact active_spawn _ s

theorem active_apply {s : KillSwitch} (hon : s.settings.kill_switch = true)
    (hoverridden : s.overridden = false) (host : Host) : (apply host s).active = s.active := by
  unfold apply
  split
  · rfl
  · rw [if_neg (by rw [hon]; exact Bool.false_ne_true),
      if_neg (by rw [hoverridden]; exact Bool.false_ne_true)]
    split
    · exact active_failIdentity _
    · exact active_applyRest host s

theorem active_armFailed (code message : Text) (s : KillSwitch) :
    (armFailed code message s).active = s.active := by
  unfold armFailed
  split <;> rfl

/-- The loss of another guard. -/
theorem active_lost {s : KillSwitch} {guard g : ℕ} (hactive : s.active = some g)
    (hne : guard ≠ g) (host : Host) (guards : ℕ → GuardProcess)
    (code activeMessage pendingMessage : Text) :
    (lost host guard code activeMessage pendingMessage s
      { forget guard s with guards := guards }).active = some g := by
  have hother : ¬ s.active = some guard := by
    rw [hactive]
    exact fun heq => hne (Option.some.inj heq).symm
  have hforget : (forget guard s).active = some g := by
    unfold forget
    rw [if_neg hother]
    exact hactive
  unfold lost
  rw [if_neg hother]
  split
  · rw [active_armFailed]
    exact hforget
  · exact hforget

theorem active_onReady {s : KillSwitch} {guard : ℕ} (h : s.pending ≠ some guard) :
    onReady guard s = s := if_pos (.inl h)

/-- A line keeps the active guard, or it is a report against it. -/
theorem active_handleLine {s : KillSwitch} (hslots : Slots s) {g : ℕ}
    (hactive : s.active = some g) (host : Host) (guard : ℕ) (line : Text) :
    (handleLine host guard line s).active = some g ∨
      (guard = g ∧ lineReport line = some .failed) ∨
        (guard ≠ g ∧ s.pending = some guard ∧ lineReport line = some .ready) := by
  unfold handleLine
  simp only
  split
  · exact .inl hactive
  · split
    · rename_i hready
      by_cases hpending : s.pending = some guard
      · right
        right
        refine ⟨?_, hpending, if_pos hready⟩
        rintro rfl
        exact hslots.handover.apart guard hactive hpending
      · left
        rw [active_onReady hpending]
        exact hactive
    · rename_i hready
      split
      · exact .inl hactive
      · rename_i hfail
        split
        · exact .inl hactive
        · by_cases hne : guard = g
          · right
            left
            refine ⟨hne, ?_⟩
            unfold lineReport
            rw [if_neg hready, if_pos]
            by_contra hnot
            exact hfail (not_or.mp hnot)
          · exact .inl (active_lost hactive hne host _ _ _ _)

theorem active_onFinished {s : KillSwitch} {g : ℕ} (hactive : s.active = some g) (host : Host)
    {guard : ℕ} (hne : guard ≠ g) (exitCode : ℤ) (crashed : Bool) :
    (onFinished host guard exitCode crashed s).active = some g := by
  unfold onFinished
  simp only
  split
  · exact hactive
  · exact active_lost hactive hne host _ _ _ _

theorem active_settleRest (waiting : List Waiter) (s : KillSwitch) :
    (settleRest waiting s).active = s.active := by
  unfold settleRest
  split
  · rfl
  · split
    · rfl
    · split <;> rfl

theorem active_onStartFailed (guard : ℕ) (program errorString : Text) (s : KillSwitch) :
    (onStartFailed guard program errorString s).active = s.active := by
  unfold onStartFailed
  simp only
  split
  · exact active_armFailed _ _ _
  · rfl

/-- What the others do keeps the active guard, while the switch stays on. -/
theorem active_handle {s : KillSwitch} (hslots : Slots s) {g : ℕ} (hactive : s.active = some g)
    (hon : s.settings.kill_switch = true) (hoverridden : s.overridden = false) (host : Host)
    (op : Op) (hrunning : (handle host s op).shutdown = false) :
    (handle host s op).active = some g ∨ ReportsAgainst g s.pending (.op op) := by
  cases op with
  | apply => exact .inl ((active_apply hon hoverridden host).trans hactive)
  | noteIdentityUnsupported detail =>
    left
    unfold handle noteIdentityUnsupported
    simp only
    rw [active_apply]
    · exact hactive
    · exact hon
    · exact hoverridden
  | setApiPort port =>
    left
    unfold handle
    simp only
    split <;> exact hactive
  | apiPortChanged =>
    left
    unfold handle apiPortChanged
    simp only
    split
    · exact hactive
    · split
      · exact hactive
      · split
        · exact hactive
        · rw [active_apply]
          · exact hactive
          · exact hon
          · exact hoverridden
  | whenSettled context =>
    left
    unfold handle whenSettled
    simp only
    split <;> exact hactive
  | whenIdle =>
    left
    unfold handle whenIdle
    simp only
    split <;> exact hactive
  | started guard =>
    left
    unfold handle
    simp only
    split <;> exact hactive
  | startFailed guard program errorString =>
    left
    unfold handle
    simp only
    split
    · rw [active_onStartFailed]
      exact hactive
    · exact hactive
  | readOutput guard line =>
    have hline := active_handleLine hslots hactive host guard line
    unfold handle
    simp only
    split
    · rcases hline with hkept | ⟨rfl, hfailed⟩ | ⟨hne, hpending, hready⟩
      · exact .inl hkept
      · exact .inr (Or.inl (by rw [report, hfailed]; rfl))
      · exact .inr (Or.inr (Or.inr ⟨guard, hne, hpending, by rw [report, hready]; rfl⟩))
    · exact .inl hactive
  | finished guard lines exitCode crashed =>
    left
    unfold handle
    simp only
    split <;> exact hactive
  | readyTimeout guard =>
    left
    unfold handle onReadyTimeout
    simp only
    split
    · split
      · exact hactive
      · rw [active_armFailed]
        exact hactive
    · exact hactive
  | respawnTimeout =>
    left
    unfold handle respawnTimeout
    simp only
    split
    · exact hactive
    · split
      · exact hactive
      · split
        · exact hactive
        · rw [active_apply]
          · exact hactive
          · exact hon
          · exact hoverridden
  | shutdown =>
    left
    unfold handle shutdownAll at hrunning ⊢
    simp only at hrunning ⊢
    split at hrunning
    · rename_i hended
      rw [hended] at hrunning
      cases hrunning
    · cases hrunning
  | setSettings | setOverride | destroyed | elapse => exact .inl hactive

theorem active_perform {s : KillSwitch} (hslots : Slots s) {g : ℕ} (hactive : s.active = some g)
    (hon : s.settings.kill_switch = true) (hoverridden : s.overridden = false) (host : Host)
    (t : Todo) (hrunning : (perform host s t).shutdown = false) :
    (perform host s t).active = some g ∨ ReportsAgainst g s.pending t := by
  cases t with
  | op op => exact active_handle hslots hactive hon hoverridden host op hrunning
  | settleRest waiting => exact .inl ((active_settleRest waiting s).trans hactive)
  | applyRest => exact .inl ((active_applyRest host s).trans hactive)
  | line guard line =>
    have hline := active_handleLine hslots hactive host guard line
    unfold perform
    simp only
    split
    · rcases hline with hkept | ⟨rfl, hfailed⟩ | ⟨hne, hpending, hready⟩
      · exact .inl hkept
      · exact .inr (Or.inl (by rw [report, hfailed]; rfl))
      · exact .inr (Or.inr (Or.inr ⟨guard, hne, hpending, by rw [report, hready]; rfl⟩))
    · exact .inl hactive
  | exited guard exitCode crashed =>
    by_cases hne : guard = g
    · refine .inr (Or.inr (Or.inl ?_))
      rw [hne]
      rfl
    · exact .inl (active_onFinished hactive host hne exitCode crashed)
  | others | settle | start => exact .inl hactive

/-! ## Steps -/

structure Inv (s : KillSwitch) : Prop where
  slots : Slots s
  shown : Shown s
  once : Once s

theorem inv_init (settings : Settings) : Inv (init settings) where
  slots := ⟨Handover.empty, nofun, nofun⟩
  shown := ⟨⟨nofun, nofun, fun _ _ => ⟨rfl, rfl⟩, fun _ h => absurd rfl h⟩, nofun⟩
  once := ⟨List.nodup_nil, nofun⟩

theorem slots_handle {s : KillSwitch} (h : Slots s) (host : Host) (op : Op) :
    Slots (handle host s op) := by
  cases op with
  | apply => exact h.apply host
  | noteIdentityUnsupported detail =>
    apply Slots.apply
    exact h
  | setApiPort port =>
    unfold handle
    simp only
    split <;> exact h
  | apiPortChanged =>
    unfold handle apiPortChanged
    simp only
    split
    · exact h
    · split
      · exact h
      · split
        · exact h
        · apply Slots.apply
          exact h
  | whenSettled context =>
    unfold handle whenSettled
    simp only
    split <;> exact h
  | whenIdle =>
    unfold handle whenIdle
    simp only
    split <;> exact h
  | started guard =>
    unfold handle
    simp only
    split
    · exact h.setGuard rfl rfl fun _ => .inl rfl
    · exact h
  | startFailed guard program errorString =>
    unfold handle
    simp only
    split
    · rename_i hphase
      have hactive : s.active ≠ some guard := by
        intro heq
        rcases h.ran guard (h.handover.activeReady guard heq) with hran | hran <;>
          (rw [hphase] at hran; cases hran)
      have hset : Slots (setGuard guard { s.guards guard with phase := .finished } s) :=
        h.setGuard rfl rfl fun _ => .inr rfl
      exact hset.onStartFailed hactive _ _
    · exact h
  | readOutput guard line =>
    unfold handle
    simp only
    split
    · rename_i hphase
      exact h.handleLine host line (.inl hphase)
    · exact h
  | finished guard lines exitCode crashed =>
    unfold handle
    simp only
    split
    · have hset : Slots (setGuard guard { s.guards guard with phase := .finished } s) :=
        h.setGuard rfl rfl fun _ => .inr rfl
      exact hset
    · exact h
  | readyTimeout guard =>
    unfold handle
    simp only
    split
    · exact h.onReadyTimeout guard
    · exact h
  | respawnTimeout =>
    unfold handle respawnTimeout
    simp only
    split
    · exact h
    · split
      · exact h
      · split
        · exact h
        · apply Slots.apply
          exact h
  | shutdown => exact h.shutdownAll
  | setSettings | setOverride | destroyed | elapse => exact h

theorem shown_handle {s : KillSwitch} (h : Shown s) (host : Host) (op : Op) :
    Shown (handle host s op) := by
  have hcopy {s' : KillSwitch} (hvisible : Visible s') (hidentified : Identified s') : Shown s' :=
    ⟨hvisible, hidentified⟩
  cases op with
  | apply => exact h.apply host
  | noteIdentityUnsupported detail => exact h.noteIdentityUnsupported host detail
  | setApiPort port =>
    unfold handle
    simp only
    split
    · exact h
    · exact hcopy h.visible h.identified
  | apiPortChanged =>
    unfold handle
    simp only
    split
    · exact h
    · apply Shown.apiPortChanged
      exact hcopy h.visible h.identified
  | whenSettled context => exact h.whenSettled context
  | whenIdle => exact h.whenIdle
  | started guard =>
    unfold handle
    simp only
    split
    · exact hcopy h.visible h.identified
    · exact h
  | startFailed guard program errorString =>
    unfold handle
    simp only
    split
    · apply Shown.onStartFailed
      exact hcopy h.visible h.identified
    · exact h
  | readOutput guard line =>
    unfold handle
    simp only
    split
    · exact h.handleLine host guard line
    · exact h
  | finished guard lines exitCode crashed =>
    unfold handle
    simp only
    split
    · refine hcopy ⟨h.visible.armed, h.visible.arming, h.visible.disabled, ?_⟩ h.identified
      intro hrunning hwaiters
      refine (h.visible.queued hrunning hwaiters).imp_right fun hsettle => ?_
      exact List.mem_append_right _ (List.mem_cons_of_mem _ hsettle)
    · exact h
  | readyTimeout guard =>
    unfold handle
    simp only
    split
    · exact h.onReadyTimeout guard
    · exact h
  | respawnTimeout =>
    unfold handle
    simp only
    split
    · exact h
    · apply Shown.respawnTimeout
      exact hcopy h.visible h.identified
  | shutdown => exact h.shutdownAll
  | setSettings | setOverride | destroyed | elapse => exact hcopy h.visible h.identified

theorem once_handle {s : KillSwitch} (h : Once s) (host : Host) (op : Op) :
    Once (handle host s op) := by
  cases op with
  | apply => exact h.apply host
  | noteIdentityUnsupported detail =>
    apply Once.apply
    exact h
  | setApiPort port =>
    unfold handle
    simp only
    split <;> exact h
  | apiPortChanged =>
    unfold handle apiPortChanged
    simp only
    split
    · exact h
    · split
      · exact h
      · split
        · exact h
        · apply Once.apply
          exact h
  | whenSettled context => exact h.whenCalled _ context false
  | whenIdle => exact h.whenCalled _ none true
  | started guard =>
    unfold handle
    simp only
    split <;> exact h
  | startFailed guard program errorString =>
    unfold handle onStartFailed
    simp only
    split
    · split
      · apply Once.armFailed
        exact h
      · exact h
    · exact h
  | readOutput guard line =>
    unfold handle
    simp only
    split
    · exact h.handleLine host guard line
    · exact h
  | finished guard lines exitCode crashed =>
    unfold handle
    simp only
    split
    · refine OnceOf.perm h (List.Perm.of_eq ?_)
      have hlines : (lines.map (Todo.line guard)).flatMap Todo.waiting = [] := by
        rw [List.flatMap_eq_nil_iff]
        intro t ht
        obtain ⟨line, -, rfl⟩ := List.mem_map.mp ht
        rfl
      unfold places
      rw [List.flatMap_append, hlines]
      rfl
    · exact h
  | readyTimeout guard =>
    unfold handle onReadyTimeout
    simp only
    split
    · split
      · exact h
      · apply Once.armFailed
        exact h
    · exact h
  | respawnTimeout =>
    unfold handle respawnTimeout
    simp only
    split
    · exact h
    · split
      · exact h
      · split
        · exact h
        · apply Once.apply
          exact h
  | shutdown => exact h.shutdownAll
  | setSettings | setOverride | destroyed | elapse => exact h

theorem Inv.push {s : KillSwitch} (h : Inv s) {t : Todo} (hnone : Todo.waiting t = []) :
    Inv (push t s) := by
  refine ⟨h.slots, ⟨h.shown.visible.push t, h.shown.identified⟩, ?_⟩
  refine OnceOf.perm h.once (List.Perm.of_eq ?_)
  unfold places KillSwitch.push
  simp only
  rw [List.flatMap_cons, hnone]
  rfl

/-- The handlers go on with what stands on top. -/
theorem Inv.perform {s : KillSwitch} {t : Todo} {later : List Todo} (h : Inv s)
    (htodo : s.todo = t :: later) (host : Host) :
    Inv (perform host { s with todo := later } t) := by
  have hslots : Slots { s with todo := later } := h.slots
  -- Only `settle` itself leaves the stack without a `settle`, and it empties the queue.
  have hshown (hne : t ≠ .settle) : Shown { s with todo := later } := by
    refine ⟨⟨h.shown.visible.armed, h.shown.visible.arming, h.shown.visible.disabled, ?_⟩,
      h.shown.identified⟩
    intro hrunning hwaiters
    refine (h.shown.visible.queued hrunning hwaiters).imp_right fun hmem => ?_
    rw [htodo] at hmem
    exact (List.mem_cons.mp hmem).resolve_left (Ne.symm hne)
  have hpush : Once (KillSwitch.push t { s with todo := later }) := by
    have honce := h.once
    unfold Once at honce
    rw [htodo] at honce
    exact honce
  have honce : Once { s with todo := later } := by
    refine OnceOf.sublist hpush ?_
    unfold places KillSwitch.push
    simp only
    rw [List.flatMap_cons]
    exact (List.Sublist.refl _).append ((List.Sublist.refl _).append
      (List.sublist_append_right _ _))
  cases t with
  | op op =>
    have hshown := hshown nofun
    exact ⟨slots_handle hslots host op, shown_handle hshown host op, once_handle honce host op⟩
  | others => exact ⟨hslots, hshown nofun, honce⟩
  | settle =>
    refine ⟨hslots, ⟨⟨h.shown.visible.armed, h.shown.visible.arming, h.shown.visible.disabled,
      fun _ hne => absurd rfl hne⟩, h.shown.identified⟩, ?_⟩
    exact honce
  | settleRest waiting =>
    have hshown := hshown nofun
    exact ⟨hslots.settleRest waiting, hshown.settleRest waiting, hpush.settleRest⟩
  | applyRest =>
    have hshown := hshown nofun
    exact ⟨hslots.applyRest host, hshown.applyRest host, honce.applyRest host⟩
  | start guard =>
    have hshown := hshown nofun
    exact ⟨hslots.start guard, ⟨hshown.visible.push _, hshown.identified⟩, honce⟩
  | line guard line =>
    have hshown := hshown nofun
    unfold KillSwitch.perform
    simp only
    split
    · rename_i hphase
      exact ⟨hslots.handleLine host line (.inr hphase), hshown.handleLine host guard line,
        honce.handleLine host guard line⟩
    · exact ⟨hslots, hshown, honce⟩
  | exited guard exitCode crashed =>
    have hshown := hshown nofun
    exact ⟨hslots.onFinished host guard exitCode crashed,
      hshown.onFinished host guard exitCode crashed,
      honce.onFinished host guard exitCode crashed⟩

theorem Inv.step {s : KillSwitch} (h : Inv s) (host : Host) (act : Act) :
    Inv (step host s act) := by
  unfold KillSwitch.step
  cases act with
  | arrive op =>
    simp only
    split
    · exact h.push rfl
    · exact h.push rfl
    · exact h
  | proceed =>
    simp only
    split
    · exact h
    · rename_i htodo
      exact h.perform htodo host

theorem Inv.run {s : KillSwitch} (h : Inv s) (host : Host) (acts : List Act) :
    Inv (run host s acts) := by
  induction acts generalizing s with
  | nil => exact h
  | cons act acts ih => exact ih (h.step host act)

/-- The guard reports its failure or its end, or another reports that it is ready, with what
the handlers do next. -/
def Reported (guard : ℕ) (s : KillSwitch) : Prop :=
  ∃ t later, s.todo = t :: later ∧ ReportsAgainst guard s.pending t

/-- The setting is on and in force, and the switch is not shut down. -/
def On (host : Host) (s : KillSwitch) (act : Act) : Prop :=
  s.settings.kill_switch = true ∧ s.overridden = false ∧ (step host s act).shutdown = false

theorem active_step {s : KillSwitch} (h : Inv s) {g : ℕ} (hactive : s.active = some g)
    {host : Host} {act : Act} (hon : On host s act) :
    (step host s act).active = some g ∨ act = .proceed ∧ Reported g s := by
  obtain ⟨hset, hoverridden, hrunning⟩ := hon
  unfold step at hrunning ⊢
  cases act with
  | arrive op =>
    left
    simp only
    split <;> exact hactive
  | proceed =>
    simp only at hrunning ⊢
    split at hrunning
    · exact .inl hactive
    · rename_i t later htodo
      have hslots : Slots { s with todo := later } := h.slots
      have hkept := active_perform hslots hactive hset hoverridden host t hrunning
      exact hkept.imp_right fun hreport => ⟨trivial, t, later, htodo, hreport⟩

/-- Over a run the active guard stays, or a report against it was handled. -/
theorem active_run {host : Host} {g : ℕ} {later : List Act} :
    ∀ {s : KillSwitch}, Inv s → s.active = some g → Throughout (step host) (On host) s later →
      (run host s later).active = some g ∨
        ∃ earlier rest, later = earlier ++ .proceed :: rest ∧ Reported g (run host s earlier) := by
  induction later with
  | nil => exact fun _ hactive _ => .inl hactive
  | cons act later ih =>
    intro s h hactive hon
    rcases active_step h hactive hon.1 with hkept | ⟨rfl, hreported⟩
    · refine (ih (h.step host act) hkept hon.2).imp_right ?_
      rintro ⟨earlier, rest, rfl, hreported⟩
      exact ⟨act :: earlier, rest, rfl, hreported⟩
    · exact .inr ⟨[], later, rfl, hreported⟩

/-! ## Runs -/

structure Guaranteed (host : Host) (s : KillSwitch) : Prop where
  armed : s.shutdown = false → s.state = .Armed →
    ∃ g, s.active = some g ∧ (s.guards g).ready = true ∧ (s.guards g).closing = false
  arming : s.shutdown = false → s.state = .Arming → s.active = none ∧ s.pending ≠ none
  apart : ∀ g, s.active = some g → s.pending ≠ some g
  neitherClosing : ∀ g, s.active = some g ∨ s.pending = some g → (s.guards g).closing = false
  disabled : s.state = .Disabled → s.identityUnsupported = false →
    s.active = none ∧ s.pending = none
  /-- While the switch is on, only a report ends the time of the active guard. -/
  kept : ∀ g later, s.active = some g → Throughout (step host) (On host) s later →
    (run host s later).active = some g ∧ ((run host s later).guards g).closing = false ∨
      ∃ earlier rest, later = earlier ++ .proceed :: rest ∧ Reported g (run host s earlier)
  queued : s.shutdown = false → s.todo = [] → s.waiters ≠ [] → s.pending ≠ none
  once : (s.called.map Prod.fst).Nodup

theorem Inv.guaranteed {s : KillSwitch} (h : Inv s) (host : Host) : Guaranteed host s where
  armed hrunning hstate := by
    obtain ⟨g, hg⟩ := Option.ne_none_iff_exists'.mp (h.shown.visible.armed hrunning hstate)
    exact ⟨g, hg, h.slots.handover.activeReady g hg, h.slots.handover.activeOpen g hg⟩
  arming := h.shown.visible.arming
  apart := h.slots.handover.apart
  neitherClosing g hg := hg.elim (h.slots.handover.activeOpen g) (h.slots.handover.pendingOpen g)
  disabled := h.shown.visible.disabled
  kept g later hactive hon := by
    refine (active_run h hactive hon).imp_left fun hkept => ⟨hkept, ?_⟩
    exact (h.run host later).slots.handover.activeOpen g hkept
  queued hrunning hrest hwaiters := by
    refine (h.shown.visible.queued hrunning hwaiters).resolve_right ?_
    rw [hrest]
    exact List.not_mem_nil
  once := List.Nodup.sublist (List.sublist_append_left _ _) h.once.nodup

/-- **The kill switch.**  After any run the state says what the guards do, the active guard is
given up for a report only, and no waiter is forgotten or called twice; the shutdown ends what
the state says and who waits. -/
theorem killSwitch_run (host : Host) (settings : Settings) (acts : List Act) :
    Guaranteed host (run host (init settings) acts) :=
  ((inv_init settings).run host acts).guaranteed host

/-- A guard is armed, and then the switch is shut down. -/
def armedShutdown : List Act :=
  [.arrive .apply, .proceed, .proceed, .proceed, .proceed, .arrive (.started 0), .proceed,
    .arrive (.readOutput 0 verbReady), .proceed, .proceed, .proceed, .proceed,
    .arrive .shutdown, .proceed]

/-- The shutdown drops the guards and leaves the state as it was. -/
theorem shutdown_staysArmed :
    ¬ ∀ (host : Host) (settings : Settings) (acts : List Act),
        (run host (init settings) acts).todo = [] →
          (run host (init settings) acts).state = .Armed →
            (run host (init settings) acts).active ≠ none := by
  intro h
  exact h ⟨.linux, id, id⟩ ⟨true, false, false, [], [], false, []⟩ armedShutdown (by decide +kernel)
    (by decide +kernel) (by decide +kernel)

end Throned.Sys.KillSwitch

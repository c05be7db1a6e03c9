import Throned.Library.Actors
import Throned.Library.Runs
import Throned.Model.LatencyTests

/-!
# The session of the latency tests

A call holds the session exactly while it runs, and has been finished exactly once when it is over;
until then some thread has a step to take.
-/

set_option autoImplicit false

namespace Throned.Engine.Tests

open Throned.Library

/-- The call that holds the session. -/
def Session.holder : Session → Option ℕ
  | .held run => some run.call
  | _ => none

namespace LatencyTests

variable {s t : LatencyTests}

/-- The session is held by the one call that runs, and a call is finished once, at its end. -/
structure Locked (s : LatencyTests) : Prop where
  finishes : ∀ call ∈ s.calls, call.finishes = if call.phase = .finished then 1 else 0
  running : ∀ k call, s.calls[k]? = some call →
    (call.phase = .running ↔ s.session.holder = some k)
  valid : ∀ k, s.session.holder = some k → k < s.calls.length

theorem Locked.congr (h : s.Locked) (hcalls : t.calls = s.calls)
    (hholder : t.session.holder = s.session.holder) : t.Locked where
  finishes := hcalls ▸ h.finishes
  running := by
    rw [hcalls, hholder]
    exact h.running
  valid := by
    rw [hcalls, hholder]
    exact h.valid

/-- A call is set, and the session goes to it or from it. -/
theorem Locked.set (h : s.Locked) {k : ℕ} {old call : TestCall} (hk : s.calls[k]? = some old)
    (hcalls : t.calls = s.calls.set k call)
    (hfinishes : call.finishes = if call.phase = .finished then 1 else 0)
    (hrunning : call.phase = .running ↔ t.session.holder = some k)
    (hothers : ∀ j, j ≠ k → (t.session.holder = some j ↔ s.session.holder = some j)) :
    t.Locked where
  finishes other hother := by
    rw [hcalls] at hother
    obtain hother | rfl := List.mem_or_eq_of_mem_set hother
    · exact h.finishes other hother
    · exact hfinishes
  running j other hj := by
    rw [hcalls] at hj
    obtain ⟨rfl, rfl⟩ | ⟨hne, hj⟩ := getElem?_set_cases hj
    · exact hrunning
    · rw [hothers j hne]
      exact h.running j other hj
  valid j hj := by
    rw [hcalls, List.length_set]
    by_cases heq : j = k
    · rw [heq]
      exact (List.getElem?_eq_some_iff.mp hk).1
    · exact h.valid j ((hothers j heq).mp hj)

/-- A call that does not run is finished. -/
theorem Locked.finishCall (h : s.Locked) {k : ℕ} {call : TestCall} (hk : s.calls[k]? = some call)
    (hphase : call.phase ≠ .running) (hunfinished : call.phase ≠ .finished) :
    (s.finishCall k call).Locked := by
  have hzero := h.finishes call (List.mem_of_getElem? hk)
  rw [if_neg hunfinished] at hzero
  refine h.set hk rfl ?_ ?_ fun j _ => Iff.rfl
  · dsimp only
    rw [if_pos rfl, hzero]
  · have hnot : s.session.holder ≠ some k := fun heq => hphase ((h.running k call hk).mpr heq)
    exact ⟨nofun, fun heq => absurd heq hnot⟩

theorem Locked.runLatencyGroup (h : s.Locked) {k : ℕ} {call : TestCall}
    (hk : s.calls[k]? = some call) (hphase : call.phase = .queued) :
    (s.runLatencyGroup k call).Locked := by
  have hend : (s.finishCall k call).Locked :=
    h.finishCall hk (by rw [hphase]; exact nofun) (by rw [hphase]; exact nofun)
  have hzero := h.finishes call (List.mem_of_getElem? hk)
  rw [hphase, if_neg nofun] at hzero
  dsimp only [LatencyTests.runLatencyGroup]
  split
  · exact hend
  · split
    · rename_i hfree
      refine h.set hk rfl ?_ ⟨fun _ => rfl, fun _ => rfl⟩ fun j hne => ?_
      · dsimp only
        rw [if_neg nofun, hzero]
      · rw [hfree]
        exact ⟨fun heq => absurd (Option.some.inj heq).symm hne, nofun⟩
    · split
      · exact h
      · exact hend

theorem Locked.addCall (h : s.Locked) {call : TestCall} (hphase : call.phase = .queued)
    (hfinishes : call.finishes = 0) : Locked { s with calls := s.calls ++ [call] } where
  finishes other hother := by
    obtain hother | hother := List.mem_append.mp hother
    · exact h.finishes other hother
    · rw [List.mem_singleton.mp hother, hphase, if_neg nofun, hfinishes]
  running j other hj := by
    obtain hold | ⟨hlength, rfl⟩ := getElem?_concat_cases hj
    · exact h.running j other hold
    · rw [hphase, hlength]
      exact ⟨nofun, fun heq => absurd (h.valid _ heq) (lt_irrefl _)⟩
  valid j hj := by
    have hlt := h.valid j hj
    rw [List.length_append]
    omega

theorem Locked.runBatch (h : s.Locked) : s.runBatch.Locked := by
  dsimp only [LatencyTests.runBatch]
  split
  · rename_i run hrun
    split
    · split
      · exact h
      · exact h.congr rfl (by rw [hrun]; rfl)
    · exact h
  · exact h

theorem Locked.endBatch (h : s.Locked) : s.endBatch.Locked := by
  dsimp only [LatencyTests.endBatch]
  split
  · rename_i run hrun
    split
    · split
      · exact h.congr rfl (by rw [hrun]; rfl)
      · exact h
    · exact h
  · exact h

theorem Locked.unlock (h : s.Locked) : s.unlock.Locked := by
  dsimp only [LatencyTests.unlock]
  split
  · rename_i run hrun
    split
    · split
      · rename_i call hk
        have hphase : call.phase = .running := (h.running _ call hk).mpr (by rw [hrun]; rfl)
        have hzero := h.finishes call (List.mem_of_getElem? hk)
        rw [hphase, if_neg nofun] at hzero
        refine h.set hk rfl ?_ ⟨nofun, nofun⟩ fun j hne => ?_
        · dsimp only
          rw [if_neg nofun, hzero]
        · rw [hrun]
          exact ⟨nofun, fun heq => absurd (Option.some.inj heq).symm hne⟩
      · exact h
    · exact h
  · exact h


theorem Locked.finish (h : s.Locked) (k : ℕ) : (s.finish k).Locked := by
  unfold LatencyTests.finish
  split
  · rename_i call hk
    split
    · rename_i hphase
      exact h.finishCall hk (by rw [hphase]; exact nofun) (by rw [hphase]; exact nofun)
    · exact h
  · exact h

theorem Locked.queuedEnters (h : s.Locked) (k : ℕ) : (s.queuedEnters k).Locked := by
  unfold LatencyTests.queuedEnters
  split
  · rename_i call hk
    split
    · rename_i hphase
      exact h.runLatencyGroup hk hphase
    · exact h
  · exact h

theorem Locked.runTests (h : s.Locked) (kind : LatencyKind) (items : List TestItem) :
    (s.runTests kind items).Locked := by
  dsimp only [LatencyTests.runTests]
  refine (h.addCall rfl rfl).runLatencyGroup ?_ rfl
  exact List.getElem?_concat_length

section Frame

variable (s)

theorem applyResult_frame (kind : LatencyKind) (ent : ℤ) (tag : Text) (res : TestResult)
    (vpnConnected : Option (List (Text × Bool))) :
    let t := s.applyResult kind ent tag res vpnConnected
    t.calls = s.calls ∧ t.session = s.session ∧ t.probes = s.probes := by
  cases kind <;> exact ⟨rfl, rfl, rfl⟩

/-- The steps of probes and pollers leave the calls and the session. -/
theorem step_frame {ev : LatencyEvent} (hev : match ev with
      | .startProbe _ | .publish _ _ _ | .answer _ _ _ | .fail _ _ | .coreEnds _ | .applyFinal _
      | .beginTick _ | .askTick _ | .serveTick _ | .checkTick _ | .applyTick _ | .stop => True
      | _ => False) :
    (s.step ev).calls = s.calls ∧ (s.step ev).session = s.session := by
  cases ev with
  | startProbe i =>
    dsimp only [step, startProbe]
    split
    · split
      · split <;> exact ⟨rfl, rfl⟩
      · exact ⟨rfl, rfl⟩
    · exact ⟨rfl, rfl⟩
  | publish i tag result =>
    dsimp only [step, publish]
    split
    · split <;> exact ⟨rfl, rfl⟩
    · exact ⟨rfl, rfl⟩
  | answer i results vpnConnected =>
    dsimp only [step, answer]
    split
    · split <;> exact ⟨rfl, rfl⟩
    · exact ⟨rfl, rfl⟩
  | fail i timeout =>
    dsimp only [step, fail]
    split
    · split <;> exact ⟨rfl, rfl⟩
    · exact ⟨rfl, rfl⟩
  | coreEnds i =>
    dsimp only [step, coreEnds]
    split
    · split <;> exact ⟨rfl, rfl⟩
    · exact ⟨rfl, rfl⟩
  | applyFinal i =>
    dsimp only [step, applyFinal]
    split
    · split
      · split
        · obtain ⟨hcalls, hsession, -⟩ := applyResult_frame (s.setProbe _ _) _ _ _ _ _
          exact ⟨hcalls, hsession⟩
        · exact ⟨rfl, rfl⟩
      · exact ⟨rfl, rfl⟩
      · exact ⟨rfl, rfl⟩
    · exact ⟨rfl, rfl⟩
  | beginTick i =>
    dsimp only [step, beginTick]
    split
    · split <;> exact ⟨rfl, rfl⟩
    · exact ⟨rfl, rfl⟩
  | askTick i =>
    dsimp only [step, askTick]
    split
    · split <;> exact ⟨rfl, rfl⟩
    · exact ⟨rfl, rfl⟩
  | serveTick i =>
    dsimp only [step, serveTick]
    split
    · split <;> exact ⟨rfl, rfl⟩
    · exact ⟨rfl, rfl⟩
  | checkTick i =>
    dsimp only [step, checkTick]
    split
    · split <;> exact ⟨rfl, rfl⟩
    · exact ⟨rfl, rfl⟩
  | applyTick i =>
    dsimp only [step, applyTick]
    split
    · split
      · split
        · obtain ⟨hcalls, hsession, -⟩ := applyResult_frame (s.setTick _ _ _) _ _ _ _ _
          exact ⟨hcalls, hsession⟩
        · exact ⟨rfl, rfl⟩
      · exact ⟨rfl, rfl⟩
      · exact ⟨rfl, rfl⟩
    · exact ⟨rfl, rfl⟩
  | stop => exact ⟨rfl, rfl⟩
  | runTests | queueUrlTests | queuedEnters | runBatch | endBatch | unlock | finish | otherLocks
  | otherUnlocks => exact hev.elim

end Frame

/-- **Every step keeps the session.** -/
theorem Locked.step (h : s.Locked) (ev : LatencyEvent) : (s.step ev).Locked := by
  have hframe : ∀ {t : LatencyTests}, t.calls = s.calls ∧ t.session = s.session → t.Locked :=
    fun ht => h.congr ht.1 (congrArg Session.holder ht.2)
  cases ev with
  | runTests kind items => exact h.runTests kind items
  | queueUrlTests items => exact h.addCall rfl rfl
  | queuedEnters k => exact h.queuedEnters k
  | runBatch => exact h.runBatch
  | endBatch => exact h.endBatch
  | unlock => exact h.unlock
  | finish k => exact h.finish k
  | startProbe i => exact hframe (s.step_frame trivial)
  | publish i tag result => exact hframe (s.step_frame trivial)
  | answer i results vpnConnected => exact hframe (s.step_frame trivial)
  | fail i timeout => exact hframe (s.step_frame trivial)
  | coreEnds i => exact hframe (s.step_frame trivial)
  | applyFinal i => exact hframe (s.step_frame trivial)
  | beginTick i => exact hframe (s.step_frame trivial)
  | askTick i => exact hframe (s.step_frame trivial)
  | serveTick i => exact hframe (s.step_frame trivial)
  | checkTick i => exact hframe (s.step_frame trivial)
  | applyTick i => exact hframe (s.step_frame trivial)
  | stop => exact hframe (s.step_frame trivial)
  | otherLocks =>
    dsimp only [LatencyTests.step]
    split
    · rename_i hfree
      exact h.congr rfl (by rw [hfree]; rfl)
    · exact h
  | otherUnlocks =>
    dsimp only [LatencyTests.step]
    split
    · rename_i hother
      exact h.congr rfl (by rw [hother]; rfl)
    · exact h

/-! ## Somebody can go on -/

/-- The steps that threads take by themselves; the core answers or runs out of time. -/
def LatencyEvent.own : LatencyEvent → Bool
  | .queuedEnters _ | .runBatch | .endBatch | .unlock | .finish _ | .startProbe _ | .fail _ _
  | .applyFinal _ | .otherUnlocks => true
  | _ => false

/-- A thread has a step to take. -/
def GoesOn (s : LatencyTests) : Prop := ∃ ev, LatencyEvent.own ev = true ∧ s.step ev ≠ s

theorem goesOn_of_session (ev : LatencyEvent) (hev : LatencyEvent.own ev = true)
    (h : (s.step ev).session ≠ s.session) : s.GoesOn :=
  ⟨ev, hev, fun heq => h (congrArg LatencyTests.session heq)⟩

theorem goesOn_of_call (ev : LatencyEvent) (hev : LatencyEvent.own ev = true) {k : ℕ}
    {call : TestCall} (hk : s.calls[k]? = some call) (h : (s.step ev).calls[k]? ≠ some call) :
    s.GoesOn := by
  refine ⟨ev, hev, fun heq => h ?_⟩
  rw [heq]
  exact hk

theorem goesOn_of_probe (ev : LatencyEvent) (hev : LatencyEvent.own ev = true) {i : ℕ}
    {p : LatencyProbe} (hi : s.probes[i]? = some p) (h : (s.step ev).probes[i]? ≠ some p) :
    s.GoesOn := by
  refine ⟨ev, hev, fun heq => h ?_⟩
  rw [heq]
  exact hi

/-- A call that is finished now was not before. -/
theorem finishCall_ne {k : ℕ} {call : TestCall} (hk : s.calls[k]? = some call) :
    (s.finishCall k call).calls[k]? ≠ some call := by
  have hlt := (List.getElem?_eq_some_iff.mp hk).1
  unfold LatencyTests.finishCall setCall
  dsimp only
  rw [List.getElem?_set_self hlt]
  intro heq
  have hsame := congrArg TestCall.finishes (Option.some.inj heq)
  dsimp only at hsame
  omega

theorem setProbe_ne {i : ℕ} {p q : LatencyProbe} (hi : s.probes[i]? = some p)
    (hphase : q.phase ≠ p.phase) : (s.setProbe i q).probes[i]? ≠ some p := by
  have hlt := (List.getElem?_eq_some_iff.mp hi).1
  unfold setProbe
  dsimp only
  rw [List.getElem?_set_self hlt]
  exact fun heq => hphase (congrArg LatencyProbe.phase (Option.some.inj heq))

/-- A probe that is not done goes on. -/
theorem goesOn_probe {i : ℕ} {p : LatencyProbe} (hi : s.probes[i]? = some p)
    (hphase : p.phase ≠ .done) : s.GoesOn := by
  cases hp : p.phase with
  | pooled =>
    refine goesOn_of_probe (.startProbe i) rfl hi ?_
    simp only [step, startProbe, hi, hp, if_true]
    split
    · exact setProbe_ne hi fun heq => ProbePhase.noConfusion (heq.trans hp)
    · exact setProbe_ne hi fun heq => ProbePhase.noConfusion (heq.trans hp)
  | asked =>
    refine goesOn_of_probe (.fail i false) rfl hi ?_
    simp only [step, fail, hi, hp, if_true]
    exact setProbe_ne hi fun heq => ProbePhase.noConfusion (heq.trans hp)
  | answered results vpnConnected =>
    refine goesOn_of_probe (.applyFinal i) rfl hi ?_
    cases results with
    | nil =>
      simp only [step, applyFinal, hi, hp]
      exact setProbe_ne hi fun heq => ProbePhase.noConfusion (heq.trans hp)
    | cons r results =>
      obtain ⟨tag, res⟩ := r
      have hset : (s.setProbe i { p with phase := .answered results vpnConnected }).probes[i]? ≠
          some p := by
        refine setProbe_ne hi fun heq => ?_
        injection heq.trans hp with hresults
        exact List.cons_ne_self _ _ hresults.symm
      simp only [step, applyFinal, hi, hp]
      split
      · rw [(applyResult_frame _ _ _ _ _ _).2.2]
        exact hset
      · exact hset
  | done => exact absurd hp hphase

/-- The run that holds the session goes on. -/
theorem goesOn_run (h : s.Locked) {run : TestRun} (hrun : s.session = .held run) : s.GoesOn := by
  cases hbatch : run.batch with
  | some batch =>
    by_cases hdone : batch.all s.probeDone = true
    · refine goesOn_of_session .endBatch rfl ?_
      simp only [step, endBatch, hrun, hbatch, hdone, if_true]
      intro heq
      have hnone := congrArg (fun session => match session with
        | Session.held r => r.batch
        | _ => none) heq
      dsimp only at hnone
      rw [hbatch] at hnone
      cases hnone
    · obtain ⟨i, -, hi⟩ := List.all_eq_false.mp (Bool.eq_false_iff.mpr hdone)
      unfold probeDone at hi
      split at hi
      · rename_i p hp
        exact goesOn_probe hp fun heq => hi (decide_eq_true heq)
      · exact absurd rfl hi
  | none =>
    have hunlock : run.slices = [] ∨ s.stopRequested = true → s.GoesOn := by
      intro hover
      have hlt := h.valid run.call (by rw [hrun]; rfl)
      refine goesOn_of_session .unlock rfl ?_
      simp only [step, unlock, hrun]
      rw [if_pos ⟨hbatch, hover⟩, List.getElem?_eq_getElem hlt]
      exact nofun
    cases hslices : run.slices with
    | nil => exact hunlock (.inl hslices)
    | cons slice slices =>
      cases hstop : s.stopRequested with
      | true => exact hunlock (.inr hstop)
      | false =>
        refine goesOn_of_session .runBatch rfl ?_
        simp only [step, runBatch, hrun, hbatch, hslices, hstop]
        intro heq
        have hlength := congrArg (fun session => match session with
          | Session.held r => r.slices.length
          | _ => 0) heq
        dsimp only at hlength
        rw [hslices, List.length_cons] at hlength
        simp at hlength

/-- **Until every call is finished some thread goes on.** -/
theorem Locked.goesOn (h : s.Locked) {k : ℕ} {call : TestCall} (hk : s.calls[k]? = some call)
    (hphase : call.phase ≠ .finished) : s.GoesOn := by
  cases hp : call.phase with
  | finished => exact absurd hp hphase
  | unlocked =>
    refine goesOn_of_call (.finish k) rfl hk ?_
    simp only [LatencyTests.step, LatencyTests.finish, hk, hp, if_true]
    exact finishCall_ne hk
  | running =>
    have hholder := (h.running k call hk).mp hp
    cases hsession : s.session with
    | held run => exact goesOn_run h hsession
    | free | other =>
      rw [hsession] at hholder
      cases hholder
  | queued =>
    cases hsession : s.session with
    | held run => exact goesOn_run h hsession
    | other =>
      refine goesOn_of_session .otherUnlocks rfl ?_
      simp only [LatencyTests.step, hsession, if_true]
      exact nofun
    | free =>
      refine goesOn_of_call (.queuedEnters k) rfl hk ?_
      simp only [LatencyTests.step, LatencyTests.queuedEnters, hk, hp, if_true]
      dsimp only [LatencyTests.runLatencyGroup]
      split
      · exact finishCall_ne hk
      · rw [hsession]
        dsimp only [setCall]
        rw [List.getElem?_set_self (List.getElem?_eq_some_iff.mp hk).1]
        intro heq
        have hsame := congrArg TestCall.phase (Option.some.inj heq)
        dsimp only at hsame
        rw [hp] at hsame
        cases hsame

end LatencyTests

end Throned.Engine.Tests

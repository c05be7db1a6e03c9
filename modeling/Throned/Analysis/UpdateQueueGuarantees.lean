import Throned.Analysis.UpdateQueueSteps

/-!
# What the update queue guarantees

In every reachable state nothing is lost or done twice, and the drain alone brings the queue
to rest, with every job run and every callback invoked once.
-/

set_option autoImplicit false

namespace Throned.Subscription.GroupUpdater

/-! ## The drain comes to rest -/

/-- The steps a drain has left before it looks at the queue again. -/
def rank : DrainPc → ℕ
  | .take => 1
  | .run _ => 4
  | .settle _ _ => 3
  | .deliver _ _ waiting => 2 + waiting.length

/-- The steps a drain has left, if nobody calls. -/
def work (s : GroupUpdater) : ℕ :=
  (s.drains.map rank).sum + 4 * s.queue.length + s.waiters.length

/-- The drain alone, with the results of its jobs. -/
def drainFor (results : ℕ → UpdateOutcome) : ℕ → GroupUpdater → GroupUpdater
  | 0, s => s
  | n + 1, s => drainFor results n (s.drain 0 (results n))

variable {s : GroupUpdater}

/-- What a step of the drain does not change. -/
theorem drain_calls (s : GroupUpdater) (k : ℕ) (result : UpdateOutcome) :
    (s.drain k result).calls = s.calls ∧ (s.drain k result).queued = s.queued := by
  unfold drain
  cases s.drains[k]? with
  | none => exact ⟨rfl, rfl⟩
  | some pc =>
    cases pc with
    | take => cases s.queue <;> exact ⟨rfl, rfl⟩
    | run job => exact ⟨rfl, rfl⟩
    | settle job outcome =>
      simp only
      unfold settleJob
      split <;> exact ⟨rfl, rfl⟩
    | deliver job outcome waiting => cases waiting <;> exact ⟨rfl, rfl⟩

/-- **Every step of the drain is progress.** -/
theorem work_drain (h : Orderly s) (hbusy : s.drains ≠ []) (result : UpdateOutcome) :
    (s.drain 0 result).work < s.work := by
  rcases h.drain with ⟨hnone, -⟩ | ⟨pc, hdrains, hrunning⟩
  · exact absurd hnone hbusy
  · have hpc : s.drains[0]? = some pc := by
      rw [hdrains]
      rfl
    unfold drain
    rw [hpc]
    cases pc with
    | take =>
      cases hqueue : s.queue with
      | nil => simp [work, hdrains, hqueue, rank]
      | cons job rest =>
        simp [work, hdrains, hqueue, rank]
        omega
    | run job => simp [work, hdrains, rank]
    | settle job outcome =>
      simp only
      unfold settleJob
      by_cases hnonneg : 0 ≤ job.gid
      · have hsplit : (s.waiters.filter fun w => w.1 = job.gid).length +
            (s.waiters.filter fun w => w.1 ≠ job.gid).length = s.waiters.length := by
          have := (List.filter_append_perm (fun w : Int × ℕ => w.1 = job.gid) s.waiters).length_eq
          rw [List.length_append] at this
          simpa using this
        simp only [if_pos hnonneg, work, hdrains, List.set_cons_zero, List.map_cons, List.map_nil, rank,
          List.length_map, List.sum_cons, List.sum_nil]
        omega
      · simp [work, hdrains, hnonneg, rank]
    | deliver job outcome waiting =>
      cases waiting with
      | nil => simp [work, hdrains, rank]
      | cons call rest => simp [work, hdrains, rank]

/-- At rest nothing waits. -/
theorem Orderly.rest (h : Orderly s) (hrest : s.drains = []) :
    s.unrun = [] ∧ s.waiters = [] ∧ s.delivering = [] := by
  have hqueue : s.queue = [] := by
    rcases h.drain with ⟨-, -, hqueue⟩ | ⟨pc, hdrains, -⟩
    · exact hqueue
    · rw [hrest] at hdrains
      cases hdrains
  have hnone : s.unsettled = [] := by
    unfold unsettled
    rw [hrest, hqueue]
    rfl
  refine ⟨?_, ?_, ?_⟩
  · unfold unrun
    rw [hrest, hqueue]
    rfl
  · apply List.eq_nil_iff_forall_not_mem.mpr
    intro w hw
    obtain ⟨hw0, hw1, -⟩ := h.waiting w hw
    obtain ⟨job, hjob, -⟩ := h.owned w.1 hw1 hw0
    rw [hnone] at hjob
    cases hjob
  · unfold delivering
    rw [hrest]
    rfl

/-- **The drain comes to rest.** -/
theorem drainFor_rest (results : ℕ → UpdateOutcome) : ∀ (n : ℕ) {s : GroupUpdater}, Orderly s →
    s.work ≤ n →
    (drainFor results n s).drains = [] ∧ Orderly (drainFor results n s) ∧
      (drainFor results n s).calls = s.calls ∧ (drainFor results n s).queued = s.queued := by
  intro n
  induction n with
  | zero =>
    intro s h hwork
    refine ⟨?_, h, rfl, rfl⟩
    rcases h.drain with ⟨hnone, -⟩ | ⟨pc, hdrains, -⟩
    · exact hnone
    · unfold work at hwork
      rw [hdrains] at hwork
      cases pc <;> simp [rank] at hwork
  | succ n ih =>
    intro s h hwork
    rw [drainFor]
    have hstep := h.drain_step 0 (results n)
    obtain ⟨hcalls, hqueued⟩ := drain_calls s 0 (results n)
    have hless : (s.drain 0 (results n)).work ≤ n := by
      by_cases hbusy : s.drains = []
      · -- a state at rest has no work at all
        have hsame : s.drain 0 (results n) = s := by
          unfold drain
          rw [hbusy]
          rfl
        rw [hsame]
        obtain ⟨hunrun, hwaiters, -⟩ := h.rest hbusy
        unfold unrun at hunrun
        unfold work
        rw [hbusy, (List.append_eq_nil_iff.mp hunrun).2, hwaiters]
        exact Nat.zero_le _
      · have := work_drain h hbusy (results n)
        omega
    obtain ⟨hrest, horderly, hcalls', hqueued'⟩ := ih hstep hless
    exact ⟨hrest, horderly, hcalls'.trans hcalls, hqueued'.trans hqueued⟩

/-! ## The guarantees -/

/-- A callback was invoked with the outcome of a refresh of its group that ran and had not
settled when the callback was given. -/
def InvokedFor (s : GroupUpdater) (x : ℕ × Job × UpdateOutcome) : Prop :=
  ∃ call, s.calls[x.1]? = some call ∧ x.2.1.refresh = true ∧ x.2.1.gid = call.gid ∧
    (x.2.1, x.2.2) ∈ s.ran ∧ x.2.1.id ∉ call.settledBefore

structure QueueGuaranteed (s : GroupUpdater) : Prop where
  oneDrain : s.drains.length ≤ 1
  noStall : s.queue ≠ [] → s.drains ≠ []
  /-- Every job either has yet to run or ran once. -/
  jobsOnce : (s.unrun.map (·.id) ++ s.ran.map fun x => x.1.id).Perm (List.range s.queued)
  oneRefresh : ∀ gid, s.unsettled.countP (fun job => job.refresh && decide (job.gid = gid)) ≤ 1
  batch : s.pendingBatch = s.unsettled.countP (·.batch)
  /-- Every callback waits, is about to be invoked, or was invoked, once. -/
  callbacksOnce : (s.waiters.map Prod.snd ++ s.delivering ++ s.invoked.map Prod.fst).Perm
    (List.range s.calls.length)
  outcomes : ∀ x ∈ s.invoked, s.InvokedFor x
  /-- Without further calls the drain ends, and then every job has run once and every callback
  has been invoked once. -/
  completes : ∀ results : ℕ → UpdateOutcome,
    (drainFor results s.work s).drains = [] ∧
      ((drainFor results s.work s).ran.map fun x => x.1.id).Perm (List.range s.queued) ∧
      ((drainFor results s.work s).invoked.map Prod.fst).Perm (List.range s.calls.length) ∧
      ∀ x ∈ (drainFor results s.work s).invoked, (drainFor results s.work s).InvokedFor x

theorem Orderly.oneRefresh (h : Orderly s) (gid : Int) :
    s.unsettled.countP (fun job => job.refresh && decide (job.gid = gid)) ≤ 1 := by
  have hcount := List.nodup_iff_count_le_one.mp h.refreshes gid
  rw [List.count, List.countP_map, List.countP_filter] at hcount
  refine le_trans (le_of_eq ?_) hcount
  apply List.countP_congr
  intro job _
  simp [and_comm]

theorem Orderly.outcomes (h : Orderly s) {x : ℕ × Job × UpdateOutcome} (hx : x ∈ s.invoked) :
    s.InvokedFor x := by
  have hdelivers := h.invoked x hx
  obtain ⟨call, hcall, hgid, hbefore⟩ := hdelivers.call
  exact ⟨call, hcall, hdelivers.refresh, hgid, hdelivers.ran, hbefore⟩

/-- **The update queue in any interleaving.** -/
theorem queueGuaranteed_of_reachable (s : GroupUpdater) (hs : updateQueue.Reachable s) :
    QueueGuaranteed s := by
  have h := orderly_of_reachable hs
  refine ⟨?_, ?_, h.runs, h.oneRefresh, h.batch, h.callbacks, fun x hx => h.outcomes hx, ?_⟩
  · rcases h.drain with ⟨hdrains, -⟩ | ⟨pc, hdrains, -⟩ <;> rw [hdrains]
    · exact Nat.zero_le 1
    · exact Nat.le_refl 1
  · intro hqueue
    rcases h.drain with ⟨-, -, hnone⟩ | ⟨pc, hdrains, -⟩
    · exact absurd hnone hqueue
    · rw [hdrains]
      exact List.cons_ne_nil _ _
  · intro results
    obtain ⟨hrest, horderly, hcalls, hqueued⟩ := drainFor_rest results s.work h (Nat.le_refl _)
    obtain ⟨hunrun, hwaiters, hdelivering⟩ := horderly.rest hrest
    have hruns := horderly.runs
    have hcallbacks := horderly.callbacks
    rw [hunrun, hqueued] at hruns
    rw [hwaiters, hdelivering, hcalls] at hcallbacks
    exact ⟨hrest, hruns, hcallbacks, fun x hx => horderly.outcomes hx⟩

theorem queueGuaranteed_of_reachable_sample :
    QueueGuaranteed (initial.step (.refreshWithOutcome 3 true)) :=
  queueGuaranteed_of_reachable _
    ((Library.System.Reachable.init rfl).step ⟨.refreshWithOutcome 3 true, rfl⟩)

end Throned.Subscription.GroupUpdater

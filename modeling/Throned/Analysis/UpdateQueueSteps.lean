import Throned.Analysis.UpdateQueueInvariant

/-!
# The steps of the update queue

Each call and each step of the drain keeps the invariant.
-/

set_option autoImplicit false

namespace Throned.Subscription.GroupUpdater

variable {s : GroupUpdater}

/-! ## The calls -/

theorem Orderly.refreshGroup (h : Orderly s) (gid : Int) : Orderly (s.RefreshGroup gid) := by
  unfold RefreshGroup
  split
  · exact h
  · rename_i hnew
    have hqueued := h.enqueue gid false true (fun _ => hnew) nofun
    rwa [if_pos rfl, if_neg nofun, Int.add_zero] at hqueued

theorem Orderly.enqueueImport (h : Orderly s) : Orderly s.enqueueImport := by
  have hqueued := h.enqueue (-1) false false nofun fun _ => ⟨by decide, rfl⟩
  rwa [if_neg nofun, if_neg nofun, Int.add_zero] at hqueued

theorem Orderly.refreshDue (h : Orderly s) (gid : Int) : Orderly (s.refreshDue gid) := by
  unfold GroupUpdater.refreshDue
  split
  · exact h
  · rename_i hnew
    have hqueued := h.enqueue gid true true (fun _ => hnew) nofun
    rwa [if_pos rfl, if_pos rfl] at hqueued

theorem Orderly.refreshAll (h : Orderly s) (due : List Int) : Orderly (s.RefreshAll due) := by
  unfold RefreshAll
  split
  · exact h
  · rename_i hidle
    clear hidle
    induction due generalizing s with
    | nil => exact h
    | cons gid due ih => exact ih (h.refreshDue gid)

theorem Orderly.refreshWithOutcome (h : Orderly s) (gid : Int) (done : Bool) :
    Orderly (s.RefreshWithOutcome gid done) := by
  unfold RefreshWithOutcome
  by_cases hneg : gid < 0
  · rwa [if_pos hneg]
  · rw [if_neg hneg]
    have hnonneg : 0 ≤ gid := Int.not_lt.mp hneg
    by_cases hmarked : gid ∈ s.pending
    · cases done with
      | false => simpa [hmarked] using h
      | true => simpa [hmarked] using h.wait hnonneg hmarked
    · have hqueued := h.enqueue gid false true (fun _ => hmarked) nofun
      rw [if_pos rfl, if_neg nofun, Int.add_zero] at hqueued
      cases done with
      | false => simpa [hmarked] using hqueued
      | true =>
        -- the callback is noted before the job is queued, in the same section
        have hwaiting := hqueued.wait hnonneg (by rw [enqueueLocked_eq]; simp)
        rw [enqueueLocked_eq] at hwaiting
        simp only [↓reduceIte, hmarked]
        rw [enqueueLocked_eq]
        exact hwaiting

/-! ## The drain -/

/-- There is one drain, and its number is 0. -/
theorem Orderly.getElem?_drains (h : Orderly s) {k : ℕ} {pc : DrainPc} (hpc : s.drains[k]? = some pc) :
    k = 0 ∧ s.drains = [pc] ∧ s.running = true := by
  rcases h.drain with ⟨hdrains, -⟩ | ⟨pc', hdrains, hrunning⟩
  · rw [hdrains] at hpc
    cases hpc
  · rw [hdrains] at hpc
    obtain ⟨hk, hget⟩ := List.getElem?_eq_some_iff.mp hpc
    have hk0 : k = 0 := by simpa using hk
    subst hk0
    obtain rfl : pc' = pc := hget
    exact ⟨rfl, hdrains, hrunning⟩

theorem Orderly.takeEmpty (h : Orderly s) (hdrains : s.drains = [.take]) (hqueue : s.queue = []) :
    Orderly { s with running := false, drains := [] } := by
  have hjobs := h.jobs
  have hruns := h.runs
  have hcallbacks := h.callbacks
  unfold unsettled at hjobs
  unfold unrun at hruns
  unfold delivering at hcallbacks
  rw [hdrains] at hjobs hruns hcallbacks
  have hnone : s.unsettled = [] := by
    unfold unsettled
    rw [hdrains, hqueue]
    rfl
  have hunsettled : unsettled { s with running := false, drains := [] } = [] := by
    unfold unsettled
    rw [hqueue]
    rfl
  refine ⟨.inl ⟨rfl, rfl, hqueue⟩, ?_, ?_, ?_, ?_, ?_, ?_, ?_, h.waiting, hcallbacks, h.before, nofun,
    nofun, fun x hx => (h.invoked x hx).congr (fun _ hx => hx) fun _ hc => hc⟩
  · exact hjobs
  · exact hruns
  · rw [hunsettled]
    exact List.nodup_nil
  · rw [hunsettled]
    exact nofun
  · intro gid hgid hnonneg
    obtain ⟨job, hjob, -⟩ := h.owned gid hgid hnonneg
    rw [hnone] at hjob
    cases hjob
  · rw [hunsettled]
    exact nofun
  · have hbatch := h.batch
    rw [hnone] at hbatch
    rw [hunsettled]
    exact hbatch

/-- A drain that moves on without touching anything else. -/
theorem Orderly.move (h : Orderly s) (hrunning : s.running = true) (pc : DrainPc) (queue : List Job)
    (hunsettled : unsettled { s with queue, drains := [pc] } = s.unsettled)
    (hunrun : unrun { s with queue, drains := [pc] } = s.unrun)
    (hdelivering : delivering { s with queue, drains := [pc] } = s.delivering)
    (hsettle : ∀ job outcome, pc ≠ .settle job outcome)
    (hdeliver : ∀ job outcome waiting, pc ≠ .deliver job outcome waiting) :
    Orderly { s with queue, drains := [pc] } := by
  refine ⟨.inr ⟨pc, rfl, hrunning⟩, ?_, ?_, ?_, ?_, ?_, ?_, ?_, h.waiting, ?_, h.before, ?_, ?_,
    fun x hx => (h.invoked x hx).congr (fun _ hx => hx) fun _ hc => hc⟩
  · rw [hunsettled]
    exact h.jobs
  · rw [hunrun]
    exact h.runs
  · rw [hunsettled]
    exact h.refreshes
  · rw [hunsettled]
    exact h.marked
  · rw [hunsettled]
    exact h.owned
  · rw [hunsettled]
    exact h.imports
  · rw [hunsettled]
    exact h.batch
  · rw [hdelivering]
    exact h.callbacks
  · exact fun job outcome hpc => absurd (List.mem_singleton.mp hpc).symm (hsettle job outcome)
  · exact fun job outcome waiting hpc =>
      absurd (List.mem_singleton.mp hpc).symm (hdeliver job outcome waiting)

/-- Taking a job keeps it among those that are queued or running. -/
theorem Orderly.takeJob (h : Orderly s) (hdrains : s.drains = [.take]) {job : Job} {rest : List Job}
    (hqueue : s.queue = job :: rest) (hrunning : s.running = true) :
    Orderly { s with queue := rest, drains := [.run job] } := by
  apply h.move hrunning (.run job) rest _ _ _ nofun nofun
  · unfold unsettled
    rw [hdrains, hqueue]
    rfl
  · unfold unrun
    rw [hdrains, hqueue]
    rfl
  · unfold delivering
    rw [hdrains]
    rfl

theorem Orderly.deliverDone (h : Orderly s) {job : Job} {outcome : UpdateOutcome}
    (hdrains : s.drains = [.deliver job outcome []]) (hrunning : s.running = true) :
    Orderly { s with drains := [.take] } := by
  apply h.move hrunning .take s.queue _ _ _ nofun nofun
  · unfold unsettled
    rw [hdrains]
    rfl
  · unfold unrun
    rw [hdrains]
    rfl
  · unfold delivering
    rw [hdrains]
    rfl

theorem Orderly.runJob (h : Orderly s) {job : Job} (hdrains : s.drains = [.run job])
    (hrunning : s.running = true) (result : UpdateOutcome) :
    Orderly { s with drains := [.settle job result], ran := s.ran ++ [(job, result)] } := by
  have hunsettled : unsettled { s with
      drains := [.settle job result], ran := s.ran ++ [(job, result)] } = s.unsettled := by
    unfold unsettled
    rw [hdrains]
    rfl
  have hran : ∀ x ∈ s.ran, x ∈ s.ran ++ [(job, result)] := fun x hx => List.mem_append_left _ hx
  refine ⟨.inr ⟨.settle job result, rfl, hrunning⟩, ?_, ?_, ?_, ?_, ?_, ?_, ?_, h.waiting, ?_, h.before,
    ?_, ?_, fun x hx => (h.invoked x hx).congr hran fun _ hc => hc⟩
  · rw [hunsettled]
    exact h.jobs
  · have hruns := h.runs
    unfold unrun at hruns ⊢
    rw [hdrains] at hruns
    simp only [List.flatMap_cons, List.flatMap_nil, DrainPc.unrun, List.append_nil, List.map_append,
      List.map_cons, List.map_nil, List.nil_append, List.cons_append] at hruns ⊢
    rw [← List.append_assoc]
    exact List.perm_append_comm.trans hruns
  · rw [hunsettled]
    exact h.refreshes
  · rw [hunsettled]
    exact h.marked
  · rw [hunsettled]
    exact h.owned
  · rw [hunsettled]
    exact h.imports
  · rw [hunsettled]
    exact h.batch
  · have hcallbacks := h.callbacks
    unfold delivering at hcallbacks ⊢
    rw [hdrains] at hcallbacks
    exact hcallbacks
  · intro job' outcome hpc
    cases List.mem_singleton.mp hpc
    exact List.mem_append_right _ (List.mem_singleton_self _)
  · intro job' outcome waiting hpc
    cases List.mem_singleton.mp hpc

/-- **Settling a job** clears its mark and takes its callbacks in one section. -/
theorem Orderly.settled_job (h : Orderly s) {job : Job} {outcome : UpdateOutcome}
    (hdrains : s.drains = [.settle job outcome]) (hrunning : s.running = true) :
    Orderly { (s.settleJob job).1 with drains := [.deliver job outcome (s.settleJob job).2] } := by
  have hunsettled : s.unsettled = job :: s.queue := by
    unfold unsettled
    rw [hdrains]
    rfl
  have hjobs := h.jobs
  have hruns := h.runs
  have hrefreshes := h.refreshes
  have hbatch := h.batch
  have hcallbacks := h.callbacks
  rw [hunsettled] at hjobs hrefreshes hbatch
  unfold unrun at hruns
  unfold delivering at hcallbacks
  rw [hdrains] at hruns hcallbacks
  have hqueued : ∀ job' ∈ s.queue, job' ∈ s.unsettled := by
    rw [hunsettled]
    exact fun job' hjob' => List.mem_cons_of_mem _ hjob'
  have hjobs' : (s.queue.map (·.id) ++ (s.settled ++ [job.id])).Perm (List.range s.queued) := by
    rw [← List.append_assoc]
    exact List.perm_append_comm.trans hjobs
  have hrefreshes' : ((s.queue.filter (·.refresh)).map (·.gid)).Nodup :=
    (((List.sublist_cons_self job s.queue).filter _).map _).nodup hrefreshes
  have hbatch' : (if job.batch then s.pendingBatch - 1 else s.pendingBatch) =
      (s.queue.countP (·.batch) : Int) := by
    rw [hbatch, List.countP_cons]
    split
    · push_cast
      omega
    · simp
  have hbefore : ∀ call ∈ s.calls, ∀ id ∈ call.settledBefore, id ∈ s.settled ++ [job.id] :=
    fun call hcall id hid => List.mem_append_left _ (h.before call hcall id hid)
  unfold GroupUpdater.settleJob
  by_cases hnonneg : 0 ≤ job.gid
  · simp only [if_pos hnonneg]
    have hjobRefresh : job.refresh = true := by
      cases hjob : job.refresh with
      | true => rfl
      | false =>
        have hmem : job ∈ s.unsettled := by
          rw [hunsettled]
          exact List.mem_cons_self
        have := (h.imports job hmem hjob).1
        omega
    rw [List.filter_cons_of_pos hjobRefresh, List.map_cons, List.nodup_cons] at hrefreshes
    have hother : ∀ job' ∈ s.queue, job'.refresh = true → job'.gid ≠ job.gid :=
      fun job' hjob' href heq =>
        hrefreshes.1 (List.mem_map.mpr ⟨job', List.mem_filter.mpr ⟨hjob', href⟩, heq⟩)
    have hkept : ∀ gid, gid ∈ s.pending.filter (fun gid => gid ≠ job.gid) ↔
        gid ∈ s.pending ∧ gid ≠ job.gid := by
      intro gid
      rw [List.mem_filter, decide_eq_true_eq]
    refine ⟨.inr ⟨_, rfl, hrunning⟩, hjobs', hruns, hrefreshes', ?_, ?_, ?_, hbatch', ?_, ?_, hbefore,
      ?_, ?_, fun x hx => (h.invoked x hx).congr (fun _ hx => hx) fun _ hc => hc⟩
    · intro job' hjob' href
      exact (hkept _).mpr ⟨h.marked job' (hqueued job' hjob') href, hother job' hjob' href⟩
    · intro gid hgid hgid0
      obtain ⟨hold, hne⟩ := (hkept gid).mp hgid
      obtain ⟨job', hjob', href, rfl⟩ := h.owned gid hold hgid0
      rw [hunsettled] at hjob'
      rcases List.mem_cons.mp hjob' with rfl | hin
      · exact absurd rfl hne
      · exact ⟨job', hin, href, rfl⟩
    · exact fun job' hjob' himport => h.imports job' (hqueued job' hjob') himport
    · intro w hw
      obtain ⟨hmem, hne⟩ := List.mem_filter.mp hw
      obtain ⟨hw0, hw1, hcall⟩ := h.waiting w hmem
      exact ⟨hw0, (hkept _).mpr ⟨hw1, of_decide_eq_true hne⟩, hcall⟩
    · have hsplit := (List.filter_append_perm (fun w : Int × ℕ => w.1 = job.gid) s.waiters).map Prod.snd
      rw [List.map_append] at hsplit
      have hneq : s.waiters.filter (fun w => w.1 ≠ job.gid) =
          s.waiters.filter fun w => !decide (w.1 = job.gid) := by
        apply List.filter_congr
        intro w _
        exact decide_not
      unfold delivering
      simp only [List.flatMap_cons, List.flatMap_nil, DrainPc.delivering, List.append_nil] at hcallbacks ⊢
      rw [hneq]
      exact ((List.perm_append_comm.trans hsplit).append_right _).trans hcallbacks
    · exact fun job' outcome' hpc => by cases List.mem_singleton.mp hpc
    · intro job' outcome' waiting hpc callback hcallback
      cases List.mem_singleton.mp hpc
      obtain ⟨w, hw, rfl⟩ := List.mem_map.mp hcallback
      obtain ⟨hmem, hgid⟩ := List.mem_filter.mp hw
      obtain ⟨-, -, call, hcall, hcallGid⟩ := h.waiting w hmem
      refine ⟨hjobRefresh, h.settling job outcome ?_, call, hcall, ?_, fun hid => ?_⟩
      · rw [hdrains]
        exact List.mem_singleton_self _
      · rw [hcallGid, of_decide_eq_true hgid]
      · -- the job was not settled before this step, so it is no refresh settled before the call
        have hsettled := h.before call (List.mem_of_getElem? hcall) job.id hid
        have hnodup := hjobs.nodup_iff.mpr List.nodup_range
        exact List.disjoint_of_nodup_append hnodup List.mem_cons_self hsettled
  · simp only [if_neg hnonneg]
    have hother : ∀ gid, 0 ≤ gid → gid ≠ job.gid := fun gid hgid heq => hnonneg (heq ▸ hgid)
    refine ⟨.inr ⟨_, rfl, hrunning⟩, hjobs', hruns, hrefreshes', ?_, ?_, ?_, hbatch', h.waiting, ?_,
      hbefore, ?_, ?_, fun x hx => (h.invoked x hx).congr (fun _ hx => hx) fun _ hc => hc⟩
    · exact fun job' hjob' href => h.marked job' (hqueued job' hjob') href
    · intro gid hgid hgid0
      obtain ⟨job', hjob', href, rfl⟩ := h.owned gid hgid hgid0
      rw [hunsettled] at hjob'
      rcases List.mem_cons.mp hjob' with rfl | hin
      · exact absurd hgid0 hnonneg
      · exact ⟨job', hin, href, rfl⟩
    · exact fun job' hjob' himport => h.imports job' (hqueued job' hjob') himport
    · exact hcallbacks
    · exact fun job' outcome' hpc => by cases List.mem_singleton.mp hpc
    · intro job' outcome' waiting hpc callback hcallback
      cases List.mem_singleton.mp hpc
      cases hcallback

theorem Orderly.deliverOne (h : Orderly s) {job : Job} {outcome : UpdateOutcome} {call : ℕ}
    {rest : List ℕ} (hdrains : s.drains = [.deliver job outcome (call :: rest)])
    (hrunning : s.running = true) :
    Orderly { s with
      drains := [.deliver job outcome rest], invoked := s.invoked ++ [(call, job, outcome)] } := by
  have hunsettled : unsettled { s with
      drains := [.deliver job outcome rest], invoked := s.invoked ++ [(call, job, outcome)] } =
      s.unsettled := by
    unfold unsettled
    rw [hdrains]
    rfl
  have htaken := h.taken job outcome (call :: rest) (by rw [hdrains]; exact List.mem_singleton_self _)
  refine ⟨.inr ⟨_, rfl, hrunning⟩, ?_, ?_, ?_, ?_, ?_, ?_, ?_, h.waiting, ?_, h.before, ?_, ?_, ?_⟩
  · rw [hunsettled]
    exact h.jobs
  · have hruns := h.runs
    unfold unrun at hruns ⊢
    rw [hdrains] at hruns
    exact hruns
  · rw [hunsettled]
    exact h.refreshes
  · rw [hunsettled]
    exact h.marked
  · rw [hunsettled]
    exact h.owned
  · rw [hunsettled]
    exact h.imports
  · rw [hunsettled]
    exact h.batch
  · have hcallbacks := h.callbacks
    unfold delivering at hcallbacks ⊢
    rw [hdrains] at hcallbacks
    simp only [List.flatMap_cons, List.flatMap_nil, DrainPc.delivering, List.append_nil,
      List.map_append, List.map_cons, List.map_nil] at hcallbacks ⊢
    refine List.Perm.trans ?_ hcallbacks
    rw [← List.append_assoc]
    refine List.perm_append_comm.trans ?_
    rw [List.singleton_append, List.append_assoc, List.append_assoc, List.cons_append]
    exact List.perm_middle.symm
  · exact fun job' outcome' hpc => by cases List.mem_singleton.mp hpc
  · intro job' outcome' waiting hpc callback hcallback
    cases List.mem_singleton.mp hpc
    exact (htaken callback (List.mem_cons_of_mem _ hcallback)).congr (fun _ hx => hx) fun _ hc => hc
  · intro x hx
    rcases List.mem_append.mp hx with hold | hnew
    · exact (h.invoked x hold).congr (fun _ hx => hx) fun _ hc => hc
    · obtain rfl := List.mem_singleton.mp hnew
      exact (htaken call List.mem_cons_self).congr (fun _ hx => hx) fun _ hc => hc

/-- **Every step of the drain keeps the invariant.** -/
theorem Orderly.drain_step (h : Orderly s) (k : ℕ) (result : UpdateOutcome) :
    Orderly (s.drain k result) := by
  unfold GroupUpdater.drain
  cases hpc : s.drains[k]? with
  | none => exact h
  | some pc =>
    obtain ⟨rfl, hdrains, hrunning⟩ := h.getElem?_drains hpc
    cases pc with
    | take =>
      simp only
      cases hqueue : s.queue with
      | nil =>
        have hempty := h.takeEmpty hdrains hqueue
        rw [hdrains, List.eraseIdx_cons_zero]
        rwa [hqueue] at hempty
      | cons job rest =>
        simp only [hdrains, List.set_cons_zero]
        exact h.takeJob hdrains hqueue hrunning
    | run job =>
      simp only [hdrains, List.set_cons_zero]
      exact h.runJob hdrains hrunning result
    | settle job outcome =>
      have hsettled := h.settled_job hdrains hrunning
      have hsame : (s.settleJob job).1.drains = s.drains := by
        unfold GroupUpdater.settleJob
        split <;> rfl
      simp only [hsame, hdrains, List.set_cons_zero]
      exact hsettled
    | deliver job outcome waiting =>
      cases waiting with
      | nil =>
        simp only [hdrains, List.set_cons_zero]
        exact h.deliverDone hdrains hrunning
      | cons call rest =>
        simp only [hdrains, List.set_cons_zero]
        exact h.deliverOne hdrains hrunning

/-- **The invariant of the update queue.** -/
theorem orderly_of_reachable (hs : updateQueue.Reachable s) : Orderly s := by
  apply hs.invariant
  · rintro _ rfl
    exact orderly_initial
  · rintro s _ - h ⟨event, rfl⟩
    cases event with
    | refreshGroup gid => exact h.refreshGroup gid
    | refreshWithOutcome gid done => exact h.refreshWithOutcome gid done
    | refreshAll due => exact h.refreshAll due
    | enqueueImport => exact h.enqueueImport
    | drain k result => exact h.drain_step k result

end Throned.Subscription.GroupUpdater

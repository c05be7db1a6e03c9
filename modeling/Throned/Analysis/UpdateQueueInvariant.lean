import Mathlib.Data.List.Perm.Basic
import Throned.Model.UpdateQueue

/-!
# The invariant of the update queue

There is one drain while anything is queued.  A gid is pending while a refresh of it is
queued or running, and a callback waits only for a pending gid, so the job that clears the
mark is the one that takes the callback.
-/

set_option autoImplicit false

namespace Throned.Subscription.GroupUpdater

/-- A callback gets the outcome of a refresh of its group that had not settled at its call. -/
structure Delivers (s : GroupUpdater) (callback : ℕ) (job : Job) (outcome : UpdateOutcome) :
    Prop where
  refresh : job.refresh = true
  ran : (job, outcome) ∈ s.ran
  call : ∃ call, s.calls[callback]? = some call ∧ job.gid = call.gid ∧ job.id ∉ call.settledBefore

structure Orderly (s : GroupUpdater) : Prop where
  drain : (s.drains = [] ∧ s.running = false ∧ s.queue = []) ∨ ∃ pc, s.drains = [pc] ∧ s.running = true
  jobs : (s.unsettled.map (·.id) ++ s.settled).Perm (List.range s.queued)
  runs : (s.unrun.map (·.id) ++ s.ran.map fun x => x.1.id).Perm (List.range s.queued)
  refreshes : ((s.unsettled.filter (·.refresh)).map (·.gid)).Nodup
  marked : ∀ job ∈ s.unsettled, job.refresh = true → job.gid ∈ s.pending
  owned : ∀ gid ∈ s.pending, 0 ≤ gid → ∃ job ∈ s.unsettled, job.refresh = true ∧ job.gid = gid
  imports : ∀ job ∈ s.unsettled, job.refresh = false → job.gid < 0 ∧ job.batch = false
  batch : s.pendingBatch = s.unsettled.countP (·.batch)
  waiting : ∀ w ∈ s.waiters, 0 ≤ w.1 ∧ w.1 ∈ s.pending ∧
    ∃ call, s.calls[w.2]? = some call ∧ call.gid = w.1
  callbacks : (s.waiters.map Prod.snd ++ s.delivering ++ s.invoked.map Prod.fst).Perm
    (List.range s.calls.length)
  before : ∀ call ∈ s.calls, ∀ id ∈ call.settledBefore, id ∈ s.settled
  settling : ∀ job outcome, DrainPc.settle job outcome ∈ s.drains → (job, outcome) ∈ s.ran
  taken : ∀ job outcome waiting, DrainPc.deliver job outcome waiting ∈ s.drains →
    ∀ callback ∈ waiting, s.Delivers callback job outcome
  invoked : ∀ x ∈ s.invoked, s.Delivers x.1 x.2.1 x.2.2

theorem orderly_initial : Orderly initial where
  drain := .inl ⟨rfl, rfl, rfl⟩
  jobs := List.Perm.refl _
  runs := List.Perm.refl _
  refreshes := List.nodup_nil
  marked := nofun
  owned := nofun
  imports := nofun
  batch := rfl
  waiting := nofun
  callbacks := List.Perm.refl _
  before := nofun
  settling := nofun
  taken := nofun
  invoked := nofun

/-! ## Calls -/

theorem enqueueLocked_eq (s : GroupUpdater) (gid : Int) (batch refresh : Bool) :
    s.enqueueLocked gid batch refresh =
      { s with
        queue := s.queue ++ [⟨s.queued, gid, batch, refresh⟩]
        queued := s.queued + 1, running := true
        drains := if s.running then s.drains else s.drains ++ [.take] } := by
  unfold enqueueLocked
  cases hrunning : s.running with
  | true => simp only [↓reduceIte]
  | false => rfl

/-- A drain that starts holds nothing. -/
theorem flatMap_started {α : Type} (s : GroupUpdater) (f : DrainPc → List α) (hf : f .take = []) :
    (if s.running then s.drains else s.drains ++ [.take]).flatMap f = s.drains.flatMap f := by
  split
  · rfl
  · simp [hf]

theorem mem_started {s : GroupUpdater} {pc : DrainPc}
    (h : pc ∈ if s.running then s.drains else s.drains ++ [.take]) : pc ∈ s.drains ∨ pc = .take := by
  split at h
  · exact .inl h
  · simpa using h

theorem Delivers.congr {s t : GroupUpdater} {callback : ℕ} {job : Job} {outcome : UpdateOutcome}
    (h : s.Delivers callback job outcome) (hran : ∀ x ∈ s.ran, x ∈ t.ran)
    (hcalls : ∀ call, s.calls[callback]? = some call → t.calls[callback]? = some call) :
    t.Delivers callback job outcome := by
  obtain ⟨call, hcall, hgid, hbefore⟩ := h.call
  exact ⟨h.refresh, hran _ h.ran, call, hcalls call hcall, hgid, hbefore⟩

/-- **Queueing a job.**  A refresh takes the mark of its group with it. -/
theorem Orderly.enqueue {s : GroupUpdater} (h : Orderly s) (gid : Int) (batch refresh : Bool)
    (hrefresh : refresh = true → gid ∉ s.pending)
    (himport : refresh = false → gid < 0 ∧ batch = false) :
    Orderly ({ s with
      pending := if refresh then s.pending ++ [gid] else s.pending
      pendingBatch := s.pendingBatch + if batch then 1 else 0 }.enqueueLocked gid batch refresh) := by
  rw [enqueueLocked_eq]
  have hheld := flatMap_started s DrainPc.held rfl
  have hunrun := flatMap_started s DrainPc.unrun rfl
  have hdelivering := flatMap_started s DrainPc.delivering rfl
  have hpending : ∀ g ∈ s.pending, g ∈ if refresh then s.pending ++ [gid] else s.pending := by
    intro g hg
    split
    · exact List.mem_append_left _ hg
    · exact hg
  have hrange : ∀ {ids rest : List ℕ}, (ids ++ rest).Perm (List.range s.queued) →
      ((ids ++ [s.queued]) ++ rest).Perm (List.range (s.queued + 1)) := by
    intro ids rest hperm
    rw [List.range_succ, List.append_assoc]
    refine (List.perm_append_comm.append_left ids).trans ?_
    rw [← List.append_assoc]
    exact hperm.append_right [s.queued]
  have hunsettled : unsettled { s with
      queue := s.queue ++ [⟨s.queued, gid, batch, refresh⟩]
      queued := s.queued + 1, running := true
      drains := if s.running then s.drains else s.drains ++ [.take]
      pending := if refresh then s.pending ++ [gid] else s.pending
      pendingBatch := s.pendingBatch + if batch then 1 else 0 } =
      s.unsettled ++ [⟨s.queued, gid, batch, refresh⟩] := by
    unfold unsettled
    simp only
    rw [hheld, List.append_assoc]
  constructor
  · right
    rcases h.drain with ⟨hdrains, hrunning, -⟩ | ⟨pc, hdrains, hrunning⟩
    · exact ⟨.take, by simp [hdrains, hrunning], rfl⟩
    · exact ⟨pc, by simp [hdrains, hrunning], rfl⟩
  · simp only
    rw [hunsettled, List.map_append]
    exact hrange h.jobs
  · unfold unrun
    simp only
    rw [hunrun, List.map_append, List.map_append, ← List.append_assoc, ← List.map_append]
    exact hrange h.runs
  · rw [hunsettled, List.filter_append, List.map_append]
    cases refresh with
    | false => simpa using h.refreshes
    | true =>
      refine h.refreshes.append (List.nodup_singleton gid) ?_
      intro g hg hg'
      obtain ⟨job, hjob, rfl⟩ := List.mem_map.mp hg
      obtain ⟨hmem, hjobRefresh⟩ := List.mem_filter.mp hjob
      have hsame : job.gid = gid := by simpa using hg'
      exact hrefresh rfl (hsame ▸ h.marked job hmem hjobRefresh)
  · rw [hunsettled]
    intro job hjob hjobRefresh
    rcases List.mem_append.mp hjob with hold | hnew
    · exact hpending _ (h.marked job hold hjobRefresh)
    · obtain rfl := List.mem_singleton.mp hnew
      simp only at hjobRefresh ⊢
      rw [hjobRefresh, if_pos rfl]
      exact List.mem_append_right _ (List.mem_singleton_self _)
  · rw [hunsettled]
    intro g hg hnonneg
    have hcases : g ∈ s.pending ∨ (refresh = true ∧ g = gid) := by
      simp only at hg
      split at hg
      · rename_i hr
        rcases List.mem_append.mp hg with hold | hnew
        · exact .inl hold
        · exact .inr ⟨hr, List.mem_singleton.mp hnew⟩
      · exact .inl hg
    rcases hcases with hold | ⟨hr, rfl⟩
    · obtain ⟨job, hjob, howned⟩ := h.owned g hold hnonneg
      exact ⟨job, List.mem_append_left _ hjob, howned⟩
    · exact ⟨_, List.mem_append_right _ (List.mem_singleton_self _), hr, rfl⟩
  · rw [hunsettled]
    intro job hjob hjobImport
    rcases List.mem_append.mp hjob with hold | hnew
    · exact h.imports job hold hjobImport
    · obtain rfl := List.mem_singleton.mp hnew
      exact himport hjobImport
  · rw [hunsettled, List.countP_append, List.countP_singleton]
    simp only
    rw [h.batch]
    push_cast
    rfl
  · intro w hw
    obtain ⟨hnonneg, hmarked, hcall⟩ := h.waiting w hw
    exact ⟨hnonneg, hpending _ hmarked, hcall⟩
  · unfold delivering
    simp only
    rw [hdelivering]
    exact h.callbacks
  · exact h.before
  · intro job outcome hpc
    rcases mem_started hpc with hold | hnew
    · exact h.settling job outcome hold
    · cases hnew
  · intro job outcome waiting hpc callback hcallback
    rcases mem_started hpc with hold | hnew
    · exact (h.taken job outcome waiting hold callback hcallback).congr (fun _ hx => hx) fun _ hc => hc
    · cases hnew
  · intro x hx
    exact (h.invoked x hx).congr (fun _ hx => hx) fun _ hc => hc

/-- **A callback joins the refresh of a pending group.** -/
theorem Orderly.wait {s : GroupUpdater} (h : Orderly s) {gid : Int} (hnonneg : 0 ≤ gid)
    (hmarked : gid ∈ s.pending) :
    Orderly { s with
      waiters := s.waiters ++ [(gid, s.calls.length)]
      calls := s.calls ++ [⟨gid, s.settled⟩] } := by
  have hcalls : ∀ (callback : ℕ) (call : OutcomeCall), s.calls[callback]? = some call →
      (s.calls ++ [⟨gid, s.settled⟩])[callback]? = some call := by
    intro callback call hcall
    obtain ⟨hlt, -⟩ := List.getElem?_eq_some_iff.mp hcall
    rwa [List.getElem?_append_left hlt]
  refine { h with waiting := ?_, callbacks := ?_, before := ?_, taken := ?_, invoked := ?_ }
  · intro w hw
    rcases List.mem_append.mp hw with hold | hnew
    · obtain ⟨hw0, hw1, call, hcall, hgid⟩ := h.waiting w hold
      exact ⟨hw0, hw1, call, hcalls _ _ hcall, hgid⟩
    · obtain rfl := List.mem_singleton.mp hnew
      exact ⟨hnonneg, hmarked, ⟨gid, s.settled⟩, List.getElem?_concat_length, rfl⟩
  · have hperm := h.callbacks
    unfold delivering at hperm ⊢
    simp only
    rw [List.length_append, List.length_singleton, List.range_succ, List.map_append,
      List.append_assoc, List.append_assoc]
    rw [List.append_assoc] at hperm
    refine (List.perm_append_comm.append_left _).trans ?_
    rw [← List.append_assoc]
    exact hperm.append_right _
  · intro call hcall
    rcases List.mem_append.mp hcall with hold | hnew
    · exact h.before call hold
    · obtain rfl := List.mem_singleton.mp hnew
      exact fun _ hid => hid
  · intro job outcome waiting hpc callback hcallback
    exact (h.taken job outcome waiting hpc callback hcallback).congr (fun _ hx => hx)
      fun call hcall => hcalls _ _ hcall
  · intro x hx
    exact (h.invoked x hx).congr (fun _ hx => hx) fun call hcall => hcalls _ _ hcall

end Throned.Subscription.GroupUpdater
